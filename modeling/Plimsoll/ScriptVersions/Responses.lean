import Plimsoll.Manifest
import Plimsoll.ScriptVersions
import Plimsoll.Sql.Jsonb

/-!
The plan's summary on its way through `script_versions.metadata`: the document that
`summary_as_metadata` writes, and what `_version_response` reads of it.
-/

namespace Plimsoll.ScriptVersions

open Python Pydantic Jmx Contracts Manifests

/-! ## The document -/

/-- A list of texts. -/
def texts (items : List String) : Value := .list (items.map .str)

/-- A target as a mapping. -/
def TargetMetadata.items (target : TargetMetadata) : List (Value × Value) :=
  [(.str "scheme", .str target.scheme),
    (.str "host", .str target.host),
    (.str "port", target.port.elim .none fun port => .int port)]

def TargetMetadata.document (target : TargetMetadata) : Value := .dict target.items

/-- The mapping that `summary_as_metadata` returns. -/
def PlanMetadata.items (metadata : PlanMetadata) : List (Value × Value) :=
  [(.str "threadGroups", texts metadata.threadGroups),
    (.str "transactionControllers", texts metadata.transactionControllers),
    (.str "timers", texts metadata.timers),
    (.str "variables", texts metadata.variableNames),
    (.str "dataFiles", texts metadata.dataFiles),
    (.str "targets", .list (metadata.targets.map TargetMetadata.document))]

def PlanMetadata.document (metadata : PlanMetadata) : Value := .dict metadata.items

/-! ## Reading it -/

/-- `ScriptVersionResponse`. -/
structure ScriptVersionResponse where
  id : Uuid
  scriptRepoId : Uuid
  commitSha : String
  planPath : String
  checksum : String
  planSummary : Option PlanSummaryResponse
  resolvedAt : Timestamp
deriving DecidableEq

/-- An `int` field of a model. What it makes of values that are no `int` is pydantic's
affair. -/
structure IntField where
  read : Value → Validated Nat
  read_int : ∀ n : Nat, read (.int n) = .ok n

variable (rt : Runtime) (ints : IntField)

def targetFields (items : List (Value × Value)) : Validated PlanTargetResponse :=
  (both (required items "scheme" (anyText rt))
    (both (required items "host" (anyText rt))
      (required items "port" (nullable ints.read)))).map
    fun (scheme, host, port) => { scheme, host, port }

/-- `PlanTargetResponse(**target)`. -/
def targetResponse (target : Value) : Except Raised PlanTargetResponse :=
  match target with
  | .dict items => (targetFields rt ints items).mapError fun _ => .valueError
  | _ => .error .typeError

/-- `[PlanTargetResponse(**target) for target in metadata.get("targets", [])]`. -/
def targetResponses (items : List (Value × Value)) : Except Raised (List PlanTargetResponse) :=
  match (Value.get? "targets" items).getD (.list []) with
  | .list targets => targets.mapM (targetResponse rt ints)
  | .str "" => .ok []
  | .dict [] => .ok []
  | _ => .error .typeError

/-- A field of `PlanSummaryResponse`, given as `metadata.get(key, [])`. -/
def listField (items : List (Value × Value)) (key : String) : Validated (List String) :=
  under key (listOf (anyText rt) ((Value.get? key items).getD (.list [])))

/-- `PlanSummaryResponse(...)` of a mapping. -/
def planSummaryResponse (items : List (Value × Value)) : Except Raised PlanSummaryResponse := do
  let targets ← targetResponses rt ints items
  let fields : Validated PlanSummaryResponse :=
    (both (listField rt items "threadGroups")
      (both (listField rt items "transactionControllers")
        (both (listField rt items "timers")
          (both (listField rt items "variables") (listField rt items "dataFiles"))))).map
      fun (threadGroups, transactionControllers, timers, variableNames, dataFiles) =>
        { threadGroups, transactionControllers, timers, variableNames, dataFiles, targets }
  fields.mapError fun _ => .valueError

/-- `not metadata`. -/
def isEmpty : Value → Bool
  | .none => true
  | .bool b => !b
  | .int n => n == 0
  | .float shown => shown == "0.0" || shown == "-0.0"
  | .str s => s == ""
  | .list items => items.isEmpty
  | .dict items => items.isEmpty
  | _ => false

/-- The `plan_summary` of `_version_response`. -/
def planSummary (metadata : Value) : Except Raised (Option PlanSummaryResponse) :=
  if isEmpty metadata then .ok none
  else
    match metadata with
    | .dict items => (planSummaryResponse rt ints items).map some
    | _ => .error .attributeError

/-- `_version_response`, of a row whose metadata has been through its column. -/
def versionResponse (row : ScriptVersion) : Except Raised ScriptVersionResponse := do
  let planSummary ← planSummary rt ints (Sql.jsonb row.metadata.document)
  return {
    id := row.id
    scriptRepoId := row.scriptRepoId
    commitSha := row.commitSha
    planPath := row.planPath
    checksum := row.checksum
    planSummary
    resolvedAt := row.resolvedAt }

/-! ## The round trip -/

variable {rt ints}

theorem jsonb_texts (items : List String) : Sql.jsonb (texts items) = texts items := by
  rw [texts, Sql.jsonb, Sql.jsonbAll_eq, List.map_map]
  rfl

theorem all_ok {α : Type} (values : List α) : all (values.map .ok) = .ok values := by
  induction values with
  | nil => rfl
  | cons value rest ih =>
      rw [List.map_cons, all, ih]
      rfl

/-- A list of texts is read as it was written. -/
theorem listOf_texts (items : List String) : listOf (anyText rt) (texts items) = .ok items := by
  have read : ∀ n : Nat, ((items.map Value.str).zipIdx n).map
      (fun item => under (toString item.2) (anyText rt item.1)) = items.map .ok := by
    induction items with
    | nil => exact fun _ => rfl
    | cons item rest ih =>
        intro n
        rw [List.map_cons, List.zipIdx_cons, List.map_cons, ih]
        rfl
  unfold listOf texts
  dsimp only
  rw [read, all_ok]

section

variable (target : TargetMetadata)

theorem TargetMetadata.get?_stored (name : String) :
    Value.get? name (sortedBy Sql.keyLe (Sql.jsonbItems target.items)) =
      (Value.get? name target.items).map Sql.jsonb :=
  Sql.get?_jsonb (by simp [TargetMetadata.items])

/-- A target is read as it was written. -/
theorem targetResponse_document :
    targetResponse rt ints (Sql.jsonb target.document) =
      .ok { scheme := target.scheme, host := target.host, port := target.port } := by
  have port : nullable ints.read (Sql.jsonb (target.port.elim .none fun port => .int port)) =
      .ok target.port := by
    cases target.port with
    | none => rfl
    | some port =>
        change (ints.read (.int port)).map some = _
        rw [ints.read_int]
        rfl
  rw [TargetMetadata.document, Sql.jsonb, targetResponse]
  unfold targetFields required
  simp only [target.get?_stored]
  change (Except.map _ (both _ (both _ (under "port" (nullable ints.read
    (Sql.jsonb (target.port.elim .none fun port => .int port))))))).mapError _ = _
  rw [port]
  rfl

end

section

variable (metadata : PlanMetadata)

theorem PlanMetadata.get?_stored (name : String) :
    Value.get? name (sortedBy Sql.keyLe (Sql.jsonbItems metadata.items)) =
      (Value.get? name metadata.items).map Sql.jsonb :=
  Sql.get?_jsonb (by simp [PlanMetadata.items])

theorem targetResponses_document :
    targetResponses rt ints (sortedBy Sql.keyLe (Sql.jsonbItems metadata.items)) =
      .ok (metadata.targets.map fun target =>
        { scheme := target.scheme, host := target.host, port := target.port }) := by
  have read : ∀ targets : List TargetMetadata,
      ((targets.map TargetMetadata.document).map Sql.jsonb).mapM (targetResponse rt ints) =
        .ok (targets.map fun target =>
          { scheme := target.scheme, host := target.host, port := target.port }) := by
    intro targets
    induction targets with
    | nil => rfl
    | cons target rest ih =>
        simp only [List.map_cons, List.mapM_cons, targetResponse_document, ih]
        rfl
  have found : Value.get? "targets" metadata.items =
      some (.list (metadata.targets.map TargetMetadata.document)) := rfl
  unfold targetResponses
  rw [metadata.get?_stored, found, Option.map_some, Option.getD_some, Sql.jsonb, Sql.jsonbAll_eq]
  exact read metadata.targets

theorem listField_document {key : String} {items : List String}
    (found : Value.get? key metadata.items = some (texts items)) :
    listField rt (sortedBy Sql.keyLe (Sql.jsonbItems metadata.items)) key = .ok items := by
  rw [listField, metadata.get?_stored, found, Option.map_some, Option.getD_some, jsonb_texts,
    listOf_texts]
  rfl

/-- What the API serves of a version is the metadata that was written. -/
theorem planSummary_document :
    planSummary rt ints (Sql.jsonb metadata.document) =
      .ok (some {
        threadGroups := metadata.threadGroups
        transactionControllers := metadata.transactionControllers
        timers := metadata.timers
        variableNames := metadata.variableNames
        dataFiles := metadata.dataFiles
        targets := metadata.targets.map fun target =>
          { scheme := target.scheme, host := target.host, port := target.port } }) := by
  have stored : Sql.jsonb metadata.document =
      .dict (sortedBy Sql.keyLe (Sql.jsonbItems metadata.items)) := rfl
  have some : (sortedBy Sql.keyLe (Sql.jsonbItems metadata.items)).isEmpty = false := by
    rw [← Bool.not_eq_true, List.isEmpty_iff]
    intro empty
    have lengths := (List.perm_insertionSort
      (fun a b => Sql.keyLe a b = true) (Sql.jsonbItems metadata.items)).length_eq
    rw [show List.insertionSort _ _ = [] from empty] at lengths
    cases lengths
  rw [stored, planSummary, isEmpty, some, if_neg Bool.false_ne_true, planSummaryResponse, targetResponses_document, listField_document metadata rfl,
    listField_document metadata rfl, listField_document metadata rfl,
    listField_document metadata rfl, listField_document metadata rfl]
  rfl

end

end Plimsoll.ScriptVersions
