import Plimsoll.Jmx.Variables
import Plimsoll.Manifest

/-!
What the variables of an accepted manifest are. A mapping is refused among them,
and so is a scalar that is no text. A text is accepted whatever it says.
-/

namespace Plimsoll.Manifests

open Python Pydantic Jmx

/-! ## The document's variables -/

/-- What a list in a field of a mapping holds. -/
def listed (name : String) : Value → List Value
  | .dict items => ((Value.get? name items).map elements).getD []
  | _ => []

/-- What the document lists under `variables` of its plans. -/
def variableElements (document : List (Value × Value)) : List Value :=
  (listed "plans" (.dict document)).flatMap (listed "variables")

variable (rt : Runtime)

/-- All variables of the document are read as texts, and they and those of the
manifest are names. -/
structure DeclaresNames (document : List (Value × Value)) (manifest : Manifest) : Prop where
  document : ∀ element ∈ variableElements document,
    ∃ name, asText rt.decodeStrict element = some name ∧ isVariableName name = true
  manifest : ∀ plan ∈ manifest.plans, ∀ name ∈ plan.variableNames, isVariableName name = true

/-- The texts among the variables of the document are names. -/
def TextsAreNames (document : List (Value × Value)) : Prop :=
  ∀ element ∈ variableElements document, ∀ text, asText rt.decodeStrict element = some text →
    isVariableName text = true

variable {rt}

/-! ## Validation -/

theorem anyText_ok {value : Value} {text : String} (passed : anyText rt value = .ok text) :
    asText rt.decodeStrict value = some text := by
  obtain ⟨s, checked, rfl⟩ := map_ok.mp passed
  exact str_ok checked

theorem namesOnly_ok {value result : Value} (passed : namesOnly rt value = .ok result) :
    result = value := by
  unfold namesOnly at passed
  split at passed
  · split at passed
    · cases passed
      rfl
    · split at passed
      · cases passed
      · cases passed
  · cases passed
    rfl

/-- The variables of a plan are the texts of the elements, in order. -/
theorem planFields_variables {items : List (Value × Value)} {plan : ManifestPlan}
    (passed : planFields rt items = .ok plan) :
    List.Forall₂ (fun element name => asText rt.decodeStrict element = some name)
      (listed "variables" (.dict items)) plan.variableNames := by
  obtain ⟨⟨path, data, names⟩, together, rfl⟩ := map_ok.mp passed
  obtain ⟨-, together⟩ := both_ok.mp together
  obtain ⟨-, named⟩ := both_ok.mp together
  change List.Forall₂ _ (listed "variables" (.dict items)) names
  rw [listed]
  rcases optional_ok named with ⟨absent, rfl⟩ | ⟨value, found, named⟩
  · rw [absent]
    exact .nil
  · rw [found]
    cases checked : namesOnly rt value with
    | error issues => rw [checked] at named; cases named
    | ok same =>
        rw [checked, namesOnly_ok checked] at named
        exact (listOf_ok named).imp fun _ _ => anyText_ok

/-! ## The payload -/

theorem get?_pop {name other : String} (distinct : name ≠ other) (items : List (Value × Value)) :
    Value.get? name (Value.pop other items) = Value.get? name items := by
  have kept : ∀ value : Value, value.isText name = true → value.isText other = false := by
    intro value isName
    cases value with
    | str s =>
        have same : s = name := beq_iff_eq.mp isName
        exact beq_eq_false_iff_ne.mpr (same ▸ distinct)
    | _ => rfl
  unfold Value.get? Value.pop
  rw [List.find?_filter]
  congr 2
  funext item
  cases isName : item.1.isText name with
  | false => simp
  | true => simp [kept _ isName]

theorem get?_assign {name other : String} (distinct : name ≠ other) (value : Value)
    (items : List (Value × Value)) :
    Value.get? name (Value.assign other value items) = Value.get? name items := by
  have isOther : Value.isText name (.str other) = false := beq_eq_false_iff_ne.mpr distinct.symm
  rw [← get?_pop distinct items]
  unfold Value.get? Value.assign
  rw [List.find?_append, List.find?_cons_of_neg (by simp [isOther]), List.find?_nil, Option.or_none]

/-- The payload has the document's plans. -/
theorem get?_payload (document : List (Value × Value)) :
    Value.get? "plans" (payload document) = Value.get? "plans" document := by
  unfold payload
  split
  · rw [get?_assign (by decide), get?_pop (by decide)]
  · rw [get?_pop (by decide)]

theorem manifestFields_plans {document : List (Value × Value)} {manifest : Manifest}
    (passed : manifestFields rt (payload document) = .ok manifest) :
    List.Forall₂ (fun item plan => List.Forall₂
        (fun element name => asText rt.decodeStrict element = some name)
        (listed "variables" item) plan.variableNames)
      (listed "plans" (.dict document)) manifest.plans := by
  obtain ⟨⟨engine, jmeterVersion, plugins, plans⟩, together, rfl⟩ := map_ok.mp passed
  obtain ⟨-, together⟩ := both_ok.mp together
  obtain ⟨-, together⟩ := both_ok.mp together
  obtain ⟨-, listing⟩ := both_ok.mp together
  change List.Forall₂ _ (listed "plans" (.dict document)) plans
  rw [listed, ← get?_payload]
  rcases optional_ok listing with ⟨absent, rfl⟩ | ⟨value, found, listing⟩
  · rw [absent]
    exact .nil
  · rw [found]
    refine (listOf_ok listing).imp fun item plan checked => ?_
    obtain ⟨items, rfl, fields⟩ := model_ok checked
    exact planFields_variables fields

/-! ## Accepted manifests -/

theorem validateDocument_ok {document : List (Value × Value)} {manifest : Manifest}
    (accepted : validateDocument rt document = .ok manifest) :
    manifestFields rt (payload document) = .ok manifest := by
  unfold validateDocument at accepted
  dsimp only at accepted
  split at accepted
  · split at accepted
    · cases accepted
    · cases accepted
  · cases passed : manifestFields rt (payload document) with
    | error issues => rw [passed] at accepted; cases accepted
    | ok same => rw [passed] at accepted; cases accepted; rfl

theorem parseManifest_ok {text : String} {manifest : Manifest}
    (accepted : parseManifest rt text = .ok manifest) :
    ∃ document, rt.safeLoad text = .ok (.dict document) ∧
      validateDocument rt document = .ok manifest := by
  rw [parseManifest] at accepted
  split at accepted
  · cases accepted
  · cases accepted
  · rename_i document loaded
    exact ⟨document, loaded, accepted⟩
  · cases accepted

/-- An accepted manifest declares names, and nothing but names, exactly if the texts
among the variables of its document are names. -/
theorem declares_names_iff {text : String} {manifest : Manifest}
    (accepted : parseManifest rt text = .ok manifest) :
    ∃ document, rt.safeLoad text = .ok (.dict document) ∧
      (DeclaresNames rt document manifest ↔ TextsAreNames rt document) := by
  obtain ⟨document, loaded, valid⟩ := parseManifest_ok accepted
  have plans := manifestFields_plans (validateDocument_ok valid)
  refine ⟨document, loaded, fun declares element member text read => ?_,
    fun names => ⟨fun element member => ?_, fun plan member name declared => ?_⟩⟩
  · obtain ⟨name, same, named⟩ := declares.document element member
    rw [read] at same
    rwa [Option.some.inj same]
  · obtain ⟨item, listed, inside⟩ := List.mem_flatMap.mp member
    obtain ⟨plan, -, namings⟩ := exists_part plans listed
    obtain ⟨name, -, read⟩ := exists_part namings inside
    exact ⟨name, read, names element member name read⟩
  · obtain ⟨item, listed, namings⟩ := exists_item plans member
    obtain ⟨element, inside, read⟩ := exists_item namings declared
    exact names element (List.mem_flatMap.mpr ⟨item, listed, inside⟩) name read

/-! ## A value among the names -/

/-- A manifest that gives a token its value. -/
def tokenText : String :=
  "version: 1\nplans:\n  - path: checkout.jmx\n    variables:\n      - API_TOKEN=s3cret\n"

def tokenDocument : List (Value × Value) :=
  [(.str "version", .int 1),
    (.str "plans", .list
      [.dict
        [(.str "path", .str "checkout.jmx"), (.str "variables", .list [.str "API_TOKEN=s3cret"])]])]

/-- The interpreter loading one document. -/
def loading (text : String) (document : List (Value × Value)) : Runtime where
  ucd := Unicode.basic
  sets := SetOrder.listed
  decode _ := ""
  decodeStrict _ := none
  decodeReplace _ := ""
  fromstring _ := .error "syntax error: line 1, column 0"
  safeLoad other := if other = text then .ok (.dict document) else .ok .none
  sha256 _ := ""

theorem token_accepted : parseManifest (loading tokenText tokenDocument) tokenText = .ok
    { version := 1
      plans := [{ path := "checkout.jmx", variableNames := ["API_TOKEN=s3cret"]
                  path_length := by decide }] } := by
  rw [parseManifest, loading]
  dsimp only
  rw [if_pos rfl]
  rfl

theorem declares_names_iff_token :
    ∃ document, (loading tokenText tokenDocument).safeLoad tokenText = .ok (.dict document) ∧
      (DeclaresNames (loading tokenText tokenDocument) document
          { version := 1
            plans := [{ path := "checkout.jmx", variableNames := ["API_TOKEN=s3cret"]
                        path_length := by decide }] } ↔
        TextsAreNames (loading tokenText tokenDocument) document) :=
  declares_names_iff token_accepted

/-- A text that carries a value is accepted among the variables. -/
theorem value_among_names_accepted :
    ¬ ∀ (rt : Runtime) (text : String) (manifest : Manifest), parseManifest rt text = .ok manifest →
      ∀ plan ∈ manifest.plans, ∀ name ∈ plan.variableNames, isVariableName name = true := by
  intro always
  have named := always _ _ _ token_accepted _ List.mem_cons_self _ List.mem_cons_self
  revert named
  decide

end Plimsoll.Manifests
