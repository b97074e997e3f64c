import Plimsoll.Jmx.Targets
import Plimsoll.Preflight
import Plimsoll.ScriptVersions
import Plimsoll.Verify.Reading

/-!
What the content of a repository makes the services raise.

`parse_plan` and `parse_manifest` promise one exception each, and the services
handle that one. Two conversions break the promise: `int` on a port, and the
loading or the showing of a scalar of a manifest. Below, each promise is paired
with the texts it is kept for, and each service with the checkouts it answers
for.
-/

namespace Plimsoll.ErrorContract

open Python Jmx Manifests Verify ScriptVersions Preflight

/-! ## Promises -/

/-- `parse_plan` returns a summary or raises `PlanParseError`. -/
def PlanContract (parsed : Except Raised PlanSummary) : Prop :=
  (∃ summary, parsed = .ok summary) ∨ ∃ message, parsed = .error (.planParseError message)

/-- `parse_manifest` returns a manifest or raises `ManifestError`. -/
def ManifestContract (parsed : Except Raised Manifest) : Prop :=
  (∃ manifest, parsed = .ok manifest) ∨ ∃ message, parsed = .error (.manifestError message)

/-- `resolve_for_pin` returns a candidate or raises `PlimsollError`. -/
def PinContract (resolved : Except Raised PinCandidate) : Prop :=
  (∃ candidate, resolved = .ok candidate) ∨ ∃ error, resolved = .error (.plimsollError error)

/-! ## Assumptions -/

/-- `yaml.safe_load` signals a bad document with `YAMLError`, or with
`ValueError` for a scalar out of range. -/
def LoaderErrors (rt : Runtime) : Prop :=
  ∀ text exc, rt.safeLoad text = .error exc → (∃ message, exc = .yamlError message) ∨ exc = .valueError

/-- What `pathlib` raises is an `OSError`, or a `ValueError` for a path with a
null character. -/
def FileErrors (files : FileView) : Prop :=
  ∀ path exc, (files.isFile path = .error exc ∨ files.readBytes path = .error exc) →
    (∃ message, exc = .osError message) ∨ exc = .valueError

/-! ## Content -/

variable (rt : Runtime)

/-- The document, if the text is one, has only ports that can be read. -/
def PlanReadable (text : String) : Prop :=
  ∀ root, rt.fromstring text = .ok root → PortsReadable rt root.iter

/-- What `parse_manifest` makes a `ManifestError` of, where it is not one already. -/
def IsWrapped (exc : Raised) : Prop :=
  (∃ message, exc = .yamlError message) ∨ ∃ message, exc = .manifestError message

/-- The loader raises nothing but `YAMLError`, and a version that is not supported can be
shown. -/
structure ManifestReadable (text : String) : Prop where
  loaded : ∀ exc, rt.safeLoad text = .error exc → IsWrapped exc
  shown : ∀ document version, rt.safeLoad text = .ok (.dict document) →
    Value.get? "version" document = some version → version.isOne = false →
    (version.repr rt.ucd).isSome = true

/-- The file can be read, and its text is one that `accepts`. -/
def Reads (files : FileView) (path : PurePath) (accepts : String → Prop) : Prop :=
  ∃ text, files.readText rt path = .ok text ∧ accepts text

/-- A checkout a pin is answered for: it says whether the plan is there, and the
plan can be read. -/
structure Pinnable (checkout : Checkout) (planPath : String) : Prop where
  asked : ∃ present, checkout.files.isFile (checkout.root.join planPath) = .ok present
  plan : checkout.files.isFile (checkout.root.join planPath) = .ok true →
    Reads rt checkout.files (checkout.root.join planPath) (PlanReadable rt)

/-- A checkout a verification is answered for: one a pin is answered for, whose
manifest can be looked for and read, and which says of every file that plan and
manifest name whether it is there. -/
structure Verifiable (checkout : Checkout) (planPath : String) : Prop
    extends Pinnable rt checkout planPath where
  manifest : checkout.files.isFile (checkout.root.join planPath) = .ok true →
    ∃ found, findManifest checkout.files checkout.root planPath = .ok found ∧
      ∀ file, found = some file → Reads rt checkout.files file (ManifestReadable rt)
  named : ∀ entry summary, Compares rt checkout planPath entry summary →
    ∀ path ∈ askedFor entry summary, ∃ present,
      checkout.files.isFile ((Verify.planDirectory checkout.root planPath).join path) = .ok present

/-- A plan file preflight is answered for: one the system refuses, or one that
can be read. -/
def Preflightable (plan : PlanInput) (checkout : Checkout) : Prop :=
  (∃ message, checkout.files.readBytes (checkout.root.join plan.planPath) =
      .error (.osError message)) ∨
    Reads rt checkout.files (checkout.root.join plan.planPath) (PlanReadable rt)

/-- The checkouts the second loop of preflight opens, in a world. -/
def opened {W : Type} (git : Git W) (resolved : Dict String String) :
    List PlanInput → W → List (PlanInput × Checkout)
  | [], _ => []
  | plan :: rest, w =>
      match resolved.get? plan.repoName with
      | none => opened git resolved rest w
      | some sha =>
          match git.fetchPlan plan.access sha plan.planPath w with
          | (.error _, w) => opened git resolved rest w
          | (.ok checkout, w) => (plan, checkout) :: opened git resolved rest w

variable {rt}

/-! ## Parsers -/

theorem port_error {value : String} {exc : Raised} (raised : port rt value = .error exc) :
    exc = .valueError := by
  unfold port at raised
  split at raised
  · split at raised
    · cases raised
    · cases raised
      rfl
  · cases raised

theorem visit_error {scan : Scan} {element : Element} {exc : Raised}
    (raised : visit rt scan element = .error exc) : exc = .valueError := by
  by_cases sampler : IsSampler element
  · rw [visit_of_sampler sampler] at raised
    split at raised
    · cases raised
    · unfold samplerTarget at raised
      cases number : port rt (setting portProp "" (stringProps element) scan.defaults) with
      | error exc =>
          rw [number] at raised
          cases raised
          exact port_error number
      | ok number =>
          rw [number] at raised
          cases raised
  · obtain ⟨next, visited, -⟩ := @visit_of_not_sampler rt scan element sampler
    rw [visited] at raised
    cases raised

theorem visitAll_error {elements : List Element} {exc : Raised} :
    ∀ {scan : Scan}, visitAll rt scan elements = .error exc → exc = .valueError := by
  induction elements with
  | nil =>
      intro scan raised
      cases raised
  | cons element rest ih =>
      intro scan raised
      rw [visitAll] at raised
      cases visited : visit rt scan element with
      | error exc =>
          rw [visited] at raised
          cases raised
          exact visit_error visited
      | ok next =>
          rw [visited] at raised
          exact ih raised

theorem addDefaults_error {scan : Scan} {exc : Raised} (raised : addDefaults rt scan = .error exc) :
    exc = .valueError := by
  unfold addDefaults at raised
  split at raised
  · cases raised
  · split at raised
    · rename_i number
      cases raised
      exact port_error number
    · cases raised

/-- What `parse_plan` raises on a document is a `ValueError`. -/
theorem parsePlan_error {text : String} {root : Element} {exc : Raised}
    (wellFormed : rt.fromstring text = .ok root) (raised : parsePlan rt text = .error exc) :
    exc = .valueError := by
  unfold parsePlan at raised
  rw [wellFormed] at raised
  dsimp only at raised
  split at raised
  · rename_i visited
    cases raised
    exact visitAll_error visited
  · split at raised
    · rename_i added
      cases raised
      exact addDefaults_error added
    · cases raised

theorem parsePlan_contract_iff (rt : Runtime) (text : String) :
    PlanContract (parsePlan rt text) ↔ PlanReadable rt text := by
  unfold PlanReadable
  cases wellFormed : rt.fromstring text with
  | error message =>
      have raised : parsePlan rt text = .error (.planParseError message) := by
        rw [parsePlan, wellFormed]
      refine ⟨fun _ root impossible => ?_, fun _ => Or.inr ⟨message, raised⟩⟩
      cases impossible
  | ok root =>
      have ends := (parsePlan_spec wellFormed).1
      simp only [Except.ok.injEq, forall_eq']
      rw [← ends]
      refine ⟨fun contract => ?_, Or.inl⟩
      rcases contract with returned | raised
      · exact returned
      · obtain ⟨message, raised⟩ := raised
        cases parsePlan_error wellFormed raised

theorem not_planContract_valueError : ¬ PlanContract (.error .valueError) := by
  intro contract
  rcases contract with returned | raised
  · obtain ⟨summary, returned⟩ := returned
    cases returned
  · obtain ⟨message, raised⟩ := raised
    cases raised

/-- What `parse_plan` raises on a text. -/
theorem parsePlan_raises {text : String} {exc : Raised} (raised : parsePlan rt text = .error exc) :
    (∃ message, exc = .planParseError message) ∨ exc = .valueError := by
  cases wellFormed : rt.fromstring text with
  | error message =>
      rw [parsePlan, wellFormed] at raised
      exact Or.inl ⟨message, (Except.error.inj raised).symm⟩
  | ok root => exact Or.inr (parsePlan_error wellFormed raised)

theorem validateDocument_contract_iff (rt : Runtime) (document : List (Value × Value)) :
    ManifestContract (validateDocument rt document) ↔
      ∀ version, Value.get? "version" document = some version → version.isOne = false →
        (version.repr rt.ucd).isSome = true := by
  unfold validateDocument
  cases given : Value.get? "version" document with
  | none =>
      refine ⟨fun _ version impossible => (nomatch impossible), fun _ => Or.inr ?_⟩
      simp [Value.isOne, Value.repr]
  | some version =>
      simp only [Option.getD_some, Option.some.injEq, forall_eq']
      cases one : version.isOne with
      | true =>
          refine ⟨fun _ impossible => (nomatch impossible), fun _ => ?_⟩
          cases manifestFields rt (payload document) with
          | error issues => exact Or.inr ⟨_, rfl⟩
          | ok manifest => exact Or.inl ⟨manifest, rfl⟩
      | false =>
          cases version.repr rt.ucd with
          | none =>
              refine ⟨fun contract => ?_, fun shown => ?_⟩
              · rcases contract with returned | raised
                · obtain ⟨manifest, returned⟩ := returned
                  cases returned
                · obtain ⟨message, raised⟩ := raised
                  cases raised
              · cases shown rfl
          | some shown => exact ⟨fun _ _ => rfl, fun _ => Or.inr ⟨_, rfl⟩⟩

theorem parseManifest_contract_iff (rt : Runtime) (text : String) :
    ManifestContract (parseManifest rt text) ↔ ManifestReadable rt text := by
  cases loaded : rt.safeLoad text with
  | error exc =>
      have readable : ManifestReadable rt text ↔ IsWrapped exc := by
        refine ⟨fun readable => readable.loaded exc loaded, fun wrapped => ⟨?_, ?_⟩⟩
        · intro other same
          rw [loaded] at same
          exact Except.error.inj same ▸ wrapped
        · intro document version impossible
          rw [loaded] at impossible
          cases impossible
      have refused : ManifestContract (parseManifest rt text) ↔ IsWrapped exc := by
        unfold parseManifest
        rw [loaded]
        cases exc with
        | yamlError message => exact iff_of_true (Or.inr ⟨_, rfl⟩) (Or.inl ⟨message, rfl⟩)
        | manifestError message => exact iff_of_true (Or.inr ⟨message, rfl⟩) (Or.inr ⟨message, rfl⟩)
        | _ => simp [ManifestContract, IsWrapped]
      exact refused.trans readable.symm
  | ok value =>
      have fine : ∀ exc, rt.safeLoad text = .error exc → IsWrapped exc := by
        intro exc impossible
        rw [loaded] at impossible
        cases impossible
      by_cases mapping : ∃ document, value = .dict document
      · obtain ⟨document, rfl⟩ := mapping
        have read : parseManifest rt text = validateDocument rt document := by
          rw [parseManifest, loaded]
        rw [read, validateDocument_contract_iff]
        refine ⟨fun shown => ⟨fine, ?_⟩, fun readable version => readable.shown document version loaded⟩
        intro other version same
        obtain rfl : document = other := Value.dict.inj (Except.ok.inj (loaded.symm.trans same))
        exact shown version
      · have raised : parseManifest rt text =
            .error (.manifestError "The manifest must be a mapping.") := by
          unfold parseManifest
          rw [loaded]
          cases value with
          | dict document => exact absurd ⟨document, rfl⟩ mapping
          | _ => rfl
        refine ⟨fun _ => ⟨fine, ?_⟩, fun _ => Or.inr ⟨_, raised⟩⟩
        intro document version same
        exact absurd ⟨document, Except.ok.inj (loaded.symm.trans same)⟩ mapping

/-! ## Files -/

section

variable {files : FileView} {path : PurePath}

/-- What reading a file raises is not an exception of a parser. -/
theorem readText_error (errors : FileErrors files) {exc : Raised}
    (raised : files.readText rt path = .error exc) :
    (∃ message, exc = .osError message) ∨ exc = .valueError := by
  unfold FileView.readText at raised
  cases bytes : files.readBytes path with
  | error other =>
      rw [bytes] at raised
      obtain rfl : other = exc := Except.error.inj raised
      exact errors path other (Or.inr bytes)
  | ok content =>
      rw [bytes] at raised
      cases raised

theorem readPlan_ok_iff (errors : FileErrors files) (planPath : String) :
    (∃ read, Verify.readPlan rt files path planPath = .ok read) ↔
      Reads rt files path (PlanReadable rt) := by
  unfold Verify.readPlan Reads
  cases read : files.readText rt path with
  | error exc =>
      constructor
      · intro ⟨_, returned⟩
        rcases readText_error errors read with refused | value
        · obtain ⟨message, rfl⟩ := refused
          cases returned
        · subst value
          cases returned
      · intro ⟨text, impossible, _⟩
        cases impossible
  | ok text =>
      have bound : (Except.ok text).bind (parsePlan rt) = parsePlan rt text := rfl
      simp only [Except.ok.injEq, exists_eq_left', ← parsePlan_contract_iff, bound]
      constructor
      · intro ⟨_, returned⟩
        split at returned
        · rename_i summary parsed
          exact Or.inl ⟨summary, parsed⟩
        · rename_i message parsed
          exact Or.inr ⟨message, parsed⟩
        · cases returned
      · intro contract
        rcases contract with parsed | parsed
        · obtain ⟨summary, parsed⟩ := parsed
          rw [parsed]
          exact ⟨_, rfl⟩
        · obtain ⟨message, parsed⟩ := parsed
          rw [parsed]
          exact ⟨_, rfl⟩

theorem readManifest_ok_iff (errors : FileErrors files)
    {root : PurePath} {planPath : String} :
    (∃ read, readManifest rt files root planPath = .ok read) ↔
      ∃ found, findManifest files root planPath = .ok found ∧
        ∀ file, found = some file → Reads rt files file (ManifestReadable rt) := by
  unfold readManifest
  cases findManifest files root planPath with
  | error exc =>
      constructor
      · intro ⟨_, impossible⟩
        cases impossible
      · intro ⟨_, impossible, _⟩
        cases impossible
  | ok found =>
      simp only [Except.ok.injEq, exists_eq_left']
      cases found with
      | none => exact ⟨fun _ file impossible => (nomatch impossible), fun _ => ⟨_, rfl⟩⟩
      | some file =>
          simp only [Option.some.injEq, forall_eq', Reads]
          cases read : files.readText rt file with
          | error exc =>
              constructor
              · intro ⟨_, returned⟩
                rcases readText_error errors read with refused | value
                · obtain ⟨message, rfl⟩ := refused
                  cases returned
                · subst value
                  cases returned
              · intro ⟨text, impossible, _⟩
                cases impossible
          | ok text =>
              have bound : (Except.ok text).bind (parseManifest rt) = parseManifest rt text := rfl
              simp only [Except.ok.injEq, exists_eq_left', ← parseManifest_contract_iff, bound]
              constructor
              · intro ⟨_, returned⟩
                split at returned
                · rename_i manifest parsed
                  exact Or.inl ⟨manifest, parsed⟩
                · rename_i message parsed
                  exact Or.inr ⟨message, parsed⟩
                · cases returned
              · intro contract
                rcases contract with parsed | parsed
                · obtain ⟨manifest, parsed⟩ := parsed
                  rw [parsed]
                  exact ⟨_, rfl⟩
                · obtain ⟨message, parsed⟩ := parsed
                  rw [parsed]
                  exact ⟨_, rfl⟩

end

/-! ## Verification -/

section

variable {checkout : Checkout} {planPath sha : String} {reading : Verify.Reading}

theorem readCheckout_ok_iff (errors : FileErrors checkout.files) (sha : String) :
    (∃ reading, readCheckout rt checkout sha planPath = .ok reading) ↔
      Pinnable rt checkout planPath ∧
        (checkout.files.isFile (checkout.root.join planPath) = .ok true →
          ∃ found, findManifest checkout.files checkout.root planPath = .ok found ∧
            ∀ file, found = some file → Reads rt checkout.files file (ManifestReadable rt)) := by
  unfold readCheckout
  rw [exists_ok_bind_iff]
  constructor
  · intro ⟨present, asked, returned⟩
    cases present with
    | false => exact ⟨⟨⟨false, asked⟩, fun there => by rw [asked] at there; cases there⟩,
        fun there => by rw [asked] at there; cases there⟩
    | true =>
        rw [if_pos rfl, exists_ok_bind_iff] at returned
        obtain ⟨plan, first, returned⟩ := returned
        rw [exists_ok_bind_iff] at returned
        obtain ⟨manifest, second, -⟩ := returned
        exact ⟨⟨⟨true, asked⟩, fun _ => (readPlan_ok_iff errors planPath).mp ⟨plan, first⟩⟩,
          fun _ => (readManifest_ok_iff errors).mp ⟨manifest, second⟩⟩
  · intro ⟨⟨⟨present, asked⟩, plan⟩, manifest⟩
    refine ⟨present, asked, ?_⟩
    cases present with
    | false => exact ⟨_, rfl⟩
    | true =>
        rw [if_pos rfl, exists_ok_bind_iff]
        obtain ⟨read, first⟩ := (readPlan_ok_iff errors planPath).mpr (plan asked)
        obtain ⟨found, second⟩ := (readManifest_ok_iff errors).mpr (manifest asked)
        refine ⟨read, first, ?_⟩
        rw [exists_ok_bind_iff]
        exact ⟨found, second, _, rfl⟩

/-- The comparison returns when every file that is named is answered. -/
theorem compareManifest_ok_iff (ran : readCheckout rt checkout sha planPath = .ok reading) :
    (∃ findings, compareManifest rt checkout planPath reading = .ok findings) ↔
      ∀ entry summary, Compares rt checkout planPath entry summary →
        ∀ path ∈ askedFor entry summary, ∃ present, checkout.files.isFile
          ((Verify.planDirectory checkout.root planPath).join path) = .ok present := by
  constructor
  · intro returned entry summary compares
    obtain ⟨again, manifest, readAgain, hasManifest, hasSummary, governs⟩ :=
      compares.readCheckout sha
    obtain rfl : reading = again := Except.ok.inj (ran.symm.trans readAgain)
    unfold compareManifest at returned
    rw [hasManifest, hasSummary] at returned
    exact manifestFindings_ok_iff.mp returned entry governs
  · intro answered
    unfold compareManifest
    cases hasManifest : reading.manifest with
    | none => exact ⟨_, rfl⟩
    | some manifest =>
        cases hasSummary : reading.summary with
        | none => exact ⟨_, rfl⟩
        | some summary =>
            refine manifestFindings_ok_iff.mpr fun entry governs => ?_
            exact answered entry summary
              (compares_of_readCheckout ran hasManifest hasSummary governs)

/-- What `run` does in an open checkout returns a report for the verifiable ones. -/
theorem inspect_ok_iff (errors : FileErrors checkout.files)
    (resolution : RefResolution) (ref : String) :
    (∃ report, inspect rt checkout resolution planPath ref = .ok report) ↔
      Verifiable rt checkout planPath := by
  unfold inspect
  rw [exists_ok_bind_iff]
  constructor
  · intro ⟨reading, ran, returned⟩
    rw [exists_ok_bind_iff] at returned
    obtain ⟨compared, second, -⟩ := returned
    obtain ⟨pinnable, manifest⟩ := (readCheckout_ok_iff errors _).mp ⟨reading, ran⟩
    exact { pinnable with
      manifest
      named := (compareManifest_ok_iff ran).mp ⟨compared, second⟩ }
  · intro verifiable
    obtain ⟨reading, ran⟩ :=
      (readCheckout_ok_iff errors resolution.sha).mpr
        ⟨verifiable.toPinnable, verifiable.manifest⟩
    obtain ⟨compared, second⟩ := (compareManifest_ok_iff ran).mpr verifiable.named
    refine ⟨reading, ran, ?_⟩
    rw [exists_ok_bind_iff]
    exact ⟨compared, second, _, rfl⟩

end

/-! ## Pins -/

/-- A pin is answered for the checkouts it is answered for. -/
theorem candidate_contract_iff {checkout : Checkout} {planPath : String}
    (errors : FileErrors checkout.files) (sha : String) :
    PinContract ((candidate rt checkout sha planPath).mapError Verify.unreadable) ↔
      Pinnable rt checkout planPath := by
  have refusal : ∀ {exc : Raised}, ((∃ message, exc = .osError message) ∨ exc = .valueError) →
      ¬ PinContract (.error (Verify.unreadable exc)) := by
    intro exc kind contract
    rcases contract with returned | raised
    · obtain ⟨candidate, returned⟩ := returned
      cases returned
    · obtain ⟨error, raised⟩ := raised
      rcases kind with refused | value
      · obtain ⟨message, rfl⟩ := refused
        cases raised
      · subst value
        cases raised
  unfold candidate
  dsimp only
  cases asked : checkout.files.isFile (checkout.root.join planPath) with
  | error exc =>
      refine ⟨fun contract => absurd contract (refusal (errors _ _ (Or.inl asked))), ?_⟩
      intro pinnable
      obtain ⟨present, answer⟩ := pinnable.asked
      rw [asked] at answer
      cases answer
  | ok present =>
      cases present with
      | false =>
          refine ⟨fun _ => ⟨⟨false, asked⟩, fun there => ?_⟩, fun _ => Or.inr ⟨_, rfl⟩⟩
          rw [asked] at there
          cases there
      | true =>
          cases bytes : checkout.files.readBytes (checkout.root.join planPath) with
          | error exc =>
              refine ⟨fun contract => absurd contract (refusal (errors _ _ (Or.inr bytes))), ?_⟩
              intro pinnable
              obtain ⟨text, read, -⟩ := pinnable.plan asked
              rw [FileView.readText, bytes] at read
              cases read
          | ok content =>
              have read : checkout.files.readText rt (checkout.root.join planPath) =
                  .ok (rt.decode content) := by
                rw [FileView.readText, bytes]
                rfl
              have readable : Pinnable rt checkout planPath ↔ PlanReadable rt (rt.decode content) := by
                constructor
                · intro pinnable
                  obtain ⟨text, same, accepted⟩ := pinnable.plan asked
                  obtain rfl : rt.decode content = text := Except.ok.inj (read.symm.trans same)
                  exact accepted
                · exact fun accepted => ⟨⟨true, asked⟩, fun _ => ⟨_, read, accepted⟩⟩
              rw [readable, ← parsePlan_contract_iff, read]
              have bound : (Except.ok (rt.decode content)).bind (parsePlan rt) =
                  parsePlan rt (rt.decode content) := rfl
              rw [bound]
              cases parsed : parsePlan rt (rt.decode content) with
              | ok summary => exact ⟨fun _ => Or.inl ⟨summary, rfl⟩, fun _ => Or.inl ⟨_, rfl⟩⟩
              | error exc =>
                  rcases parsePlan_raises parsed with syntaxError | value
                  · obtain ⟨message, rfl⟩ := syntaxError
                    exact ⟨fun _ => Or.inr ⟨message, rfl⟩, fun _ => Or.inr ⟨_, rfl⟩⟩
                  · subst value
                    exact ⟨fun contract => absurd contract (refusal (Or.inr rfl)),
                      fun contract => absurd contract not_planContract_valueError⟩

/-! ## Preflight -/

section

variable {W : Type} {git : Git W} {resolved : Dict String String} {plan : PlanInput}

/-- One fetch ends in a summary or an exception that the loop catches, or it
raises, depending on the plan file of the checkout. -/
theorem readResolved_ok_iff (rt : Runtime) {sha : String} {w w' : W} {checkout : Checkout}
    (named : resolved.get? plan.repoName = some sha)
    (fetched : git.fetchPlan plan.access sha plan.planPath w = (.ok checkout, w'))
    (errors : FileErrors checkout.files) :
    (readResolved rt git resolved plan w).2 = w' ∧
      ((∃ reading, (readResolved rt git resolved plan w).1 = .ok reading) ↔
        Preflightable rt plan checkout) := by
  unfold readResolved Preflight.readPlan
  simp only [named, fetched]
  cases bytes : checkout.files.readBytes (checkout.root.join plan.planPath) with
  | error exc =>
      have read : checkout.files.readText rt (checkout.root.join plan.planPath) = .error exc := by
        rw [FileView.readText, bytes]
        rfl
      have unread : ¬ Reads rt checkout.files (checkout.root.join plan.planPath) (PlanReadable rt) := by
        rintro ⟨text, same, -⟩
        rw [read] at same
        cases same
      rw [read, Preflightable, or_iff_left unread]
      rcases errors _ _ (Or.inr bytes) with refused | value
      · obtain ⟨message, rfl⟩ := refused
        exact ⟨rfl, fun _ => ⟨message, bytes⟩, fun _ => ⟨_, rfl⟩⟩
      · subst value
        refine ⟨rfl, fun returned => ?_, fun refused => ?_⟩
        · obtain ⟨reading, returned⟩ := returned
          cases returned
        · obtain ⟨message, refused⟩ := refused
          rw [bytes] at refused
          cases refused
  | ok content =>
      have read : checkout.files.readText rt (checkout.root.join plan.planPath) =
          .ok (rt.decode content) := by
        rw [FileView.readText, bytes]
        rfl
      have readable : Preflightable rt plan checkout ↔ PlanReadable rt (rt.decode content) := by
        unfold Preflightable Reads
        rw [bytes, read]
        simp
      rw [readable, ← parsePlan_contract_iff, read]
      have bound : (Except.ok (rt.decode content)).bind (parsePlan rt) =
          parsePlan rt (rt.decode content) := rfl
      rw [bound]
      cases parsed : parsePlan rt (rt.decode content) with
      | ok summary => exact ⟨rfl, fun _ => Or.inl ⟨summary, rfl⟩, fun _ => ⟨_, rfl⟩⟩
      | error exc =>
          rcases parsePlan_raises parsed with syntaxError | value
          · obtain ⟨message, rfl⟩ := syntaxError
            exact ⟨rfl, fun _ => Or.inr ⟨message, rfl⟩, fun _ => ⟨_, rfl⟩⟩
          · subst value
            refine ⟨rfl, fun returned => ?_,
              fun contract => absurd contract not_planContract_valueError⟩
            obtain ⟨reading, returned⟩ := returned
            cases returned

/-- The second loop ends when every plan file it opens is one preflight is
answered for. -/
theorem readPlans_ok_iff {plans : List PlanInput}
    (fetches : ∀ plan ∈ plans, ∀ sha w, ∃ checkout w',
      git.fetchPlan plan.access sha plan.planPath w = (.ok checkout, w') ∧
        FileErrors checkout.files) :
    ∀ w, (∃ readings, (readPlans rt git resolved plans w).1 = .ok readings) ↔
      ∀ pair ∈ opened git resolved plans w, Preflightable rt pair.1 pair.2 := by
  induction plans with
  | nil => exact fun w => ⟨fun _ pair member => absurd member List.not_mem_nil, fun _ => ⟨[], rfl⟩⟩
  | cons plan rest ih =>
      have later := ih fun other member => fetches other (List.mem_cons_of_mem _ member)
      intro w
      unfold readPlans at later ⊢
      rw [Action.forEach_cons_ok_iff, later, opened]
      cases named : resolved.get? plan.repoName with
      | none =>
          have skipped : readResolved rt git resolved plan w = (.ok none, w) := by
            rw [readResolved, named]
          rw [skipped]
          exact and_iff_right ⟨none, rfl⟩
      | some sha =>
          obtain ⟨checkout, w', fetched, errors⟩ := fetches plan List.mem_cons_self sha w
          obtain ⟨world, ends⟩ := readResolved_ok_iff rt named fetched errors
          rw [world, ends]
          simp only [fetched, List.forall_mem_cons]

theorem run_ok_iff {inputs : PreflightInput} {resolutions : List Resolution} {w w₁ : W}
    (ended : resolveRefs git inputs.plans w = (.ok resolutions, w₁))
    (fetches : ∀ plan ∈ inputs.plans, ∀ sha w, ∃ checkout w',
      git.fetchPlan plan.access sha plan.planPath w = (.ok checkout, w') ∧
        FileErrors checkout.files) :
    (∃ report, (Preflight.run rt git inputs w).1 = .ok report) ↔
      ∀ pair ∈ opened git (resolvedByName (inputs.plans.zip resolutions)) inputs.plans w₁,
        Preflightable rt pair.1 pair.2 := by
  rw [← readPlans_ok_iff fetches]
  unfold Preflight.run
  rw [ended]
  dsimp only
  cases readPlans rt git (resolvedByName (inputs.plans.zip resolutions)) inputs.plans w₁ with
  | mk result w₂ =>
      cases result with
      | error exc => simp
      | ok readings => simp

end

/-! ## Exactly when the contract is kept -/

/-- The two parsers keep their promises on the readable texts, and the services
answer for the checkouts that hold only such texts and whose files can be asked
about: no others. -/
theorem contract_iff (rt : Runtime) :
    (∀ text, PlanContract (parsePlan rt text) ↔ PlanReadable rt text) ∧
    (∀ text, ManifestContract (parseManifest rt text) ↔ ManifestReadable rt text) ∧
    (∀ (W : Type) (git : Git W) (access : GitAccess) (planPath ref : String) (w : W)
        (resolution : RefResolution) (w₁ : W) (checkout : Checkout) (w₂ : W),
      git.resolveRef access ref w = (.ok resolution, w₁) →
      git.fetchPlan access resolution.sha planPath w₁ = (.ok checkout, w₂) →
      FileErrors checkout.files →
        ((∃ report, (Verify.run rt git access planPath ref w).1 = .ok report) ↔
          Verifiable rt checkout planPath) ∧
        (PinContract (resolveForPin rt git access planPath ref w).1 ↔
          Pinnable rt checkout planPath)) ∧
    (∀ (W : Type) (git : Git W) (inputs : PreflightInput) (w : W)
        (resolutions : List Resolution) (w₁ : W),
      resolveRefs git inputs.plans w = (.ok resolutions, w₁) →
      (∀ plan ∈ inputs.plans, ∀ sha w, ∃ checkout w',
        git.fetchPlan plan.access sha plan.planPath w = (.ok checkout, w') ∧
          FileErrors checkout.files) →
        ((∃ report, (Preflight.run rt git inputs w).1 = .ok report) ↔
          ∀ pair ∈ opened git (resolvedByName (inputs.plans.zip resolutions)) inputs.plans w₁,
            Preflightable rt pair.1 pair.2)) := by
  refine ⟨parsePlan_contract_iff rt, parseManifest_contract_iff rt, ?_,
    fun W git inputs w resolutions w₁ => run_ok_iff⟩
  intro W git access planPath ref w resolution w₁ checkout w₂ resolved fetched errors
  constructor
  · rw [← inspect_ok_iff errors resolution ref]
    unfold Verify.run
    simp only [resolved, fetched]
    cases inspect rt checkout resolution planPath ref with
    | error exc => simp [Except.mapError]
    | ok report => simp [Except.mapError]
  · rw [← candidate_contract_iff errors resolution.sha]
    unfold resolveForPin
    simp only [resolved, fetched]

/-! ## A digit that is no decimal -/

/-- The ASCII database with one more code point: the superscript two, a digit
without a decimal value. -/
def superscript : Unicode :=
  { Unicode.basic with
    isDigit := fun c => c.isDigit || c == '²'
    isDigit_ascii := fun c ascii => by
      have other : (c == '²') = false := by
        refine beq_false_of_ne fun same => ?_
        subst same
        exact absurd ascii (by decide)
      rw [other, Bool.or_false]
    isDigit_of_decimal := fun c value => by
      rw [Unicode.basic.isDigit_of_decimal c value |> fun digit : c.isDigit = true => digit]
      rfl }

/-- A sampler whose port is `port`. -/
def samplerOn (port : String) : Element where
  tag := "HTTPSamplerProxy"
  attrib := Dict.ofList [("testclass", "HTTPSamplerProxy")]
  text := none
  children := [
    { tag := "stringProp", attrib := Dict.ofList [("name", domainProp)], text := some "a.test"
      children := [], tail := none },
    { tag := "stringProp", attrib := Dict.ofList [("name", portProp)], text := some port
      children := [], tail := none }]
  tail := none

/-- Its markup. -/
def samplerMarkup (port : String) : String :=
  "<HTTPSamplerProxy testclass=\"HTTPSamplerProxy\"><stringProp name=\"" ++ domainProp ++
    "\">a.test</stringProp><stringProp name=\"" ++ portProp ++ "\">" ++ port ++
    "</stringProp></HTTPSamplerProxy>"

/-- The interpreter reading that sampler. -/
def readingPort : Runtime :=
  { Jmx.reading (samplerMarkup "²") (samplerOn "²") with ucd := superscript }

/-- A repository with that plan. -/
def portCheckout : Checkout where
  root := PurePath.ofString "/tmp/plimsoll-git-0/checkout"
  files := {
    isFile := fun path => .ok (path.name == "plan.jmx")
    readBytes := fun _ => .ok (utf8 (samplerMarkup "²")) }

/-- Its behaviour. -/
def portGit : Git Unit where
  resolveRef _ _ w := (.ok { sha := "1111111111111111111111111111111111111111" }, w)
  fetchPlan _ _ _ w := (.ok portCheckout, w)

theorem portCheckout_errors : FileErrors portCheckout.files := by
  intro path exc raised
  rcases raised with asked | read
  · cases asked
  · cases read

theorem readingPort_loader : LoaderErrors readingPort := by
  intro text exc raised
  cases raised

theorem parsePlan_superscript :
    parsePlan readingPort (samplerMarkup "²") = .error .valueError := by
  have reads : readingPort.fromstring =
      (Jmx.reading (samplerMarkup "²") (samplerOn "²")).fromstring := rfl
  have wellFormed : readingPort.fromstring (samplerMarkup "²") = .ok (samplerOn "²") := by
    rw [reads, reading_fromstring]
  have raised : (visitAll readingPort {} (samplerOn "²").iter).toOption = none := by decide +kernel
  rw [parsePlan, wellFormed]
  dsimp only
  cases visited : visitAll readingPort {} (samplerOn "²").iter with
  | error exc => rw [visitAll_error visited]
  | ok scan => rw [visited] at raised; cases raised

/-- A test of that plan. -/
def portInputs : PreflightInput where
  requestedUsers := 1
  plans := [{ repoName := "load", access := { url := "https://git.test/load.git" }
              planPath := "plan.jmx", ref := "main", virtualUsers := 1 }]

/-- A plan and a manifest, and one repository with the plan. -/
theorem contract_iff_superscript :
    (PlanContract (parsePlan readingPort (samplerMarkup "²")) ↔
      PlanReadable readingPort (samplerMarkup "²")) ∧
    (ManifestContract (parseManifest readingPort "version: 1") ↔
      ManifestReadable readingPort "version: 1") ∧
    ((∃ report, (Verify.run readingPort portGit { url := "https://git.test/load.git" } "plan.jmx"
        "main" ()).1 = .ok report) ↔ Verifiable readingPort portCheckout "plan.jmx") ∧
    ((∃ report, (Preflight.run readingPort portGit portInputs ()).1 = .ok report) ↔
      ∀ pair ∈ opened portGit (resolvedByName (portInputs.plans.zip
          [.ok "1111111111111111111111111111111111111111"])) portInputs.plans (),
        Preflightable readingPort pair.1 pair.2) := by
  obtain ⟨plans, manifests, checkouts, preflights⟩ := contract_iff readingPort
  refine ⟨plans _, manifests _, ?_, ?_⟩
  · exact (checkouts Unit portGit { url := "https://git.test/load.git" } "plan.jmx" "main" ()
      { sha := "1111111111111111111111111111111111111111" } () portCheckout () rfl rfl
      portCheckout_errors).1
  · exact preflights Unit portGit portInputs ()
      [.ok "1111111111111111111111111111111111111111"] () rfl
      fun plan _ sha w => ⟨portCheckout, w, rfl, portCheckout_errors⟩

/-- A port of one superscript digit makes `parse_plan` raise `ValueError`. -/
theorem superscript_port_escapes :
    ¬ ∀ rt : Runtime, LoaderErrors rt →
      (∀ text, PlanContract (parsePlan rt text)) ∧
      (∀ text, ManifestContract (parseManifest rt text)) := by
  intro keeps
  have contract := (keeps readingPort readingPort_loader).1 (samplerMarkup "²")
  rw [parsePlan_superscript] at contract
  exact not_planContract_valueError contract

end Plimsoll.ErrorContract
