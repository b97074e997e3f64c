import Plimsoll.Patches.Operations
import Plimsoll.Patches.Preserved

/-!
Partial updates in runs: where every body meets its condition, every one of them is
safe in every database that the run reaches.
-/

namespace Plimsoll.Patches

open Python Contracts Transaction
open Database (Setting)
open Sql (View)
open Sql.Program (Behind)
open PerformanceTests (documentIn)

variable {dep : Deployment} {jsonb : Json → Bool} {v : View postgres} {d d₀ : Database}
  {e : Environment} {request : Request}

/-! ## Responses -/

theorem response_pool {row : GeneratorPool} {config : Json} (shown : row.config = some config) :
    ∃ response, Pools.response (some row) = pure response := by
  rw [Pools.response]
  simp only [shown]
  exact ⟨_, rfl⟩

theorem response_test {document : PerformanceTests.TestDocument} {configuration : WorkloadSpec}
    (configured : document.row.configuration = some configuration) :
    PerformanceTests.response document = pure document := by
  rw [PerformanceTests.response, configured]
  rfl

/-! ## One request -/

/-- Under its condition a partial update is refused, or it has committed what it was
given and left a valid database. -/
theorem behind_partialUpdate (update : partialUpdate request.operation = true)
    (bound : v.setting.org = some request.principal.organizationId)
    (fresh : Fresh v.environment v.database (draws request.operation)) (valid : Valid v.database)
    (met : Meets jsonb request.principal.organizationId v.database request.operation) :
    (Request.perform dep request).Behind (driver jsonb)
      (fun exc => ∃ error, exc = .plimsollError error)
      (fun answer v' => Committed request.principal.organizationId v.database v'.database answer
        request.operation ∧ Valid v'.database) v := by
  obtain ⟨principal, operation⟩ := request
  cases operation with
  | updateProject id body =>
      refine Behind.bind (behind_updateProject (fun error => ⟨error, rfl⟩) bound valid
        (fresh.fewer (Nat.le_succ 1)).auditLogs met ?_)
      intro old new auditLogs e' there owner patched
      obtain ⟨keyed, creatable⟩ := valid.projects id old there
      have sameId : new.id = id := by rw [patched.others, keyed]
      have creatable : ProjectCreatable { v.database with
          projects := v.database.projects.set id new } new :=
        projectCreatable_patched creatable keyed patched rfl
      refine ⟨⟨old, new, auditLogs, there, owner, patched, rfl, creatable, rfl⟩, ?_⟩
      rw [← sameId] at creatable ⊢
      refine (valid.setProject creatable fun old' found => ?_).auditLogs auditLogs
      obtain rfl := Option.some.inj (there.symm.trans (sameId ▸ found))
      rw [patched.others]
  | updatePool id body =>
      refine Behind.bind (behind_updatePool (fun error => ⟨error, rfl⟩) bound valid
        (fresh.fewer (Nat.le_succ 1)).auditLogs met ?_)
      intro old new auditLogs e' there owner patched creatable
      obtain ⟨keyed, -⟩ := valid.pools id old there
      have sameId : new.id = id := by rw [patched.others, keyed]
      obtain ⟨config, shown⟩ := creatable.configured
      obtain ⟨response, responded⟩ := response_pool shown
      rw [responded]
      refine ⟨⟨old, new, auditLogs, response, there, owner, patched, rfl, creatable, responded,
        rfl⟩, ?_⟩
      rw [← sameId] at creatable ⊢
      refine (valid.setPool creatable fun old' found => ?_).auditLogs auditLogs
      obtain rfl := Option.some.inj (there.symm.trans (sameId ▸ found))
      rw [patched.others]
  | updateScriptRepo id body =>
      refine Behind.bind (behind_updateScriptRepo (fun error => ⟨error, rfl⟩) bound valid
        (fresh.fewer (Nat.le_succ 1)).auditLogs met ?_)
      intro old new auditLogs e' there owner patched creatable
      obtain ⟨keyed, -⟩ := valid.scriptRepos id old there
      have sameId : new.id = id := by rw [patched.others, keyed]
      refine ⟨⟨old, new, auditLogs, there, owner, patched, rfl, creatable, rfl⟩, ?_⟩
      rw [← sameId]
      refine (valid.setScriptRepo creatable fun old' found => ?_).auditLogs auditLogs
      obtain rfl := Option.some.inj (there.symm.trans (sameId ▸ found))
      rw [patched.others]
  | updateTest id body =>
      refine Behind.bind (behind_updateTest (fun error => ⟨error, rfl⟩) bound valid fresh met ?_)
      intro old new plans rules auditLogs e' there owner patched replacedPlans replacedRules
        plansKeyed rulesKeyed creatable
      obtain ⟨keyed, -⟩ := valid.tests id old there
      have sameId : new.id = id := by rw [patched.others, keyed]
      obtain ⟨configuration, configured⟩ := creatable.configured
      have responded (d' : Database) : PerformanceTests.response
          (documentIn principal.organizationId d' new) =
            pure (documentIn principal.organizationId d' new) := response_test configured
      refine Behind.bind ?_
      rw [responded]
      refine ⟨⟨old, new, plans, rules, auditLogs, there, owner, patched, replacedPlans,
        replacedRules, rfl, creatable, responded _, rfl⟩, ?_⟩
      rw [← sameId] at replacedPlans replacedRules ⊢
      exact (valid.setTest _ creatable plansKeyed rulesKeyed replacedPlans replacedRules).auditLogs
        auditLogs
  | _ => cases update

/-- Any other operation leaves a valid database. -/
theorem preserves_perform (other : partialUpdate request.operation = false)
    (bound : v.setting.org = some request.principal.organizationId)
    (fresh : Fresh v.environment v.database (draws request.operation)) (valid : Valid v.database) :
    Preserves jsonb (Request.perform dep request) v := by
  obtain ⟨principal, operation⟩ := request
  cases operation with
  | createProject body =>
      exact Behind.bind ((preserves_createProject valid).weaken fun _ _ valid => valid)
  | archiveProject id =>
      exact Behind.bind ((preserves_archiveProject valid).weaken fun _ _ valid => valid)
  | createPool body =>
      refine Behind.bind (Behind.weaken (preserves_createPool valid) fun row v' valid => ?_)
      refine Behind.bind ?_
      rw [Pools.response]
      split
      · trivial
      · exact valid
  | archivePool id =>
      exact Behind.bind ((preserves_archivePool valid).weaken fun _ _ valid => valid)
  | createCredential body =>
      exact Behind.bind ((preserves_createCredential valid).weaken fun _ _ valid => valid)
  | deleteCredential id =>
      exact Behind.bind ((preserves_deleteCredential valid).weaken fun _ _ valid => valid)
  | createScriptRepo projectId body =>
      exact Behind.bind ((preserves_createScriptRepo bound valid).weaken fun _ _ valid => valid)
  | archiveScriptRepo id =>
      exact Behind.bind ((preserves_archiveScriptRepo valid).weaken fun _ _ valid => valid)
  | createTest projectId body =>
      refine Behind.bind (Behind.weaken (preserves_createTest bound fresh valid)
        fun document v' valid => ?_)
      refine Behind.bind (Behind.bind ?_)
      cases document.row.configuration with
      | none => trivial
      | some configuration => exact valid
  | archiveTest id =>
      exact Behind.bind ((preserves_archiveTest bound valid).weaken fun _ _ valid => valid)
  | replaceTargetPolicy allowlist =>
      exact Behind.bind ((preserves_replace valid).weaken fun _ _ valid => valid)
  | pinVersion repoId planPath ref candidate =>
      exact Behind.bind ((preserves_pinVersion valid).weaken fun _ _ valid => valid)
  | _ => cases other

/-- The session of a request, by what the rule says of its transaction. -/
theorem handle_behind {raises : Raised → Prop} (post : Answer → Database → Prop)
    (behind : (Request.perform dep request).Behind (driver jsonb) raises
      (fun a v' => post a v'.database)
        (World.view ⟨d, e⟩ (some request.principal.organizationId))) :
    (∃ answer w, handle dep jsonb request ⟨d, e⟩ = (.ok answer, w) ∧ post answer w.database) ∨
      ∃ exc w, handle dep jsonb request ⟨d, e⟩ = (.error exc, w) ∧ raises exc ∧ w.database = d := by
  rcases behind.run with ⟨answer, v', ran, holds⟩ | ⟨exc, v', ran, raised⟩
  · exact Or.inl ⟨answer, _, sessionForOrg_ok ran, holds⟩
  · exact Or.inr ⟨exc, _, sessionForOrg_error ran, raised, rfl⟩

variable (fresh : Fresh e d (draws request.operation)) (valid : Valid d)
  (met : Meets jsonb request.principal.organizationId d request.operation)
include fresh valid met

/-- In a valid database a partial update that meets its condition is safe. -/
theorem safe_handle (update : partialUpdate request.operation = true) :
    Safe request.principal.organizationId request.operation d
      (handle dep jsonb request ⟨d, e⟩) := by
  have behind := @behind_partialUpdate dep jsonb (World.view ⟨d, e⟩
    (some request.principal.organizationId)) request update rfl fresh valid met
  rcases handle_behind (fun answer d' => Committed request.principal.organizationId d d' answer
    request.operation ∧ Valid d') behind with
      ⟨answer, w, handled, committed, -⟩ | ⟨exc, w, handled, refused, same⟩
  · rw [handled]
    exact committed
  · rw [handled]
    exact ⟨refused, same⟩

/-- A request that meets the condition leaves a valid database. -/
theorem valid_handle : Valid (handle dep jsonb request ⟨d, e⟩).2.database := by
  have left : (∃ answer w, handle dep jsonb request ⟨d, e⟩ = (.ok answer, w) ∧ Valid w.database) ∨
      ∃ exc w, handle dep jsonb request ⟨d, e⟩ = (.error exc, w) ∧ w.database = d := by
    cases update : partialUpdate request.operation with
    | true =>
        have behind := @behind_partialUpdate dep jsonb (World.view ⟨d, e⟩
          (some request.principal.organizationId)) request update rfl fresh valid met
        rcases handle_behind (fun answer d' => Committed request.principal.organizationId d d'
          answer request.operation ∧ Valid d') behind with
            ⟨answer, w, handled, -, valid'⟩ | ⟨exc, w, handled, -, same⟩
        · exact Or.inl ⟨answer, w, handled, valid'⟩
        · exact Or.inr ⟨exc, w, handled, same⟩
    | false =>
        have behind := @preserves_perform dep jsonb (World.view ⟨d, e⟩
          (some request.principal.organizationId)) request update rfl fresh valid
        rcases handle_behind (fun _ d' => Valid d') behind with
          ⟨answer, w, handled, valid'⟩ | ⟨exc, w, handled, -, same⟩
        · exact Or.inl ⟨answer, w, handled, valid'⟩
        · exact Or.inr ⟨exc, w, handled, same⟩
  rcases left with ⟨answer, w, handled, valid'⟩ | ⟨exc, w, handled, same⟩
  · rw [handled]
    exact valid'
  · rw [handled]
    exact same.symm ▸ valid

omit fresh valid met

/-! ## Runs -/

theorem valid_reached (initial : Initial d₀) (reached : Reached dep jsonb (Meets jsonb) d₀ d) :
    Valid d := by
  induction reached with
  | initial => exact valid_of_initial initial
  | request _ fresh met valid => exact valid_handle fresh valid met

/-- In every run whose bodies meet their condition, every partial update that meets it
is safe. -/
theorem partialUpdates_safe (initial : Initial d₀) (reached : Reached dep jsonb (Meets jsonb) d₀ d)
    (fresh : Fresh e d (draws request.operation)) (update : partialUpdate request.operation = true)
    (met : Meets jsonb request.principal.organizationId d request.operation) :
    Safe request.principal.organizationId request.operation d (handle dep jsonb request ⟨d, e⟩) :=
  safe_handle fresh (valid_reached initial reached) met update

/-! ## A project renamed -/

/-- An administrator, and no project yet. -/
def noProjects : Database where
  users := Dict.ofList [(1, {
    id := 1
    organizationId := 2
    email := "ada@example.com"
    name := "Ada"
    orgRole := "ADMIN" })]

theorem initial_noProjects : Initial noProjects := ⟨rfl, rfl, rfl, rfl, rfl, rfl⟩

/-- The interpreter once so many identifiers are drawn. -/
def drawing (uuidsDrawn : Nat) : Environment where
  tokens _ := ""
  uuids n := BitVec.ofNat 128 (n + 7)
  uuidsDrawn := uuidsDrawn
  clock n := n

def plain : Deployment where
  ucd := Unicode.basic
  keys := none

def asAda (operation : Operation) : Request where
  principal := ⟨1, 2, "ADMIN"⟩
  operation := operation

theorem length_shop : 1 ≤ "Shop".length ∧ "Shop".length ≤ 255 := by decide

theorem length_no_environment (value : String) (given : none = some value) :
    value.length ≤ 50 := by
  cases given

def creatingShop : ProjectCreate where
  name := "Shop"
  projectKey := "SHOP"
  name_length := length_shop
  projectKey_length := by decide
  projectKey_pattern := by decide
  environment_length := length_no_environment

/-- The database once the project is there. -/
def oneProject : Database :=
  (handle plain (fun _ => true) (asAda (.createProject creatingShop))
    ⟨noProjects, drawing 0⟩).2.database

/-- An update of the name alone. -/
def naming (name : Patch String)
    (length : ∀ value, name = .value value → 1 ≤ value.length ∧ value.length ≤ 255) :
    ProjectUpdate where
  name := name
  name_length := length
  environment_length _ impossible := by cases impossible

/-- Two draws are different identifiers. -/
theorem distinct_drawing {drawn : Nat} (_ : drawn < 100) (i j : Nat) (before : i < j)
    (last : j < 2) : (drawing drawn).uuids (drawn + i) ≠ (drawing drawn).uuids (drawn + j) := by
  intro same
  have numbers := congrArg BitVec.toNat same
  simp only [drawing, BitVec.toNat_ofNat] at numbers
  omega

theorem fresh_noProjects : Fresh (drawing 0) noProjects 2 where
  distinct := distinct_drawing (by decide)
  new _ _ := ⟨rfl, rfl, rfl⟩

theorem fresh_oneProject : Fresh (drawing 2) oneProject 2 where
  distinct := distinct_drawing (by decide)
  new i small := by
    have two : i = 0 ∨ i = 1 := by omega
    rcases two with rfl | rfl
    · exact ⟨rfl, rfl, rfl⟩
    · exact ⟨rfl, rfl, rfl⟩

theorem reached_oneProject {condition : Uuid → Database → Operation → Prop}
    (met : condition 2 noProjects (.createProject creatingShop)) :
    Reached plain (fun _ => true) condition noProjects oneProject :=
  @Reached.request _ _ _ _ _ (drawing 0) (asAda (.createProject creatingShop)) .initial
    fresh_noProjects met

/-- A project renamed to `null`: its column is not nullable, and nothing translates what
the database says. -/
theorem partialUpdate_null_name : ¬ ∀ (dep : Deployment) (jsonb : Json → Bool) (d₀ d : Database)
    (e : Environment) (request : Request), Initial d₀ →
    Reached dep jsonb (fun _ _ _ => True) d₀ d → Fresh e d (draws request.operation) →
    partialUpdate request.operation = true →
      Safe request.principal.organizationId request.operation d
        (handle dep jsonb request ⟨d, e⟩) := by
  intro safe
  have length (value : String) (given : Patch.null = .value value) :
      1 ≤ value.length ∧ value.length ≤ 255 := by cases given
  have nulled := safe plain (fun _ => true) noProjects oneProject (drawing 2)
    (asAda (.updateProject 7 (naming .null length))) initial_noProjects (reached_oneProject trivial)
    fresh_oneProject rfl
  have outcome : (handle plain (fun _ => true) (asAda (.updateProject 7 (naming .null length)))
      ⟨oneProject, drawing 2⟩).1 = .error .integrityError := rfl
  rw [show handle plain (fun _ => true) (asAda (.updateProject 7 (naming .null length)))
      ⟨oneProject, drawing 2⟩ = (.error .integrityError, _) from Prod.ext outcome rfl] at nulled
  obtain ⟨⟨error, translated⟩, -⟩ := nulled
  cases translated

theorem length_store (value : String) (given : Patch.value "Store" = .value value) :
    1 ≤ value.length ∧ value.length ≤ 255 := by
  cases given
  decide

def toStore : Request := asAda (.updateProject 7 (naming (.value "Store") length_store))

theorem partialUpdates_safe_renaming : Initial noProjects ∧
    Reached plain (fun _ => true) (Meets fun _ => true) noProjects oneProject ∧
      Fresh (drawing 2) oneProject (draws toStore.operation) ∧
        Meets (fun _ => true) 2 oneProject toStore.operation ∧
          Safe 2 toStore.operation oneProject
            (handle plain (fun _ => true) toStore ⟨oneProject, drawing 2⟩) := by
  have met : Meets (fun _ => true) 2 oneProject toStore.operation := by
    intro has
    refine ⟨?_, ?_, rfl⟩
    · intro null
      cases null
    · intro null
      cases null
  have safe := @partialUpdates_safe plain (fun _ => true) oneProject noProjects (drawing 2) toStore
    initial_noProjects (reached_oneProject trivial) fresh_oneProject rfl met
  exact ⟨initial_noProjects, reached_oneProject trivial, fresh_oneProject, met, safe⟩

end Plimsoll.Patches
