import Plimsoll.Tenants.Noninterference
import Plimsoll.Vault

/-!
Secrets that are variables.

Preflight resolves hosts through the secrets of kind `VARIABLE` that the organisation has:
a dictionary from their names to what is decoded of them.
-/

namespace Plimsoll.Vault

open Python Contracts Transaction
open Database (Setting visible mem_visible)
open Effects (store nonceBytes)
open Endpoints (Host values)
open History (InPlace rowAt)

variable {W : Type}

/-- `variables`. -/
def credentialVariables (host : Host W) : Transaction (Dict String String) := do
  let material ← variableMaterial
  let items ← values host host.rt.decode material
  return Dict.ofList items

/-- The rows that it is made of, in the order of their names. -/
def variableRows (c : Setting) (d : Database) : List Credential :=
  sortedBy (fun a b => a.name ≤ b.name)
    ((visible c d.credentials).filter fun row => row.kind = .variable)

theorem mem_variableRows {org : Uuid} {e : Environment} {d : Database} {row : Credential} :
    row ∈ variableRows (Setting.of (some org) e) d ↔
      (∃ id, d.credentials.get? id = some row) ∧ row.organizationId = org ∧
        row.kind = .variable := by
  rw [variableRows, mem_sortedBy, List.mem_filter, decide_eq_true_eq, mem_visible]
  constructor
  · rintro ⟨⟨id, there, sees⟩, kind⟩
    exact ⟨⟨id, there⟩, (Option.some.inj sees).symm, kind⟩
  · rintro ⟨⟨id, there⟩, owner, kind⟩
    exact ⟨⟨id, there, congrArg some owner.symm⟩, kind⟩

/-- Where every row can be decrypted, each gives what is decoded of its secret. -/
theorem run_values {host : Host W} {secret : Credential → List UInt8} (v : Sql.View postgres)
    {rows : List Credential}
    (opens : ∀ row ∈ rows, host.decrypt row.ciphertext row.keyRef = .ok (secret row)) :
    (values host host.rt.decode (rows.map Credential.material)).run v =
      (.ok (rows.map fun row => (row.name, host.rt.decode (secret row))), v) := by
  induction rows with
  | nil => rfl
  | cons row rest ih =>
      have first := run_finished (opens row List.mem_cons_self) v
      have others := ih fun other member => opens other (List.mem_cons_of_mem _ member)
      exact (Sql.Program.run_bind_ok first).trans (Sql.Program.run_bind_ok others)

/-- What a row is decrypted to, where it can be. -/
def opened (decrypt : List UInt8 → String → Except Raised (List UInt8)) (row : Credential) :
    List UInt8 :=
  (decrypt row.ciphertext row.keyRef).toOption.getD []

theorem opened_eq {decrypt : List UInt8 → String → Except Raised (List UInt8)} {row : Credential}
    {secret : List UInt8} (opens : decrypt row.ciphertext row.keyRef = .ok secret) :
    opened decrypt row = secret := by
  rw [opened, opens]
  rfl

/-- Where all its variables can be decrypted, an organisation has them. -/
theorem run_credentialVariables {host : Host W} {c : Setting} {d : Database} (e : Environment)
    (opens : ∀ row ∈ variableRows c d, ∃ secret,
      host.decrypt row.ciphertext row.keyRef = .ok secret) :
    (credentialVariables host).run ⟨c, d, e⟩ =
      (.ok (Dict.ofList ((variableRows c d).map fun row =>
        (row.name, host.rt.decode (opened host.decrypt row)))), ⟨c, d, e⟩) := by
  have read : variableMaterial.run ⟨c, d, e⟩ =
      (.ok ((variableRows c d).map Credential.material), ⟨c, d, e⟩) := rfl
  have given : ∀ row ∈ variableRows c d,
      host.decrypt row.ciphertext row.keyRef = .ok (opened host.decrypt row) := by
    intro row member
    obtain ⟨secret, opens⟩ := opens row member
    rw [opened_eq opens, opens]
  exact (Sql.Program.run_bind_ok read).trans (Sql.Program.run_bind_ok (run_values _ given))

/-- No two of an organisation's variables have one name. -/
theorem variableRows_once {d : Database} (org : Uuid) (e : Environment)
    (distinct : Integrity.Distinct d.credentials fun row => (row.organizationId, row.name)) :
    ∀ row ∈ variableRows (Setting.of (some org) e) d,
      ∀ other ∈ variableRows (Setting.of (some org) e) d, row.name = other.name → row = other := by
  intro row member other member' named
  obtain ⟨⟨id, there⟩, owner, -⟩ := mem_variableRows.mp member
  obtain ⟨⟨id', there'⟩, owner', -⟩ := mem_variableRows.mp member'
  obtain rfl : id = id' :=
    distinct id id' row other there there' (Prod.ext (owner.trans owner'.symm) named)
  exact Option.some.inj (there.symm.trans there')

/-- Where no two rows have one name, a name is bound to what its row gives. -/
theorem get?_ofList_map {ρ ν : Type} {name : ρ → String} {value : ρ → ν} {rows : List ρ}
    (once : ∀ row ∈ rows, ∀ other ∈ rows, name row = name other → row = other) {key : String}
    {bound : ν} :
    (Dict.ofList (rows.map fun row => (name row, value row))).get? key = some bound ↔
      ∃ row ∈ rows, name row = key ∧ value row = bound := by
  constructor
  · intro found
    obtain ⟨row, member, same⟩ := List.mem_map.mp (Dict.mem_of_get?_ofList found)
    obtain ⟨named, given⟩ := Prod.mk.inj same
    exact ⟨row, member, named, given⟩
  · rintro ⟨row, member, rfl, rfl⟩
    have item : (name row, value row) ∈ rows.map fun row => (name row, value row) :=
      List.mem_map.mpr ⟨row, member, rfl⟩
    have known : name row ∈ (Dict.ofList (rows.map fun row => (name row, value row))).keys :=
      Dict.mem_keys_ofList.mpr (List.mem_map.mpr ⟨_, item, rfl⟩)
    obtain ⟨bound, found⟩ := Option.isSome_iff_exists.mp (Dict.get?_isSome_iff.mpr known)
    obtain ⟨other, member', same⟩ := List.mem_map.mp (Dict.mem_of_get?_ofList found)
    obtain ⟨named, given⟩ := Prod.mk.inj same
    obtain rfl := once row member other member' named.symm
    rw [found, given]

/-- However requests interleave, the variables of an organisation are its credentials of
that kind: each name is bound to what is decoded of the secret that was deposited under it. -/
theorem variables_of_run {dep : Deployment} {aesgcm : Aesgcm} {encodedKey : String}
    {condition : ServiceServer dep → Sql.Event (services dep) → Prop} {d : Database}
    {e : Environment} {s : ServiceServer dep} {host : Host W} (roundTrip : aesgcm.RoundTrip)
    (keys : dep.keys = keyProvider aesgcm encodedKey)
    (same : host.decrypt = decrypt aesgcm encodedKey)
    (inPlace : ∀ lock, InPlace lock (rowAt lock d)) (consistent : Integrity.Consistent d)
    (empty : ∀ id, d.credentials.get? id = none)
    (urandom : ∀ n, (e.nonces n).length = nonceBytes)
    (run : Sql.Server.Run condition { committed := d, environment := e } s) (org : Uuid)
    (e' : Environment) :
    ∃ bound : Dict String String,
      (Sql.transaction (credentialVariables host)
        (Setting.of (some org) e') s.committed e').1 = .ok bound ∧
      ∀ name value, bound.get? name = some value ↔ ∃ id row body,
        s.committed.credentials.get? id = some row ∧ row.organizationId = org ∧
          Deposited (decrypt aesgcm encodedKey) s.returned row body ∧ body.kind = .variable ∧
            body.name = name ∧ host.rt.decode body.secret.toUTF8.toList = value := by
  have kept := kept_of_run roundTrip keys inPlace urandom run
  have deposited {id : Uuid} {row : Credential}
      (there : s.committed.credentials.get? id = some row) :
      ∃ body, Deposited (decrypt aesgcm encodedKey) s.returned row body := by
    rcases kept id row there with first | deposited
    · cases (empty id).symm.trans first
    · exact deposited
  let c : Setting := Setting.of (some org) e'
  have opens : ∀ row ∈ variableRows c s.committed, ∃ secret,
      host.decrypt row.ciphertext row.keyRef = .ok secret := by
    intro row member
    obtain ⟨⟨id, there⟩, -, -⟩ := mem_variableRows.mp member
    obtain ⟨body, -, -, -, -, -, -, opens⟩ := deposited there
    exact ⟨_, same ▸ opens⟩
  have once := variableRows_once org e' (distinct_of_run inPlace consistent run)
  refine ⟨_, congrArg Prod.fst (Sql.transaction_ok (run_credentialVariables e' opens)), ?_⟩
  intro name value
  rw [get?_ofList_map once, same]
  constructor
  · rintro ⟨row, member, named, given⟩
    obtain ⟨⟨id, there⟩, owner, kind⟩ := mem_variableRows.mp member
    obtain ⟨body, principal, answered, owned, creator, names, kinds, opens⟩ := deposited there
    rw [opened_eq opens] at given
    exact ⟨id, row, body, there, owner, ⟨principal, answered, owned, creator, names, kinds, opens⟩,
      kinds.symm.trans kind, names.symm.trans named, given⟩
  · rintro ⟨id, row, body, there, owner, ⟨_, -, -, -, names, kinds, opens⟩, kind, named, given⟩
    refine ⟨row, mem_variableRows.mpr ⟨⟨id, there⟩, owner, kinds.trans kind⟩, names.trans named, ?_⟩
    rw [opened_eq opens, given]

/-! ## A variable -/

open History (asAda oneProject)
open Integrity (distinct_empty distinct_single refers_empty)

theorem consistent_oneProject : Integrity.Consistent oneProject where
  projectKeys := distinct_single
  poolNames := distinct_empty
  credentialNames := distinct_empty
  scriptVersions := distinct_empty
  policyVersions := distinct_empty
  historyFamilies := refers_empty
  repoProjects := refers_empty
  repoCredentials := refers_empty
  versionRepos := refers_empty
  testProjects := refers_empty
  planTests := refers_empty
  planRepos := refers_empty
  ruleTests := refers_empty

theorem length_apiToken : 1 ≤ "API_TOKEN".length ∧ "API_TOKEN".length ≤ 255 := by decide

/-- A variable of the plans. -/
def apiToken : CredentialCreate where
  name := "API_TOKEN"
  kind := .variable
  secret := "hunter2"
  name_length := length_apiToken
  secret_length := length_hunter2

/-- A host with the key, where texts are ASCII. -/
def keyedHost : Host Unit :=
  { Tenants.offline with
    keys := keyed.keys
    rt := { Tenants.offline.rt with
      decode := fun bytes => String.ofList (bytes.map fun byte => Char.ofNat byte.toNat) }
    decrypt := decrypt tokenAesgcm zeroKey }

theorem variables_depositing : ∃ s : ServiceServer keyed,
    Sql.Server.Run Whatever { sampleServer with committed := oneProject } s ∧
      (s.committed.credentials.get? 10).map Credential.name = some "API_TOKEN" ∧
      ∃ bound : Dict String String, (Sql.transaction (credentialVariables keyedHost)
        (Setting.of (some 2) s.environment) s.committed s.environment).1 = .ok bound ∧
        ∀ name value, bound.get? name = some value ↔ ∃ id row body,
          s.committed.credentials.get? id = some row ∧ row.organizationId = 2 ∧
            Deposited (decrypt tokenAesgcm zeroKey) s.returned row body ∧ body.kind = .variable ∧
              body.name = name ∧ keyedHost.rt.decode body.secret.toUTF8.toList = value := by
  have reached : (Sql.Server.events Whatever
      ({ sampleServer with committed := oneProject } : ServiceServer keyed)
        [.start 0 (asAda (.createCredential apiToken)), .advance 0, .advance 0, .advance 0,
          .advance 0, .advance 0, .commit 0]).map
      (fun s => (s.committed.credentials.get? 10).map Credential.name) =
        some (some "API_TOKEN") := by
    decide +kernel
  obtain ⟨s, ended, there⟩ := Option.map_eq_some_iff.mp reached
  have run : Sql.Server.Run Whatever { sampleServer with committed := oneProject } s :=
    Sql.Server.run_of_events .refl ended
  have keys : keyed.keys = keyProvider tokenAesgcm zeroKey := rfl
  have opens : keyedHost.decrypt = decrypt tokenAesgcm zeroKey := rfl
  exact ⟨s, run, there, variables_of_run roundTrip_tokenAesgcm keys opens
    History.inPlace_oneProject consistent_oneProject (fun _ => rfl) (fun _ => rfl) run 2
    s.environment⟩

end Plimsoll.Vault
