import Plimsoll.Effects.Services
import Plimsoll.Endpoints
import Plimsoll.Integrity
import Plimsoll.Python.Base64

/-!
Secrets go in, and come out on the server only.

A credential holds what the key provider made of the secret of the request that created
it. However requests run side by side, what is decrypted later for the organisation is that
secret, and for another organisation there is none.
-/

namespace Plimsoll.Vault

open Python Contracts Transaction
open Database (Setting RowLock byKey byKey_eq_some_iff)
open Effects (Store Transition Adds Tells Creates Leaves put store nonceBytes)
open History (InPlace rowAt)
open Endpoints (Host accessFor values)
open ScriptRepos (refuse)

/-! ## The key provider -/

/-- `KEY_BYTES`. -/
def keyBytes : Nat := 32

/-- `AESGCM`, with its key as an argument; `none` is a body that does not authenticate. -/
structure Aesgcm where
  encrypt (key nonce plaintext : List UInt8) : List UInt8
  decrypt (key nonce body : List UInt8) : Option (List UInt8)

/-- What is encrypted is decrypted under the same key and nonce. -/
def Aesgcm.RoundTrip (aesgcm : Aesgcm) : Prop :=
  ∀ key nonce plaintext, key.length = keyBytes → nonce.length = nonceBytes →
    aesgcm.decrypt key nonce (aesgcm.encrypt key nonce plaintext) = some plaintext

/-- `LocalKeyProvider`. -/
structure LocalKeyProvider where
  key : List UInt8
  usable : key.length = keyBytes

namespace LocalKeyProvider

/-- `LocalKeyProvider(encoded_key)`; the error is the text of the `SecretError`. -/
def of (encodedKey : String) : Except String LocalKeyProvider :=
  match Base64.decode encodedKey.toList with
  | none => .error "PLIMSOLL_CREDENTIAL_KEY is not valid base64."
  | some key =>
      if usable : key.length = keyBytes then .ok ⟨key, usable⟩
      else .error ("PLIMSOLL_CREDENTIAL_KEY must decode to " ++ toString keyBytes ++
        " bytes, got " ++ toString key.length ++ ".")

variable (aesgcm : Aesgcm) (provider : LocalKeyProvider)

/-- `encrypt`, of a nonce. -/
def encrypt (nonce plaintext : List UInt8) : List UInt8 × String :=
  (nonce ++ aesgcm.encrypt provider.key nonce plaintext, "local:v1")

/-- `decrypt`. -/
def decrypt (ciphertext : List UInt8) (keyRef : String) : Except Raised (List UInt8) :=
  if keyRef ≠ "local:v1" then .error .secretError
  else
    match aesgcm.decrypt provider.key (ciphertext.take nonceBytes) (ciphertext.drop nonceBytes) with
    | none => .error .secretError
    | some plaintext => .ok plaintext

end LocalKeyProvider

/-- The cipher of `get_key_provider().encrypt`. -/
def keyProvider (aesgcm : Aesgcm) (encodedKey : String) : Credentials.KeyProvider :=
  match LocalKeyProvider.of encodedKey with
  | .error _ => none
  | .ok provider => some (aesgcm.encrypt provider.key)

/-- `get_key_provider().decrypt`. -/
def decrypt (aesgcm : Aesgcm) (encodedKey : String) (ciphertext : List UInt8) (keyRef : String) :
    Except Raised (List UInt8) :=
  match LocalKeyProvider.of encodedKey with
  | .error _ => .error .secretError
  | .ok provider => provider.decrypt aesgcm ciphertext keyRef

/-- What the provider has encrypted under a nonce, it decrypts. -/
theorem decrypt_encrypt {aesgcm : Aesgcm} (roundTrip : aesgcm.RoundTrip) {encodedKey : String}
    {cipher : List UInt8 → List UInt8 → List UInt8}
    (keys : keyProvider aesgcm encodedKey = some cipher) {nonce : List UInt8}
    (length : nonce.length = nonceBytes) (plaintext : List UInt8) :
    decrypt aesgcm encodedKey (nonce ++ cipher nonce plaintext) "local:v1" = .ok plaintext := by
  unfold keyProvider at keys
  unfold decrypt
  cases made : LocalKeyProvider.of encodedKey with
  | error text =>
      rw [made] at keys
      cases keys
  | ok provider =>
      rw [made] at keys
      obtain rfl := Option.some.inj keys
      simp only [LocalKeyProvider.decrypt, ne_eq, not_true_eq_false, if_false]
      rw [← length, List.take_left, List.drop_left,
        roundTrip provider.key nonce plaintext provider.usable length]

/-! ## What is read on the server -/

section

variable (decrypt : List UInt8 → String → Except Raised (List UInt8))

/-- `secret_for`. -/
def secretFor (credentialId : Uuid) : Transaction (Option (List UInt8)) := do
  match ← secretMaterial credentialId with
  | none => return none
  | some material => do
      let secret ← .finished (decrypt material.ciphertext material.keyRef)
      return some secret

/-- `secret_named`. -/
def secretNamed (name : String) : Transaction (Option (List UInt8)) := do
  match ← credentialByName name with
  | none => return none
  | some material => do
      let secret ← .finished (decrypt material.ciphertext material.keyRef)
      return some secret

end

/-! ## Deposits -/

variable {dep : Deployment} {aesgcm : Aesgcm} {encodedKey : String}

/-- The row is what an answered request has made of its secret. -/
def Deposited (decrypt : List UInt8 → String → Except Raised (List UInt8))
    (returned : List (Request × Answer)) (row : Credential) (body : CredentialCreate) : Prop :=
  ∃ principal : AccessClaims,
    (⟨principal, .createCredential body⟩, .credential row.summary) ∈ returned ∧
    row.organizationId = principal.organizationId ∧ row.createdBy = principal.userId ∧
    row.name = body.name ∧ row.kind = body.kind ∧
    decrypt row.ciphertext row.keyRef = .ok body.secret.toUTF8.toList

/-- Every credential was there at first, or has been deposited. -/
def Kept (decrypt : List UInt8 → String → Except Raised (List UInt8)) (first : Store)
    (returned : List (Request × Answer)) (s : Store) : Prop :=
  ∀ id row, s (.credential id) = some row →
    first (.credential id) = some row ∨ ∃ body, Deposited decrypt returned row body

/-- A row of `credentials`. -/
def IsCredential : RowLock → Prop
  | .credential _ => True
  | _ => False

/-- Every effect keeps the credentials, or deposits one, or deletes one. -/
theorem kept_of_effect (roundTrip : aesgcm.RoundTrip)
    (keys : dep.keys = keyProvider aesgcm encodedKey) {first s s' : Store}
    {returned : List (Request × Answer)} {request : Request} {answer : Answer}
    (answered : (request, answer) ∈ returned) (happens : Effects.effect dep request answer s s')
    (kept : Kept (decrypt aesgcm encodedKey) first returned s) :
    Kept (decrypt aesgcm encodedKey) first returned s' := by
  have leaves := Effects.leaves_of_effect dep happens
  obtain ⟨principal, operation⟩ := request
  cases operation with
  | createCredential body =>
      obtain ⟨cipher, nonce, known, length, id, now, shown, s₁, ⟨vacant, rfl⟩, tells⟩ := happens
      have audit : Leaves IsCredential _ s' := Effects.leaves_tells (fun _ => not_false) tells
      intro other row there
      rw [audit (.credential other) trivial] at there
      by_cases here : other = id
      · subst other
        obtain rfl := Option.some.inj ((Effects.put_self s (.credential _)).symm.trans there)
        refine Or.inr ⟨body, principal, shown ▸ answered, rfl, rfl, rfl, rfl, ?_⟩
        exact decrypt_encrypt roundTrip (keys.symm.trans known) length _
      · rw [Effects.put_of_ne s fun same => here (RowLock.credential.inj same)] at there
        exact kept other row there
  | deleteCredential id =>
      have audit {s₁ : Store}
          (tells : Tells principal "credential.deleted" "credential" id none s₁ s') :
          Leaves IsCredential s₁ s' :=
        Effects.leaves_tells (fun _ => not_false) tells
      intro other row there
      rcases happens with tells | ⟨old, -, -, tells⟩
      · rw [audit tells (.credential other) trivial] at there
        exact kept other row there
      · rw [audit tells (.credential other) trivial] at there
        by_cases here : other = id
        · subst here
          cases (Effects.put_self s (.deleteCredential other)).symm.trans there
        · rw [Effects.put_of_ne s fun same => here (RowLock.credential.inj same)] at there
          exact kept other row there
  | _ =>
      intro other row there
      rw [leaves (.credential other) not_false] at there
      exact kept other row there

/-! ## Withdrawals -/

section

variable {decrypt : List UInt8 → String → Except Raised (List UInt8)} {d : Database}
  {id : Uuid} {row : Credential} {secret : List UInt8}

/-- A row is seen by its own organisation. -/
theorem byKey_there (there : d.credentials.get? id = some row) (c : Setting) :
    byKey c d.credentials id = if c.org = some row.organizationId then some row else none := by
  unfold byKey
  rw [there]
  by_cases sees : c.org = some row.organizationId
  · rw [if_pos sees]
    exact Option.filter_eq_some_iff.mpr ⟨rfl, decide_eq_true sees⟩
  · rw [if_neg sees]
    refine Option.filter_eq_none_iff.mpr ?_
    intro found same
    obtain rfl := Option.some.inj same
    exact fun seen => sees (of_decide_eq_true seen)

theorem run_secretMaterial (there : d.credentials.get? id = some row) (c : Setting)
    (e : Environment) : (secretMaterial id).run ⟨c, d, e⟩ =
      (.ok (if c.org = some row.organizationId then some row.material else none), ⟨c, d, e⟩) := by
  have seen := byKey_there there c
  have material : (byKey c d.credentials id).map Credential.material =
      if c.org = some row.organizationId then some row.material else none := by
    rw [seen, apply_ite (Option.map Credential.material)]
    rfl
  rw [← material]
  rfl

theorem run_finished (opens : decrypt row.ciphertext row.keyRef = .ok secret)
    (v : Sql.View postgres) :
    (Sql.Program.finished (decrypt row.ciphertext row.keyRef) : Transaction _).run v =
      (.ok secret, v) := by
  rw [opens]
  rfl

/-- `secret_for` decrypts for the organisation of the credential only. -/
theorem secretFor_eq (there : d.credentials.get? id = some row)
    (opens : decrypt row.ciphertext row.keyRef = .ok secret) (reader : Option Uuid)
    (e : Environment) :
    (Sql.transaction (secretFor decrypt id) (Setting.of reader e) d e).1 =
      .ok (if reader = some row.organizationId then some secret else none) := by
  have read := run_secretMaterial there (Setting.of reader e) e
  by_cases own : reader = some row.organizationId
  · rw [if_pos (show (Setting.of reader e).org = some row.organizationId from own)] at read
    have ran : (secretFor decrypt id).run ⟨Setting.of reader e, d, e⟩ =
        (.ok (some secret), ⟨Setting.of reader e, d, e⟩) :=
      (Sql.Program.run_bind_ok read).trans (Sql.Program.run_bind_ok (run_finished opens _))
    rw [Sql.transaction_ok ran, if_pos own]
  · rw [if_neg (show ¬ (Setting.of reader e).org = some row.organizationId from own)] at read
    have ran : (secretFor decrypt id).run ⟨Setting.of reader e, d, e⟩ =
        (.ok none, ⟨Setting.of reader e, d, e⟩) := Sql.Program.run_bind_ok read
    rw [Sql.transaction_ok ran, if_neg own]

/-- `secret_named` finds the credential of its name, where there is one of that name. -/
theorem secretNamed_eq (there : d.credentials.get? id = some row)
    (distinct : Integrity.Distinct d.credentials fun row => (row.organizationId, row.name))
    (opens : decrypt row.ciphertext row.keyRef = .ok secret) (e : Environment) :
    (Sql.transaction (secretNamed decrypt row.name)
      (Setting.of (some row.organizationId) e) d e).1 = .ok (some secret) := by
  let c : Setting := Setting.of (some row.organizationId) e
  have found : (Database.visible c d.credentials).find? (fun other => other.name = row.name) =
      some row := by
    cases first : (Database.visible c d.credentials).find? fun other => other.name = row.name with
    | none =>
        have seen : row ∈ Database.visible c d.credentials :=
          Database.mem_visible.mpr ⟨id, there, rfl⟩
        exact absurd (decide_eq_true rfl) (List.find?_eq_none.mp first row seen)
    | some other =>
        obtain ⟨key, there', sees⟩ := Database.mem_visible.mp (List.mem_of_find?_eq_some first)
        have named : other.name = row.name := by
          simpa using List.find?_some first
        have owner : row.organizationId = other.organizationId := Option.some.inj sees
        obtain rfl : key = id :=
          distinct key id other row there' there (Prod.ext owner.symm named)
        exact there'.symm.trans there
  have read : (credentialByName row.name).run ⟨c, d, e⟩ = (.ok (some row.material), ⟨c, d, e⟩) :=
    congrArg (fun found : Option Credential => (Except.ok (found.map Credential.material), _)) found
  have ran : (secretNamed decrypt row.name).run ⟨c, d, e⟩ = (.ok (some secret), ⟨c, d, e⟩) :=
    (Sql.Program.run_bind_ok read).trans (Sql.Program.run_bind_ok (run_finished opens _))
  rw [Sql.transaction_ok ran]

/-- `access_for` gives Git the secret of the credential that the repository uses. -/
theorem accessFor_eq {W : Type} {host : Host W} (same : host.decrypt = decrypt) {repo : ScriptRepo}
    (uses : repo.credentialId = some id) (there : d.credentials.get? id = some row)
    (opens : decrypt row.ciphertext row.keyRef = .ok secret) (e : Environment) :
    (Sql.transaction (accessFor host repo) (Setting.of (some row.organizationId) e) d e).1 =
      .ok { url := repo.repoUrl, kind := some row.kind.text, secret := some secret } := by
  let c : Setting := Setting.of (some row.organizationId) e
  let access : GitAccess :=
    { url := repo.repoUrl, kind := some row.kind.text, secret := some secret }
  have read := run_secretMaterial there c e
  rw [if_pos (show c.org = some row.organizationId from rfl)] at read
  have opened := run_finished (same ▸ opens : host.decrypt row.ciphertext row.keyRef = .ok secret)
  have ran : (accessFor host repo).run ⟨c, d, e⟩ = (.ok access, ⟨c, d, e⟩) := by
    rw [accessFor, uses]
    exact (Sql.Program.run_bind_ok read).trans (Sql.Program.run_bind_ok (opened _))
  rw [Sql.transaction_ok ran]

end

/-- What is read of a credential: by its organisation the secret, under its identifier,
under its name, and for Git; by another nothing. -/
structure Gives (decrypt : List UInt8 → String → Except Raised (List UInt8)) (d : Database)
    (id org : Uuid) (body : CredentialCreate) : Prop where
  secretFor : ∀ reader e, (Sql.transaction (secretFor decrypt id) (Setting.of reader e) d e).1 =
    .ok (if reader = some org then some body.secret.toUTF8.toList else none)
  secretNamed : ∀ e,
    (Sql.transaction (secretNamed decrypt body.name) (Setting.of (some org) e) d e).1 =
      .ok (some body.secret.toUTF8.toList)
  accessFor : ∀ {W : Type} (host : Host W), host.decrypt = decrypt → ∀ repo : ScriptRepo,
    repo.credentialId = some id → ∀ e,
      (Sql.transaction (accessFor host repo) (Setting.of (some org) e) d e).1 =
        .ok { url := repo.repoUrl, kind := some body.kind.text,
              secret := some body.secret.toUTF8.toList }

/-! ## Runs -/

open Sql.Server

section

variable {condition : ServiceServer dep → Sql.Event (services dep) → Prop} {d : Database}
  {e : Environment} {s : ServiceServer dep}

/-- Every credential that is committed in a run was there at first, or has been deposited. -/
theorem kept_of_run (roundTrip : aesgcm.RoundTrip) (keys : dep.keys = keyProvider aesgcm encodedKey)
    (inPlace : ∀ lock, InPlace lock (rowAt lock d))
    (urandom : ∀ n, (e.nonces n).length = nonceBytes)
    (run : Run condition { committed := d, environment := e } s) :
    Kept (decrypt aesgcm encodedKey) (store d) s.returned (store s.committed) :=
  (Effects.serially_answered inPlace urandom run).invariant
    (fun _ _ _ _ answered happens => kept_of_effect roundTrip keys answered happens)
    fun _ _ first => Or.inl first

/-- In every state that is reached, no two credentials of an organisation have one name. -/
theorem distinct_of_run (inPlace : ∀ lock, InPlace lock (rowAt lock d))
    (consistent : Integrity.Consistent d)
    (run : Run condition { committed := d, environment := e } s) :
    Integrity.Distinct s.committed.credentials fun row => (row.organizationId, row.name) := by
  have uniques : Integrity.indexes.Invariant s :=
    Sql.Indexes.of_run inPlace consistent.unique run
  exact Integrity.distinct_credentialNames uniques.unique

/-- However requests interleave, every credential that is committed was there at first, or
gives the secret of a request that was answered with it. -/
theorem secrets_of_run (roundTrip : aesgcm.RoundTrip)
    (keys : dep.keys = keyProvider aesgcm encodedKey)
    (inPlace : ∀ lock, InPlace lock (rowAt lock d)) (consistent : Integrity.Consistent d)
    (urandom : ∀ n, (e.nonces n).length = nonceBytes)
    (run : Run condition { committed := d, environment := e } s) {id : Uuid} {row : Credential}
    (there : s.committed.credentials.get? id = some row) :
    d.credentials.get? id = some row ∨ ∃ (principal : AccessClaims) (body : CredentialCreate),
      (⟨principal, .createCredential body⟩, .credential row.summary) ∈ s.returned ∧
        Gives (decrypt aesgcm encodedKey) s.committed id principal.organizationId body := by
  have kept := kept_of_run roundTrip keys inPlace urandom run
  rcases kept id row there with first | ⟨body, principal, answered, owner, -, name, kind, opens⟩
  · exact Or.inl first
  · have distinct := distinct_of_run inPlace consistent run
    refine Or.inr ⟨principal, body, answered, ?_⟩
    rw [← owner]
    exact {
      secretFor := secretFor_eq there opens
      secretNamed := by
        rw [← name]
        exact secretNamed_eq there distinct opens
      accessFor := by
        intro W host same repo uses
        rw [← kind]
        exact accessFor_eq same uses there opens }

end

/-! ## A token -/

open History (asAda)
open Integrity (oneRepository)

/-- The key of 32 zeros. -/
def zeroKey : String := "AAAAAAAAAAAAAAAAAAAAAAAAAAAAAAAAAAAAAAAAAAA="

/-- What AES-256-GCM makes of the token, of the key of zeros and a nonce of sevens. -/
def sealedToken : List UInt8 :=
  [21, 189, 198, 191, 13, 84, 50, 190, 205, 230, 175, 79, 130, 119, 243, 64, 124, 137, 34, 217,
    42, 192, 205]

/-- The token, under this key and this nonce. -/
def Sealed (key nonce plaintext : List UInt8) : Prop :=
  key = List.replicate keyBytes 0 ∧ nonce = List.replicate nonceBytes 7 ∧
    plaintext = "hunter2".toUTF8.toList

instance (key nonce plaintext : List UInt8) : Decidable (Sealed key nonce plaintext) :=
  inferInstanceAs (Decidable (_ ∧ _ ∧ _))

/-- AES-256-GCM, as far as the token goes. -/
def tokenAesgcm : Aesgcm where
  encrypt key nonce plaintext := if Sealed key nonce plaintext then sealedToken else 0 :: plaintext
  decrypt key nonce body :=
    if Sealed key nonce "hunter2".toUTF8.toList ∧ body = sealedToken then
      some "hunter2".toUTF8.toList
    else
      match body with
      | 0 :: plaintext => some plaintext
      | _ => none

theorem roundTrip_tokenAesgcm : tokenAesgcm.RoundTrip := by
  intro key nonce plaintext _ _
  by_cases sealed : Sealed key nonce plaintext
  · obtain rfl : plaintext = "hunter2".toUTF8.toList := sealed.2.2
    simp only [tokenAesgcm, if_pos sealed]
    rw [if_pos ⟨sealed, trivial⟩]
  · have differs : (0 : UInt8) :: plaintext ≠ sealedToken := fun same =>
      absurd (List.cons.inj same).1 (by decide)
    simp only [tokenAesgcm, if_neg sealed]
    rw [if_neg fun both => differs both.2]

/-- The deployment with that key. -/
def keyed : Deployment where
  ucd := Unicode.basic
  keys := keyProvider tokenAesgcm zeroKey

def sampleServer : ServiceServer keyed where
  committed := oneRepository
  environment := Effects.sampleServer.environment

theorem length_token : 1 ≤ "token".length ∧ "token".length ≤ 255 := by decide

theorem length_hunter2 : 1 ≤ "hunter2".length := by decide

def token : CredentialCreate where
  name := "token"
  kind := .gitToken
  secret := "hunter2"
  name_length := length_token
  secret_length := length_hunter2

/-- The token is deposited. -/
def depositing : List (Sql.Event (services keyed)) :=
  [.start 0 (asAda (.createCredential token)), .advance 0, .advance 0, .advance 0, .advance 0,
    .advance 0, .commit 0]

/-- The row that comes of it. -/
def tokenRow : Credential where
  id := 10
  organizationId := 2
  name := "token"
  kind := .gitToken
  ciphertext := List.replicate nonceBytes 7 ++ sealedToken
  keyRef := "local:v1"
  createdBy := 1
  createdAt := 0

/-- No condition on the steps of a run. -/
abbrev Whatever (_ : ServiceServer keyed) (_ : Sql.Event (services keyed)) : Prop := True

theorem secrets_depositing : ∃ s : ServiceServer keyed, Run Whatever sampleServer s ∧
    s.committed.credentials.get? 10 = some tokenRow ∧ ∃ (principal : AccessClaims)
      (body : CredentialCreate), (⟨principal, .createCredential body⟩,
        .credential tokenRow.summary) ∈ s.returned ∧
          Gives (decrypt tokenAesgcm zeroKey) s.committed 10 principal.organizationId body := by
  have reached : (sampleServer.events Whatever depositing).map
      (fun s => s.committed.credentials.get? 10) = some (some tokenRow) := by decide +kernel
  obtain ⟨s, ended, there⟩ := Option.map_eq_some_iff.mp reached
  have run : Run Whatever sampleServer s := run_of_events .refl ended
  have keys : keyed.keys = keyProvider tokenAesgcm zeroKey := rfl
  refine ⟨s, run, there, ?_⟩
  rcases secrets_of_run roundTrip_tokenAesgcm keys Integrity.inPlace_oneRepository
    Integrity.consistent_oneRepository (fun _ => rfl) run there with first | deposited
  · cases first
  · exact deposited

end Plimsoll.Vault
