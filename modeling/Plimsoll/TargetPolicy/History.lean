import Plimsoll.Audit
import Plimsoll.Database.Ensured

/-!
The history of a target policy.

The next version is computed from what is committed when its statement begins, and
may be taken by the time it is inserted; the unique index then has the last word.
What is inserted is next to what is committed, and stays so until it is committed
itself.
-/

namespace Plimsoll.TargetPolicy

open Python Contracts Transaction
open Audit (Mark trail)
open Database (Write RowLock Setting Statement UniqueKey rowsOf)

/-! ## Replacements -/

/-- A `PUT`: whose, and the list it supplies. -/
structure Replacement where
  principal : AccessClaims
  allowlist : List String

/-- Replacements, of any organisations and in any number. -/
def replacements (ucd : Unicode) : Sql.System postgres Raised TargetPolicyRow where
  Job := Replacement
  setting request e := Setting.of (some request.principal.organizationId) e
  body request := replace ucd request.principal request.allowlist

abbrev PolicyServer (ucd : Unicode) := Sql.Server (replacements ucd)

/-- No condition on steps. -/
def Anyhow {ucd : Unicode} (_ : PolicyServer ucd) (_ : Sql.Event (replacements ucd)) : Prop := True

instance {ucd : Unicode} (s : PolicyServer ucd) (e : Sql.Event (replacements ucd)) :
    Decidable (Anyhow s e) :=
  inferInstanceAs (Decidable True)

/-- The policies of an organisation, in the order they were stored. -/
def policies (org : Uuid) (d : Database) : List TargetPolicyRow := rowsOf org d.targetPolicies

/-- The versions of an organisation. -/
def versions (org : Uuid) (d : Database) : List Nat :=
  (policies org d).map TargetPolicyRow.version

/-- The versions are `1..n`. -/
def GapFree (org : Uuid) (d : Database) : Prop :=
  versions org d = List.range' 1 (policies org d).length

/-- What the audit row of a replacement says. -/
def updateMark (row : TargetPolicyRow) : Mark := ⟨"target_policy.updated", "target_policy", row.id⟩

variable {ucd : Unicode} {org : Uuid} {d d' d₀ : Database}

/-- The replacements of an organisation. -/
def ofOrg (org : Uuid) (done : List (Sql.Commit (replacements ucd))) :
    List (Sql.Commit (replacements ucd)) :=
  done.filter fun c => c.job.principal.organizationId = org

/-- The history is append-only and gap-free, and is what the replacements were told that
succeeded; the others have left nothing. -/
structure Recorded (org : Uuid) (d₀ : Database) (done : List (Sql.Commit (replacements ucd)))
    (s : PolicyServer ucd) : Prop where
  gapFree : GapFree org s.committed
  /-- The rows of those that succeeded have joined the rows there were. -/
  rows : policies org s.committed = policies org d₀ ++ (ofOrg org done).map (·.answer)
  /-- Each holds the list that was supplied. -/
  supplied : ∀ c ∈ done, c.answer.allowlist = c.job.allowlist ∧
    c.answer.organizationId = c.job.principal.organizationId
  /-- Those were told so, with their rows. -/
  told : s.returned = done.map fun c => (c.job, c.answer)
  /-- The current policy is the row with version `n`. -/
  current : ∀ now row, (Database.execute .currentPolicy ⟨some org, now⟩ s.committed).1 = some row ↔
    row ∈ policies org s.committed ∧ row.version = (policies org s.committed).length
  /-- The audit log has one more row for each of them. -/
  audited : trail s.committed = trail d₀ ++ done.map fun c => updateMark c.answer

/-! ## Versions -/

theorem GapFree.mem_versions (gapFree : GapFree org d) {version : Nat} :
    version ∈ versions org d ↔ 1 ≤ version ∧ version ≤ (policies org d).length := by
  rw [gapFree, List.mem_range'_1]
  omega

theorem length_versions : (versions org d).length = (policies org d).length := List.length_map ..

/-- The beginning of a gap-free history is gap-free. -/
theorem GapFree.of_prefix (earlier : policies org d <+: policies org d') (gapFree : GapFree org d') :
    GapFree org d := by
  obtain ⟨later, whole⟩ := earlier
  have split : versions org d' = versions org d ++ later.map TargetPolicyRow.version := by
    rw [versions, ← whole, List.map_append, versions]
  rw [GapFree, split, ← whole, List.length_append, ← List.range'_append_1] at gapFree
  exact (List.append_inj gapFree (by rw [length_versions, List.length_range'])).1

theorem foldr_max_range' (n : Nat) : (List.range' 1 n).foldr max 0 = n := by
  have bounded : ∀ xs : List Nat, ∀ m, xs.foldr max 0 ≤ m ↔ ∀ x ∈ xs, x ≤ m := by
    intro xs m
    induction xs with
    | nil => simp
    | cons x rest ih => simp [ih]
  refine le_antisymm ((bounded _ _).mpr fun x member => ?_) ?_
  · have := List.mem_range'_1.mp member
    omega
  · cases n with
    | zero => omega
    | succ n => exact (bounded _ _).mp le_rfl (n + 1) (List.mem_range'_1.mpr (by omega))

/-- The next version of a gap-free history. -/
theorem nextPolicyVersion_eq {c : Setting} (bound : c.org = some org) (gapFree : GapFree org d) :
    d.nextPolicyVersion c = (policies org d).length + 1 := by
  rw [Database.nextPolicyVersion, Database.visible_eq bound]
  change (versions org d).foldr max 0 + 1 = _
  rw [gapFree, foldr_max_range']

/-- A version that was next once and is not taken is still next. -/
theorem next_of_vacant {version : Nat} (earlier : policies org d <+: policies org d')
    (next : GapFree org d → version = (policies org d).length + 1)
    (vacant : version ∉ versions org d') (gapFree : GapFree org d') :
    version = (policies org d').length + 1 := by
  have drawn := next (gapFree.of_prefix earlier)
  have shorter := earlier.length_le
  rw [gapFree.mem_versions] at vacant
  omega

/-- The last of a gap-free history is current. -/
theorem currentPolicy_iff {now : Timestamp} (gapFree : GapFree org d) (row : TargetPolicyRow) :
    (Database.execute .currentPolicy ⟨some org, now⟩ d).1 = some row ↔
      row ∈ policies org d ∧ row.version = (policies org d).length := by
  have sees : Database.visible ⟨some org, now⟩ d.targetPolicies = policies org d :=
    Database.visible_eq rfl
  change (sortedBy _ (Database.visible _ _)).head? = some row ↔ _
  rw [sees]
  -- versions in descending order are sorted by their order duals
  have sorted_ : (sortedBy (fun a b => b.version ≤ a.version) (policies org d)).Pairwise
      fun a b => b.version ≤ a.version :=
    pairwise_sortedBy (fun row : TargetPolicyRow => OrderDual.toDual row.version) (policies org d)
  have members : ∀ other, other ∈ sortedBy (fun a b => b.version ≤ a.version) (policies org d) ↔
      other ∈ policies org d := fun other => mem_sortedBy
  have bounded : ∀ other ∈ policies org d, other.version ≤ (policies org d).length :=
    fun other member => (gapFree.mem_versions.mp (List.mem_map_of_mem member)).2
  cases listed : sortedBy (fun a b => b.version ≤ a.version) (policies org d) with
  | nil =>
      rw [listed] at members
      simp [← members]
  | cons last rest =>
      rw [listed] at sorted_ members
      have member := (members last).mp List.mem_cons_self
      have greatest : ∀ other ∈ policies org d, other.version ≤ last.version := by
        intro other there
        rcases List.mem_cons.mp ((members other).mpr there) with rfl | behind
        · exact le_rfl
        · exact (List.pairwise_cons.mp sorted_).1 other behind
      have isLength : last.version = (policies org d).length := by
        have positive := List.length_pos_of_mem member
        obtain ⟨newest, there, is⟩ := List.mem_map.mp (gapFree.mem_versions.mpr ⟨positive, le_rfl⟩)
        have above := greatest newest there
        have below := bounded last member
        omega
      rw [List.head?_cons, Option.some.injEq]
      constructor
      · rintro rfl
        exact ⟨member, isLength⟩
      · rintro ⟨there, is⟩
        have distinct : (versions org d).Nodup := by
          rw [gapFree]
          exact List.nodup_range' 1
        exact List.inj_on_of_nodup_map distinct member there (isLength.trans is.symm)

/-! ## What a replacement relies on -/

/-- Two databases agree on what a lock is of. -/
def SameUnder (d d' : Database) : RowLock → Prop
  | .targetPolicy id => d.targetPolicies.get? id = d'.targetPolicies.get? id
  | .audit id => d.auditLogs.get? id = d'.auditLogs.get? id
  | .entry (.policyVersion org version) => version ∈ versions org d ↔ version ∈ versions org d'
  | _ => True

/-- Histories only grow, and what is locked stays. -/
def rely : Sql.Reliance postgres where
  same lock d d' := SameUnder d d' lock
  same_refl lock d := by
    unfold SameUnder
    split <;> first | rfl | trivial
  same_trans lock d₁ d₂ d₃ first second := by
    unfold SameUnder at first second ⊢
    split <;> first | exact first.trans second | trivial
  evolves d d' := ∀ org, policies org d <+: policies org d'
  evolves_refl d org := List.prefix_refl _
  evolves_trans _ _ _ first second org := (first org).trans (second org)

/-- The audit row of a replacement. -/
def auditRow (request : Replacement) (row : TargetPolicyRow) (auditId : Uuid) : AuditLog where
  id := auditId
  organizationId := request.principal.organizationId
  userId := request.principal.userId
  action := "target_policy.updated"
  entityType := "target_policy"
  entityId := row.id
  metadata := some
    [("version", .number row.version), ("entries", .number request.allowlist.length)]

/-- A row that its replacement may insert, next to what is committed. -/
structure Next (request : Replacement) (row : TargetPolicyRow) (d : Database) : Prop where
  supplied : row.allowlist = request.allowlist
  owner : row.organizationId = request.principal.organizationId
  next : GapFree row.organizationId d →
    row.version = (policies row.organizationId d).length + 1
  vacant : row.version ∉ versions row.organizationId d
  free : d.targetPolicies.get? row.id = none

/-- What the insertion of a row writes. -/
def inserted (row : TargetPolicyRow) : List Write :=
  [.targetPolicy row, .entry (.policyVersion row.organizationId row.version)]

/-- What a replacement that succeeds has written: the next row, and its audit row. -/
structure Put (request : Replacement) (row : TargetPolicyRow) (d : Database) (writes : List Write) :
    Prop extends Next request row d where
  wrote : ∃ auditId, d.auditLogs.get? auditId = none ∧
    writes = inserted row ++ [.audit (auditRow request row auditId)]

section

variable {request : Replacement} {row : TargetPolicyRow} {writes : List Write}

/-- A replacement appends its row to the history of its organisation. -/
theorem Put.policies_applyAll (put : Put request row d writes) (org : Uuid) :
    policies org (postgres.applyAll writes d) =
      policies org d ++ if row.organizationId = org then [row] else [] := by
  obtain ⟨auditId, -, rfl⟩ := put.wrote
  change rowsOf org (d.targetPolicies.set row.id row) = _
  rw [rowsOf, Dict.items_set_new put.free, List.map_append, List.filter_append, ← rowsOf]
  congr 1
  by_cases same : row.organizationId = org
  · rw [if_pos same]
    exact List.filter_cons_of_pos (decide_eq_true same)
  · rw [if_neg same]
    exact List.filter_cons_of_neg (by simpa [Tenant.organizationId] using same)

theorem Put.prefix (put : Put request row d writes) (org : Uuid) :
    policies org d <+: policies org (postgres.applyAll writes d) := by
  rw [put.policies_applyAll]
  exact List.prefix_append _ _

/-- A gap-free history stays so. -/
theorem Put.gapFree (put : Put request row d writes) (gapFree : GapFree org d) :
    GapFree org (postgres.applyAll writes d) := by
  rw [GapFree, versions, put.policies_applyAll]
  by_cases same : row.organizationId = org
  · subst same
    rw [if_pos rfl, List.map_append, List.length_append, ← versions, gapFree, List.map_singleton,
      put.next gapFree, List.length_singleton, List.range'_1_concat, Nat.add_comm 1]
  · rw [if_neg same, List.append_nil, ← versions, gapFree]

theorem Put.trail_applyAll (put : Put request row d writes) :
    trail (postgres.applyAll writes d) = trail d ++ [updateMark row] := by
  obtain ⟨auditId, free, rfl⟩ := put.wrote
  change ((d.auditLogs.set auditId (auditRow request row auditId)).items.map _) = _
  rw [Dict.items_set_new free, List.map_append]
  rfl

/-- What a replacement has not locked, it leaves as it is. -/
theorem Put.same_applyAll {lock : RowLock} (put : Put request row d writes)
    (unlocked : lock ∉ writes.map Write.lock) :
    SameUnder d (postgres.applyAll writes d) lock := by
  have grown := put.policies_applyAll
  obtain ⟨auditId, -, rfl⟩ := put.wrote
  simp only [inserted, List.cons_append, List.nil_append, List.map_cons, List.map_nil, Write.lock,
    List.mem_cons, List.not_mem_nil, or_false, not_or] at unlocked
  obtain ⟨otherRow, otherEntry, otherAudit⟩ := unlocked
  unfold SameUnder
  split
  · rename_i id
    exact (Dict.get?_set_ne _ _ fun same => otherRow (congrArg _ same.symm)).symm
  · rename_i id
    exact (Dict.get?_set_ne _ _ fun same => otherAudit (congrArg _ same.symm)).symm
  · rename_i org version
    rw [versions, versions, grown, List.map_append, List.mem_append]
    refine ⟨Or.inl, ?_⟩
    rintro (before | new)
    · exact before
    · split at new
      · rename_i same
        subst same
        rw [List.map_singleton, List.mem_singleton] at new
        exact absurd (by rw [new]) otherEntry
      · cases new
  · trivial

end

/-! ## A replacement -/

/-- What is inserted under its locks is still next when others have committed. -/
theorem Next.stable {request : Replacement} {row : TargetPolicyRow} {more : List Write}
    (next : Next request row d) (stable : rely.Stable (inserted row ++ more) d d') :
    Next request row d' := by
  have sameRow : SameUnder d d' (.targetPolicy row.id) :=
    stable.same (.targetPolicy row) (List.mem_append_left _ List.mem_cons_self)
  have sameEntry : SameUnder d d' (.entry (.policyVersion row.organizationId row.version)) :=
    stable.same (.entry _) (List.mem_append_left _ (List.mem_cons_of_mem _ List.mem_cons_self))
  have vacant : row.version ∉ versions row.organizationId d' := fun taken =>
    next.vacant (sameEntry.mpr taken)
  exact ⟨next.supplied, next.owner, next_of_vacant (stable.evolves _) next.next vacant, vacant,
    sameRow.symm.trans next.free⟩

/-- What the insertion of a policy has found and written. -/
theorem insertPolicy_ok {c : Setting} {row : Timestamp → TargetPolicyRow} {stored : TargetPolicyRow}
    (ok : (Database.execute (.insertPolicy row) c d).1 = .ok stored) :
    stored = row c.now ∧ d.targetPolicies.get? stored.id = none ∧
      stored.version ∉ versions stored.organizationId d ∧
        (Database.execute (.insertPolicy row) c d).2 = inserted stored := by
  obtain ⟨rfl, inserted_, wrote⟩ := Database.returning_ok ok
  obtain ⟨one, -, free, referenced⟩ := Database.insert_ok inserted_
  refine ⟨rfl, free, ?_, wrote.trans ?_⟩
  · intro taken
    obtain ⟨other, member, same⟩ := List.mem_map.mp taken
    obtain ⟨key, found, owner⟩ := Database.mem_rowsOf.mp member
    rw [Bool.and_eq_true, Bool.not_eq_true'] at referenced
    refine Bool.false_ne_true (referenced.2.symm.trans ?_)
    rw [Database.exists_, List.any_eq_true]
    exact ⟨(key, other), Dict.get?_eq_some_iff.mp found, decide_eq_true ⟨owner, same⟩⟩
  · rw [one]
    rfl

variable {request : Replacement} {c : Setting}

/-- The insertion of the next version. -/
theorem ensures_insertNextPolicy {id : Uuid}
    (bound : c.org = some request.principal.organizationId) :
    (insertNextPolicy (policyRow request.principal request.allowlist id)).Ensures rely
      (fun row _ d writes => Next request row d ∧ writes = inserted row) c d [] := by
  intro d₁ _ _
  change Sql.Program.Ensures rely _ (Sql.Program.execute (Statement.insertPolicy (policyRow
    request.principal request.allowlist id (d₁.nextPolicyVersion c))) checked) c d₁ []
  refine ensures_checked fun d₂ later _ row ok d₃ last => ?_
  obtain ⟨rfl, free, vacant, wrote⟩ := insertPolicy_ok ok
  have next : Next request (policyRow request.principal request.allowlist id
      (d₁.nextPolicyVersion c) c.now) d₂ :=
    ⟨rfl, rfl, next_of_vacant (later.evolves _) (nextPolicyVersion_eq bound) vacant, vacant, free⟩
  rw [wrote] at last ⊢
  exact ⟨Next.stable next last, rfl⟩

/-- However others commit meanwhile, a replacement that returns has written the next
version. -/
theorem ensures_replace (bound : c.org = some request.principal.organizationId) :
    (replace ucd request.principal request.allowlist).Ensures rely
      (fun row _ d writes => Put request row d writes) c d [] := by
  unfold replace
  cases validateEntries ucd request.allowlist with
  | error error => trivial
  | ok _ =>
      intro id
      change (insertNextPolicy (policyRow request.principal request.allowlist id) >>= _).Ensures
        rely _ c d []
      refine Sql.Program.Ensures.bind (Sql.Program.Ensures.weaken
        (ensures_insertNextPolicy bound) ?_)
      rintro row c d writes ⟨next, rfl⟩
      refine Sql.Program.Ensures.bind ?_
      intro auditId
      refine ensures_checked fun d₁ later _ _ ok d₂ last d₃ final => ?_
      obtain ⟨wrote, -, free, -⟩ := Database.insert_ok ok
      have written : inserted row ++ (Database.execute (.insertAudit (auditRow request row auditId)) c
          (postgres.applyAll (inserted row) d₁)).2 =
          inserted row ++ [.audit (auditRow request row auditId)] := congrArg _ wrote
      have stable : rely.Stable (inserted row ++ [.audit (auditRow request row auditId)]) d₁ d₃ := by
        rw [← written]
        exact last.trans final
      refine ⟨(next.stable later).stable stable, auditId, ?_, written⟩
      have sameAudit : SameUnder d₁ d₃ (.audit auditId) :=
        stable.same (.audit _) (List.mem_append_right _ List.mem_cons_self)
      exact sameAudit.symm.trans free

/-! ## Runs -/

/-- What replacements promise each other. -/
def assurance (ucd : Unicode) (d₀ : Database) : Sql.Assurance (replacements ucd) where
  toReliance := rely
  initial := d₀
  made request row d writes := Put request row d writes
  evolves_of_made _ put := put.prefix
  same_of_made _ put unlocked := put.same_applyAll unlocked
  ensures _ _ _ _ := ensures_replace rfl

/-- What is recorded of the replacements that have succeeded. -/
structure Kept (org : Uuid) (d₀ : Database) (done : List (Sql.Commit (replacements ucd)))
    (d : Database) : Prop where
  gapFree : GapFree org d
  rows : policies org d = policies org d₀ ++ (ofOrg org done).map (·.answer)
  supplied : ∀ c ∈ done, c.answer.allowlist = c.job.allowlist ∧
    c.answer.organizationId = c.job.principal.organizationId
  audited : trail d = trail d₀ ++ done.map fun c => updateMark c.answer

theorem map_ofOrg_singleton (c : Sql.Commit (replacements ucd)) :
    (ofOrg org [c]).map (·.answer) =
      if c.job.principal.organizationId = org then [c.answer] else [] := by
  rw [ofOrg, List.filter_singleton]
  by_cases same : c.job.principal.organizationId = org
  · rw [decide_eq_true same, if_pos same]
    rfl
  · rw [decide_eq_false same, if_neg same]
    rfl

theorem Kept.commit {done : List (Sql.Commit (replacements ucd))} {c : Sql.Commit (replacements ucd)}
    (put : Put c.job c.answer c.before c.writes) (kept : Kept org d₀ done c.before) :
    Kept org d₀ (done ++ [c]) c.after where
  gapFree := put.gapFree kept.gapFree
  rows := by
    have grown : policies org c.after = _ := put.policies_applyAll org
    rw [grown, kept.rows, ofOrg, ofOrg, List.filter_append, List.map_append, List.append_assoc]
    rw [put.owner]
    exact congrArg _ (congrArg _ (map_ofOrg_singleton c).symm)
  supplied := by
    intro other member
    rcases List.mem_append.mp member with earlier | here
    · exact kept.supplied other earlier
    · obtain rfl := List.mem_singleton.mp here
      exact ⟨put.supplied, put.owner⟩
  audited := by
    have grown : trail c.after = _ := put.trail_applyAll
    rw [grown, kept.audited, List.map_append, List.append_assoc]
    rfl

theorem kept_of_chronicle {e : Environment} {done : List (Sql.Commit (replacements ucd))}
    {s : PolicyServer ucd} (gapFree : GapFree org d₀)
    (chronicle : Sql.Server.Chronicle Anyhow { committed := d₀, environment := e } done s) :
    Kept org d₀ done s.committed := by
  have met : ∀ s e, Anyhow s e → (assurance ucd d₀).Condition s e := by
    intro s e _
    cases e <;> first | trivial | exact fun _ _ _ _ _ => trivial
  refine Sql.Assurance.of_chronicle (P := Kept org d₀) met chronicle ?_ ?_
  · exact ⟨gapFree, (List.append_nil _).symm, fun _ impossible => (nomatch impossible),
      (List.append_nil _).symm⟩
  · intro done c _ put kept
    exact kept.commit put

/-- However replacements run side by side, each history is gap-free and append-only, and
is what the successful ones were told. -/
theorem recorded_and_appendOnly {e : Environment} {done : List (Sql.Commit (replacements ucd))}
    {s s' : PolicyServer ucd} (gapFree : GapFree org d₀)
    (chronicle : Sql.Server.Chronicle Anyhow { committed := d₀, environment := e } done s)
    (later : Sql.Server.Run Anyhow s s') :
    Recorded org d₀ done s ∧ policies org s.committed <+: policies org s'.committed := by
  have kept := kept_of_chronicle gapFree chronicle
  refine ⟨⟨kept.gapFree, kept.rows, kept.supplied, ?_, fun now row => ?_, kept.audited⟩, ?_⟩
  · exact chronicle.returned.trans (List.nil_append _)
  · exact currentPolicy_iff kept.gapFree row
  · obtain ⟨more, whole⟩ := chronicle.extend later
    have kept' := kept_of_chronicle gapFree whole
    rw [kept.rows, kept'.rows, ofOrg, ofOrg, List.filter_append, List.map_append,
      ← List.append_assoc]
    exact List.prefix_append _ _

def sampleReplacement (host : String) : Replacement where
  principal := ⟨3, 1, "ADMIN"⟩
  allowlist := [host]

def sampleServer : PolicyServer .basic where
  committed := {
    users := Dict.ofList [(3, ⟨3, 1, "ada@example.org", "Ada", "ADMIN", none, "ACTIVE"⟩)] }
  environment := {
    tokens := fun _ => ""
    uuids := fun k => BitVec.ofNat 128 (100 + k)
    clock := fun k => k }

/-- Two replacements that compute the same version, of which the second runs into the
unique index, and another behind them. -/
def racing : List (Sql.Event (replacements .basic)) :=
  [.start 0 (sampleReplacement "a.example.org"), .start 1 (sampleReplacement "b.example.org")] ++
    List.replicate 2 (.advance 0) ++ List.replicate 2 (.advance 1) ++ List.replicate 3 (.advance 0) ++
      [.commit 0, .advance 1, .rollback 1, .start 2 (sampleReplacement "c.example.org")] ++
        List.replicate 5 (.advance 2) ++ [.commit 2]

theorem recorded_racing :
    ∃ (done : List (Sql.Commit (replacements .basic))) (s : PolicyServer .basic), s.started.length = 3 ∧ versions 1 s.committed = [1, 2] ∧
      Recorded 1 sampleServer.committed done s ∧ policies 1 s.committed <+: policies 1 s.committed := by
  cases ended : sampleServer.events Anyhow racing with
  | none =>
      have some_ : (sampleServer.events Anyhow racing).isSome = true := by decide +kernel
      rw [ended] at some_
      cases some_
  | some s =>
      obtain ⟨done, chronicle⟩ := (Sql.Server.run_of_events .refl ended).chronicle
      have reached : (sampleServer.events Anyhow racing).map
        (fun s => (s.started.length, versions 1 s.committed)) = some (3, [1, 2]) := by
        decide +kernel
      rw [ended] at reached
      obtain ⟨started, stored⟩ := Prod.mk.inj (Option.some.inj reached)
      exact ⟨done, s, started, stored, recorded_and_appendOnly rfl chronicle .refl⟩

end Plimsoll.TargetPolicy
