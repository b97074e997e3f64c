import Plimsoll.Audit
import Plimsoll.Sql.Guarantee

/-!
Programs that keep the audit log in balance with what they change.

A transaction makes at most one change, and writes at most one audit row. What it
has made of both so far is not affected by what others commit, since its rows are
locked.
-/

namespace Plimsoll.Audit

open Python Contracts Transaction
open Database (Write RowLock Setting Statement Keyed Fault)

variable {d d' : Database} {writes : List Write} {w : Write} {v : Version} {e : Entity} {id : Uuid}

/-! ## What writes make of a database -/

/-- The lock of an entity. -/
def lockOf : Entity → Uuid → RowLock
  | .project => .project
  | .pool => .pool
  | .credential => .credential
  | .scriptRepo => .scriptRepo
  | .test => .test
  | .targetPolicy => .targetPolicy
  | .scriptVersion => .scriptVersion

theorem lock_of_version (made : version? w = some v) : w.lock = lockOf v.entity v.id := by
  cases w <;> cases made <;> rfl

/-- A row that is written stands under its identifier. -/
theorem keyed_of_version (made : version? w = some v) :
    ∀ row, v.row = some row → v.entity.idOf row = v.id := by
  cases w <;> cases made <;> rintro row ⟨⟩ <;> rfl

theorem table_apply_of_none (made : version? w = none) : e.table (w.apply d) = e.table d := by
  cases w <;> first | (cases e <;> rfl) | cases made

theorem table_apply_self (made : version? w = some v) :
    (v.entity.table (w.apply d)).get? v.id = v.row := by
  cases w <;> cases made <;>
    first | exact Dict.get?_set_self .. | exact (Dict.get?_pop ..).trans (if_pos rfl)

theorem table_apply_other (made : version? w = some v) (other : ¬ (v.entity = e ∧ v.id = id)) :
    (e.table (w.apply d)).get? id = (e.table d).get? id := by
  cases w <;> cases made <;> cases e <;>
    first
      | rfl
      | exact Dict.get?_set_ne _ _ fun same => other ⟨rfl, same⟩
      | exact (Dict.get?_pop ..).trans (if_neg fun same => other ⟨rfl, same⟩)

theorem auditLogs_apply_of_none (made : auditRow? w = none) : (w.apply d).auditLogs = d.auditLogs := by
  cases w <;> first | rfl | cases made

theorem table_applyAll_of_nil (made : writes.filterMap version? = []) :
    e.table (postgres.applyAll writes d) = e.table d := by
  induction writes generalizing d with
  | nil => rfl
  | cons w rest ih =>
      rw [List.filterMap_cons] at made
      split at made
      · rename_i none_
        exact (ih made).trans (table_apply_of_none none_)
      · cases made

/-- The one version that is written. -/
theorem table_applyAll_self (made : writes.filterMap version? = [v]) :
    (v.entity.table (postgres.applyAll writes d)).get? v.id = v.row := by
  induction writes generalizing d with
  | nil => cases made
  | cons w rest ih =>
      rw [List.filterMap_cons] at made
      split at made
      · exact ih made
      · rename_i some_
        obtain ⟨same, none_⟩ := List.cons.inj made
        rw [same] at some_
        have after := table_applyAll_of_nil (e := v.entity) (d := w.apply d) none_
        exact (congrArg (fun table => Dict.get? table v.id) after).trans (table_apply_self some_)

theorem table_applyAll_other (made : writes.filterMap version? = [v])
    (other : ¬ (v.entity = e ∧ v.id = id)) :
    (e.table (postgres.applyAll writes d)).get? id = (e.table d).get? id := by
  induction writes generalizing d with
  | nil => cases made
  | cons w rest ih =>
      rw [List.filterMap_cons] at made
      split at made
      · rename_i none_
        refine (ih made).trans ?_
        exact congrArg (fun table => Dict.get? table id) (table_apply_of_none none_)
      · rename_i some_
        obtain ⟨rfl, none_⟩ := List.cons.inj made
        have after := table_applyAll_of_nil (e := e) (d := w.apply d) none_
        exact (congrArg (fun table => Dict.get? table id) after).trans
          (table_apply_other some_ other)

theorem auditLogs_applyAll_of_nil (made : writes.filterMap auditRow? = []) :
    (postgres.applyAll writes d).auditLogs = d.auditLogs := by
  induction writes generalizing d with
  | nil => rfl
  | cons w rest ih =>
      rw [List.filterMap_cons] at made
      split at made
      · rename_i none_
        exact (ih made).trans (auditLogs_apply_of_none none_)
      · cases made

theorem auditLogs_applyAll {row : AuditLog} (made : writes.filterMap auditRow? = [row]) :
    (postgres.applyAll writes d).auditLogs = d.auditLogs.set row.id row := by
  induction writes generalizing d with
  | nil => cases made
  | cons w rest ih =>
      rw [List.filterMap_cons] at made
      split at made
      · rename_i none_
        refine (ih made).trans ?_
        exact congrArg (fun logs => Dict.set logs row.id row) (auditLogs_apply_of_none none_)
      · rename_i some_
        obtain ⟨rfl, none_⟩ := List.cons.inj made
        refine (auditLogs_applyAll_of_nil none_).trans ?_
        cases w <;> cases some_
        rfl

/-! ## What a transaction relies on -/

/-- Two databases agree on an entity. -/
structure Same (e : Entity) (id : Uuid) (d d' : Database) : Prop where
  row : (e.table d).get? id = (e.table d').get? id
  deleted : deletion e id ∈ trail d ↔ deletion e id ∈ trail d'

theorem Same.refl (e : Entity) (id : Uuid) (d : Database) : Same e id d d := ⟨rfl, Iff.rfl⟩

theorem Same.trans {d₁ d₂ d₃ : Database} (first : Same e id d₁ d₂) (second : Same e id d₂ d₃) :
    Same e id d₁ d₃ :=
  ⟨first.row.trans second.row, first.deleted.trans second.deleted⟩

/-- Two databases agree on what a lock is of. -/
def SameUnder (d d' : Database) : RowLock → Prop
  | .project id => Same .project id d d'
  | .pool id => Same .pool id d d'
  | .credential id => Same .credential id d d'
  | .scriptRepo id => Same .scriptRepo id d d'
  | .test id => Same .test id d d'
  | .targetPolicy id => Same .targetPolicy id d d'
  | .scriptVersion id => Same .scriptVersion id d d'
  | .audit id => d.auditLogs.get? id = d'.auditLogs.get? id
  | _ => True

theorem sameUnder_lockOf : SameUnder d d' (lockOf e id) ↔ Same e id d d' := by
  cases e <;> exact Iff.rfl

/-- The transactions keep the database sound; their rows are locked; and they insert
under new identifiers, and delete what is there. -/
def rely : Sql.Reliance postgres where
  same lock d d' := SameUnder d d' lock
  same_refl lock d := by
    cases lock <;> first | exact Same.refl .. | trivial
  same_trans lock d₁ d₂ d₃ first second := by
    cases lock <;> first | exact Same.trans first second | trivial | exact Eq.trans first second
  evolves d d' := Sound d → Sound d'
  evolves_refl _ sound := sound
  evolves_trans _ _ _ first second sound := second (first sound)
  allowed st c d :=
    (∀ entity ∈ inserts c st, deletion entity.1 entity.2 ∉ trail d) ∧
      ∀ id ∈ deletes st, (Database.byKey c d.credentials id).isSome = true

theorem same_of_stable (stable : rely.Stable writes d d') (member : w ∈ writes)
    (made : version? w = some v) : Same v.entity v.id d d' := by
  have same := stable.same w member
  change SameUnder d d' w.lock at same
  rw [lock_of_version made] at same
  exact sameUnder_lockOf.mp same

/-! ## Balances -/

/-- A version replaces what it may: what is archived stays so, what is new is not
under the identifier of something deleted, and what is deleted is there. -/
structure Version.Lawful (d : Database) (v : Version) : Prop where
  archived : ∀ old row, (v.entity.table d).get? v.id = some old → v.row = some row →
    v.entity.archived old = true → v.entity.archived row = true
  isNew : (v.entity.table d).get? v.id = none → deletion v.entity v.id ∉ trail d
  there : v.row = none → ∃ old, (v.entity.table d).get? v.id = some old ∧
    v.entity.archived old = false

/-- What a transaction has changed so far, and what its audit row says. -/
structure Balance (d : Database) (writes : List Write) (change : Option Change) (mark : Option Mark) :
    Prop where
  sound : Sound d
  version : ∃ version : Option Version, writes.filterMap version? = version.toList ∧
    version.map (Version.change d) = change ∧ ∀ v ∈ version, v.Lawful d
  audit : ∃ row : Option AuditLog, writes.filterMap auditRow? = row.toList ∧
    row.map markOf = mark ∧ ∀ a ∈ row, d.auditLogs.get? a.id = none

variable {change : Option Change} {mark : Option Mark}

theorem Version.event_congr (same : (v.entity.table d).get? v.id = (v.entity.table d').get? v.id) :
    v.event d = v.event d' := by
  rw [Version.event, Version.event, same]

/-- What others commit does not unbalance. -/
theorem Balance.stable (balance : Balance d writes change mark) (stable : rely.Stable writes d d') :
    Balance d' writes change mark where
  sound := stable.evolves balance.sound
  version := by
    obtain ⟨version, wrote, changed, lawful⟩ := balance.version
    refine ⟨version, wrote, ?_, ?_⟩
    · rw [← changed]
      cases version with
      | none => rfl
      | some v =>
          obtain ⟨w, member, made⟩ := List.mem_filterMap.mp
            (wrote ▸ List.mem_singleton_self v : v ∈ writes.filterMap version?)
          have same := (same_of_stable stable member made).row
          rw [Option.map_some, Option.map_some, Version.change, Version.change,
            Version.event_congr same]
    · intro v here
      obtain rfl := Option.mem_def.mp here
      obtain ⟨w, member, made⟩ := List.mem_filterMap.mp
        (wrote ▸ List.mem_singleton_self v : v ∈ writes.filterMap version?)
      have same := same_of_stable stable member made
      have before := lawful v rfl
      refine ⟨?_, ?_, ?_⟩
      · rw [← same.row]
        exact before.archived
      · rw [← same.row, ← same.deleted]
        exact before.isNew
      · rw [← same.row]
        exact before.there
  audit := by
    obtain ⟨row, wrote, said, free⟩ := balance.audit
    refine ⟨row, wrote, said, ?_⟩
    intro a here
    obtain rfl := Option.mem_def.mp here
    obtain ⟨w, member, made⟩ := List.mem_filterMap.mp
      (wrote ▸ List.mem_singleton_self a : a ∈ writes.filterMap auditRow?)
    have same : SameUnder d d' w.lock := stable.same w member
    cases w <;> cases made
    exact same.symm.trans (free a rfl)

/-- Writes that are about no entity and write no audit row. -/
def Quiet (writes : List Write) : Prop :=
  writes.filterMap version? = [] ∧ writes.filterMap auditRow? = []

theorem quiet_nil : Quiet [] := ⟨rfl, rfl⟩

theorem Balance.quiet {more : List Write} (balance : Balance d writes change mark)
    (quiet : Quiet more) : Balance d (writes ++ more) change mark where
  sound := balance.sound
  version := by
    obtain ⟨version, wrote, rest⟩ := balance.version
    refine ⟨version, ?_, rest⟩
    rw [List.filterMap_append, quiet.1, List.append_nil, wrote]
  audit := by
    obtain ⟨row, wrote, rest⟩ := balance.audit
    refine ⟨row, ?_, rest⟩
    rw [List.filterMap_append, quiet.2, List.append_nil, wrote]

/-- Where nothing has been changed, a statement sees the entities as they are
committed. -/
theorem Balance.table_eq (balance : Balance d writes none mark) :
    e.table (postgres.applyAll writes d) = e.table d := by
  obtain ⟨version, wrote, changed, -⟩ := balance.version
  rw [Option.map_eq_none_iff] at changed
  subst changed
  exact table_applyAll_of_nil wrote

theorem Balance.auditLogs_eq (balance : Balance d writes change none) :
    (postgres.applyAll writes d).auditLogs = d.auditLogs := by
  obtain ⟨row, wrote, said, -⟩ := balance.audit
  rw [Option.map_eq_none_iff] at said
  subst said
  exact auditLogs_applyAll_of_nil wrote

theorem Balance.trail_eq (balance : Balance d writes change none) :
    trail (postgres.applyAll writes d) = trail d := by
  rw [trail, balance.auditLogs_eq, trail]

/-- A change is made. -/
theorem Balance.changing {more : List Write} (balance : Balance d writes none mark)
    (wrote : more.filterMap version? = [v]) (silent : more.filterMap auditRow? = [])
    (lawful : v.Lawful d) : Balance d (writes ++ more) (some (v.change d)) mark where
  sound := balance.sound
  version := by
    obtain ⟨version, before, changed, -⟩ := balance.version
    rw [Option.map_eq_none_iff] at changed
    subst changed
    refine ⟨some v, ?_, rfl, ?_⟩
    · rw [List.filterMap_append, before, wrote]
      rfl
    · rintro v ⟨⟩
      exact lawful
  audit := by
    obtain ⟨row, before, rest⟩ := balance.audit
    refine ⟨row, ?_, rest⟩
    rw [List.filterMap_append, silent, List.append_nil, before]

/-- An audit row is written. -/
theorem Balance.recording {row : AuditLog} (balance : Balance d writes change none)
    (free : d.auditLogs.get? row.id = none) :
    Balance d (writes ++ [.audit row]) change (some (markOf row)) where
  sound := balance.sound
  version := by
    obtain ⟨version, before, rest⟩ := balance.version
    refine ⟨version, ?_, rest⟩
    rw [List.filterMap_append, before]
    exact List.append_nil _
  audit := by
    obtain ⟨row', before, said, -⟩ := balance.audit
    rw [Option.map_eq_none_iff] at said
    subst said
    refine ⟨some row, ?_, rfl, ?_⟩
    · rw [List.filterMap_append, before]
      rfl
    · rintro a ⟨⟩
      exact free

/-! ## What a balanced transaction leaves -/

/-- The audit log has grown by what the audit row says. -/
theorem Balance.trail_applyAll (balance : Balance d writes change mark) :
    trail (postgres.applyAll writes d) = trail d ++ mark.toList := by
  obtain ⟨row, wrote, rfl, free⟩ := balance.audit
  cases row with
  | none =>
      rw [trail, auditLogs_applyAll_of_nil wrote]
      exact (List.append_nil _).symm
  | some row =>
      rw [trail, auditLogs_applyAll wrote, Dict.items_set_new (free row rfl), List.map_append]
      rfl

/-- What is deleted was not, and what was deleted stays so. -/
theorem Version.Lawful.gone (lawful : v.Lawful d) (sound : Sound d)
    (wrote : writes.filterMap version? = [v]) {e : Entity} {id : Uuid}
    (said : deletion e id ∈ trail d ∨ v.change d = ⟨e, id, .deleted⟩) :
    Gone e id (postgres.applyAll writes d) := by
  intro row there
  by_cases here : v.entity = e ∧ v.id = id
  · obtain ⟨rfl, rfl⟩ := here
    rw [table_applyAll_self wrote] at there
    cases found : (v.entity.table d).get? v.id with
    | none =>
        rcases said with marked | changed
        · exact absurd marked (lawful.isNew found)
        · have event := congrArg Change.event changed
          simp [Version.change, Version.event, found, there] at event
    | some old =>
        rcases said with marked | changed
        · exact lawful.archived old row found there (sound.gone _ _ marked old found)
        · have event := congrArg Change.event changed
          by_cases archived : v.entity.archived row = true
          · exact archived
          · simp [Version.change, Version.event, found, there, archived] at event
  · rw [table_applyAll_other wrote here] at there
    rcases said with marked | changed
    · exact sound.gone e id marked row there
    · exact absurd ⟨congrArg Change.entity changed, congrArg Change.id changed⟩ here

/-- What is being deleted was not said to be deleted before. -/
theorem Version.Lawful.notMarked (lawful : v.Lawful d) (sound : Sound d) {e : Entity} {id : Uuid}
    (changed : v.change d = ⟨e, id, .deleted⟩) : deletion e id ∉ trail d := by
  obtain rfl : v.entity = e := congrArg Change.entity changed
  obtain rfl : v.id = id := congrArg Change.id changed
  intro marked
  have gone := sound.gone _ _ marked
  cases found : (v.entity.table d).get? v.id with
  | none => exact lawful.isNew found marked
  | some old =>
      have archived := gone old found
      have event := congrArg Change.event changed
      cases written : v.row with
      | none =>
          obtain ⟨old', found', live⟩ := lawful.there written
          obtain rfl := Option.some.inj (found.symm.trans found')
          rw [archived] at live
          cases live
      | some row => simp [Version.change, Version.event, found, written, archived] at event

/-- A balanced transaction whose audit row tells of its change keeps the database
sound. -/
theorem Balance.sound_applyAll (balance : Balance d writes change (change.map Change.mark)) :
    Sound (postgres.applyAll writes d) := by
  have grown := balance.trail_applyAll
  have sound := balance.sound
  obtain ⟨version, wrote, changed, lawful⟩ := balance.version
  cases version with
  | none =>
      subst changed
      have same : trail (postgres.applyAll writes d) = trail d := by
        rw [grown]
        exact List.append_nil _
      refine ⟨fun e => ?_, fun e id marked => ?_, fun e id => ?_⟩
      · rw [table_applyAll_of_nil wrote]
        exact sound.keyed e
      · rw [same] at marked
        intro row there
        rw [table_applyAll_of_nil wrote] at there
        exact sound.gone e id marked row there
      · rw [same]
        exact sound.once e id
  | some v =>
      subst changed
      change trail _ = trail d ++ [(v.change d).mark] at grown
      have lawful := lawful v rfl
      refine ⟨fun e k row there => ?_, fun e id marked => ?_, fun e id => ?_⟩
      · by_cases here : v.entity = e ∧ v.id = k
        · obtain ⟨rfl, rfl⟩ := here
          rw [table_applyAll_self wrote] at there
          obtain ⟨w, -, made⟩ := List.mem_filterMap.mp
            (wrote ▸ List.mem_singleton_self v : v ∈ writes.filterMap version?)
          exact keyed_of_version made row there
        · rw [table_applyAll_other wrote here] at there
          exact sound.keyed e k row there
      · rw [grown, List.mem_append, List.mem_singleton] at marked
        refine lawful.gone sound wrote (marked.imp_right fun same => ?_)
        exact mark_eq_deletion_iff.mp same.symm
      · rw [grown, List.count_append]
        by_cases same : (v.change d).mark = deletion e id
        · have before := lawful.notMarked sound (mark_eq_deletion_iff.mp same)
          rw [List.count_eq_zero_of_not_mem before, same]
          simp
        · rw [List.count_singleton, if_neg (by simpa using same), Nat.add_zero]
          exact sound.once e id

/-- What a transaction has not locked, it leaves as it is. -/
theorem Balance.same_applyAll {lock : RowLock}
    (balance : Balance d writes change (change.map Change.mark))
    (unlocked : lock ∉ writes.map Write.lock) :
    SameUnder d (postgres.applyAll writes d) lock := by
  have entity : ∀ e id, lock = lockOf e id → Same e id d (postgres.applyAll writes d) := by
    rintro e id rfl
    have grown := balance.trail_applyAll
    obtain ⟨version, wrote, changed, -⟩ := balance.version
    cases version with
    | none =>
        subst changed
        refine ⟨by rw [table_applyAll_of_nil wrote], ?_⟩
        rw [grown]
        exact Iff.of_eq (congrArg _ (List.append_nil _).symm)
    | some v =>
        subst changed
        have other : ¬ (v.entity = e ∧ v.id = id) := by
          rintro ⟨rfl, rfl⟩
          obtain ⟨w, member, made⟩ := List.mem_filterMap.mp
            (wrote ▸ List.mem_singleton_self v : v ∈ writes.filterMap version?)
          exact unlocked (List.mem_map.mpr ⟨w, member, lock_of_version made⟩)
        refine ⟨(table_applyAll_other wrote other).symm, ?_⟩
        change trail _ = trail d ++ [(v.change d).mark] at grown
        rw [grown, List.mem_append, List.mem_singleton]
        refine ⟨Or.inl, ?_⟩
        rintro (before | same)
        · exact before
        · have changed := mark_eq_deletion_iff.mp same.symm
          exact absurd ⟨congrArg Change.entity changed, congrArg Change.id changed⟩ other
  cases lock with
  | project id => exact entity .project id rfl
  | pool id => exact entity .pool id rfl
  | credential id => exact entity .credential id rfl
  | scriptRepo id => exact entity .scriptRepo id rfl
  | test id => exact entity .test id rfl
  | targetPolicy id => exact entity .targetPolicy id rfl
  | scriptVersion id => exact entity .scriptVersion id rfl
  | audit id =>
      obtain ⟨row, wrote, -, -⟩ := balance.audit
      cases row with
      | none => exact (congrArg (fun table => Dict.get? table id) (auditLogs_applyAll_of_nil wrote)).symm
      | some row =>
          have differs : row.id ≠ id := by
            rintro rfl
            obtain ⟨w, member, made⟩ := List.mem_filterMap.mp
              (wrote ▸ List.mem_singleton_self row : row ∈ writes.filterMap auditRow?)
            refine unlocked (List.mem_map.mpr ⟨w, member, ?_⟩)
            cases w <;> cases made
            rfl
          change d.auditLogs.get? id = (postgres.applyAll writes d).auditLogs.get? id
          rw [auditLogs_applyAll wrote, Dict.get?_set_ne _ _ differs]
  | _ => trivial

end Plimsoll.Audit
