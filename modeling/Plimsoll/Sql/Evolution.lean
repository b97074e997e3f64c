import Plimsoll.Sql.Rows

/-!
What rows become.

Where every statement leaves each row as something that it may become, so does every
run of whatever programs.
-/

namespace Sql

variable {I : Interface} {ε α : Type}

/-! ## Evolutions -/

/-- What holds of every row, and what a row may become. -/
structure Evolution (I : Interface) extends Rows I where
  holds : (lock : I.Lock) → Row lock → Prop
  follows : (lock : I.Lock) → Row lock → Row lock → Prop
  refl : ∀ lock r, follows lock r r
  trans : ∀ lock r₁ r₂ r₃, follows lock r₁ r₂ → follows lock r₂ r₃ → follows lock r₁ r₃
  /-- What a statement writes may stand where it is written. -/
  execute : ∀ s c d, (∀ lock, holds lock (row lock d)) → ∀ write ∈ (I.execute s c d).2,
    holds (I.lock write) (written write) ∧
      follows (I.lock write) (row (I.lock write) d) (written write)

namespace Evolution

open Server

variable (ev : Evolution I) {sys : System I ε α}

/-- All rows are as they have to be. -/
def Sound (d : I.Database) : Prop := ∀ lock, ev.holds lock (ev.row lock d)

/-- Every row has become something that it may become. -/
def Onward (d d' : I.Database) : Prop := ∀ lock, ev.follows lock (ev.row lock d) (ev.row lock d')

variable {ev} {d d' d'' : I.Database}

theorem Onward.refl : ev.Onward d d := fun lock => ev.refl lock _

theorem Onward.trans (first : ev.Onward d d') (second : ev.Onward d' d'') : ev.Onward d d'' :=
  fun lock => ev.trans lock _ _ _ (first lock) (second lock)

/-- A statement, on a sound database. -/
theorem Sound.execute (sound : ev.Sound d) (s : I.Statement) (c : I.Setting) :
    ev.Sound (I.applyAll (I.execute s c d).2 d) ∧
      ev.Onward d (I.applyAll (I.execute s c d).2 d) := by
  constructor
  · intro lock
    exact ev.row_applyAll (P := ev.holds) (sound lock) fun write member =>
      (ev.execute s c d sound write member).1
  · intro lock
    exact ev.row_applyAll (P := fun lock r => ev.follows lock (ev.row lock d) r) (ev.refl lock _)
      fun write member => (ev.execute s c d sound write member).2

/-- Every session sees what has become of what is committed. -/
structure Invariant (ev : Evolution I) (s : Server sys) : Prop where
  sound : ev.Sound s.committed
  sees : ∀ id session, s.sessions id = some session →
    ev.Sound (s.view session) ∧ ev.Onward s.committed (s.view session)
  locked : s.Locked

variable {s s' : Server sys}

/-- What another session sees when one commits: its own rows as before, and elsewhere
what is committed. -/
theorem Invariant.sees_committed (inv : ev.Invariant s) {id other : Nat}
    {session session' : Session sys} (found : s.sessions id = some session)
    (found' : s.sessions other = some session') (differs : other ≠ id) :
    ev.Sound (I.applyAll session'.pending (s.view session)) ∧
      ev.Onward (s.view session) (I.applyAll session'.pending (s.view session)) := by
  obtain ⟨sound, -⟩ := inv.sees id session found
  obtain ⟨sound', onward'⟩ := inv.sees other session' found'
  constructor
  · intro lock
    rcases ev.row_committing inv.locked found found' differs lock with ⟨same, -, -⟩ | ⟨same, -⟩
    · rw [same]
      exact sound' lock
    · rw [same]
      exact sound lock
  · intro lock
    rcases ev.row_committing inv.locked found found' differs lock with
      ⟨same, untouched, -⟩ | ⟨same, -⟩
    · rw [same, untouched]
      exact onward' lock
    · rw [same]
      exact ev.refl lock _

/-- Every step keeps the rows sound, and leaves them as something they may become. -/
theorem Invariant.step (inv : ev.Invariant s) {e : Event sys} (stepped : s.step e = some s') :
    ev.Invariant s' ∧ ev.Onward s.committed s'.committed := by
  have committed : ev.Sound s'.committed ∧ ev.Onward s.committed s'.committed := by
    rcases committed_step stepped with same | ⟨id, session, found, same⟩
    · rw [same]
      exact ⟨inv.sound, .refl⟩
    · rw [same]
      exact inv.sees id session found
  refine ⟨⟨committed.1, ?_, locked_step inv.locked stepped⟩, committed.2⟩
  refine sessions_step (P := fun d session => ev.Sound (I.applyAll session.pending d) ∧
    ev.Onward d (I.applyAll session.pending d)) stepped inv.sees ?_ ?_ ?_ ?_
  · exact fun _ job _ => ⟨inv.sound, .refl⟩
  · exact fun id session q next r found _ => inv.sees id session found
  · intro id session st next found _
    obtain ⟨sound, onward⟩ := inv.sees id session found
    obtain ⟨sound', onward'⟩ := sound.execute st session.setting
    rw [I.applyAll_append]
    exact ⟨sound', onward.trans onward'⟩
  · exact fun id other session session' found found' differs =>
      inv.sees_committed found found' differs

theorem Invariant.run {condition : Server sys → Event sys → Prop} (inv : ev.Invariant s)
    (run : Run condition s s') : ev.Invariant s' ∧ ev.Onward s.committed s'.committed := by
  induction run with
  | refl => exact ⟨inv, .refl⟩
  | step _ _ stepped ih =>
      obtain ⟨inv', onward⟩ := ih.1.step stepped
      exact ⟨inv', ih.2.trans onward⟩

theorem invariant_of_start {d : I.Database} {e : I.Environment} (sound : ev.Sound d) :
    ev.Invariant ({ committed := d, environment := e } : Server sys) := by
  refine ⟨sound, ?_, ?_⟩
  · intro id session at_
    cases at_
  · intro id session at_
    cases at_

/-- In a run that begins without sessions, the rows that are committed at a moment are
sound, and have become by any later one what they may become. -/
theorem of_runs {condition condition' : Server sys → Event sys → Prop} {d : I.Database}
    {e : I.Environment} (sound : ev.Sound d)
    (run : Run condition { committed := d, environment := e } s) (later : Run condition' s s') :
    ev.Sound s'.committed ∧ ev.Onward s.committed s'.committed := by
  obtain ⟨inv, -⟩ := (invariant_of_start sound).run run
  obtain ⟨inv', onward⟩ := inv.run later
  exact ⟨inv'.sound, onward⟩

end Evolution

end Sql
