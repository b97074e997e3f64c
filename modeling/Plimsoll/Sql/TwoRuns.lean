import Plimsoll.Sql.Program

/-!
Two runs of one program.

A program is judged alone: each statement that it executes is admitted where it
stands. What admitted statements keep, the run keeps; and where they answer the
same on two databases and keep these alike, so does the program.
-/

namespace Sql

variable {I : Interface} {ε α β : Type}

/-- What a statement makes of a view. -/
def View.executed (s : I.Statement) (v : View I) : View I where
  setting := I.setting s v.setting
  database := I.applyAll (I.execute s v.setting v.database).2 v.database
  environment := v.environment

/-- What a question makes of a view. -/
def View.asked (q : I.Question) (v : View I) : View I :=
  { v with environment := (I.reply q v.environment).2 }

/-- A view of another database. -/
def View.on (v : View I) (d : I.Database) : View I := { v with database := d }

/-- The program executes only statements that are admitted where it stands, and
returns with what `post` says. -/
def Program.Admitted (admits : I.Statement → View I → Prop) (post : α → View I → Prop) :
    Program I ε α → View I → Prop
  | .finished (.ok a), v => post a v
  | .finished (.error _), _ => True
  | .execute s next, v =>
      admits s v ∧ (next (I.execute s v.setting v.database).1).Admitted admits post (v.executed s)
  | .ask q next, v => (next (I.reply q v.environment).1).Admitted admits post (v.asked q)

namespace Program

variable {admits : I.Statement → View I → Prop} {v : View I}

theorem Admitted.weaken {post post' : α → View I → Prop} {p : Program I ε α}
    (admitted : p.Admitted admits post v) (weaker : ∀ a v, post a v → post' a v) :
    p.Admitted admits post' v := by
  induction p generalizing v with
  | finished outcome =>
      cases outcome with
      | ok a => exact weaker a v admitted
      | error exc => trivial
  | execute s next ih => exact ⟨admitted.1, ih _ admitted.2⟩
  | ask q next ih => exact ih _ admitted

/-- A sequence, from what its first part returns with. -/
theorem Admitted.bind {p : Program I ε α} {f : α → Program I ε β} {post : β → View I → Prop}
    (first : p.Admitted admits (fun a v => (f a).Admitted admits post v) v) :
    (p >>= f).Admitted admits post v := by
  induction p generalizing v with
  | finished outcome =>
      cases outcome with
      | ok a => exact first
      | error exc => trivial
  | execute s next ih => exact ⟨first.1, ih _ first.2⟩
  | ask q next ih => exact ih _ first

theorem Admitted.mapError {p : Program I ε α} {f : ε → ε} {post : α → View I → Prop}
    (admitted : p.Admitted admits post v) : (p.mapError f).Admitted admits post v := by
  induction p generalizing v with
  | finished outcome =>
      cases outcome with
      | ok a => exact admitted
      | error exc => trivial
  | execute s next ih => exact ⟨admitted.1, ih _ admitted.2⟩
  | ask q next ih => exact ih _ admitted

/-- An attempt returns whatever the program comes to. -/
theorem Admitted.attempt {p : Program I ε α} {post : α → View I → Prop}
    (admitted : p.Admitted admits post v) : p.attempt.Admitted admits (fun _ _ => True) v := by
  induction p generalizing v with
  | finished outcome => trivial
  | execute s next ih => exact ⟨admitted.1, ih _ admitted.2⟩
  | ask q next ih => exact ih _ admitted

/-- What admitted statements keep holds where the program returns. -/
theorem Admitted.keeping {post : α → View I → Prop} {holds : View I → Prop}
    (execute : ∀ s v, holds v → admits s v → holds (v.executed s))
    (ask : ∀ q v, holds v → holds (v.asked q)) {p : Program I ε α}
    (admitted : p.Admitted admits post v) (first : holds v) :
    p.Admitted admits (fun a v => holds v ∧ post a v) v := by
  induction p generalizing v with
  | finished outcome =>
      cases outcome with
      | ok a => exact ⟨first, admitted⟩
      | error exc => trivial
  | execute s next ih => exact ⟨admitted.1, ih _ admitted.2 (execute s v first admitted.1)⟩
  | ask q next ih => exact ih _ admitted (ask q v first)

/-- What admitted statements keep, the run keeps. -/
theorem Admitted.run_keeps {post : α → View I → Prop} {holds : View I → Prop}
    (execute : ∀ s v, holds v → admits s v → holds (v.executed s))
    (ask : ∀ q v, holds v → holds (v.asked q)) {p : Program I ε α}
    (admitted : p.Admitted admits post v) (first : holds v) :
    holds (p.run v).2 ∧ ∀ a, (p.run v).1 = .ok a → post a (p.run v).2 := by
  induction p generalizing v with
  | finished outcome =>
      refine ⟨first, fun a returned => ?_⟩
      change outcome = _ at returned
      subst returned
      exact admitted
  | execute s next ih => exact ih _ admitted.2 (execute s v first admitted.1)
  | ask q next ih => exact ih _ admitted (ask q v first)

/-- Two runs on databases that are alike end alike. -/
theorem Admitted.run_alike {post : α → View I → Prop} {alike : View I → I.Database → Prop}
    (execute : ∀ s v d, alike v d → admits s v →
      I.execute s v.setting d = I.execute s v.setting v.database ∧
        alike (v.executed s) ((v.on d).executed s).database)
    (ask : ∀ q v d, alike v d → alike (v.asked q) d) {p : Program I ε α}
    (admitted : p.Admitted admits post v) {d : I.Database} (first : alike v d) :
    ∃ d', p.run (v.on d) = ((p.run v).1, (p.run v).2.on d') ∧ alike (p.run v).2 d' := by
  induction p generalizing v d with
  | finished outcome => exact ⟨d, rfl, first⟩
  | execute s next ih =>
      obtain ⟨same, later⟩ := execute s v d first admitted.1
      obtain ⟨d', ran, last⟩ := ih _ admitted.2 later
      refine ⟨d', ?_, last⟩
      rw [run_execute]
      change (next (I.execute s v.setting d).1).run _ = _
      rw [same]
      exact ran
  | ask q next ih => exact ih _ admitted (ask q v d first)

end Program

end Sql
