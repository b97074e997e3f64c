import Plimsoll.Sql.TwoRuns

/-!
Programs behind a driver.

A driver stands between a program and its database: what a column does not hold it
refuses, whatever the statement would have done. `Behind` is the rule of a program
that runs alone behind one: what it may raise, and what holds where it returns.
-/

namespace Sql

variable {I : Interface} {ε α β : Type}

/-- What a driver lets through, of statements and of what they come to, and what it
raises instead. -/
structure Driver (I : Interface) (ε : Type) where
  accepts : (s : I.Statement) → I.Answer s → Bool
  refusal : ε

namespace Program

/-- The program behind a driver. -/
def through (driver : Driver I ε) : Program I ε α → Program I ε α
  | .finished outcome => .finished outcome
  | .execute s next => .execute s fun answer =>
      if driver.accepts s answer then (next answer).through driver
      else .finished (.error driver.refusal)
  | .ask q next => .ask q fun answer => (next answer).through driver

variable {driver : Driver I ε} {v : View I}

/-- Behind the driver the program raises only what `raises` says, and returns with
what `post` says. -/
def Behind (driver : Driver I ε) (raises : ε → Prop) (post : α → View I → Prop) :
    Program I ε α → View I → Prop
  | .finished (.ok a), v => post a v
  | .finished (.error exc), _ => raises exc
  | .execute s next, v =>
      if driver.accepts s (I.execute s v.setting v.database).1 then
        (next (I.execute s v.setting v.database).1).Behind driver raises post (v.executed s)
      else raises driver.refusal
  | .ask q next, v => (next (I.reply q v.environment).1).Behind driver raises post (v.asked q)

variable {raises : ε → Prop}

theorem Behind.weaken {post post' : α → View I → Prop} {p : Program I ε α}
    (behind : p.Behind driver raises post v) (weaker : ∀ a v, post a v → post' a v) :
    p.Behind driver raises post' v := by
  induction p generalizing v with
  | finished outcome =>
      cases outcome with
      | ok a => exact weaker a v behind
      | error exc => exact behind
  | execute s next ih =>
      rw [Behind] at behind ⊢
      split
      · rename_i accepted
        rw [if_pos accepted] at behind
        exact ih _ behind
      · rename_i refused
        rw [if_neg refused] at behind
        exact behind
  | ask q next ih => exact ih _ behind

/-- A sequence, from what its first part returns with. -/
theorem Behind.bind {p : Program I ε α} {f : α → Program I ε β} {post : β → View I → Prop}
    (first : p.Behind driver raises (fun a v => (f a).Behind driver raises post v) v) :
    (p >>= f).Behind driver raises post v := by
  induction p generalizing v with
  | finished outcome =>
      cases outcome with
      | ok a => exact first
      | error exc => exact first
  | execute s next ih =>
      rw [Behind] at first
      rw [execute_bind, Behind]
      split
      · rename_i accepted
        rw [if_pos accepted] at first
        exact ih _ first
      · rename_i refused
        rw [if_neg refused] at first
        exact first
  | ask q next ih => exact ih _ first

/-- A statement that the driver accepts. -/
theorem Behind.execute {s : I.Statement} {next : I.Answer s → Program I ε α}
    {post : α → View I → Prop}
    (accepted : driver.accepts s (I.execute s v.setting v.database).1 = true)
    (later : (next (I.execute s v.setting v.database).1).Behind driver raises post (v.executed s)) :
    (Program.execute s next).Behind driver raises post v := by
  rw [Behind, if_pos accepted]
  exact later

/-- What the rule says of a program holds of its run behind the driver. -/
theorem Behind.run {post : α → View I → Prop} {p : Program I ε α}
    (behind : p.Behind driver raises post v) :
    (∃ a v', (p.through driver).run v = (.ok a, v') ∧ post a v') ∨
      ∃ exc v', (p.through driver).run v = (.error exc, v') ∧ raises exc := by
  induction p generalizing v with
  | finished outcome =>
      cases outcome with
      | ok a => exact Or.inl ⟨a, v, rfl, behind⟩
      | error exc => exact Or.inr ⟨exc, v, rfl, behind⟩
  | execute s next ih =>
      rw [Behind] at behind
      rw [through, run_execute]
      split at behind
      · rename_i accepted
        rw [if_pos accepted]
        exact ih _ behind
      · rename_i refused
        rw [if_neg refused]
        exact Or.inr ⟨_, _, rfl, behind⟩
  | ask q next ih => exact ih _ behind

end Program

end Sql
