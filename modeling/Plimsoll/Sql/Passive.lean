import Plimsoll.Sql.Program

/-!
Programs that only read.

Whatever comes of such a program, it leaves the setting, the database and the environment as
it has found them; so does the transaction that it runs in.
-/

namespace Sql

variable {I : Interface} {ε α β : Type}

namespace Program

/-- The program leaves everything as it finds it. -/
def Passive (p : Program I ε α) : Prop := ∀ v, (p.run v).2 = v

theorem passive_finished (outcome : Except ε α) :
    (Program.finished outcome : Program I ε α).Passive := fun _ => rfl

theorem passive_pure (a : α) : (pure a : Program I ε α).Passive := fun _ => rfl

theorem passive_raise (exc : ε) : (raise exc : Program I ε α).Passive := fun _ => rfl

theorem Passive.bind {p : Program I ε α} {f : α → Program I ε β} (first : p.Passive)
    (later : ∀ a, (f a).Passive) : (p >>= f).Passive := by
  intro v
  have same := first v
  rw [run_bind]
  rcases ran : p.run v with ⟨outcome, v₁⟩
  rw [ran] at same
  obtain rfl : v₁ = v := same
  cases outcome with
  | ok a => exact later a v₁
  | error exc => rfl

end Program

theorem transaction_passive {p : Program I ε α} (passive : p.Passive) (setting : I.Setting)
    (d : I.Database) (e : I.Environment) : (transaction p setting d e).2 = (d, e) := by
  have same := passive ⟨setting, d, e⟩
  rcases ran : p.run ⟨setting, d, e⟩ with ⟨outcome, v⟩
  rw [ran] at same
  obtain rfl : v = ⟨setting, d, e⟩ := same
  cases outcome with
  | ok a => rw [transaction_ok ran]
  | error exc => rw [transaction_error ran]

end Sql
