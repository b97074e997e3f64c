import Plimsoll.Database
import Plimsoll.Sql.Guarantee

/-!
Statements of a transaction beside others.
-/

namespace Plimsoll.Transaction

open Database (Setting Statement Fault)

variable {α : Type} {rely : Sql.Reliance postgres} {c : Setting} {d : Database}
  {writes : List Database.Write} {s : Statement}

/-- A statement that may fail, from what it has done where it succeeds. -/
theorem ensures_checked {result : s.Answer → Except Fault α}
    {post : α → Setting → Database → List Database.Write → Prop}
    (succeeds : ∀ d', rely.Stable writes d d' → rely.allowed s c (postgres.applyAll writes d') →
      ∀ a, result (Database.execute s c (postgres.applyAll writes d')).1 = .ok a →
        ∀ d'', rely.Stable (writes ++ (Database.execute s c (postgres.applyAll writes d')).2) d' d'' →
          post a (Database.rebind s c) d''
            (writes ++ (Database.execute s c (postgres.applyAll writes d')).2)) :
    (Sql.Program.execute s fun answer => checked (result answer) : Transaction α).Ensures rely post
      c d writes := by
  intro d' stable allowed
  have succeeded := succeeds d' stable allowed
  change (checked (result (Database.execute s c (postgres.applyAll writes d')).1)).Ensures _ _ _ _ _
  cases outcome : result (Database.execute s c (postgres.applyAll writes d')).1 with
  | error fault => trivial
  | ok a => exact succeeded a outcome

end Plimsoll.Transaction
