import Plimsoll.Python.Text

/-!
The error contract: every refusal a service raises is a `PlimsollError` with
one of the frozen codes. Below the services other exceptions travel; `Raised`
has one constructor for each class that some `except` clause tells apart.
-/

namespace Plimsoll

/-- `plimsoll_contracts.errors.ErrorCode`. -/
inductive ErrorCode where
  | validationFailed
  | unauthenticated
  | permissionDenied
  | notFound
  | methodNotAllowed
  | conflict
  | resourceInUse
  | idempotencyKeyReused
  | testNotRunnable
  | targetNotAllowed
  | insufficientCapacity
  | repoUnreachable
  | rateLimited
  | internal
deriving DecidableEq, Repr

/-- A value under a key of an error's `details`, or of the `metadata` of an audit row. -/
inductive Detail where
  | text (value : String)
  | texts (values : List String)
  | number (value : Int)
  | flag (value : Bool)
  | null
deriving DecidableEq, Repr

/-- `plimsoll_api.errors.PlimsollError`. -/
structure PlimsollError where
  code : ErrorCode
  message : String
  details : List (String × Detail) := []
deriving DecidableEq, Repr

/-- An exception on its way up, with what `str` shows of it. The last nine are
never shown; a `policyError` is a row that row-level security refuses, a `dataError`
a value that the database or its driver refuses. -/
inductive Raised where
  | gitError (message : String)
  | osError (message : String)
  | planParseError (message : String)
  | yamlError (message : String)
  | manifestError (message : String)
  | refreshRejected (message : String)
  | authenticationFailed (message : String)
  | plimsollError (error : PlimsollError)
  | valueError
  | typeError
  | keyError
  | attributeError
  | recursionError
  | integrityError
  | policyError
  | secretError
  | dataError
deriving DecidableEq, Repr

variable {α β : Type}

theorem ok_bind {ε : Type} (a : α) (second : α → Except ε β) :
    (Except.ok a >>= second) = second a := rfl

/-- Two computations in a row return when the first does and the second does
with what it returned. -/
theorem exists_ok_bind_iff {first : Except Raised α} {second : α → Except Raised β} :
    (∃ b, first >>= second = .ok b) ↔ ∃ a, first = .ok a ∧ ∃ b, second a = .ok b := by
  cases first with
  | error exc =>
      refine ⟨fun returned => ?_, fun returned => ?_⟩
      · obtain ⟨b, returned⟩ := returned
        cases returned
      · obtain ⟨a, impossible, -⟩ := returned
        cases impossible
  | ok a =>
      refine ⟨fun returned => ⟨a, rfl, returned⟩, fun returned => ?_⟩
      obtain ⟨_, ⟨⟩, returned⟩ := returned
      exact returned

/-- What has returned has gone through both computations. -/
theorem of_bind_eq_ok {ε : Type} {first : Except ε α} {second : α → Except ε β} {b : β}
    (returned : first >>= second = .ok b) : ∃ a, first = .ok a ∧ second a = .ok b := by
  cases first with
  | error exc => cases returned
  | ok a => exact ⟨a, rfl, returned⟩

theorem toOption_eq_some_iff {ε : Type} {result : Except ε α} {a : α} :
    result.toOption = some a ↔ result = .ok a := by
  cases result with
  | error exc => exact ⟨fun impossible => (nomatch impossible), fun impossible => (nomatch impossible)⟩
  | ok b => simp [Except.toOption]

end Plimsoll
