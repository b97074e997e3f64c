import Plimsoll.Python.Base64
import Plimsoll.Python.JsonRoundTrip

/-!
Opaque cursors: a JSON object in URL-safe base64 without its padding.
-/

namespace Plimsoll.Contracts

open Python

/-- `Page`. -/
structure Page (τ : Type) where
  items : List τ
  nextCursor : Option String := none
deriving DecidableEq

/-- An object of `json`. -/
abbrev Payload := List (String × Json.Value)

variable (interp : Interpreter)

/-- `encode_cursor`. -/
def encodeCursor (payload : Payload) : Except Json.Failure String :=
  match Json.dumps interp (.dict payload) with
  | .error failure => .error failure
  | .ok text => .ok (String.ofList ((Base64.encode (Json.asciiBytes text)).rdropWhile (· == '=')))

/-- `decode_cursor`. -/
def decodeCursor (cursor : String) : Except Json.Failure Payload :=
  match Base64.decode (cursor.toList ++ Base64.padding cursor.toList.length) with
  | none => .error .valueError
  | some raw =>
      match Json.loads interp raw with
      | .error failure => .error failure
      | .ok (.dict decoded) => .ok decoded
      | .ok _ => .error .valueError

/-! ## Round trip -/

variable {interp}

/-- A character that a URL takes as it is. -/
def IsUrlSafe (c : Char) : Prop := c.isAlphanum = true ∨ c = '-' ∨ c = '_'

instance (c : Char) : Decidable (IsUrlSafe c) := inferInstanceAs (Decidable (_ ∨ _))

theorem isUrlSafe_digit : ∀ v < 64, IsUrlSafe (Base64.digit v) := by decide +kernel

/-- A cursor has no padding, and nothing that a URL would have to escape. -/
theorem isUrlSafe_encodeCursor {payload : Payload} {cursor : String}
    (encoded : encodeCursor interp payload = .ok cursor) : ∀ c ∈ cursor.toList, IsUrlSafe c := by
  rw [encodeCursor] at encoded
  split at encoded
  · cases encoded
  · cases encoded
    rw [String.toList_ofList, Base64.rdropWhile_encode]
    intro c member
    obtain ⟨v, small, rfl⟩ := Base64.digits_unpadded _ c member
    exact isUrlSafe_digit v small

/-- Every object that is encoded is decoded. -/
theorem decodeCursor_encodeCursor {payload : Payload} {cursor : String}
    (wellFormed : (Json.Value.dict payload).WellFormed interp)
    (encoded : encodeCursor interp payload = .ok cursor) :
    decodeCursor interp cursor =
      .ok (sortedBy (fun a b => a.1 ≤ b.1) (Json.orderedItems payload)) := by
  rw [encodeCursor] at encoded
  split at encoded
  · cases encoded
  · rename_i text dumped
    cases encoded
    have padded (data : List UInt8) :
        Base64.unpadded data ++ Base64.padding (Base64.unpadded data).length = Base64.encode data := rfl
    rw [decodeCursor, String.toList_ofList, Base64.rdropWhile_encode, padded, Base64.decode_encode]
    dsimp only
    rw [Json.loads_dumps wellFormed dumped, Json.Value.ordered]

theorem encodeCursor_ok_iff {payload : Payload} :
    (∃ cursor, encodeCursor interp payload = .ok cursor) ↔
      (Json.Value.dict payload).depth ≤ interp.recursionLimit ∧ ¬ Json.HasLong (.dict payload) := by
  rw [← Json.dumps_ok_iff, encodeCursor]
  cases Json.dumps interp (.dict payload) with
  | error failure => simp
  | ok text => simp

end Plimsoll.Contracts
