import Mathlib.Data.List.Basic
import Mathlib.Data.List.DropRight

/-!
`base64.urlsafe_b64encode` and `base64.urlsafe_b64decode`.

The decoder skips characters outside the alphabet, and stops at a padding that
completes a group of four.
-/

namespace Python.Base64

/-- The URL-safe alphabet. -/
def alphabet : List Char :=
  "ABCDEFGHIJKLMNOPQRSTUVWXYZabcdefghijklmnopqrstuvwxyz0123456789-_".toList

/-- The character of a number below 64. -/
def digit (v : Nat) : Char := alphabet.getD v 'A'

/-- The number a character stands for; the standard alphabet is read as well. -/
def value (c : Char) : Option Nat :=
  if 'A' ≤ c ∧ c ≤ 'Z' then some (c.toNat - 65)
  else if 'a' ≤ c ∧ c ≤ 'z' then some (c.toNat - 71)
  else if '0' ≤ c ∧ c ≤ '9' then some (c.toNat + 4)
  else if c = '-' ∨ c = '+' then some 62
  else if c = '_' ∨ c = '/' then some 63
  else none

/-- The characters of some bytes, without padding. -/
def unpadded : List UInt8 → List Char
  | [] => []
  | [a] => [digit (a.toNat / 4), digit (a.toNat % 4 * 16)]
  | [a, b] =>
      [digit (a.toNat / 4), digit (a.toNat % 4 * 16 + b.toNat / 16), digit (b.toNat % 16 * 4)]
  | a :: b :: c :: rest =>
      digit (a.toNat / 4) :: digit (a.toNat % 4 * 16 + b.toNat / 16) ::
        digit (b.toNat % 16 * 4 + c.toNat / 64) :: digit (c.toNat % 64) :: unpadded rest

/-- The padding of a number of characters to whole groups of four. -/
def padding (length : Nat) : List Char := List.replicate ((4 - length % 4) % 4) '='

/-- `urlsafe_b64encode`. -/
def encode (data : List UInt8) : List Char := unpadded data ++ padding (unpadded data).length

/-- The bytes of the characters behind `place` of a group whose bits so far that are
not in a byte yet are `left`; `none` is the `binascii.Error`. -/
def decodeFrom (place left pads : Nat) : List Char → Option (List UInt8)
  | [] => if place = 0 then some [] else none
  | c :: rest =>
      if c = '=' then
        if 2 ≤ place ∧ 4 ≤ place + (pads + 1) then some []
        else decodeFrom place left (if 2 ≤ place then pads + 1 else pads) rest
      else
        match value c with
        | none => decodeFrom place left pads rest
        | some v =>
            match place with
            | 0 => decodeFrom 1 v 0 rest
            | 1 => (decodeFrom 2 (v % 16) 0 rest).map (UInt8.ofNat (left * 4 + v / 16) :: ·)
            | 2 => (decodeFrom 3 (v % 4) 0 rest).map (UInt8.ofNat (left * 16 + v / 4) :: ·)
            | _ => (decodeFrom 0 0 0 rest).map (UInt8.ofNat (left * 64 + v) :: ·)

/-- `urlsafe_b64decode`; `none` is the `ValueError` of a character that is not ASCII, and
the `binascii.Error`. -/
def decode (text : List Char) : Option (List UInt8) :=
  if text.all fun c => c.toNat < 128 then decodeFrom 0 0 0 text else none

/-! ## Round trip -/

/-- A digit is an ASCII character that stands for its number, and is no padding. -/
theorem digit_spec : ∀ v < 64, value (digit v) = some v ∧ digit v ≠ '=' ∧ (digit v).toNat < 128 := by
  decide +kernel

theorem digits_unpadded (data : List UInt8) : ∀ c ∈ unpadded data, ∃ v < 64, c = digit v := by
  induction data using unpadded.induct with
  | case1 => exact fun c member => (nomatch member)
  | case2 a =>
      have small := a.toNat_lt
      intro c member
      simp only [unpadded, List.mem_cons, List.not_mem_nil, or_false] at member
      rcases member with rfl | rfl
      · exact ⟨_, by omega, rfl⟩
      · exact ⟨_, by omega, rfl⟩
  | case3 a b =>
      have small := a.toNat_lt
      have small' := b.toNat_lt
      intro c member
      simp only [unpadded, List.mem_cons, List.not_mem_nil, or_false] at member
      rcases member with rfl | rfl | rfl
      · exact ⟨_, by omega, rfl⟩
      · exact ⟨_, by omega, rfl⟩
      · exact ⟨_, by omega, rfl⟩
  | case4 a b c rest ih =>
      have small := a.toNat_lt
      have small' := b.toNat_lt
      have small'' := c.toNat_lt
      intro d member
      simp only [unpadded, List.mem_cons] at member
      rcases member with rfl | rfl | rfl | rfl | later
      · exact ⟨_, by omega, rfl⟩
      · exact ⟨_, by omega, rfl⟩
      · exact ⟨_, by omega, rfl⟩
      · exact ⟨_, by omega, rfl⟩
      · exact ih d later

variable {left pads v : Nat} {rest : List Char}

/-- A digit adds its six bits to the bits that are left. -/
theorem decodeFrom_digit (small : v < 64) (place : Nat) :
    decodeFrom place left pads (digit v :: rest) =
      match place with
      | 0 => decodeFrom 1 v 0 rest
      | 1 => (decodeFrom 2 (v % 16) 0 rest).map (UInt8.ofNat (left * 4 + v / 16) :: ·)
      | 2 => (decodeFrom 3 (v % 4) 0 rest).map (UInt8.ofNat (left * 16 + v / 4) :: ·)
      | _ => (decodeFrom 0 0 0 rest).map (UInt8.ofNat (left * 64 + v) :: ·) := by
  obtain ⟨stands, noPad, -⟩ := digit_spec v small
  rw [decodeFrom, if_neg noPad, stands]

theorem decodeFrom_first (small : v < 64) :
    decodeFrom 0 left pads (digit v :: rest) = decodeFrom 1 v 0 rest :=
  decodeFrom_digit small 0

/-- A digit completes the byte that the one before it has begun. -/
theorem decodeFrom_second (small : v < 64) {a : UInt8} (byte : left * 4 + v / 16 = a.toNat) :
    decodeFrom 1 left pads (digit v :: rest) = (decodeFrom 2 (v % 16) 0 rest).map (a :: ·) := by
  rw [decodeFrom_digit small, byte, UInt8.ofNat_toNat]
  rfl

theorem decodeFrom_third (small : v < 64) {a : UInt8} (byte : left * 16 + v / 4 = a.toNat) :
    decodeFrom 2 left pads (digit v :: rest) = (decodeFrom 3 (v % 4) 0 rest).map (a :: ·) := by
  rw [decodeFrom_digit small, byte, UInt8.ofNat_toNat]
  rfl

theorem decodeFrom_fourth (small : v < 64) {a : UInt8} (byte : left * 64 + v = a.toNat) :
    decodeFrom 3 left pads (digit v :: rest) = (decodeFrom 0 0 0 rest).map (a :: ·) := by
  rw [decodeFrom_digit small, byte, UInt8.ofNat_toNat]
  rfl

/-- A group of three bytes does not change how the rest is padded. -/
theorem encode_group (a b c : UInt8) (rest : List UInt8) :
    encode (a :: b :: c :: rest) =
      digit (a.toNat / 4) :: digit (a.toNat % 4 * 16 + b.toNat / 16) ::
        digit (b.toNat % 16 * 4 + c.toNat / 64) :: digit (c.toNat % 64) :: encode rest := by
  have groups : (unpadded (a :: b :: c :: rest)).length % 4 = (unpadded rest).length % 4 := by
    simp only [unpadded, List.length_cons]
    omega
  rw [encode, padding, groups]
  rfl

theorem decodeFrom_encode (data : List UInt8) : decodeFrom 0 0 0 (encode data) = some data := by
  induction data using unpadded.induct with
  | case1 => rfl
  | case2 a =>
      have small := a.toNat_lt
      change decodeFrom 0 0 0 (digit _ :: digit _ :: '=' :: '=' :: []) = _
      rw [decodeFrom_first (by omega), decodeFrom_second (a := a) (by omega) (by omega)]
      rfl
  | case3 a b =>
      have small := a.toNat_lt
      have small' := b.toNat_lt
      change decodeFrom 0 0 0 (digit _ :: digit _ :: digit _ :: '=' :: []) = _
      rw [decodeFrom_first (by omega), decodeFrom_second (a := a) (by omega) (by omega),
        decodeFrom_third (a := b) (by omega) (by omega)]
      rfl
  | case4 a b c rest ih =>
      have small := a.toNat_lt
      have small' := b.toNat_lt
      have small'' := c.toNat_lt
      rw [encode_group, decodeFrom_first (by omega),
        decodeFrom_second (a := a) (by omega) (by omega),
        decodeFrom_third (a := b) (by omega) (by omega),
        decodeFrom_fourth (a := c) (by omega) (by omega), ih]
      rfl

/-- What was encoded is decoded. -/
theorem decode_encode (data : List UInt8) : decode (encode data) = some data := by
  rw [decode, if_pos ?_, decodeFrom_encode]
  rw [List.all_eq_true]
  intro c member
  rw [decide_eq_true_eq]
  rcases List.mem_append.mp member with body | pad
  · obtain ⟨v, small, rfl⟩ := digits_unpadded data c body
    exact (digit_spec v small).2.2
  · rw [List.eq_of_mem_replicate pad]
    decide

/-- `text.rstrip("=")` takes the padding off. -/
theorem rdropWhile_encode (data : List UInt8) :
    (encode data).rdropWhile (· == '=') = unpadded data := by
  rw [encode, padding]
  generalize (4 - (unpadded data).length % 4) % 4 = n
  induction n with
  | zero =>
      rw [List.replicate_zero, List.append_nil, List.rdropWhile_eq_self_iff]
      intro nonempty
      obtain ⟨v, small, same⟩ := digits_unpadded data _ (List.getLast_mem nonempty)
      rw [same]
      simpa using (digit_spec v small).2.1
  | succ n ih =>
      rw [List.replicate_succ', ← List.append_assoc, List.rdropWhile_concat_pos _ _ _ (by rfl), ih]

end Python.Base64
