import Plimsoll.Python.Json

/-!
`uuid.UUID(hex)`.
-/

namespace Python.Uuid

open Json (hexDigit)

variable (ucd : Unicode)

/-! ## Hexadecimal numbers -/

/-- The value of a digit; digits of other scripts count. -/
def digit (c : Char) : Option Nat := (ucd.decimal c).orElse fun _ => hexDigit c

/-- Read digits, most significant first, after `value`. A single underscore may stand
between two of them. -/
def readHex (value : Nat) (behindDigit : Bool) : List Char → Option Nat
  | [] => if behindDigit then some value else none
  | c :: rest =>
      if c = '_' then if behindDigit then readHex value false rest else none
      else
        match digit ucd c with
        | none => none
        | some d => readHex (value * 16 + d) true rest

/-- The digits behind a prefix `0x`. -/
def withoutPrefix (text : List Char) : List Char :=
  if text.take 2 = ['0', 'x'] ∨ text.take 2 = ['0', 'X'] then
    if text[2]? = some '_' then text.drop 3 else text.drop 2
  else text

/-- `int(text, 16)` of a text without a minus sign. -/
def int16 (text : List Char) : Option Nat :=
  let text := stripChars text
  readHex ucd 0 false (withoutPrefix (if text.head? = some '+' then text.drop 1 else text))

/-! ## The constructor -/

/-- `text.replace(part, "")`, in as many steps as the text has characters. -/
def removeFrom (part : List Char) : Nat → List Char → List Char
  | 0, text => text
  | _ + 1, [] => []
  | fuel + 1, c :: rest =>
      if part.isPrefixOf (c :: rest) then removeFrom part fuel ((c :: rest).drop part.length)
      else c :: removeFrom part fuel rest

/-- `text.replace(part, "")`. -/
def remove (part : String) (text : List Char) : List Char :=
  removeFrom part.toList text.length text

/-- `uuid.UUID(hex)`; `none` is the `ValueError`. -/
def parse (hex : List Char) : Option (BitVec 128) :=
  let isBrace (c : Char) : Bool := c = '\x7b' ∨ c = '\x7d'
  let hex := remove "uuid:" (remove "urn:" hex)
  let hex := ((hex.dropWhile isBrace).rdropWhile isBrace).filter (· ≠ '-')
  if hex.length ≠ 32 then none
  else
    (int16 ucd hex).bind fun n => if n < 2 ^ 128 then some (BitVec.ofNat 128 n) else none

/-! ## Round trip -/

variable {ucd}

theorem digit_of_hex {c : Char} (ascii : c.toNat < 128) (notDecimal : c.isDigit = false) :
    digit ucd c = hexDigit c := by
  have none_ : ucd.decimal c = none := by
    rw [← Option.not_isSome_iff_eq_none]
    intro some_
    have digit := ucd.isDigit_of_decimal c some_
    rw [ucd.isDigit_ascii c ascii, notDecimal] at digit
    cases digit
  rw [digit, none_]
  rfl

theorem digitChar_table : ∀ d < 16, (Nat.digitChar d).toNat < 128 ∧ Nat.digitChar d ≠ '_' ∧
    hexDigit (Nat.digitChar d) = some d ∧
      ((Nat.digitChar d).isDigit = true → (Nat.digitChar d).toNat - '0'.toNat = d) := by
  decide +kernel

theorem digit_digitChar {d : Nat} (small : d < 16) : digit ucd (Nat.digitChar d) = some d := by
  obtain ⟨ascii, -, hex, decimal⟩ := digitChar_table d small
  cases kind : (Nat.digitChar d).isDigit with
  | false => rw [digit_of_hex ascii kind, hex]
  | true =>
      rw [digit, ucd.decimal_ascii _ kind, decimal kind]
      rfl

theorem readHex_digitChar {value d : Nat} {behind : Bool} {rest : List Char} (small : d < 16) :
    readHex ucd value behind (Nat.digitChar d :: rest) = readHex ucd (value * 16 + d) true rest := by
  rw [readHex, if_neg (digitChar_table d small).2.1, digit_digitChar small]

theorem readHex_toDigits {n : Nat} {behind : Bool} {rest : List Char} :
    readHex ucd 0 behind (Nat.toDigits 16 n ++ rest) = readHex ucd n true rest := by
  induction n using Nat.strongRecOn generalizing behind rest with
  | ind n ih =>
      rw [Nat.toDigits_eq_if (by decide)]
      by_cases small : n < 16
      · rw [if_pos small, List.singleton_append, readHex_digitChar small, Nat.zero_mul, Nat.zero_add]
      · rw [if_neg small, List.append_assoc, ih (n / 16) (by omega), List.singleton_append,
          readHex_digitChar (Nat.mod_lt n (by decide)), Nat.div_add_mod']

theorem readHex_zeros {k n : Nat} {behind : Bool} :
    readHex ucd 0 behind (List.replicate k '0' ++ Nat.toDigits 16 n) = some n := by
  induction k generalizing behind with
  | zero =>
      have read : readHex ucd 0 behind (Nat.toDigits 16 n ++ []) = readHex ucd n true [] :=
        readHex_toDigits
      rw [List.append_nil] at read
      rw [List.replicate_zero, List.nil_append, read]
      rfl
  | succ k ih =>
      rw [List.replicate_succ, List.cons_append]
      exact (readHex_digitChar (d := 0) (by decide)).trans ih

/-! ### The text of an identifier -/

/-- `'%032x' % n`. -/
def hexText (n : Nat) : List Char :=
  let digits := Nat.toDigits 16 n
  List.replicate (32 - digits.length) '0' ++ digits

/-- The digits in groups of 8, 4, 4, 4 and 12. -/
def dashed (digits : List Char) : List Char :=
  ['-'].intercalate [digits.take 8, (digits.drop 8).take 4, (digits.drop 12).take 4,
    (digits.drop 16).take 4, (digits.drop 20).take 12]

theorem mem_toDigits {n : Nat} : ∀ c ∈ Nat.toDigits 16 n, ∃ d < 16, c = Nat.digitChar d := by
  induction n using Nat.strongRecOn with
  | ind n ih =>
      intro c member
      rw [Nat.toDigits_eq_if (by decide)] at member
      split at member
      · exact ⟨n, by assumption, List.mem_singleton.mp member⟩
      · rcases List.mem_append.mp member with front | last
        · exact ih (n / 16) (by omega) c front
        · exact ⟨n % 16, Nat.mod_lt n (by decide), List.mem_singleton.mp last⟩

theorem mem_hexText {n : Nat} : ∀ c ∈ hexText n, ∃ d < 16, c = Nat.digitChar d := by
  intro c member
  rcases List.mem_append.mp member with zeros | digits
  · exact ⟨0, by decide, List.eq_of_mem_replicate zeros⟩
  · exact mem_toDigits c digits

theorem length_hexText {n : Nat} (small : n < 2 ^ 128) : (hexText n).length = 32 := by
  have short : (Nat.toDigits 16 n).length ≤ 32 :=
    (Nat.length_toDigits_le_iff (by decide) (by decide)).mpr (small.trans_le (by decide))
  rw [hexText, List.length_append, List.length_replicate]
  omega

theorem mem_dashed {digits : List Char} : ∀ c ∈ dashed digits, c = '-' ∨ c ∈ digits := by
  intro c member
  rcases mem_intercalate_singleton member with dash | ⟨part, inParts, inside⟩
  · exact Or.inl dash
  · refine Or.inr ?_
    simp only [List.mem_cons, List.not_mem_nil, or_false] at inParts
    rcases inParts with rfl | rfl | rfl | rfl | rfl
    · exact List.mem_of_mem_take inside
    · exact List.mem_of_mem_drop (List.mem_of_mem_take inside)
    · exact List.mem_of_mem_drop (List.mem_of_mem_take inside)
    · exact List.mem_of_mem_drop (List.mem_of_mem_take inside)
    · exact List.mem_of_mem_drop (List.mem_of_mem_take inside)

/-- Without its dashes a text has the digits again. -/
theorem filter_dashed {digits : List Char} (length : digits.length = 32) (clean : '-' ∉ digits) :
    (dashed digits).filter (· ≠ '-') = digits := by
  have kept : ∀ part : List Char, (∀ c ∈ part, c ∈ digits) → part.filter (· ≠ '-') = part := by
    intro part inside
    refine List.filter_eq_self.mpr fun c member => decide_eq_true ?_
    rintro rfl
    exact clean (inside _ member)
  have group : ∀ start size, ((digits.drop start).take size).filter (· ≠ '-') =
      (digits.drop start).take size := fun start size => kept _ fun c member =>
    List.mem_of_mem_drop (List.mem_of_mem_take member)
  have first : (digits.take 8).filter (· ≠ '-') = digits.take 8 := group 0 8
  have joined : ∀ start size, (digits.drop start).take size ++ digits.drop (start + size) =
      digits.drop start := by
    intro start size
    rw [← List.drop_drop, List.take_append_drop]
  have last : (digits.drop 20).take 12 = digits.drop 20 :=
    List.take_of_length_le (by rw [List.length_drop]; omega)
  have dash : ∀ part : List Char, ('-' :: part).filter (· ≠ '-') = part.filter (· ≠ '-') :=
    fun part => rfl
  simp only [dashed, intercalate_cons, List.flatMap_cons, List.flatMap_nil, List.append_nil,
    List.filter_append, dash, group, first]
  rw [last, joined 16 4, joined 12 4, joined 8 4, List.take_append_drop]

/-- Where the first character of `part` does not occur, nothing is replaced. -/
theorem removeFrom_eq_self {first : Char} {part text : List Char} {fuel : Nat}
    (absent : first ∉ text) : removeFrom (first :: part) fuel text = text := by
  induction text generalizing fuel with
  | nil => cases fuel <;> rfl
  | cons c rest ih =>
      cases fuel with
      | zero => rfl
      | succ fuel =>
          obtain ⟨differ, later⟩ := List.ne_and_not_mem_of_not_mem_cons absent
          have here : (first :: part).isPrefixOf (c :: rest) = false := by
            rw [List.isPrefixOf, beq_false_of_ne differ, Bool.false_and]
          rw [removeFrom, here, if_neg Bool.false_ne_true, ih later]

theorem remove_eq_self {part : String} {text : List Char}
    (absent : ∀ c ∈ part.toList.head?, c ∉ text) (some_ : part.toList ≠ []) :
    remove part text = text := by
  rw [remove]
  cases characters : part.toList with
  | nil => exact absurd characters some_
  | cons first rest =>
      rw [characters] at absent
      exact removeFrom_eq_self (absent first rfl)

theorem digitChar_ne {c : Char} (other : ∀ d < 16, Nat.digitChar d ≠ c) {n : Nat} :
    c ∉ hexText n := by
  intro member
  obtain ⟨d, small, same⟩ := mem_hexText c member
  exact other d small same.symm

theorem int16_hexText {n : Nat} : int16 ucd (hexText n) = some n := by
  have clean : stripChars (hexText n) = hexText n := by
    have visible : ∀ c ∈ hexText n, isSpace c = false := by
      have table : ∀ d < 16, isSpace (Nat.digitChar d) = false := by decide
      intro c member
      obtain ⟨d, small, rfl⟩ := mem_hexText c member
      exact table d small
    exact stripChars_eq_self (fun c first => visible c (List.mem_of_mem_head? first))
      fun c last => visible c (List.mem_of_getLast? last)
  have unsigned : ¬ (hexText n).head? = some '+' := fun same =>
    digitChar_ne (by decide) (List.mem_of_mem_head? same)
  have bare : withoutPrefix (hexText n) = hexText n := by
    refine if_neg ?_
    rintro (same | same)
    · exact digitChar_ne (c := 'x') (by decide)
        (List.mem_of_mem_take (i := 2) (by rw [same]; decide))
    · exact digitChar_ne (c := 'X') (by decide)
        (List.mem_of_mem_take (i := 2) (by rw [same]; decide))
  rw [int16, clean, if_neg unsigned, bare]
  exact readHex_zeros

/-- An identifier's text is read back. -/
theorem parse_dashed (id : BitVec 128) : parse ucd (dashed (hexText id.toNat)) = some id := by
  have absent : ∀ {c : Char}, c ≠ '-' → (∀ d < 16, Nat.digitChar d ≠ c) →
      c ∉ dashed (hexText id.toNat) := by
    intro c notDash other member
    rcases mem_dashed c member with dash | digit
    · exact notDash dash
    · exact digitChar_ne other digit
  have urn : remove "urn:" (dashed (hexText id.toNat)) = dashed (hexText id.toNat) :=
    remove_eq_self (fun c first => by cases first; exact absent (by decide) (by decide))
      (by decide)
  have uuid : remove "uuid:" (dashed (hexText id.toNat)) = dashed (hexText id.toNat) :=
    remove_eq_self (fun c first => by cases first; exact absent (by decide) (by decide))
      (by decide)
  have noBrace : ∀ c ∈ dashed (hexText id.toNat), decide (c = '\x7b' ∨ c = '\x7d') = false := by
    intro c member
    refine decide_eq_false ?_
    rintro (rfl | rfl)
    · exact absent (by decide) (by decide) member
    · exact absent (by decide) (by decide) member
  have left : (dashed (hexText id.toNat)).dropWhile (fun c => decide (c = '\x7b' ∨ c = '\x7d')) =
      dashed (hexText id.toNat) := by
    refine List.dropWhile_eq_self_iff.mpr fun nonempty brace => ?_
    rw [noBrace _ (List.getElem_mem nonempty)] at brace
    cases brace
  have right : (dashed (hexText id.toNat)).rdropWhile
      (fun c => decide (c = '\x7b' ∨ c = '\x7d')) = dashed (hexText id.toNat) := by
    refine List.rdropWhile_eq_self_iff.mpr fun nonempty brace => ?_
    rw [noBrace _ (List.getLast_mem nonempty)] at brace
    cases brace
  have small := id.isLt
  have digits := filter_dashed (length_hexText small) (digitChar_ne (by decide))
  rw [parse, urn, uuid, left, right, digits, if_neg (not_not.mpr (length_hexText small)),
    int16_hexText, Option.bind_some, if_pos small, BitVec.ofNat_toNat, BitVec.setWidth_eq]

end Python.Uuid
