import Mathlib.Data.List.TakeDrop
import Plimsoll.Python.Uuid

/-!
What `json.dumps` writes, `json.loads` reads back: the values are the same, and
the keys of each object have come into order.
-/

namespace Python.Json

open Uuid (digitChar_table)

/-! ## Strings -/

variable {rest : List Char}

/-- Four hexadecimal digits. -/
theorem toList_hex {n : Nat} (small : n < 0x10000) :
    (Unicode.hex 4 n).toList = [Nat.digitChar (n / 0x1000), Nat.digitChar (n / 0x100 % 16),
      Nat.digitChar (n / 0x10 % 16), Nat.digitChar (n % 16)] := by
  have digits : (Unicode.hex 4 n).toList =
      List.replicate (4 - (Nat.toDigits 16 n).length) '0' ++ Nat.toDigits 16 n := by
    rw [Unicode.hex, String.toList_append, String.toList_ofList, String.toList_ofList,
      ← String.length_toList, String.toList_ofList]
  have zero (m k : Nat) (none_ : m / k = 0) : Nat.digitChar (m / k % 16) = '0' := by rw [none_]; rfl
  rw [digits]
  by_cases one : n < 16
  · rw [Nat.toDigits_of_lt_base one, zero n 0x100 (by omega), zero n 0x10 (by omega),
      show n / 0x1000 = 0 by omega, Nat.mod_eq_of_lt one]
    rfl
  · rw [Nat.toDigits_of_base_le (by decide) (by omega)]
    by_cases two : n < 0x100
    · rw [Nat.toDigits_of_lt_base (by omega), zero n 0x100 (by omega), show n / 0x1000 = 0 by omega,
        show n / 0x10 % 16 = n / 16 by omega]
      rfl
    · rw [Nat.toDigits_of_base_le (by decide) (by omega)]
      by_cases three : n < 0x1000
      · rw [Nat.toDigits_of_lt_base (by omega), show n / 0x1000 = 0 by omega,
          show n / 0x100 % 16 = n / 16 / 16 by omega]
        rfl
      · rw [Nat.toDigits_of_base_le (by decide) (by omega), Nat.toDigits_of_lt_base (by omega),
          show n / 0x1000 = n / 16 / 16 / 16 by omega, show n / 0x100 % 16 = n / 16 / 16 % 16 by omega]
        rfl

theorem readHex_hex {n : Nat} (small : n < 0x10000) :
    readHex ((Unicode.hex 4 n).toList ++ rest) = some (n, rest) := by
  have digit (d : Nat) (fits : d < 16) : hexDigit (Nat.digitChar d) = some d :=
    (digitChar_table d fits).2.2.1
  rw [toList_hex small]
  simp only [List.cons_append, List.nil_append, readHex, digit (n / 0x1000) (by omega),
    digit (n / 0x100 % 16) (by omega), digit (n / 0x10 % 16) (by omega), digit (n % 16) (by omega),
    Option.bind_eq_bind, Option.bind_some]
  congr 2
  omega

/-- Where code points that are characters are. -/
theorem toNat_valid (c : Char) : c.toNat < 0xd800 ∨ 0xdfff < c.toNat ∧ c.toNat < 0x110000 := c.valid

theorem readLow_unicodeEscape {low : Nat} (isLow : 0xdc00 ≤ low ∧ low < 0xe000) :
    readLow (unicodeEscape low ++ rest) = some (low, rest) := by
  have small : low < 0x10000 := isLow.2.trans (by decide)
  have kept : (decide (0xdc00 ≤ low ∧ low < 0xe000)) = true := decide_eq_true isLow
  rw [unicodeEscape, List.cons_append, List.cons_append, readLow, readHex_hex small,
    Option.filter_some, if_pos kept]

/-- A letter `u` and the digits of a number. -/
theorem readEscape_hex {n : Nat} (small : n < 0x10000) :
    readEscape ('u' :: (Unicode.hex 4 n).toList ++ rest) =
      if 0xd800 ≤ n ∧ n < 0xdc00 then
        match readLow rest with
        | some (low, rest) =>
            some (Char.ofNat (0x10000 + (n - 0xd800) * 0x400 + (low - 0xdc00)), rest)
        | none => some (Char.ofNat 0xfffd, rest)
      else if 0xdc00 ≤ n ∧ n < 0xe000 then some (Char.ofNat 0xfffd, rest)
      else some (Char.ofNat n, rest) := by
  rw [List.cons_append, readEscape, if_neg (by decide), if_neg (by decide), if_neg (by decide),
    if_neg (by decide), if_neg (by decide), if_neg (by decide), if_pos rfl, readHex_hex small]
  rfl

/-- What is written for a character that does not stand for itself, behind the
backslash. -/
theorem readEscape_unicode {c : Char} :
    ∃ tail, (if c.toNat < 0x10000 then unicodeEscape c.toNat
        else unicodeEscape (0xd800 + (c.toNat - 0x10000) / 0x400) ++
          unicodeEscape (0xdc00 + (c.toNat - 0x10000) % 0x400)) = '\\' :: tail ∧
      readEscape (tail ++ rest) = some (c, rest) := by
  have valid := toNat_valid c
  by_cases single : c.toNat < 0x10000
  · refine ⟨'u' :: (Unicode.hex 4 c.toNat).toList, by rw [if_pos single]; rfl, ?_⟩
    have notHigh : ¬ (0xd800 ≤ c.toNat ∧ c.toNat < 0xdc00) := by omega
    have notLow : ¬ (0xdc00 ≤ c.toNat ∧ c.toNat < 0xe000) := by omega
    rw [readEscape_hex single, if_neg notHigh, if_neg notLow, Char.ofNat_toNat]
  · -- two surrogates
    generalize high : 0xd800 + (c.toNat - 0x10000) / 0x400 = h
    generalize low : 0xdc00 + (c.toNat - 0x10000) % 0x400 = l
    have isHigh : 0xd800 ≤ h ∧ h < 0xdc00 := by omega
    have isLow : 0xdc00 ≤ l ∧ l < 0xe000 := by omega
    have whole : 0x10000 + (h - 0xd800) * 0x400 + (l - 0xdc00) = c.toNat := by omega
    refine ⟨'u' :: (Unicode.hex 4 h).toList ++ unicodeEscape l, by rw [if_neg single]; rfl, ?_⟩
    rw [List.append_assoc, readEscape_hex (isHigh.2.trans (by decide)), if_pos isHigh,
      readLow_unicodeEscape isLow]
    dsimp only
    rw [whole, Char.ofNat_toNat]

/-- A character of a string, as it is written, is read. -/
theorem readString_escape {c : Char} {fuel : Nat} :
    readString (fuel + 1) (escape c ++ rest) =
      (readString fuel rest).map fun read => (c :: read.1, read.2) := by
  have escaped (tail : List Char) (read : readEscape (tail ++ rest) = some (c, rest)) :
      readString (fuel + 1) ('\\' :: tail ++ rest) =
        (readString fuel rest).map fun read => (c :: read.1, read.2) := by
    rw [List.cons_append, readString, if_neg (by decide), if_neg (by decide), if_pos rfl, read]
    simp only [Option.bind_eq_bind, Option.bind_some]
    cases readString fuel rest <;> rfl
  unfold escape
  split
  · rename_i delimiter
    refine escaped [c] ?_
    rw [List.singleton_append, readEscape, if_pos (by tauto)]
  split
  · rename_i same
    exact escaped ['n'] (by rw [same]; rfl)
  split
  · rename_i same
    exact escaped ['r'] (by rw [same]; rfl)
  split
  · rename_i same
    exact escaped ['t'] (by rw [same]; rfl)
  split
  · rename_i same
    exact escaped ['b'] (by rw [← Char.ofNat_toNat c, same]; rfl)
  split
  · rename_i same
    exact escaped ['f'] (by rw [← Char.ofNat_toNat c, same]; rfl)
  split
  · rename_i delimiter _ _ _ _ _ plain
    obtain ⟨notQuote, notBackslash⟩ := not_or.mp delimiter
    rw [List.singleton_append, readString, if_neg notQuote, if_neg (by omega), if_neg notBackslash]
    simp only [Option.bind_eq_bind]
    cases readString fuel rest <;> rfl
  · obtain ⟨tail, shape, read⟩ := @readEscape_unicode rest c
    rw [shape]
    exact escaped tail read

/-- A string is read up to its closing quote. -/
theorem readString_flatMap_escape {text : List Char} {fuel : Nat} (enough : text.length < fuel) :
    readString fuel (text.flatMap escape ++ '"' :: rest) = some (text, rest) := by
  induction text generalizing fuel with
  | nil =>
      obtain ⟨fuel, rfl⟩ := Nat.exists_eq_add_of_lt enough
      rfl
  | cons c text ih =>
      cases fuel with
      | zero => cases enough
      | succ fuel =>
          rw [List.flatMap_cons, List.append_assoc, readString_escape,
            ih (Nat.lt_of_succ_lt_succ enough)]
          rfl

/-! ## Numbers -/

/-- What can follow a value inside an array or an object, or at the end. -/
def Ends (rest : List Char) : Prop := ∀ c ∈ rest.head?, c = ',' ∨ c = ']' ∨ c = '\x7d'

/-- Digits without a zero in front. -/
def IsWhole (digits : List Char) : Prop :=
  digits ≠ [] ∧ (∀ c ∈ digits, c.isDigit = true) ∧ (digits.head? = some '0' → digits = ['0'])

def IsSign (sign : List Char) : Prop := sign = [] ∨ sign = ['-']

/-- A point and digits, or nothing. -/
def IsFraction (fraction : List Char) : Prop :=
  fraction = [] ∨ ∃ digits, fraction = '.' :: digits ∧ digits ≠ [] ∧ ∀ c ∈ digits, c.isDigit = true

/-- A letter `e`, a sign or none, and digits, or nothing. -/
def IsExponent (exponent : List Char) : Prop :=
  exponent = [] ∨ ∃ sign digits, exponent = 'e' :: (sign ++ digits) ∧
    (sign = [] ∨ sign = ['+'] ∨ sign = ['-']) ∧ digits ≠ [] ∧ ∀ c ∈ digits, c.isDigit = true

/-- The `repr` of a finite `float`. -/
structure IsFloat (interp : Interpreter) (shown : String) : Prop where
  spelled : ∃ sign digits fraction exponent, shown.toList = sign ++ (digits ++ (fraction ++ exponent)) ∧
    IsSign sign ∧ IsWhole digits ∧ IsFraction fraction ∧ IsExponent exponent ∧
      ¬ (fraction = [] ∧ exponent = [])
  float : interp.float shown = shown

theorem isDigit_false_of_ends (ends : Ends rest) : ∀ c ∈ rest.head?, c.isDigit = false := by
  intro c first
  rcases ends c first with rfl | rfl | rfl <;> rfl

theorem span_append {p : Char → Bool} {front back : List Char} (all : ∀ c ∈ front, p c = true)
    (stops : ∀ c ∈ back.head?, p c = false) : (front ++ back).span p = (front, back) := by
  have behind : back.takeWhile p = [] ∧ back.dropWhile p = back := by
    cases back with
    | nil => exact ⟨rfl, rfl⟩
    | cons c back =>
        have stop := stops c rfl
        exact ⟨List.takeWhile_cons_of_neg (by simp [stop]), List.dropWhile_cons_of_neg (by simp [stop])⟩
  rw [List.span_eq_takeWhile_dropWhile, List.takeWhile_append_of_pos all,
    List.dropWhile_append_of_pos all, behind.1, behind.2, List.append_nil]

/-- There is no fraction where no mark is. -/
theorem readFraction_absent {isMark : Char → Bool} (absent : ∀ c ∈ rest.head?, isMark c = false) :
    readFraction isMark rest = ([], rest) := by
  cases rest with
  | nil => rfl
  | cons mark rest =>
      rw [readFraction]
      simp only [absent mark rfl, Bool.false_eq_true, false_and, if_false]

/-- A mark, a sign where one may stand, and digits. -/
theorem readFraction_digits {isMark : Char → Bool} {mark : Char} {sign digits : List Char}
    (marks : isMark mark = true)
    (signed : sign = [] ∨ mark ≠ '.' ∧ (sign = ['+'] ∨ sign = ['-'])) (some_ : digits ≠ [])
    (all : ∀ c ∈ digits, c.isDigit = true) (stops : ∀ c ∈ rest.head?, c.isDigit = false) :
    readFraction isMark (mark :: (sign ++ digits) ++ rest) = (mark :: (sign ++ digits), rest) := by
  have found : (if mark = '.' then [] else
      ((sign ++ digits) ++ rest).take 1 |>.filter fun c => c = '+' ∨ c = '-') = sign := by
    rcases signed with rfl | ⟨notPoint, rfl | rfl⟩
    · obtain ⟨d, ds, rfl⟩ := List.exists_cons_of_ne_nil some_
      have digit := all d List.mem_cons_self
      have noSign : ¬ (d = '+' ∨ d = '-') := by
        rintro (rfl | rfl) <;> cases digit
      split
      · rfl
      · change List.filter _ [d] = []
        rw [List.filter_cons_of_neg (by simpa using noSign), List.filter_nil]
    · rw [if_neg notPoint]
      rfl
    · rw [if_neg notPoint]
      rfl
  rw [List.cons_append, readFraction]
  simp only [found]
  rw [List.append_assoc, List.drop_left' rfl, span_append all stops]
  simp only [marks, some_, ne_eq, not_false_eq_true, and_self, if_true, List.cons_append]

/-- A number up to its fraction. -/
theorem readNumber_whole {interp : Interpreter} {sign digits tail : List Char} (signed : IsSign sign)
    (whole : IsWhole digits) (stops : ∀ c ∈ tail.head?, c.isDigit = false) :
    readNumber interp (sign ++ (digits ++ tail)) =
      let (fraction, rest) := readFraction (· = '.') tail
      let (exponent, rest) := readFraction (fun c => c = 'e' ∨ c = 'E') rest
      if fraction = [] ∧ exponent = [] then
        if Unicode.maxStrDigits < digits.length then none
        else
          (interp.ucd.readDecimal 0 digits).map fun n =>
            (.int (if sign = [] then n else -n), rest)
      else some (.float (interp.float (String.ofList (sign ++ digits ++ fraction ++ exponent))), rest) := by
  obtain ⟨some_, all, noZero⟩ := whole
  obtain ⟨d, ds, rfl⟩ := List.exists_cons_of_ne_nil some_
  have digit := all d List.mem_cons_self
  have signSpan : (sign ++ (d :: ds ++ tail)).span (· = '-') = (sign, d :: ds ++ tail) := by
    refine span_append ?_ ?_
    · rcases signed with rfl | rfl <;> simp
    · rintro c ⟨⟩
      refine decide_eq_false ?_
      rintro rfl
      cases digit
  have digitSpan : (if (d :: ds ++ tail).head? = some '0' then (['0'], (d :: ds ++ tail).drop 1)
      else (d :: ds ++ tail).span Char.isDigit) = (d :: ds, tail) := by
    split
    · rename_i zero
      have single := noZero zero
      rw [single]
      rfl
    · exact span_append all stops
  have short : ¬ (1 < sign.length ∨ d :: ds = []) := by
    rcases signed with rfl | rfl <;> simp
  rw [readNumber, signSpan]
  simp only [digitSpan, if_neg short]

theorem isDigit_toDigits {n : Nat} : ∀ c ∈ Nat.toDigits 10 n, c.isDigit = true :=
  fun _ member => Nat.isDigit_of_mem_toDigits (by decide) (by decide) member

theorem readDecimal_toDigits {ucd : Unicode} {n : Nat} :
    ∀ rest, ucd.readDecimal 0 (Nat.toDigits 10 n ++ rest) = ucd.readDecimal n rest := by
  induction n using Nat.strongRecOn with
  | ind n ih =>
      intro rest
      have one (value d : Nat) (small : d < 10) (rest : List Char) :
          ucd.readDecimal value (Nat.digitChar d :: rest) = ucd.readDecimal (10 * value + d) rest := by
        obtain ⟨-, -, -, digit⟩ := digitChar_table d (by omega)
        have table : ∀ d < 10, (Nat.digitChar d).isDigit = true := by decide
        have isDigit := table d small
        rw [Unicode.readDecimal, ucd.decimal_ascii _ isDigit, digit isDigit]
      rw [Nat.toDigits_eq_if (by decide)]
      by_cases small : n < 10
      · rw [if_pos small, List.singleton_append, one 0 n small, Nat.mul_zero, Nat.zero_add]
      · rw [if_neg small, List.append_assoc, ih (n / 10) (by omega), List.singleton_append,
          one _ _ (Nat.mod_lt n (by decide))]
        congr 1
        omega

/-- Only zero has a zero in front. -/
theorem isWhole_toDigits (n : Nat) : IsWhole (Nat.toDigits 10 n) := by
  refine ⟨Nat.toDigits_ne_nil, isDigit_toDigits, ?_⟩
  induction n using Nat.strongRecOn with
  | ind n ih =>
      intro zero
      rw [Nat.toDigits_eq_if (by decide)] at zero ⊢
      by_cases small : n < 10
      · rw [if_pos small] at zero ⊢
        exact congrArg (fun c => [c]) (Option.some.inj zero)
      · rw [if_neg small] at zero
        rw [List.head?_append_of_ne_nil _ Nat.toDigits_ne_nil] at zero
        have tens := ih (n / 10) (by omega) zero
        have value := @readDecimal_toDigits Unicode.basic (n / 10) []
        rw [List.append_nil, tens] at value
        have zero_ : 0 = n / 10 := by
          have read : Unicode.basic.readDecimal 0 ['0'] = some 0 := by decide
          rw [read] at value
          exact Option.some.inj value
        omega

variable {interp : Interpreter}

theorem not_isPrefixOf {c d : Char} {cs ds : List Char} (differ : c ≠ d) :
    (c :: cs).isPrefixOf (d :: ds) = false := by
  rw [List.isPrefixOf, beq_false_of_ne differ, Bool.false_and]

/-- No literal is a number. -/
theorem readScalar_number {sign digits tail : List Char} (signed : IsSign sign)
    (whole : IsWhole digits) :
    readScalar interp (sign ++ (digits ++ tail)) =
      match readNumber interp (sign ++ (digits ++ tail)) with
      | some read => .ok read
      | none => .error .valueError := by
  obtain ⟨d, ds, rfl⟩ := List.exists_cons_of_ne_nil whole.1
  have digit := whole.2.1 d List.mem_cons_self
  have differ (c : Char) (other : c.isDigit = false) : c ≠ d := by
    rintro rfl
    rw [digit] at other
    cases other
  have none_ : literals.find? (fun literal =>
      literal.1.toList.isPrefixOf (sign ++ (d :: ds ++ tail))) = none := by
    rw [List.find?_eq_none]
    intro literal member
    rw [Bool.not_eq_true]
    simp only [literals, List.mem_cons, List.not_mem_nil, or_false] at member
    rcases signed with rfl | rfl
    · rcases member with rfl | rfl | rfl | rfl | rfl | rfl
      · exact not_isPrefixOf (differ 'n' rfl)
      · exact not_isPrefixOf (differ 't' rfl)
      · exact not_isPrefixOf (differ 'f' rfl)
      · exact not_isPrefixOf (differ 'N' rfl)
      · exact not_isPrefixOf (differ 'I' rfl)
      · exact not_isPrefixOf (differ '-' rfl)
    · rcases member with rfl | rfl | rfl | rfl | rfl | rfl
      · exact not_isPrefixOf (by decide)
      · exact not_isPrefixOf (by decide)
      · exact not_isPrefixOf (by decide)
      · exact not_isPrefixOf (by decide)
      · exact not_isPrefixOf (by decide)
      · change ('-' == '-' && List.isPrefixOf ('I' :: "nfinity".toList) (d :: (ds ++ tail))) = false
        rw [not_isPrefixOf (differ 'I' rfl), Bool.and_false]
  rw [readScalar]
  generalize literals.find? _ = found at none_ ⊢
  subst none_
  rfl

theorem isPoint_of_ends (ends : Ends rest) : ∀ c ∈ rest.head?, decide (c = '.') = false := by
  intro c first
  rcases ends c first with rfl | rfl | rfl <;> rfl

theorem isE_of_ends (ends : Ends rest) : ∀ c ∈ rest.head?, decide (c = 'e' ∨ c = 'E') = false := by
  intro c first
  rcases ends c first with rfl | rfl | rfl <;> rfl

/-- A whole number is read. -/
theorem readScalar_int {sign : List Char} {n : Nat} (signed : IsSign sign)
    (short : n < 10 ^ Unicode.maxStrDigits) (ends : Ends rest) :
    readScalar interp (sign ++ (Nat.toDigits 10 n ++ rest)) =
      .ok (.int (if sign = [] then n else -n), rest) := by
  have length : ¬ Unicode.maxStrDigits < (Nat.toDigits 10 n).length := by
    rw [not_lt, Nat.length_toDigits_le_iff (by decide) (by decide)]
    exact short
  have value : interp.ucd.readDecimal 0 (Nat.toDigits 10 n) = some n := by
    have read := @readDecimal_toDigits interp.ucd n []
    rwa [List.append_nil] at read
  rw [readScalar_number signed (isWhole_toDigits n),
    readNumber_whole signed (isWhole_toDigits n) (isDigit_false_of_ends ends)]
  simp only [readFraction_absent (isPoint_of_ends ends), readFraction_absent (isE_of_ends ends),
    and_self, if_true, if_neg length, value]
  rfl

theorem readFraction_fraction {fraction tail : List Char} (isFraction : IsFraction fraction)
    (stops : ∀ c ∈ tail.head?, c = 'e' ∨ c = ',' ∨ c = ']' ∨ c = '\x7d') :
    readFraction (· = '.') (fraction ++ tail) = (fraction, tail) := by
  rcases isFraction with rfl | ⟨digits, rfl, some_, all⟩
  · refine readFraction_absent fun c first => ?_
    rcases stops c first with rfl | rfl | rfl | rfl <;> rfl
  · refine readFraction_digits (decide_eq_true rfl) (Or.inl rfl) some_ all fun c first => ?_
    rcases stops c first with rfl | rfl | rfl | rfl <;> rfl

theorem readFraction_exponent {exponent : List Char} (isExponent : IsExponent exponent)
    (ends : Ends rest) :
    readFraction (fun c => c = 'e' ∨ c = 'E') (exponent ++ rest) = (exponent, rest) := by
  rcases isExponent with rfl | ⟨sign, digits, rfl, signed, some_, all⟩
  · exact readFraction_absent (isE_of_ends ends)
  · refine readFraction_digits (decide_eq_true (Or.inl rfl)) ?_ some_ all (isDigit_false_of_ends ends)
    exact signed.imp_right fun signed => ⟨by decide, signed⟩

/-- A `float` is read. -/
theorem readScalar_float {shown : String} (isFloat : IsFloat interp shown) (ends : Ends rest) :
    readScalar interp (shown.toList ++ rest) = .ok (.float shown, rest) := by
  obtain ⟨⟨sign, digits, fraction, exponent, shape, signed, whole, isFraction, isExponent, some_⟩,
    kept⟩ := isFloat
  have behindFraction : ∀ c ∈ (exponent ++ rest).head?, c = 'e' ∨ c = ',' ∨ c = ']' ∨ c = '\x7d' := by
    intro c first
    rcases isExponent with rfl | ⟨_, _, rfl, -⟩
    · exact Or.inr (ends c first)
    · exact Or.inl (Option.some.inj first).symm
  have behindDigits : ∀ c ∈ (fraction ++ (exponent ++ rest)).head?, c.isDigit = false := by
    intro c first
    rcases isFraction with rfl | ⟨_, rfl, -⟩
    · rcases behindFraction c first with rfl | rfl | rfl | rfl <;> rfl
    · cases first
      rfl
  have joined : String.ofList (sign ++ digits ++ fraction ++ exponent) = shown := by
    rw [List.append_assoc, List.append_assoc, ← String.toList_inj, String.toList_ofList, shape]
  rw [shape, List.append_assoc, List.append_assoc, List.append_assoc, readScalar_number signed whole,
    readNumber_whole signed whole behindDigits]
  simp only [readFraction_fraction isFraction behindFraction, readFraction_exponent isExponent ends,
    if_neg some_, joined, kept]

/-! ## Values -/

mutual

/-- Objects have each key once, and a `float` is finite. -/
def Value.WellFormed (interp : Interpreter) : Value → Prop
  | .float shown => IsFloat interp shown
  | .list items => WellFormedAll interp items
  | .dict items => (items.map Prod.fst).Nodup ∧ WellFormedItems interp items
  | _ => True

def WellFormedAll (interp : Interpreter) : List Value → Prop
  | [] => True
  | value :: rest => value.WellFormed interp ∧ WellFormedAll interp rest

def WellFormedItems (interp : Interpreter) : List (String × Value) → Prop
  | [] => True
  | (_, value) :: rest => value.WellFormed interp ∧ WellFormedItems interp rest

end

mutual

/-- The value with the keys of each object in order. -/
def Value.ordered : Value → Value
  | .list items => .list (orderedAll items)
  | .dict items => .dict (sortedBy (fun a b => a.1 ≤ b.1) (orderedItems items))
  | value => value

def orderedAll : List Value → List Value
  | [] => []
  | value :: rest => value.ordered :: orderedAll rest

def orderedItems : List (String × Value) → List (String × Value)
  | [] => []
  | (key, value) :: rest => (key, value.ordered) :: orderedItems rest

end

theorem wellFormedAll_iff {items : List Value} :
    WellFormedAll interp items ↔ ∀ value ∈ items, value.WellFormed interp := by
  induction items with
  | nil => simp [WellFormedAll]
  | cons value rest ih => rw [WellFormedAll, ih, List.forall_mem_cons]

theorem wellFormedItems_iff {items : List (String × Value)} :
    WellFormedItems interp items ↔ ∀ item ∈ items, item.2.WellFormed interp := by
  induction items with
  | nil => simp [WellFormedItems]
  | cons item rest ih =>
      obtain ⟨key, value⟩ := item
      rw [WellFormedItems, ih, List.forall_mem_cons]

theorem orderedAll_eq (items : List Value) : orderedAll items = items.map Value.ordered := by
  induction items with
  | nil => rfl
  | cons value rest ih => rw [orderedAll, ih, List.map_cons]

theorem orderedItems_eq (items : List (String × Value)) :
    orderedItems items = items.map fun item => (item.1, item.2.ordered) := by
  induction items with
  | nil => rfl
  | cons item rest ih =>
      obtain ⟨key, value⟩ := item
      rw [orderedItems, ih, List.map_cons]

theorem depth_le_depthAll {items : List Value} : ∀ value ∈ items, value.depth ≤ depthAll items := by
  induction items with
  | nil => exact fun _ member => (nomatch member)
  | cons first rest ih =>
      rw [depthAll]
      exact List.forall_mem_cons.mpr ⟨le_max_left _ _, fun value member =>
        (ih value member).trans (le_max_right _ _)⟩

theorem depth_le_depthItems {items : List (String × Value)} :
    ∀ item ∈ items, item.2.depth ≤ depthItems items := by
  induction items with
  | nil => exact fun _ member => (nomatch member)
  | cons first rest ih =>
      obtain ⟨key, value⟩ := first
      rw [depthItems]
      exact List.forall_mem_cons.mpr ⟨le_max_left _ _, fun value member =>
        (ih value member).trans (le_max_right _ _)⟩

theorem textAll_eq_some {items : List Value} {parts : List (List Char)}
    (texts : textAll items = some parts) :
    List.Forall₂ (fun value part => value.text = some part) items parts := by
  induction items generalizing parts with
  | nil =>
      cases texts
      exact .nil
  | cons value rest ih =>
      rw [textAll] at texts
      obtain ⟨part, first, texts⟩ := Option.bind_eq_some_iff.mp texts
      obtain ⟨others, later, rfl⟩ := Option.map_eq_some_iff.mp texts
      exact .cons first (ih later)

theorem textItems_eq_some {items : List (String × Value)} {parts : List (String × List Char)}
    (texts : textItems items = some parts) :
    List.Forall₂ (fun item part => item.1 = part.1 ∧ item.2.text = some part.2) items parts := by
  induction items generalizing parts with
  | nil =>
      cases texts
      exact .nil
  | cons item rest ih =>
      obtain ⟨key, value⟩ := item
      rw [textItems] at texts
      obtain ⟨part, first, texts⟩ := Option.bind_eq_some_iff.mp texts
      obtain ⟨others, later, rfl⟩ := Option.map_eq_some_iff.mp texts
      exact .cons ⟨rfl, first⟩ (ih later)

/-- Sorting by a key keeps what is related by a relation on items of equal keys. -/
theorem forall₂_sortedBy {α β : Type} {related : α → β → Prop} {key : α → String}
    {key' : β → String} (same : ∀ a b, related a b → key a = key' b) {xs : List α} {ys : List β}
    (all : List.Forall₂ related xs ys) :
    List.Forall₂ related (sortedBy (fun a b => key a ≤ key b) xs)
      (sortedBy (fun a b => key' a ≤ key' b) ys) := by
  have inserted {a : α} {b : β} (pair : related a b) {xs : List α} {ys : List β}
      (all : List.Forall₂ related xs ys) :
      List.Forall₂ related (xs.orderedInsert (fun a b => decide (key a ≤ key b) = true) a)
        (ys.orderedInsert (fun a b => decide (key' a ≤ key' b) = true) b) := by
    induction all with
    | nil => exact .cons pair .nil
    | @cons x y xs ys first later ih =>
        rw [List.orderedInsert_cons, List.orderedInsert_cons, same a b pair, same x y first]
        split
        · exact .cons pair (.cons first later)
        · exact .cons first ih
  unfold sortedBy
  induction all with
  | nil => exact .nil
  | cons first later ih =>
      rw [List.insertionSort_cons, List.insertionSort_cons]
      exact inserted first ih

/-- What the text of a value starts with. -/
def isStart (c : Char) : Bool := c.isDigit || c ∈ ['n', 't', 'f', '"', '[', '\x7b', '-']

theorem isStart_ne {c d : Char} (start : isStart c = true) (other : isStart d = false) : c ≠ d := by
  rintro rfl
  rw [start] at other
  cases other

theorem isStart_of_number {sign digits tail : List Char} (signed : IsSign sign)
    (whole : IsWhole digits) :
    ∃ c cs, sign ++ (digits ++ tail) = c :: cs ∧ isStart c = true := by
  obtain ⟨d, ds, rfl⟩ := List.exists_cons_of_ne_nil whole.1
  rcases signed with rfl | rfl
  · exact ⟨d, ds ++ tail, rfl, by rw [isStart, whole.2.1 d List.mem_cons_self, Bool.true_or]⟩
  · exact ⟨'-', d :: ds ++ tail, rfl, rfl⟩

/-- The text of a whole number. -/
theorem reprInt_eq_some {n : Int} {text : String} (shown : Python.Value.reprInt n = some text) :
    ∃ sign, IsSign sign ∧ text.toList = sign ++ Nat.toDigits 10 n.natAbs ∧
      n.natAbs < 10 ^ Unicode.maxStrDigits ∧
        (if sign = [] then (n.natAbs : Int) else -(n.natAbs : Int)) = n := by
  rw [Python.Value.reprInt] at shown
  split at shown
  · cases shown
  · rename_i short
    obtain rfl := Option.some.inj shown
    have bound := Nat.lt_of_not_le short
    generalize 10 ^ Unicode.maxStrDigits = limit at bound ⊢
    cases n with
    | ofNat m =>
        refine ⟨[], Or.inl rfl, ?_, bound, rfl⟩
        change m.repr.toList = Nat.toDigits 10 m
        exact Nat.toList_repr
    | negSucc m =>
        refine ⟨['-'], Or.inr rfl, ?_, bound, rfl⟩
        change ("-" ++ (m + 1).repr).toList = _
        rw [String.toList_append, Nat.toList_repr]
        rfl

/-- The names of what is no number are not those of a `float`. -/
theorem IsFloat.floatText {shown : String} (isFloat : IsFloat interp shown) :
    floatText shown = shown := by
  obtain ⟨sign, digits, fraction, exponent, shape, signed, whole, -⟩ := isFloat.spelled
  obtain ⟨d, ds, rfl⟩ := List.exists_cons_of_ne_nil whole.1
  have digit := whole.2.1 d List.mem_cons_self
  have differ (name : String)
      (second : (name.toList.dropWhile (· = '-')).head?.all (fun c => !c.isDigit) = true) :
      shown ≠ name := by
    rintro rfl
    have notSign : ¬ decide (d = '-') = true := by
      rw [decide_eq_true_eq]
      rintro rfl
      cases digit
    have behind : shown.toList.dropWhile (· = '-') = d :: ds ++ (fraction ++ exponent) := by
      rw [shape]
      rcases signed with rfl | rfl
      · exact List.dropWhile_cons_of_neg notSign
      · rw [List.singleton_append, List.dropWhile_cons_of_pos (by decide)]
        exact List.dropWhile_cons_of_neg notSign
    rw [behind, List.cons_append, List.head?_cons, Option.all_some, digit] at second
    cases second
  rw [Json.floatText, if_neg (differ "nan" (by decide)), if_neg (differ "inf" (by decide)),
    if_neg (differ "-inf" (by decide))]

/-- Where the text of a value begins. -/
theorem Value.text_start {value : Value} {part : List Char} (text : value.text = some part)
    (wellFormed : value.WellFormed interp) : ∃ c cs, part = c :: cs ∧ isStart c = true := by
  cases value with
  | null =>
      cases text
      exact ⟨_, _, rfl, rfl⟩
  | bool b =>
      cases text
      cases b
      · exact ⟨_, _, rfl, rfl⟩
      · exact ⟨_, _, rfl, rfl⟩
  | int n =>
      rw [Value.text] at text
      obtain ⟨shown, repr, rfl⟩ := Option.map_eq_some_iff.mp text
      obtain ⟨sign, signed, shape, -, -⟩ := reprInt_eq_some repr
      rw [shape, ← List.append_nil (Nat.toDigits 10 _)]
      exact isStart_of_number signed (isWhole_toDigits _)
  | float shown =>
      obtain ⟨sign, digits, fraction, exponent, shape, signed, whole, -⟩ := wellFormed.spelled
      cases text
      rw [wellFormed.floatText, shape]
      exact isStart_of_number signed whole
  | str s =>
      cases text
      exact ⟨_, _, rfl, rfl⟩
  | list items =>
      obtain ⟨parts, -, rfl⟩ := Option.map_eq_some_iff.mp text
      exact ⟨_, _, rfl, rfl⟩
  | dict items =>
      obtain ⟨parts, -, rfl⟩ := Option.map_eq_some_iff.mp text
      exact ⟨_, _, rfl, rfl⟩

theorem skip_cons {c : Char} {cs : List Char} (start : isStart c = true ∨ c ∈ [',', ':', ']', '\x7d']) :
    skip (c :: cs) = c :: cs := by
  refine List.dropWhile_cons_of_neg ?_
  rw [decide_eq_true_eq]
  rintro (rfl | rfl | rfl | rfl) <;> revert start <;> decide

/-- The text of this value is read as the value, whatever stands behind it. -/
def ReadsBack (interp : Interpreter) (value : Value) : Prop :=
  ∀ part, value.text = some part → ∀ fuel deeper rest, part.length ≤ fuel → value.depth ≤ deeper →
    Ends rest → readValue interp fuel deeper (part ++ rest) = .ok (value.ordered, rest)

/-- A value that is read by `readScalar`. -/
theorem readsBack_scalar {value : Value} {part : List Char} {fuel deeper : Nat}
    (enough : part.length ≤ fuel) (start : ∃ c cs, part = c :: cs ∧ c ≠ '"' ∧ c ≠ '\x7b' ∧ c ≠ '[')
    (read : readScalar interp (part ++ rest) = .ok (value, rest)) :
    readValue interp fuel deeper (part ++ rest) = .ok (value, rest) := by
  obtain ⟨c, cs, rfl, notQuote, notBrace, notBracket⟩ := start
  cases fuel with
  | zero => cases enough
  | succ fuel =>
      rw [List.cons_append, readValue, if_neg notQuote, if_neg notBrace, if_neg notBracket]
      exact read

theorem ends_comma : Ends (',' :: rest) := fun _ head => Or.inl (Option.some.inj head).symm

theorem ends_bracket : Ends (']' :: rest) := fun _ head => Or.inr (Or.inl (Option.some.inj head).symm)

theorem ends_brace : Ends ('\x7d' :: rest) := fun _ head => Or.inr (Or.inr (Option.some.inj head).symm)

/-- The last element of an array is read. -/
theorem readElements_last {value : Value} {part : List Char} {fuel deeper : Nat} {read : List Value}
    (text : value.text = some part) (reads : ReadsBack interp value) (enough : part.length ≤ fuel)
    (shallow : value.depth ≤ deeper) :
    readElements interp (fuel + 1) deeper read (part ++ ']' :: rest) =
      .ok (.list (read ++ [value.ordered]), rest) := by
  rw [readElements, reads part text fuel deeper _ enough shallow ends_bracket]
  dsimp only
  rw [skip_cons (by decide), List.head?_cons, if_pos rfl]
  rfl

/-- An element before another one. -/
theorem readElements_comma {value : Value} {part : List Char} {fuel deeper : Nat} {read : List Value}
    (text : value.text = some part) (reads : ReadsBack interp value) (enough : part.length ≤ fuel)
    (shallow : value.depth ≤ deeper) :
    readElements interp (fuel + 1) deeper read (part ++ ',' :: rest) =
      readElements interp fuel deeper (read ++ [value.ordered]) (skip rest) := by
  rw [readElements, reads part text fuel deeper _ enough shallow ends_comma]
  dsimp only
  rw [skip_cons (by decide), List.head?_cons, if_neg (by decide), if_pos rfl]
  rfl

/-- The elements of an array are read. -/
theorem readElements_texts {items : List Value} {parts : List (List Char)} (some_ : items ≠ [])
    (texts : List.Forall₂ (fun value part => value.text = some part) items parts)
    (wellFormed : ∀ value ∈ items, value.WellFormed interp)
    (reads : ∀ value ∈ items, ReadsBack interp value) :
    ∀ fuel deeper read, ([','].intercalate parts).length < fuel →
      (∀ value ∈ items, value.depth ≤ deeper) →
        readElements interp fuel deeper read ([','].intercalate parts ++ ']' :: rest) =
          .ok (.list (read ++ items.map Value.ordered), rest) := by
  induction texts with
  | nil => exact absurd rfl some_
  | @cons value part items parts first later ih =>
      intro fuel deeper read enough shallow
      have ⟨_, wellFormedRest⟩ := List.forall_mem_cons.mp wellFormed
      have ⟨readsHere, readsRest⟩ := List.forall_mem_cons.mp reads
      have ⟨shallowHere, shallowRest⟩ := List.forall_mem_cons.mp shallow
      obtain ⟨fuel, rfl⟩ := Nat.exists_eq_succ_of_ne_zero (Nat.ne_zero_of_lt enough)
      cases later with
      | nil =>
          have single : [','].intercalate [part] = part := by simp
          rw [single] at enough ⊢
          exact readElements_last first readsHere (Nat.le_of_lt_succ enough) shallowHere
      | @cons next nextPart items parts second later =>
          obtain ⟨c, cs, begins, start⟩ :=
            Value.text_start second (wellFormedRest next List.mem_cons_self)
          have skipped : skip ([','].intercalate (nextPart :: parts) ++ ']' :: rest) =
              [','].intercalate (nextPart :: parts) ++ ']' :: rest := by
            rw [intercalate_cons, begins]
            exact skip_cons (Or.inl start)
          rw [List.intercalate_cons_cons, List.length_append, List.length_append,
            List.length_singleton] at enough
          rw [List.intercalate_cons_cons, List.append_assoc, List.append_assoc, List.singleton_append,
            readElements_comma first readsHere (by omega) shallowHere, skipped,
            ih (List.cons_ne_nil _ _) wellFormedRest readsRest fuel deeper _ (by omega) shallowRest,
            List.append_assoc]
          rfl

theorem escape_ne_nil (c : Char) : escape c ≠ [] := by
  unfold escape
  split
  · exact List.cons_ne_nil _ _
  split
  · exact List.cons_ne_nil _ _
  split
  · exact List.cons_ne_nil _ _
  split
  · exact List.cons_ne_nil _ _
  split
  · exact List.cons_ne_nil _ _
  split
  · exact List.cons_ne_nil _ _
  split
  · exact List.cons_ne_nil _ _
  · obtain ⟨tail, shape, -⟩ := @readEscape_unicode [] c
    rw [shape]
    exact List.cons_ne_nil _ _

theorem length_le_flatMap_escape (cs : List Char) : cs.length ≤ (cs.flatMap escape).length := by
  induction cs with
  | nil => exact le_refl 0
  | cons c cs ih =>
      have one := List.length_pos_of_ne_nil (escape_ne_nil c)
      rw [List.flatMap_cons, List.length_append, List.length_cons]
      omega

/-- A string is read behind its opening quote. -/
theorem readString_quoted (cs : List Char) :
    readString ((cs.flatMap escape ++ '"' :: rest).length + 1) (cs.flatMap escape ++ '"' :: rest) =
      some (cs, rest) := by
  refine readString_flatMap_escape ?_
  have long := length_le_flatMap_escape cs
  rw [List.length_append]
  omega

theorem quote_append {text : String} :
    quote text ++ rest = '"' :: (text.toList.flatMap escape ++ '"' :: rest) := by
  rw [quote, List.cons_append, List.append_assoc, List.singleton_append]

/-- A member whose value is read, and what is done with what stands behind it. -/
theorem readMembers_member {key : String} {value : Value} {part : List Char} {fuel deeper : Nat}
    {read : List (String × Value)} (start : ∃ c cs, part = c :: cs ∧ isStart c = true)
    (text : value.text = some part) (reads : ReadsBack interp value) (enough : part.length ≤ fuel)
    (shallow : value.depth ≤ deeper) (ends : Ends rest) :
    readMembers interp (fuel + 1) deeper read (quote key ++ ':' :: (part ++ rest)) =
      if (skip rest).head? = some '\x7d' then
        .ok (.dict (assign key value.ordered read), (skip rest).drop 1)
      else if (skip rest).head? = some ',' then
        readMembers interp fuel deeper (assign key value.ordered read) (skip ((skip rest).drop 1))
      else .error .valueError := by
  obtain ⟨c, cs, begins, isStart⟩ := start
  have skipped : skip (part ++ rest) = part ++ rest := by
    rw [begins]
    exact skip_cons (Or.inl isStart)
  rw [quote_append, readMembers, if_pos rfl, readString_quoted]
  dsimp only
  rw [skip_cons (by decide), List.head?_cons, if_pos rfl, List.drop_succ_cons, List.drop_zero, skipped,
    reads part text fuel deeper _ enough shallow ends]
  dsimp only
  rw [String.ofList_toList]

/-- A new key comes last. -/
theorem assign_new {key : String} {value : Value} {items : List (String × Value)}
    (new : key ∉ items.map Prod.fst) : assign key value items = items ++ [(key, value)] := by
  rw [assign, List.filter_eq_self.mpr]
  intro item member
  refine decide_eq_true ?_
  rintro rfl
  exact new (List.mem_map_of_mem member)

/-- The text of a member. -/
def memberText (part : String × List Char) : List Char := quote part.1 ++ ':' :: part.2

/-- The members of an object are read. -/
theorem readMembers_texts {items : List (String × Value)} {parts : List (String × List Char)}
    (some_ : items ≠ [])
    (texts : List.Forall₂ (fun item part => item.1 = part.1 ∧ item.2.text = some part.2) items parts)
    (wellFormed : ∀ item ∈ items, item.2.WellFormed interp)
    (reads : ∀ item ∈ items, ReadsBack interp item.2) :
    ∀ fuel deeper read, ([','].intercalate (parts.map memberText)).length ≤ fuel →
      (∀ item ∈ items, item.2.depth ≤ deeper) → ((read ++ items).map Prod.fst).Nodup →
        readMembers interp fuel deeper read
            ([','].intercalate (parts.map memberText) ++ '\x7d' :: rest) =
          .ok (.dict (read ++ items.map fun item => (item.1, item.2.ordered)), rest) := by
  induction texts with
  | nil => exact absurd rfl some_
  | @cons item part items parts first later ih =>
      intro fuel deeper read enough shallow distinct
      obtain ⟨key, value⟩ := item
      obtain ⟨key', part⟩ := part
      obtain ⟨rfl, text⟩ := first
      have text : value.text = some part := text
      have ⟨wellFormedHere, wellFormedRest⟩ := List.forall_mem_cons.mp wellFormed
      have ⟨readsHere, readsRest⟩ := List.forall_mem_cons.mp reads
      have ⟨shallowHere, shallowRest⟩ := List.forall_mem_cons.mp shallow
      have start := Value.text_start text wellFormedHere
      have new : key ∉ read.map Prod.fst := by
        rw [List.map_append, List.nodup_append] at distinct
        exact fun member => distinct.2.2 key member key List.mem_cons_self rfl
      have long : 0 < (quote key).length := Nat.zero_lt_succ _
      cases later with
      | nil =>
          have single : [','].intercalate ([(key, part)].map memberText) = quote key ++ ':' :: part := by
            simp [memberText]
          rw [single, List.length_append, List.length_cons] at enough
          obtain ⟨fuel, rfl⟩ : ∃ less, fuel = less + 1 := ⟨fuel - 1, by omega⟩
          rw [single, List.append_assoc, List.cons_append,
            readMembers_member start text readsHere (by omega) shallowHere ends_brace,
            skip_cons (by decide), List.head?_cons, if_pos rfl, assign_new new]
          rfl
      | @cons next nextPart items parts second later =>
          have two : [','].intercalate (((key, part) :: nextPart :: parts).map memberText) =
              quote key ++ ':' :: (part ++ ',' :: [','].intercalate ((nextPart :: parts).map memberText)) := by
            rw [List.map_cons, List.map_cons, List.intercalate_cons_cons, ← List.map_cons, memberText]
            simp
          have skipped : skip ([','].intercalate ((nextPart :: parts).map memberText) ++ '\x7d' :: rest) =
              [','].intercalate ((nextPart :: parts).map memberText) ++ '\x7d' :: rest := by
            rw [List.map_cons, intercalate_cons]
            exact skip_cons (Or.inl rfl)
          have moved : read ++ (key, value) :: next :: items =
              (read ++ [(key, value)]) ++ next :: items := by simp
          have distinct' : ((read ++ [(key, value.ordered)] ++ next :: items).map Prod.fst).Nodup := by
            rw [moved] at distinct
            simpa only [List.map_append, List.map_cons, List.map_nil] using distinct
          rw [two, List.length_append, List.length_cons, List.length_append, List.length_cons] at enough
          obtain ⟨fuel, rfl⟩ : ∃ less, fuel = less + 1 := ⟨fuel - 1, by omega⟩
          rw [two, List.append_assoc, List.cons_append, List.append_assoc, List.cons_append,
            readMembers_member start text readsHere (by omega) shallowHere ends_comma,
            skip_cons (by decide), List.head?_cons, if_neg (by decide), if_pos rfl, List.drop_succ_cons,
            List.drop_zero, skipped, assign_new new,
            ih (List.cons_ne_nil _ _) wellFormedRest readsRest fuel deeper _ (by omega) shallowRest
              distinct', List.append_assoc]
          rfl

theorem number_start {sign digits tail : List Char} (signed : IsSign sign) (whole : IsWhole digits) :
    ∃ c cs, sign ++ (digits ++ tail) = c :: cs ∧ c ≠ '"' ∧ c ≠ '\x7b' ∧ c ≠ '[' := by
  obtain ⟨d, ds, rfl⟩ := List.exists_cons_of_ne_nil whole.1
  have digit := whole.2.1 d List.mem_cons_self
  have differ (c : Char) (other : c.isDigit = false) : d ≠ c := by
    rintro rfl
    rw [digit] at other
    cases other
  rcases signed with rfl | rfl
  · exact ⟨d, _, rfl, differ _ rfl, differ _ rfl, differ _ rfl⟩
  · exact ⟨'-', _, rfl, by decide, by decide, by decide⟩

/-- The text of an array is read back when those of its elements are. -/
theorem readsBack_list {items : List Value} (wellFormed : ∀ value ∈ items, value.WellFormed interp)
    (reads : ∀ value ∈ items, ReadsBack interp value) : ReadsBack interp (.list items) := by
  intro part text fuel deeper rest enough shallow ends
  rw [Value.text] at text
  obtain ⟨parts, texts, rfl⟩ := Option.map_eq_some_iff.mp text
  rw [Value.depth] at shallow
  rw [List.length_cons, List.length_append, List.length_singleton] at enough
  obtain ⟨fuel, rfl⟩ : ∃ less, fuel = less + 1 := ⟨fuel - 1, by omega⟩
  obtain ⟨deeper, rfl⟩ : ∃ less, deeper = less + 1 := ⟨deeper - 1, by omega⟩
  have texts := textAll_eq_some texts
  rw [List.cons_append, List.append_assoc, List.singleton_append, readValue, if_neg (by decide),
    if_neg (by decide), if_pos rfl, if_neg (by omega), Value.ordered, orderedAll_eq]
  cases texts with
  | nil => rfl
  | @cons value part items parts first later =>
      obtain ⟨c, cs, begins, start⟩ := Value.text_start first (wellFormed value List.mem_cons_self)
      have skipped : skip ([','].intercalate (part :: parts) ++ ']' :: rest) =
          [','].intercalate (part :: parts) ++ ']' :: rest := by
        rw [intercalate_cons, begins]
        exact skip_cons (Or.inl start)
      have notEmpty : ¬ ([','].intercalate (part :: parts) ++ ']' :: rest).head? = some ']' := by
        rw [intercalate_cons, begins]
        exact fun same => isStart_ne start (by rfl) (Option.some.inj same)
      rw [skipped, if_neg notEmpty, Nat.add_sub_cancel,
        readElements_texts (List.cons_ne_nil _ _) (.cons first later) wellFormed reads fuel deeper []
          (by omega) fun value member => (depth_le_depthAll value member).trans (by omega)]
      rfl

/-- The text of an object is read back when those of its members are. -/
theorem readsBack_dict {items : List (String × Value)} (distinct : (items.map Prod.fst).Nodup)
    (wellFormed : ∀ item ∈ items, item.2.WellFormed interp)
    (reads : ∀ item ∈ items, ReadsBack interp item.2) : ReadsBack interp (.dict items) := by
  intro part text fuel deeper rest enough shallow ends
  rw [Value.text] at text
  obtain ⟨parts, texts, rfl⟩ := Option.map_eq_some_iff.mp text
  rw [Value.depth] at shallow
  have named : (fun part : String × List Char => quote part.1 ++ ':' :: part.2) = memberText := rfl
  dsimp only at enough ⊢
  rw [named] at enough ⊢
  have sortedTexts := forall₂_sortedBy (fun _ _ pair => pair.1) (textItems_eq_some texts)
  generalize sortedParts : sortedBy (fun a b : String × List Char => a.1 ≤ b.1) parts = members
    at enough sortedTexts ⊢
  generalize order : sortedBy (fun a b : String × Value => a.1 ≤ b.1) items = inOrder at sortedTexts
  have perm : inOrder.Perm items := by
    rw [← order, sortedBy]
    exact List.perm_insertionSort _ _
  have ordered : (Value.dict items).ordered =
      .dict (inOrder.map fun item => (item.1, item.2.ordered)) := by
    rw [Value.ordered, orderedItems_eq, ← order, sortedBy, sortedBy]
    exact congrArg Value.dict (List.map_insertionSort _ _ _ _ fun a _ b _ =>
      (Iff.rfl : decide (a.1 ≤ b.1) = true ↔ _)).symm
  rw [ordered]
  rw [List.length_cons, List.length_append, List.length_singleton] at enough
  obtain ⟨fuel, rfl⟩ : ∃ less, fuel = less + 1 := ⟨fuel - 1, by omega⟩
  obtain ⟨deeper, rfl⟩ : ∃ less, deeper = less + 1 := ⟨deeper - 1, by omega⟩
  rw [List.cons_append, List.append_assoc, List.singleton_append, readValue, if_neg (by decide),
    if_pos rfl, if_neg (by omega)]
  cases sortedTexts with
  | nil => rfl
  | @cons item part inOrder members first later =>
      have skipped : skip ([','].intercalate ((part :: members).map memberText) ++ '\x7d' :: rest) =
          [','].intercalate ((part :: members).map memberText) ++ '\x7d' :: rest := by
        rw [List.map_cons, intercalate_cons]
        exact skip_cons (Or.inl rfl)
      have notEmpty : ¬ ([','].intercalate ((part :: members).map memberText) ++ '\x7d' :: rest).head? =
          some '\x7d' := by
        rw [List.map_cons, intercalate_cons]
        exact fun same => (by decide : '"' ≠ '\x7d') (Option.some.inj same)
      have all {P : String × Value → Prop} (each : ∀ item ∈ items, P item) :
          ∀ member ∈ item :: inOrder, P member := fun member inside => each member (perm.mem_iff.mp inside)
      have shallowItems : ∀ item ∈ items, item.2.depth ≤ deeper := fun item member =>
        (depth_le_depthItems item member).trans (by omega)
      have distinctInOrder : (([] ++ item :: inOrder).map Prod.fst).Nodup :=
        (perm.map Prod.fst).nodup_iff.mpr distinct
      rw [skipped, if_neg notEmpty, Nat.add_sub_cancel,
        readMembers_texts (List.cons_ne_nil _ _) (.cons first later) (all wellFormed) (all reads)
          fuel deeper [] (by omega) (all shallowItems) distinctInOrder]
      rfl

theorem readsBack_int {n : Int} : ReadsBack interp (.int n) := by
  intro part text fuel deeper rest enough shallow ends
  rw [Value.text] at text
  obtain ⟨shown, repr, rfl⟩ := Option.map_eq_some_iff.mp text
  obtain ⟨sign, signed, shape, short, value⟩ := reprInt_eq_some repr
  refine readsBack_scalar enough ?_ ?_
  · rw [shape, ← List.append_nil (Nat.toDigits 10 _)]
    exact number_start signed (isWhole_toDigits _)
  · rw [shape, List.append_assoc, readScalar_int signed short ends, value]
    rfl

theorem readsBack_float {shown : String} (isFloat : IsFloat interp shown) :
    ReadsBack interp (.float shown) := by
  intro part text fuel deeper rest enough shallow ends
  cases text
  refine readsBack_scalar enough ?_ ?_
  · obtain ⟨sign, digits, fraction, exponent, shape, signed, whole, -⟩ := isFloat.spelled
    rw [isFloat.floatText, shape]
    exact number_start signed whole
  · rw [isFloat.floatText]
    exact readScalar_float isFloat ends

theorem readsBack_str {s : String} : ReadsBack interp (.str s) := by
  intro part text fuel deeper rest enough shallow ends
  cases text
  obtain ⟨fuel, rfl⟩ : ∃ less, fuel = less + 1 :=
    ⟨fuel - 1, by rw [quote, List.length_cons] at enough; omega⟩
  rw [quote_append, readValue, if_pos rfl, readString_quoted]
  dsimp only
  rw [String.ofList_toList]
  rfl

/-- The text of a value is read back. -/
theorem readsBack : ∀ value : Value, value.WellFormed interp → ReadsBack interp value
  | .null, _ => by
      intro part text fuel deeper rest enough shallow ends
      cases text
      exact readsBack_scalar enough ⟨_, _, rfl, by decide, by decide, by decide⟩ rfl
  | .bool b, _ => by
      intro part text fuel deeper rest enough shallow ends
      cases text
      cases b
      · exact readsBack_scalar enough ⟨_, _, rfl, by decide, by decide, by decide⟩ rfl
      · exact readsBack_scalar enough ⟨_, _, rfl, by decide, by decide, by decide⟩ rfl
  | .int _, _ => readsBack_int
  | .float _, wellFormed => readsBack_float wellFormed
  | .str _, _ => readsBack_str
  | .list items, wellFormed => by
      rw [Value.WellFormed, wellFormedAll_iff] at wellFormed
      exact readsBack_list wellFormed fun value member => readsBack value (wellFormed value member)
  | .dict items, wellFormed => by
      rw [Value.WellFormed, wellFormedItems_iff] at wellFormed
      exact readsBack_dict wellFormed.1 wellFormed.2 fun item member =>
        readsBack item.2 (wellFormed.2 item member)
termination_by value => sizeOf value
decreasing_by
  · have smaller := List.sizeOf_lt_of_mem member
    simp only [Value.list.sizeOf_spec]
    omega
  · have smaller := List.sizeOf_lt_of_mem member
    obtain ⟨key, value⟩ := item
    simp only [Value.dict.sizeOf_spec, Prod.mk.sizeOf_spec] at smaller ⊢
    omega

/-! ## Equal values -/

/-- Values that are equal: the order of an object's keys does not count. -/
inductive Same : Value → Value → Prop
  | refl (value : Value) : Same value value
  | list {items others : List Value} (each : List.Forall₂ Same items others) :
      Same (.list items) (.list others)
  | dict {items others result : List (String × Value)}
      (keys : items.map Prod.fst = others.map Prod.fst)
      (values : List.Forall₂ Same (items.map Prod.snd) (others.map Prod.snd))
      (order : others.Perm result) : Same (.dict items) (.dict result)

theorem same_ordered : ∀ value : Value, Same value value.ordered
  | .null => .refl _
  | .bool _ => .refl _
  | .int _ => .refl _
  | .float _ => .refl _
  | .str _ => .refl _
  | .list items => by
      rw [Value.ordered, orderedAll_eq]
      refine .list ?_
      rw [List.forall₂_map_right_iff, List.forall₂_same]
      exact fun value member => same_ordered value
  | .dict items => by
      rw [Value.ordered, orderedItems_eq]
      refine .dict ?_ ?_ (List.perm_insertionSort _ _).symm
      · rw [List.map_map]
        rfl
      · rw [List.map_map, List.forall₂_map_right_iff, List.forall₂_map_left_iff, List.forall₂_same]
        exact fun item member => same_ordered item.2
termination_by value => sizeOf value
decreasing_by
  · have smaller := List.sizeOf_lt_of_mem member
    simp only [Value.list.sizeOf_spec]
    omega
  · have smaller := List.sizeOf_lt_of_mem member
    obtain ⟨key, value⟩ := item
    simp only [Value.dict.sizeOf_spec, Prod.mk.sizeOf_spec] at smaller ⊢
    omega

/-! ## Bytes -/

def IsAscii (c : Char) : Prop := 0 < c.toNat ∧ c.toNat < 128

instance (c : Char) : Decidable (IsAscii c) := inferInstanceAs (Decidable (_ ∧ _))

theorem isAscii_of_all {cs : List Char} (all : cs.all (fun c => decide (IsAscii c)) = true) :
    ∀ c ∈ cs, IsAscii c := fun c member => of_decide_eq_true (List.all_eq_true.mp all c member)

theorem isAscii_of_isDigit {c : Char} (digit : c.isDigit = true) : IsAscii c := by
  obtain ⟨low, high⟩ := Char.isDigit_iff_toNat.mp digit
  exact ⟨(by decide : 0 < '0'.toNat).trans_le low, high.trans_lt (by decide)⟩

theorem isAscii_unicodeEscape {n : Nat} (small : n < 0x10000) :
    ∀ c ∈ unicodeEscape n, IsAscii c := by
  have digit (d : Nat) (fits : d < 16) : IsAscii (Nat.digitChar d) := by
    revert d
    decide
  rw [unicodeEscape, toList_hex small]
  simp only [List.forall_mem_cons]
  exact ⟨by decide, by decide, digit _ (by omega), digit _ (by omega), digit _ (by omega),
    digit _ (by omega), fun _ member => (nomatch member)⟩

theorem isAscii_escape (c : Char) : ∀ d ∈ escape c, IsAscii d := by
  have two (letter : Char) (ascii : IsAscii letter) : ∀ d ∈ ['\\', letter], IsAscii d :=
    List.forall_mem_cons.mpr ⟨by decide, List.forall_mem_singleton.mpr ascii⟩
  unfold escape
  split
  · rename_i delimiter
    refine two c ?_
    rcases delimiter with rfl | rfl <;> decide
  split
  · exact two 'n' (by decide)
  split
  · exact two 'r' (by decide)
  split
  · exact two 't' (by decide)
  split
  · exact two 'b' (by decide)
  split
  · exact two 'f' (by decide)
  split
  · rename_i plain
    exact List.forall_mem_singleton.mpr ⟨by omega, by omega⟩
  split
  · rename_i small
    exact isAscii_unicodeEscape small
  · have valid := toNat_valid c
    rw [List.forall_mem_append]
    exact ⟨isAscii_unicodeEscape (by omega), isAscii_unicodeEscape (by omega)⟩

theorem isAscii_quote (s : String) : ∀ c ∈ quote s, IsAscii c := by
  rw [quote, List.forall_mem_cons, List.forall_mem_append, List.forall_mem_singleton]
  refine ⟨by decide, fun c member => ?_, by decide⟩
  obtain ⟨d, -, inside⟩ := List.mem_flatMap.mp member
  exact isAscii_escape d c inside

theorem IsSign.isAscii {sign : List Char} (signed : IsSign sign) : ∀ c ∈ sign, IsAscii c := by
  rcases signed with rfl | rfl <;> exact isAscii_of_all (by decide)

theorem IsFraction.isAscii {fraction : List Char} (isFraction : IsFraction fraction) :
    ∀ c ∈ fraction, IsAscii c := by
  rcases isFraction with rfl | ⟨digits, rfl, -, all⟩
  · exact fun _ member => (nomatch member)
  · exact List.forall_mem_cons.mpr ⟨by decide, fun c member => isAscii_of_isDigit (all c member)⟩

theorem IsExponent.isAscii {exponent : List Char} (isExponent : IsExponent exponent) :
    ∀ c ∈ exponent, IsAscii c := by
  rcases isExponent with rfl | ⟨sign, digits, rfl, signed, -, all⟩
  · exact fun _ member => (nomatch member)
  · refine List.forall_mem_cons.mpr ⟨by decide, List.forall_mem_append.mpr
      ⟨?_, fun c member => isAscii_of_isDigit (all c member)⟩⟩
    rcases signed with rfl | rfl | rfl <;> exact isAscii_of_all (by decide)

theorem isAscii_intercalate {parts : List (List Char)} (each : ∀ part ∈ parts, ∀ c ∈ part, IsAscii c) :
    ∀ c ∈ [','].intercalate parts, IsAscii c := by
  intro c member
  rcases mem_intercalate_singleton member with rfl | ⟨part, inParts, inside⟩
  · decide
  · exact each part inParts c inside

theorem isAscii_int {n : Int} {part : List Char} (text : (Value.int n).text = some part) :
    ∀ c ∈ part, IsAscii c := by
  rw [Value.text] at text
  obtain ⟨shown, repr, rfl⟩ := Option.map_eq_some_iff.mp text
  obtain ⟨sign, signed, shape, -, -⟩ := reprInt_eq_some repr
  rw [shape]
  exact List.forall_mem_append.mpr ⟨signed.isAscii, fun c member =>
    isAscii_of_isDigit (isDigit_toDigits c member)⟩

theorem IsFloat.isAscii {shown : String} (isFloat : IsFloat interp shown) :
    ∀ c ∈ shown.toList, IsAscii c := by
  obtain ⟨sign, digits, fraction, exponent, shape, signed, whole, isFraction, isExponent, -⟩ :=
    isFloat.spelled
  rw [shape]
  simp only [List.forall_mem_append]
  exact ⟨signed.isAscii, fun c member => isAscii_of_isDigit (whole.2.1 c member),
    isFraction.isAscii, isExponent.isAscii⟩

theorem exists_left_of_forall₂ {α β : Type} {related : α → β → Prop} {xs : List α} {ys : List β}
    (all : List.Forall₂ related xs ys) : ∀ y ∈ ys, ∃ x ∈ xs, related x y := by
  induction all with
  | nil => exact fun _ member => (nomatch member)
  | cons first later ih =>
      refine List.forall_mem_cons.mpr ⟨⟨_, List.mem_cons_self, first⟩, fun y member => ?_⟩
      obtain ⟨x, inside, pair⟩ := ih y member
      exact ⟨x, List.mem_cons_of_mem _ inside, pair⟩

theorem isAscii_list {items : List Value} {part : List Char}
    (each : ∀ value ∈ items, ∀ part, value.text = some part → ∀ c ∈ part, IsAscii c)
    (text : (Value.list items).text = some part) : ∀ c ∈ part, IsAscii c := by
  rw [Value.text] at text
  obtain ⟨parts, texts, rfl⟩ := Option.map_eq_some_iff.mp text
  rw [List.forall_mem_cons, List.forall_mem_append, List.forall_mem_singleton]
  refine ⟨by decide, isAscii_intercalate fun part member => ?_, by decide⟩
  obtain ⟨value, inItems, shown⟩ := exists_left_of_forall₂ (textAll_eq_some texts) part member
  exact each value inItems part shown

theorem isAscii_dict {items : List (String × Value)} {part : List Char}
    (each : ∀ item ∈ items, ∀ part, item.2.text = some part → ∀ c ∈ part, IsAscii c)
    (text : (Value.dict items).text = some part) : ∀ c ∈ part, IsAscii c := by
  rw [Value.text] at text
  obtain ⟨parts, texts, rfl⟩ := Option.map_eq_some_iff.mp text
  dsimp only
  rw [List.forall_mem_cons, List.forall_mem_append, List.forall_mem_singleton]
  refine ⟨by decide, isAscii_intercalate fun text member => ?_, by decide⟩
  obtain ⟨part, inOrder, rfl⟩ := List.mem_map.mp member
  obtain ⟨item, inItems, -, shown⟩ :=
    exists_left_of_forall₂ (textItems_eq_some texts) part (mem_sortedBy.mp inOrder)
  rw [List.forall_mem_append, List.forall_mem_cons]
  exact ⟨isAscii_quote part.1, by decide, each item inItems part.2 shown⟩

/-- The text of a value is ASCII. -/
theorem isAscii_text : ∀ value : Value, value.WellFormed interp → ∀ part, value.text = some part →
    ∀ c ∈ part, IsAscii c
  | .null, _ => by
      intro part text
      cases text
      exact isAscii_of_all (by decide)
  | .bool b, _ => by
      intro part text
      cases text
      cases b <;> exact isAscii_of_all (by decide)
  | .int _, _ => fun _ => isAscii_int
  | .float shown, wellFormed => by
      intro part text
      rw [Value.WellFormed] at wellFormed
      cases text
      rw [wellFormed.floatText]
      exact wellFormed.isAscii
  | .str s, _ => by
      intro part text
      cases text
      exact isAscii_quote s
  | .list items, wellFormed => by
      rw [Value.WellFormed, wellFormedAll_iff] at wellFormed
      exact fun _ => isAscii_list fun value member => isAscii_text value (wellFormed value member)
  | .dict items, wellFormed => by
      rw [Value.WellFormed, wellFormedItems_iff] at wellFormed
      exact fun _ => isAscii_dict fun item member => isAscii_text item.2 (wellFormed.2 item member)
termination_by value => sizeOf value
decreasing_by
  · have smaller := List.sizeOf_lt_of_mem member
    simp only [Value.list.sizeOf_spec]
    omega
  · have smaller := List.sizeOf_lt_of_mem member
    obtain ⟨key, value⟩ := item
    simp only [Value.dict.sizeOf_spec, Prod.mk.sizeOf_spec] at smaller ⊢
    omega

/-! ## Round trip -/

/-- The bytes of a text that is ASCII. -/
def asciiBytes (text : List Char) : List UInt8 := text.map fun c => UInt8.ofNat c.toNat

/-- What was dumped is loaded. -/
theorem loads_dumps {value : Value} {text : List Char} (wellFormed : value.WellFormed interp)
    (dumped : dumps interp value = .ok text) :
    loads interp (asciiBytes text) = .ok value.ordered := by
  rw [dumps] at dumped
  split at dumped
  · cases dumped
  · rename_i shallow
    split at dumped
    · cases dumped
    · rename_i shown
      cases dumped
      obtain ⟨c, cs, begins, start⟩ := Value.text_start shown wellFormed
      have skipped : skip text = text := by
        rw [begins]
        exact skip_cons (Or.inl start)
      have read := readsBack value wellFormed text shown (text.length + 1) interp.recursionLimit []
        (Nat.le_succ _) (not_lt.mp shallow) fun _ none_ => (nomatch none_)
      rw [List.append_nil] at read
      rw [loads, asciiBytes, interp.decode_ascii text (isAscii_text value wellFormed text shown)]
      dsimp only
      rw [skipped, read]
      rfl

/-! ## What cannot be dumped -/

/-- A value is part of another, or the other itself. -/
inductive Within (inner : Value) : Value → Prop
  | here : Within inner inner
  | element {items : List Value} {value : Value} (member : value ∈ items)
      (inside : Within inner value) : Within inner (.list items)
  | member {items : List (String × Value)} {item : String × Value} (member : item ∈ items)
      (inside : Within inner item.2) : Within inner (.dict items)

/-- A number of more digits than are converted is part of the value. -/
def HasLong (value : Value) : Prop :=
  ∃ n : Int, 10 ^ Unicode.maxStrDigits ≤ n.natAbs ∧ Within (.int n) value

theorem textAll_eq_none_iff {items : List Value} :
    textAll items = none ↔ ∃ value ∈ items, value.text = none := by
  induction items with
  | nil => simp [textAll]
  | cons value rest ih =>
      rw [textAll, List.exists_mem_cons_iff, ← ih]
      cases value.text with
      | none => simp
      | some part => simp

theorem textItems_eq_none_iff {items : List (String × Value)} :
    textItems items = none ↔ ∃ item ∈ items, item.2.text = none := by
  induction items with
  | nil => simp [textItems]
  | cons item rest ih =>
      obtain ⟨key, value⟩ := item
      rw [textItems, List.exists_mem_cons_iff, ← ih]
      cases value.text with
      | none => simp
      | some part => simp

theorem hasLong_int {n : Int} : HasLong (.int n) ↔ 10 ^ Unicode.maxStrDigits ≤ n.natAbs := by
  constructor
  · rintro ⟨m, long, within⟩
    cases within
    exact long
  · exact fun long => ⟨n, long, .here⟩

theorem hasLong_list {items : List Value} :
    HasLong (.list items) ↔ ∃ value ∈ items, HasLong value := by
  constructor
  · rintro ⟨n, long, within⟩
    cases within with
    | element member inside => exact ⟨_, member, n, long, inside⟩
  · rintro ⟨value, member, n, long, inside⟩
    exact ⟨n, long, .element member inside⟩

theorem hasLong_dict {items : List (String × Value)} :
    HasLong (.dict items) ↔ ∃ item ∈ items, HasLong item.2 := by
  constructor
  · rintro ⟨n, long, within⟩
    cases within with
    | member member inside => exact ⟨_, member, n, long, inside⟩
  · rintro ⟨item, member, n, long, inside⟩
    exact ⟨n, long, .member member inside⟩

theorem reprInt_eq_none_iff {n : Int} :
    Python.Value.reprInt n = none ↔ 10 ^ Unicode.maxStrDigits ≤ n.natAbs := by
  rw [Python.Value.reprInt]
  split
  · rename_i long
    exact iff_of_true rfl long
  · rename_i short
    exact iff_of_false (by simp) short

theorem text_eq_none_iff : ∀ value : Value, value.text = none ↔ HasLong value
  | .null => iff_of_false (by simp [Value.text]) fun ⟨_, _, within⟩ => (nomatch within)
  | .bool _ => iff_of_false (by simp [Value.text]) fun ⟨_, _, within⟩ => (nomatch within)
  | .float _ => iff_of_false (by simp [Value.text]) fun ⟨_, _, within⟩ => (nomatch within)
  | .str _ => iff_of_false (by simp [Value.text]) fun ⟨_, _, within⟩ => (nomatch within)
  | .int n => by rw [Value.text, Option.map_eq_none_iff, reprInt_eq_none_iff, hasLong_int]
  | .list items => by
      rw [Value.text, Option.map_eq_none_iff, textAll_eq_none_iff, hasLong_list]
      exact exists_congr fun value => and_congr_right fun member => text_eq_none_iff value
  | .dict items => by
      rw [Value.text, Option.map_eq_none_iff, textItems_eq_none_iff, hasLong_dict]
      exact exists_congr fun item => and_congr_right fun member => text_eq_none_iff item.2
termination_by value => sizeOf value
decreasing_by
  · have smaller := List.sizeOf_lt_of_mem member
    simp only [Value.list.sizeOf_spec]
    omega
  · have smaller := List.sizeOf_lt_of_mem member
    obtain ⟨key, value⟩ := item
    simp only [Value.dict.sizeOf_spec, Prod.mk.sizeOf_spec] at smaller ⊢
    omega

/-- A value is dumped unless it is nested too deep or a number in it is too long. -/
theorem dumps_ok_iff {value : Value} :
    (∃ text, dumps interp value = .ok text) ↔
      value.depth ≤ interp.recursionLimit ∧ ¬ HasLong value := by
  rw [← text_eq_none_iff, dumps]
  split
  · rename_i deep
    exact iff_of_false (by simp) fun both => deep.not_ge both.1
  · rename_i shallow
    rw [and_iff_right (not_lt.mp shallow)]
    cases value.text with
    | none => simp
    | some text => simp

end Python.Json
