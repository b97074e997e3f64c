import Plimsoll.Python.Text

/-!
The `str` methods that consult the Unicode database: `lower`, `isdigit`, `int`
on digits, and `repr`.

The database's tables grow between interpreter versions, so they are a
parameter. A `Unicode` carries the facts about its tables that every version
satisfies; whatever is proved over it holds of each of them.
-/

namespace Python

/-- The columns of the Unicode database that the `str` methods below read. -/
structure Unicode where
  /-- The full lower-case mapping of one code point. -/
  lowercase : Char → List Char
  /-- The derived properties `Cased` and `Case_Ignorable`. -/
  cased : Char → Bool
  caseIgnorable : Char → Bool
  /-- `Numeric_Type` is `Digit` or `Decimal`. -/
  isDigit : Char → Bool
  /-- The value of a code point whose `Numeric_Type` is `Decimal`. -/
  decimal : Char → Option Nat
  isprintable : Char → Bool
  lowercase_ascii : ∀ c, c.toNat < 128 → lowercase c = [c.toLower]
  lowercase_ne_nil : ∀ c, lowercase c ≠ []
  lowercase_lowercase : ∀ c, ∀ d ∈ lowercase c, lowercase d = [d]
  lowercase_sigma : lowercase 'Σ' = ['σ']
  lowercase_finalSigma : lowercase 'ς' = ['ς']
  lowercase_isSpace : ∀ c, isSpace c = false → ∀ d ∈ lowercase c, isSpace d = false
  lowercase_space : ∀ c, isSpace c = true → lowercase c = [c]
  isDigit_ascii : ∀ c, c.toNat < 128 → isDigit c = c.isDigit
  decimal_ascii : ∀ c, c.isDigit = true → decimal c = some (c.toNat - '0'.toNat)
  isDigit_of_decimal : ∀ c, (decimal c).isSome = true → isDigit c = true

namespace Unicode

variable (ucd : Unicode)

/-! ## Lower case -/

/-- How a capital sigma lowers between `before`, reversed, and `after`: to the
final form when a cased letter precedes it and none follows, where
case-ignorable code points are looked through on both sides. -/
def lowerSigma (before after : List Char) : Char :=
  match before.dropWhile ucd.caseIgnorable with
  | [] => 'σ'
  | c :: _ =>
      if ucd.cased c then
        match after.dropWhile ucd.caseIgnorable with
        | [] => 'ς'
        | d :: _ => if ucd.cased d then 'σ' else 'ς'
      else 'σ'

/-- `str.lower` of the code points after `before`, which is reversed. -/
def lowerFrom (before : List Char) : List Char → List Char
  | [] => []
  | c :: rest =>
      (if c = 'Σ' then [ucd.lowerSigma before rest] else ucd.lowercase c) ++
        lowerFrom (c :: before) rest

/-- `str.lower`. -/
def lower (s : String) : String := String.ofList (ucd.lowerFrom [] s.toList)

@[simp] theorem toList_lower (s : String) :
    (ucd.lower s).toList = ucd.lowerFrom [] s.toList := String.toList_ofList

theorem lowerSigma_eq (before after : List Char) :
    ucd.lowerSigma before after = 'σ' ∨ ucd.lowerSigma before after = 'ς' := by
  unfold lowerSigma
  split
  · exact Or.inl rfl
  · split
    · split
      · exact Or.inr rfl
      · split
        · exact Or.inl rfl
        · exact Or.inr rfl
    · exact Or.inl rfl

variable {ucd}

/-- A code point that lower case leaves alone. Everything `lower` returns is
made of these. -/
def Lowered (ucd : Unicode) (c : Char) : Prop := ucd.lowercase c = [c]

theorem Lowered.ne_sigma {c : Char} (lowered : ucd.Lowered c) : c ≠ 'Σ' := by
  rintro rfl
  have image := ucd.lowercase_sigma
  rw [lowered] at image
  simp at image

theorem lowered_of_mem_lowerFrom {cs : List Char} :
    ∀ {before : List Char} {d : Char}, d ∈ ucd.lowerFrom before cs → ucd.Lowered d := by
  induction cs with
  | nil => simp [lowerFrom]
  | cons c rest ih =>
      intro before d member
      rw [lowerFrom, List.mem_append] at member
      rcases member with here | later
      · split at here
        · rw [List.mem_singleton] at here
          rcases lowerSigma_eq ucd before rest with final | inner
          · rw [here, final]
            exact ucd.lowercase_lowercase 'Σ' 'σ' (by simp [ucd.lowercase_sigma])
          · rw [here, inner]
            exact ucd.lowercase_finalSigma
        · exact ucd.lowercase_lowercase c d here
      · exact ih later

/-- `lower` leaves a text of lowered code points alone. -/
theorem lowerFrom_eq_self {cs : List Char} :
    ∀ {before : List Char}, (∀ c ∈ cs, ucd.Lowered c) → ucd.lowerFrom before cs = cs := by
  induction cs with
  | nil => intros; rfl
  | cons c rest ih =>
      intro before lowered
      have here : ucd.Lowered c := lowered c List.mem_cons_self
      rw [lowerFrom, if_neg here.ne_sigma, here, ih fun d later =>
        lowered d (List.mem_cons_of_mem c later)]
      rfl

theorem lower_eq_self {s : String} (lowered : ∀ c ∈ s.toList, ucd.Lowered c) :
    ucd.lower s = s := by
  rw [← String.toList_inj, toList_lower, lowerFrom_eq_self lowered]

theorem lowered_of_mem_lower {s : String} {c : Char} (member : c ∈ (ucd.lower s).toList) :
    ucd.Lowered c := by
  rw [toList_lower] at member
  exact lowered_of_mem_lowerFrom member

@[simp] theorem lower_lower (s : String) : ucd.lower (ucd.lower s) = ucd.lower s :=
  lower_eq_self fun _ => lowered_of_mem_lower

/-- An ASCII code point is lowered unless it is a capital letter. -/
theorem lowered_ascii {c : Char} (ascii : c.toNat < 128) (small : c.toLower = c) :
    ucd.Lowered c := by
  rw [Lowered, ucd.lowercase_ascii c ascii, small]

/-- Within ASCII `lower` goes code point by code point. -/
theorem lowerFrom_ascii {cs : List Char} :
    ∀ {before : List Char}, (∀ c ∈ cs, c.toNat < 128) →
      ucd.lowerFrom before cs = cs.map Char.toLower := by
  induction cs with
  | nil => intros; rfl
  | cons c rest ih =>
      intro before ascii
      have small := ascii c List.mem_cons_self
      have notSigma : c ≠ 'Σ' := by
        rintro rfl
        exact absurd small (by decide)
      rw [lowerFrom, if_neg notSigma, ucd.lowercase_ascii c small,
        ih fun d later => ascii d (List.mem_cons_of_mem c later)]
      rfl

/-- ASCII text goes to lower case by itself. -/
theorem lowerFrom_append_ascii {front : List Char} (back : List Char)
    (ascii : ∀ c ∈ front, c.toNat < 128) :
    ∀ before : List Char, ucd.lowerFrom before (front ++ back) =
      front.map Char.toLower ++ ucd.lowerFrom (front.reverse ++ before) back := by
  induction front with
  | nil => exact fun before => rfl
  | cons c rest ih =>
      intro before
      have here := ascii c List.mem_cons_self
      have notSigma : c ≠ 'Σ' := by
        rintro rfl
        exact absurd here (by decide)
      rw [List.cons_append, lowerFrom, if_neg notSigma, ucd.lowercase_ascii c here,
        ih fun d later => ascii d (List.mem_cons_of_mem c later)]
      simp

/-- What a text in lower case is made of, where another text follows it. -/
theorem lowerFrom_append (front back : List Char) :
    ∀ before : List Char, ∃ low, ucd.lowerFrom before (front ++ back) =
        low ++ ucd.lowerFrom (front.reverse ++ before) back ∧ (front ≠ [] → low ≠ []) ∧
          ∀ d ∈ low, d = 'σ' ∨ d = 'ς' ∨ ∃ c ∈ front, d ∈ ucd.lowercase c := by
  induction front with
  | nil => exact fun before => ⟨[], rfl, fun impossible => (impossible rfl).elim, nofun⟩
  | cons c rest ih =>
      intro before
      obtain ⟨low, whole, -, from_⟩ := ih (c :: before)
      refine ⟨(if c = 'Σ' then [ucd.lowerSigma before (rest ++ back)] else ucd.lowercase c) ++ low,
        ?_, fun _ => ?_, ?_⟩
      · rw [List.cons_append, lowerFrom, whole, List.append_assoc, List.reverse_cons,
          List.append_assoc]
        rfl
      · split
        · exact List.cons_ne_nil _ _
        · exact List.append_ne_nil_of_left_ne_nil (ucd.lowercase_ne_nil c) _
      · intro d member
        rcases List.mem_append.mp member with here | later
        · split at here
          · rw [List.mem_singleton.mp here]
            exact (ucd.lowerSigma_eq before (rest ++ back)).imp_right Or.inl
          · exact Or.inr (Or.inr ⟨c, List.mem_cons_self, here⟩)
        · exact (from_ d later).imp_right (Or.imp_right fun ⟨e, inside, is⟩ =>
            ⟨e, List.mem_cons_of_mem c inside, is⟩)

theorem lowerFrom_eq_nil_iff {before cs : List Char} : ucd.lowerFrom before cs = [] ↔ cs = [] := by
  constructor
  · intro none
    by_contra nonempty
    obtain ⟨low, whole, some_, -⟩ := @lowerFrom_append ucd cs [] before
    rw [List.append_nil, none] at whole
    exact some_ nonempty (List.append_eq_nil_iff.mp whole.symm).1
  · rintro rfl
    rfl

/-- What lower case leaves alone stays in a text. -/
theorem mem_lowerFrom {c : Char} {before cs : List Char} (lowered : ucd.Lowered c) (member : c ∈ cs) :
    c ∈ ucd.lowerFrom before cs := by
  obtain ⟨front, back, rfl⟩ := List.append_of_mem member
  obtain ⟨low, whole, -⟩ := @lowerFrom_append ucd front (c :: back) before
  rw [whole, lowerFrom, if_neg lowered.ne_sigma, lowered]
  simp

/-- Whether a character lies in the last place of what `lower` returns is
decided by the last character lowered: `lower` never ends a text in whitespace
that the text does not end in. -/
theorem isSpace_getLast_lowerFrom {cs : List Char} :
    ∀ {before : List Char} {d : Char}, (∀ c ∈ cs.getLast?, isSpace c = false) →
      d ∈ (ucd.lowerFrom before cs).getLast? → isSpace d = false := by
  induction cs with
  | nil => simp [lowerFrom]
  | cons c rest ih =>
      intro before d finish last
      cases rest with
      | nil =>
          have clean : isSpace c = false := finish c (by simp)
          rw [lowerFrom, lowerFrom, List.append_nil] at last
          split at last
          · rcases lowerSigma_eq ucd before [] with image | image <;>
              · rw [image] at last
                obtain rfl : _ = d := by simpa using last
                decide
          · exact ucd.lowercase_isSpace c clean d (List.mem_of_getLast? last)
      | cons next more =>
          rw [lowerFrom] at last
          have rest_ne : ucd.lowerFrom (c :: before) (next :: more) ≠ [] := by
            rw [lowerFrom]
            split
            · simp
            · simp [ucd.lowercase_ne_nil next]
          rw [List.getLast?_append_of_ne_nil _ rest_ne] at last
          exact ih (fun e member => finish e (by simpa using member)) last

/-- Trimmed text stays trimmed at its end when it is lowered. -/
theorem isSpace_getLast_lower_strip {s : String} {c : Char}
    (last : c ∈ (ucd.lower (strip s)).toList.getLast?) : isSpace c = false := by
  rw [toList_lower, toList_strip] at last
  exact isSpace_getLast_lowerFrom (fun _ => isSpace_getLast_stripChars) last

theorem isSpace_head_lowerFrom {c d : Char} {rest before : List Char}
    (clean : isSpace c = false) (head : d ∈ (ucd.lowerFrom before (c :: rest)).head?) :
    isSpace d = false := by
  rw [lowerFrom, List.head?_append] at head
  split at head
  · rcases lowerSigma_eq ucd before rest with image | image <;>
      · rw [image] at head
        obtain rfl : _ = d := by simpa using head
        decide
  · have here : d ∈ (ucd.lowercase c).head? := by
      cases image : ucd.lowercase c with
      | nil => exact (ucd.lowercase_ne_nil c image).elim
      | cons e more => simpa [image] using head
    exact ucd.lowercase_isSpace c clean d (List.mem_of_head? here)

/-- Trimmed text stays trimmed at its start when it is lowered. -/
theorem isSpace_head_lower_strip {s : String} {c : Char}
    (head : c ∈ (ucd.lower (strip s)).toList.head?) : isSpace c = false := by
  rw [toList_lower, toList_strip] at head
  cases shape : stripChars s.toList with
  | nil => simp [shape, lowerFrom] at head
  | cons first rest =>
      rw [shape] at head
      exact isSpace_head_lowerFrom (isSpace_head_stripChars (by rw [shape]; rfl)) head

/-- The text every comparison in lower case is made on, lowered and trimmed
again, is itself. -/
@[simp] theorem strip_lower_strip (s : String) :
    strip (ucd.lower (strip s)) = ucd.lower (strip s) := by
  rw [← String.toList_inj, toList_strip]
  exact stripChars_eq_self (fun _ => isSpace_head_lower_strip)
    (fun _ => isSpace_getLast_lower_strip)

/-- A text of lowered code points that neither starts nor ends with whitespace
is compared as it stands. -/
theorem lower_strip_eq_self {s : String} (lowered : ∀ c ∈ s.toList, ucd.Lowered c)
    (first : ∀ c ∈ s.toList.head?, isSpace c = false)
    (last : ∀ c ∈ s.toList.getLast?, isSpace c = false) : ucd.lower (strip s) = s := by
  have stripped : strip s = s := by
    rw [← String.toList_inj, toList_strip]
    exact stripChars_eq_self first last
  rw [stripped, lower_eq_self lowered]

variable (ucd)

/-! ## Digits -/

/-- `str.isdigit`: not empty and digits only. -/
def isDigitText (s : String) : Bool := s.toList != [] && s.toList.all ucd.isDigit

/-- The largest number of digits `int` converts: `sys.int_info.default_max_str_digits`. -/
def maxStrDigits : Nat := 4300

/-- Read decimal digits, most significant first, after `value`. -/
def readDecimal (value : Nat) : List Char → Option Nat
  | [] => some value
  | c :: rest =>
      match ucd.decimal c with
      | none => none
      | some digit => readDecimal (10 * value + digit) rest

/-- `int(s)` of a text that `isdigit` accepts; `none` is the `ValueError`, which
a digit that is not a decimal raises and a text of too many digits too. -/
def int (s : String) : Option Nat :=
  if s.toList.length ≤ maxStrDigits then ucd.readDecimal 0 s.toList else none

/-! ## `repr` -/

/-- The lower-case hexadecimal digits of `n`, padded to `width`. -/
def hex (width n : Nat) : String :=
  let digits := String.ofList (Nat.toDigits 16 n)
  String.ofList (List.replicate (width - digits.length) '0') ++ digits

/-- How `repr` writes one code point of a string quoted with `quote`. -/
def reprChar (quote c : Char) : String :=
  let n := c.toNat
  if c = quote ∨ c = '\\' then String.ofList ['\\', c]
  else if c = '\t' then "\\t"
  else if c = '\n' then "\\n"
  else if c = '\r' then "\\r"
  else if n < 32 ∨ n = 127 then "\\x" ++ hex 2 n
  else if n < 127 ∨ ucd.isprintable c then String.ofList [c]
  else if n < 0x100 then "\\x" ++ hex 2 n
  else if n < 0x10000 then "\\u" ++ hex 4 n
  else "\\U" ++ hex 8 n

/-- `repr` of a string: single quotes, unless only those occur in it. -/
def repr (s : String) : String :=
  let quote := if s.toList.contains '\'' && !s.toList.contains '"' then '"' else '\''
  String.ofList [quote] ++ String.join (s.toList.map (ucd.reprChar quote)) ++
    String.ofList [quote]

end Unicode

/-- Lower case within ASCII: it stays there, is idempotent, and neither makes
nor moves whitespace. -/
theorem toLower_ascii (c : Char) (ascii : c.toNat < 128) :
    c.toLower.toNat < 128 ∧ c.toLower.toLower = c.toLower ∧
      (isSpace c.toLower = isSpace c) ∧ (isSpace c = true → c.toLower = c) := by
  have table : ∀ n < 128, (Char.ofNat n).toLower.toNat < 128 ∧
      (Char.ofNat n).toLower.toLower = (Char.ofNat n).toLower ∧
      (isSpace (Char.ofNat n).toLower = isSpace (Char.ofNat n)) ∧
      (isSpace (Char.ofNat n) = true → (Char.ofNat n).toLower = Char.ofNat n) := by decide
  simpa only [Char.ofNat_toNat] using table c.toNat ascii

/-- The database restricted to ASCII: outside it only the sigmas have case, and
no code point is a digit or has a printed form. -/
def Unicode.basic : Unicode where
  lowercase c := if c.toNat < 128 then [c.toLower] else if c = 'Σ' then ['σ'] else [c]
  cased c := c.isAlpha
  caseIgnorable _ := false
  isDigit c := c.isDigit
  decimal c := if c.isDigit then some (c.toNat - '0'.toNat) else none
  isprintable c := c.toNat < 128
  lowercase_ascii c ascii := if_pos ascii
  lowercase_ne_nil c := by
    split
    · simp
    · split <;> simp
  lowercase_lowercase c d member := by
    split at member
    · rename_i ascii
      obtain rfl : d = c.toLower := by simpa using member
      obtain ⟨bound, fixed, -, -⟩ := toLower_ascii c ascii
      rw [if_pos bound, fixed]
    · split at member
      · obtain rfl : d = 'σ' := by simpa using member
        decide
      · rename_i high notSigma
        obtain rfl : d = c := by simpa using member
        rw [if_neg high, if_neg notSigma]
  lowercase_sigma := by decide
  lowercase_finalSigma := by decide
  lowercase_isSpace c clean d member := by
    split at member
    · rename_i ascii
      obtain rfl : d = c.toLower := by simpa using member
      rw [(toLower_ascii c ascii).2.2.1, clean]
    · split at member
      · obtain rfl : d = 'σ' := by simpa using member
        decide
      · obtain rfl : d = c := by simpa using member
        exact clean
  lowercase_space c space := by
    split
    · rename_i ascii
      rw [(toLower_ascii c ascii).2.2.2 space]
    · split
      · rename_i sigma
        rw [sigma] at space
        exact absurd space (by decide)
      · rfl
  isDigit_ascii _ _ := rfl
  decimal_ascii c digit := if_pos digit
  isDigit_of_decimal c value := by
    split at value
    · assumption
    · cases value

end Python
