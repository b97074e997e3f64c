import Mathlib.Data.List.DropRight
import Mathlib.Data.List.Infix
import Mathlib.Data.String.Basic
import Mathlib.Tactic.Common

/-!
The `str` methods that need no Unicode table. A `str` is a Lean `String`, a
finite sequence of code points; every method is defined on the list of them.
-/

namespace Python

/-! ## Whitespace -/

/-- `str.isspace` of one code point: bidirectional class WS, B or S, or category Zs. -/
def isSpace (c : Char) : Bool :=
  let n := c.toNat
  (9 ≤ n && n ≤ 13) || (28 ≤ n && n ≤ 32) || n == 0x85 || n == 0xA0 || n == 0x1680 ||
    (0x2000 ≤ n && n ≤ 0x200A) || n == 0x2028 || n == 0x2029 || n == 0x202F ||
    n == 0x205F || n == 0x3000

/-- `str.strip` with no argument, on the code points. -/
def stripChars (cs : List Char) : List Char :=
  (cs.dropWhile isSpace).rdropWhile isSpace

/-- `str.strip` with no argument. -/
def strip (s : String) : String :=
  String.ofList (stripChars s.toList)

@[simp] theorem toList_strip (s : String) : (strip s).toList = stripChars s.toList :=
  String.toList_ofList

/-- A list that neither starts nor ends with whitespace is left alone. -/
theorem stripChars_eq_self {cs : List Char}
    (first : ∀ c ∈ cs.head?, isSpace c = false)
    (last : ∀ c ∈ cs.getLast?, isSpace c = false) : stripChars cs = cs := by
  have noLeading : cs.dropWhile isSpace = cs := by
    cases cs with
    | nil => rfl
    | cons c rest =>
        have start := first c rfl
        simp [start]
  rw [stripChars, noLeading, List.rdropWhile_eq_self_iff]
  intro nonempty space
  rw [last _ (List.getLast?_eq_some_getLast nonempty)] at space
  cases space

/-- The result of `strip` does not start with whitespace. -/
theorem isSpace_head_stripChars {cs : List Char} {c : Char}
    (head : c ∈ (stripChars cs).head?) : isSpace c = false := by
  obtain ⟨rest, front⟩ := List.rdropWhile_prefix isSpace (l := cs.dropWhile isSpace)
  have headDropped : (cs.dropWhile isSpace).head? = some c := by
    rw [← front, List.head?_append]
    rw [stripChars] at head
    simp [Option.mem_def.mp head]
  have dropped := List.head?_dropWhile_not isSpace cs
  rw [headDropped] at dropped
  simpa using dropped

/-- The result of `strip` does not end with whitespace. -/
theorem isSpace_getLast_stripChars {cs : List Char} {c : Char}
    (last : c ∈ (stripChars cs).getLast?) : isSpace c = false := by
  by_cases nonempty : stripChars cs = []
  · simp [nonempty] at last
  · have finish := List.rdropWhile_last_not isSpace (cs.dropWhile isSpace) nonempty
    rw [Option.mem_def, List.getLast?_eq_some_getLast nonempty, Option.some.injEq] at last
    rw [← last]
    exact Bool.eq_false_of_not_eq_true finish

/-- Trailing whitespace is invisible to `strip`. -/
theorem stripChars_append_space {cs spaces : List Char}
    (allSpace : ∀ c ∈ spaces, isSpace c = true) :
    stripChars (cs ++ spaces) = stripChars cs := by
  unfold stripChars
  by_cases blank : ∀ c ∈ cs, isSpace c = true
  · have both : ∀ c ∈ cs ++ spaces, isSpace c = true := fun c member =>
      (List.mem_append.mp member).elim (blank c) (allSpace c)
    rw [List.dropWhile_eq_nil_iff.mpr both, List.dropWhile_eq_nil_iff.mpr blank]
  · have notNil : cs.dropWhile isSpace ≠ [] := fun none =>
      blank (List.dropWhile_eq_nil_iff.mp none)
    rw [List.dropWhile_append]
    rw [if_neg (by simpa using notNil)]
    unfold List.rdropWhile
    rw [List.reverse_append, List.dropWhile_append,
      List.dropWhile_eq_nil_iff.mpr (by simpa using allSpace)]
    rfl

/-- Behind a text without whitespace, only trailing whitespace is cut off. -/
theorem stripChars_append_of_visible {front back : List Char} (nonempty : front ≠ [])
    (visible : ∀ c ∈ front, isSpace c = false) :
    stripChars (front ++ back) = front ++ back.rdropWhile isSpace := by
  have noLeading : (front ++ back).dropWhile isSpace = front ++ back := by
    cases front with
    | nil => exact absurd rfl nonempty
    | cons c rest =>
        have start := visible c List.mem_cons_self
        simp [start]
  have noTrailing : front.reverse.dropWhile isSpace = front.reverse := by
    cases reversed : front.reverse with
    | nil => rfl
    | cons c rest =>
        have finish := visible c (by rw [← List.mem_reverse, reversed]; exact List.mem_cons_self)
        simp [finish]
  rw [stripChars, noLeading, List.rdropWhile, List.reverse_append, List.dropWhile_append,
    noTrailing, List.rdropWhile]
  split
  · rename_i blank
    rw [List.isEmpty_iff.mp blank]
    simp
  · simp

/-! ## Searching and cutting -/

/-- `s.startswith(p)`. -/
def startsWith (s p : String) : Bool := p.toList.isPrefixOf s.toList

/-- `s.endswith(p)`. -/
def endsWith (s p : String) : Bool := p.toList.isSuffixOf s.toList

/-- `p in s`. -/
def contains (s p : String) : Bool := decide (p.toList <:+: s.toList)

/-- `s.removeprefix(p)`. -/
def removePrefix (s p : String) : String :=
  if startsWith s p then String.ofList (s.toList.drop p.toList.length) else s

/-- `s.split(sep)` for a one-character separator. -/
def split (s : String) (sep : Char) : List String :=
  (s.toList.splitOn sep).map String.ofList

/-- `s.partition(sep)` for a one-character separator: what stands before the
first separator, and what stands after it when there is one. -/
def partition (s : String) (sep : Char) : String × Option String :=
  match s.toList.dropWhile (· != sep) with
  | [] => (s, none)
  | _ :: rest => (String.ofList (s.toList.takeWhile (· != sep)), some (String.ofList rest))

/-- `sep.join(parts)`. -/
def join (sep : String) (parts : List String) : String := sep.intercalate parts

@[simp] theorem startsWith_iff {s p : String} :
    startsWith s p = true ↔ p.toList <+: s.toList := List.isPrefixOf_iff_prefix

@[simp] theorem endsWith_iff {s p : String} :
    endsWith s p = true ↔ p.toList <:+ s.toList := List.isSuffixOf_iff_suffix

@[simp] theorem contains_iff {s p : String} :
    contains s p = true ↔ p.toList <:+: s.toList := decide_eq_true_iff

theorem removePrefix_of_startsWith {s p : String} (starts : startsWith s p = true) :
    s = p ++ removePrefix s p := by
  rw [← String.toList_inj, removePrefix, if_pos starts]
  obtain ⟨rest, cut⟩ := startsWith_iff.mp starts
  simp [← cut]

theorem removePrefix_of_not_startsWith {s p : String} (starts : startsWith s p = false) :
    removePrefix s p = s := by
  rw [removePrefix, if_neg (by simp [starts])]

@[simp] theorem removePrefix_append (p s : String) : removePrefix (p ++ s) p = s := by
  have starts : startsWith (p ++ s) p = true := by simp
  rw [← String.toList_inj, removePrefix, if_pos starts]
  simp

/-- A string without the separator is its own first part. -/
theorem partition_of_not_mem {s : String} {sep : Char} (absent : sep ∉ s.toList) :
    partition s sep = (s, none) := by
  have through : s.toList.dropWhile (· != sep) = [] := by
    rw [List.dropWhile_eq_nil_iff]
    intro c member
    exact bne_iff_ne.mpr fun same => absent (same ▸ member)
  rw [partition, through]

theorem toList_partition_fst (s : String) (sep : Char) :
    (partition s sep).1.toList = s.toList.takeWhile (· != sep) := by
  unfold partition
  split
  · rename_i through
    conv_lhs => rw [← List.takeWhile_append_dropWhile (p := (· != sep)) (l := s.toList)]
    rw [through, List.append_nil]
  · exact String.toList_ofList

/-- The first separator is the one that follows a separator-free text. -/
theorem partition_append {s rest : String} {sep : Char} (absent : sep ∉ s.toList) :
    partition (s ++ String.ofList [sep] ++ rest) sep = (s, some rest) := by
  have stops : ∀ c ∈ s.toList, (c != sep) = true := fun c member =>
    bne_iff_ne.mpr fun same => absent (same ▸ member)
  have dropped : (s ++ String.ofList [sep] ++ rest).toList.dropWhile (· != sep) =
      sep :: rest.toList := by
    simp [List.dropWhile_append_of_pos stops]
  have taken : (s ++ String.ofList [sep] ++ rest).toList.takeWhile (· != sep) = s.toList := by
    simp [List.takeWhile_append_of_pos stops]
  rw [partition, dropped, taken]
  simp

/-- What `partition` finds in front of a separator, the separator and the rest
make up the string, and the front has no separator in it. -/
theorem partition_eq_some {s before after : String} {sep : Char}
    (found : partition s sep = (before, some after)) :
    s = before ++ String.ofList [sep] ++ after ∧ sep ∉ before.toList := by
  unfold partition at found
  split at found
  · simp at found
  · rename_i c rest cut
    have stop : c = sep := by
      have head := List.head?_dropWhile_not (· != sep) s.toList
      rw [cut] at head
      simpa using head
    obtain ⟨rfl, rfl⟩ : String.ofList (s.toList.takeWhile (· != sep)) = before ∧
        String.ofList rest = after := by simpa using found
    constructor
    · rw [← String.toList_inj]
      conv_lhs => rw [← List.takeWhile_append_dropWhile (p := (· != sep)) (l := s.toList), cut]
      simp [stop]
    · intro member
      rw [String.toList_ofList] at member
      simpa using List.mem_takeWhile_imp member

/-! ## Splitting -/

/-- Joining puts a separator in front of every part but the first. -/
theorem intercalate_cons {sep : Char} {first : List Char} {rest : List (List Char)} :
    [sep].intercalate (first :: rest) = first ++ rest.flatMap (sep :: ·) := by
  induction rest generalizing first with
  | nil => simp
  | cons next more ih =>
      rw [List.intercalate_cons_cons, ih, List.flatMap_cons]
      simp

/-- The characters of a joined text are separators or come from a part. -/
theorem mem_intercalate_singleton {sep c : Char} :
    ∀ {parts : List (List Char)}, c ∈ [sep].intercalate parts →
      c = sep ∨ ∃ part ∈ parts, c ∈ part
  | [], member => by simp at member
  | [part], member => Or.inr ⟨part, List.mem_singleton_self part, by simpa using member⟩
  | part :: next :: rest, member => by
      rw [List.intercalate_cons_cons, List.mem_append, List.mem_append,
        List.mem_singleton] at member
      rcases member with (here | rfl) | later
      · exact Or.inr ⟨part, List.mem_cons_self, here⟩
      · exact Or.inl rfl
      · rcases mem_intercalate_singleton later with same | ⟨other, inRest, there⟩
        · exact Or.inl same
        · exact Or.inr ⟨other, List.mem_cons_of_mem part inRest, there⟩

/-- Splitting loses only separators. -/
theorem eq_or_mem_splitOn (sep : Char) {c : Char} {cs : List Char} (member : c ∈ cs) :
    c = sep ∨ ∃ part ∈ cs.splitOn sep, c ∈ part := by
  rw [← @List.intercalate_splitOn _ cs _ _ sep] at member
  exact mem_intercalate_singleton member

/-- No part has the separator in it. -/
theorem sep_not_mem_of_mem_splitOn {sep : Char} {cs : List Char} :
    ∀ {part : List Char}, part ∈ cs.splitOn sep → sep ∉ part := by
  induction cs with
  | nil => simp [List.splitOn_nil]
  | cons c rest ih =>
      intro part inParts
      rw [List.splitOn_cons_eq_if_modifyHead] at inParts
      split at inParts
      · rcases List.mem_cons.mp inParts with rfl | later
        · exact List.not_mem_nil
        · exact ih later
      · rename_i differs
        cases parts : rest.splitOn sep with
        | nil => exact absurd parts (List.splitOn_ne_nil sep rest)
        | cons first others =>
            rw [parts, List.modifyHead_cons] at inParts
            rcases List.mem_cons.mp inParts with rfl | later
            · rw [List.mem_cons, not_or]
              refine ⟨fun same => differs (beq_iff_eq.mpr same.symm), ih ?_⟩
              rw [parts]
              exact List.mem_cons_self
            · exact ih (by rw [parts]; exact List.mem_cons_of_mem _ later)

/-- The parts and the separators between them make up the text. -/
theorem toList_of_split {s : String} {sep : Char} {parts : List String}
    (cut : split s sep = parts) :
    s.toList = [sep].intercalate (parts.map String.toList) := by
  rw [← cut, split, List.map_map]
  simp [Function.comp_def, List.intercalate_splitOn]

/-- Splitting undoes joining. -/
theorem split_join {sep : Char} {parts : List String} (nonempty : parts ≠ [])
    (clean : ∀ part ∈ parts, sep ∉ part.toList) :
    split (join (String.ofList [sep]) parts) sep = parts := by
  have joined : (join (String.ofList [sep]) parts).toList =
      [sep].intercalate (parts.map String.toList) := by
    rw [join, String.toList_intercalate, String.toList_ofList]
  rw [split, joined, List.splitOn_intercalate _ _ (by simpa using nonempty), List.map_map]
  · simp [Function.comp_def]
  · intro part member
    obtain ⟨text, inParts, rfl⟩ := List.mem_map.mp member
    exact clean text inParts

/-- A text without the separator is one part. -/
theorem split_eq_self {s : String} {sep : Char} (absent : sep ∉ s.toList) : split s sep = [s] := by
  have one := split_join (List.cons_ne_nil s [])
    (fun part member => List.mem_singleton.mp member ▸ absent)
  simpa [join] using one

/-- Joining at least one of the parts keeps that part's characters. -/
theorem length_le_length_join {sep part : String} {parts : List String}
    (member : part ∈ parts) : part.length ≤ (join sep parts).length := by
  have flat : ∀ (first : List Char) (rest : List (List Char)) (x : List Char),
      x ∈ first :: rest → x.length ≤ (sep.toList.intercalate (first :: rest)).length := by
    intro first rest
    induction rest generalizing first with
    | nil => simp
    | cons second rest ih =>
        intro x member
        rw [List.intercalate_cons_cons]
        rcases List.mem_cons.mp member with rfl | later
        · simp
        · have bound := ih second x later
          simp only [List.length_append]
          omega
  obtain ⟨first, rest, shape⟩ := List.exists_cons_of_ne_nil (List.ne_nil_of_mem member)
  have image : part.toList ∈ first.toList :: rest.map String.toList := by
    have := List.mem_map_of_mem (f := String.toList) member
    rwa [shape, List.map_cons] at this
  have bound := flat _ _ _ image
  rw [join, ← String.length_toList, ← String.length_toList, String.toList_intercalate, shape]
  simpa using bound

end Python
