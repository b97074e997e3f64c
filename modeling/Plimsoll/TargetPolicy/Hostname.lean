import Plimsoll.TargetPolicy

/-!
The grammar `HOSTNAME` recognises.

A hostname is labels between dots: each of letters, digits and hyphens, with no
hyphen at either end. The recogniser asks for at most 63 characters a label,
and lets a newline stand behind the last one.
-/

namespace Plimsoll.TargetPolicy

open Python

/-- A label: letters, digits and inner hyphens. -/
structure IsLabel (cs : List Char) : Prop where
  nonempty : cs ≠ []
  labelChars : ∀ c ∈ cs, labelChar c = true
  head_ne : cs.head? ≠ some '-'
  getLast_ne : cs.getLast? ≠ some '-'

/-- A hostname: labels between dots. -/
def IsHostname (s : String) : Prop := ∀ part ∈ s.toList.splitOn '.', IsLabel part

/-- A label of a length the recogniser accepts. -/
def ShortLabel (cs : List Char) : Prop := IsLabel cs ∧ cs.length ≤ 63

theorem IsLabel.dot_not_mem {cs : List Char} (isLabel : IsLabel cs) : '.' ∉ cs := by
  intro member
  exact absurd (isLabel.labelChars '.' member) (by decide)

/-- `label` stops behind exactly the short labels. -/
theorem mem_run_label {cur stop : Cursor} :
    stop ∈ label.run cur ↔
      ∃ cs rest, cur.after = cs ++ rest ∧ ShortLabel cs ∧ stop = cur.over cs rest := by
  unfold label
  simp only [Regex.mem_run_seq, Regex.mem_run_notAhead_char, Regex.mem_run_repeated,
    Regex.mem_run_notBehind]
  constructor
  · rintro ⟨_, ⟨head, rfl⟩, _, ⟨cs, rest, shape, chars, some, most, rfl⟩, last, rfl⟩
    have nonempty : cs ≠ [] := by
      rintro rfl
      simp at some
    refine ⟨cs, rest, shape, ⟨⟨nonempty, chars, ?_, ?_⟩, most 63 rfl⟩, rfl⟩
    · intro hyphen
      have := head '-' (by rw [shape, List.head?_append, hyphen]; rfl)
      exact absurd this (by decide)
    · intro hyphen
      have := last '-' (by
        rw [Cursor.over, List.head?_append, List.head?_reverse, hyphen]
        rfl)
      exact absurd this (by decide)
  · rintro ⟨cs, rest, shape, ⟨isLabel, short⟩, rfl⟩
    refine ⟨_, ⟨?_, rfl⟩, _, ⟨cs, rest, shape, isLabel.labelChars, ?_, ?_, rfl⟩, ?_, rfl⟩
    · intro c head
      rw [shape, List.head?_append_of_ne_nil _ isLabel.nonempty] at head
      rw [beq_eq_false_iff_ne]
      rintro rfl
      exact isLabel.head_ne head
    · exact List.length_pos_of_ne_nil isLabel.nonempty
    · intro most bound
      rw [Option.mem_def, Option.some.injEq] at bound
      omega
    · intro c last
      have reversed : cs.reverse ≠ [] := by simpa using isLabel.nonempty
      rw [Cursor.over, List.head?_append_of_ne_nil _ reversed, List.head?_reverse] at last
      rw [beq_eq_false_iff_ne]
      rintro rfl
      exact isLabel.getLast_ne last

/-- A dotted label, the body of the repetition. -/
theorem mem_run_dottedLabel {cur stop : Cursor} :
    stop ∈ (Regex.group (.seq (.char (· == '.')) label)).run cur ↔
      ∃ cs rest, cur.after = '.' :: cs ++ rest ∧ ShortLabel cs ∧
        stop = { cur.over ('.' :: cs) rest with group := some ('.' :: cs) } := by
  rw [Regex.mem_run_group]
  simp only [Regex.mem_run_seq, Regex.mem_run_char, mem_run_label]
  constructor
  · rintro ⟨_, ⟨_, ⟨c, rest, shape, dot, rfl⟩, cs, tail, behind, short, rfl⟩, rfl⟩
    obtain rfl : c = '.' := by simpa using dot
    obtain rfl : rest = cs ++ tail := behind
    have captured := Regex.take_consumed ('.' :: cs) tail
    refine ⟨cs, tail, shape, short, ?_⟩
    simp only [Cursor.over, shape, ← List.cons_append, captured]
    simp
  · rintro ⟨cs, rest, shape, short, rfl⟩
    have captured := Regex.take_consumed ('.' :: cs) rest
    refine ⟨_, ⟨_, ⟨'.', cs ++ rest, shape, by decide, rfl⟩, cs, rest, rfl, short, rfl⟩, ?_⟩
    simp only [Cursor.over, shape, captured]
    simp

/-- Any number of rounds leads over any number of dotted labels. -/
theorem rounds_iff {tail : List Char} {cur : Cursor} :
    (∃ stop, Relation.ReflTransGen (Regex.Round (.group (.seq (.char (· == '.')) label))) cur stop ∧
        stop.after = tail) ↔
      ∃ labels : List (List Char), (∀ cs ∈ labels, ShortLabel cs) ∧
        cur.after = labels.flatMap ('.' :: ·) ++ tail := by
  constructor
  · rintro ⟨stop, rounds, rfl⟩
    induction rounds using Relation.ReflTransGen.head_induction_on with
    | refl => exact ⟨[], by simp, rfl⟩
    | head round _ ih =>
        obtain ⟨labels, short, shape⟩ := ih
        obtain ⟨cs, rest, front, isShort, rfl⟩ := mem_run_dottedLabel.mp round.1
        obtain rfl : rest = labels.flatMap ('.' :: ·) ++ stop.after := shape
        refine ⟨cs :: labels, List.forall_mem_cons.mpr ⟨isShort, short⟩, ?_⟩
        rw [front, List.flatMap_cons, List.append_assoc]
  · rintro ⟨labels, short, shape⟩
    induction labels generalizing cur with
    | nil => exact ⟨cur, .refl, shape⟩
    | cons cs labels ih =>
        rw [List.forall_mem_cons] at short
        rw [List.flatMap_cons, List.append_assoc] at shape
        have round := mem_run_dottedLabel.mpr ⟨cs, _, shape, short.1, rfl⟩
        obtain ⟨stop, rounds, last⟩ :=
          @ih { cur.over ('.' :: cs) _ with group := some ('.' :: cs) } short.2 rfl
        refine ⟨stop, .head ⟨round, ?_⟩ rounds, last⟩
        simp only [shape, Cursor.over, List.length_append, List.length_cons]
        omega

/-- `HOSTNAME` matches short labels between dots, with or without a newline
behind them. -/
theorem hostname_isMatch_iff {s : String} :
    hostname.isMatch s = true ↔
      ∃ body tail, s.toList = body ++ tail ∧ (tail = [] ∨ tail = ['\n']) ∧
        ∀ part ∈ body.splitOn '.', ShortLabel part := by
  rw [Regex.isMatch_iff]
  unfold hostname
  simp only [Regex.mem_run_seq, Regex.mem_run_atStart, Regex.mem_run_atEnd, Regex.mem_run_star,
    mem_run_label]
  constructor
  · rintro ⟨last, _, ⟨-, rfl⟩, _, ⟨first, rest, shape, short, rfl⟩, _, rounds, newline, rfl⟩
    obtain ⟨labels, shorts, behind⟩ := rounds_iff.mp ⟨_, rounds, rfl⟩
    obtain rfl : rest = labels.flatMap ('.' :: ·) ++ last.after := behind
    have all : ∀ part ∈ first :: labels, ShortLabel part := List.forall_mem_cons.mpr ⟨short, shorts⟩
    refine ⟨['.'].intercalate (first :: labels), last.after, ?_, newline, ?_⟩
    · rw [intercalate_cons, List.append_assoc]
      exact shape
    · rw [List.splitOn_intercalate _ (fun part member => (all part member).1.dot_not_mem) (by simp)]
      exact all
  · rintro ⟨body, tail, shape, newline, all⟩
    cases parts : body.splitOn '.' with
    | nil => exact absurd parts (List.splitOn_ne_nil '.' body)
    | cons first labels =>
        rw [parts, List.forall_mem_cons] at all
        have joined := @List.intercalate_splitOn _ body _ _ '.'
        rw [parts, intercalate_cons] at joined
        rw [← joined, List.append_assoc] at shape
        obtain ⟨last, rounds, behind⟩ :=
          (@rounds_iff _ ((Regex.start s).over first _)).mpr ⟨labels, all.2, rfl⟩
        exact ⟨last, _, ⟨rfl, rfl⟩, _, ⟨first, _, shape, all.1, rfl⟩, last, rounds,
          behind ▸ newline, rfl⟩

/-- Of a text that does not end in whitespace, `HOSTNAME` says that it is short
labels between dots. -/
theorem hostname_isMatch_iff_of_trimmed {s : String}
    (trimmed : ∀ c ∈ s.toList.getLast?, isSpace c = false) :
    hostname.isMatch s = true ↔ ∀ part ∈ s.toList.splitOn '.', ShortLabel part := by
  rw [hostname_isMatch_iff]
  constructor
  · rintro ⟨body, tail, shape, rfl | rfl, all⟩
    · rw [shape, List.append_nil]
      exact all
    · have newline := trimmed '\n' (by rw [shape]; simp)
      exact absurd newline (by decide)
  · intro all
    exact ⟨s.toList, [], by simp, Or.inl rfl, all⟩

/-- The characters of a text `HOSTNAME` matches. -/
theorem mem_of_hostname {s : String} (isName : hostname.isMatch s = true) :
    ∀ c ∈ s.toList, labelChar c = true ∨ c = '.' ∨ c = '\n' := by
  intro c member
  obtain ⟨body, tail, shape, newline, all⟩ := hostname_isMatch_iff.mp isName
  rw [shape, List.mem_append] at member
  rcases member with inBody | inTail
  · rcases eq_or_mem_splitOn '.' inBody with dot | ⟨part, inParts, here⟩
    · exact Or.inr (Or.inl dot)
    · exact Or.inl ((all part inParts).1.labelChars c here)
  · rcases newline with rfl | rfl
    · cases inTail
    · exact Or.inr (Or.inr (List.mem_singleton.mp inTail))

end Plimsoll.TargetPolicy
