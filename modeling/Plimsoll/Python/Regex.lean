import Plimsoll.Python.Text
import Mathlib.Logic.Relation

/-!
The part of `re` that simple validators use: one-character classes, greedy
repetition, one group, the anchors, and the two negative look-arounds.

`Regex.run` lists every place a pattern can stop, in the order the backtracking
matcher tries them, so its head is what `re.match` returns. Proofs use only
which places are in the list: each construct has one membership lemma.
-/

namespace Python

/-- A place in a text, and what the group has captured on the way there.
`before` is reversed. -/
structure Cursor where
  before : List Char
  after : List Char
  group : Option (List Char)
deriving DecidableEq, Repr

/-- Move over the first `n` characters. -/
def Cursor.advance (cur : Cursor) (n : Nat) : Cursor :=
  ⟨(cur.after.take n).reverse ++ cur.before, cur.after.drop n, cur.group⟩

/-- Move over the text `cs` that stands in front of `rest`. -/
def Cursor.over (cur : Cursor) (cs rest : List Char) : Cursor :=
  ⟨cs.reverse ++ cur.before, rest, cur.group⟩

/-- A pattern. `repeated p lo hi` is the class repeat `[p]{lo,hi}`, unbounded
when `hi` is absent; `atEnd` is `$`, which also matches in front of a newline
that ends the text. -/
inductive Regex where
  | char (accepts : Char → Bool)
  | repeated (accepts : Char → Bool) (lo : Nat) (hi : Option Nat)
  | seq (first second : Regex)
  | star (body : Regex)
  | group (body : Regex)
  | atStart
  | atEnd
  | notAhead (body : Regex)
  | notBehind (accepts : Char → Bool)

namespace Regex

/-- Greedy repetition of `step`: one more round first, stopping here last. A
round that consumes nothing is not taken. -/
def runStar (step : Cursor → List Cursor) : Nat → Cursor → List Cursor
  | 0, cur => [cur]
  | fuel + 1, cur =>
      ((step cur).filter fun next => next.after.length < cur.after.length).flatMap
        (runStar step fuel) ++ [cur]

/-- The places where `r` can stop when it starts at `cur`, best first. -/
def run : Regex → Cursor → List Cursor
  | .char accepts, cur =>
      match cur.after with
      | [] => []
      | c :: rest => if accepts c then [cur.over [c] rest] else []
  | .repeated accepts lo hi, cur =>
      let available := (cur.after.takeWhile accepts).length
      let most := min available (hi.getD available)
      ((List.range (most + 1)).reverse.filter fun n => lo ≤ n).map cur.advance
  | .seq first second, cur => (first.run cur).flatMap second.run
  | .star body, cur => runStar body.run cur.after.length cur
  | .group body, cur =>
      (body.run cur).map fun stop =>
        { stop with group := some (cur.after.take (cur.after.length - stop.after.length)) }
  | .atStart, cur => if cur.before = [] then [cur] else []
  | .atEnd, cur => if cur.after = [] ∨ cur.after = ['\n'] then [cur] else []
  | .notAhead body, cur => if body.run cur = [] then [cur] else []
  | .notBehind accepts, cur =>
      match cur.before with
      | [] => [cur]
      | c :: _ => if accepts c then [] else [cur]

/-- The start of a text. -/
def start (s : String) : Cursor := ⟨[], s.toList, none⟩

/-- `pattern.match(s)`: the place the match ends, with its group. -/
def firstMatch (r : Regex) (s : String) : Option Cursor := (r.run (start s)).head?

/-- `pattern.match(s) is not None`. -/
def isMatch (r : Regex) (s : String) : Bool := (r.firstMatch s).isSome

/-- The captures of the matches from left to right, each search starting where
the last match ended; for patterns that match no empty text. -/
def findallFrom (r : Regex) : Nat → Cursor → List String
  | 0, _ => []
  | fuel + 1, cur =>
      match (r.run cur).head?, cur.after with
      | some stop, _ =>
          String.ofList (stop.group.getD []) :: r.findallFrom fuel { stop with group := none }
      | none, [] => []
      | none, c :: rest => r.findallFrom fuel (cur.over [c] rest)

/-- `pattern.findall(s)` of a pattern with one group that matches no empty text. -/
def findall (r : Regex) (s : String) : List String :=
  r.findallFrom (s.toList.length + 1) (start s)

/-! ## Where each construct can stop -/

variable {r r₁ r₂ : Regex} {cur stop : Cursor} {accepts : Char → Bool}

theorem isMatch_iff {s : String} : r.isMatch s = true ↔ ∃ stop, stop ∈ r.run (start s) := by
  rw [isMatch, firstMatch]
  cases r.run (start s) with
  | nil => simp
  | cons first rest => simp

theorem mem_run_char :
    stop ∈ (Regex.char accepts).run cur ↔
      ∃ c rest, cur.after = c :: rest ∧ accepts c = true ∧ stop = cur.over [c] rest := by
  change stop ∈ (match cur.after with
    | [] => []
    | c :: rest => if accepts c then [cur.over [c] rest] else []) ↔ _
  cases cur.after with
  | nil => simp
  | cons c rest => by_cases ok : accepts c = true <;> simp [ok]

theorem mem_run_seq :
    stop ∈ (Regex.seq r₁ r₂).run cur ↔ ∃ mid, mid ∈ r₁.run cur ∧ stop ∈ r₂.run mid :=
  List.mem_flatMap

theorem mem_run_atStart : stop ∈ Regex.atStart.run cur ↔ cur.before = [] ∧ stop = cur := by
  change stop ∈ (if cur.before = [] then [cur] else []) ↔ _
  by_cases here : cur.before = [] <;> simp [here]

theorem mem_run_atEnd :
    stop ∈ Regex.atEnd.run cur ↔ (cur.after = [] ∨ cur.after = ['\n']) ∧ stop = cur := by
  change stop ∈ (if cur.after = [] ∨ cur.after = ['\n'] then [cur] else []) ↔ _
  by_cases here : cur.after = [] ∨ cur.after = ['\n'] <;> simp [here]

theorem mem_run_notAhead :
    stop ∈ (Regex.notAhead r).run cur ↔ r.run cur = [] ∧ stop = cur := by
  change stop ∈ (if r.run cur = [] then [cur] else []) ↔ _
  by_cases here : r.run cur = [] <;> simp [here]

theorem mem_run_notAhead_char :
    stop ∈ (Regex.notAhead (.char accepts)).run cur ↔
      (∀ c ∈ cur.after.head?, accepts c = false) ∧ stop = cur := by
  rw [mem_run_notAhead, List.eq_nil_iff_forall_not_mem]
  simp only [mem_run_char]
  cases cur.after with
  | nil => simp
  | cons c rest => by_cases ok : accepts c = true <;> simp [ok]

theorem mem_run_notBehind :
    stop ∈ (Regex.notBehind accepts).run cur ↔
      (∀ c ∈ cur.before.head?, accepts c = false) ∧ stop = cur := by
  change stop ∈ (match cur.before with
    | [] => [cur]
    | c :: _ => if accepts c then [] else [cur]) ↔ _
  cases cur.before with
  | nil => simp
  | cons c rest => by_cases ok : accepts c = true <;> simp [ok]

/-- What lies between two places is what was consumed on the way. -/
theorem take_consumed (cs rest : List Char) :
    (cs ++ rest).take ((cs ++ rest).length - rest.length) = cs :=
  List.take_left' (by simp)

/-- A group stops where its body stops and captures what lies between. -/
theorem mem_run_group :
    stop ∈ (Regex.group r).run cur ↔
      ∃ inner ∈ r.run cur,
        stop = { inner with
          group := some (cur.after.take (cur.after.length - inner.after.length)) } := by
  refine List.mem_map.trans ?_
  constructor
  · rintro ⟨inner, member, rfl⟩
    exact ⟨inner, member, rfl⟩
  · rintro ⟨inner, member, rfl⟩
    exact ⟨inner, member, rfl⟩

/-- A class repeat stops after any text of the class whose length is in range. -/
theorem mem_run_repeated {lo : Nat} {hi : Option Nat} :
    stop ∈ (Regex.repeated accepts lo hi).run cur ↔
      ∃ cs rest, cur.after = cs ++ rest ∧ (∀ c ∈ cs, accepts c = true) ∧ lo ≤ cs.length ∧
        (∀ most ∈ hi, cs.length ≤ most) ∧ stop = cur.over cs rest := by
  change stop ∈ ((List.range (min (cur.after.takeWhile accepts).length
    (hi.getD (cur.after.takeWhile accepts).length) + 1)).reverse.filter
      fun n => lo ≤ n).map cur.advance ↔ _
  simp only [List.mem_map, List.mem_filter, List.mem_reverse, List.mem_range, decide_eq_true_eq]
  constructor
  · rintro ⟨n, ⟨inRange, enough⟩, rfl⟩
    have available : n ≤ (cur.after.takeWhile accepts).length := by omega
    have length : (cur.after.take n).length = n := by
      have := (List.takeWhile_prefix accepts (l := cur.after)).length_le
      simp only [List.length_take]
      omega
    refine ⟨cur.after.take n, cur.after.drop n, (List.take_append_drop n _).symm, ?_,
      by omega, ?_, rfl⟩
    · intro c member
      have inPrefix : c ∈ (cur.after.takeWhile accepts).take n := by
        obtain ⟨tail, cut⟩ := List.takeWhile_prefix accepts (l := cur.after)
        rw [← cut, List.take_append_of_le_length available] at member
        exact member
      exact List.mem_takeWhile_imp (List.mem_of_mem_take inPrefix)
    · intro most bound
      rw [Option.mem_def] at bound
      simp only [bound, Option.getD_some] at inRange
      omega
  · rintro ⟨cs, rest, shape, ok, enough, bounded, rfl⟩
    have available : cs.length ≤ (cur.after.takeWhile accepts).length := by
      rw [shape, List.takeWhile_append_of_pos ok]
      simp
    refine ⟨cs.length, ⟨?_, enough⟩, ?_⟩
    · cases hi with
      | none => simp only [Option.getD_none]; omega
      | some most =>
          have := bounded most rfl
          simp only [Option.getD_some]
          omega
    · rw [Cursor.advance, Cursor.over, shape]
      simp

/-! ## Repetition -/

/-- One round of a repetition that consumes something. -/
def Round (r : Regex) (a b : Cursor) : Prop :=
  b ∈ r.run a ∧ b.after.length < a.after.length

theorem round_of_mem_runStar {fuel : Nat} :
    ∀ {cur}, stop ∈ runStar r.run fuel cur → Relation.ReflTransGen r.Round cur stop := by
  induction fuel with
  | zero =>
      intro cur member
      rw [runStar, List.mem_singleton] at member
      exact member ▸ .refl
  | succ fuel ih =>
      intro cur member
      rw [runStar, List.mem_append, List.mem_flatMap, List.mem_singleton] at member
      rcases member with ⟨next, round, later⟩ | rfl
      · rw [List.mem_filter, decide_eq_true_eq] at round
        exact .head round (ih later)
      · exact .refl

theorem mem_runStar_of_round (rounds : Relation.ReflTransGen r.Round cur stop) :
    ∀ {fuel}, cur.after.length ≤ fuel → stop ∈ runStar r.run fuel cur := by
  induction rounds using Relation.ReflTransGen.head_induction_on with
  | refl =>
      intro fuel _
      cases fuel <;> simp [runStar]
  | @head cur next round _ ih =>
      intro fuel enough
      cases fuel with
      | zero =>
          have := round.2
          omega
      | succ fuel =>
          rw [runStar, List.mem_append, List.mem_flatMap]
          refine Or.inl ⟨next, ?_, ih (by have := round.2; omega)⟩
          rw [List.mem_filter, decide_eq_true_eq]
          exact round

/-- A repetition stops exactly where its rounds lead: the fuel, the length of
the remaining text, is always enough. -/
theorem mem_run_star :
    stop ∈ (Regex.star r).run cur ↔ Relation.ReflTransGen r.Round cur stop := by
  change stop ∈ runStar r.run cur.after.length cur ↔ _
  exact ⟨round_of_mem_runStar, fun rounds => mem_runStar_of_round rounds le_rfl⟩

end Regex

end Python
