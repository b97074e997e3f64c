import Plimsoll.Jmx.Targets

/-!
The references that `VARIABLE.findall` finds. A reference is `${NAME}` with the
name of a variable, and every one that stands in a text is found: two
references cannot overlap.
-/

namespace Plimsoll.Jmx

open Python Regex

/-! ## References -/

/-- A letter or an underscore, and behind it letters, digits and underscores. -/
def isIdentifier (name : String) : Bool :=
  match name.toList with
  | [] => false
  | c :: rest => startChar c && rest.all wordChar

/-- The name of a variable: a letter or an underscore, then letters, digits and
underscores, and no two underscores in front. -/
def isVariableName (name : String) : Bool :=
  match name.toList with
  | [] => false
  | c :: rest => startChar c && rest.all wordChar && !(c == '_' && rest.head? == some '_')

/-- `${NAME}`. -/
def reference (name : String) : List Char := '$' :: '\x7b' :: (name.toList ++ ['\x7d'])

/-- The text refers to a variable of this name. -/
def RefersTo (text name : String) : Prop :=
  isVariableName name = true ∧ reference name <:+: text.toList

instance (text name : String) : Decidable (RefersTo text name) :=
  inferInstanceAs (Decidable (_ ∧ _))

theorem wordChar_of_startChar {c : Char} (start : startChar c = true) : wordChar c = true := by
  simp only [startChar, wordChar, Char.isAlphanum, Bool.or_eq_true] at start ⊢
  rcases start with alpha | underscore
  · exact Or.inl (Or.inl alpha)
  · exact Or.inr underscore

theorem isIdentifier_iff {name : String} :
    isIdentifier name = true ↔ ∃ c rest, name.toList = c :: rest ∧ startChar c = true ∧
      ∀ d ∈ rest, wordChar d = true := by
  unfold isIdentifier
  cases name.toList with
  | nil => simp
  | cons c rest =>
      simp only [Bool.and_eq_true, List.all_eq_true]
      constructor
      · intro ⟨start, words⟩
        exact ⟨c, rest, rfl, start, words⟩
      · rintro ⟨_, _, shape, start, words⟩
        cases shape
        exact ⟨start, words⟩

/-- The name of a variable is an identifier without two underscores in front. -/
theorem isVariableName_iff {name : String} :
    isVariableName name = true ↔ isIdentifier name = true ∧ startsWith name "__" = false := by
  have twice (c : Char) (rest : List Char) :
      "__".toList.isPrefixOf (c :: rest) = (c == '_' && rest.head? == some '_') := by
    change ('_' == c && ['_'].isPrefixOf rest) = _
    rw [Bool.beq_comm]
    cases rest with
    | nil => rfl
    | cons d rest =>
        change (c == '_' && ('_' == d && [].isPrefixOf rest)) = (c == '_' && (some d == some '_'))
        have flipped : ('_' == d) = (d == '_') := Bool.beq_comm
        rw [List.isPrefixOf_nil_left, Bool.and_true, flipped]
        rfl
  rw [isVariableName, isIdentifier, startsWith]
  cases name.toList with
  | nil => simp
  | cons c rest =>
      dsimp only
      rw [twice, Bool.and_eq_true, Bool.not_eq_true']

/-- An identifier is of word characters. -/
theorem wordChar_of_isIdentifier {name : String} (identifier : isIdentifier name = true) :
    ∀ c ∈ name.toList, wordChar c = true := by
  obtain ⟨c, rest, shape, start, words⟩ := isIdentifier_iff.mp identifier
  rw [shape]
  exact List.forall_mem_cons.mpr ⟨wordChar_of_startChar start, words⟩

theorem wordChar_of_isVariableName {name : String} (named : isVariableName name = true) :
    ∀ c ∈ name.toList, wordChar c = true :=
  wordChar_of_isIdentifier (isVariableName_iff.mp named).1

theorem not_mem_of_isVariableName {name : String} {c : Char} (named : isVariableName name = true)
    (other : wordChar c = false) : c ∉ name.toList := by
  intro member
  rw [wordChar_of_isVariableName named c member] at other
  cases other

/-! ## The pattern -/

/-- Two underscores are ahead. -/
theorem run_twoUnderscores {cur : Cursor} :
    (Regex.seq (.char (· == '_')) (.char (· == '_'))).run cur = [] ↔
      ∀ rest, cur.after ≠ '_' :: '_' :: rest := by
  rw [List.eq_nil_iff_forall_not_mem]
  simp only [mem_run_seq, mem_run_char, beq_iff_eq]
  constructor
  · intro none rest ahead
    exact none _ ⟨_, ⟨_, _, ahead, rfl, rfl⟩, _, _, rfl, rfl, rfl⟩
  · rintro absent stop ⟨mid, ⟨c, rest, ahead, rfl, rfl⟩, d, rest', next, rfl, rfl⟩
    change rest = _ at next
    exact absent rest' (by rw [ahead, next])

/-- The group stops behind an identifier, and captures it. -/
theorem mem_run_identifier {cur stop : Cursor} :
    stop ∈ (Regex.group (.seq (.char startChar) (.repeated wordChar 0 none))).run cur ↔
      ∃ name rest, isIdentifier name = true ∧ cur.after = name.toList ++ rest ∧
        stop = ⟨name.toList.reverse ++ cur.before, rest, some name.toList⟩ := by
  simp only [mem_run_group, mem_run_seq, mem_run_char, mem_run_repeated]
  constructor
  · rintro ⟨_, ⟨_, ⟨c, rest, head, start, rfl⟩, cs, tail, body, words, -, -, rfl⟩, rfl⟩
    change rest = cs ++ tail at body
    subst body
    have whole : cur.after = c :: cs ++ tail := head
    refine ⟨String.ofList (c :: cs), tail, ?_, ?_, ?_⟩
    · exact isIdentifier_iff.mpr ⟨c, cs, String.toList_ofList, start, words⟩
    · rw [String.toList_ofList, whole]
    · simp only [Cursor.over, String.toList_ofList, Cursor.mk.injEq]
      refine ⟨by simp, trivial, congrArg some ?_⟩
      rw [whole, take_consumed]
  · rintro ⟨name, rest, named, after, rfl⟩
    obtain ⟨c, cs, shape, start, words⟩ := isIdentifier_iff.mp named
    rw [shape] at after
    refine ⟨_, ⟨_, ⟨c, cs ++ rest, after, start, rfl⟩, cs, rest, rfl, words, Nat.zero_le _, ?_,
      rfl⟩, ?_⟩
    · intro most impossible
      cases impossible
    · simp only [Cursor.over, shape, Cursor.mk.injEq]
      refine ⟨by simp, trivial, congrArg some ?_⟩
      rw [after]
      exact (take_consumed _ _).symm

/-- The pattern stops behind a reference, with its name captured. -/
theorem mem_run_variableRef {cur stop : Cursor} :
    stop ∈ variableRef.run cur ↔ ∃ name rest, isVariableName name = true ∧
      cur.after = reference name ++ rest ∧
      stop = ⟨(reference name).reverse ++ cur.before, rest, some name.toList⟩ := by
  unfold variableRef
  simp only [mem_run_seq, mem_run_char, mem_run_notAhead, mem_run_identifier, run_twoUnderscores,
    beq_iff_eq]
  constructor
  · rintro ⟨_, ⟨_, front, after, rfl, rfl⟩, _, ⟨_, inside, brace, rfl, rfl⟩, _, ⟨single, rfl⟩, _,
      ⟨name, rest, identifier, body, rfl⟩, _, behind, close, rfl, rfl⟩
    change front = _ at brace
    change inside = _ at body
    change rest = _ at close
    subst close body brace
    refine ⟨name, behind, ?_, ?_, ?_⟩
    · refine isVariableName_iff.mpr ⟨identifier, Bool.eq_false_iff.mpr fun reserved => ?_⟩
      obtain ⟨more, shape⟩ := startsWith_iff.mp reserved
      exact single (more ++ '\x7d' :: behind) (by rw [← shape]; rfl)
    · rw [after, reference]
      simp
    · simp [Cursor.over, reference]
  · rintro ⟨name, rest, named, after, rfl⟩
    obtain ⟨identifier, free⟩ := isVariableName_iff.mp named
    have braced : cur.after = '$' :: '\x7b' :: (name.toList ++ '\x7d' :: rest) := by
      rw [after, reference]
      simp
    refine ⟨_, ⟨_, _, braced, rfl, rfl⟩, _, ⟨_, _, rfl, rfl, rfl⟩, _, ⟨?_, rfl⟩, _,
      ⟨name, '\x7d' :: rest, identifier, rfl, rfl⟩, _, rest, rfl, rfl, ?_⟩
    · intro more twice
      have reserved : startsWith name "__" = true := by
        change name.toList ++ '\x7d' :: rest = _ at twice
        obtain ⟨c, cs, shape, -, -⟩ := isIdentifier_iff.mp identifier
        rw [shape, List.cons_append] at twice
        obtain ⟨rfl, next⟩ := List.cons.inj twice
        cases cs with
        | nil => cases next
        | cons d cs =>
            obtain ⟨rfl, -⟩ := List.cons.inj next
            exact startsWith_iff.mpr (shape ▸ ⟨cs, rfl⟩)
      rw [reserved] at free
      cases free
    · simp [Cursor.over, reference]

/-! ## All references of a text -/

/-- A text that starts with a character starts in none of the places before it. -/
theorem cons_infix_append {α : Type} {first : α} {rest front back : List α}
    (absent : first ∉ front) :
    first :: rest <:+: front ++ back ↔ first :: rest <:+: back := by
  induction front with
  | nil => rfl
  | cons x front ih =>
      have ⟨other, later⟩ := not_or.mp (mt List.mem_cons.mpr absent)
      rw [List.cons_append, List.infix_cons_iff, ih later, or_iff_right]
      exact fun start => other (List.cons_prefix_cons.mp start).1

/-- A name ends where the brace closes. -/
theorem takeWhile_name {name : String} (identifier : isIdentifier name = true) (rest : List Char) :
    (name.toList ++ '\x7d' :: rest).takeWhile wordChar = name.toList := by
  rw [List.takeWhile_append_of_pos (wordChar_of_isIdentifier identifier),
    List.takeWhile_cons_of_neg (by decide), List.append_nil]

/-- Of two references in front of a text, one is the other. -/
theorem name_eq_of_references {name other : String} {rest : List Char}
    (identifier : isIdentifier name = true) (otherIdentifier : isIdentifier other = true)
    (start : reference name <+: reference other ++ rest) : name = other := by
  obtain ⟨tail, whole⟩ := start
  simp only [reference, List.cons_append, List.append_assoc, List.cons.injEq, true_and,
    List.nil_append] at whole
  have words := congrArg (List.takeWhile wordChar) whole
  rw [takeWhile_name identifier, takeWhile_name otherIdentifier] at words
  exact String.toList_inj.mp words

/-- The search finds every reference. -/
theorem mem_findallFrom_variableRef {fuel : Nat} {cur : Cursor} {name : String}
    (enough : cur.after.length < fuel) :
    name ∈ variableRef.findallFrom fuel cur ↔
      isVariableName name = true ∧ reference name <:+: cur.after := by
  induction fuel generalizing cur with
  | zero => cases enough
  | succ fuel ih =>
      rw [findallFrom]
      cases found : (variableRef.run cur).head? with
      | some stop =>
          obtain ⟨other, rest, otherNamed, after, rfl⟩ :=
            mem_run_variableRef.mp (List.mem_of_mem_head? found)
          have shorter : rest.length < fuel := by
            rw [after, List.length_append] at enough
            have : 0 < (reference other).length := Nat.zero_lt_succ _
            omega
          dsimp only
          rw [List.mem_cons, ih shorter, after, Option.getD_some, String.ofList_toList]
          constructor
          · rintro (rfl | ⟨named, later⟩)
            · exact ⟨otherNamed, (List.prefix_append _ _).isInfix⟩
            · exact ⟨named, later.trans (List.suffix_append _ _).isInfix⟩
          · intro ⟨named, occurs⟩
            rcases List.infix_cons_iff.mp occurs with here | later
            · exact Or.inl (name_eq_of_references (isVariableName_iff.mp named).1
                (isVariableName_iff.mp otherNamed).1 here)
            · refine Or.inr ⟨named, ?_⟩
              -- no reference starts inside another
              have inside : '$' ∉ '\x7b' :: (other.toList ++ ['\x7d']) := by
                have word := not_mem_of_isVariableName otherNamed (c := '$') (by decide)
                simp [word]
              exact (cons_infix_append inside).mp later
      | none =>
          have nothing : ∀ stop, stop ∉ variableRef.run cur := by
            rw [List.head?_eq_none_iff] at found
            simp [found]
          cases rest : cur.after with
          | nil =>
              dsimp only
              refine iff_of_false List.not_mem_nil fun ⟨_, occurs⟩ => ?_
              cases List.infix_nil.mp occurs
          | cons c rest' =>
              dsimp only
              have shorter : rest'.length < fuel := by
                rw [rest, List.length_cons] at enough
                omega
              rw [ih shorter, List.infix_cons_iff]
              refine and_congr_right fun named => (or_iff_right ?_).symm
              intro ⟨tail, here⟩
              exact nothing _ (mem_run_variableRef.mpr ⟨name, tail, named, by rw [rest, here], rfl⟩)

theorem mem_findall_variableRef {text name : String} :
    name ∈ variableRef.findall text ↔ RefersTo text name :=
  mem_findallFrom_variableRef (Nat.lt_succ_self _)

/-- A plan is parsed when its document is, and every port on the way; the rest is
the summary. -/
theorem parsePlan_ok_iff {rt : Runtime} {text : String} {summary : PlanSummary} :
    parsePlan rt text = .ok summary ↔ ∃ root looped scan, rt.fromstring text = .ok root ∧
      visitAll rt {} root.iter = .ok looped ∧ addDefaults rt looped = .ok scan ∧
      summary = summarize rt text scan := by
  constructor
  · intro parsed
    rw [parsePlan] at parsed
    split at parsed
    · cases parsed
    · rename_i root read
      split at parsed
      · cases parsed
      · rename_i looped loop
        split at parsed
        · cases parsed
        · rename_i scan added
          exact ⟨root, looped, scan, read, loop, added, (Except.ok.inj parsed).symm⟩
  · rintro ⟨root, looped, scan, read, loop, added, rfl⟩
    rw [parsePlan, read]
    dsimp only
    rw [loop]
    dsimp only
    rw [added]

theorem variableNames_eq {rt : Runtime} {text : String} {summary : PlanSummary}
    (parsed : parsePlan rt text = .ok summary) :
    summary.variableNames = sortedSet rt.sets (variableRef.findall text) := by
  obtain ⟨_, _, _, -, -, -, rfl⟩ := parsePlan_ok_iff.mp parsed
  rfl

/-- The variables of a plan are those its text refers to. -/
theorem mem_variableNames_iff {rt : Runtime} {text name : String} {summary : PlanSummary}
    (parsed : parsePlan rt text = .ok summary) :
    name ∈ summary.variableNames ↔ RefersTo text name := by
  rw [variableNames_eq parsed, mem_sortedSet, mem_findall_variableRef]

/-! ## Exactly the references -/

/-- `${NAME}`, the text. -/
def referenceText (name : String) : String := "$\x7b" ++ name ++ "\x7d"

@[simp] theorem toList_referenceText (name : String) :
    (referenceText name).toList = reference name := by
  rw [referenceText, String.toList_append, String.toList_append]
  rfl

theorem mem_variableNames_iff_contains {rt : Runtime} {text : String} {summary : PlanSummary}
    (parsed : parsePlan rt text = .ok summary) (name : String) :
    name ∈ summary.variableNames ↔ contains text (referenceText name) = true ∧
      isIdentifier name = true ∧ startsWith name "__" = false := by
  rw [mem_variableNames_iff parsed, RefersTo, isVariableName_iff, contains_iff,
    toList_referenceText, and_comm]

/-- The variables of a plan in strict order, once each: the identifiers without two
underscores in front whose reference occurs in the text. -/
theorem variableNames_exact {rt : Runtime} {text : String} {summary : PlanSummary}
    (parsed : parsePlan rt text = .ok summary) :
    summary.variableNames.Pairwise (· < ·) ∧ summary.variableNames.Nodup ∧
      ∀ name, name ∈ summary.variableNames ↔ contains text (referenceText name) = true ∧
        isIdentifier name = true ∧ startsWith name "__" = false := by
  have ordered : summary.variableNames.Pairwise (· < ·) := by
    rw [variableNames_eq parsed]
    exact pairwise_lt_sortedSet _ _
  exact ⟨ordered, ordered.imp fun less => ne_of_lt less, mem_variableNames_iff_contains parsed⟩

/-- What `reading` makes of a document without samplers and defaults. -/
theorem parsePlan_reading (text : String) (root : Element) {found names : List String}
    (nothing : visitAll (reading text root) {} root.iter = .ok {})
    (all : variableRef.findall text = found) (sorted : sortedSet SetOrder.listed found = names) :
    parsePlan (reading text root) text = .ok { variableNames := names } := by
  refine parsePlan_ok_iff.mpr ⟨root, _, _, reading_fromstring _ _, nothing, rfl, ?_⟩
  rw [summarize, all]
  exact congrArg (fun names : List String => { ({} : PlanSummary) with variableNames := names })
    sorted.symm

/-- A text where references are nested, broken off, adjacent and repeated. -/
def nestedText : String :=
  "$$\x7bB$\x7b$\x7bHOST\x7d\x7d$\x7b__f\x7d$\x7bHOST\x7d$\x7b_A1\x7d$\x7b1A\x7d"

/-- Its document. -/
def nestedElement : Element where
  tag := "p"
  attrib := Dict.empty
  text := some nestedText
  children := []
  tail := none

theorem variableNames_exact_nested :
    ["HOST", "_A1"].Pairwise (· < ·) ∧ ["HOST", "_A1"].Nodup ∧
      ∀ name, name ∈ ["HOST", "_A1"] ↔
        contains ("<p>" ++ nestedText ++ "</p>") (referenceText name) = true ∧
          isIdentifier name = true ∧ startsWith name "__" = false :=
  variableNames_exact (parsePlan_reading _ nestedElement rfl
    (show _ = ["HOST", "HOST", "_A1"] by decide +kernel) (by decide +kernel))

end Plimsoll.Jmx
