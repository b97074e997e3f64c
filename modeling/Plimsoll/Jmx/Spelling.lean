import Plimsoll.Jmx.Variables
import Plimsoll.Jmx.Targets

/-!
How a document spells its references. The search for variables runs over the
source, the tree is what the source stands for, and the two differ: a character
can be given by its number, and a section, a comment or an instruction can stand
in the middle of a text.
-/

namespace Plimsoll.Jmx

open Python

/-! ## Texts between separators -/

section Separators

variable {α : Type} {part front back : List α} {separator : α}

/-- A text without the separator that is in front ends before it. -/
theorem prefix_of_append_cons (absent : separator ∉ part) (start : part <+: front ++ separator :: back) :
    part <+: front := by
  induction front generalizing part with
  | nil =>
      cases part with
      | nil => exact List.nil_prefix
      | cons c part =>
          obtain ⟨rfl, -⟩ := List.cons_prefix_cons.mp start
          exact absurd List.mem_cons_self absent
  | cons x front ih =>
      cases part with
      | nil => exact List.nil_prefix
      | cons c part =>
          obtain ⟨rfl, rest⟩ := List.cons_prefix_cons.mp start
          exact List.cons_prefix_cons.mpr ⟨rfl, ih (mt (List.mem_cons_of_mem _) absent) rest⟩

/-- A text without the separator lies on one side of it. -/
theorem infix_append_cons_iff (absent : separator ∉ part) :
    part <:+: front ++ separator :: back ↔ part <:+: front ∨ part <:+: back := by
  constructor
  · intro occurs
    induction front with
    | nil =>
        rcases List.infix_cons_iff.mp occurs with here | later
        · have start : part <+: [] := prefix_of_append_cons absent here
          exact Or.inl start.isInfix
        · exact Or.inr later
    | cons x front ih =>
        rcases List.infix_cons_iff.mp occurs with here | later
        · have start : part <+: x :: front := prefix_of_append_cons absent here
          exact Or.inl start.isInfix
        · exact (ih later).imp_left fun inside => inside.trans (List.suffix_cons _ _).isInfix
  · rintro (before | after)
    · exact before.trans (List.prefix_append _ _).isInfix
    · exact after.trans ((List.suffix_cons _ _).trans (List.suffix_append _ _)).isInfix

/-- A text without separators lies in one of the words between them. -/
theorem infix_iff_splitOnP {p : α → Bool} (whole : List α) (absent : ∀ c ∈ part, p c = false) :
    part <:+: whole ↔ ∃ word ∈ whole.splitOnP p, part <:+: word := by
  by_cases separated : ∃ c ∈ whole, p c = true
  · obtain ⟨c, member, separates⟩ := separated
    obtain ⟨front, back, rfl⟩ := List.append_of_mem member
    have outside : c ∉ part := fun inside => by
      rw [absent c inside] at separates
      cases separates
    rw [infix_append_cons_iff outside, List.splitOnP_append_cons _ _ separates,
      infix_iff_splitOnP front absent, infix_iff_splitOnP back absent]
    simp only [List.mem_append, or_and_right, exists_or]
  · have single : whole.splitOnP p = [whole] :=
      List.splitOnP_eq_singleton fun c member => by
        simpa using fun separates => separated ⟨c, member, separates⟩
    simp [single]
termination_by whole.length

end Separators

/-! ## The source of a document -/

/-- A character that no reference to a variable has: it delimits markup. -/
def isDelimiter (c : Char) : Bool := c == '<' || c == '>' || c == '&' || c == ';' || c == '"' || c == '\''

/-- White space, as XML has it. -/
def isBlank (c : Char) : Bool := c == ' ' || c == '\t' || c == '\n' || c == '\r'

/-- The words of a text. -/
def words (chars : List Char) : List (List Char) :=
  (chars.splitOnP isBlank).filter fun word => !word.isEmpty

/-- The entities that need no declaration. -/
inductive Entity
  | lt
  | gt
  | amp
  | quot
  | apos
deriving DecidableEq

/-- The name of an entity, and what it stands for. -/
def Entity.spelled : Entity → String × Char
  | .lt => ("lt", '<')
  | .gt => ("gt", '>')
  | .amp => ("amp", '&')
  | .quot => ("quot", '"')
  | .apos => ("apos", '\'')

/-- The number that digits write. -/
def number (base : Nat) (digits : List Char) : Nat :=
  digits.foldl (fun acc c => acc * base + hexDigit c) 0
where
  /-- The digit a character is. -/
  hexDigit (c : Char) : Nat :=
    if c.isDigit then c.toNat - '0'.toNat else c.toLower.toNat - 'a'.toNat + 10

/-- A token of the source. -/
inductive Token
  /-- Characters of a text or a value, and what they are read as: line ends and
  the white space of a value may be normalised. -/
  | run (chars read : List Char)
  /-- `&#36;`. -/
  | decimal (digits : List Char)
  /-- `&#x24;`. -/
  | hexadecimal (digits : List Char)
  /-- `&amp;`. -/
  | entity (named : Entity)
  /-- A section of character data. -/
  | cdata (chars read : List Char)
  | comment (chars : List Char)
  | instruction (chars : List Char)
  /-- A tag, or the part of a tag or a declaration up to a value, between two
  values or behind one. -/
  | markup (chars : List Char)
deriving DecidableEq

namespace Token

/-- The token in the source. -/
def spelling : Token → List Char
  | .run chars _ => chars
  | .decimal digits => '&' :: ('#' :: digits ++ [';'])
  | .hexadecimal digits => '&' :: ('#' :: 'x' :: digits ++ [';'])
  | .entity named => '&' :: (named.spelled.1.toList ++ [';'])
  | .cdata chars _ => '<' :: ("![CDATA[".toList ++ chars ++ "]]".toList ++ ['>'])
  | .comment chars => '<' :: ("!--".toList ++ chars ++ "--".toList ++ ['>'])
  | .instruction chars => '<' :: ('?' :: chars ++ ['?'] ++ ['>'])
  | .markup chars => chars

/-- What the token adds to the text or the value it stands in. -/
def reading : Token → List Char
  | .run _ read => read
  | .decimal digits => [Char.ofNat (number 10 digits)]
  | .hexadecimal digits => [Char.ofNat (number 16 digits)]
  | .entity named => [named.spelled.2]
  | .cdata _ read => read
  | .comment _ => []
  | .instruction _ => []
  | .markup _ => []

/-- The token is characters and nothing around them. -/
def isRun : Token → Bool
  | .run _ _ => true
  | _ => false

/-- The token stands for the characters it is written with. -/
def isVerbatim : Token → Bool
  | .run _ _ => true
  | .cdata _ _ => true
  | _ => false

/-- What XML asks of a token as far as it matters here. -/
def Legal : Token → Prop
  | .run chars read => words read = words chars
  | .cdata chars read => words read = words chars
  | .markup chars => ∃ first middle last, chars = first :: (middle ++ [last]) ∧
      isDelimiter first = true ∧ isDelimiter last = true
  | _ => True

end Token

/-- The texts of a tree: the values of its attributes, what stands in its
elements and what stands behind them. -/
def contents (root : Element) : List String :=
  root.iter.flatMap fun element =>
    element.attrib.items.map Prod.snd ++ element.text.toList ++ element.tail.toList

/-- The tokens of a source, and for each text of the tree the tokens that it is
read from. -/
structure Lexing (source : String) (root : Element) where
  tokens : List Token
  spelled : tokens.flatMap Token.spelling = source.toList
  legal : ∀ token ∈ tokens, token.Legal
  /-- Two runs are never neighbours. -/
  maximal : tokens.IsChain fun left right => (left.isRun && right.isRun) = false
  stretches : List (List Token)
  taken : ∀ stretch ∈ stretches, stretch <:+: tokens
  read : stretches.map (fun stretch => String.ofList (stretch.flatMap Token.reading)) = contents root

/-- A token has the reference in full. -/
def WrittenOut (tokens : List Token) (name : String) : Prop :=
  ∃ token ∈ tokens, reference name <:+: token.spelling

/-- The text read from the tokens has the reference, and no run or section of it
has it alone: a character given by its number, or a break between two tokens,
is part of how it is spelled. -/
def Composed (stretch : List Token) (name : String) : Prop :=
  isVariableName name = true ∧ reference name <:+: stretch.flatMap Token.reading ∧
    ∀ token ∈ stretch, token.isVerbatim = true → ¬ reference name <:+: token.reading

/-! ## References in the source -/

theorem not_mem_reference {name : String} {c : Char} (named : isVariableName name = true)
    (other : wordChar c = false) (outside : c ∉ ['$', '\x7b', '\x7d']) : c ∉ reference name := by
  have word := not_mem_of_isVariableName named other
  simp only [List.mem_cons, List.not_mem_nil, or_false, not_or] at outside
  simp [reference, word, outside]

theorem not_mem_reference_of_isDelimiter {name : String} {c : Char}
    (named : isVariableName name = true) (delimiter : isDelimiter c = true) : c ∉ reference name := by
  simp only [isDelimiter, Bool.or_eq_true, beq_iff_eq] at delimiter
  rcases delimiter with ((((rfl | rfl) | rfl) | rfl) | rfl) | rfl <;>
    exact not_mem_reference named (by decide) (by decide)

theorem not_isBlank_of_mem_reference {name : String} (named : isVariableName name = true) :
    ∀ c ∈ reference name, isBlank c = false := by
  intro c member
  by_contra blank
  simp only [isBlank, Bool.not_eq_false, Bool.or_eq_true, beq_iff_eq] at blank
  rcases blank with ((rfl | rfl) | rfl) | rfl <;>
    exact not_mem_reference named (by decide) (by decide) member

/-- A token that is no run stands between two delimiters. -/
theorem Token.delimited {token : Token} (legal : token.Legal) (other : token.isRun = false) :
    ∃ first middle last, token.spelling = first :: (middle ++ [last]) ∧
      isDelimiter first = true ∧ isDelimiter last = true := by
  cases token with
  | run chars read => cases other
  | decimal digits => exact ⟨_, _, _, rfl, by decide, by decide⟩
  | hexadecimal digits => exact ⟨_, '#' :: 'x' :: digits, _, rfl, by decide, by decide⟩
  | entity named => exact ⟨_, _, _, rfl, by decide, by decide⟩
  | cdata chars read => exact ⟨_, _, _, rfl, by decide, by decide⟩
  | comment chars => exact ⟨_, _, _, rfl, by decide, by decide⟩
  | instruction chars => exact ⟨_, '?' :: chars ++ ['?'], _, rfl, by decide, by decide⟩
  | markup chars => exact legal

/-- A reference in the source lies in one of its tokens. -/
theorem writtenOut_iff {tokens : List Token} {name : String} (named : isVariableName name = true)
    (legal : ∀ token ∈ tokens, token.Legal)
    (maximal : tokens.IsChain fun left right => (left.isRun && right.isRun) = false) :
    reference name <:+: tokens.flatMap Token.spelling ↔ WrittenOut tokens name := by
  constructor
  · intro occurs
    induction tokens with
    | nil => cases List.infix_nil.mp occurs
    | cons token rest ih =>
        have ⟨legalToken, legalRest⟩ := List.forall_mem_cons.mp legal
        have later (inRest : reference name <:+: rest.flatMap Token.spelling) :
            WrittenOut (token :: rest) name := by
          obtain ⟨other, member, within⟩ := ih legalRest maximal.of_cons inRest
          exact ⟨other, List.mem_cons_of_mem _ member, within⟩
        have here (within : reference name <:+: token.spelling) : WrittenOut (token :: rest) name :=
          ⟨token, List.mem_cons_self, within⟩
        rw [List.flatMap_cons] at occurs
        by_cases run : token.isRun = true
        · -- what follows a run starts with a delimiter
          cases rest with
          | nil => exact here (by simpa using occurs)
          | cons next rest =>
              have apart := (List.isChain_cons_cons.mp maximal).1
              rw [run, Bool.true_and] at apart
              obtain ⟨first, middle, last, shape, delimiter, -⟩ :=
                Token.delimited (legalRest next List.mem_cons_self) apart
              rw [List.flatMap_cons, shape, List.cons_append,
                infix_append_cons_iff (not_mem_reference_of_isDelimiter named delimiter)] at occurs
              rcases occurs with within | behind
              · exact here within
              · refine later (behind.trans ?_)
                rw [List.flatMap_cons, shape, List.cons_append]
                exact (List.suffix_cons _ _).isInfix
        · -- any other token ends with one
          obtain ⟨first, middle, last, shape, -, delimiter⟩ :=
            Token.delimited legalToken (Bool.not_eq_true _ ▸ run)
          have split : token.spelling ++ rest.flatMap Token.spelling =
              (first :: middle) ++ last :: rest.flatMap Token.spelling := by
            rw [shape]
            simp
          rw [split, infix_append_cons_iff (not_mem_reference_of_isDelimiter named delimiter)] at occurs
          rcases occurs with before | behind
          · refine here (before.trans ?_)
            rw [shape, ← List.cons_append]
            exact (List.prefix_append _ _).isInfix
          · exact later behind
  · intro ⟨token, member, within⟩
    obtain ⟨front, back, rfl⟩ := List.append_of_mem member
    rw [List.flatMap_append, List.flatMap_cons]
    exact within.trans ((List.prefix_append _ _).isInfix.trans (List.suffix_append _ _).isInfix)

/-- A text without white space lies in a word. -/
theorem infix_iff_words {part chars : List Char} (nonempty : part ≠ [])
    (absent : ∀ c ∈ part, isBlank c = false) :
    part <:+: chars ↔ ∃ word ∈ words chars, part <:+: word := by
  rw [infix_iff_splitOnP chars absent]
  refine exists_congr fun word => ?_
  rw [words, List.mem_filter, and_assoc]
  refine and_congr_right fun _ => (and_iff_right_of_imp fun within => ?_).symm
  cases word with
  | nil => exact absurd (List.infix_nil.mp within) nonempty
  | cons c word => rfl

/-- A token that stands for its own characters is written with the references
it is read as. -/
theorem Token.spelled_of_read {token : Token} {name : String} (named : isVariableName name = true)
    (legal : token.Legal) (verbatim : token.isVerbatim = true)
    (within : reference name <:+: token.reading) : reference name <:+: token.spelling := by
  have inWords (read chars : List Char) (same : words read = words chars)
      (inside : reference name <:+: read) : reference name <:+: chars := by
    have nonempty : reference name ≠ [] := List.cons_ne_nil _ _
    rw [infix_iff_words nonempty (not_isBlank_of_mem_reference named)] at inside ⊢
    rwa [← same]
  cases token with
  | run chars read => exact inWords read chars legal within
  | cdata chars read =>
      have inside := inWords read chars legal within
      exact inside.trans ⟨'<' :: "![CDATA[".toList, "]]".toList ++ ['>'], by simp [Token.spelling]⟩
  | decimal digits => cases verbatim
  | hexadecimal digits => cases verbatim
  | entity other => cases verbatim
  | comment chars => cases verbatim
  | instruction chars => cases verbatim
  | markup chars => cases verbatim

/-! ## The variables of a plan -/

variable {rt : Runtime}

/-- Every reference of the tree is reported exactly when those that are composed
in a text are also written out somewhere in the source. -/
theorem variableNames_complete_iff {source : String} {root : Element} {summary : PlanSummary}
    (lexes : ∀ source root, rt.fromstring source = .ok root → Lexing source root)
    (wellFormed : rt.fromstring source = .ok root) (parsed : parsePlan rt source = .ok summary) :
    (∀ text ∈ contents root, ∀ name, RefersTo text name → name ∈ summary.variableNames) ↔
      ∀ stretch ∈ (lexes source root wellFormed).stretches, ∀ name, Composed stretch name →
        WrittenOut (lexes source root wellFormed).tokens name := by
  generalize lexes source root wellFormed = lexing
  have reported (name : String) (named : isVariableName name = true) :
      name ∈ summary.variableNames ↔ WrittenOut lexing.tokens name := by
    rw [mem_variableNames_iff parsed, RefersTo, and_iff_right named, ← lexing.spelled,
      writtenOut_iff named lexing.legal lexing.maximal]
  constructor
  · rintro complete stretch member name ⟨named, occurs, -⟩
    refine (reported name named).mp (complete (String.ofList (stretch.flatMap Token.reading)) ?_ name ?_)
    · rw [← lexing.read]
      exact List.mem_map_of_mem member
    · exact ⟨named, by rwa [String.toList_ofList]⟩
  · rintro spelled text member name ⟨named, occurs⟩
    rw [← lexing.read] at member
    obtain ⟨stretch, taken, rfl⟩ := List.mem_map.mp member
    rw [String.toList_ofList] at occurs
    refine (reported name named).mpr ?_
    by_cases whole : ∃ token ∈ stretch, token.isVerbatim = true ∧ reference name <:+: token.reading
    · obtain ⟨token, inStretch, verbatim, within⟩ := whole
      have inTokens := (lexing.taken stretch taken).subset inStretch
      exact ⟨token, inTokens, Token.spelled_of_read named (lexing.legal token inTokens) verbatim within⟩
    · refine spelled stretch taken name ⟨named, occurs, fun token inStretch verbatim within => ?_⟩
      exact whole ⟨token, inStretch, verbatim, within⟩

/-! ## A dollar sign by its number -/

/-- A property whose value refers to `API_TOKEN`. -/
def tokenProperty : Element where
  tag := "stringProp"
  attrib := Dict.ofList [("name", "Header.value")]
  text := some "$\x7bAPI_TOKEN\x7d"
  children := []
  tail := none

/-- The tokens of a document with this property, behind what is in `front`. The
dollar sign is written `&#36;`. -/
def tokenTokens (front : List Token) : List Token :=
  let plain (text : String) : Token := .run text.toList text.toList
  front ++ [.markup "<stringProp name=\"".toList, plain "Header.value", .markup "\">".toList,
    .decimal ['3', '6'], plain "\x7bAPI_TOKEN\x7d", .markup "</stringProp>".toList]

/-- Its source. -/
def tokenSource (front : List Token) : String := String.ofList ((tokenTokens front).flatMap Token.spelling)

/-- A comment that has the reference. -/
def tokenComment : Token := .comment " $\x7bAPI_TOKEN\x7d ".toList

/-- The document, read. -/
def tokenLexing (front : List Token) (legal : ∀ token ∈ tokenTokens front, token.Legal)
    (maximal : (tokenTokens front).IsChain fun left right => (left.isRun && right.isRun) = false) :
    Lexing (tokenSource front) tokenProperty where
  tokens := tokenTokens front
  spelled := String.toList_ofList.symm
  legal := legal
  maximal := maximal
  stretches := [[(tokenTokens []).get ⟨1, by decide⟩], ((tokenTokens []).drop 3).take 2]
  taken := by
    intro stretch member
    refine List.IsInfix.trans ?_ (List.suffix_append front _).isInfix
    revert stretch
    decide
  read := by decide +kernel

theorem legal_tokenTokens {front : List Token} (legal : ∀ token ∈ front, token.Legal) :
    ∀ token ∈ tokenTokens front, token.Legal := by
  intro token member
  rw [tokenTokens, List.mem_append] at member
  rcases member with before | within
  · exact legal token before
  · simp only [List.mem_cons, List.not_mem_nil, or_false] at within
    rcases within with rfl | rfl | rfl | rfl | rfl | rfl
    · exact ⟨'<', "stringProp name=".toList, '"', rfl, rfl, rfl⟩
    · exact rfl
    · exact ⟨'"', [], '>', rfl, rfl, rfl⟩
    · exact trivial
    · exact rfl
    · exact ⟨'<', "/stringProp".toList, '>', rfl, rfl, rfl⟩

/-- The one document that `reading` reads has its tokens. -/
def lexesOne {source : String} {root : Element} (lexing : Lexing source root) :
    ∀ other tree, (reading source root).fromstring other = .ok tree → Lexing other tree := by
  intro other tree wellFormed
  have same : other = source ∧ root = tree := by
    rw [reading] at wellFormed
    by_cases eq : other = source
    · exact ⟨eq, Except.ok.inj ((if_pos eq).symm.trans wellFormed)⟩
    · cases (if_neg eq).symm.trans wellFormed
  rw [same.1, ← same.2]
  exact lexing

/-- The document alone, and behind the comment. -/
def alone : Lexing (tokenSource []) tokenProperty :=
  tokenLexing [] (legal_tokenTokens (fun _ member => (nomatch member))) (by decide)

def commented : Lexing (tokenSource [tokenComment]) tokenProperty :=
  tokenLexing [tokenComment]
    (legal_tokenTokens fun _ member => List.mem_singleton.mp member ▸ trivial) (by decide)

theorem parsePlan_tokenSource (front : List Token) {names : List String}
    (found : variableRef.findall (tokenSource front) = names) (single : sortedSet SetOrder.listed names = names) :
    parsePlan (reading (tokenSource front) tokenProperty) (tokenSource front) =
      .ok { variableNames := names } :=
  parsePlan_reading _ _ rfl found single

theorem variableNames_complete_iff_commented :
    (∀ text ∈ contents tokenProperty, ∀ name, RefersTo text name → name ∈ ["API_TOKEN"]) ↔
      ∀ stretch ∈ commented.stretches, ∀ name, Composed stretch name →
        WrittenOut commented.tokens name :=
  variableNames_complete_iff (lexesOne commented) (reading_fromstring _ _)
    (parsePlan_tokenSource [tokenComment] (by decide +kernel) (by decide +kernel))

/-- A reference whose dollar sign is written by its number is not reported. -/
theorem numbered_reference_unreported :
    ¬ ∀ (rt : Runtime), (∀ source root, rt.fromstring source = .ok root → Nonempty (Lexing source root)) →
      ∀ (source : String) (root : Element) (summary : PlanSummary),
        rt.fromstring source = .ok root → parsePlan rt source = .ok summary →
          ∀ text ∈ contents root, ∀ name, RefersTo text name → name ∈ summary.variableNames := by
  intro complete
  have reads (source : String) (root : Element)
      (wellFormed : (reading (tokenSource []) tokenProperty).fromstring source = .ok root) :
      Nonempty (Lexing source root) := ⟨lexesOne alone source root wellFormed⟩
  have nothing : variableRef.findall (tokenSource []) = [] := by decide +kernel
  have parsed := parsePlan_tokenSource [] nothing rfl
  have member := complete _ reads _ _ _ (reading_fromstring _ _) parsed
    "$\x7bAPI_TOKEN\x7d" (by decide +kernel) "API_TOKEN" (by decide +kernel)
  cases member

end Plimsoll.Jmx
