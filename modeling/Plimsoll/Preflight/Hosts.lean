import Plimsoll.Jmx.Variables
import Plimsoll.Preflight

/-!
Two patterns for one question: which references the parser reports, and which
host the preflight reads a stored variable for. `WHOLE_VARIABLE` is anchored at
both ends and has no look-ahead.
-/

namespace Plimsoll.Preflight

open Python Regex Jmx

/-! ## The anchored pattern -/

/-- The pattern matches a reference, and a newline may follow it. -/
theorem mem_run_wholeVariable {text : String} {stop : Cursor} :
    stop ∈ wholeVariable.run (Regex.start text) ↔ ∃ name rest, isIdentifier name = true ∧
      text.toList = reference name ++ rest ∧ (rest = [] ∨ rest = ['\n']) ∧
      stop = ⟨(reference name).reverse, rest, some name.toList⟩ := by
  unfold wholeVariable
  simp only [mem_run_seq, mem_run_atStart, mem_run_char, mem_run_identifier, mem_run_atEnd,
    beq_iff_eq]
  constructor
  · rintro ⟨_, ⟨-, rfl⟩, _, ⟨_, front, after, rfl, rfl⟩, _, ⟨_, inside, brace, rfl, rfl⟩, _,
      ⟨name, rest, identifier, body, rfl⟩, _, ⟨_, behind, close, rfl, rfl⟩, last, rfl⟩
    change text.toList = '$' :: front at after
    change front = _ at brace
    change inside = _ at body
    change rest = _ at close
    subst close body brace
    refine ⟨name, behind, identifier, ?_, last, ?_⟩
    · rw [after, reference]
      simp
    · simp [Cursor.over, Regex.start, reference]
  · rintro ⟨name, rest, identifier, whole, last, rfl⟩
    have braced : (Regex.start text).after = '$' :: '\x7b' :: (name.toList ++ '\x7d' :: rest) := by
      change text.toList = _
      rw [whole, reference]
      simp
    refine ⟨_, ⟨rfl, rfl⟩, _, ⟨_, _, braced, rfl, rfl⟩, _, ⟨_, _, rfl, rfl, rfl⟩, _,
      ⟨name, '\x7d' :: rest, identifier, rfl, rfl⟩, _, ⟨_, rest, rfl, rfl, rfl⟩, last, ?_⟩
    simp [Cursor.over, Regex.start, reference]

/-- A trimmed text ends with no newline. -/
theorem strip_ne_append_newline (host : String) (front : List Char) :
    (strip host).toList ≠ front ++ ['\n'] := by
  intro whole
  have last : '\n' ∈ (stripChars host.toList).getLast? := by
    rw [← toList_strip, whole, List.getLast?_concat, Option.mem_some_iff]
  exact absurd (isSpace_getLast_stripChars last) (by decide)

/-- The host has a name exactly when it is, but for whitespace around it, the
reference of an identifier. -/
theorem wholeReference_eq_some_iff {host name : String} :
    wholeReference host = some name ↔
      isIdentifier name = true ∧ strip host = referenceText name := by
  have reads (name : String) : strip host = referenceText name ↔
      (strip host).toList = reference name := by
    rw [← String.toList_inj, toList_referenceText]
  rw [wholeReference, Option.map_eq_some_iff, reads]
  constructor
  · rintro ⟨stop, first, rfl⟩
    obtain ⟨name, rest, identifier, whole, last, rfl⟩ :=
      mem_run_wholeVariable.mp (List.mem_of_mem_head? first)
    rw [Option.getD_some, String.ofList_toList]
    rcases last with rfl | rfl
    · exact ⟨identifier, by rw [whole, List.append_nil]⟩
    · exact absurd whole (strip_ne_append_newline host _)
  · intro ⟨identifier, whole⟩
    have stops : ⟨(reference name).reverse, [], some name.toList⟩ ∈
        wholeVariable.run (Regex.start (strip host)) :=
      mem_run_wholeVariable.mpr
        ⟨name, [], identifier, by rw [whole, List.append_nil], Or.inl rfl, rfl⟩
    cases first : wholeVariable.firstMatch (strip host) with
    | none =>
        rw [firstMatch, List.head?_eq_none_iff] at first
        rw [first] at stops
        cases stops
    | some stop =>
        obtain ⟨other, rest, otherIdentifier, otherWhole, -, rfl⟩ :=
          mem_run_wholeVariable.mp (List.mem_of_mem_head? first)
        refine ⟨_, rfl, ?_⟩
        rw [Option.getD_some, String.ofList_toList]
        have start : reference other <+: reference name ++ [] :=
          ⟨rest, by rw [← otherWhole, whole, List.append_nil]⟩
        exact name_eq_of_references otherIdentifier identifier start

/-! ## Reported and consulted names -/

/-- The host resolves to what is stored under this name, whatever that is. -/
def Consults (host name : String) : Prop :=
  ∀ values : Dict String String, resolveHost host values = values.get? name

theorem consults_iff {host name : String} :
    Consults host name ↔ isIdentifier name = true ∧ strip host = referenceText name := by
  rw [← wholeReference_eq_some_iff, Consults]
  unfold resolveHost
  cases found : wholeReference host with
  | none =>
      dsimp only
      refine iff_of_false (fun alike => ?_) (by simp)
      have absent := alike Dict.empty
      have stored := alike (Dict.empty.set name "")
      rw [absent, Dict.get?_set_self] at stored
      cases stored
  | some other =>
      dsimp only
      rw [Option.some.injEq]
      constructor
      · intro alike
        by_contra ne
        have stored := alike (Dict.empty.set other "")
        rw [Dict.get?_set_self, Dict.get?_set_ne _ _ ne] at stored
        cases stored
      · rintro rfl values
        rfl

/-- Whose stored value a host asks for, and what the parser reports, are one: the
host asks for a name when it is the reference of a name in `reported`, and every
other host with a reference in it does not resolve. -/
structure Agrees (reported : List String) (host : String) : Prop where
  consults : ∀ name, Consults host name ↔ strip host = referenceText name ∧ name ∈ reported
  unresolved : (∀ name ∈ reported, strip host ≠ referenceText name) →
    contains host "$\x7b" = true → ∀ values, resolveHost host values = none

/-- For reported identifiers it is enough that the host's own is among them. -/
theorem agrees_iff_allowed {reported : List String} {host : String}
    (identifiers : ∀ name ∈ reported, isIdentifier name = true) :
    Agrees reported host ↔
      ∀ name, isIdentifier name = true → strip host = referenceText name → name ∈ reported := by
  constructor
  · intro agrees name identifier whole
    exact ((agrees.consults name).mp (consults_iff.mpr ⟨identifier, whole⟩)).2
  · intro complete
    refine ⟨?_, ?_⟩
    · intro name
      rw [consults_iff]
      constructor
      · intro ⟨identifier, whole⟩
        exact ⟨whole, complete name identifier whole⟩
      · intro ⟨whole, member⟩
        exact ⟨identifiers name member, whole⟩
    · intro other braced values
      have none : wholeReference host = none := by
        rw [Option.eq_none_iff_forall_ne_some]
        intro name found
        obtain ⟨identifier, whole⟩ := wholeReference_eq_some_iff.mp found
        exact other name (complete name identifier whole) whole
      rw [resolveHost, none]
      exact if_pos braced

/-! ## The two grammars -/

theorem isIdentifier_of_mem_findall {text name : String} (found : name ∈ variableRef.findall text) :
    isIdentifier name = true :=
  (isVariableName_iff.mp (mem_findall_variableRef.mp found).1).1

/-- Within a reference of an identifier the search reports it, unless two underscores
are in front. -/
theorem mem_findall_referenceText {name : String} (identifier : isIdentifier name = true) :
    name ∈ variableRef.findall (referenceText name) ↔ startsWith name "__" = false := by
  rw [mem_findall_variableRef, RefersTo, isVariableName_iff, toList_referenceText]
  exact ⟨fun found => found.1.2, fun free => ⟨⟨identifier, free⟩, List.infix_rfl⟩⟩

/-- Preflight asks for the variable that the search reports: that of the host alone,
exactly when the host is no reference of an identifier with two underscores in front;
that of the plan the host was taken from, exactly when the plan's source moreover has
the reference. -/
theorem hosts_agree_iff {rt : Runtime} {text : String} {summary : PlanSummary}
    (parsed : parsePlan rt text = .ok summary) (host : String) :
    (Agrees (variableRef.findall (strip host)) host ↔
      ∀ name, isIdentifier name = true → strip host = referenceText name →
        startsWith name "__" = false) ∧
    (Agrees summary.variableNames host ↔
      ∀ name, isIdentifier name = true → strip host = referenceText name →
        startsWith name "__" = false ∧ contains text (referenceText name) = true) := by
  constructor
  · rw [agrees_iff_allowed fun _ => isIdentifier_of_mem_findall]
    refine forall_congr' fun name => forall_congr' fun identifier => forall_congr' fun whole => ?_
    rw [whole, mem_findall_referenceText identifier]
  · have named := mem_variableNames_iff_contains parsed
    rw [agrees_iff_allowed fun name member => ((named name).mp member).2.1]
    refine forall_congr' fun name => forall_congr' fun identifier => forall_congr' fun _ => ?_
    rw [named, and_iff_right identifier, and_comm]

/-- A plan with one sampler. -/
def samplerText (domain : String) : String := httpMarkup "HTTPSamplerProxy" (some domain)

/-- The interpreter that reads it. -/
def samplerReading (domain : String) : Runtime :=
  reading (samplerText domain) (httpElement "HTTPSamplerProxy" (some domain))

/-- The plan, parsed. -/
def samplerSummary (domain : String) (names : List String) : PlanSummary :=
  { variableNames := names, targets := [{ scheme := "http", host := domain, port := none }] }

theorem hosts_agree_iff_stored :
    (Agrees (variableRef.findall (strip "$\x7bHOST\x7d")) "$\x7bHOST\x7d" ↔
      ∀ name, isIdentifier name = true → strip "$\x7bHOST\x7d" = referenceText name →
        startsWith name "__" = false) ∧
    (Agrees ["HOST"] "$\x7bHOST\x7d" ↔
      ∀ name, isIdentifier name = true → strip "$\x7bHOST\x7d" = referenceText name →
        startsWith name "__" = false ∧
          contains (samplerText "$\x7bHOST\x7d") (referenceText name) = true) := by
  have parsed : parsePlan (samplerReading "$\x7bHOST\x7d") (samplerText "$\x7bHOST\x7d") =
      .ok (samplerSummary "$\x7bHOST\x7d" ["HOST"]) := by
    apply toOption_eq_some_iff.mp
    rw [parsePlan, samplerReading, reading_fromstring]
    decide +kernel
  exact hosts_agree_iff parsed "$\x7bHOST\x7d"

/-- A host that refers to a function of JMeter is resolved through a variable stored
under the function's name, which no search reports. -/
theorem function_reference_resolved :
    parsePlan (samplerReading "$\x7b__f\x7d") (samplerText "$\x7b__f\x7d") =
        .ok (samplerSummary "$\x7b__f\x7d" []) ∧
      resolveHost "$\x7b__f\x7d" (Dict.ofList [("__f", "10.0.0.1")]) = some "10.0.0.1" ∧
      ¬ Agrees (variableRef.findall (strip "$\x7b__f\x7d")) "$\x7b__f\x7d" ∧
      ¬ Agrees [] "$\x7b__f\x7d" := by
  have consulted : Consults "$\x7b__f\x7d" "__f" :=
    consults_iff.mpr ⟨by decide +kernel, by decide +kernel⟩
  have nothing : variableRef.findall (strip "$\x7b__f\x7d") = [] := by decide +kernel
  have disagrees : ¬ Agrees [] "$\x7b__f\x7d" := by
    intro agrees
    cases ((agrees.consults "__f").mp consulted).2
  refine ⟨?_, consulted _, ?_, disagrees⟩
  · apply toOption_eq_some_iff.mp
    rw [parsePlan, samplerReading, reading_fromstring]
    decide +kernel
  · rw [nothing]
    exact disagrees

end Plimsoll.Preflight
