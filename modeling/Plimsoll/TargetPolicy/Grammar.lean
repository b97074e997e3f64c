import Plimsoll.TargetPolicy.Hostname
import Plimsoll.TargetPolicy.Networks

/-!
Which entries that are neither networks nor addresses are accepted: hostnames in the
grammar of labels, behind one dot at most.

The entry is trimmed and put in lower case before it is looked at, and both show: an entry
that trimming changes is refused, and what lower case makes of an entry is no address
unless the entry was one.
-/

namespace Plimsoll.TargetPolicy

open Python Python.Ipaddress

variable {ucd : Unicode} {entry : String}

/-! ## Trimming and lower case -/

/-- White space at either end of a text stays there in lower case. -/
theorem isSpace_of_lower_eq (same : ucd.lower (strip entry) = ucd.lower entry) :
    (∀ c ∈ entry.toList.head?, isSpace c = false) ∧
      ∀ c ∈ entry.toList.getLast?, isSpace c = false := by
  have notSigma {c : Char} (space : isSpace c = true) : c ≠ 'Σ' := by
    rintro rfl
    exact absurd space (by decide)
  constructor
  · intro c head
    by_contra space
    rw [Bool.not_eq_false] at space
    obtain ⟨rest, shape⟩ := List.head?_eq_some_iff.mp head
    have first : c ∈ (ucd.lower (strip entry)).toList.head? := by
      rw [same, Unicode.toList_lower, shape, Unicode.lowerFrom, if_neg (notSigma space),
        ucd.lowercase_space c space]
      rfl
    rw [Unicode.isSpace_head_lower_strip first] at space
    cases space
  · intro c last
    by_contra space
    rw [Bool.not_eq_false] at space
    obtain ⟨front, shape⟩ := List.getLast?_eq_some_iff.mp last
    obtain ⟨low, whole, -⟩ := @Unicode.lowerFrom_append ucd front [c] []
    have final : c ∈ (ucd.lower (strip entry)).toList.getLast? := by
      rw [same, Unicode.toList_lower, shape, whole, Unicode.lowerFrom, if_neg (notSigma space),
        ucd.lowercase_space c space]
      simp [Unicode.lowerFrom]
    rw [Unicode.isSpace_getLast_lower_strip final] at space
    cases space

/-- Trimming shows in lower case. -/
theorem lower_strip_eq_iff : ucd.lower (strip entry) = ucd.lower entry ↔ strip entry = entry := by
  constructor
  · intro same
    obtain ⟨first, last⟩ := isSpace_of_lower_eq same
    rw [← String.toList_inj, toList_strip]
    exact stripChars_eq_self first last
  · intro same
    rw [same]

theorem lower_eq_empty_iff : ucd.lower entry = "" ↔ entry = "" := by
  rw [← String.toList_inj, Unicode.toList_lower, ← String.toList_inj]
  exact Unicode.lowerFrom_eq_nil_iff

theorem slash_mem_lower_iff (keeps : KeepsLiterals ucd) :
    '/' ∈ (ucd.lower entry).toList ↔ '/' ∈ entry.toList := by
  rw [Unicode.toList_lower]
  constructor
  · intro member
    obtain ⟨low, whole, -, images⟩ := @Unicode.lowerFrom_append ucd entry.toList [] []
    rw [List.append_nil, Unicode.lowerFrom, List.append_nil] at whole
    rw [whole] at member
    rcases images '/' member with sigma | sigma | ⟨c, inside, image⟩
    · exact absurd sigma (by decide)
    · exact absurd sigma (by decide)
    · exact keeps.keepsDelimiters c '/' image (Or.inr rfl) ▸ inside
  · exact Unicode.mem_lowerFrom (Unicode.lowered_ascii (by decide) (by decide))

/-! ## Behind the dot -/

/-- What stands behind an optional dot of a text, and of the text in lower case. -/
theorem removePrefix_lower (keeps : KeepsLiterals ucd) (entry : String) :
    ∃ before, (removePrefix (ucd.lower entry) ".").toList =
      ucd.lowerFrom before (removePrefix entry ".").toList := by
  cases dot : startsWith entry "." with
  | true =>
      obtain ⟨rest, shape⟩ : ∃ rest, entry = "." ++ rest := ⟨_, removePrefix_of_startsWith dot⟩
      refine ⟨['.'], ?_⟩
      have whole : ucd.lower entry = "." ++ String.ofList (ucd.lowerFrom ['.'] rest.toList) := by
        rw [← String.toList_inj, Unicode.toList_lower, shape, String.toList_append,
          Unicode.lowerFrom_append_ascii _ (by simp)]
        simp
      rw [whole, shape, removePrefix_append, removePrefix_append, String.toList_ofList]
  | false =>
      refine ⟨[], ?_⟩
      have noDot : startsWith (ucd.lower entry) "." = false := by
        rw [Bool.eq_false_iff]
        intro dotted
        obtain ⟨back, whole⟩ := startsWith_iff.mp dotted
        rw [Unicode.toList_lower] at whole
        have chars : ∀ d ∈ ".".toList, AddressChar d ∨ d = '%' :=
          fun d member => Or.inl (Or.inr (Or.inl (List.mem_singleton.mp member)))
        obtain ⟨start, rest, shape, lowered, -⟩ := ascii_of_lowerFrom keeps chars whole.symm
        obtain ⟨c, rfl, low⟩ := List.map_eq_singleton_iff.mp lowered
        obtain rfl : c = '.' := (toLower_eq_iff (by decide)).mp low
        have dotted : startsWith entry "." = true := startsWith_iff.mpr (shape ▸ ⟨rest, rfl⟩)
        rw [dot] at dotted
        cases dotted
      rw [removePrefix_of_not_startsWith noDot, removePrefix_of_not_startsWith dot,
        Unicode.toList_lower]

/-- What stands behind the dot of an entry in lower case is no literal, unless it was one
before. -/
theorem ipAddress_removePrefix_lower (keeps : KeepsLiterals ucd)
    (notLiteral : ipAddress (removePrefix entry ".") = none) :
    ipAddress (removePrefix (ucd.lower entry) ".") = none := by
  obtain ⟨before, behind⟩ := removePrefix_lower keeps entry
  rw [← String.ofList_toList (s := removePrefix (ucd.lower entry) "."), behind]
  cases parsed : ipAddress (String.ofList (ucd.lowerFrom before (removePrefix entry ".").toList)) with
  | none => rfl
  | some address =>
      have literal := ipAddress_of_lowerFrom keeps parsed
      rw [String.ofList_toList] at literal
      exact absurd notLiteral literal

/-- The last character behind an optional dot is the last of the text. -/
theorem getLast?_removePrefix {s : String} {c : Char}
    (last : c ∈ (removePrefix s ".").toList.getLast?) : c ∈ s.toList.getLast? := by
  cases dot : startsWith s "." with
  | true =>
      rw [removePrefix_of_startsWith dot, String.toList_append, List.getLast?_append_of_ne_nil]
      · exact last
      · rintro empty
        rw [empty] at last
        cases last
  | false => rwa [removePrefix_of_not_startsWith dot] at last

/-! ## The grammar -/

theorem validateEntry_hostname_iff (keeps : KeepsLiterals ucd) (noSlash : '/' ∉ entry.toList)
    (notLiteral : ipAddress (removePrefix entry ".") = none) :
    validateEntry ucd entry = .ok () ↔
      strip entry = entry ∧ entry ≠ "" ∧ removePrefix (ucd.lower entry) "." ∉ blockedNames ∧
        ∀ label ∈ (removePrefix (ucd.lower entry) ".").toList.splitOn '.', ShortLabel label := by
  have noSlashLow : '/' ∉ (ucd.lower entry).toList := mt (slash_mem_lower_iff keeps).mp noSlash
  have notCidr : cidr (ucd.lower entry) = none := if_neg (mt contains_slash_iff.mp noSlashLow)
  have notAddress := ipAddress_removePrefix_lower keeps notLiteral
  rw [validateEntry_ok_iff, lower_strip_eq_iff]
  constructor
  · intro ⟨nonempty, trimmed, storable⟩
    have ends : ∀ c ∈ (removePrefix (ucd.lower entry) ".").toList.getLast?, isSpace c = false := by
      intro c last
      have inLower := getLast?_removePrefix last
      rw [← trimmed] at inLower
      exact Unicode.isSpace_getLast_lower_strip inLower
    rw [trimmed] at nonempty storable
    refine ⟨trimmed, mt lower_eq_empty_iff.mpr nonempty, ?_⟩
    cases storable with
    | cidr network network? => rw [notCidr] at network?; cases network?
    | address address _ _ _ address? => rw [notAddress] at address?; cases address?
    | name _ _ notName _ isName =>
        exact ⟨notName, (hostname_isMatch_iff_of_trimmed ends).mp isName⟩
  · intro ⟨trimmed, nonempty, notName, labels⟩
    have isName : hostname.isMatch (removePrefix (ucd.lower entry) ".") = true :=
      hostname_isMatch_iff.mpr ⟨_, [], (List.append_nil _).symm, Or.inl rfl, labels⟩
    rw [trimmed]
    exact ⟨mt lower_eq_empty_iff.mp nonempty, rfl,
      .name notCidr noSlashLow notName notAddress isName⟩

/-! ## Dots too many -/

/-- A second dot in front leaves an empty label. -/
theorem nil_mem_of_two_dots {s : String} (dots : startsWith s ".." = true) :
    [] ∈ (removePrefix s ".").toList.splitOn '.' := by
  obtain ⟨rest, whole⟩ := startsWith_iff.mp dots
  have shape : s = "." ++ String.ofList ('.' :: rest) := by
    rw [← String.toList_inj, ← whole]
    simp
  rw [shape, removePrefix_append, String.toList_ofList]
  change [] ∈ ([] ++ '.' :: rest).splitOn '.'
  rw [List.splitOn_append_cons_self]
  exact List.mem_append_left _ List.mem_cons_self

/-- So does a dot at the end. -/
theorem nil_mem_of_last_dot {s : String} (dot : endsWith s "." = true) :
    [] ∈ (removePrefix s ".").toList.splitOn '.' := by
  have concat (front : List Char) : [] ∈ (front ++ ['.']).splitOn '.' := by
    rw [List.splitOn_append_cons_self]
    exact List.mem_append_right _ List.mem_cons_self
  obtain ⟨front, whole⟩ := endsWith_iff.mp dot
  cases starts : startsWith s "." with
  | false =>
      rw [removePrefix_of_not_startsWith starts, ← whole]
      exact concat front
  | true =>
      have shape := congrArg String.toList (removePrefix_of_startsWith starts)
      rw [String.toList_append, ← whole] at shape
      cases front with
      | nil =>
          have none : (removePrefix s ".").toList = [] := (List.cons.inj shape).2.symm
          rw [none]
          exact List.mem_cons_self
      | cons c front =>
          have behind : (removePrefix s ".").toList = front ++ ['.'] := (List.cons.inj shape).2.symm
          rw [behind]
          exact concat front

theorem startsWith_lower_dots (dots : startsWith entry ".." = true) :
    startsWith (ucd.lower entry) ".." = true := by
  obtain ⟨rest, whole⟩ := startsWith_iff.mp dots
  rw [startsWith_iff, Unicode.toList_lower, ← whole, Unicode.lowerFrom_append_ascii _ (by simp)]
  exact List.prefix_append _ _

theorem endsWith_lower_dot (dot : endsWith entry "." = true) :
    endsWith (ucd.lower entry) "." = true := by
  obtain ⟨front, whole⟩ := endsWith_iff.mp dot
  obtain ⟨low, lowered, -⟩ := @Unicode.lowerFrom_append ucd front ".".toList []
  have plain : ∀ c ∈ ".".toList, c.toNat < 128 := by simp
  rw [endsWith_iff, Unicode.toList_lower, ← whole, lowered, Unicode.lowerFrom_ascii plain]
  exact List.suffix_append _ _

/-- The recogniser accepts its grammar: an entry that is no network and no address is
accepted when nothing surrounds it, its name is not blocked, and its labels, behind one dot
at most, are 1 to 63 letters, digits and inner hyphens. -/
theorem hostname_grammar (keeps : KeepsLiterals ucd) {entry : String} (noSlash : '/' ∉ entry.toList)
    (notLiteral : ipAddress (removePrefix entry ".") = none) :
    (validateEntries ucd [entry] = .ok () ↔
      strip entry = entry ∧ entry ≠ "" ∧ removePrefix (ucd.lower entry) "." ∉ blockedNames ∧
        ∀ label ∈ (removePrefix (ucd.lower entry) ".").toList.splitOn '.', ShortLabel label) ∧
    (validateEntries ucd [entry] = .ok () →
      [] ∉ (removePrefix (ucd.lower entry) ".").toList.splitOn '.' ∧
        startsWith entry ".." = false ∧ endsWith entry "." = false ∧ endsWith entry "\n" = false) := by
  have accepts := validateEntry_hostname_iff keeps noSlash notLiteral
  rw [validateEntries_singleton]
  refine ⟨accepts, fun accepted => ?_⟩
  obtain ⟨trimmed, -, -, labels⟩ := accepts.mp accepted
  have noEmpty : [] ∉ (removePrefix (ucd.lower entry) ".").toList.splitOn '.' :=
    fun member => (labels [] member).1.nonempty rfl
  refine ⟨noEmpty, ?_, ?_, ?_⟩
  · exact Bool.eq_false_iff.mpr fun dots => noEmpty (nil_mem_of_two_dots (startsWith_lower_dots dots))
  · exact Bool.eq_false_iff.mpr fun dot => noEmpty (nil_mem_of_last_dot (endsWith_lower_dot dot))
  · rw [Bool.eq_false_iff]
    intro newline
    obtain ⟨front, whole⟩ := endsWith_iff.mp newline
    have last : '\n' ∈ (stripChars entry.toList).getLast? := by
      rw [← toList_strip, trimmed, ← whole]
      exact List.getLast?_concat
    exact absurd (isSpace_getLast_stripChars last) (by decide)

theorem keepsLiterals_basic : KeepsLiterals Unicode.basic := by
  intro c d image is
  by_contra high
  change d ∈ (if c.toNat < 128 then [c.toLower] else if c = 'Σ' then ['σ'] else [c]) at image
  rw [if_neg high] at image
  have ascii : d.toNat < 128 := by
    rcases is with address | rfl | rfl
    · exact address.ascii
    · decide
    · decide
  split at image
  · rw [List.mem_singleton.mp image] at ascii
    exact absurd ascii (by decide)
  · rw [List.mem_singleton.mp image] at ascii
    exact high ascii

/-- `.Shop-1.Example` has two labels behind its dot. -/
theorem hostname_grammar_suffix :
    (validateEntries Unicode.basic [".Shop-1.Example"] = .ok () ↔
      strip ".Shop-1.Example" = ".Shop-1.Example" ∧ ".Shop-1.Example" ≠ "" ∧
        removePrefix (Unicode.basic.lower ".Shop-1.Example") "." ∉ blockedNames ∧
          ∀ label ∈ (removePrefix (Unicode.basic.lower ".Shop-1.Example") ".").toList.splitOn '.',
            ShortLabel label) ∧
    (validateEntries Unicode.basic [".Shop-1.Example"] = .ok () →
      [] ∉ (removePrefix (Unicode.basic.lower ".Shop-1.Example") ".").toList.splitOn '.' ∧
        startsWith ".Shop-1.Example" ".." = false ∧ endsWith ".Shop-1.Example" "." = false ∧
          endsWith ".Shop-1.Example" "\n" = false) :=
  hostname_grammar keepsLiterals_basic (by decide) (by decide +kernel)

end Plimsoll.TargetPolicy
