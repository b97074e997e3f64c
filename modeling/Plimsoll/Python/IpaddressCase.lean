import Plimsoll.Python.IpaddressText
import Plimsoll.Python.Unicode
import Mathlib.Data.List.Forall2

/-!
Address literals in lower case.

The digits of an address have no case that matters, so a literal in lower case is
a literal of the same address; only a scope id changes.
-/

namespace Python.Ipaddress

/-! ## Hexadecimal digits -/

theorem hexDigit_ascii {c : Char} (hex : isHexDigit c = true) : c.toNat < 128 := by
  simp only [isHexDigit, Char.isDigit, Bool.or_eq_true, Bool.and_eq_true, decide_eq_true_eq,
    ge_iff_le, UInt32.le_iff_toNat_le, Char.le_def] at hex
  have numbers : 'f'.val.toNat = 102 ∧ 'F'.val.toNat = 70 ∧ '9'.val.toNat = 57 := by decide
  obtain ⟨small, capital, nine⟩ := numbers
  change c.val.toNat < 128
  omega

/-- Outside ASCII a character is left alone. -/
theorem toLower_of_not_ascii {c : Char} (high : ¬ c.toNat < 128) : c.toLower = c := by
  unfold Char.toLower
  rw [dif_neg]
  rintro ⟨-, least⟩
  have bound : c.val.toNat ≤ 90 := least
  change ¬ c.val.toNat < 128 at high
  omega

/-- What a table says of ASCII and lower case leaves alone elsewhere. -/
theorem toLower_of_table {test : Char → Char → Bool}
    (table : ((List.range 128).all fun n => test (Char.ofNat n).toLower (Char.ofNat n)) = true)
    (self : ∀ c, test c c = true) (c : Char) : test c.toLower c = true := by
  by_cases ascii : c.toNat < 128
  · have row := List.all_eq_true.mp table c.toNat (List.mem_range.mpr ascii)
    rwa [Char.ofNat_toNat] at row
  · rw [toLower_of_not_ascii ascii]
    exact self c

theorem isHexDigit_toLower (c : Char) : isHexDigit c.toLower = isHexDigit c := by
  refine beq_iff_eq.mp (@toLower_of_table (fun low c => isHexDigit low == isHexDigit c) ?_ ?_ c)
  · decide
  · exact fun c => beq_self_eq_true _

theorem hexDigitValue_toLower {c : Char} (hex : isHexDigit c = true) :
    hexDigitValue c.toLower = hexDigitValue c := by
  have row := @toLower_of_table
    (fun low c => !isHexDigit c || hexDigitValue low == hexDigitValue c) (by decide) (by simp) c
  simpa [hex] using row

/-- A delimiter is no letter. -/
theorem toLower_eq_iff {c sep : Char} (plain : sep ∈ [':', '.', '%', '/']) :
    c.toLower = sep ↔ c = sep := by
  have row := @toLower_of_table
    (fun low c => [':', '.', '%', '/'].all fun sep => (low == sep) == (c == sep)) (by decide) (by simp) c
  have here := beq_iff_eq.mp (List.all_eq_true.mp row sep plain)
  rw [← beq_iff_eq, here, beq_iff_eq]

/-- No letter becomes a digit or a dot. -/
theorem toLower_eq_self {c : Char} (digit : c.toLower.isDigit = true ∨ c.toLower = '.') :
    c.toLower = c := by
  have row := @toLower_of_table (fun low c => !(low.isDigit || low == '.') || low == c)
    (by decide) (by simp) c
  have shown : (c.toLower.isDigit || c.toLower == '.') = true := by simpa using digit
  simpa [shown] using row

theorem isSpace_of_hexDigit {c : Char} (hex : isHexDigit c = true) : isSpace c = false := by
  have table : ((List.range 128).all fun n =>
      !isHexDigit (Char.ofNat n) || !isSpace (Char.ofNat n)) = true := by decide
  have row := List.all_eq_true.mp table c.toNat (List.mem_range.mpr (hexDigit_ascii hex))
  rw [Char.ofNat_toNat, hex] at row
  simpa using row

theorem parseHextet_toLower (cs : List Char) : parseHextet (cs.map Char.toLower) = parseHextet cs := by
  have all : (cs.map Char.toLower).all isHexDigit = cs.all isHexDigit := by
    rw [List.all_map]
    exact congrArg cs.all (funext isHexDigit_toLower)
  have same : ∀ (start : Nat) (ds : List Char), (∀ c ∈ ds, isHexDigit c = true) →
      (ds.map Char.toLower).foldl (fun value c => 16 * value + hexDigitValue c) start =
        ds.foldl (fun value c => 16 * value + hexDigitValue c) start := by
    intro start ds
    induction ds generalizing start with
    | nil => intro _; rfl
    | cons c rest ih =>
        intro hex
        rw [List.map_cons, List.foldl_cons, List.foldl_cons,
          hexDigitValue_toLower (hex c List.mem_cons_self),
          ih _ fun d later => hex d (List.mem_cons_of_mem c later)]
  unfold parseHextet
  rw [all, List.length_map]
  by_cases digits : cs.all isHexDigit = true
  · simp only [digits, List.map_eq_nil_iff, same 0 cs (List.all_eq_true.mp digits)]
  · rw [if_pos digits, if_pos digits]

/-! ## Parts -/

/-- A part that is read like another. -/
def SamePart (p q : List Char) : Prop := p.isEmpty = q.isEmpty ∧ parseHextet p = parseHextet q

theorem SamePart.refl (p : List Char) : SamePart p p := ⟨rfl, rfl⟩

theorem samePart_toLower (p : List Char) : SamePart p (p.map Char.toLower) :=
  ⟨(List.isEmpty_map).symm, (parseHextet_toLower p).symm⟩

theorem layout_congr {parts others : List (List Char)}
    (same : parts.map List.isEmpty = others.map List.isEmpty) : layout parts = layout others := by
  have isNil : ∀ part : List Char, part = [] ↔ part.isEmpty = true := fun part =>
    List.isEmpty_iff.symm
  have emptyAt : ∀ (ps : List (List Char)) (i : Nat),
      ps[i]? = some [] ↔ (ps.map List.isEmpty)[i]? = some true := by
    intro ps i
    rw [List.getElem?_map]
    cases ps[i]? with
    | none => simp
    | some part => simp only [Option.some.injEq, Option.map_some, isNil part]
  have length : parts.length = others.length := by
    have lengths := congrArg List.length same
    rwa [List.length_map, List.length_map] at lengths
  have at_ : ∀ i : Nat, (parts[i]? == some []) = (others[i]? == some []) := by
    intro i
    rw [Bool.eq_iff_iff, beq_iff_eq, beq_iff_eq, emptyAt, emptyAt, same]
  have first : parts.head? = some [] ↔ others.head? = some [] := by
    rw [List.head?_eq_getElem?, List.head?_eq_getElem?, emptyAt, emptyAt, same]
  have last : parts.getLast? = some [] ↔ others.getLast? = some [] := by
    rw [List.getLast?_eq_getElem?, List.getLast?_eq_getElem?, emptyAt, emptyAt, same, length]
  have skips : skipIndices parts = skipIndices others := by
    simp only [skipIndices, length, at_]
  simp only [layout, skips, length, first, last]

theorem appendHextets_congr {parts others : List (List Char)}
    (same : List.Forall₂ SamePart parts others) :
    ∀ ip : BitVec 128, appendHextets ip parts = appendHextets ip others := by
  induction same with
  | nil => exact fun _ => rfl
  | @cons p q ps qs here _ ih =>
      intro ip
      rw [appendHextets, appendHextets, here.2]
      cases parseHextet q with
      | none => rfl
      | some v => exact ih _

theorem splitOn_map_toLower {sep : Char} (apart : ∀ c : Char, c.toLower = sep ↔ c = sep)
    (cs : List Char) :
    (cs.map Char.toLower).splitOn sep = (cs.splitOn sep).map (List.map Char.toLower) := by
  induction cs with
  | nil => rfl
  | cons c rest ih =>
      rw [List.map_cons, List.splitOn_cons_eq_if_modifyHead, List.splitOn_cons_eq_if_modifyHead, ih]
      by_cases here : c = sep
      · have low : c.toLower = sep := (apart c).mpr here
        rw [if_pos (beq_iff_eq.mpr low), if_pos (beq_iff_eq.mpr here)]
        rfl
      · have low : c.toLower ≠ sep := fun same => here ((apart c).mp same)
        simp only [beq_iff_eq, here, low, if_false]
        cases rest.splitOn sep with
        | nil => rfl
        | cons first others => rfl

/-! ## Literals -/

/-- A character of an address, outside a scope id. -/
def AddressChar (c : Char) : Prop := isHexDigit c = true ∨ c = '.' ∨ c = ':'

theorem AddressChar.ascii {c : Char} (address : AddressChar c) : c.toNat < 128 := by
  rcases address with hex | rfl | rfl
  · exact hexDigit_ascii hex
  · decide
  · decide

theorem digit_ascii {c : Char} (digit : c.isDigit = true ∨ c = '.') : c.toNat < 128 := by
  rcases digit with digit | rfl
  · exact hexDigit_ascii (by simp [isHexDigit, digit])
  · decide

theorem toLower_of_digit {c : Char} (digit : c.isDigit = true ∨ c = '.') : c.toLower = c := by
  have row := @toLower_of_table (fun low c => !(c.isDigit || c == '.') || low == c)
    (by decide) (by simp) c
  have shown : (c.isDigit || c == '.') = true := by simpa using digit
  simpa [shown] using row

theorem map_toLower_of_ipv4 {s : String} {ip : BitVec 32} (parsed : ipv4Address s = some ip) :
    s.toList.map Char.toLower = s.toList := by
  have same : s.toList.map Char.toLower = s.toList.map id :=
    List.map_congr_left fun c member => toLower_of_digit (mem_of_ipv4Address parsed c member)
  rw [same, List.map_id]

theorem ipv4Address_toLower (cs : List Char) :
    ipv4Address (String.ofList (cs.map Char.toLower)) = ipv4Address (String.ofList cs) := by
  cases literal : ipv4Address (String.ofList cs) with
  | some ip =>
      have unchanged := map_toLower_of_ipv4 literal
      rw [String.toList_ofList] at unchanged
      rw [unchanged, literal]
  | none =>
      cases lowered : ipv4Address (String.ofList (cs.map Char.toLower)) with
      | none => rfl
      | some ip =>
          have unchanged : cs.map Char.toLower = cs.map id := by
            refine List.map_congr_left fun c member => toLower_eq_self ?_
            refine mem_of_ipv4Address lowered c.toLower ?_
            rw [String.toList_ofList]
            exact List.mem_map_of_mem member
          rw [unchanged, List.map_id, literal] at lowered
          cases lowered

/-- The parts of a text in lower case are read like those of the text. -/
theorem ipv6Parts_toLower (cs : List Char) :
    (ipv6Parts (cs.map Char.toLower) = none ∧ ipv6Parts cs = none) ∨
      ∃ others parts, ipv6Parts (cs.map Char.toLower) = some others ∧ ipv6Parts cs = some parts ∧
        List.Forall₂ SamePart parts others := by
  have cut : (cs.map Char.toLower).splitOn ':' = (cs.splitOn ':').map (List.map Char.toLower) :=
    splitOn_map_toLower (fun _ => toLower_eq_iff (by decide)) cs
  have samePieces : ∀ ps : List (List Char),
      List.Forall₂ SamePart ps (ps.map (List.map Char.toLower)) := by
    intro ps
    rw [List.forall₂_map_right_iff]
    exact List.forall₂_same.mpr fun part _ => samePart_toLower part
  have last : ((cs.splitOn ':').map (List.map Char.toLower)).getLast?.getD [] =
      ((cs.splitOn ':').getLast?.getD []).map Char.toLower := by
    rw [List.getLast?_map]
    cases (cs.splitOn ':').getLast? with
    | none => rfl
    | some part => rfl
  have dot (part : List Char) : '.' ∈ part.map Char.toLower ↔ '.' ∈ part := by
    have same (c : Char) : c.toLower = '.' ↔ c = '.' := toLower_eq_iff (by decide)
    simp only [List.mem_map, same, exists_eq_right]
  unfold ipv6Parts
  simp only [cut, List.length_map, last, dot, ipv4Address_toLower]
  by_cases few : (cs.splitOn ':').length < 3
  · rw [if_pos few, if_pos few]
    exact Or.inl ⟨rfl, rfl⟩
  · rw [if_neg few, if_neg few]
    by_cases dotted : '.' ∈ (cs.splitOn ':').getLast?.getD []
    · rw [if_pos dotted, if_pos dotted]
      cases ipv4Address (String.ofList ((cs.splitOn ':').getLast?.getD [])) with
      | none => exact Or.inl ⟨rfl, rfl⟩
      | some ip =>
          refine Or.inr ⟨_, _, rfl, rfl, ?_⟩
          rw [← List.map_dropLast]
          refine List.rel_append (samePieces _) ?_
          exact List.forall₂_same.mpr fun part _ => SamePart.refl part
    · rw [if_neg dotted, if_neg dotted]
      exact Or.inr ⟨_, _, rfl, rfl, samePieces _⟩

/-- Letter case plays no part in an address. -/
theorem ipv6FromChars_toLower (cs : List Char) :
    ipv6FromChars (cs.map Char.toLower) = ipv6FromChars cs := by
  unfold ipv6FromChars
  rcases ipv6Parts_toLower cs with ⟨none, none'⟩ | ⟨others, parts, found, found', same⟩
  · rw [none, none']
  · have length := same.length_eq
    have laidOut : layout parts = layout others := by
      refine layout_congr ?_
      refine List.forall₂_eq_eq_eq ▸ ?_
      rw [List.forall₂_map_left_iff, List.forall₂_map_right_iff]
      exact same.imp fun _ _ here => here.1
    rw [found, found']
    simp only [laidOut, length, appendHextets_congr (List.forall₂_take _ same),
      appendHextets_congr (List.forall₂_drop _ same)]

/-! ## Texts in lower case -/

section

variable {ucd : Unicode}

/-- Nothing but a percent sign and a slash has one of them in its lower case. -/
def KeepsDelimiters (ucd : Unicode) : Prop :=
  ∀ c, ∀ d ∈ ucd.lowercase c, d = '%' ∨ d = '/' → c = d

/-- An unscoped literal. -/
theorem ipv6Address_unscoped {s : String} {ip : BitVec 128}
    (parsed : ipv6FromChars s.toList = some ip) : ipv6Address s = some (ip, none) := by
  obtain ⟨noPercent, noSlash⟩ := percent_not_mem_of_ipv6FromChars parsed
  rw [ipv6Address, if_neg noSlash, splitScopeId, partition_of_not_mem noPercent]
  simp [parsed]

/-- An IPv6 literal in lower case, where another text follows it, is a literal of
the same address. -/
theorem ipv6Address_lower (keeps : KeepsDelimiters ucd) {s : String} {ip : BitVec 128}
    {scopeId : Option String} (parsed : ipv6Address s = some (ip, scopeId)) (back : List Char) :
    ∃ low scopeId', ucd.lowerFrom [] (s.toList ++ back) =
        low.toList ++ ucd.lowerFrom s.toList.reverse back ∧
      ipv6Address low = some (ip, scopeId') := by
  have ascii : ∀ {cs : List Char}, ipv6FromChars cs = some ip → ∀ c ∈ cs, c.toNat < 128 :=
    fun literal c member => AddressChar.ascii (mem_of_ipv6FromChars literal c member)
  rcases text_of_ipv6Address parsed with
    ⟨-, literal, -⟩ | ⟨base, scope, rfl, literal, -, nonempty, noPercent, noSlash⟩
  · refine ⟨String.ofList (s.toList.map Char.toLower), none, ?_, ipv6Address_unscoped ?_⟩
    · rw [Unicode.lowerFrom_append_ascii back (ascii literal), String.toList_ofList, List.append_nil]
    · rw [String.toList_ofList, ipv6FromChars_toLower, literal]
  · obtain ⟨low, lowered, some_, from_⟩ := @Unicode.lowerFrom_append ucd scope.toList back
      ((base.toList ++ ['%']).reverse ++ [])
    have delimiter : ∀ d, d = '%' ∨ d = '/' → d ∉ low := by
      intro d is member
      have inScope : d ∈ scope.toList := by
        rcases from_ d member with rfl | rfl | ⟨c, inside, image⟩
        · exact absurd is (by decide)
        · exact absurd is (by decide)
        · exact keeps c d image is ▸ inside
      rcases is with rfl | rfl
      · exact noPercent inScope
      · exact noSlash inScope
    have lowLiteral : ipv6Address (String.ofList (base.toList.map Char.toLower) ++ "%" ++
        String.ofList low) = some (ip, some (String.ofList low)) := by
      refine ipv6Address_scoped ?_ ?_ ?_ ?_
      · rw [String.toList_ofList]
        rw [ipv6FromChars_toLower, literal]
      · intro empty
        have chars := congrArg String.toList empty
        rw [String.toList_ofList] at chars
        refine some_ (fun none_ => nonempty ?_) chars
        rw [← String.toList_inj, none_]
        rfl
      · rw [String.toList_ofList]
        exact delimiter '%' (Or.inl rfl)
      · rw [String.toList_ofList]
        exact delimiter '/' (Or.inr rfl)
    refine ⟨_, _, ?_, lowLiteral⟩
    have front : ∀ c ∈ base.toList ++ ['%'], c.toNat < 128 := by
      intro c member
      rcases List.mem_append.mp member with inBase | percent
      · exact ascii literal c inBase
      · rw [List.mem_singleton.mp percent]
        decide
    have text : (base ++ "%" ++ scope).toList ++ back =
        (base.toList ++ ['%']) ++ (scope.toList ++ back) := by simp
    rw [text, Unicode.lowerFrom_append_ascii _ front, lowered]
    simp

/-- Two address objects of one address, whatever their scope ids. -/
def Address.Same : Address → Address → Prop
  | .v4 ip, .v4 ip' => ip = ip'
  | .v6 ip _, .v6 ip' _ => ip = ip'
  | _, _ => False

/-- A literal in lower case is a literal of the same address. -/
theorem ipAddress_lower (keeps : KeepsDelimiters ucd) {s : String} {address : Address}
    (parsed : ipAddress s = some address) :
    ∃ address', ipAddress (ucd.lower s) = some address' ∧ address.Same address' := by
  rw [ipAddress, Option.or_eq_some_iff] at parsed
  rcases parsed with v4 | ⟨-, v6⟩
  · obtain ⟨ip, literal, rfl⟩ := Option.map_eq_some_iff.mp v4
    have same : ucd.lower s = s := by
      rw [← String.toList_inj, Unicode.toList_lower, Unicode.lowerFrom_ascii,
        map_toLower_of_ipv4 literal]
      exact fun c member => digit_ascii (mem_of_ipv4Address literal c member)
    exact ⟨.v4 ip, by rw [same, ipAddress, literal]; rfl, rfl⟩
  · obtain ⟨⟨ip, scopeId⟩, literal, rfl⟩ := Option.map_eq_some_iff.mp v6
    obtain ⟨low, scopeId', text, lowLiteral⟩ := ipv6Address_lower keeps literal []
    have same : ucd.lower s = low := by
      rw [← String.toList_inj, Unicode.toList_lower, ← List.append_nil s.toList, text]
      simp [Unicode.lowerFrom]
    exact ⟨.v6 ip scopeId', by rw [same, ipAddress_of_ipv6 lowLiteral], rfl⟩

/-! ## Literals from texts in lower case -/

/-- Nothing outside ASCII has a character of an address, a percent sign or a slash in its
lower case. -/
def KeepsLiterals (ucd : Unicode) : Prop :=
  ∀ c, ∀ d ∈ ucd.lowercase c, AddressChar d ∨ d = '%' ∨ d = '/' → c.toNat < 128

theorem KeepsLiterals.keepsDelimiters (keeps : KeepsLiterals ucd) : KeepsDelimiters ucd := by
  intro c d image is
  have ascii := keeps c d image (Or.inr is)
  rw [ucd.lowercase_ascii c ascii, List.mem_singleton] at image
  rcases is with rfl | rfl
  · exact (toLower_eq_iff (by decide)).mp image.symm
  · exact (toLower_eq_iff (by decide)).mp image.symm

/-- A lower case that starts with characters of an address is that of ASCII characters. -/
theorem ascii_of_lowerFrom (keeps : KeepsLiterals ucd) {front back : List Char}
    (chars : ∀ d ∈ front, AddressChar d ∨ d = '%') :
    ∀ {before cs : List Char}, ucd.lowerFrom before cs = front ++ back →
      ∃ start rest, cs = start ++ rest ∧ start.map Char.toLower = front ∧
        ucd.lowerFrom (start.reverse ++ before) rest = back := by
  induction front with
  | nil => exact fun whole => ⟨[], _, rfl, rfl, whole⟩
  | cons d front ih =>
      intro before cs whole
      obtain ⟨here, later⟩ := List.forall_mem_cons.mp chars
      cases cs with
      | nil => cases whole
      | cons c rest =>
          rw [Unicode.lowerFrom, List.cons_append] at whole
          by_cases sigma : c = 'Σ'
          · rw [if_pos sigma, List.singleton_append] at whole
            obtain ⟨image, -⟩ := List.cons.inj whole
            rcases ucd.lowerSigma_eq before rest with inner | final
            · rw [← image, inner] at here
              exact absurd here (by simp [AddressChar]; decide)
            · rw [← image, final] at here
              exact absurd here (by simp [AddressChar]; decide)
          · rw [if_neg sigma] at whole
            have image : d ∈ ucd.lowercase c := by
              cases shape : ucd.lowercase c with
              | nil => exact absurd shape (ucd.lowercase_ne_nil c)
              | cons e more =>
                  rw [shape, List.cons_append] at whole
                  rw [(List.cons.inj whole).1]
                  exact List.mem_cons_self
            have ascii := keeps c d image (here.imp_right Or.inl)
            rw [ucd.lowercase_ascii c ascii, List.singleton_append] at whole
            obtain ⟨rfl, behind⟩ := List.cons.inj whole
            obtain ⟨start, tail, rfl, lowered, same⟩ := ih later behind
            refine ⟨c :: start, tail, rfl, ?_, ?_⟩
            · rw [List.map_cons, lowered]
            · rw [← same, List.reverse_cons, List.append_assoc]
              rfl

/-- A text whose lower case is a literal is one. -/
theorem ipAddress_of_lowerFrom (keeps : KeepsLiterals ucd) {before cs : List Char}
    {address : Address} (parsed : ipAddress (String.ofList (ucd.lowerFrom before cs)) = some address) :
    ipAddress (String.ofList cs) ≠ none := by
  -- a text in lower case that is all of an address is that of a text in ASCII
  have same (chars : ∀ d ∈ ucd.lowerFrom before cs, AddressChar d) :
      cs.map Char.toLower = ucd.lowerFrom before cs := by
    obtain ⟨start, rest, rfl, lowered, none⟩ :=
      ascii_of_lowerFrom keeps (fun d member => Or.inl (chars d member)) (List.append_nil _).symm
    rw [Unicode.lowerFrom_eq_nil_iff.mp none, List.append_nil] at lowered ⊢
    exact lowered
  rw [ipAddress, Option.or_eq_some_iff] at parsed
  rcases parsed with v4 | ⟨-, v6⟩
  · obtain ⟨ip, literal, -⟩ := Option.map_eq_some_iff.mp v4
    have chars : ∀ d ∈ ucd.lowerFrom before cs, AddressChar d := by
      intro d member
      rcases mem_of_ipv4Address literal d (by rwa [String.toList_ofList]) with digit | dot
      · exact Or.inl (by simp [isHexDigit, digit])
      · exact Or.inr (Or.inl dot)
    rw [← same chars, ipv4Address_toLower] at literal
    rw [ipAddress, literal]
    exact Option.some_ne_none _
  · obtain ⟨⟨ip, scopeId⟩, literal, -⟩ := Option.map_eq_some_iff.mp v6
    rcases text_of_ipv6Address literal with
      ⟨-, bare, -⟩ | ⟨base, scope, text, bare, -, nonempty, noPercent, noSlash⟩
    · rw [String.toList_ofList] at bare
      rw [← same (mem_of_ipv6FromChars bare), ipv6FromChars_toLower] at bare
      rw [ipAddress_of_ipv6 (ipv6Address_unscoped (by rwa [String.toList_ofList]))]
      exact Option.some_ne_none _
    · have whole : ucd.lowerFrom before cs = (base.toList ++ ['%']) ++ scope.toList := by
        have chars := congrArg String.toList text
        rw [String.toList_ofList] at chars
        rw [chars]
        simp
      obtain ⟨start, rest, rfl, lowered, behind⟩ := ascii_of_lowerFrom keeps (by
        intro d member
        rcases List.mem_append.mp member with inBase | percent
        · exact Or.inl (mem_of_ipv6FromChars bare d inBase)
        · exact Or.inr (List.mem_singleton.mp percent)) whole
      obtain ⟨front, last, rfl, frontLow, lastLow⟩ := List.map_eq_append_iff.mp lowered
      obtain ⟨c, rfl, percent⟩ := List.map_eq_singleton_iff.mp lastLow
      obtain rfl : c = '%' := (toLower_eq_iff (by decide)).mp percent
      rw [← frontLow, ipv6FromChars_toLower] at bare
      have kept (d : Char) (is : d = '%' ∨ d = '/') (member : d ∈ rest) : d ∈ scope.toList := by
        rw [← behind]
        refine Unicode.mem_lowerFrom (Unicode.lowered_ascii ?_ ?_) member
        · rcases is with rfl | rfl
          · decide
          · decide
        · rcases is with rfl | rfl
          · decide
          · decide
      have withScope : ipv6Address (String.ofList front ++ "%" ++ String.ofList rest) =
          some (ip, some (String.ofList rest)) := by
        refine ipv6Address_scoped (by rwa [String.toList_ofList]) ?_ ?_ ?_
        · intro empty
          have chars := congrArg String.toList empty
          rw [String.toList_ofList] at chars
          rw [show rest = [] from chars] at behind
          exact nonempty (String.toList_inj.mp behind.symm)
        · rw [String.toList_ofList]
          exact mt (kept '%' (Or.inl rfl)) noPercent
        · rw [String.toList_ofList]
          exact mt (kept '/' (Or.inr rfl)) noSlash
      have joined : String.ofList (front ++ ['%'] ++ rest) =
          String.ofList front ++ "%" ++ String.ofList rest := by
        rw [← String.toList_inj]
        simp
      rw [joined, ipAddress_of_ipv6 withScope]
      exact Option.some_ne_none _

end

end Python.Ipaddress
