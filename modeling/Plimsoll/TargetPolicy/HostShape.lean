import Plimsoll.TargetPolicy.Forbidden

/-!
What shape a host has that a stored allowlist permits.

The matcher compares texts and never parses its candidate. An exact entry hands
down its own shape, and a network asks for a literal; but a literal may carry a
scope id of any shape, and a domain suffix asks only how the candidate ends.
-/

namespace Plimsoll.TargetPolicy

open Python Python.Ipaddress

variable {ucd : Unicode}

/-! ## Shapes -/

/-- A character that ends a host, or cannot stand in one. -/
def endsHost (c : Char) : Bool := c == '/' || c == '@' || c == '#' || c == '?' || isSpace c

/-- Where a colon would start a port: anywhere, but that the address of an IPv6
literal has colons of its own. -/
def portText (candidate : String) : String :=
  match ipAddress candidate with
  | some (.v6 _ scopeId) => scopeId.getD ""
  | _ => candidate

/-- A text that denotes one host: a literal or a hostname, with nothing in it
that a reader of addresses takes for the end of a host, for a port, or for a
reference still to be resolved. -/
structure DenotesHost (candidate : String) : Prop where
  shape : (ipAddress candidate).isSome = true ∨ IsHostname candidate
  noDelimiter : ∀ c ∈ candidate.toList, endsHost c = false
  noPort : ':' ∉ (portText candidate).toList
  noReference : contains candidate "$\x7b" = false

/-- A scope id that leaves its literal denoting one host. -/
structure PlainScope (scope : String) : Prop where
  noDelimiter : ∀ c ∈ scope.toList, endsHost c = false
  noPort : ':' ∉ scope.toList
  noReference : contains scope "$\x7b" = false

/-- An entry that compares whole hosts: not a domain suffix, not a network of
IPv6 addresses, and without a scope id that is not plain. -/
structure WholeHost (rule : String) : Prop where
  noSuffix : startsWith rule "." = false
  noIpv6Network : ∀ network, cidr rule ≠ some (.v6 network)
  plainScope : ∀ ip scope, ipAddress rule = some (.v6 ip (some scope)) → PlainScope scope

/-! ## Characters -/

/-- The characters of labels and unscoped literals, and `%`. -/
def hostChar (c : Char) : Bool :=
  labelChar c || isHexDigit c || c == '.' || c == ':' || c == '%'

theorem isAlphanum_iff {c : Char} : c.isAlphanum = true ↔
    (('A'.val ≤ c.val ∧ c.val ≤ 'Z'.val) ∨ ('a'.val ≤ c.val ∧ c.val ≤ 'z'.val)) ∨ c.isDigit = true := by
  change ((decide ('A'.val ≤ c.val ∧ c.val ≤ 'Z'.val) ||
    (decide ('a'.val ≤ c.val) && decide (c.val ≤ 'z'.val))) || c.isDigit) = true ↔ _
  simp only [Bool.or_eq_true, Bool.and_eq_true, decide_eq_true_eq]

theorem toNat_lt_of_isAlphanum {c : Char} (letter : c.isAlphanum = true) : c.toNat < 128 := by
  simp only [isAlphanum_iff, Char.isDigit, Bool.and_eq_true, decide_eq_true_eq, ge_iff_le,
    UInt32.le_iff_toNat_le] at letter
  change c.val.toNat < 128
  rcases letter with (⟨-, upper⟩ | ⟨-, lower⟩) | ⟨-, digit⟩
  · exact Nat.lt_of_le_of_lt upper (by decide)
  · exact Nat.lt_of_le_of_lt lower (by decide)
  · exact Nat.lt_of_le_of_lt digit (by decide)

theorem isAlphanum_of_isHexDigit {c : Char} (hex : isHexDigit c = true) : c.isAlphanum = true := by
  simp only [isHexDigit, Bool.or_eq_true, Bool.and_eq_true, decide_eq_true_eq] at hex
  rw [isAlphanum_iff]
  rcases hex with (digit | ⟨low, high⟩) | ⟨low, high⟩
  · exact Or.inr digit
  · exact Or.inl (Or.inr ⟨low, le_trans high (show 'f'.val ≤ 'z'.val by decide)⟩)
  · exact Or.inl (Or.inl ⟨low, le_trans high (show 'F'.val ≤ 'Z'.val by decide)⟩)

/-- No such character ends a host or starts a reference. -/
theorem plain_of_hostChar {c : Char} (host : hostChar c = true) :
    endsHost c = false ∧ c ≠ '$' := by
  have ascii : c.toNat < 128 := by
    simp only [hostChar, labelChar, Bool.or_eq_true, beq_iff_eq] at host
    rcases host with ((((letter | rfl) | hex) | rfl) | rfl) | rfl
    · exact toNat_lt_of_isAlphanum letter
    · decide
    · exact toNat_lt_of_isAlphanum (isAlphanum_of_isHexDigit hex)
    · decide
    · decide
    · decide
  have table : ∀ n < 128, hostChar (Char.ofNat n) = true →
      endsHost (Char.ofNat n) = false ∧ Char.ofNat n ≠ '$' := by decide
  simpa only [Char.ofNat_toNat] using table c.toNat ascii (by simpa only [Char.ofNat_toNat] using host)

theorem noDelimiter_of_hostChars {s : String} (chars : ∀ c ∈ s.toList, hostChar c = true) :
    ∀ c ∈ s.toList, endsHost c = false :=
  fun c member => (plain_of_hostChar (chars c member)).1

/-- A reference starts with a dollar sign, so it lies behind any text without one. -/
theorem contains_reference_append {front back : String} (noDollar : '$' ∉ front.toList) :
    contains (front ++ back) "$\x7b" = contains back "$\x7b" := by
  have cut : ∀ cs : List Char, '$' ∉ cs →
      (['$', '{'] <:+: cs ++ back.toList ↔ ['$', '{'] <:+: back.toList) := by
    intro cs absent
    induction cs with
    | nil => rfl
    | cons c cs ih =>
        rw [List.mem_cons, not_or] at absent
        rw [List.cons_append, List.infix_cons_iff, ih absent.2]
        refine or_iff_right fun starts => ?_
        obtain ⟨rest, shape⟩ := starts
        exact absent.1 (List.cons.inj shape).1
  rw [Bool.eq_iff_iff, contains_iff, contains_iff, String.toList_append]
  exact cut front.toList noDollar

theorem noReference_of_hostChars {s : String} (chars : ∀ c ∈ s.toList, hostChar c = true) :
    contains s "$\x7b" = false := by
  have noDollar : '$' ∉ s.toList := fun member => (plain_of_hostChar (chars '$' member)).2 rfl
  have cut : contains (s ++ "") "$\x7b" = contains "" "$\x7b" := contains_reference_append noDollar
  rw [String.append_empty] at cut
  rw [cut]
  decide

theorem hostChar_of_ipv6 {base : String} {ip : BitVec 128}
    (literal : ipv6FromChars base.toList = some ip) : ∀ c ∈ base.toList, hostChar c = true := by
  intro c member
  rcases mem_of_ipv6FromChars literal c member with hex | rfl | rfl
  · simp [hostChar, hex]
  · decide
  · decide

theorem hostChar_of_scoped {base : String} {ip : BitVec 128}
    (literal : ipv6FromChars base.toList = some ip) :
    ∀ c ∈ (base ++ "%").toList, hostChar c = true := by
  intro c member
  rw [String.toList_append, List.mem_append] at member
  rcases member with inBase | inPercent
  · exact hostChar_of_ipv6 literal c inBase
  · obtain rfl : c = '%' := by simpa using inPercent
    decide

/-! ## Candidates that denote one host -/

/-- A literal denotes one host, when a scope id that it carries is plain. -/
theorem denotesHost_of_address {candidate : String} {address : Address}
    (address? : ipAddress candidate = some address)
    (plain : ∀ ip scope, address = .v6 ip (some scope) → PlainScope scope) :
    DenotesHost candidate := by
  have isLiteral : (ipAddress candidate).isSome = true := by rw [address?]; rfl
  have whole := address?
  rw [ipAddress, Option.or_eq_some_iff] at whole
  rcases whole with v4 | ⟨-, v6⟩
  · obtain ⟨ip, literal, rfl⟩ := Option.map_eq_some_iff.mp v4
    have chars : ∀ c ∈ candidate.toList, hostChar c = true := by
      intro c member
      rcases mem_of_ipv4Address literal c member with digit | rfl
      · simp [hostChar, isHexDigit, digit]
      · decide
    refine ⟨Or.inl isLiteral, noDelimiter_of_hostChars chars, ?_, noReference_of_hostChars chars⟩
    rw [portText, address?]
    intro colon
    rcases mem_of_ipv4Address literal ':' colon with digit | dot
    · exact absurd digit (by decide)
    · cases dot
  · obtain ⟨⟨ip, scopeId⟩, literal, rfl⟩ := Option.map_eq_some_iff.mp v6
    rcases text_of_ipv6Address literal with ⟨-, bare, rfl⟩ | ⟨base, scope, rfl, bare, rfl, -⟩
    · have chars := hostChar_of_ipv6 bare
      refine ⟨Or.inl isLiteral, noDelimiter_of_hostChars chars, ?_, noReference_of_hostChars chars⟩
      rw [portText, address?]
      simp
    · have scopePlain := plain ip scope rfl
      have chars := hostChar_of_scoped bare
      refine ⟨Or.inl isLiteral, ?_, ?_, ?_⟩
      · intro c member
        rw [String.toList_append, List.mem_append] at member
        exact member.elim (noDelimiter_of_hostChars chars c) (scopePlain.noDelimiter c)
      · rw [portText, address?]
        exact scopePlain.noPort
      · have noDollar : '$' ∉ (base ++ "%").toList := fun member =>
          (plain_of_hostChar (chars '$' member)).2 rfl
        rw [contains_reference_append noDollar]
        exact scopePlain.noReference

/-- What `HOSTNAME` matches denotes one host. -/
theorem denotesHost_of_hostname {candidate : String} (notLiteral : ipAddress candidate = none)
    (isName : hostname.isMatch candidate = true)
    (trimmed : ∀ c ∈ candidate.toList.getLast?, isSpace c = false) : DenotesHost candidate := by
  have labels := (hostname_isMatch_iff_of_trimmed trimmed).mp isName
  have labelOrDot : ∀ c ∈ candidate.toList, labelChar c = true ∨ c = '.' := by
    intro c member
    rcases eq_or_mem_splitOn '.' member with dot | ⟨part, inParts, here⟩
    · exact Or.inr dot
    · exact Or.inl ((labels part inParts).1.labelChars c here)
  have chars : ∀ c ∈ candidate.toList, hostChar c = true := by
    intro c member
    rcases labelOrDot c member with letter | rfl
    · simp [hostChar, letter]
    · decide
  refine ⟨Or.inr fun part inParts => (labels part inParts).1, noDelimiter_of_hostChars chars, ?_,
    noReference_of_hostChars chars⟩
  rw [portText, notLiteral]
  intro colon
  rcases labelOrDot ':' colon with letter | dot
  · exact absurd letter (by decide)
  · cases dot

/-- Whatever a storable entry on whole hosts admits denotes one host. -/
theorem denotesHost_of_matchesRule {candidate rule : String} (storable : Storable rule)
    (wholeHost : WholeHost rule) (trimmed : ∀ c ∈ rule.toList.getLast?, isSpace c = false)
    (admitted : matchesRule candidate rule = true) : DenotesHost candidate := by
  unfold matchesRule at admitted
  cases network? : cidr rule with
  | some network =>
      simp only [network?] at admitted
      cases network with
      | v6 network => exact (wholeHost.noIpv6Network network network?).elim
      | v4 network =>
          cases address? : ipAddress candidate with
          | none => simp [address?] at admitted
          | some address =>
              simp only [address?] at admitted
              cases address with
              | v4 ip => exact denotesHost_of_address address? (by simp)
              | v6 ip scopeId => cases admitted
  | none =>
      simp only [network?, wholeHost.noSuffix, Bool.false_eq_true, if_false, beq_iff_eq] at admitted
      subst admitted
      have bare := removePrefix_of_not_startsWith wholeHost.noSuffix
      cases storable with
      | cidr network some => rw [network?] at some; cases some
      | address address _ _ _ address? =>
          rw [bare] at address?
          refine denotesHost_of_address address? ?_
          rintro ip scope rfl
          exact wholeHost.plainScope ip scope address?
      | name _ _ _ address? isName =>
          rw [bare] at address? isName
          exact denotesHost_of_hostname address? isName trimmed

/-! ## Candidates that do not -/

theorem not_denotesHost_of_at {candidate : String} (member : '@' ∈ candidate.toList) :
    ¬ DenotesHost candidate := by
  intro denotes
  exact absurd (denotes.noDelimiter '@' member) (by decide)

/-- An IPv6 network admits a literal with any scope id at all. -/
theorem admits_scoped_of_ipv6Network {entry : String} {network : Network 128}
    (network? : cidr (ucd.lower (strip entry)) = some (.v6 network)) :
    ∃ candidate, ucd.lower (strip candidate) = candidate ∧ '@' ∈ candidate.toList ∧
      matchesRule candidate (ucd.lower (strip entry)) = true := by
  have read : ipNetwork (ucd.lower (strip entry)) = some (.v6 network) := by
    rw [cidr] at network?
    split at network?
    · exact network?
    · cases network?
  rw [ipNetwork, Option.or_eq_some_iff] at read
  have read6 : ipv6Network (ucd.lower (strip entry)) = some network := by
    rcases read with v4 | ⟨-, v6⟩
    · obtain ⟨_, _, impossible⟩ := Option.map_eq_some_iff.mp v4
      cases impossible
    · obtain ⟨found, parsed, same⟩ := Option.map_eq_some_iff.mp v6
      cases same
      exact parsed
  obtain ⟨base, rest, ip, shape, literal, inside⟩ := text_of_ipv6Network read6
  have bare : ipv6FromChars (String.ofList base).toList = some ip := by
    rw [String.toList_ofList]
    exact literal
  have scopedLiteral : ipAddress (String.ofList base ++ "%" ++ "@") = some (.v6 ip (some "@")) :=
    ipAddress_scoped bare (by decide) (by decide) (by decide)
  refine ⟨String.ofList base ++ "%" ++ "@", ?_, by simp, ?_⟩
  · apply Unicode.lower_strip_eq_self
    · intro c member
      simp only [String.toList_append, String.toList_ofList, List.mem_append] at member
      rcases member with (inBase | percent) | at_
      · exact Unicode.lowered_of_mem_lower (shape ▸ List.mem_append_left rest inBase)
      · obtain rfl : c = '%' := by simpa using percent
        exact Unicode.lowered_ascii (by decide) (by decide)
      · obtain rfl : c = '@' := by simpa using at_
        exact Unicode.lowered_ascii (by decide) (by decide)
    · cases base with
      | nil => cases colon_mem_of_ipv6FromChars literal
      | cons c cs =>
          intro d head
          refine @Unicode.isSpace_head_lower_strip ucd entry d ?_
          rw [shape]
          simpa using head
    · intro c last
      obtain rfl : '@' = c := by simpa [List.getLast?_append] using last
      decide
  · rw [matchesRule, network?]
    simp only [scopedLiteral]
    exact inside

/-! ## Which allowlists permit only texts that denote one host -/

/-- An accepted allowlist permits only texts that denote one host exactly when
all of its entries compare whole hosts. -/
theorem denotesHost_of_matchesAllowlist_iff {entries : List String}
    (accepted : validateEntries ucd entries = .ok ()) :
    (∀ host, matchesAllowlist ucd host entries = true → DenotesHost (ucd.lower (strip host))) ↔
      ∀ entry ∈ entries, WholeHost (ucd.lower (strip entry)) := by
  constructor
  · intro permits entry member
    have admits : ∀ candidate, ucd.lower (strip candidate) = candidate → candidate.toList ≠ [] →
        matchesRule candidate (ucd.lower (strip entry)) = true → DenotesHost candidate := by
      intro candidate same nonempty matched
      have denotes := permits candidate
      rw [matchesAllowlist_iff, same] at denotes
      exact denotes ⟨by simpa using nonempty, entry, member, matched⟩
    have noSuffix : startsWith (ucd.lower (strip entry)) "." = false := by
      by_contra dot
      rw [Bool.not_eq_false] at dot
      have same : ucd.lower (strip ("@" ++ ucd.lower (strip entry))) =
          "@" ++ ucd.lower (strip entry) := by
        refine lower_strip_append (toList_ne_nil_of_startsWith_dot dot) ?_ ?_ (by simp)
        · intro c at_
          obtain rfl : c = '@' := by simpa using at_
          exact Unicode.lowered_ascii (by decide) (by decide)
        · intro c head
          obtain rfl : '@' = c := by simpa using head
          decide
      have denotes := admits _ same (by simp) (matchesRule_of_endsWith dot (by simp))
      exact not_denotesHost_of_at (by simp) denotes
    refine ⟨noSuffix, ?_, ?_⟩
    · intro network network?
      obtain ⟨candidate, same, at_, matched⟩ := admits_scoped_of_ipv6Network network?
      exact not_denotesHost_of_at at_ (admits candidate same (List.ne_nil_of_mem at_) matched)
    · intro ip scope address?
      obtain ⟨base, shape, slash⟩ := text_of_scoped address?
      have exact : cidr (ucd.lower (strip entry)) = none := by
        rw [cidr, if_neg (by rw [contains_slash_iff]; exact slash)]
      have matched : matchesRule (ucd.lower (strip entry)) (ucd.lower (strip entry)) = true := by
        simp [matchesRule, exact, noSuffix]
      have denotes := admits _ (by simp) (by rw [shape]; simp) matched
      have port := denotes.noPort
      rw [portText, address?] at port
      refine ⟨fun c inScope => denotes.noDelimiter c (by rw [shape]; simp [inScope]), port, ?_⟩
      have reference := denotes.noReference
      rw [← Bool.not_eq_true, contains_iff] at reference ⊢
      intro inScope
      refine reference (inScope.trans ?_)
      rw [shape, String.toList_append]
      exact (List.suffix_append _ _).isInfix
  · intro whole host admitted
    rw [matchesAllowlist_iff] at admitted
    obtain ⟨-, entry, member, here⟩ := admitted
    exact denotesHost_of_matchesRule (storable_of_validateEntries accepted member)
      (whole entry member) (fun _ => Unicode.isSpace_getLast_lower_strip) here

/-- An accepted allowlist whose entries all compare whole hosts. -/
theorem denotesHost_of_matchesAllowlist_iff_exact :
    (∀ host, matchesAllowlist Unicode.basic host
          ["demo-target", "10.0.0.0/8", "2001:db8::1%eth0"] = true →
        DenotesHost (Unicode.basic.lower (strip host))) ↔
      ∀ entry ∈ ["demo-target", "10.0.0.0/8", "2001:db8::1%eth0"],
        WholeHost (Unicode.basic.lower (strip entry)) :=
  denotesHost_of_matchesAllowlist_iff (by decide +kernel)

/-- The accepted suffix `.example.com` permits a path on another host. -/
theorem suffix_permits_path :
    ¬ ∀ entries, validateEntries Unicode.basic entries = .ok () →
      ∀ host, matchesAllowlist Unicode.basic host entries = true →
        DenotesHost (Unicode.basic.lower (strip host)) := by
  intro safe
  have denotes := safe [".example.com"] (by decide +kernel) "evil.test/x.example.com"
    (by decide +kernel)
  have member : '/' ∈ (Unicode.basic.lower (strip "evil.test/x.example.com")).toList := by
    decide +kernel
  exact absurd (denotes.noDelimiter '/' member) (by decide)

end Plimsoll.TargetPolicy
