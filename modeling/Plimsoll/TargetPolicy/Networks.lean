import Plimsoll.Python.IpaddressCase
import Plimsoll.TargetPolicy

/-!
What a CIDR entry of an allowlist permits: the addresses that agree with its network
on the bits of the prefix, none of them blocked.
-/

namespace Plimsoll.TargetPolicy

open Python Python.Ipaddress

variable {ucd : Unicode} {entry : String} {network : IpNetwork}

/-! ## The text of a network -/

/-- A digit, a dot, or the slash in front of a prefix length. -/
def MaskChar (c : Char) : Prop := (c.isDigit = true ∨ c = '.') ∨ c = '/'

theorem MaskChar.isSpace {c : Char} (char : MaskChar c) : isSpace c = false := by
  rcases char with (digit | rfl) | rfl
  · exact isSpace_of_hexDigit (by simp [isHexDigit, digit])
  · decide
  · decide

theorem MaskChar.ascii {c : Char} (char : MaskChar c) : c.toNat < 128 := by
  rcases char with digit | rfl
  · exact digit_ascii digit
  · decide

theorem MaskChar.toLower {c : Char} (char : MaskChar c) : c.toLower = c := by
  rcases char with digit | rfl
  · exact toLower_of_digit digit
  · decide

theorem isDigit_of_prefixlen {w prefixlen : Nat} {cs : List Char}
    (read : prefixFromPrefixString w cs = some prefixlen) :
    cs ≠ [] ∧ ∀ c ∈ cs, c.isDigit = true := by
  unfold prefixFromPrefixString at read
  split at read
  · cases read
  · rename_i digits
    rw [not_not, asciiDigits, Bool.and_eq_true, List.all_eq_true] at digits
    exact ⟨by simpa using digits.1, digits.2⟩

/-- The text in front of the slash of a network, and the text behind it. -/
theorem toList_of_split_two {s addr mask : String} (cut : split s '/' = [addr, mask]) :
    s.toList = addr.toList ++ '/' :: mask.toList := by
  rw [toList_of_split cut]
  simp

/-- An IPv4 network with a prefix length is digits, dots and a slash. -/
theorem mem_of_ipv4Network {s : String} {network : Network 32}
    (parsed : ipv4Network s = some network) : ∀ c ∈ s.toList, MaskChar c := by
  unfold ipv4Network at parsed
  split at parsed
  · rename_i addr cut
    obtain ⟨ip, literal, -⟩ := Option.bind_eq_some_iff.mp parsed
    have whole : s.toList = addr.toList := by
      rw [toList_of_split cut]
      simp
    rw [whole]
    exact fun c member => Or.inl (mem_of_ipv4Address literal c member)
  · rename_i addr mask cut
    obtain ⟨ip, literal, made⟩ := Option.bind_eq_some_iff.mp parsed
    obtain ⟨length, read, -⟩ := Option.bind_eq_some_iff.mp made
    have maskChars : ∀ c ∈ mask.toList, c.isDigit = true ∨ c = '.' := by
      rcases Option.or_eq_some_iff.mp read with digits | ⟨-, dotted⟩
      · exact fun c member => Or.inl ((isDigit_of_prefixlen digits).2 c member)
      · unfold prefixFromIpString at dotted
        split at dotted
        · cases dotted
        · rename_i maskIp maskLiteral
          exact mem_of_ipv4FromChars maskLiteral
    rw [toList_of_split_two cut]
    intro c member
    rcases List.mem_append.mp member with inAddr | later
    · exact Or.inl (mem_of_ipv4Address literal c inAddr)
    · rcases List.mem_cons.mp later with slash | inMask
      · exact Or.inr slash
      · exact Or.inl (maskChars c inMask)
  · cases parsed

/-- What the text of a network is: digits, dots and a slash, or an IPv6 literal in
front of a slash and digits. -/
theorem text_of_cidr (isCidr : cidr entry = some network) :
    (∃ n, network = .v4 n ∧ ipNetwork entry = some network ∧ ∀ c ∈ entry.toList, MaskChar c) ∨
      ∃ (addr mask : String) (ip : BitVec 128 × Option String) (n : Network 128), network = .v6 n ∧ entry.toList = addr.toList ++ '/' :: mask.toList ∧
        ipv6Address addr = some ip ∧ mask.toList ≠ [] ∧ (∀ c ∈ mask.toList, Char.isDigit c = true) ∧
          ((prefixFromPrefixString 128 mask.toList).bind (networkOf ip.1)) = some n := by
  unfold cidr at isCidr
  split at isCidr
  · rename_i slash
    have parsed := isCidr
    rw [ipNetwork, Option.or_eq_some_iff] at isCidr
    rcases isCidr with v4 | ⟨-, v6⟩
    · obtain ⟨n, read, rfl⟩ := Option.map_eq_some_iff.mp v4
      exact Or.inl ⟨n, rfl, parsed, mem_of_ipv4Network read⟩
    · obtain ⟨n, read, rfl⟩ := Option.map_eq_some_iff.mp v6
      unfold ipv6Network at read
      split at read
      · rename_i addr cut
        obtain ⟨ip, literal, -⟩ := Option.bind_eq_some_iff.mp read
        have whole : entry.toList = addr.toList := by
          rw [toList_of_split cut]
          simp
        rw [contains_slash_iff, whole] at slash
        rw [ipv6Address, if_pos slash] at literal
        cases literal
      · rename_i addr mask cut
        obtain ⟨ip, literal, made⟩ := Option.bind_eq_some_iff.mp read
        obtain ⟨length, digits, -⟩ := Option.bind_eq_some_iff.mp made
        obtain ⟨some_, all⟩ := isDigit_of_prefixlen digits
        exact Or.inr ⟨addr, mask, ip, n, rfl, toList_of_split_two cut, literal, some_, all, made⟩
      · cases read
  · cases isCidr

/-- A network's text has no whitespace around it. -/
theorem strip_of_cidr (isCidr : cidr entry = some network) : strip entry = entry := by
  rw [← String.toList_inj, toList_strip]
  rcases text_of_cidr isCidr with ⟨n, -, -, chars⟩ | ⟨addr, mask, ip, n, -, text, literal, some_, digits, -⟩
  · exact stripChars_eq_self (fun c head => (chars c (List.mem_of_head? head)).isSpace)
      fun c last => (chars c (List.mem_of_getLast? last)).isSpace
  · rw [text]
    refine stripChars_eq_self (fun c head => ?_) fun c last => ?_
    · have first : ∀ {front : List Char}, ipv6FromChars front = some ip.1 → ∀ back : List Char,
          c ∈ (front ++ back).head? → isSpace c = false := by
        intro front read back atHead
        have nonempty : front ≠ [] := List.ne_nil_of_mem (colon_mem_of_ipv6FromChars read)
        rw [List.head?_append_of_ne_nil _ nonempty] at atHead
        rcases mem_of_ipv6FromChars read c (List.mem_of_head? atHead) with hex | rfl | rfl
        · exact isSpace_of_hexDigit hex
        · decide
        · decide
      have literal : ipv6Address addr = some (ip.1, ip.2) := literal
      rcases text_of_ipv6Address literal with
        ⟨-, bare, -⟩ | ⟨base, scope, rfl, bare, -⟩
      · exact first bare _ head
      · refine first bare ('%' :: scope.toList ++ '/' :: mask.toList) ?_
        simpa using head
    · rw [List.getLast?_append_of_ne_nil _ (List.cons_ne_nil _ _), List.getLast?_cons_of_ne_nil some_]
        at last
      exact MaskChar.isSpace (Or.inl (Or.inl (digits c (List.mem_of_getLast? last))))

/-- A network's text in lower case is the text of the same network. -/
theorem cidr_lower (keeps : KeepsDelimiters ucd) (isCidr : cidr entry = some network) :
    cidr (ucd.lower entry) = some network := by
  rcases text_of_cidr isCidr with ⟨n, -, -, chars⟩ | ⟨addr, mask, ip, n, rfl, text, literal, some_, digits, made⟩
  · have same : ucd.lower entry = entry := by
      refine Unicode.lower_eq_self fun c member => ?_
      exact Unicode.lowered_ascii (chars c member).ascii (chars c member).toLower
    rw [same]
    exact isCidr
  · have literal : ipv6Address addr = some (ip.1, ip.2) := literal
    obtain ⟨low, scopeId, lowered, lowLiteral⟩ :=
      ipv6Address_lower keeps literal ('/' :: mask.toList)
    have behind : ∀ before, ucd.lowerFrom before ('/' :: mask.toList) = '/' :: mask.toList := by
      intro before
      refine Unicode.lowerFrom_eq_self fun c member => ?_
      have char : MaskChar c := by
        rcases List.mem_cons.mp member with slash | inMask
        · exact Or.inr slash
        · exact Or.inl (Or.inl (digits c inMask))
      exact Unicode.lowered_ascii char.ascii char.toLower
    have noSlash : '/' ∉ low.toList := by
      intro slash
      rw [ipv6Address, if_pos slash] at lowLiteral
      cases lowLiteral
    have maskSlash : '/' ∉ mask.toList := fun slash => absurd (digits '/' slash) (by decide)
    have joined : ucd.lower entry = join (String.ofList ['/']) [low, mask] := by
      rw [← String.toList_inj, Unicode.toList_lower, text, lowered, behind, join,
        String.toList_intercalate]
      simp
    have cut : split (ucd.lower entry) '/' = [low, mask] := by
      rw [joined]
      refine split_join (List.cons_ne_nil _ _) ?_
      rintro part (_ | ⟨_, _ | ⟨_, impossible⟩⟩)
      · exact noSlash
      · exact maskSlash
      · cases impossible
    have slash : contains (ucd.lower entry) "/" = true := by
      rw [contains_slash_iff, toList_of_split_two cut]
      simp
    have v6 : ipv6Network (ucd.lower entry) = some n := by
      rw [ipv6Network, cut]
      simp only [lowLiteral, Option.bind_some]
      exact made
    have v4 : ipv4Network (ucd.lower entry) = none := by
      cases parsed : ipv4Network (ucd.lower entry) with
      | none => rfl
      | some n4 =>
          have colon : ':' ∈ (ucd.lower entry).toList := by
            rw [toList_of_split_two cut]
            rcases text_of_ipv6Address lowLiteral with ⟨-, bare, -⟩ | ⟨base, scope, rfl, bare, -⟩
            · exact List.mem_append_left _ (colon_mem_of_ipv6FromChars bare)
            · simp [colon_mem_of_ipv6FromChars bare]
          rcases mem_of_ipv4Network parsed ':' colon with (digit | dot) | slash'
          · exact absurd digit (by decide)
          · cases dot
          · cases slash'
    rw [cidr, if_pos slash, ipNetwork, v4, v6]
    rfl

/-! ## What an entry permits -/

theorem validateEntries_singleton (entry : String) :
    validateEntries ucd [entry] = validateEntry ucd entry := by
  rw [validateEntries]
  cases validateEntry ucd entry with
  | error exc => rfl
  | ok _ => rfl

theorem lower_ne_empty_of_cidr (keeps : KeepsDelimiters ucd) (isCidr : cidr entry = some network) :
    ucd.lower entry ≠ "" := by
  intro empty
  have read := cidr_lower keeps isCidr
  rw [empty] at read
  exact absurd read (by simp [cidr, contains])

/-- A network is accepted unless it is everything or shares an address with a
blocked one. -/
theorem validateEntry_cidr_iff (keeps : KeepsDelimiters ucd) (isCidr : cidr entry = some network) :
    validateEntry ucd entry = .ok () ↔
      0 < network.prefixlen ∧
        ∀ blocked ∈ blockedNetworks, ¬ ∃ ip, network.Agrees ip ∧ blocked.Agrees ip := by
  have read := cidr_lower keeps isCidr
  have apart : ∀ blocked : IpNetwork,
      network.overlaps blocked = false ↔ ¬ ∃ ip, network.Agrees ip ∧ blocked.Agrees ip := by
    intro blocked
    rw [← IpNetwork.overlaps_iff, Bool.not_eq_true]
  rw [validateEntry_ok_iff, strip_of_cidr isCidr]
  constructor
  · rintro ⟨-, -, storable⟩
    cases storable with
    | cidr other found positive outside =>
        obtain rfl := Option.some.inj (found.symm.trans read)
        exact ⟨Nat.pos_of_ne_zero positive, fun blocked member =>
          (apart blocked).mp (outside blocked member)⟩
    | address _ none_ => simp [read] at none_
    | name none_ => simp [read] at none_
  · rintro ⟨positive, outside⟩
    exact ⟨lower_ne_empty_of_cidr keeps isCidr, rfl, .cidr network read positive.ne' fun blocked member =>
      (apart blocked).mpr (outside blocked member)⟩

/-- A network permits the literals that agree with it. -/
theorem matchesAllowlist_cidr_iff (keeps : KeepsDelimiters ucd) (isCidr : cidr entry = some network)
    {host : String} {address : Address} (literal : ipAddress (strip host) = some address) :
    matchesAllowlist ucd host [entry] = true ↔ network.Agrees address := by
  obtain ⟨address', read, same⟩ := ipAddress_lower keeps literal
  have nonempty : ucd.lower (strip host) ≠ "" := by
    intro empty
    rw [empty] at read
    have nothing : ipAddress "" = none := by decide
    rw [nothing] at read
    cases read
  have agrees : network.Agrees address' ↔ network.Agrees address := by
    cases address <;> cases address' <;> cases same <;> cases network <;> exact Iff.rfl
  rw [matchesAllowlist_iff, ← agrees, ← IpNetwork.contains_iff_agrees]
  simp only [nonempty, ne_eq, not_false_eq_true, true_and, List.mem_singleton, exists_eq_left,
    strip_of_cidr isCidr, matchesRule, cidr_lower keeps isCidr, read]

/-- Every entry of an accepted list is a network, and none of them permits this
address. -/
theorem matchesAllowlist_of_blocked (keeps : KeepsDelimiters ucd) {entries : List String}
    (networks : ∀ entry ∈ entries, (cidr entry).isSome = true)
    (accepted : validateEntries ucd entries = .ok ()) {host : String} {address : Address}
    (literal : ipAddress (strip host) = some address) {blocked : IpNetwork}
    (member : blocked ∈ blockedNetworks) (inside : blocked.Agrees address) :
    matchesAllowlist ucd host entries = false := by
  rw [← Bool.not_eq_true]
  intro admitted
  obtain ⟨nonempty, entry, inEntries, here⟩ := matchesAllowlist_iff.mp admitted
  obtain ⟨network, isCidr⟩ := Option.isSome_iff_exists.mp (networks entry inEntries)
  have agrees : network.Agrees address := by
    refine (matchesAllowlist_cidr_iff keeps isCidr literal).mp ?_
    exact matchesAllowlist_iff.mpr ⟨nonempty, entry, List.mem_singleton_self entry, here⟩
  have ok := validateEntries_ok_iff.mp accepted entry inEntries
  exact ((validateEntry_cidr_iff keeps isCidr).mp ok).2 blocked member ⟨address, agrees, inside⟩

/-- The loopback addresses are literals of blocked addresses. -/
theorem blocked_loopback :
    (ipAddress "127.0.0.1" = some (.v4 0x7f000001#32) ∧ ipAddress "::1" = some (.v6 1#128 none)) ∧
      (blockedNetworks.any fun blocked => blocked.contains (.v4 0x7f000001#32)) = true ∧
        (blockedNetworks.any fun blocked => blocked.contains (.v6 1#128 none)) = true := by
  decide +kernel

theorem blocked_of_any {address : Address}
    (some_ : (blockedNetworks.any fun blocked => blocked.contains address) = true) :
    ∃ blocked ∈ blockedNetworks, blocked.Agrees address := by
  obtain ⟨blocked, member, inside⟩ := List.any_eq_true.mp some_
  exact ⟨blocked, member, IpNetwork.contains_iff_agrees.mp inside⟩

/-- CIDR entries are exact: a network is accepted when its prefix is not empty and it
shares no address with a blocked network; it permits the literals of its version that
agree with it on the prefix, so none that are blocked; and accepted networks never
permit all addresses of a version. -/
theorem cidr_exact (keeps : KeepsDelimiters ucd) :
    (∀ entry network, cidr entry = some network →
      (validateEntries ucd [entry] = .ok () ↔ 0 < network.prefixlen ∧
        ∀ blocked ∈ blockedNetworks, ¬ ∃ ip, network.Agrees ip ∧ blocked.Agrees ip) ∧
      (validateEntries ucd [entry] = .ok () →
        ∀ host address, ipAddress (strip host) = some address →
          (matchesAllowlist ucd host [entry] = true ↔ network.Agrees address) ∧
          ((∃ blocked ∈ blockedNetworks, blocked.Agrees address) →
            matchesAllowlist ucd host [entry] = false))) ∧
    ∀ entries, (∀ entry ∈ entries, (cidr entry).isSome = true) →
      validateEntries ucd entries = .ok () →
        (∃ host ip, ipAddress host = some (.v4 ip) ∧ matchesAllowlist ucd host entries = false) ∧
        ∃ host ip, ipAddress host = some (.v6 ip none) ∧
          matchesAllowlist ucd host entries = false := by
  refine ⟨fun entry network isCidr => ⟨?_, fun accepted host address literal => ⟨?_, ?_⟩⟩, ?_⟩
  · rw [validateEntries_singleton]
    exact validateEntry_cidr_iff keeps isCidr
  · exact matchesAllowlist_cidr_iff keeps isCidr literal
  · rintro ⟨blocked, member, inside⟩
    refine matchesAllowlist_of_blocked keeps (fun other inList => ?_) accepted literal member inside
    rw [List.mem_singleton.mp inList, isCidr]
    rfl
  · intro entries networks accepted
    obtain ⟨⟨literal4, literal6⟩, any4, any6⟩ := blocked_loopback
    obtain ⟨blocked4, member4, inside4⟩ := blocked_of_any any4
    obtain ⟨blocked6, member6, inside6⟩ := blocked_of_any any6
    have strip4 : strip "127.0.0.1" = "127.0.0.1" := by decide
    have strip6 : strip "::1" = "::1" := by decide
    refine ⟨⟨"127.0.0.1", _, literal4, ?_⟩, "::1", _, literal6, ?_⟩
    · exact matchesAllowlist_of_blocked keeps networks accepted (strip4.symm ▸ literal4) member4 inside4
    · exact matchesAllowlist_of_blocked keeps networks accepted (strip6.symm ▸ literal6) member6 inside6

theorem keepsDelimiters_basic : KeepsDelimiters Unicode.basic := by
  intro c d member is
  change d ∈ (if c.toNat < 128 then [c.toLower] else if c = 'Σ' then ['σ'] else [c]) at member
  split at member
  · rename_i ascii
    have table : ((List.range 128).all fun n => ((Char.ofNat n).toLower != '%' &&
        (Char.ofNat n).toLower != '/') || Char.ofNat n == (Char.ofNat n).toLower) = true := by decide
    have row := List.all_eq_true.mp table c.toNat (List.mem_range.mpr ascii)
    rw [Char.ofNat_toNat] at row
    rw [List.mem_singleton.mp member] at is ⊢
    rcases is with percent | slash
    · simpa [percent] using row
    · simpa [slash] using row
  · split at member
    · rw [List.mem_singleton.mp member] at is
      exact absurd is (by decide)
    · exact (List.mem_singleton.mp member).symm

/-- `10.1.2.3/8`, whose host bits are masked away. -/
def sampleNetwork : IpNetwork := .v4 (.of 0x0a010203#32 8 (by decide))

/-- It is accepted and permits `10.9.8.7`. -/
theorem cidr_exact_sample :
    (∀ blocked ∈ blockedNetworks, ¬ ∃ ip, sampleNetwork.Agrees ip ∧ blocked.Agrees ip) ∧
      sampleNetwork.Agrees (.v4 0x0a090807#32) := by
  have facts : (cidr "10.1.2.3/8" = some sampleNetwork ∧
      validateEntries Unicode.basic ["10.1.2.3/8"] = .ok ()) ∧
        ipAddress (strip "10.9.8.7") = some (.v4 0x0a090807#32) ∧
          matchesAllowlist Unicode.basic "10.9.8.7" ["10.1.2.3/8"] = true := by decide +kernel
  obtain ⟨⟨isCidr, accepted⟩, literal, permitted⟩ := facts
  obtain ⟨accepts, permits⟩ := (cidr_exact keepsDelimiters_basic).1 "10.1.2.3/8" sampleNetwork isCidr
  exact ⟨(accepts.mp accepted).2, (permits accepted "10.9.8.7" _ literal).1.mp permitted⟩

end Plimsoll.TargetPolicy
