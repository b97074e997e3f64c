import Plimsoll.TargetPolicy.Hostname

/-!
Forbidden destinations and stored allowlists.

A network entry and an exact entry never admit a forbidden destination: the
validator has compared them with the blocked networks and names. A domain
suffix is compared as if it were a host of its own, which says nothing about
the longer texts it is the end of.
-/

namespace Plimsoll.TargetPolicy

open Python Python.Ipaddress

/-- A destination no policy may permit: a blocked name, or a literal in a
blocked network. -/
def Forbidden (candidate : String) : Prop :=
  candidate ∈ blockedNames ∨
    ∃ address, ipAddress candidate = some address ∧
      ∃ blocked ∈ blockedNetworks, blocked.contains address = true

variable {ucd : Unicode}

/-! ## Entries that admit nothing forbidden -/

theorem ipAddress_of_blockedName {name : String} (blocked : name ∈ blockedNames) :
    ipAddress name = none := by
  simp only [blockedNames, List.mem_cons, List.not_mem_nil, or_false] at blocked
  rcases blocked with rfl | rfl
  · decide
  · decide

theorem percent_not_mem_blockedName {name : String} (blocked : name ∈ blockedNames) :
    '%' ∉ name.toList := by
  simp only [blockedNames, List.mem_cons, List.not_mem_nil, or_false] at blocked
  rcases blocked with rfl | rfl
  · decide
  · decide

theorem percent_not_mem_of_hostname {s : String} (isName : hostname.isMatch s = true) :
    '%' ∉ s.toList := by
  intro member
  rcases mem_of_hostname isName '%' member with letter | dot | newline
  · exact absurd letter (by decide)
  · cases dot
  · cases newline

/-- Behind its optional dot a storable entry is not forbidden. -/
theorem not_forbidden_of_storable {rule : String} (storable : Storable rule)
    (exact : cidr rule = none) : ¬ Forbidden (removePrefix rule ".") := by
  cases storable with
  | cidr network network? => rw [exact] at network?; cases network?
  | address address _ _ notName address? outside =>
      rintro (name | ⟨other, other?, blocked, member, inside⟩)
      · exact notName name
      · obtain rfl : address = other := Option.some.inj (address?.symm.trans other?)
        rw [outside blocked member] at inside
        cases inside
  | name _ _ notName address? isName =>
      rintro (name | ⟨other, other?, -⟩)
      · exact notName name
      · rw [address?] at other?
        cases other?

/-- A storable network holds no forbidden destination. -/
theorem not_contains_of_forbidden {rule candidate : String} (storable : Storable rule)
    (forbidden : Forbidden candidate) {network : IpNetwork} (network? : cidr rule = some network)
    {address : Address} (address? : ipAddress candidate = some address) :
    network.contains address = false := by
  cases storable with
  | cidr network' network'? _ apart =>
      obtain rfl : network = network' := Option.some.inj (network?.symm.trans network'?)
      rcases forbidden with name | ⟨other, other?, blocked, member, inside⟩
      · rw [ipAddress_of_blockedName name] at address?
        cases address?
      · obtain rfl : address = other := Option.some.inj (address?.symm.trans other?)
        by_contra holds
        rw [Bool.not_eq_false] at holds
        rw [IpNetwork.not_contains_of_not_overlaps (apart blocked member) holds] at inside
        cases inside
  | address _ none => rw [network?] at none; cases none
  | name none => rw [network?] at none; cases none

/-- Nothing forbidden ends in a dot and a suffix with a `%` in it. -/
theorem not_endsWith_of_forbidden {suffix candidate : String} {address : Address}
    (address? : ipAddress suffix = some address) (percent : '%' ∈ suffix.toList)
    (forbidden : Forbidden candidate) : endsWith candidate ("." ++ suffix) = false := by
  by_contra ends
  rw [Bool.not_eq_false, endsWith_iff] at ends
  obtain ⟨front, cut⟩ := ends
  have shape : candidate = String.ofList front ++ "." ++ suffix := by
    rw [← String.toList_inj, ← cut]
    simp
  rcases forbidden with name | ⟨other, other?, -⟩
  · exact percent_not_mem_blockedName name (by simp [shape, percent])
  · obtain ⟨base, scope, ip, rfl, literal, -⟩ := scoped_of_percent_mem address? percent
    rw [shape, ipAddress_dot_scoped literal] at other?
    cases other?

/-- A storable entry admits nothing forbidden, unless it is a domain suffix
without a `%`. -/
theorem matchesRule_of_forbidden {rule candidate : String} (storable : Storable rule)
    (inScope : startsWith rule "." = true → '%' ∈ rule.toList) (forbidden : Forbidden candidate) :
    matchesRule candidate rule = false := by
  unfold matchesRule
  cases network? : cidr rule with
  | some network =>
      cases address? : ipAddress candidate with
      | none => rfl
      | some address => exact not_contains_of_forbidden storable forbidden network? address?
  | none =>
      have apart := not_forbidden_of_storable storable network?
      by_cases dot : startsWith rule "." = true
      · have shape := removePrefix_of_startsWith dot
        have percent : '%' ∈ (removePrefix rule ".").toList := by
          have member := inScope dot
          rw [shape] at member
          simpa using member
        have differs : candidate ≠ removePrefix rule "." := by
          rintro rfl
          exact apart forbidden
        have address? : ∃ address, ipAddress (removePrefix rule ".") = some address := by
          cases storable with
          | cidr network some => rw [network?] at some; cases some
          | address address _ _ _ address? => exact ⟨address, address?⟩
          | name _ _ _ _ isName => exact absurd percent (percent_not_mem_of_hostname isName)
        obtain ⟨address, address?⟩ := address?
        simp [dot, differs, not_endsWith_of_forbidden address? percent forbidden]
      · rw [Bool.not_eq_true] at dot
        rw [removePrefix_of_not_startsWith dot] at apart
        have differs : candidate ≠ rule := by
          rintro rfl
          exact apart forbidden
        simp [dot, differs]

/-! ## What a domain suffix admits -/

theorem head?_of_startsWith_dot {rule : String} (dot : startsWith rule "." = true) :
    rule.toList.head? = some '.' := by
  obtain ⟨rest, cut⟩ := startsWith_iff.mp dot
  rw [← cut]
  rfl

theorem toList_ne_nil_of_startsWith_dot {rule : String} (dot : startsWith rule "." = true) :
    rule.toList ≠ [] := by
  intro empty
  have head := head?_of_startsWith_dot dot
  rw [empty] at head
  cases head

theorem cidr_eq_none_of_dot {rule : String} (dot : startsWith rule "." = true) :
    cidr rule = none := by
  rw [cidr, ipNetwork_dot (head?_of_startsWith_dot dot), ite_self]

theorem slash_not_mem_of_storable {rule : String} (storable : Storable rule)
    (exact : cidr rule = none) : '/' ∉ rule.toList := by
  cases storable with
  | cidr network network? => rw [exact] at network?; cases network?
  | address _ _ slash => exact slash
  | name _ slash => exact slash

/-- A suffix rule admits whatever ends in it. -/
theorem matchesRule_of_endsWith {candidate rule : String} (dot : startsWith rule "." = true)
    (ends : endsWith candidate rule = true) : matchesRule candidate rule = true := by
  unfold matchesRule
  have whole := removePrefix_of_startsWith dot
  rw [cidr_eq_none_of_dot dot]
  simp only [dot, if_true, Bool.or_eq_true]
  rw [← whole]
  exact Or.inr ends

/-- The link-local literal whose scope id is the whole of a suffix rule. -/
def linkLocal (rule : String) : String := "fe80::1" ++ "%" ++ rule

theorem forbidden_linkLocal {rule : String} (nonempty : rule ≠ "") (noPercent : '%' ∉ rule.toList)
    (noSlash : '/' ∉ rule.toList) : Forbidden (linkLocal rule) := by
  have literal : ipv6FromChars "fe80::1".toList =
      some (BitVec.ofNat 128 0xfe800000000000000000000000000001) := by decide +kernel
  refine Or.inr ⟨_, ipAddress_scoped literal nonempty noPercent noSlash, ?_⟩
  obtain ⟨network, member, inside⟩ : ∃ network ∈ blockedNetworks, network.contains
      (.v6 (BitVec.ofNat 128 0xfe800000000000000000000000000001) none) = true := by decide +kernel
  refine ⟨network, member, ?_⟩
  cases network with
  | v4 => cases inside
  | v6 => exact inside

/-- Text in lower case in front of a trimmed rule leaves it trimmed and in lower
case. -/
theorem lower_strip_append {front : String} {entry : String}
    (nonempty : (ucd.lower (strip entry)).toList ≠ [])
    (lowered : ∀ c ∈ front.toList, ucd.Lowered c)
    (first : ∀ c ∈ front.toList.head?, isSpace c = false) (some : front.toList ≠ []) :
    ucd.lower (strip (front ++ ucd.lower (strip entry))) = front ++ ucd.lower (strip entry) := by
  apply Unicode.lower_strip_eq_self
  · intro c member
    rw [String.toList_append, List.mem_append] at member
    exact member.elim (lowered c) Unicode.lowered_of_mem_lower
  · rw [String.toList_append, List.head?_append_of_ne_nil _ some]
    exact first
  · rw [String.toList_append, List.getLast?_append_of_ne_nil _ nonempty]
    exact fun _ => Unicode.isSpace_getLast_lower_strip

/-! ## Which allowlists admit nothing forbidden -/

/-- An accepted allowlist admits nothing forbidden exactly when each of its
domain suffixes ends in a scoped literal. -/
theorem matchesAllowlist_of_forbidden_iff {entries : List String}
    (accepted : validateEntries ucd entries = .ok ()) :
    (∀ host, Forbidden (ucd.lower (strip host)) → matchesAllowlist ucd host entries = false) ↔
      ∀ entry ∈ entries, startsWith (ucd.lower (strip entry)) "." = true →
        '%' ∈ (ucd.lower (strip entry)).toList := by
  constructor
  · intro safe entry member dot
    by_contra percent
    have noSlash := slash_not_mem_of_storable (storable_of_validateEntries accepted member)
      (cidr_eq_none_of_dot dot)
    have nonempty := toList_ne_nil_of_startsWith_dot dot
    have same : ucd.lower (strip (linkLocal (ucd.lower (strip entry)))) =
        linkLocal (ucd.lower (strip entry)) := by
      refine lower_strip_append nonempty ?_ ?_ (by simp)
      · intro c inFront
        have table : (("fe80::1" ++ "%").toList.all fun c =>
            c.toNat < 128 && c.toLower == c) = true := by decide
        have row := List.all_eq_true.mp table c inFront
        rw [Bool.and_eq_true, decide_eq_true_eq, beq_iff_eq] at row
        exact Unicode.lowered_ascii row.1 row.2
      · intro c head
        obtain rfl : 'f' = c := by simpa using head
        decide
    have forbidden := forbidden_linkLocal (fun empty => nonempty (by rw [empty]; rfl)) percent noSlash
    have denied := safe (linkLocal (ucd.lower (strip entry))) (same.symm ▸ forbidden)
    have admitted : matchesAllowlist ucd (linkLocal (ucd.lower (strip entry))) entries = true := by
      rw [matchesAllowlist_iff, same]
      refine ⟨?_, entry, member, matchesRule_of_endsWith dot ?_⟩
      · intro empty
        have chars := congrArg String.toList empty
        simp [linkLocal] at chars
      · rw [endsWith_iff, linkLocal, String.toList_append]
        exact List.suffix_append _ _
    rw [admitted] at denied
    cases denied
  · intro inScope host forbidden
    by_contra admitted
    rw [Bool.not_eq_false, matchesAllowlist_iff] at admitted
    obtain ⟨-, entry, member, here⟩ := admitted
    rw [matchesRule_of_forbidden (storable_of_validateEntries accepted member)
      (inScope entry member) forbidden] at here
    cases here

/-- An accepted allowlist whose only suffix ends in a scoped literal. -/
theorem matchesAllowlist_of_forbidden_iff_scoped :
    (∀ host, Forbidden (Unicode.basic.lower (strip host)) →
        matchesAllowlist Unicode.basic host [".2001:db8::1%eth0", "demo-target", "10.0.0.0/8"] =
          false) ↔
      ∀ entry ∈ [".2001:db8::1%eth0", "demo-target", "10.0.0.0/8"],
        startsWith (Unicode.basic.lower (strip entry)) "." = true →
          '%' ∈ (Unicode.basic.lower (strip entry)).toList :=
  matchesAllowlist_of_forbidden_iff (by decide +kernel)

/-- The accepted suffix `.google.internal` admits the metadata host. -/
theorem googleInternal_admits_metadata :
    ¬ ∀ entries, validateEntries Unicode.basic entries = .ok () →
      ∀ host, Forbidden (Unicode.basic.lower (strip host)) →
        matchesAllowlist Unicode.basic host entries = false := by
  intro safe
  have denied := safe [".google.internal"] (by decide +kernel) "metadata.google.internal"
    (Or.inl (by decide +kernel))
  exact absurd denied (by decide +kernel)

end Plimsoll.TargetPolicy
