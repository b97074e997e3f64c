import Plimsoll.Python.Ipaddress
import Mathlib.Data.List.Infix

/-!
What an address literal is made of.

Outside a scope id an IPv4 literal has digits and dots only, and an IPv6
literal has hexadecimal digits, colons, and dots behind its last colon. A scope
id, by contrast, is any text at all without `%` and `/`: `ipAddress_scoped`
builds a literal around one.
-/

namespace Python.Ipaddress

/-! ## IPv4 -/

theorem isDigit_of_parseOctet {cs : List Char} {value : Nat}
    (parsed : parseOctet cs = some value) : ∀ c ∈ cs, c.isDigit = true := by
  unfold parseOctet at parsed
  split at parsed
  · cases parsed
  · rename_i digits
    rw [not_not, asciiDigits, Bool.and_eq_true, List.all_eq_true] at digits
    exact digits.2

theorem mem_of_ipv4FromChars {cs : List Char} {ip : BitVec 32}
    (parsed : ipv4FromChars cs = some ip) : ∀ c ∈ cs, c.isDigit = true ∨ c = '.' := by
  unfold ipv4FromChars at parsed
  split at parsed
  · rename_i a b c d parts
    split at parsed
    · rename_i va vb vc vd octetA octetB octetC octetD
      intro x member
      rcases eq_or_mem_splitOn '.' member with dot | ⟨part, inParts, here⟩
      · exact Or.inr dot
      · rw [parts] at inParts
        simp only [List.mem_cons, List.not_mem_nil, or_false] at inParts
        rcases inParts with rfl | rfl | rfl | rfl
        · exact Or.inl (isDigit_of_parseOctet octetA x here)
        · exact Or.inl (isDigit_of_parseOctet octetB x here)
        · exact Or.inl (isDigit_of_parseOctet octetC x here)
        · exact Or.inl (isDigit_of_parseOctet octetD x here)
    · cases parsed
  · cases parsed

theorem mem_of_ipv4Address {s : String} {ip : BitVec 32}
    (parsed : ipv4Address s = some ip) : ∀ c ∈ s.toList, c.isDigit = true ∨ c = '.' := by
  unfold ipv4Address at parsed
  split at parsed
  · cases parsed
  · exact mem_of_ipv4FromChars parsed

/-! ## IPv6 without a scope id -/

theorem isHexDigit_of_parseHextet {cs : List Char} {value : Nat}
    (parsed : parseHextet cs = some value) : ∀ c ∈ cs, isHexDigit c = true := by
  unfold parseHextet at parsed
  split at parsed
  · cases parsed
  · rename_i digits
    rw [not_not, List.all_eq_true] at digits
    exact digits

theorem isHexDigit_of_appendHextets {parts : List (List Char)} :
    ∀ {ip result : BitVec 128}, appendHextets ip parts = some result →
      ∀ part ∈ parts, ∀ c ∈ part, isHexDigit c = true := by
  induction parts with
  | nil => simp
  | cons first rest ih =>
      intro ip result parsed part inParts
      unfold appendHextets at parsed
      split at parsed
      · cases parsed
      · rename_i value hextet
        rcases List.mem_cons.mp inParts with rfl | later
        · exact isHexDigit_of_parseHextet hextet
        · exact ih parsed part later

/-- With a `::` at `skip`, the front run ends there and the back run starts
behind it, unless the `::` is at the very start or at the very end. -/
theorem runs_of_layout {parts : List (List Char)} {skip hi lo skipped : Nat}
    (indices : skipIndices parts = [skip]) (laid : layout parts = some (hi, lo, skipped)) :
    (hi = skip ∨ parts.head? = some [] ∧ skip ≤ 1) ∧
      (lo = parts.length - skip - 1 ∨
        parts.getLast? = some [] ∧ parts.length - skip ≤ 2) := by
  unfold layout at laid
  rw [indices] at laid
  simp only at laid
  by_cases leading : parts.head? = some [] <;> by_cases trailing : parts.getLast? = some []
  all_goals
    simp only [leading, trailing, true_and, false_and, if_true, if_false, ne_eq] at laid
    split_ifs at laid
    simp only [Option.some.injEq, Prod.mk.injEq] at laid
    simp only [leading, trailing, true_and, false_and, or_false]
    omega

/-- The two runs of hextets a layout names hold every part that is not empty. -/
theorem mem_of_layout {parts : List (List Char)} {hi lo skipped : Nat}
    (laid : layout parts = some (hi, lo, skipped)) :
    ∀ part ∈ parts, part ∈ parts.take hi ∨ part = [] ∨
      part ∈ parts.drop (parts.length - lo) := by
  intro part inParts
  obtain ⟨j, bound, rfl⟩ := List.mem_iff_getElem.mp inParts
  have inFront : ∀ n, j < n → parts[j] ∈ parts.take n := fun n less =>
    List.mem_take_iff_getElem.mpr ⟨j, by omega, rfl⟩
  have inBack : ∀ n, n ≤ j → parts[j] ∈ parts.drop n := fun n less =>
    List.mem_drop_iff_getElem.mpr ⟨j - n, by omega, by congr 1; omega⟩
  cases indices : skipIndices parts with
  | nil =>
      unfold layout at laid
      rw [indices] at laid
      simp only at laid
      split_ifs at laid
      simp only [Option.some.injEq, Prod.mk.injEq] at laid
      exact Or.inl (inFront hi (by omega))
  | cons skip more =>
      cases more with
      | cons second rest =>
          unfold layout at laid
          rw [indices] at laid
          cases laid
      | nil =>
          obtain ⟨front, back⟩ := runs_of_layout indices laid
          have isSkip : skip ∈ skipIndices parts := by
            rw [indices]
            exact List.mem_singleton_self skip
          simp only [skipIndices, List.mem_filter, List.mem_range, Bool.and_eq_true,
            decide_eq_true_eq, beq_iff_eq] at isSkip
          obtain ⟨inRange, ⟨positive, notLast⟩, empty⟩ := isSkip
          rcases Nat.lt_trichotomy j skip with before | rfl | behind
          · rcases front with rfl | ⟨leading, short⟩
            · exact Or.inl (inFront hi before)
            · obtain rfl : j = 0 := by omega
              rw [List.head?_eq_getElem?, List.getElem?_eq_getElem bound,
                Option.some.injEq] at leading
              exact Or.inr (Or.inl leading)
          · rw [List.getElem?_eq_getElem bound, Option.some.injEq] at empty
            exact Or.inr (Or.inl empty)
          · rcases back with rfl | ⟨trailing, short⟩
            · exact Or.inr (Or.inr (inBack _ (by omega)))
            · have last : j = parts.length - 1 := by omega
              rw [List.getLast?_eq_getElem?, ← last, List.getElem?_eq_getElem bound,
                Option.some.injEq] at trailing
              exact Or.inr (Or.inl trailing)

/-- An IPv6 literal splits at its colons into hextets and a last part, which may
have dots in it. -/
theorem splitOn_of_ipv6FromChars {cs : List Char} {ip : BitVec 128}
    (parsed : ipv6FromChars cs = some ip) :
    ∃ front last, cs.splitOn ':' = front ++ [last] ∧ 2 ≤ front.length ∧
      (∀ part ∈ front, ∀ c ∈ part, isHexDigit c = true) ∧
      (∀ c ∈ last, isHexDigit c = true ∨ c = '.') := by
  unfold ipv6FromChars at parsed
  split at parsed
  · cases parsed
  · rename_i parts partsEq
    split at parsed
    · cases parsed
    · split at parsed
      · cases parsed
      · rename_i hi lo skipped laid
        split at parsed
        · cases parsed
        · rename_i high highEq
          have hexParts : ∀ part ∈ parts, ∀ c ∈ part, isHexDigit c = true := by
            intro part inParts
            rcases mem_of_layout laid part inParts with front | rfl | back
            · exact isHexDigit_of_appendHextets highEq part front
            · simp
            · exact isHexDigit_of_appendHextets parsed part back
          unfold ipv6Parts at partsEq
          simp only at partsEq
          split at partsEq
          · cases partsEq
          · rename_i three
            have nonempty := List.splitOn_ne_nil ':' cs
            have cut := List.dropLast_append_getLast nonempty
            have lastEq : (cs.splitOn ':').getLast?.getD [] = (cs.splitOn ':').getLast nonempty := by
              rw [List.getLast?_eq_some_getLast nonempty, Option.getD_some]
            have length := congrArg List.length cut
            rw [List.length_append, List.length_singleton] at length
            refine ⟨_, _, cut.symm, by omega, ?_, ?_⟩
            · intro part inFront
              split at partsEq
              · split at partsEq
                · cases partsEq
                · rw [Option.some.injEq] at partsEq
                  exact hexParts part (partsEq ▸ List.mem_append_left _ inFront)
              · rw [Option.some.injEq] at partsEq
                exact hexParts part (partsEq ▸ List.mem_of_mem_dropLast inFront)
            · intro c member
              split at partsEq
              · split at partsEq
                · cases partsEq
                · rename_i v4 v4Eq
                  rw [lastEq] at v4Eq
                  have chars := mem_of_ipv4Address v4Eq c (by simpa using member)
                  exact chars.imp (fun digit => by simp [isHexDigit, digit]) id
              · rw [Option.some.injEq] at partsEq
                exact Or.inl (hexParts _ (partsEq ▸ List.getLast_mem nonempty) c member)

theorem mem_of_ipv6FromChars {cs : List Char} {ip : BitVec 128}
    (parsed : ipv6FromChars cs = some ip) :
    ∀ c ∈ cs, isHexDigit c = true ∨ c = '.' ∨ c = ':' := by
  intro c member
  obtain ⟨front, last, parts, -, hexFront, lastOk⟩ := splitOn_of_ipv6FromChars parsed
  rcases eq_or_mem_splitOn ':' member with colon | ⟨part, inParts, here⟩
  · exact Or.inr (Or.inr colon)
  · rw [parts, List.mem_append, List.mem_singleton] at inParts
    rcases inParts with inFront | rfl
    · exact Or.inl (hexFront part inFront c here)
    · exact (lastOk c here).imp_right Or.inl

theorem colon_mem_of_ipv6FromChars {cs : List Char} {ip : BitVec 128}
    (parsed : ipv6FromChars cs = some ip) : ':' ∈ cs := by
  obtain ⟨front, last, parts, two, -⟩ := splitOn_of_ipv6FromChars parsed
  by_contra absent
  rw [List.splitOn_eq_singleton absent] at parts
  have length := congrArg List.length parts
  rw [List.length_append, List.length_singleton, List.length_singleton] at length
  omega

/-- No colon stands behind a dot of an IPv6 literal. -/
theorem colon_not_mem_behind_dot {front back : List Char} {ip : BitVec 128}
    (parsed : ipv6FromChars (front ++ '.' :: back) = some ip) : ':' ∉ back := by
  intro colon
  obtain ⟨mid, rest, rfl⟩ := List.append_of_mem colon
  obtain ⟨parts, last, split, -, hexParts, -⟩ := splitOn_of_ipv6FromChars parsed
  rw [show front ++ '.' :: (mid ++ ':' :: rest) = (front ++ '.' :: mid) ++ ':' :: rest by simp,
    List.splitOn_append_cons_self] at split
  have dot : '.' ∈ front ++ '.' :: mid := List.mem_append_right _ List.mem_cons_self
  rcases eq_or_mem_splitOn ':' dot with impossible | ⟨part, inParts, here⟩
  · cases impossible
  · have early : part ∈ parts := by
      obtain ⟨tail, tailEq⟩ : ∃ tail, rest.splitOn ':' = tail ++ [last] := by
        have ends := List.dropLast_append_getLast (List.splitOn_ne_nil ':' rest)
        have same := congrArg List.getLast? split
        rw [List.getLast?_append_of_ne_nil _ (List.splitOn_ne_nil ':' rest),
          List.getLast?_eq_some_getLast (List.splitOn_ne_nil ':' rest),
          List.getLast?_concat, Option.some.injEq] at same
        exact ⟨_, by rw [← same, ends]⟩
      rw [tailEq, ← List.append_assoc, List.append_cancel_right_eq] at split
      exact split ▸ List.mem_append_left _ inParts
    have hex := hexParts part early '.' here
    exact absurd hex (by decide)

/-! ## Scope ids -/

theorem percent_not_mem_of_ipv6FromChars {cs : List Char} {ip : BitVec 128}
    (parsed : ipv6FromChars cs = some ip) : '%' ∉ cs ∧ '/' ∉ cs := by
  constructor <;> intro member
  · rcases mem_of_ipv6FromChars parsed _ member with hex | dot | colon
    · exact absurd hex (by decide)
    · cases dot
    · cases colon
  · rcases mem_of_ipv6FromChars parsed _ member with hex | dot | colon
    · exact absurd hex (by decide)
    · cases dot
    · cases colon

theorem ipv6Address_scoped {base scope : String} {ip : BitVec 128}
    (parsed : ipv6FromChars base.toList = some ip) (nonempty : scope ≠ "")
    (noPercent : '%' ∉ scope.toList) (noSlash : '/' ∉ scope.toList) :
    ipv6Address (base ++ "%" ++ scope) = some (ip, some scope) := by
  obtain ⟨basePercent, baseSlash⟩ := percent_not_mem_of_ipv6FromChars parsed
  have slash : '/' ∉ (base ++ "%" ++ scope).toList := by simp [baseSlash, noSlash]
  have cut : splitScopeId (base ++ "%" ++ scope) = some (base, some scope) := by
    have found : partition (base ++ "%" ++ scope) '%' = (base, some scope) :=
      partition_append basePercent
    rw [splitScopeId, found]
    simp [nonempty, noPercent]
  rw [ipv6Address, if_neg slash, cut]
  simp [parsed]

/-- An IPv6 literal is an unscoped literal, alone or in front of `%` and the
scope id. -/
theorem text_of_ipv6Address {s : String} {ip : BitVec 128} {scopeId : Option String}
    (parsed : ipv6Address s = some (ip, scopeId)) :
    (s.toList ≠ [] ∧ ipv6FromChars s.toList = some ip ∧ scopeId = none) ∨
      ∃ base scope, s = base ++ "%" ++ scope ∧ ipv6FromChars base.toList = some ip ∧
        scopeId = some scope ∧ scope ≠ "" ∧ '%' ∉ scope.toList ∧ '/' ∉ scope.toList := by
  unfold ipv6Address at parsed
  split at parsed
  · cases parsed
  · rename_i slash
    split at parsed
    · cases parsed
    · rename_i addr scope cut
      obtain ⟨ip', addrEq, pair⟩ := Option.map_eq_some_iff.mp parsed
      obtain ⟨rfl, rfl⟩ : ip' = ip ∧ scope = scopeId := by simpa using pair
      unfold splitScopeId at cut
      split at cut
      · rename_i found
        obtain ⟨rfl, rfl⟩ : s = addr ∧ none = scope := by simpa using cut
        refine Or.inl ⟨?_, addrEq, rfl⟩
        exact List.ne_nil_of_mem (colon_mem_of_ipv6FromChars addrEq)
      · rename_i base tail found
        split at cut
        · cases cut
        · rename_i good
          rw [not_or] at good
          obtain ⟨rfl, rfl⟩ : base = addr ∧ some tail = scope := by simpa using cut
          obtain ⟨shape, -⟩ := partition_eq_some found
          refine Or.inr ⟨base, tail, ?_, addrEq, rfl, good.1, good.2, ?_⟩
          · exact shape
          · intro member
            exact slash (by rw [shape]; simp [member])

/-- An IPv6 literal is no IPv4 literal: it has a colon. -/
theorem ipAddress_of_ipv6 {s : String} {ip : BitVec 128} {scopeId : Option String}
    (parsed : ipv6Address s = some (ip, scopeId)) : ipAddress s = some (.v6 ip scopeId) := by
  have colon : ':' ∈ s.toList := by
    rcases text_of_ipv6Address parsed with ⟨-, bare, -⟩ | ⟨base, scope, rfl, bare, -⟩
    · exact colon_mem_of_ipv6FromChars bare
    · simp [colon_mem_of_ipv6FromChars bare]
  have notV4 : ipv4Address s = none := by
    cases v4 : ipv4Address s with
    | none => rfl
    | some ip4 =>
        rcases mem_of_ipv4Address v4 ':' colon with digit | dot
        · exact absurd digit (by decide)
        · cases dot
  rw [ipAddress, notV4, parsed]
  rfl

/-- Any text without `%` and `/` is a scope id. -/
theorem ipAddress_scoped {base scope : String} {ip : BitVec 128}
    (parsed : ipv6FromChars base.toList = some ip) (nonempty : scope ≠ "")
    (noPercent : '%' ∉ scope.toList) (noSlash : '/' ∉ scope.toList) :
    ipAddress (base ++ "%" ++ scope) = some (.v6 ip (some scope)) :=
  ipAddress_of_ipv6 (ipv6Address_scoped parsed nonempty noPercent noSlash)

/-- A literal with a `%` in it is a scoped IPv6 literal. -/
theorem scoped_of_percent_mem {s : String} {address : Address}
    (parsed : ipAddress s = some address) (percent : '%' ∈ s.toList) :
    ∃ base scope ip, s = base ++ "%" ++ scope ∧ ipv6FromChars base.toList = some ip ∧
      address = .v6 ip (some scope) ∧ '%' ∉ scope.toList := by
  rw [ipAddress, Option.or_eq_some_iff] at parsed
  rcases parsed with v4 | ⟨-, v6⟩
  · obtain ⟨ip, literal, -⟩ := Option.map_eq_some_iff.mp v4
    rcases mem_of_ipv4Address literal '%' percent with digit | dot
    · exact absurd digit (by decide)
    · cases dot
  · obtain ⟨⟨ip, scopeId⟩, literal, rfl⟩ := Option.map_eq_some_iff.mp v6
    rcases text_of_ipv6Address literal with ⟨-, bare, -⟩ | ⟨base, scope, rfl, bare, rfl, -, once, -⟩
    · exact absurd percent (percent_not_mem_of_ipv6FromChars bare).1
    · exact ⟨base, scope, ip, rfl, bare, rfl, once⟩

/-- The text of a literal with a scope id. -/
theorem text_of_scoped {s scope : String} {ip : BitVec 128}
    (parsed : ipAddress s = some (.v6 ip (some scope))) :
    ∃ base, s = base ++ "%" ++ scope ∧ '/' ∉ s.toList := by
  rw [ipAddress, Option.or_eq_some_iff] at parsed
  rcases parsed with v4 | ⟨-, v6⟩
  · obtain ⟨_, _, impossible⟩ := Option.map_eq_some_iff.mp v4
    cases impossible
  · obtain ⟨⟨ip', scopeId⟩, literal, pair⟩ := Option.map_eq_some_iff.mp v6
    obtain ⟨rfl, rfl⟩ : ip' = ip ∧ scopeId = some scope := by simpa using pair
    rcases text_of_ipv6Address literal with ⟨-, -, none⟩ | ⟨base, tail, rfl, bare, same, -, -, slash⟩
    · cases none
    · cases same
      have baseSlash := (percent_not_mem_of_ipv6FromChars bare).2
      exact ⟨base, rfl, by simp [baseSlash, slash]⟩

/-- No literal ends in a dot and a scoped literal: the dot would stand in front
of the address's colons. -/
theorem ipAddress_dot_scoped {front base scope : String} {ip : BitVec 128}
    (parsed : ipv6FromChars base.toList = some ip) :
    ipAddress (front ++ "." ++ (base ++ "%" ++ scope)) = none := by
  cases literal : ipAddress (front ++ "." ++ (base ++ "%" ++ scope)) with
  | none => rfl
  | some address =>
      obtain ⟨outer, tail, ip', shape, bare, -, once⟩ := scoped_of_percent_mem literal (by simp)
      have chars : outer.toList ++ '%' :: tail.toList =
          (front.toList ++ '.' :: base.toList) ++ '%' :: scope.toList := by
        have same := congrArg String.toList shape
        simpa using same.symm
      have outerClean := (percent_not_mem_of_ipv6FromChars bare).1
      obtain ⟨same, -⟩ := (List.append_cons_inj_of_notMem outerClean once).mp chars
      rw [same] at bare
      exact absurd (colon_mem_of_ipv6FromChars parsed) (colon_not_mem_behind_dot bare)

theorem ipv4FromChars_dot (cs : List Char) : ipv4FromChars ('.' :: cs) = none := by
  have parts := List.splitOn_append_cons_self [] cs (a := '.')
  simp only [List.nil_append, List.splitOn_nil, List.singleton_append] at parts
  rw [ipv4FromChars, parts]
  split
  · rename_i a b c d shape
    obtain ⟨rfl, -⟩ := List.cons.inj shape
    rfl
  · rfl

/-- The text of an IPv6 network starts with a literal of the network. -/
theorem text_of_ipv6Network {s : String} {network : Network 128}
    (parsed : ipv6Network s = some network) :
    ∃ base rest ip, s.toList = base ++ rest ∧ ipv6FromChars base = some ip ∧
      network.contains ip = true := by
  have fromLiteral : ∀ {addr : String} {ip : BitVec 128 × Option String},
      ipv6Address addr = some ip → ∃ base rest, addr.toList = base ++ rest ∧
        ipv6FromChars base = some ip.1 := by
    intro addr ip literal
    rcases text_of_ipv6Address literal with ⟨-, bare, -⟩ | ⟨base, scope, shape, bare, -⟩
    · exact ⟨addr.toList, [], by simp, bare⟩
    · exact ⟨base.toList, '%' :: scope.toList, by simp [shape], bare⟩
  have holds : ∀ {ip : BitVec 128} {prefixlen : Nat},
      networkOf ip prefixlen = some network → network.contains ip = true := by
    intro ip prefixlen made
    unfold networkOf at made
    split at made
    · rw [Option.some.injEq] at made
      rw [← made]
      exact Network.contains_of
    · cases made
  unfold ipv6Network at parsed
  split at parsed
  · rename_i addr parts
    obtain ⟨ip, literal, made⟩ := Option.bind_eq_some_iff.mp parsed
    obtain ⟨base, rest, shape, bare⟩ := fromLiteral literal
    refine ⟨base, rest, ip.1, ?_, bare, holds made⟩
    rw [← shape, toList_of_split parts]
    simp
  · rename_i addr mask parts
    obtain ⟨ip, literal, made⟩ := Option.bind_eq_some_iff.mp parsed
    obtain ⟨length, -, made⟩ := Option.bind_eq_some_iff.mp made
    obtain ⟨base, rest, shape, bare⟩ := fromLiteral literal
    refine ⟨base, rest ++ '/' :: mask.toList, ip.1, ?_, bare, holds made⟩
    rw [toList_of_split parts]
    simp [shape]
  · cases parsed

theorem ipv4Address_dot {s : String} (dot : s.toList.head? = some '.') : ipv4Address s = none := by
  obtain ⟨rest, shape⟩ := List.head?_eq_some_iff.mp dot
  rw [ipv4Address, shape, ipv4FromChars_dot, ite_self]

/-- No network's text starts with a dot. -/
theorem ipNetwork_dot {s : String} (dot : s.toList.head? = some '.') : ipNetwork s = none := by
  have v6 : ipv6Network s = none := by
    cases parsed : ipv6Network s with
    | none => rfl
    | some network =>
        obtain ⟨base, rest, ip, shape, literal, -⟩ := text_of_ipv6Network parsed
        have colon := colon_mem_of_ipv6FromChars literal
        cases base with
        | nil => cases colon
        | cons c cs =>
            rw [shape, List.cons_append, List.head?_cons, Option.some.injEq] at dot
            subst dot
            have behind := @colon_not_mem_behind_dot [] cs ip literal
            rcases List.mem_cons.mp colon with impossible | later
            · cases impossible
            · exact absurd later behind
  have v4 : ipv4Network s = none := by
    unfold ipv4Network
    split
    · rename_i addr parts
      have shape := toList_of_split parts
      rw [List.map_singleton, List.intercalate_singleton] at shape
      rw [ipv4Address_dot (shape ▸ dot)]
      rfl
    · rename_i addr mask parts
      have shape := toList_of_split parts
      rw [List.map_cons, intercalate_cons] at shape
      have starts : addr.toList.head? = some '.' := by
        cases front : addr.toList with
        | nil =>
            rw [shape, front] at dot
            exact absurd dot (by simp)
        | cons c cs =>
            rw [shape, front] at dot
            exact dot
      rw [ipv4Address_dot starts]
      rfl
    · rfl
  rw [ipNetwork, v4, v6]
  rfl

end Python.Ipaddress
