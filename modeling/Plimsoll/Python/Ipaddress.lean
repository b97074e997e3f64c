import Plimsoll.Python.Text
import Mathlib.Data.List.Basic

/-!
The part of `ipaddress` that address policies use: reading IPv4 and IPv6
addresses and networks from text, containment, and overlap.

An address is a bit vector of its version's width, so masking is the bit
operation itself and addresses of different versions are never confused. The
readers return `none` where the module raises one of its `ValueError`s.
-/

namespace Python.Ipaddress

/-! ## Networks of one width -/

/-- `_ip_int_from_prefix`: ones in the first `prefixlen` places. -/
def netmask (w prefixlen : Nat) : BitVec w :=
  BitVec.allOnes w ^^^ (BitVec.allOnes w >>> prefixlen)

/-- A network with its host bits masked away, as `strict=False` leaves it. -/
structure Network (w : Nat) where
  address : BitVec w
  prefixlen : Nat
  prefixlen_le : prefixlen ≤ w
  masked : address &&& netmask w prefixlen = address
deriving DecidableEq

theorem getLsbD_netmask {w prefixlen i : Nat} (bound : i < w) :
    (netmask w prefixlen).getLsbD i = decide (w ≤ prefixlen + i) := by
  rw [netmask, BitVec.getLsbD_xor, BitVec.getLsbD_ushiftRight]
  simp only [BitVec.getLsbD_allOnes]
  by_cases high : w ≤ prefixlen + i
  · simp [bound, high, Nat.not_lt.mpr high]
  · simp [bound, high, Nat.lt_of_not_le high]

/-- Masking twice is masking by the shorter prefix. -/
theorem netmask_and_netmask {w p q : Nat} (le : p ≤ q) :
    netmask w q &&& netmask w p = netmask w p := by
  apply BitVec.eq_of_getLsbD_eq
  intro i bound
  rw [BitVec.getLsbD_and, getLsbD_netmask bound, getLsbD_netmask bound]
  by_cases short : w ≤ p + i
  · have long : w ≤ q + i := by omega
    simp [short, long]
  · simp [short]

/-- The network of an address and a prefix length. -/
def Network.of {w : Nat} (ip : BitVec w) (prefixlen : Nat) (le : prefixlen ≤ w) : Network w where
  address := ip &&& netmask w prefixlen
  prefixlen := prefixlen
  prefixlen_le := le
  masked := by rw [BitVec.and_assoc, BitVec.and_self]

namespace Network

variable {w : Nat}

/-- `ip in network`. -/
def contains (n : Network w) (ip : BitVec w) : Bool := ip &&& netmask w n.prefixlen == n.address

/-- `broadcast_address`. -/
def broadcast (n : Network w) : BitVec w :=
  n.address ||| (netmask w n.prefixlen ^^^ BitVec.allOnes w)

/-- `a.overlaps(b)`: one of the two holds an end of the other. -/
def overlaps (a b : Network w) : Bool :=
  b.contains a.address || (b.contains a.broadcast || (a.contains b.address || a.contains b.broadcast))

theorem contains_iff {n : Network w} {ip : BitVec w} :
    n.contains ip = true ↔ ip &&& netmask w n.prefixlen = n.address := by
  rw [contains, beq_iff_eq]

@[simp] theorem contains_address (n : Network w) : n.contains n.address = true :=
  contains_iff.mpr n.masked

/-- The address a network was made from lies in it. -/
@[simp] theorem contains_of {ip : BitVec w} {prefixlen : Nat} {le : prefixlen ≤ w} :
    (Network.of ip prefixlen le).contains ip = true := contains_iff.mpr rfl

/-- Of two networks with a common address, the one with the shorter prefix
holds the other's first address. -/
theorem contains_address_of_common {a b : Network w} {ip : BitVec w}
    (inA : a.contains ip = true) (inB : b.contains ip = true) (le : a.prefixlen ≤ b.prefixlen) :
    a.contains b.address = true := by
  rw [contains_iff] at inA inB ⊢
  rw [← inB, BitVec.and_assoc, netmask_and_netmask le, inA]

/-- Networks that do not overlap have no address in common. -/
theorem not_contains_of_not_overlaps {a b : Network w} {ip : BitVec w}
    (apart : a.overlaps b = false) (inA : a.contains ip = true) : b.contains ip = false := by
  rw [overlaps] at apart
  simp only [Bool.or_eq_false_iff] at apart
  obtain ⟨aNotInB, -, bNotInA, -⟩ := apart
  by_contra inB
  rw [Bool.not_eq_false] at inB
  rcases Nat.le_total a.prefixlen b.prefixlen with le | le
  · rw [contains_address_of_common inA inB le] at bNotInA
    cases bNotInA
  · rw [contains_address_of_common inB inA le] at aNotInB
    cases aNotInB

/-- An address agrees with the network on the bits of the prefix. -/
def Agrees (n : Network w) (ip : BitVec w) : Prop :=
  ∀ i < n.prefixlen, ip.getMsbD i = n.address.getMsbD i

/-- A network holds the addresses that agree with it. -/
theorem contains_iff_agrees {n : Network w} {ip : BitVec w} : n.contains ip = true ↔ n.Agrees ip := by
  have bound := n.prefixlen_le
  have bits : ∀ (x : BitVec w), ∀ i < w,
      (x &&& netmask w n.prefixlen).getMsbD i = (x.getMsbD i && decide (i < n.prefixlen)) := by
    intro x i small
    rw [BitVec.getMsbD_and, BitVec.getMsbD_eq_getLsbD (x := netmask w n.prefixlen),
      getLsbD_netmask (by omega)]
    by_cases inside : i < n.prefixlen
    · have long : w ≤ n.prefixlen + (w - 1 - i) := by omega
      simp [inside, long, small]
    · have short : ¬ w ≤ n.prefixlen + (w - 1 - i) := by omega
      simp [inside, short]
  rw [contains_iff]
  constructor
  · intro same i inside
    have at_ := congrArg (fun x => x.getMsbD i) same
    simpa [bits ip i (by omega), inside] using at_
  · intro agrees
    rw [← n.masked]
    refine BitVec.eq_of_getMsbD_eq fun i small => ?_
    rw [bits ip i small, bits n.address i small]
    by_cases inside : i < n.prefixlen
    · rw [agrees i inside]
    · simp [inside]

@[simp] theorem contains_broadcast (n : Network w) : n.contains n.broadcast = true := by
  rw [contains_iff, broadcast]
  refine BitVec.eq_of_getLsbD_eq fun i small => ?_
  have at_ := congrArg (fun x => x.getLsbD i) n.masked
  rw [BitVec.getLsbD_and, BitVec.getLsbD_or, BitVec.getLsbD_xor, BitVec.getLsbD_allOnes]
  rw [BitVec.getLsbD_and] at at_
  rw [← at_]
  cases (netmask w n.prefixlen).getLsbD i with
  | true => simp [small]
  | false => simp

/-- Networks overlap exactly where they have an address in common. -/
theorem overlaps_iff {a b : Network w} :
    a.overlaps b = true ↔ ∃ ip, a.contains ip = true ∧ b.contains ip = true := by
  constructor
  · intro overlap
    rw [overlaps, Bool.or_eq_true, Bool.or_eq_true, Bool.or_eq_true] at overlap
    rcases overlap with inB | inB | inA | inA
    · exact ⟨_, a.contains_address, inB⟩
    · exact ⟨_, a.contains_broadcast, inB⟩
    · exact ⟨_, inA, b.contains_address⟩
    · exact ⟨_, inA, b.contains_broadcast⟩
  · rintro ⟨ip, inA, inB⟩
    by_contra apart
    rw [Bool.not_eq_true] at apart
    rw [not_contains_of_not_overlaps apart inA] at inB
    cases inB

end Network

/-! ## Reading IPv4 -/

/-- `isascii() and isdigit()`. -/
def asciiDigits (cs : List Char) : Bool := cs != [] && cs.all Char.isDigit

/-- `int` of ASCII digits. -/
def decimalValue (cs : List Char) : Nat :=
  cs.foldl (fun value c => 10 * value + (c.toNat - '0'.toNat)) 0

/-- `_parse_octet`. -/
def parseOctet (cs : List Char) : Option Nat :=
  if ¬ asciiDigits cs then none
  else if 3 < cs.length then none
  else if cs ≠ ['0'] ∧ cs.head? = some '0' then none
  else if 255 < decimalValue cs then none
  else some (decimalValue cs)

/-- `_BaseV4._ip_int_from_string`. -/
def ipv4FromChars (cs : List Char) : Option (BitVec 32) :=
  match cs.splitOn '.' with
  | [a, b, c, d] =>
      match parseOctet a, parseOctet b, parseOctet c, parseOctet d with
      | some a, some b, some c, some d =>
          some (BitVec.ofNat 32 (((a * 256 + b) * 256 + c) * 256 + d))
      | _, _, _, _ => none
  | _ => none

/-- `IPv4Address(address)._ip`. -/
def ipv4Address (s : String) : Option (BitVec 32) :=
  if '/' ∈ s.toList then none else ipv4FromChars s.toList

/-! ## Reading IPv6 -/

/-- `_HEX_DIGITS`. -/
def isHexDigit (c : Char) : Bool :=
  c.isDigit || ('a' ≤ c && c ≤ 'f') || ('A' ≤ c && c ≤ 'F')

/-- `int` of one hexadecimal digit. -/
def hexDigitValue (c : Char) : Nat :=
  if c.isDigit then c.toNat - '0'.toNat
  else if 'a' ≤ c then c.toNat - 'a'.toNat + 10
  else c.toNat - 'A'.toNat + 10

/-- `_parse_hextet`; `int('', 16)` is an error too. -/
def parseHextet (cs : List Char) : Option Nat :=
  if ¬ cs.all isHexDigit then none
  else if 4 < cs.length then none
  else if cs = [] then none
  else some (cs.foldl (fun value c => 16 * value + hexDigitValue c) 0)

/-- The parts between colons, an IPv4 ending rewritten as two hextets. -/
def ipv6Parts (cs : List Char) : Option (List (List Char)) :=
  let parts := cs.splitOn ':'
  if parts.length < 3 then none
  else
    let last := parts.getLast?.getD []
    if '.' ∈ last then
      match ipv4Address (String.ofList last) with
      | none => none
      | some ip =>
          some (parts.dropLast ++
            [Nat.toDigits 16 (ip.toNat / 0x10000), Nat.toDigits 16 (ip.toNat % 0x10000)])
    else some parts

/-- Shift the hextets `parts` in behind `ip`. -/
def appendHextets (ip : BitVec 128) : List (List Char) → Option (BitVec 128)
  | [] => some ip
  | part :: rest =>
      match parseHextet part with
      | none => none
      | some value => appendHextets ((ip <<< 16) ||| BitVec.ofNat 128 value) rest

/-- The empty parts that are neither first nor last: the places of a `::`. -/
def skipIndices (parts : List (List Char)) : List Nat :=
  (List.range parts.length).filter fun i =>
    1 ≤ i && i + 1 < parts.length && parts[i]? == some []

/-- How many parts stand in front of the `::`, how many behind it, and how many
zero hextets it stands for. -/
def layout (parts : List (List Char)) : Option (Nat × Nat × Nat) :=
  let leading := parts.head? = some []
  let trailing := parts.getLast? = some []
  match skipIndices parts with
  | [] =>
      if parts.length ≠ 8 then none
      else if leading then none
      else if trailing then none
      else some (8, 0, 0)
  | [skip] =>
      let hi := if leading then skip - 1 else skip
      let lo := if trailing then parts.length - skip - 2 else parts.length - skip - 1
      if leading ∧ hi ≠ 0 then none
      else if trailing ∧ lo ≠ 0 then none
      else if 8 - (hi + lo) < 1 then none
      else some (hi, lo, 8 - (hi + lo))
  | _ => none

/-- `_BaseV6._ip_int_from_string`. -/
def ipv6FromChars (cs : List Char) : Option (BitVec 128) :=
  match ipv6Parts cs with
  | none => none
  | some parts =>
      if 9 < parts.length then none
      else
        match layout parts with
        | none => none
        | some (hi, lo, skipped) =>
            match appendHextets 0 (parts.take hi) with
            | none => none
            | some ip => appendHextets (ip <<< (16 * skipped)) (parts.drop (parts.length - lo))

/-- `_split_scope_id`. -/
def splitScopeId (s : String) : Option (String × Option String) :=
  match partition s '%' with
  | (_, none) => some (s, none)
  | (addr, some scope) =>
      if scope = "" ∨ '%' ∈ scope.toList then none else some (addr, some scope)

/-- `IPv6Address(address)`: its `_ip` and its `_scope_id`. -/
def ipv6Address (s : String) : Option (BitVec 128 × Option String) :=
  if '/' ∈ s.toList then none
  else
    match splitScopeId s with
    | none => none
    | some (addr, scope) => (ipv6FromChars addr.toList).map fun ip => (ip, scope)

/-! ## Reading networks -/

/-- The number of decimal digits `int` converts: `sys.int_info.default_max_str_digits`. -/
def maxDigits : Nat := 4300

/-- `_prefix_from_prefix_string`. -/
def prefixFromPrefixString (w : Nat) (cs : List Char) : Option Nat :=
  if ¬ asciiDigits cs then none
  else if maxDigits < cs.length then none
  else if w < decimalValue cs then none
  else some (decimalValue cs)

/-- `_prefix_from_ip_int`: the length of a mask that is ones, then zeros. -/
def prefixFromIpInt (ip : BitVec 32) : Option Nat :=
  let trailingZeroes := ((List.range 32).takeWhile fun i => !ip.getLsbD i).length
  let prefixlen := 32 - trailingZeroes
  if ip.toNat / 2 ^ trailingZeroes = 2 ^ prefixlen - 1 then some prefixlen else none

/-- `_prefix_from_ip_string`: a netmask or a hostmask in dotted-quad form. -/
def prefixFromIpString (cs : List Char) : Option Nat :=
  match ipv4FromChars cs with
  | none => none
  | some ip => (prefixFromIpInt ip).or (prefixFromIpInt (ip ^^^ BitVec.allOnes 32))

/-- The network of an address and a prefix length, when that is in range. -/
def networkOf {w : Nat} (ip : BitVec w) (prefixlen : Nat) : Option (Network w) :=
  if le : prefixlen ≤ w then some (Network.of ip prefixlen le) else none

/-- `IPv4Network(address, strict=False)`. -/
def ipv4Network (s : String) : Option (Network 32) :=
  match split s '/' with
  | [addr] => (ipv4Address addr).bind fun ip => networkOf ip 32
  | [addr, mask] =>
      (ipv4Address addr).bind fun ip =>
        ((prefixFromPrefixString 32 mask.toList).or (prefixFromIpString mask.toList)).bind
          (networkOf ip)
  | _ => none

/-- `IPv6Network(address, strict=False)`. -/
def ipv6Network (s : String) : Option (Network 128) :=
  match split s '/' with
  | [addr] => (ipv6Address addr).bind fun ip => networkOf ip.1 128
  | [addr, mask] =>
      (ipv6Address addr).bind fun ip =>
        (prefixFromPrefixString 128 mask.toList).bind (networkOf ip.1)
  | _ => none

/-! ## Either version -/

/-- An address object. -/
inductive Address where
  | v4 (ip : BitVec 32)
  | v6 (ip : BitVec 128) (scopeId : Option String)
deriving DecidableEq

/-- A network object. -/
inductive IpNetwork where
  | v4 (network : Network 32)
  | v6 (network : Network 128)
deriving DecidableEq

/-- `ip_address(address)`. -/
def ipAddress (s : String) : Option Address :=
  ((ipv4Address s).map Address.v4).or ((ipv6Address s).map fun ip => .v6 ip.1 ip.2)

/-- `ip_network(address, strict=False)`. -/
def ipNetwork (s : String) : Option IpNetwork :=
  ((ipv4Network s).map IpNetwork.v4).or ((ipv6Network s).map IpNetwork.v6)

/-- `address in network`: never across versions; a scope id plays no part. -/
def IpNetwork.contains : IpNetwork → Address → Bool
  | .v4 network, .v4 ip => network.contains ip
  | .v6 network, .v6 ip _ => network.contains ip
  | _, _ => false

/-- `network.overlaps(other)`: never across versions. -/
def IpNetwork.overlaps : IpNetwork → IpNetwork → Bool
  | .v4 a, .v4 b => a.overlaps b
  | .v6 a, .v6 b => a.overlaps b
  | _, _ => false

/-- An address of the network's version that agrees with it on the bits of the
prefix. -/
def IpNetwork.Agrees : IpNetwork → Address → Prop
  | .v4 network, .v4 ip => network.Agrees ip
  | .v6 network, .v6 ip _ => network.Agrees ip
  | _, _ => False

/-- `network.prefixlen`. -/
def IpNetwork.prefixlen : IpNetwork → Nat
  | .v4 network => network.prefixlen
  | .v6 network => network.prefixlen

theorem IpNetwork.not_contains_of_not_overlaps {a b : IpNetwork} {ip : Address}
    (apart : a.overlaps b = false) (inA : a.contains ip = true) : b.contains ip = false := by
  cases a <;> cases b <;> cases ip <;> simp only [IpNetwork.contains, IpNetwork.overlaps] at *
  · exact Network.not_contains_of_not_overlaps apart inA
  · exact absurd inA (by simp)
  · exact absurd inA (by simp)
  · exact Network.not_contains_of_not_overlaps apart inA

theorem IpNetwork.contains_iff_agrees {network : IpNetwork} {ip : Address} :
    network.contains ip = true ↔ network.Agrees ip := by
  cases network <;> cases ip
  · exact Network.contains_iff_agrees
  · exact iff_of_false Bool.false_ne_true id
  · exact iff_of_false Bool.false_ne_true id
  · exact Network.contains_iff_agrees

theorem IpNetwork.overlaps_iff {a b : IpNetwork} :
    a.overlaps b = true ↔ ∃ ip, a.Agrees ip ∧ b.Agrees ip := by
  simp only [← IpNetwork.contains_iff_agrees]
  cases a <;> cases b
  · refine Network.overlaps_iff.trans ⟨fun ⟨ip, both⟩ => ⟨.v4 ip, both⟩, ?_⟩
    rintro ⟨ip, inA, inB⟩
    cases ip with
    | v4 ip => exact ⟨ip, inA, inB⟩
    | v6 ip scopeId => cases inA
  · refine iff_of_false Bool.false_ne_true ?_
    rintro ⟨ip, inA, inB⟩
    cases ip with
    | v4 ip => cases inB
    | v6 ip scopeId => cases inA
  · refine iff_of_false Bool.false_ne_true ?_
    rintro ⟨ip, inA, inB⟩
    cases ip with
    | v4 ip => cases inA
    | v6 ip scopeId => cases inB
  · refine Network.overlaps_iff.trans ⟨fun ⟨ip, both⟩ => ⟨.v6 ip none, both⟩, ?_⟩
    rintro ⟨ip, inA, inB⟩
    cases ip with
    | v4 ip => cases inA
    | v6 ip scopeId => exact ⟨ip, inA, inB⟩

end Python.Ipaddress
