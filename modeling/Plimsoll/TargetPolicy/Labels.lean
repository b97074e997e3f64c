import Plimsoll.TargetPolicy.HostShape

/-!
Which hostnames an accepted allowlist permits, label by label.
-/

namespace Plimsoll.TargetPolicy

open Python Python.Ipaddress

variable {ucd : Unicode}

/-- An entry in lower case permits a hostname in lower case: it is the hostname, or
behind its dot the last labels of the hostname. -/
def PermitsLabels (rule candidate : String) : Prop :=
  (startsWith rule "." = false ∧ rule = candidate) ∨
    (startsWith rule "." = true ∧ split (removePrefix rule ".") '.' <:+ split candidate '.')

/-! ## Suffixes of labels -/

/-- The parts of a text are the last parts of another exactly when the texts are the
same, or the other ends in the separator and the text. -/
theorem splitOn_suffix_iff {sep : Char} {text whole : List Char} :
    text.splitOn sep <:+ whole.splitOn sep ↔ whole = text ∨ sep :: text <:+ whole := by
  constructor
  · rintro ⟨front, parts⟩
    have joined := @List.intercalate_splitOn _ whole _ _ sep
    rw [← parts] at joined
    cases front with
    | nil =>
        rw [List.nil_append, List.intercalate_splitOn] at joined
        exact Or.inl joined.symm
    | cons first middle =>
        cases labels : text.splitOn sep with
        | nil => exact absurd labels (List.splitOn_ne_nil sep text)
        | cons label rest =>
            have own := @List.intercalate_splitOn _ text _ _ sep
            rw [labels, intercalate_cons] at own
            rw [labels, List.cons_append, intercalate_cons, List.flatMap_append, List.flatMap_cons,
              List.cons_append, own, ← List.append_assoc] at joined
            exact Or.inr ⟨_, joined⟩
  · rintro (rfl | ⟨front, rfl⟩)
    · exact List.suffix_refl _
    · rw [List.splitOn_append_cons_self]
      exact List.suffix_append _ _

theorem split_suffix_iff {text whole : String} :
    split text '.' <:+ split whole '.' ↔
      whole = text ∨ endsWith whole ("." ++ text) = true := by
  have back : ∀ parts : List (List Char), (parts.map String.ofList).map String.toList = parts := by
    intro parts
    rw [List.map_map]
    exact (List.map_congr_left fun part _ => String.toList_ofList).trans (List.map_id parts)
  have lists : split text '.' <:+ split whole '.' ↔
      text.toList.splitOn '.' <:+ whole.toList.splitOn '.' := by
    constructor
    · intro suffix
      have mapped := suffix.map String.toList
      rw [split, split, back, back] at mapped
      exact mapped
    · exact fun suffix => suffix.map String.ofList
  rw [lists, splitOn_suffix_iff, endsWith_iff, String.toList_inj, String.toList_append]
  rfl

/-! ## Hostnames in lower case -/

/-- What `HOSTNAME` matches, trimmed, is letters, digits, hyphens and dots. -/
theorem mem_of_trimmed_hostname {host : String} (isName : hostname.isMatch (strip host) = true) :
    ∀ c ∈ (strip host).toList, labelChar c = true ∨ c = '.' := by
  intro c member
  have trimmed : ∀ c ∈ (strip host).toList.getLast?, isSpace c = false := by
    intro c last
    rw [toList_strip] at last
    exact isSpace_getLast_stripChars last
  have labels := (hostname_isMatch_iff_of_trimmed trimmed).mp isName
  rcases eq_or_mem_splitOn '.' member with dot | ⟨part, inParts, here⟩
  · exact Or.inr dot
  · exact Or.inl ((labels part inParts).1.labelChars c here)

theorem ascii_of_labelChar {c : Char} (allowed : labelChar c = true ∨ c = '.') :
    c.toNat < 128 := by
  rcases allowed with letter | rfl
  · rw [labelChar, Bool.or_eq_true, beq_iff_eq] at letter
    rcases letter with alphanum | rfl
    · exact toNat_lt_of_isAlphanum alphanum
    · decide
  · decide

/-- Lower case makes neither a colon nor, of a letter, a digit or a dot. -/
theorem toLower_table {c : Char} (allowed : labelChar c = true ∨ c = '.') :
    c.toLower ≠ ':' ∧ (c.toLower.isDigit = true ∨ c.toLower = '.' → c.toLower = c) := by
  have table : ∀ n < 128, labelChar (Char.ofNat n) = true ∨ Char.ofNat n = '.' →
      (Char.ofNat n).toLower ≠ ':' ∧
        ((Char.ofNat n).toLower.isDigit = true ∨ (Char.ofNat n).toLower = '.' →
          (Char.ofNat n).toLower = Char.ofNat n) := by decide
  have row := table c.toNat (ascii_of_labelChar allowed)
  rw [Char.ofNat_toNat] at row
  exact row allowed

theorem colon_mem_of_ipv6Address {s : String} {ip : BitVec 128} {scopeId : Option String}
    (parsed : ipv6Address s = some (ip, scopeId)) : ':' ∈ s.toList := by
  rcases text_of_ipv6Address parsed with ⟨-, plain, -⟩ | ⟨base, scope, rfl, plain, -⟩
  · exact colon_mem_of_ipv6FromChars plain
  · rw [String.toList_append, String.toList_append]
    exact List.mem_append_left _ (List.mem_append_left _ (colon_mem_of_ipv6FromChars plain))

theorem lower_toList (ucd : Unicode) {host : String} (isName : hostname.isMatch (strip host) = true) :
    (ucd.lower (strip host)).toList = (strip host).toList.map Char.toLower := by
  rw [Unicode.toList_lower]
  exact Unicode.lowerFrom_ascii fun c member =>
    ascii_of_labelChar (mem_of_trimmed_hostname isName c member)

theorem mem_lower_hostname {host : String} (isName : hostname.isMatch (strip host) = true) :
    ∀ c ∈ (ucd.lower (strip host)).toList, labelChar c = true ∨ c = '.' := by
  have table : ∀ n < 128, labelChar (Char.ofNat n) = true ∨ Char.ofNat n = '.' →
      labelChar (Char.ofNat n).toLower = true ∨ (Char.ofNat n).toLower = '.' := by decide
  intro c member
  rw [lower_toList ucd isName] at member
  obtain ⟨d, inHost, rfl⟩ := List.mem_map.mp member
  have allowed := mem_of_trimmed_hostname isName d inHost
  have row := table d.toNat (ascii_of_labelChar allowed)
  rw [Char.ofNat_toNat] at row
  exact row allowed

/-- Letter case does not make an address of a hostname. -/
theorem ipAddress_lower_hostname {host : String} (isName : hostname.isMatch (strip host) = true)
    (notLiteral : ipAddress (strip host) = none) : ipAddress (ucd.lower (strip host)) = none := by
  have allowed := mem_of_trimmed_hostname isName
  have lowered := lower_toList ucd isName
  have noV6 : ipv6Address (ucd.lower (strip host)) = none := by
    rw [Option.eq_none_iff_forall_ne_some]
    rintro ⟨ip, scopeId⟩ parsed
    have colon := colon_mem_of_ipv6Address parsed
    rw [lowered] at colon
    obtain ⟨c, member, same⟩ := List.mem_map.mp colon
    exact (toLower_table (allowed c member)).1 same
  have noV4 : ipv4Address (ucd.lower (strip host)) = none := by
    rw [Option.eq_none_iff_forall_ne_some]
    intro ip parsed
    have digits := mem_of_ipv4Address parsed
    have same : ucd.lower (strip host) = strip host := by
      rw [← String.toList_inj, lowered]
      refine (List.map_congr_left fun c member => ?_).trans (List.map_id _)
      refine (toLower_table (allowed c member)).2 (digits c.toLower ?_)
      rw [lowered]
      exact List.mem_map_of_mem member
    rw [same] at parsed
    rw [ipAddress, parsed] at notLiteral
    cases notLiteral
  rw [ipAddress, noV4, noV6]
  rfl

/-! ## What an allowlist permits -/

theorem matchesRule_hostname_iff {rule candidate : String} (notNetwork : cidr rule = none) :
    matchesRule candidate rule = true ↔ PermitsLabels rule candidate := by
  unfold matchesRule
  rw [notNetwork]
  dsimp only
  cases dot : startsWith rule "." with
  | false =>
      simp only [Bool.false_eq_true, if_false, beq_iff_eq, PermitsLabels, dot, true_and, false_and,
        or_false]
      exact eq_comm
  | true =>
      simp only [if_true, Bool.or_eq_true, beq_iff_eq, PermitsLabels, dot, Bool.true_eq_false,
        false_and, false_or, true_and]
      rw [split_suffix_iff]

theorem not_matchesRule_of_network {rule candidate : String} {network : IpNetwork}
    (notLiteral : ipAddress candidate = none) (isNetwork : cidr rule = some network) :
    matchesRule candidate rule = false := by
  rw [matchesRule, isNetwork]
  dsimp only
  rw [notLiteral]

/-- A network is not a hostname, nor a dot and labels. -/
theorem not_permitsLabels_of_network {rule candidate : String} {network : IpNetwork}
    (allowed : ∀ c ∈ candidate.toList, labelChar c = true ∨ c = '.')
    (isNetwork : cidr rule = some network) : ¬ PermitsLabels rule candidate := by
  rintro (⟨-, rfl⟩ | ⟨dot, -⟩)
  · unfold cidr at isNetwork
    split at isNetwork
    · rename_i slash
      rcases allowed '/' (contains_slash_iff.mp slash) with letter | dot
      · exact absurd letter (by decide)
      · cases dot
    · cases isNetwork
  · rw [cidr_eq_none_of_dot dot] at isNetwork
    cases isNetwork

/-- An accepted allowlist permits a hostname, in whatever letter case and with whatever
whitespace around it, exactly when an entry is it or is a dot and its last labels; an
entry that is a network permits none. -/
theorem matchesAllowlist_hostname_iff {entries : List String} {host : String}
    (accepted : validateEntries ucd entries = .ok ())
    (isName : hostname.isMatch (strip host) = true) (notLiteral : ipAddress (strip host) = none) :
    (matchesAllowlist ucd host entries = true ↔
      ∃ entry ∈ entries, PermitsLabels (ucd.lower entry) (ucd.lower (strip host))) ∧
    ∀ entry, (cidr (ucd.lower (strip entry))).isSome = true →
      matchesAllowlist ucd host [entry] = false := by
  have literal : ipAddress (ucd.lower (strip host)) = none :=
    ipAddress_lower_hostname isName notLiteral
  have nonempty : ucd.lower (strip host) ≠ "" := by
    intro empty
    have characters := lower_toList ucd isName
    rw [empty] at characters
    have none_ : strip host = "" := by
      rw [← String.toList_inj]
      exact List.map_eq_nil_iff.mp characters.symm
    rw [none_] at isName
    exact absurd isName (by decide +kernel)
  constructor
  · rw [matchesAllowlist_iff]
    refine ⟨fun ⟨_, entry, member, matched⟩ => ⟨entry, member, ?_⟩,
      fun ⟨entry, member, permits⟩ => ⟨nonempty, entry, member, ?_⟩⟩
    · have same := (validateEntry_ok_iff.mp (validateEntries_ok_iff.mp accepted entry member)).2.1
      rw [same] at matched
      cases network? : cidr (ucd.lower entry) with
      | none => exact (matchesRule_hostname_iff network?).mp matched
      | some network =>
          rw [not_matchesRule_of_network literal network?] at matched
          cases matched
    · have same := (validateEntry_ok_iff.mp (validateEntries_ok_iff.mp accepted entry member)).2.1
      rw [same]
      cases network? : cidr (ucd.lower entry) with
      | none => exact (matchesRule_hostname_iff network?).mpr permits
      | some network =>
          exact absurd permits
            (not_permitsLabels_of_network (mem_lower_hostname isName) network?)
  · intro entry isNetwork
    obtain ⟨network, network?⟩ := Option.isSome_iff_exists.mp isNetwork
    rw [matchesAllowlist, if_neg nonempty, List.any_cons, List.any_nil, Bool.or_false]
    exact not_matchesRule_of_network literal network?

/-- A hostname in capitals, below an accepted suffix. -/
theorem matchesAllowlist_hostname_iff_capitals :
    (matchesAllowlist Unicode.basic " API.Example.com " [".example.com", "10.0.0.0/8"] = true ↔
      ∃ entry ∈ [".example.com", "10.0.0.0/8"],
        PermitsLabels (Unicode.basic.lower entry)
          (Unicode.basic.lower (strip " API.Example.com "))) ∧
    ∀ entry, (cidr (Unicode.basic.lower (strip entry))).isSome = true →
      matchesAllowlist Unicode.basic " API.Example.com " [entry] = false :=
  matchesAllowlist_hostname_iff (by decide +kernel) (by decide +kernel) (by decide +kernel)

end Plimsoll.TargetPolicy
