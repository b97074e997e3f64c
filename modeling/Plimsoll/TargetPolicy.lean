import Plimsoll.Errors
import Plimsoll.Python.Unicode
import Plimsoll.Python.Regex
import Plimsoll.Python.IpaddressText

/-!
The target policy: which allowlist entries may be stored, and which hosts a
stored allowlist permits.

`Storable` says once what `validate_entries` has established of an entry it
accepted; everything about accepted allowlists is derived from it.
-/

namespace Plimsoll.TargetPolicy

open Python Python.Ipaddress

/-! ## Constants -/

/-- `[A-Za-z0-9-]`. -/
def labelChar (c : Char) : Bool := c.isAlphanum || c == '-'

/-- `(?!-)[A-Za-z0-9-]{1,63}(?<!-)`. -/
def label : Regex :=
  .seq (.notAhead (.char (· == '-')))
    (.seq (.repeated labelChar 1 (some 63)) (.notBehind (· == '-')))

/-- `HOSTNAME`: a label, any number of dotted labels, the end. -/
def hostname : Regex :=
  .seq .atStart
    (.seq label (.seq (.star (.group (.seq (.char (· == '.')) label))) .atEnd))

/-- `BLOCKED_NETWORKS`. -/
def blockedNetworks : List IpNetwork :=
  ["127.0.0.0/8", "169.254.0.0/16", "::1/128", "fe80::/10"].filterMap ipNetwork

/-- `BLOCKED_NAMES`. -/
def blockedNames : List String := ["localhost", "metadata.google.internal"]

/-! ## Entries -/

variable (ucd : Unicode)

/-- `_refuse`. -/
def refuse (entry reason : String) : Except PlimsollError Unit :=
  .error
    { code := .validationFailed
      message := "Allowlist entry " ++ ucd.repr entry ++ " is not permitted: " ++ reason
      details := [("entry", .text entry)] }

/-- The network `_is_cidr` recognises in `value`, if it does. -/
def cidr (value : String) : Option IpNetwork :=
  if contains value "/" then ipNetwork value else none

/-- One round of `validate_entries`. -/
def validateEntry (entry : String) : Except PlimsollError Unit :=
  let candidate := ucd.lower (strip entry)
  if candidate = "" ∨ candidate ≠ ucd.lower entry then
    refuse ucd entry "an entry must not be empty or padded with whitespace."
  else
    match cidr candidate with
    | some network =>
        if network.prefixlen = 0 then refuse ucd entry "it permits every address."
        else if blockedNetworks.any network.overlaps then
          refuse ucd entry "it overlaps loopback or link-local addresses."
        else .ok ()
    | none =>
        if contains candidate "/" then
          refuse ucd entry "it looks like a URL or path; use a hostname, suffix, or CIDR."
        else
          let bare := removePrefix candidate "."
          if bare ∈ blockedNames then
            refuse ucd entry "loopback and metadata hosts are never reachable from a generator."
          else
            match ipAddress bare with
            | some address =>
                if blockedNetworks.any (·.contains address) then
                  refuse ucd entry "loopback and link-local addresses are never permitted."
                else .ok ()
            | none =>
                if hostname.isMatch bare then .ok ()
                else refuse ucd entry "it is neither a hostname, a domain suffix, nor a CIDR."

/-- `validate_entries`. -/
def validateEntries : List String → Except PlimsollError Unit
  | [] => .ok ()
  | entry :: rest =>
      match validateEntry ucd entry with
      | .error exc => .error exc
      | .ok () => validateEntries rest

/-! ## Hosts -/

/-- One round of `matches_allowlist`, on a candidate and a rule both trimmed and
in lower case. -/
def matchesRule (candidate rule : String) : Bool :=
  match cidr rule with
  | some network =>
      match ipAddress candidate with
      | some address => network.contains address
      | none => false
  | none =>
      if startsWith rule "." then
        let suffix := removePrefix rule "."
        candidate == suffix || endsWith candidate ("." ++ suffix)
      else candidate == rule

/-- `matches_allowlist`. -/
def matchesAllowlist (host : String) (entries : List String) : Bool :=
  let candidate := ucd.lower (strip host)
  if candidate = "" then false
  else entries.any fun entry => matchesRule candidate (ucd.lower (strip entry))

variable {ucd}

theorem matchesAllowlist_iff {host : String} {entries : List String} :
    matchesAllowlist ucd host entries = true ↔
      ucd.lower (strip host) ≠ "" ∧
        ∃ entry ∈ entries, matchesRule (ucd.lower (strip host)) (ucd.lower (strip entry)) = true := by
  rw [matchesAllowlist]
  by_cases empty : ucd.lower (strip host) = ""
  · simp [empty]
  · simp [empty]

/-- An empty allowlist permits nothing. -/
@[simp] theorem matchesAllowlist_nil (host : String) : matchesAllowlist ucd host [] = false := by
  simp [matchesAllowlist]

/-- Only the trimmed host matters. -/
theorem matchesAllowlist_congr {host other : String} (same : strip host = strip other)
    (entries : List String) :
    matchesAllowlist ucd host entries = matchesAllowlist ucd other entries := by
  rw [matchesAllowlist, matchesAllowlist, same]

/-! ## What an accepted entry is -/

/-- What `validate_entries` has established of an accepted entry, trimmed and
in lower case: a network apart from the blocked ones, or behind an optional
dot an address outside them, or behind an optional dot a name. -/
inductive Storable (rule : String) : Prop
  | cidr (network : IpNetwork) :
    TargetPolicy.cidr rule = some network → network.prefixlen ≠ 0 →
    (∀ blocked ∈ blockedNetworks, network.overlaps blocked = false) → Storable rule
  | address (address : Address) :
    TargetPolicy.cidr rule = none → '/' ∉ rule.toList → removePrefix rule "." ∉ blockedNames →
    ipAddress (removePrefix rule ".") = some address →
    (∀ blocked ∈ blockedNetworks, blocked.contains address = false) → Storable rule
  | name :
    TargetPolicy.cidr rule = none → '/' ∉ rule.toList → removePrefix rule "." ∉ blockedNames →
    ipAddress (removePrefix rule ".") = none →
    hostname.isMatch (removePrefix rule ".") = true → Storable rule

theorem contains_slash_iff {s : String} : contains s "/" = true ↔ '/' ∈ s.toList := by
  rw [contains_iff]
  exact List.singleton_infix_iff _ _

theorem refuse_ne_ok {entry reason : String} : refuse ucd entry reason ≠ .ok () := by
  intro impossible
  cases impossible

/-- `validate_entries` accepts exactly the storable entries that are neither
empty nor padded. -/
theorem validateEntry_ok_iff {entry : String} :
    validateEntry ucd entry = .ok () ↔
      ucd.lower (strip entry) ≠ "" ∧ ucd.lower (strip entry) = ucd.lower entry ∧
        Storable (ucd.lower (strip entry)) := by
  unfold validateEntry
  constructor
  · intro accepted
    by_cases padded : ucd.lower (strip entry) = "" ∨ ucd.lower (strip entry) ≠ ucd.lower entry
    · simp only [if_pos padded] at accepted
      exact (refuse_ne_ok accepted).elim
    simp only [if_neg padded] at accepted
    rw [not_or, ne_eq, not_not] at padded
    refine ⟨padded.1, padded.2, ?_⟩
    cases network? : cidr (ucd.lower (strip entry)) with
    | some network =>
        simp only [network?] at accepted
        split_ifs at accepted with everything overlapping
        · exact (refuse_ne_ok accepted).elim
        · exact (refuse_ne_ok accepted).elim
        · refine .cidr network network? everything fun blocked member => ?_
          by_contra overlap
          exact overlapping (List.any_eq_true.mpr ⟨blocked, member, by simpa using overlap⟩)
    | none =>
        simp only [network?] at accepted
        by_cases slash : contains (ucd.lower (strip entry)) "/" = true
        · rw [if_pos slash] at accepted
          exact (refuse_ne_ok accepted).elim
        by_cases blockedName : removePrefix (ucd.lower (strip entry)) "." ∈ blockedNames
        · rw [if_neg slash, if_pos blockedName] at accepted
          exact (refuse_ne_ok accepted).elim
        rw [if_neg slash, if_neg blockedName] at accepted
        rw [contains_slash_iff] at slash
        cases address? : ipAddress (removePrefix (ucd.lower (strip entry)) ".") with
        | some address =>
            simp only [address?] at accepted
            split_ifs at accepted with inside
            · exact (refuse_ne_ok accepted).elim
            · refine .address address network? slash blockedName address? fun blocked member => ?_
              by_contra holds
              exact inside (List.any_eq_true.mpr ⟨blocked, member, by simpa using holds⟩)
        | none =>
            simp only [address?] at accepted
            split_ifs at accepted with isName
            · exact .name network? slash blockedName address? isName
            · exact (refuse_ne_ok accepted).elim
  · rintro ⟨nonempty, unpadded, storable⟩
    simp only
    rw [if_neg (by rw [not_or, ne_eq, not_not]; exact ⟨nonempty, unpadded⟩)]
    cases storable with
    | cidr network network? bounded apart =>
        have none : blockedNetworks.any network.overlaps = false := by
          rw [List.any_eq_false]
          intro blocked member
          rw [apart blocked member]
          exact Bool.false_ne_true
        simp [network?, bounded, none]
    | address address network? slash notName address? outside =>
        have none : (blockedNetworks.any fun network => network.contains address) = false := by
          rw [List.any_eq_false]
          intro blocked member
          rw [outside blocked member]
          exact Bool.false_ne_true
        have noSlash : contains (ucd.lower (strip entry)) "/" = false := by
          rw [← Bool.not_eq_true, contains_slash_iff]
          exact slash
        simp only [network?, noSlash, Bool.false_eq_true, if_false, if_neg notName, address?, none]
    | name network? slash notName address? isName =>
        have noSlash : contains (ucd.lower (strip entry)) "/" = false := by
          rw [← Bool.not_eq_true, contains_slash_iff]
          exact slash
        simp only [network?, noSlash, Bool.false_eq_true, if_false, if_neg notName, address?,
          isName, if_true]

theorem validateEntries_ok_iff {entries : List String} :
    validateEntries ucd entries = .ok () ↔ ∀ entry ∈ entries, validateEntry ucd entry = .ok () := by
  induction entries with
  | nil => simp [validateEntries]
  | cons entry rest ih =>
      rw [validateEntries, List.forall_mem_cons]
      cases validateEntry ucd entry with
      | error exc => simp
      | ok _ => simp [ih]

theorem storable_of_validateEntries {entries : List String}
    (accepted : validateEntries ucd entries = .ok ()) {entry : String} (member : entry ∈ entries) :
    Storable (ucd.lower (strip entry)) :=
  (validateEntry_ok_iff.mp (validateEntries_ok_iff.mp accepted entry member)).2.2

end Plimsoll.TargetPolicy
