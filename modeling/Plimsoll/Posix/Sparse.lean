import Plimsoll.Posix.Machine

/-!
A listing of which only some entries are there. A path leads to what it leads to in
the whole listing as long as every place on its way is there, and else to nothing.
-/

namespace Posix

open Python

/-! ## Some of a listing -/

/-- The entries whose places are kept. -/
def Listing.restrict (keep : List String → Bool) (listing : Listing) : Listing where
  entries := listing.entries.filter fun entry => keep entry.1
  named entry member := listing.named entry (List.mem_of_mem_filter member)
  apart entry member other otherMember :=
    listing.apart entry (List.mem_of_mem_filter member) other (List.mem_of_mem_filter otherMember)

/-- The place is the top, or it or something below it is an entry that is kept. -/
def Kept (listing : Listing) (keep : List String → Prop) (place : List String) : Prop :=
  place = [] ∨ ∃ entry ∈ listing.entries, place <+: entry.1 ∧ keep entry.1

section

variable {listing : Listing} {keep : List String → Bool} {place : List String}

theorem Listing.entryAt_eq_some {entry : List String × Blob}
    (found : listing.entryAt place = some entry) : entry ∈ listing.entries ∧ entry.1 = place :=
  ⟨List.mem_of_find?_eq_some found, by simpa using List.find?_some found⟩

theorem Listing.any_below :
    listing.entries.any (fun entry => place.isPrefixOf entry.1) = true ↔
      ∃ entry ∈ listing.entries, place <+: entry.1 := by
  simp only [List.any_eq_true, List.isPrefixOf_iff_prefix]

theorem Listing.mem_restrict {entry : List String × Blob} :
    entry ∈ (listing.restrict keep).entries ↔ entry ∈ listing.entries ∧ keep entry.1 = true :=
  List.mem_filter

/-- What is kept stands as it did. -/
theorem Listing.node_restrict_of_kept (kept : Kept listing (fun place => keep place = true) place) :
    (listing.restrict keep).node place = listing.node place := by
  cases whole : listing.entryAt place with
  | some entry =>
      obtain ⟨member, rfl⟩ := Listing.entryAt_eq_some whole
      have keeps : keep entry.1 = true := by
        rcases kept with top | ⟨other, inListing, below, keeps⟩
        · exact absurd top (listing.named entry member).1
        · rwa [listing.apart entry member other inListing below]
      have sparse : (listing.restrict keep).entryAt entry.1 = listing.entryAt entry.1 := by
        unfold Listing.entryAt Listing.restrict
        rw [List.find?_filter]
        refine congrArg (listing.entries.find? ·) (funext fun other => ?_)
        by_cases same : other.1 = entry.1
        · simp [same, keeps]
        · simp [same]
      rw [Listing.node, Listing.node, sparse]
      simp only [whole]
  | none =>
      have sparse : (listing.restrict keep).entryAt place = none := by
        refine List.find?_eq_none.mpr fun entry member => ?_
        exact List.find?_eq_none.mp whole entry (Listing.mem_restrict.mp member).1
      have some_ : place = [] ∨
          (listing.restrict keep).entries.any (fun entry => place.isPrefixOf entry.1) = true :=
        kept.imp_right fun ⟨entry, member, below, keeps⟩ =>
          Listing.any_below.mpr ⟨entry, Listing.mem_restrict.mpr ⟨member, keeps⟩, below⟩
      have wholly : place = [] ∨
          listing.entries.any (fun entry => place.isPrefixOf entry.1) = true :=
        kept.imp_right fun ⟨entry, member, below, _⟩ => Listing.any_below.mpr ⟨entry, member, below⟩
      rw [Listing.node, Listing.node, sparse, whole]
      dsimp only
      rw [if_pos some_, if_pos wholly]

/-- What is not kept is gone. -/
theorem Listing.node_restrict_of_not_kept
    (dropped : ¬ Kept listing (fun place => keep place = true) place) :
    (listing.restrict keep).node place = .absent := by
  have none_ : ∀ entry ∈ (listing.restrict keep).entries, ¬ place <+: entry.1 := by
    intro entry member below
    obtain ⟨inListing, keeps⟩ := Listing.mem_restrict.mp member
    exact dropped (Or.inr ⟨entry, inListing, below, keeps⟩)
  have sparse : (listing.restrict keep).entryAt place = none := by
    refine List.find?_eq_none.mpr fun entry member same => none_ entry member ?_
    rw [of_decide_eq_true same]
  rw [Listing.node, sparse]
  refine if_neg ?_
  rintro (top | below)
  · exact dropped (Or.inl top)
  · obtain ⟨entry, member, below⟩ := Listing.any_below.mp below
    exact none_ entry member below

end

/-! ## Walks -/

/-- Every place of a walk that is below the root is one that `keeps` holds of. -/
def Passes (root : List String) (keeps : List String → Prop) (walk : Walk) : Prop :=
  ∀ place ∈ walk.asked, ∀ below, place = root ++ below → keeps below

/-- A walk that passes comes to what it came to, and any other to nothing. -/
structure Thinned (root : List String) (keeps : List String → Prop) (full sparse : Walk) : Prop where
  same : Passes root keeps full → sparse = full
  lost : ¬ Passes root keeps full → sparse.found = .absent

variable {root : List String} {keeps : List String → Prop} {place : List String}

theorem Thinned.rfl_of_passes {walk : Walk} (passes : Passes root keeps walk) :
    Thinned root keeps walk walk := ⟨fun _ => rfl, fun stops => absurd passes stops⟩

theorem passes_nil (found : Entry (List String)) : Passes root keeps ⟨[], found⟩ :=
  List.forall_mem_nil _

theorem passes_behind {walk : Walk} :
    Passes root keeps (walk.behind place) ↔
      (∀ below, place = root ++ below → keeps below) ∧ Passes root keeps walk :=
  List.forall_mem_cons

/-- A step to a place that is there. -/
theorem Thinned.behind {full sparse : Walk} (thinned : Thinned root keeps full sparse)
    (there : ∀ below, place = root ++ below → keeps below) :
    Thinned root keeps (full.behind place) (sparse.behind place) where
  same passes := by rw [thinned.same (passes_behind.mp passes).2]
  lost stops := thinned.lost fun passes => stops (passes_behind.mpr ⟨there, passes⟩)

section

variable {machine : Machine} {listing : Listing} {keep : List String → Bool}

/-- Below the root, what is not kept is gone; all else stands as it did. -/
theorem Machine.node_restrict_of_kept
    (kept : ∀ below, place = root ++ below → Kept listing (fun place => keep place = true) below) :
    machine.node root (listing.restrict keep) place = machine.node root listing place := by
  unfold Machine.node
  by_cases inside : root.isPrefixOf place = true
  · obtain ⟨below, rfl⟩ := List.isPrefixOf_iff_prefix.mp inside
    rw [if_pos inside, if_pos inside, List.drop_left]
    exact Listing.node_restrict_of_kept (kept below rfl)
  · rw [if_neg inside, if_neg inside]

theorem Machine.node_restrict_of_not_kept {below : List String} (inside : place = root ++ below)
    (dropped : ¬ Kept listing (fun place => keep place = true) below) :
    machine.node root (listing.restrict keep) place = .absent := by
  rw [Machine.node, inside, if_pos (List.isPrefixOf_iff_prefix.mpr (List.prefix_append _ _)),
    List.drop_left]
  exact Listing.node_restrict_of_not_kept dropped

/-- A walk in what is kept of a listing, if links are followed like this. -/
theorem Machine.walkFrom_restrict {follow sparse : List String → List String → Walk}
    (followed : ∀ here parts, Thinned root (Kept listing fun place => keep place = true)
      (follow here parts) (sparse here parts)) {parts : List String} :
    ∀ {here : List String}, Thinned root (Kept listing fun place => keep place = true)
      (machine.walkFrom root listing follow here parts)
      (machine.walkFrom root (listing.restrict keep) sparse here parts) := by
  induction parts with
  | nil => exact Thinned.rfl_of_passes (passes_nil _)
  | cons name rest ih =>
      intro here
      rw [Machine.walkFrom, Machine.walkFrom]
      by_cases empty : name = ""
      · rw [if_pos empty, if_pos empty]
        exact ih
      rw [if_neg empty, if_neg empty]
      cases machine.refuses here name with
      | some message => exact Thinned.rfl_of_passes (passes_nil _)
      | none =>
          dsimp only
          by_cases dot : name = "."
          · rw [if_pos dot, if_pos dot]
            exact ih
          rw [if_neg dot, if_neg dot]
          by_cases kept : ∀ below, step here name = root ++ below →
              Kept listing (fun place => keep place = true) below
          · rw [Machine.node_restrict_of_kept kept]
            cases machine.node root listing (step here name) with
            | absent => exact (Thinned.rfl_of_passes (passes_nil .absent)).behind kept
            | file content => exact (Thinned.rfl_of_passes (passes_nil _)).behind kept
            | directory => exact ih.behind kept
            | link target => exact (followed _ _).behind kept
          · -- The place is gone, and the whole walk does not pass it.
            push Not at kept
            obtain ⟨below, inside, dropped⟩ := kept
            rw [Machine.node_restrict_of_not_kept inside dropped]
            refine ⟨fun passes => absurd ?_ dropped, fun _ => rfl⟩
            cases stands : machine.node root listing (step here name) with
            | absent => rw [stands] at passes; exact passes _ List.mem_cons_self below inside
            | file content => rw [stands] at passes; exact passes _ List.mem_cons_self below inside
            | directory => rw [stands] at passes; exact passes _ List.mem_cons_self below inside
            | link target => rw [stands] at passes; exact passes _ List.mem_cons_self below inside

theorem Machine.walk_restrict {links : Nat} {here parts : List String} :
    Thinned root (Kept listing fun place => keep place = true)
      (machine.walk root listing links here parts)
      (machine.walk root (listing.restrict keep) links here parts) := by
  induction links generalizing here parts with
  | zero =>
      exact Machine.walkFrom_restrict fun _ _ => Thinned.rfl_of_passes (passes_nil .absent)
  | succ links ih => exact Machine.walkFrom_restrict fun _ _ => ih

/-- A path in what is kept of a listing leads where it led if all on its way is kept,
and else to nothing. -/
theorem Machine.follow_restrict {path : PurePath} :
    Thinned root (Kept listing fun place => keep place = true)
      (machine.follow root listing path) (machine.follow root (listing.restrict keep) path) := by
  unfold Machine.follow
  cases machine.refusesPath path with
  | some message => exact Thinned.rfl_of_passes (passes_nil _)
  | none => exact Machine.walk_restrict

end

end Posix
