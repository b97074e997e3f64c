import Mathlib.Data.List.Dedup
import Mathlib.Data.List.Sort
import Mathlib.Data.String.Basic

/-!
`set` and `sorted`.

An interpreter visits the members of a set in an order of its own, which is
neither specified nor the same from one process to the next; `SetOrder` is such
an order. `sorted` is stable.
-/

namespace Python

/-- An order in which the members of a set of listed values are visited. -/
structure SetOrder where
  enumerate : {α : Type} → [DecidableEq α] → List α → List α
  perm : ∀ {α : Type} [DecidableEq α] (xs : List α), (enumerate xs).Perm xs.dedup

namespace SetOrder

variable {α : Type} [DecidableEq α] (sets : SetOrder)

@[simp] theorem mem_enumerate {xs : List α} {a : α} : a ∈ sets.enumerate xs ↔ a ∈ xs := by
  rw [(sets.perm xs).mem_iff, List.mem_dedup]

/-- The order in which the members were last listed. -/
def listed : SetOrder where
  enumerate xs := xs.dedup
  perm _ := List.Perm.refl _

/-- That order backwards. -/
def reversed : SetOrder where
  enumerate xs := xs.dedup.reverse
  perm _ := List.reverse_perm _

theorem nodup_enumerate (xs : List α) : (sets.enumerate xs).Nodup :=
  (sets.perm xs).nodup_iff.mpr (List.nodup_dedup xs)

end SetOrder

/-- `sorted(xs)`. -/
def sorted {α : Type} [LinearOrder α] (xs : List α) : List α := xs.insertionSort (· ≤ ·)

/-- `sorted(xs, key=...)` where `le` compares the keys. -/
def sortedBy {α : Type} (le : α → α → Bool) (xs : List α) : List α :=
  xs.insertionSort fun a b => le a b = true

/-- `sorted(set(xs))`. -/
def sortedSet {α : Type} [LinearOrder α] (sets : SetOrder) (xs : List α) : List α :=
  sorted (sets.enumerate xs)

variable {α : Type}

@[simp] theorem mem_sorted [LinearOrder α] {xs : List α} {a : α} : a ∈ sorted xs ↔ a ∈ xs :=
  List.mem_insertionSort _

@[simp] theorem mem_sortedBy {le : α → α → Bool} {xs : List α} {a : α} :
    a ∈ sortedBy le xs ↔ a ∈ xs :=
  List.mem_insertionSort _

theorem total_key {κ : Type} [LinearOrder κ] (key : α → κ) :
    Std.Total fun a b : α => decide (key a ≤ key b) = true :=
  ⟨fun a b => by simpa using le_total (key a) (key b)⟩

theorem isTrans_key {κ : Type} [LinearOrder κ] (key : α → κ) :
    IsTrans α fun a b => decide (key a ≤ key b) = true :=
  ⟨fun a b c => by simpa using le_trans⟩

/-- What is sorted by a key stands in the order of its keys. -/
theorem pairwise_sortedBy {κ : Type} [LinearOrder κ] (key : α → κ) (xs : List α) :
    (sortedBy (fun a b => key a ≤ key b) xs).Pairwise fun a b => key a ≤ key b := by
  have total := total_key key
  have trans := isTrans_key key
  refine (List.pairwise_insertionSort _ xs).imp fun le => ?_
  simpa using le

@[simp] theorem mem_sortedSet [LinearOrder α] {sets : SetOrder} {xs : List α} {a : α} :
    a ∈ sortedSet sets xs ↔ a ∈ xs := by
  rw [sortedSet, mem_sorted, SetOrder.mem_enumerate]

/-- Sorting forgets the order in which a set was visited. -/
theorem sortedSet_eq [LinearOrder α] (sets : SetOrder) (xs : List α) :
    sortedSet sets xs = sorted xs.dedup := by
  have same : (sortedSet sets xs).Perm (sorted xs.dedup) :=
    ((List.perm_insertionSort _ _).trans (sets.perm xs)).trans (List.perm_insertionSort _ _).symm
  exact same.eq_of_pairwise' (List.pairwise_insertionSort _ _) (List.pairwise_insertionSort _ _)

/-- The members of a set stand in strict order, once each. -/
theorem pairwise_lt_sortedSet [LinearOrder α] (sets : SetOrder) (xs : List α) :
    (sortedSet sets xs).Pairwise (· < ·) := by
  have ordered : (sortedSet sets xs).Pairwise (· ≤ ·) := List.pairwise_insertionSort _ _
  have distinct : (sortedSet sets xs).Nodup :=
    (List.perm_insertionSort _ _).nodup_iff.mpr (sets.nodup_enumerate xs)
  exact (ordered.and distinct).imp fun both => lt_of_le_of_ne both.1 both.2

/-! ## Sorting the members of a set by a key -/

variable {κ : Type} [LinearOrder κ] {key : α → κ}

theorem nodup_sortedBy {le : α → α → Bool} {xs : List α} (distinct : xs.Nodup) :
    (sortedBy le xs).Nodup :=
  (List.perm_insertionSort _ xs).nodup_iff.mpr distinct

/-- The sort is stable: two members whose keys do not decrease keep their order. -/
theorem sublist_sortedBy {a b : α} {xs : List α} (ordered : key a ≤ key b)
    (inOrder : [a, b].Sublist xs) : [a, b].Sublist (sortedBy (fun a b => key a ≤ key b) xs) := by
  have total := total_key key
  have trans := isTrans_key key
  refine List.sublist_insertionSort ?_ inOrder
  simpa using ordered

/-- Where members of one key are one member, the sort forgets the order. -/
theorem sortedBy_eq_of_perm {xs ys : List α} (perm : xs.Perm ys)
    (untied : ∀ a ∈ xs, ∀ b ∈ xs, key a = key b → a = b) :
    sortedBy (fun a b => key a ≤ key b) xs = sortedBy (fun a b => key a ≤ key b) ys := by
  have same : (sortedBy (fun a b => key a ≤ key b) xs).Perm
      (sortedBy (fun a b => key a ≤ key b) ys) :=
    ((List.perm_insertionSort _ _).trans perm).trans (List.perm_insertionSort _ _).symm
  refine same.eq_of_pairwise ?_ (pairwise_sortedBy key xs) (pairwise_sortedBy key ys)
  intro a b left right le ge
  have second : b ∈ xs := perm.mem_iff.mpr (mem_sortedBy.mp right)
  exact untied a (mem_sortedBy.mp left) b second (le_antisymm le ge)

/-- Of two members of a list one stands in front of the other. -/
theorem pair_sublist {a b : α} {xs : List α} (ne : a ≠ b) (left : a ∈ xs) (right : b ∈ xs) :
    [a, b].Sublist xs ∨ [b, a].Sublist xs := by
  obtain ⟨front, back, rfl⟩ := List.append_of_mem left
  rcases List.mem_append.mp right with before | after
  · right
    exact (List.singleton_sublist.mpr before).append (List.singleton_sublist.mpr List.mem_cons_self)
  · rcases List.mem_cons.mp after with same | later
    · exact absurd same.symm ne
    · left
      exact ((List.singleton_sublist.mpr later).cons_cons a).trans (List.sublist_append_right _ _)

/-- Where no member is listed twice, only one of two stands in front of the other. -/
theorem not_pair_sublist {a b : α} {xs : List α} (distinct : xs.Nodup) (front : [a, b].Sublist xs) :
    ¬ [b, a].Sublist xs := by
  intro back
  induction xs with
  | nil => cases front
  | cons x xs ih =>
      obtain ⟨absent, rest⟩ := List.nodup_cons.mp distinct
      rcases List.sublist_cons_iff.mp front with frontLater | ⟨_, shape, frontHere⟩
      · rcases List.sublist_cons_iff.mp back with backLater | ⟨_, shape, backHere⟩
        · exact ih rest frontLater backLater
        · obtain ⟨rfl, rfl⟩ := List.cons.inj shape
          exact absent (frontLater.subset (by simp))
      · obtain ⟨rfl, rfl⟩ := List.cons.inj shape
        rcases List.sublist_cons_iff.mp back with backLater | ⟨_, shape, backHere⟩
        · exact absent (backLater.subset (by simp))
        · obtain ⟨rfl, rfl⟩ := List.cons.inj shape
          exact absent (frontHere.subset (by simp))

/-- The sorted members of a set depend on the order they were visited in exactly
when two of them have one key. -/
theorem sortedBy_enumerate_iff [DecidableEq α] {xs : List α} :
    (∀ sets other : SetOrder, sortedBy (fun a b => key a ≤ key b) (sets.enumerate xs) =
        sortedBy (fun a b => key a ≤ key b) (other.enumerate xs)) ↔
      ∀ a ∈ xs, ∀ b ∈ xs, key a = key b → a = b := by
  constructor
  · intro same a left b right tied
    by_contra ne
    -- one order lists the two one way round, the reverse of it the other way
    have listed (a b : α) (tied : key a = key b) (inOrder : [a, b].Sublist xs.dedup) : False := by
      have here := sublist_sortedBy (le_of_eq tied) inOrder
      have there := sublist_sortedBy (le_of_eq tied.symm) (List.reverse_sublist.mpr inOrder)
      refine not_pair_sublist (nodup_sortedBy (SetOrder.listed.nodup_enumerate xs)) here ?_
      rw [same SetOrder.listed SetOrder.reversed]
      exact there
    rcases pair_sublist ne (List.mem_dedup.mpr left) (List.mem_dedup.mpr right) with front | back
    · exact listed a b tied front
    · exact listed b a tied.symm back
  · intro untied sets other
    refine sortedBy_eq_of_perm ((sets.perm xs).trans (other.perm xs).symm) ?_
    intro a left b right
    exact untied a (sets.mem_enumerate.mp left) b (sets.mem_enumerate.mp right)

end Python
