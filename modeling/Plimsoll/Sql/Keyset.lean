import Mathlib.Data.List.Sort
import Mathlib.Data.Prod.Lex

/-!
Keyset paging: the rows of a table in the descending order of a position, from
behind a given one on, and the traversal of a table page by page while others write
it.
-/

namespace Sql

variable {ρ π : Type} [LinearOrder π]

/-- `SELECT ... WHERE position < after ORDER BY position DESC LIMIT limit`; without
`after` there is no `WHERE`. -/
def page (position : ρ → π) (limit : Nat) (after : Option π) (rows : List ρ) : List ρ :=
  ((rows.filter fun row => after.all fun last => decide (position row < last)).insertionSort
    fun a b => position b ≤ position a).take limit

variable {position : ρ → π} {limit : Nat} {after : Option π} {rows : List ρ}

/-- The page of a projection is the projection of the page. -/
theorem page_map {σ : Type} (f : σ → ρ) (rows : List σ) :
    page position limit after (rows.map f) =
      (page (fun row => position (f row)) limit after rows).map f := by
  have sorted (rows : List σ) : (rows.map f).insertionSort (fun a b => position b ≤ position a) =
      (rows.insertionSort fun a b => position (f b) ≤ position (f a)).map f :=
    (List.map_insertionSort _ _ f rows fun a _ b _ =>
      (Iff.rfl : position (f b) ≤ position (f a) ↔ _)).symm
  rw [page, page, List.filter_map, sorted, List.map_take]
  rfl

/-! ## One page -/

/-- A position comes behind a cursor. -/
def Behind (after : Option π) (p : π) : Prop := ∀ last ∈ after, p < last

/-- What is left of a table behind a cursor, in order. -/
def remaining (position : ρ → π) (after : Option π) (rows : List ρ) : List ρ :=
  (rows.filter fun row => after.all fun last => decide (position row < last)).insertionSort
    fun a b => position b ≤ position a

theorem page_eq : page position limit after rows = (remaining position after rows).take limit := rfl

theorem mem_remaining {row : ρ} :
    row ∈ remaining position after rows ↔ row ∈ rows ∧ Behind after (position row) := by
  rw [remaining, List.mem_insertionSort, List.mem_filter, Option.all_eq_true]
  simp only [decide_eq_true_eq, Option.mem_def, Behind]

/-- Where positions are distinct, what is left is in strictly descending order. -/
theorem remaining_descending (after : Option π) (distinct : (rows.map position).Nodup) :
    (remaining position after rows).Pairwise fun a b => position b < position a := by
  have sorted : (remaining position after rows).Pairwise fun a b => position b ≤ position a := by
    have total : Std.Total fun a b : ρ => position b ≤ position a := ⟨fun a b => le_total _ _⟩
    have trans : IsTrans ρ fun a b => position b ≤ position a := ⟨fun _ _ _ ab bc => bc.trans ab⟩
    exact List.pairwise_insertionSort _ _
  have differ : (remaining position after rows).Pairwise fun a b => position a ≠ position b := by
    have kept : (((rows.filter fun row =>
        after.all fun last => decide (position row < last))).map position).Nodup :=
      distinct.sublist (List.filter_sublist.map position)
    have perm := (List.perm_insertionSort (fun a b => position b ≤ position a)
      (rows.filter fun row => after.all fun last => decide (position row < last))).map position
    exact List.pairwise_map.mp (perm.nodup_iff.mpr kept)
  exact (sorted.and differ).imp fun both => lt_of_le_of_ne both.1 both.2.symm

/-- A page of rows with the position that the next one begins behind. -/
structure Slice (ρ π : Type) where
  items : List ρ
  next : Option π

/-- Of up to `limit + 1` rows the first `limit` are shown; one more proves that there is
more. -/
def slice (position : ρ → π) (limit : Nat) (rows : List ρ) : Slice ρ π where
  items := rows.take limit
  next := if limit < rows.length then (rows.take limit).getLast?.map position else none

/-- A page: one row more is fetched than is shown. -/
def fetch (position : ρ → π) (limit : Nat) (after : Option π) (rows : List ρ) : Slice ρ π :=
  slice position limit (page position (limit + 1) after rows)

theorem items_fetch :
    (fetch position limit after rows).items = (remaining position after rows).take limit := by
  rw [fetch, slice, page_eq, List.take_take, Nat.min_eq_left (Nat.le_succ limit)]

theorem next_fetch : (fetch position limit after rows).next =
    if limit < (remaining position after rows).length then
      ((remaining position after rows).take limit).getLast?.map position
    else none := by
  rw [fetch, slice, page_eq, List.take_take, Nat.min_eq_left (Nat.le_succ limit), List.length_take]
  simp only [Nat.lt_min, Nat.lt_succ_self, true_and]

theorem mem_of_mem_fetch {row : ρ} (member : row ∈ (fetch position limit after rows).items) :
    row ∈ rows ∧ Behind after (position row) := by
  rw [items_fetch] at member
  exact mem_remaining.mp (List.mem_of_mem_take member)

theorem fetch_descending (limit : Nat) (after : Option π) (distinct : (rows.map position).Nodup) :
    (fetch position limit after rows).items.Pairwise fun a b => position b < position a := by
  rw [items_fetch]
  exact (remaining_descending after distinct).sublist (List.take_sublist limit _)

/-- Where another page follows, all that is shown comes before its cursor, and some row
comes behind. -/
theorem next_eq_some {last : π} (distinct : (rows.map position).Nodup)
    (more : (fetch position limit after rows).next = some last) :
    (∃ row ∈ (fetch position limit after rows).items, position row = last) ∧
      (∀ row ∈ (fetch position limit after rows).items, last ≤ position row) ∧
        ∃ row ∈ (remaining position after rows).drop limit, position row < last := by
  have descending := remaining_descending after distinct
  rw [next_fetch] at more
  rw [items_fetch]
  split at more
  · rename_i longer
    obtain ⟨row, shown, rfl⟩ := Option.map_eq_some_iff.mp more
    have member := List.mem_of_getLast? shown
    have parts := descending
    rw [← List.take_append_drop limit (remaining position after rows), List.pairwise_append] at parts
    refine ⟨⟨row, member, rfl⟩, ?_, ?_⟩
    · intro other inItems
      obtain ⟨front, split⟩ := List.getLast?_eq_some_iff.mp shown
      rw [split] at inItems
      rw [split, List.pairwise_append] at parts
      rcases List.mem_append.mp inItems with early | here
      · exact (parts.1.2.2 other early row (List.mem_singleton_self row)).le
      · rw [List.mem_singleton.mp here]
    · have nonempty : (remaining position after rows).drop limit ≠ [] := by
        rw [Ne, List.drop_eq_nil_iff]
        omega
      obtain ⟨further, inRest⟩ := List.exists_mem_of_ne_nil _ nonempty
      exact ⟨further, inRest, parts.2.2 row member further inRest⟩
  · cases more

/-- A row behind the cursor is shown, or comes behind the next cursor. -/
theorem shown_or_behind (distinct : (rows.map position).Nodup) (positive : 1 ≤ limit) {row : ρ}
    (member : row ∈ rows) (behind : Behind after (position row)) :
    row ∈ (fetch position limit after rows).items ∨
      ∃ last, (fetch position limit after rows).next = some last ∧ position row < last := by
  have inRemaining := mem_remaining.mpr ⟨member, behind⟩
  have descending := remaining_descending after distinct
  rw [items_fetch, next_fetch]
  rw [← List.take_append_drop limit (remaining position after rows)] at inRemaining descending
  rcases List.mem_append.mp inRemaining with shown | rest
  · exact Or.inl shown
  · have longer : limit < (remaining position after rows).length := by
      by_contra short
      rw [List.drop_eq_nil_of_le (by omega)] at rest
      cases rest
    have some_ : (remaining position after rows).take limit ≠ [] := by
      intro none_
      have length := congrArg List.length none_
      rw [List.length_take, List.length_nil] at length
      omega
    rw [if_pos longer, List.getLast?_eq_some_getLast some_]
    refine Or.inr ⟨_, rfl, ?_⟩
    exact (List.pairwise_append.mp descending).2.2 _ (List.getLast_mem some_) row rest

/-- No page follows exactly when the table has no further row. -/
theorem next_eq_none_iff (distinct : (rows.map position).Nodup) (positive : 1 ≤ limit) :
    (fetch position limit after rows).next = none ↔
      ∀ row ∈ rows, Behind after (position row) →
        row ∈ (fetch position limit after rows).items := by
  constructor
  · intro none_ row member behind
    rcases shown_or_behind distinct positive member behind with shown | ⟨last, some_, -⟩
    · exact shown
    · rw [none_] at some_
      cases some_
  · intro all
    cases more : (fetch position limit after rows).next with
    | none => rfl
    | some last =>
        obtain ⟨-, before, row, rest, lower⟩ := next_eq_some distinct more
        have inRemaining := mem_remaining.mp (List.mem_of_mem_drop rest)
        exact absurd (before row (all row inRemaining.1 inRemaining.2)) (not_le.mpr lower)

/-! ## Page by page -/

/-- A request for a page: how many rows it shows at most, and the table as it is
then. -/
structure Request (ρ : Type) where
  limit : Nat
  rows : List ρ

/-- Requests each of which names the position the page before it has ended with, until
a page says that none follows. -/
def follow (position : ρ → π) : Option π → List (Request ρ) → List (Slice ρ π)
  | _, [] => []
  | after, request :: rest =>
      fetch position request.limit after request.rows ::
        match (fetch position request.limit after request.rows).next with
        | none => []
        | some last => follow position (some last) rest

/-- The positions of a table are distinct, and at least one row is shown. -/
def Request.Proper (position : ρ → π) (request : Request ρ) : Prop :=
  1 ≤ request.limit ∧ (request.rows.map position).Nodup

variable {requests : List (Request ρ)}

/-- What a traversal shows is behind the cursor it begins with, in strictly descending
order. -/
theorem follow_descending (proper : ∀ request ∈ requests, request.Proper position) :
    ((follow position after requests).flatMap Slice.items).Pairwise
        (fun a b => position b < position a) ∧
      ∀ row ∈ (follow position after requests).flatMap Slice.items, Behind after (position row) := by
  induction requests generalizing after with
  | nil => exact ⟨List.Pairwise.nil, fun _ member => (nomatch member)⟩
  | cons request rest ih =>
      obtain ⟨-, distinct⟩ := proper request List.mem_cons_self
      have later := fun after => @ih after fun other member =>
        proper other (List.mem_cons_of_mem _ member)
      have first := fetch_descending request.limit after distinct
      rw [follow]
      cases more : (fetch position request.limit after request.rows).next with
      | none =>
          rw [List.flatMap_cons, List.flatMap_nil, List.append_nil]
          exact ⟨first, fun row member => (mem_of_mem_fetch member).2⟩
      | some last =>
          obtain ⟨⟨shown, inItems, ends⟩, before, -⟩ := next_eq_some distinct more
          rw [List.flatMap_cons]
          refine ⟨List.pairwise_append.mpr ⟨first, (later (some last)).1, ?_⟩, ?_⟩
          · intro a inFirst b inLater
            exact ((later (some last)).2 b inLater last rfl).trans_le (before a inFirst)
          · intro row member cursor here
            rcases List.mem_append.mp member with now | then_
            · exact (mem_of_mem_fetch now).2 cursor here
            · refine ((later (some last)).2 row then_ last rfl).trans ?_
              rw [← ends]
              exact (mem_of_mem_fetch inItems).2 cursor here

/-- What a traversal shows was in the table of one of its requests. -/
theorem mem_of_mem_follow {row : ρ}
    (member : row ∈ (follow position after requests).flatMap Slice.items) :
    ∃ request ∈ requests, row ∈ request.rows := by
  induction requests generalizing after with
  | nil => cases member
  | cons request rest ih =>
      rw [follow, List.flatMap_cons] at member
      rcases List.mem_append.mp member with now | later
      · exact ⟨request, List.mem_cons_self, (mem_of_mem_fetch now).1⟩
      · cases more : (fetch position request.limit after request.rows).next with
        | none =>
            rw [more] at later
            cases later
        | some last =>
            rw [more] at later
            obtain ⟨other, inRest, inRows⟩ := ih later
            exact ⟨other, List.mem_cons_of_mem _ inRest, inRows⟩

/-- The traversal has come to its end. -/
def Ends (pages : List (Slice ρ π)) : Prop := ∃ last, pages.getLast? = some last ∧ last.next = none

/-- The rows that the first pages of a traversal show. -/
def shownBefore (pages : List (Slice ρ π)) (k : Nat) : List ρ := (pages.take k).flatMap Slice.items

/-- What comes behind the last row of a page comes behind every row it shows, and
behind the cursor it began with. -/
theorem behind_next_iff {request : Request ρ} {last p : π} (proper : request.Proper position)
    (more : (fetch position request.limit after request.rows).next = some last) :
    p < last ↔ Behind after p ∧
      ∀ row ∈ (fetch position request.limit after request.rows).items, p < position row := by
  obtain ⟨⟨row, inItems, ends⟩, before, -⟩ := next_eq_some proper.2 more
  constructor
  · intro lower
    refine ⟨fun cursor same => ?_, fun other member => lower.trans_le (before other member)⟩
    exact (ends ▸ lower).trans ((mem_of_mem_fetch inItems).2 cursor same)
  · intro ⟨_, all⟩
    exact ends ▸ all row inItems

/-- Each page of a traversal is fetched from behind a cursor, and what comes behind
that is what comes behind the first cursor and behind every row shown before. -/
theorem follow_getElem (proper : ∀ request ∈ requests, request.Proper position) {k : Nat}
    {shown : Slice ρ π} (page : (follow position after requests)[k]? = some shown) :
    ∃ request cursor, requests[k]? = some request ∧
      shown = fetch position request.limit cursor request.rows ∧
        ∀ p, Behind cursor p ↔ Behind after p ∧
          ∀ row ∈ shownBefore (follow position after requests) k, p < position row := by
  induction requests generalizing after k with
  | nil => cases page
  | cons request rest ih =>
      have ⟨properHere, properRest⟩ := List.forall_mem_cons.mp proper
      cases k with
      | zero =>
          rw [follow, List.getElem?_cons_zero] at page
          refine ⟨request, after, rfl, (Option.some.inj page).symm, fun p => ?_⟩
          exact (and_iff_left fun _ none_ => nomatch none_).symm
      | succ k =>
          rw [follow, List.getElem?_cons_succ] at page
          rw [follow]
          cases more : (fetch position request.limit after request.rows).next with
          | none =>
              rw [more] at page
              cases page
          | some last =>
              rw [more] at page
              obtain ⟨request', cursor, atK, fetched, behind⟩ := ih properRest page
              refine ⟨request', cursor, atK, fetched, fun p => ?_⟩
              have isLast : Behind (some last) p ↔ p < last :=
                ⟨fun here => here last rfl, fun lower _ same => Option.some.inj same ▸ lower⟩
              rw [behind, isLast, behind_next_iff properHere more, shownBefore, shownBefore,
                List.take_succ_cons, List.flatMap_cons, and_assoc]
              simp only [List.mem_append, or_imp, forall_and]

/-- No page follows exactly when the table has no further row: one behind the first
cursor and all rows shown before that the page does not show. -/
theorem follow_next_eq_none_iff (proper : ∀ request ∈ requests, request.Proper position) {k : Nat}
    {request : Request ρ} {shown : Slice ρ π} (atK : requests[k]? = some request)
    (page : (follow position after requests)[k]? = some shown) :
    shown.next = none ↔ ∀ row ∈ request.rows, Behind after (position row) →
      (∀ earlier ∈ shownBefore (follow position after requests) k, position row < position earlier) →
        row ∈ shown.items := by
  obtain ⟨request', cursor, atK', rfl, behind⟩ := follow_getElem proper page
  rw [atK] at atK'
  cases atK'
  obtain ⟨positive, distinct⟩ := proper request (List.mem_of_getElem? atK)
  rw [next_eq_none_iff distinct positive]
  refine forall₂_congr fun row member => ?_
  rw [behind, and_imp]

/-- The turn of a position has come with a page: it is behind all rows shown before,
and not behind the page's last row if another page follows. -/
def Turn (position : ρ → π) (pages : List (Slice ρ π)) (k : Nat) (p : π) : Prop :=
  (∀ row ∈ shownBefore pages k, p < position row) ∧
    ∀ shown, pages[k]? = some shown → ∀ last ∈ shown.next, last ≤ p

omit [LinearOrder π] in
theorem ends_cons {first : Slice ρ π} {pages : List (Slice ρ π)} (more : first.next.isSome = true)
    (ends : Ends (first :: pages)) : Ends pages := by
  obtain ⟨final, isLast, none_⟩ := ends
  refine ⟨final, ?_, none_⟩
  cases pages with
  | nil =>
      rw [List.getLast?_singleton] at isLast
      rw [Option.some.inj isLast, none_] at more
      cases more
  | cons page pages =>
      rw [List.getLast?_cons_cons] at isLast
      exact isLast

/-- In a traversal that has come to its end every position behind its first cursor has
its turn: on one page, which shows what the table then has there. -/
theorem follow_turn (proper : ∀ request ∈ requests, request.Proper position)
    (ends : Ends (follow position after requests)) {p : π} (behind : Behind after p) :
    ∃ (k : Nat) (request : Request ρ) (shown : Slice ρ π), requests[k]? = some request ∧
      (follow position after requests)[k]? = some shown ∧ Turn position (follow position after requests) k p ∧
        ∀ row ∈ request.rows, position row = p → row ∈ shown.items := by
  induction requests generalizing after with
  | nil =>
      obtain ⟨last, none_, -⟩ := ends
      cases none_
  | cons request rest ih =>
      have ⟨properHere, properRest⟩ := List.forall_mem_cons.mp proper
      obtain ⟨positive, distinct⟩ := properHere
      have nothing : ∀ pages : List (Slice ρ π), ∀ row ∈ shownBefore pages 0, p < position row :=
        fun _ _ none_ => nomatch none_
      have here : ∀ row ∈ request.rows, position row = p →
          (∀ last ∈ (fetch position request.limit after request.rows).next, last ≤ p) →
            row ∈ (fetch position request.limit after request.rows).items := by
        intro row member same turn
        rcases shown_or_behind distinct positive member (same ▸ behind) with shown | ⟨last, next, lower⟩
        · exact shown
        · exact absurd (turn last next) (not_le.mpr (same ▸ lower))
      by_cases turn : ∀ last ∈ (fetch position request.limit after request.rows).next, last ≤ p
      · refine ⟨0, request, _, rfl, rfl, ⟨nothing _, fun shown first => ?_⟩,
          fun row member same => here row member same turn⟩
        rw [follow, List.getElem?_cons_zero] at first
        rwa [← Option.some.inj first]
      · obtain ⟨last, turn⟩ := not_forall.mp turn
        obtain ⟨more, notYet⟩ := Classical.not_imp.mp turn
        have more : (fetch position request.limit after request.rows).next = some last := more
        have lower : p < last := not_le.mp notYet
        rw [follow] at ends ⊢
        rw [more] at ends ⊢
        obtain ⟨k, request', shown, atK, page, turn', complete⟩ :=
          ih properRest (ends_cons (by rw [more]; rfl) ends) fun _ same => Option.some.inj same ▸ lower
        refine ⟨k + 1, request', shown, atK, page, ⟨fun row member => ?_, turn'.2⟩, complete⟩
        rw [shownBefore, List.take_succ_cons, List.flatMap_cons] at member
        rcases List.mem_append.mp member with first | later
        · exact ((behind_next_iff ⟨positive, distinct⟩ more).mp lower).2 row first
        · exact turn'.1 row later

end Sql
