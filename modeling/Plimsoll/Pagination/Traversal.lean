import Plimsoll.Pagination.Cursors

/-!
A client that follows `nextCursor` from the first page on, while others insert,
update and delete rows. The cursors are texts; what they name makes the traversal
one of keyset pages.
-/

namespace Plimsoll.Pagination

open Python Contracts

variable {ρ : Type} (interp : Interpreter) (driver : Driver) (listing : Listing ρ)

/-- A request for a page, with its limit, and the session it meets. -/
abbrev PageRequest := Nat × Sql.View postgres

/-- The pages a client gets that sends the cursor of each page with its next request,
until a page has none. -/
def Listing.traverse : Option String → List PageRequest → Except Raised (List (Page ρ))
  | _, [] => .ok []
  | cursor, (limit, v) :: rest =>
      match ((listing.page interp driver pure limit cursor).run v).1 with
      | .error exc => .error exc
      | .ok page =>
          match page.nextCursor with
          | none => .ok [page]
          | some next => (traverse (some next) rest).map (page :: ·)

/-- The position of a row. -/
def Listing.position (row : ρ) : Database.Position :=
  Database.position (listing.timestamp row) (listing.id row)

/-- What a client meets on its way: each page shows a row at least, identifiers are
distinct, timestamps are those of a `datetime`, and no row changes its own. -/
structure Met (requests : List PageRequest) : Prop where
  positive : ∀ request ∈ requests, 1 ≤ request.1
  distinct : ∀ request ∈ requests, ((listing.rows request.2).map listing.id).Nodup
  inRange : ∀ request ∈ requests, ∀ row ∈ listing.rows request.2,
    Datetime.InRange (listing.timestamp row)
  fixed : ∀ request ∈ requests, ∀ other ∈ requests, ∀ row ∈ listing.rows request.2,
    ∀ row' ∈ listing.rows other.2, listing.id row = listing.id row' →
      listing.timestamp row = listing.timestamp row'

variable {interp driver listing}

/-! ## Cursors and positions -/

/-- The cursor is sent to the database as this position. -/
def Sends (interp : Interpreter) (driver : Driver) (cursor : Option String)
    (sent : Option Database.Position) : Prop :=
  ∃ after, positionFrom interp cursor = .ok after ∧ parameters driver after = .ok sent

/-- The cursor made of a row's timestamp and identifier is sent as the row's
position. -/
theorem sends_cursor {row : ρ} {cursor : String} (inRange : Datetime.InRange (listing.timestamp row))
    (encoded : encodeCursor interp
      (payloadOf (Datetime.ofInstant (listing.timestamp row)) (listing.id row)) = .ok cursor) :
    Sends interp driver (some cursor) (some (listing.position row)) := by
  have read := positionOf_cursor (Datetime.valid_ofInstant inRange) rfl encoded
  refine ⟨some (_, listing.id row), by rw [positionFrom, read]; rfl, ?_⟩
  rw [parameters, driver.aware _ rfl, Datetime.instant_ofInstant inRange]
  rfl

/-- A page of an endpoint shows the rows of a keyset page, and its cursor is sent as
the position that follows. -/
structure Matches (interp : Interpreter) (driver : Driver) (page : Page ρ)
    (slice : Sql.Slice ρ Database.Position) : Prop where
  items : page.items = slice.items
  none_iff : page.nextCursor = none ↔ slice.next = none
  sends : ∀ cursor ∈ page.nextCursor, ∃ last, slice.next = some last ∧
    Sends interp driver (some cursor) (some last)

/-- A page has a cursor where a keyset page has a position that follows, and it is
made of the row that has that position. -/
theorem nextCursor_slice {π : Type} (position : ρ → π) {rows : List ρ} {limit : Nat}
    {timestamp : ρ → Datetime} {id : ρ → Uuid} {next : Option String}
    (returned : nextCursor interp rows limit timestamp id = .ok next) :
    (next = none ∧ (Sql.slice position limit rows).next = none) ∨
      ∃ last ∈ rows, ∃ cursor, next = some cursor ∧
        (Sql.slice position limit rows).next = some (position last) ∧
          encodeCursor interp (payloadOf (timestamp last) (id last)) = .ok cursor := by
  rw [nextCursor] at returned
  rw [Sql.slice]
  cases shown : (rows.take limit).getLast? with
  | none =>
      rw [shown] at returned
      cases returned
      exact Or.inl ⟨rfl, ite_self _⟩
  | some last =>
      rw [shown] at returned
      dsimp only at returned ⊢
      by_cases more : limit < rows.length
      · obtain ⟨cursor, encoded⟩ := encodeCursor_payloadOf interp (timestamp last) (id last)
        rw [if_pos more, encoded] at returned
        cases returned
        have member := List.mem_of_mem_take (List.mem_of_getLast? shown)
        exact Or.inr ⟨last, member, cursor, rfl, if_pos more, encoded⟩
      · rw [if_neg more] at returned
        cases returned
        exact Or.inl ⟨rfl, if_neg more⟩

theorem page_matches {limit : Nat} {cursor : Option String} {sent : Option Database.Position}
    {v : Sql.View postgres} (sends : Sends interp driver cursor sent)
    (inRange : ∀ row ∈ listing.rows v, Datetime.InRange (listing.timestamp row)) :
    ∃ page, ((listing.page interp driver pure limit cursor).run v).1 = .ok page ∧
      Matches interp driver page (Sql.fetch listing.position limit sent (listing.rows v)) := by
  obtain ⟨after, read, bound⟩ := sends
  obtain ⟨page, served, items, next⟩ := @page_served interp driver ρ listing limit v _ _ _ read bound
  refine ⟨page, congrArg Prod.fst served, ?_⟩
  rcases nextCursor_slice listing.position next with
    ⟨none_, ends⟩ | ⟨last, member, cursor', some_, more, encoded⟩
  · refine ⟨items, iff_of_true none_ ends, fun cursor' made => ?_⟩
    rw [none_] at made
    cases made
  · have inRows := (Sql.mem_remaining.mp (List.mem_of_mem_take member)).1
    refine ⟨items, ?_, fun cursor'' made => ⟨_, more, ?_⟩⟩
    · rw [some_]
      exact iff_of_false (fun impossible => nomatch impossible) fun ends =>
        nomatch more.symm.trans ends
    · rw [some_] at made
      cases made
      exact sends_cursor (inRange last inRows) encoded

/-- The table that a request meets, as a traversal of keyset pages sees it. -/
def Listing.request (listing : Listing ρ) (request : PageRequest) : Sql.Request ρ where
  limit := request.1
  rows := listing.rows request.2

/-- The pages a client gets are those of a traversal by position. -/
theorem traverse_follow {requests : List PageRequest} {cursor : Option String}
    {sent : Option Database.Position} (sends : Sends interp driver cursor sent)
    (inRange : ∀ request ∈ requests, ∀ row ∈ listing.rows request.2,
      Datetime.InRange (listing.timestamp row)) :
    ∃ pages, listing.traverse interp driver cursor requests = .ok pages ∧
      List.Forall₂ (Matches interp driver) pages
        (Sql.follow listing.position sent (requests.map listing.request)) := by
  induction requests generalizing cursor sent with
  | nil => exact ⟨[], rfl, List.Forall₂.nil⟩
  | cons request rest ih =>
      obtain ⟨limit, v⟩ := request
      have ⟨here, later⟩ := List.forall_mem_cons.mp inRange
      obtain ⟨page, served, matches_⟩ := @page_matches ρ interp driver listing limit _ _ v sends here
      rw [Listing.traverse, served, List.map_cons, Sql.follow]
      dsimp only
      cases next : page.nextCursor with
      | none =>
          have ends : (Sql.fetch listing.position (listing.request (limit, v)).limit sent
              (listing.request (limit, v)).rows).next = none := matches_.none_iff.mp next
          rw [ends]
          exact ⟨[page], rfl, List.Forall₂.cons matches_ List.Forall₂.nil⟩
      | some cursor' =>
          obtain ⟨last, more, sends'⟩ := matches_.sends cursor' next
          have more : (Sql.fetch listing.position (listing.request (limit, v)).limit sent
              (listing.request (limit, v)).rows).next = some last := more
          obtain ⟨pages, followed, all⟩ := ih sends' later
          dsimp only
          rw [followed, more]
          exact ⟨page :: pages, rfl, List.Forall₂.cons matches_ all⟩

/-! ## The traversal -/

/-- The rows that the first pages show. -/
def shownBefore (pages : List (Page ρ)) (k : Nat) : List ρ := (pages.take k).flatMap Page.items

/-- What a client gets that follows `nextCursor`: rows in strictly descending order of
timestamp and identifier, none of them twice; a `nextCursor` exactly where the table
has a further row; and, when it has come to a page without one, all rows of the
first table that were still there when their turn came: on the one page that begins
before their position and reaches it. -/
structure Complete (listing : Listing ρ) (requests : List PageRequest) (pages : List (Page ρ)) :
    Prop where
  descending : (pages.flatMap Page.items).Pairwise fun a b => listing.position b < listing.position a
  once : ((pages.flatMap Page.items).map listing.id).Nodup
  none_iff : ∀ (k : Nat) request page, requests[k]? = some request → pages[k]? = some page →
    (page.nextCursor = none ↔ ∀ row ∈ listing.rows request.2,
      (∀ earlier ∈ shownBefore pages k, listing.position row < listing.position earlier) →
        row ∈ page.items)
  complete : (∃ last, pages.getLast? = some last ∧ last.nextCursor = none) →
    ∀ first ∈ requests.head?, ∀ row ∈ listing.rows first.2,
      ∃ (k : Nat) (request : PageRequest) (page : Page ρ),
        requests[k]? = some request ∧ pages[k]? = some page ∧
          (∀ earlier ∈ shownBefore pages k, listing.position row < listing.position earlier) ∧
            (page.nextCursor = none ∨
              ∃ reached ∈ page.items, listing.position reached ≤ listing.position row) ∧
                ∀ row' ∈ listing.rows request.2, listing.id row' = listing.id row → row' ∈ page.items

theorem Matches.flatMap {pages : List (Page ρ)} {slices : List (Sql.Slice ρ Database.Position)}
    (all : List.Forall₂ (Matches interp driver) pages slices) :
    pages.flatMap Page.items = slices.flatMap Sql.Slice.items := by
  induction all with
  | nil => rfl
  | cons here _ ih => rw [List.flatMap_cons, List.flatMap_cons, here.items, ih]

theorem Matches.shownBefore {pages : List (Page ρ)} {slices : List (Sql.Slice ρ Database.Position)}
    (all : List.Forall₂ (Matches interp driver) pages slices) (k : Nat) :
    shownBefore pages k = Sql.shownBefore slices k :=
  Matches.flatMap (List.forall₂_take k all)

/-- Members of related lists at the same place are related. -/
theorem Matches.getElem {pages : List (Page ρ)} {slices : List (Sql.Slice ρ Database.Position)}
    (all : List.Forall₂ (Matches interp driver) pages slices) {k : Nat} :
    (∀ page, pages[k]? = some page → ∃ slice, slices[k]? = some slice ∧ Matches interp driver page slice) ∧
      ∀ slice, slices[k]? = some slice → ∃ page, pages[k]? = some page ∧ Matches interp driver page slice := by
  induction all generalizing k with
  | nil => exact ⟨fun _ => nofun, fun _ => nofun⟩
  | cons here _ ih =>
      cases k with
      | zero =>
          constructor
          · rintro _ ⟨⟩
            exact ⟨_, rfl, here⟩
          · rintro _ ⟨⟩
            exact ⟨_, rfl, here⟩
      | succ k => exact ih

theorem Matches.ends {pages : List (Page ρ)} {slices : List (Sql.Slice ρ Database.Position)}
    (all : List.Forall₂ (Matches interp driver) pages slices) {last : Page ρ}
    (isLast : pages.getLast? = some last) (none_ : last.nextCursor = none) : Sql.Ends slices := by
  rw [List.getLast?_eq_getElem?] at isLast
  obtain ⟨slice, there, matches_⟩ := (Matches.getElem all).1 last isLast
  rw [all.length_eq, ← List.getLast?_eq_getElem?] at there
  exact ⟨slice, there, matches_.none_iff.mp none_⟩

theorem position_nodup {rows : List ρ} (distinct : (rows.map listing.id).Nodup) :
    (rows.map listing.position).Nodup := by
  have distinct := distinct.map (f := BitVec.toNat) fun _ _ => BitVec.eq_of_toNat_eq
  rw [List.map_map] at distinct
  refine List.Nodup.of_map (fun p : Database.Position => (ofLex p).2) ?_
  rwa [List.map_map]

theorem proper_request {requests : List PageRequest} (met : Met listing requests) :
    ∀ request ∈ requests.map listing.request, request.Proper listing.position := by
  intro request member
  obtain ⟨request, inRequests, rfl⟩ := List.mem_map.mp member
  exact ⟨met.positive request inRequests, position_nodup (met.distinct request inRequests)⟩

/-- Where no row changes its timestamp, one that is shown on two pages is shown at the
same position. -/
theorem once_of_descending {requests : List PageRequest} (met : Met listing requests)
    {rows : List ρ}
    (shown : ∀ row ∈ rows, ∃ request ∈ requests, row ∈ listing.rows request.2)
    (descending : rows.Pairwise fun a b => listing.position b < listing.position a) :
    (rows.map listing.id).Nodup := by
  refine List.pairwise_map.mpr (descending.imp_of_mem ?_)
  intro a b inRows inRows' lower same
  obtain ⟨request, member, here⟩ := shown a inRows
  obtain ⟨request', member', here'⟩ := shown b inRows'
  have stamp := met.fixed request member request' member' a here b here' same
  rw [Listing.position, Listing.position, stamp, same] at lower
  exact lt_irrefl _ lower

/-- Whatever others write in between, a client that follows `nextCursor` from the first
page on is served, and gets what it should. -/
theorem traverse_complete (interp : Interpreter) (driver : Driver) (listing : Listing ρ)
    (requests : List PageRequest) (met : Met listing requests) :
    ∃ pages, listing.traverse interp driver none requests = .ok pages ∧
      Complete listing requests pages := by
  have first : Sends interp driver none none := ⟨none, rfl, rfl⟩
  obtain ⟨pages, followed, all⟩ := traverse_follow first met.inRange
  have proper := proper_request met
  have ⟨descending, _⟩ := @Sql.follow_descending _ _ _ _ none _ proper
  refine ⟨pages, followed, ?_, ?_, ?_, ?_⟩
  · rwa [Matches.flatMap all]
  · rw [Matches.flatMap all]
    refine once_of_descending met (fun row shown => ?_) descending
    obtain ⟨request, member, inRows⟩ := Sql.mem_of_mem_follow shown
    obtain ⟨request, inRequests, rfl⟩ := List.mem_map.mp member
    exact ⟨request, inRequests, inRows⟩
  · intro k request page atK here
    obtain ⟨slice, there, matches_⟩ := (Matches.getElem all).1 page here
    have atK' : (requests.map listing.request)[k]? = some (listing.request request) := by
      rw [List.getElem?_map, atK]
      rfl
    rw [matches_.none_iff, Sql.follow_next_eq_none_iff proper atK' there, Matches.shownBefore all,
      matches_.items]
    exact forall₂_congr fun row _ => ⟨fun shown => shown nofun, fun shown _ => shown⟩
  · rintro ⟨last, isLast, ends⟩ start isFirst row member
    obtain ⟨k, _, slice, asked, there, turn, complete⟩ :=
      @Sql.follow_turn _ _ _ _ none _ proper (Matches.ends all isLast ends) (listing.position row) nofun
    obtain ⟨request, atK, rfl⟩ := Option.map_eq_some_iff.mp (List.getElem?_map.symm.trans asked)
    obtain ⟨page, here, matches_⟩ := (Matches.getElem all).2 slice there
    refine ⟨k, request, page, atK, here, ?_, ?_, fun row' inRows same => ?_⟩
    · rw [Matches.shownBefore all]
      exact turn.1
    · cases more : slice.next with
      | none => exact Or.inl (matches_.none_iff.mpr more)
      | some reached =>
          obtain ⟨_, _, atK', rfl, _⟩ := Sql.follow_getElem proper there
          have distinct := (proper _ (List.mem_of_getElem? atK')).2
          obtain ⟨⟨shown, inItems, rfl⟩, -⟩ := Sql.next_eq_some distinct more
          refine Or.inr ⟨shown, ?_, turn.2 _ there _ more⟩
          rwa [matches_.items]
    · have stamp := met.fixed request (List.mem_of_getElem? atK) start (List.mem_of_head? isFirst)
        row' inRows row member same
      rw [matches_.items]
      refine complete row' inRows ?_
      rw [Listing.position, Listing.position, stamp, same]

/-- Two projects of one transaction. -/
def View.twins : Sql.View postgres :=
  let project (id : Uuid) : Project :=
    { id, organizationId := 0, name := "Checkout", projectKey := "checkout", createdBy := 0, createdAt := 0,
      updatedAt := 0 }
  { View.empty with
    setting := ⟨some 0, 0⟩
    database := { projects := (Dict.empty.set 1 (project 1)).set 2 (project 2) } }

/-- Two pages of one project each, of projects that share a timestamp. -/
theorem traverse_complete_twins :
    ∃ pages, Listing.projects.traverse Interpreter.basic Driver.strict none
        [(1, View.twins), (1, View.twins)] = .ok pages ∧
      Complete Listing.projects [(1, View.twins), (1, View.twins)] pages := by
  refine traverse_complete Interpreter.basic Driver.strict Listing.projects _ ⟨?_, ?_, ?_, ?_⟩
  · decide
  · decide +kernel
  · decide +kernel
  · decide +kernel

end Plimsoll.Pagination
