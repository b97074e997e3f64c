import Plimsoll.Pagination

/-!
Cursors: the one that a page ends with names the position of its last row, and
what becomes of any other text.
-/

namespace Plimsoll.Pagination

open Python Contracts

variable {interp : Interpreter} {driver : Driver} {stamp : Datetime} {id : Uuid}

/-! ## The cursor of a row -/

theorem toList_uuidText (id : Uuid) :
    (ScriptRepos.uuidText id).toList = Python.Uuid.dashed (Python.Uuid.hexText id.toNat) := by
  rw [ScriptRepos.uuidText, join, String.toList_intercalate]
  simp only [List.map_cons, List.map_nil, String.toList_ofList, List.drop_zero]
  rfl

theorem wellFormed_payloadOf : (Json.Value.dict (payloadOf stamp id)).WellFormed interp := by
  have distinct : ["at", "id"].Nodup := by decide
  exact ⟨distinct, trivial, trivial, trivial⟩

theorem not_hasLong_payloadOf : ¬ Json.HasLong (.dict (payloadOf stamp id)) := by
  rw [Json.hasLong_dict]
  rintro ⟨item, member, n, -, within⟩
  simp only [payloadOf, List.mem_cons, List.not_mem_nil, or_false] at member
  rcases member with rfl | rfl
  · cases within
  · cases within

/-- Every row has a cursor. -/
theorem encodeCursor_payloadOf (interp : Interpreter) (stamp : Datetime) (id : Uuid) :
    ∃ cursor, encodeCursor interp (payloadOf stamp id) = .ok cursor :=
  encodeCursor_ok_iff.mpr ⟨interp.recursionLimit_pos, not_hasLong_payloadOf⟩

theorem sortedBy_payloadOf :
    sortedBy (fun a b => a.1 ≤ b.1) (Json.orderedItems (payloadOf stamp id)) = payloadOf stamp id := by
  have ordered : decide ("at" ≤ "id") = true := by decide
  rw [payloadOf, sortedBy]
  simp only [Json.orderedItems, Json.Value.ordered, List.insertionSort_cons, List.insertionSort_nil,
    List.orderedInsert_nil, List.orderedInsert_cons]
  rw [if_pos ordered]

theorem subscript_at : subscript (payloadOf stamp id) "at" = .ok (.str (String.ofList stamp.isoformat)) := by
  rw [subscript, payloadOf, List.lookup_cons_self]

theorem subscript_id : subscript (payloadOf stamp id) "id" = .ok (.str (ScriptRepos.uuidText id)) := by
  have other : ("id" == "at") = false := by decide
  rw [subscript, payloadOf, List.lookup_cons, other, List.lookup_cons_self]

/-- What is done with a payload. -/
theorem positionOf_decoded {cursor : String} {payload : Payload}
    (decoded : decodeCursor interp cursor = .ok payload) :
    positionOf interp cursor =
      subscript payload "at" >>= fun stamp => fromisoformat interp stamp >>= fun stamp =>
        subscript payload "id" >>= fun id => uuid interp id >>= fun id => .ok (stamp, id) := by
  rw [positionOf, decoded]
  rfl

/-- A row's cursor is read as the row's position. -/
theorem positionOf_cursor {cursor : String} (valid : stamp.Valid) (zoned : stamp.Zoned)
    (encoded : encodeCursor interp (payloadOf stamp id) = .ok cursor) :
    positionOf interp cursor = .ok (stamp, id) := by
  have decoded := decodeCursor_encodeCursor wellFormed_payloadOf encoded
  rw [sortedBy_payloadOf] at decoded
  have readStamp : fromisoformat interp (.str (String.ofList stamp.isoformat)) = .ok stamp := by
    rw [fromisoformat, String.toList_ofList, interp.fromisoformat_isoformat stamp valid zoned]
  have readId : uuid interp (.str (ScriptRepos.uuidText id)) = .ok id := by
    rw [uuid, toList_uuidText, Python.Uuid.parse_dashed]
  rw [positionOf_decoded decoded, subscript_at, ok_bind, readStamp, ok_bind, subscript_id, ok_bind, readId,
    ok_bind]

/-- A page has a cursor exactly when more rows were fetched than it shows. -/
theorem nextCursor_eq {ρ : Type} {rows : List ρ} {limit : Nat} {timestamp : ρ → Datetime}
    {id : ρ → Uuid} {next : Option String}
    (returned : nextCursor interp rows limit timestamp id = .ok next) :
    ∀ cursor ∈ next, ∃ last, (rows.take limit).getLast? = some last ∧ limit < rows.length ∧
      encodeCursor interp (payloadOf (timestamp last) (id last)) = .ok cursor := by
  rintro cursor ⟨⟩
  rw [nextCursor] at returned
  split at returned
  · cases returned
  · rename_i last shown
    split at returned
    · rename_i more
      obtain ⟨encoded, exists_⟩ := encodeCursor_payloadOf interp (timestamp last) (id last)
      rw [exists_] at returned
      cases returned
      exact ⟨last, shown, more, exists_⟩
    · cases returned

/-- The next cursor of a page is the one made of the rows. -/
theorem nextCursor_of_pageOf {ρ τ : Type} {rows : List ρ} {limit : Nat} {present : ρ → Transaction τ}
    {timestamp : ρ → Datetime} {id : ρ → Uuid} {page : Page τ} {v v' : Sql.View postgres}
    (returned : (pageOf interp rows limit present timestamp id).run v = (.ok page, v')) :
    nextCursor interp rows limit timestamp id = .ok page.nextCursor := by
  rw [pageOf] at returned
  obtain ⟨next, v₁, made, returned⟩ := Sql.Program.bind_ok returned
  obtain ⟨items, v₂, -, returned⟩ := Sql.Program.bind_ok returned
  cases returned
  exact (Prod.mk.inj made).1

/-- Every object that can be dumped survives the way through a cursor, and the
cursor of a page names the timestamp and the identifier of its last row. -/
theorem cursor_round_trip (interp : Interpreter) :
    (∀ payload : Payload, (Json.Value.dict payload).WellFormed interp →
      ((∃ cursor, encodeCursor interp payload = .ok cursor) ↔
        (Json.Value.dict payload).depth ≤ interp.recursionLimit ∧ ¬ Json.HasLong (.dict payload)) ∧
      ∀ cursor, encodeCursor interp payload = .ok cursor →
        (∀ c ∈ cursor.toList, IsUrlSafe c) ∧
          ∃ decoded, decodeCursor interp cursor = .ok decoded ∧
            Json.Same (.dict payload) (.dict decoded)) ∧
    ∀ (ρ τ : Type) (rows : List ρ) (limit : Nat) (present : ρ → Transaction τ)
      (timestamp : ρ → Datetime) (id : ρ → Uuid) (page : Page τ) (v v' : Sql.View postgres),
      (∀ row ∈ rows, (timestamp row).Valid ∧ (timestamp row).Zoned) →
        (pageOf interp rows limit present timestamp id).run v = (.ok page, v') →
          ∀ cursor ∈ page.nextCursor, ∃ last, (rows.take limit).getLast? = some last ∧
            positionFrom interp (some cursor) = .ok (some (timestamp last, id last)) := by
  constructor
  · intro payload wellFormed
    refine ⟨encodeCursor_ok_iff, fun cursor encoded => ⟨isUrlSafe_encodeCursor encoded, _,
      decodeCursor_encodeCursor wellFormed encoded, ?_⟩⟩
    have same := Json.same_ordered (.dict payload)
    rwa [Json.Value.ordered] at same
  · intro ρ τ rows limit present timestamp id page v v' zoned returned cursor next
    obtain ⟨last, shown, -, encoded⟩ := nextCursor_eq (nextCursor_of_pageOf returned) cursor next
    obtain ⟨valid, zoned⟩ := zoned last (List.mem_of_mem_take (List.mem_of_getLast? shown))
    refine ⟨last, shown, ?_⟩
    rw [positionFrom, positionOf_cursor valid zoned encoded]
    rfl

/-- A session of no organisation on an empty database. -/
def View.empty : Sql.View postgres where
  setting := ⟨none, 0⟩
  database := {}
  environment := { tokens := fun _ => "", uuids := fun _ => 0, clock := fun _ => 0 }

/-- A page of one row of two. -/
theorem pageOf_first {interp : Interpreter} {first second : Position} {cursor : String}
    (encoded : encodeCursor interp (payloadOf first.1 first.2) = .ok cursor) (v : Sql.View postgres) :
    (pageOf interp [first, second] 1 (pure : Position → Transaction Position) Prod.fst Prod.snd).run v =
      (.ok { items := [first], nextCursor := some cursor }, v) := by
  have next : nextCursor interp [first, second] 1 Prod.fst Prod.snd = .ok (some cursor) := by
    rw [nextCursor]
    change (if 1 < 2 then ((encodeCursor interp (payloadOf first.1 first.2)).mapError raisedOf).map some
      else .ok none) = _
    rw [if_pos (by decide), encoded]
    rfl
  rw [pageOf, next]
  rfl

/-- A payload, and the first of two rows, of one microsecond past midnight. -/
theorem cursor_round_trip_sample :
    (∃ cursor decoded, encodeCursor Interpreter.basic [("name", .str "Zürich"), ("at", .list [.null])] =
        .ok cursor ∧ decodeCursor Interpreter.basic cursor = .ok decoded ∧
          Json.Same (.dict [("name", .str "Zürich"), ("at", .list [.null])]) (.dict decoded)) ∧
      ∃ cursor, positionFrom Interpreter.basic (some cursor) = .ok (some (Datetime.ofInstant 1, 1)) := by
  have distinct : ["name", "at"].Nodup := by decide
  have ⟨codec, pages⟩ := cursor_round_trip Interpreter.basic
  constructor
  · obtain ⟨exists_, reads⟩ := codec [("name", .str "Zürich"), ("at", .list [.null])]
      ⟨distinct, trivial, ⟨trivial, trivial⟩, trivial⟩
    obtain ⟨cursor, encoded⟩ := exists_.mpr ⟨by decide, by
      rw [← Json.text_eq_none_iff]
      simp [Json.Value.text, Json.textItems, Json.textAll]⟩
    obtain ⟨-, decoded, read, same⟩ := reads cursor encoded
    exact ⟨cursor, decoded, encoded, read, same⟩
  · have valid : (Datetime.ofInstant 1).Valid := Datetime.valid_ofInstant (by decide)
    have zoned : (Datetime.ofInstant 1).Zoned := rfl
    generalize Datetime.ofInstant 1 = stamp at valid zoned ⊢
    obtain ⟨cursor, encoded⟩ := encodeCursor_payloadOf Interpreter.basic stamp 1
    let v := View.empty
    have all : ∀ row ∈ [(stamp, (1 : Uuid)), (stamp, 0)],
        (Prod.fst row).Valid ∧ (Prod.fst row).Zoned := by
      simp [valid, zoned]
    have returned := @pageOf_first Interpreter.basic (stamp, 1) (stamp, 0) cursor encoded v
    obtain ⟨last, shown, position⟩ :=
      pages _ _ _ _ _ _ _ _ _ _ all returned cursor (Option.mem_some_self cursor)
    obtain rfl : (stamp, 1) = last := Option.some.inj shown
    exact ⟨cursor, position⟩

/-- A timestamp that is off from UTC by one microsecond. -/
def barelyZoned : Datetime := { Datetime.ofInstant 0 with utcoffset := some 1 }

/-- An object with a number of too many digits has no cursor, and a timestamp that is
off from UTC by less than a second is not read back by every interpreter. -/
theorem long_number_has_no_cursor :
    (¬ ∀ (interp : Interpreter) (payload : Payload), (Json.Value.dict payload).WellFormed interp →
      ∃ cursor decoded, encodeCursor interp payload = .ok cursor ∧
        decodeCursor interp cursor = .ok decoded ∧ Json.Same (.dict payload) (.dict decoded)) ∧
    ¬ ∀ (interp : Interpreter) (stamp : Datetime) (id : Uuid) (cursor : String), stamp.Valid →
      stamp.utcoffset.isSome = true → encodeCursor interp (payloadOf stamp id) = .ok cursor →
        positionFrom interp (some cursor) = .ok (some (stamp, id)) := by
  constructor
  · intro all
    let n : Int := ((10 ^ Unicode.maxStrDigits : Nat) : Int)
    have distinct : ["n"].Nodup := by decide
    obtain ⟨cursor, -, encoded, -⟩ :=
      all Interpreter.basic [("n", .int n)] ⟨distinct, trivial, trivial⟩
    have short := (encodeCursor_ok_iff.mp ⟨cursor, encoded⟩).2
    exact short ⟨n, (Int.natAbs_natCast _).ge, .member List.mem_cons_self .here⟩
  · intro all
    obtain ⟨cursor, encoded⟩ := encodeCursor_payloadOf Interpreter.basic barelyZoned 1
    have read := all Interpreter.basic barelyZoned 1 cursor (by decide) rfl encoded
    have decoded := decodeCursor_encodeCursor wellFormed_payloadOf encoded
    rw [sortedBy_payloadOf] at decoded
    have readStamp : fromisoformat Interpreter.basic (.str (String.ofList barelyZoned.isoformat)) =
        .ok (Datetime.ofInstant 0) := by
      decide +kernel
    have readId : uuid Interpreter.basic (.str (ScriptRepos.uuidText 1)) = .ok 1 := by
      rw [uuid, toList_uuidText, Python.Uuid.parse_dashed]
    rw [positionFrom, positionOf_decoded decoded, subscript_at, ok_bind, readStamp, ok_bind,
      subscript_id, ok_bind, readId, ok_bind] at read
    revert read
    decide

/-! ## Any other cursor -/

/-- What the `id` beside a timestamp is read as, exceptions included. -/
theorem positionFrom_stamped {cursor text : String} {payload : Payload} {stamp : Datetime}
    (decoded : decodeCursor interp cursor = .ok payload)
    (found : payload.lookup "at" = some (.str text))
    (parsed : interp.fromisoformat text.toList = some stamp) :
    positionFrom interp (some cursor) =
      match payload.lookup "id" with
      | none => .error (.plimsollError malformed)
      | some .null => .error (.plimsollError malformed)
      | some (.str text) =>
          match Python.Uuid.parse interp.ucd text.toList with
          | none => .error (.plimsollError malformed)
          | some id => .ok (some (stamp, id))
      | some _ => .error .attributeError := by
  rw [positionFrom, positionOf_decoded decoded, subscript, found]
  dsimp only
  rw [ok_bind, fromisoformat, parsed]
  dsimp only
  rw [ok_bind, subscript]
  cases payload.lookup "id" with
  | none => rfl
  | some value =>
      cases value with
      | str text =>
          dsimp only
          rw [ok_bind, uuid]
          cases Python.Uuid.parse interp.ucd text.toList with
          | none => rfl
          | some id => rfl
      | _ => rfl

/-- Without a timestamp the cursor is malformed. -/
theorem positionFrom_unstamped {cursor : String} {payload : Payload}
    (decoded : decodeCursor interp cursor = .ok payload)
    (unstamped : ∀ text stamp, payload.lookup "at" = some (.str text) →
      interp.fromisoformat text.toList ≠ some stamp) :
    positionFrom interp (some cursor) = .error (.plimsollError malformed) := by
  rw [positionFrom, positionOf_decoded decoded, subscript]
  cases found : payload.lookup "at" with
  | none => rfl
  | some value =>
      cases value with
      | str text =>
          dsimp only
          rw [ok_bind, fromisoformat]
          cases parsed : interp.fromisoformat text.toList with
          | none => rfl
          | some stamp => exact absurd parsed (unstamped text stamp found)
      | _ => rfl

theorem positionFrom_undecoded {cursor : String} {failure : Json.Failure}
    (undecoded : decodeCursor interp cursor = .error failure) :
    positionFrom interp (some cursor) = .error (caught (raisedOf failure)) := by
  rw [positionFrom, positionOf, undecoded]
  rfl

/-- The next cursor of a page can always be made. -/
theorem nextCursor_ok {ρ : Type} (rows : List ρ) (limit : Nat) (timestamp : ρ → Datetime)
    (id : ρ → Uuid) : ∃ next, nextCursor interp rows limit timestamp id = .ok next := by
  rw [nextCursor]
  split
  · exact ⟨none, rfl⟩
  · rename_i last _
    split
    · obtain ⟨cursor, encoded⟩ := encodeCursor_payloadOf interp (timestamp last) (id last)
      rw [encoded]
      exact ⟨some cursor, rfl⟩
    · exact ⟨none, rfl⟩

theorem presentAll_pure {ρ : Type} (rows : List ρ) :
    presentAll (pure : ρ → Transaction ρ) rows = pure rows := by
  induction rows with
  | nil => rfl
  | cons row rest ih =>
      rw [presentAll, ih]
      rfl

variable {ρ : Type} {listing : Listing ρ} {limit : Nat} {v : Sql.View postgres}

/-- Where the cursor is refused, so is the request. -/
theorem page_refused {cursor : Option String} {exc : Raised}
    (refused : positionFrom interp cursor = .error exc) :
    (listing.page interp driver pure limit cursor).run v = (.error exc, v) := by
  rw [Listing.page, Listing.fetch, refused]
  rfl

/-- A position that the driver does not send. -/
theorem page_unsent {cursor : Option String} {after : Option Position} {exc : Raised}
    (read : positionFrom interp cursor = .ok after) (unsent : parameters driver after = .error exc) :
    (listing.page interp driver pure limit cursor).run v = (.error exc, v) := by
  rw [Listing.page, Listing.fetch, read]
  change ((Sql.Program.finished (parameters driver after) >>= _) >>= _).run v = _
  rw [unsent]
  rfl

/-- A page that is served. -/
theorem page_served {cursor : Option String} {after : Option Position}
    {sent : Option Database.Position} (read : positionFrom interp cursor = .ok after)
    (sends : parameters driver after = .ok sent) :
    ∃ page : Page ρ, (listing.page interp driver pure limit cursor).run v = (.ok page, v) ∧
      page.items = (Sql.page (fun row => Database.position (listing.timestamp row) (listing.id row))
        (limit + 1) sent (listing.rows v)).take limit ∧
      nextCursor interp (Sql.page
          (fun row => Database.position (listing.timestamp row) (listing.id row)) (limit + 1) sent
            (listing.rows v)) limit (fun row => Datetime.ofInstant (listing.timestamp row)) listing.id =
        .ok page.nextCursor := by
  have fetched : (listing.fetch interp driver limit cursor).run v =
      (.ok (Sql.page (fun row => Database.position (listing.timestamp row) (listing.id row))
        (limit + 1) sent (listing.rows v)), v) := by
    rw [Listing.fetch, read]
    change ((Sql.Program.finished (parameters driver after) >>= _) : Transaction _).run v = _
    rw [sends]
    exact listing.answers (limit + 1) sent v
  generalize Sql.page (fun row => Database.position (listing.timestamp row) (listing.id row))
    (limit + 1) sent (listing.rows v) = rows at fetched ⊢
  obtain ⟨next, made⟩ := @nextCursor_ok interp ρ rows limit
    (fun row => Datetime.ofInstant (listing.timestamp row)) listing.id
  refine ⟨{ items := rows.take limit, nextCursor := next }, ?_, rfl, made⟩
  rw [Listing.page, Sql.Program.run_bind_ok fetched, pageOf, made, presentAll_pure]
  rfl

/-- The page is served from a position with an aware timestamp, or the cursor is
refused as malformed. -/
def Answered (interp : Interpreter) (driver : Driver) (listing : Listing ρ) (limit : Nat)
    (v : Sql.View postgres) (cursor : String) : Prop :=
  (∃ stamp id page, positionFrom interp (some cursor) = .ok (some (stamp, id)) ∧
      stamp.utcoffset.isSome = true ∧
        ((listing.page interp driver pure limit (some cursor)).run v).1 = .ok page) ∨
    ((listing.page interp driver pure limit (some cursor)).run v).1 = .error (.plimsollError malformed)

/-- What may stand beside a timestamp: no `id`, a null, or a string; and where that
is an identifier, the timestamp has an instant. -/
def CleanId (interp : Interpreter) (payload : Payload) (stamp : Datetime) : Prop :=
  match payload.lookup "id" with
  | none => True
  | some .null => True
  | some (.str text) =>
      (Python.Uuid.parse interp.ucd text.toList).isSome = true → stamp.instant.isSome = true
  | some _ => False

/-- What a cursor may hold: no document that is nested too deep, and beside a
timestamp nothing but what may stand there. -/
def Clean (interp : Interpreter) (cursor : String) : Prop :=
  match decodeCursor interp cursor with
  | .error failure => failure = .valueError
  | .ok payload =>
      ∀ text stamp, payload.lookup "at" = some (.str text) →
        interp.fromisoformat text.toList = some stamp → CleanId interp payload stamp

theorem answered_of_refused {cursor : String}
    (refused : positionFrom interp (some cursor) = .error (.plimsollError malformed)) :
    Answered interp driver listing limit v cursor :=
  Or.inr (congrArg Prod.fst (page_refused refused))

theorem not_answered_of_raised {cursor : String} {exc : Raised}
    (raised : positionFrom interp (some cursor) = .error exc) (other : exc ≠ .plimsollError malformed) :
    ¬ Answered interp driver listing limit v cursor := by
  rintro (⟨stamp, id, page, read, -⟩ | refused)
  · rw [raised] at read
    cases read
  · rw [page_refused raised] at refused
    exact other (Except.error.inj refused)

theorem utcoffset_of_instant {stamp : Datetime} (placed : stamp.instant.isSome = true) :
    stamp.utcoffset.isSome = true := by
  cases offset : stamp.utcoffset with
  | none =>
      rw [Datetime.instant, offset] at placed
      cases placed
  | some _ => rfl

/-- A position is served exactly when its timestamp has an instant. -/
theorem answered_position_iff {cursor : String} {stamp : Datetime} {id : Uuid}
    (read : positionFrom interp (some cursor) = .ok (some (stamp, id))) :
    Answered interp driver listing limit v cursor ↔ stamp.instant.isSome = true := by
  constructor
  · intro answered
    cases sent : driver.timestamptz stamp with
    | error exc =>
        have unsent : parameters driver (some (stamp, id)) = .error exc := by
          rw [parameters, sent]
          rfl
        rcases answered with ⟨-, -, page, -, -, served⟩ | refused
        · rw [page_unsent read unsent] at served
          cases served
        · rw [page_unsent read unsent, driver.refusal stamp exc sent] at refused
          cases refused
    | ok t =>
        have sends : parameters driver (some (stamp, id)) = .ok (some (Database.position t id)) := by
          rw [parameters, sent]
          rfl
        rcases answered with ⟨stamp', id', page, same, aware, -⟩ | refused
        · rw [read] at same
          cases same
          rw [driver.aware stamp aware] at sent
          cases placed : stamp.instant with
          | none =>
              rw [placed] at sent
              cases sent
          | some _ => rfl
        · obtain ⟨page, served, -⟩ := @page_served interp driver ρ listing limit v _ _ _ read sends
          rw [served] at refused
          cases refused
  · intro placed
    have aware := utcoffset_of_instant placed
    obtain ⟨t, instant⟩ := Option.isSome_iff_exists.mp placed
    have sends : parameters driver (some (stamp, id)) = .ok (some (Database.position t id)) := by
      rw [parameters, driver.aware stamp aware, instant]
      rfl
    obtain ⟨page, served, -⟩ := @page_served interp driver ρ listing limit v _ _ _ read sends
    exact Or.inl ⟨stamp, id, page, read, aware, congrArg Prod.fst served⟩

/-- A cursor with a timestamp is answered as it should exactly when the `id` beside it
is clean. -/
theorem answered_stamped_iff {cursor text : String} {payload : Payload} {stamp : Datetime}
    (decoded : decodeCursor interp cursor = .ok payload)
    (found : payload.lookup "at" = some (.str text))
    (parsed : interp.fromisoformat text.toList = some stamp) :
    Answered interp driver listing limit v cursor ↔ CleanId interp payload stamp := by
  have read := positionFrom_stamped decoded found parsed
  rw [CleanId]
  cases identified : payload.lookup "id" with
  | none =>
      rw [identified] at read
      exact iff_of_true (answered_of_refused read) trivial
  | some value =>
      rw [identified] at read
      cases value with
      | null => exact iff_of_true (answered_of_refused read) trivial
      | str id =>
          dsimp only at read ⊢
          cases valid : Python.Uuid.parse interp.ucd id.toList with
          | none =>
              rw [valid] at read
              exact iff_of_true (answered_of_refused read) fun impossible => nomatch impossible
          | some id =>
              rw [valid] at read
              rw [answered_position_iff read]
              exact ⟨fun placed _ => placed, fun clean => clean rfl⟩
      | _ => exact iff_of_false (not_answered_of_raised read fun same => nomatch same) not_false

end Plimsoll.Pagination
