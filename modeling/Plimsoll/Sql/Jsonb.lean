import Plimsoll.Python.Sorted
import Plimsoll.Python.Value

/-!
A `jsonb` column. What is stored is the document, not its text: an object comes
back with its keys in the column's own order, shorter ones first. Looking a key up
does not depend on it.
-/

namespace Sql

open Python

/-- Keys in the order of a `jsonb` object: by length, then by bytes. -/
def keyLe (a b : Value × Value) : Bool :=
  match a.1, b.1 with
  | .str s, .str t =>
      s.utf8ByteSize < t.utf8ByteSize || (s.utf8ByteSize == t.utf8ByteSize && decide (s ≤ t))
  | _, _ => true

mutual

/-- A document as a `jsonb` column gives it back. -/
def jsonb : Value → Value
  | .list items => .list (jsonbAll items)
  | .dict items => .dict (sortedBy keyLe (jsonbItems items))
  | value => value

def jsonbAll : List Value → List Value
  | [] => []
  | value :: rest => jsonb value :: jsonbAll rest

def jsonbItems : List (Value × Value) → List (Value × Value)
  | [] => []
  | (key, value) :: rest => (key, jsonb value) :: jsonbItems rest

end

theorem jsonbAll_eq (items : List Value) : jsonbAll items = items.map jsonb := by
  induction items with
  | nil => rfl
  | cons value rest ih => rw [jsonbAll, ih, List.map_cons]

theorem jsonbItems_eq (items : List (Value × Value)) :
    jsonbItems items = items.map fun item => (item.1, jsonb item.2) := by
  induction items with
  | nil => rfl
  | cons item rest ih => rw [jsonbItems, ih, List.map_cons]

/-! ## Lookups -/

theorem isText_iff {name : String} {key : Value} : key.isText name = true ↔ key = .str name := by
  cases key with
  | str s => simp [Value.isText]
  | _ => simp [Value.isText]

section

variable {name : String} {items others : List (Value × Value)} {value : Value}

theorem mem_of_get? (found : Value.get? name items = some value) : (.str name, value) ∈ items := by
  obtain ⟨⟨key, same⟩, first, rfl⟩ := Option.map_eq_some_iff.mp found
  have named := List.find?_some first
  rw [← isText_iff.mp named]
  exact List.mem_of_find?_eq_some first

/-- Where each key stands once, a lookup is a membership. -/
theorem get?_eq_some_iff (distinct : (items.map Prod.fst).Nodup) :
    Value.get? name items = some value ↔ (.str name, value) ∈ items := by
  refine ⟨mem_of_get?, fun member => ?_⟩
  induction items with
  | nil => cases member
  | cons item rest ih =>
      rw [List.map_cons, List.nodup_cons] at distinct
      rw [Value.get?, List.find?_cons]
      cases here : item.1.isText name with
      | true =>
          rcases List.mem_cons.mp member with rfl | later
          · rfl
          · refine absurd (List.mem_map_of_mem (f := Prod.fst) later) ?_
            rw [← isText_iff.mp here]
            exact distinct.1
      | false =>
          rcases List.mem_cons.mp member with rfl | later
          · rw [isText_iff.mpr rfl] at here
            cases here
          · exact ih distinct.2 later

/-- A lookup does not depend on the order of the keys. -/
theorem get?_perm (distinct : (items.map Prod.fst).Nodup) (perm : items.Perm others) :
    Value.get? name items = Value.get? name others := by
  refine Option.ext fun value => ?_
  rw [get?_eq_some_iff distinct, get?_eq_some_iff ((perm.map Prod.fst).nodup_iff.mp distinct),
    perm.mem_iff]

/-- A key of a stored object has the value it was stored with. -/
theorem get?_jsonb (distinct : (items.map Prod.fst).Nodup) :
    Value.get? name (sortedBy keyLe (jsonbItems items)) = (Value.get? name items).map jsonb := by
  have sameKeys : (jsonbItems items).map Prod.fst = items.map Prod.fst := by
    rw [jsonbItems_eq, List.map_map]
    rfl
  have stored : (sortedBy keyLe (jsonbItems items)).Perm (jsonbItems items) :=
    List.perm_insertionSort _ _
  rw [← get?_perm (sameKeys ▸ distinct) stored.symm, jsonbItems_eq, Value.get?, Value.get?,
    List.find?_map, Option.map_map, Option.map_map]
  rfl

end

end Sql
