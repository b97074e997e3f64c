import Mathlib.Data.List.Induction
import Mathlib.Data.List.Nodup

/-!
`dict`: an insertion-ordered mapping. Assigning to a key that is there replaces
its value in place; assigning to a new one appends.
-/

namespace Python

/-- A `dict`: items with distinct keys, in insertion order. -/
structure Dict (κ ν : Type) where
  items : List (κ × ν)
  nodup : (items.map Prod.fst).Nodup

namespace Dict

variable {κ ν : Type} [DecidableEq κ]

/-- `{}`. -/
def empty : Dict κ ν := ⟨[], List.nodup_nil⟩

/-- `d.keys()`. -/
def keys (d : Dict κ ν) : List κ := d.items.map Prod.fst

/-- Look `key` up among items. -/
def find (key : κ) : List (κ × ν) → Option ν
  | [] => none
  | (k, v) :: rest => if k = key then some v else find key rest

/-- `d.get(key)`. -/
def get? (d : Dict κ ν) (key : κ) : Option ν := find key d.items

/-- Assign among items. -/
def assign (key : κ) (value : ν) : List (κ × ν) → List (κ × ν)
  | [] => [(key, value)]
  | (k, v) :: rest => if k = key then (key, value) :: rest else (k, v) :: assign key value rest

/-- Assigning adds no key but `key`, and adds that only when it is new. -/
theorem keys_assign (key : κ) (value : ν) (items : List (κ × ν)) :
    (assign key value items).map Prod.fst =
      if key ∈ items.map Prod.fst then items.map Prod.fst else items.map Prod.fst ++ [key] := by
  induction items with
  | nil => rfl
  | cons item rest ih =>
      obtain ⟨k, v⟩ := item
      rw [assign]
      by_cases same : k = key
      · simp [same]
      · have other : ¬ key = k := fun here => same here.symm
        rw [if_neg same, List.map_cons, ih]
        by_cases later : key ∈ rest.map Prod.fst
        · simp [later, other]
        · simp [later, other]

theorem nodup_assign (key : κ) (value : ν) {items : List (κ × ν)}
    (nodup : (items.map Prod.fst).Nodup) : ((assign key value items).map Prod.fst).Nodup := by
  rw [keys_assign]
  split
  · exact nodup
  · rename_i absent
    rw [List.nodup_append]
    refine ⟨nodup, List.nodup_singleton key, ?_⟩
    intro a inItems b isKey same
    rw [List.mem_singleton] at isKey
    exact absent (isKey ▸ same ▸ inItems)

/-- `d[key] = value`. -/
def set (d : Dict κ ν) (key : κ) (value : ν) : Dict κ ν :=
  ⟨assign key value d.items, nodup_assign key value d.nodup⟩

/-- `d.pop(key, None)`, the mapping that is left. -/
def pop (d : Dict κ ν) (key : κ) : Dict κ ν where
  items := d.items.filter fun item => item.1 ≠ key
  nodup := d.nodup.sublist ((List.filter_sublist).map Prod.fst)

/-- `{key: value for key, value in items}`. -/
def ofList (items : List (κ × ν)) : Dict κ ν :=
  items.foldl (fun d item => d.set item.1 item.2) empty

@[simp] theorem get?_empty (key : κ) : (empty : Dict κ ν).get? key = none := rfl

theorem find_assign (key other : κ) (value : ν) (items : List (κ × ν)) :
    find other (assign key value items) = if key = other then some value else find other items := by
  induction items with
  | nil => rfl
  | cons item rest ih =>
      obtain ⟨k, v⟩ := item
      rw [assign]
      by_cases same : k = key
      · subst same
        rw [if_pos rfl, find, find]
        by_cases here : k = other
        · simp [here]
        · simp [here]
      · rw [if_neg same, find, find, ih]
        by_cases here : k = other
        · have differs : ¬ key = other := fun also => same (here.trans also.symm)
          simp [here, differs]
        · simp [here]

theorem get?_set (d : Dict κ ν) (key other : κ) (value : ν) :
    (d.set key value).get? other = if key = other then some value else d.get? other :=
  find_assign key other value d.items

@[simp] theorem get?_set_self (d : Dict κ ν) (key : κ) (value : ν) :
    (d.set key value).get? key = some value := by
  rw [get?_set, if_pos rfl]

theorem get?_set_ne (d : Dict κ ν) {key other : κ} (value : ν) (ne : key ≠ other) :
    (d.set key value).get? other = d.get? other := by
  rw [get?_set, if_neg ne]

theorem find_filter_ne (key other : κ) (items : List (κ × ν)) :
    find other (items.filter fun item => item.1 ≠ key) =
      if key = other then none else find other items := by
  induction items with
  | nil => simp [find]
  | cons item rest ih =>
      obtain ⟨k, v⟩ := item
      by_cases here : k = key
      · subst here
        rw [List.filter_cons_of_neg (by simp), ih, find]
        by_cases same : k = other
        · simp [same]
        · simp [same]
      · rw [List.filter_cons_of_pos (by simpa using here), find, find, ih]
        by_cases same : k = other
        · subst same
          simp [Ne.symm here]
        · simp [same]

theorem get?_pop (d : Dict κ ν) (key other : κ) :
    (d.pop key).get? other = if key = other then none else d.get? other :=
  find_filter_ne key other d.items

/-- Assigning to a new key appends. -/
theorem items_set_new {d : Dict κ ν} {key : κ} (absent : d.get? key = none) (value : ν) :
    (d.set key value).items = d.items ++ [(key, value)] := by
  obtain ⟨items, nodup⟩ := d
  change find key items = none at absent
  change assign key value items = items ++ [(key, value)]
  clear nodup
  induction items with
  | nil => rfl
  | cons item rest ih =>
      rw [find] at absent
      split at absent
      · cases absent
      · rename_i other
        rw [assign, if_neg other, ih absent, List.cons_append]

/-- Assigning to a key that is there replaces its value in place. -/
theorem items_set_old {d : Dict κ ν} {key : κ} {old : ν} (present : d.get? key = some old)
    (value : ν) :
    (d.set key value).items = d.items.map fun item => if item.1 = key then (key, value) else item := by
  obtain ⟨items, nodup⟩ := d
  change find key items = some old at present
  change assign key value items = _
  induction items with
  | nil => cases present
  | cons item rest ih =>
      obtain ⟨k, v⟩ := item
      rw [List.map_cons, List.nodup_cons] at nodup
      rw [find] at present
      rw [assign, List.map_cons]
      by_cases same : k = key
      · subst same
        have absent : ∀ item ∈ rest, item.1 ≠ k := fun item member here =>
          nodup.1 (List.mem_map.mpr ⟨item, member, here⟩)
        rw [if_pos rfl, if_pos rfl]
        refine congrArg _ ((List.map_congr_left fun item member => ?_).trans (List.map_id rest)).symm
        exact if_neg (absent item member)
      · rw [if_neg same] at present
        rw [if_neg same, if_neg same, ih nodup.2 present]

/-- Of several items with one key the last is kept. -/
theorem get?_ofList_concat (items : List (κ × ν)) (item : κ × ν) (key : κ) :
    (ofList (items ++ [item])).get? key =
      if item.1 = key then some item.2 else (ofList items).get? key := by
  rw [ofList, List.foldl_append, List.foldl_cons, List.foldl_nil, get?_set]
  rfl

/-- What a key is bound to was among the items. -/
theorem mem_of_get?_ofList {items : List (κ × ν)} {key : κ} {value : ν}
    (found : (ofList items).get? key = some value) : (key, value) ∈ items := by
  induction items using List.reverseRecOn with
  | nil => cases found
  | append_singleton items item ih =>
      rw [get?_ofList_concat] at found
      rw [List.mem_append]
      split at found
      · rename_i same
        obtain rfl := Option.some.inj found
        exact Or.inr (by rw [← same]; exact List.mem_singleton_self item)
      · exact Or.inl (ih found)

theorem find_isSome_iff {key : κ} {items : List (κ × ν)} :
    (find key items).isSome = true ↔ key ∈ items.map Prod.fst := by
  induction items with
  | nil => simp [find]
  | cons item rest ih =>
      rw [find]
      by_cases same : item.1 = key
      · simp [same]
      · have other : ¬ key = item.1 := fun here => same here.symm
        simp [same, other, ih]

/-- `key in d`. -/
theorem get?_isSome_iff {d : Dict κ ν} {key : κ} : (d.get? key).isSome = true ↔ key ∈ d.keys :=
  find_isSome_iff

theorem find_eq_some_iff {key : κ} {value : ν} {items : List (κ × ν)}
    (nodup : (items.map Prod.fst).Nodup) :
    find key items = some value ↔ (key, value) ∈ items := by
  induction items with
  | nil => simp [find]
  | cons item rest ih =>
      obtain ⟨k, v⟩ := item
      rw [List.map_cons, List.nodup_cons] at nodup
      rw [find, List.mem_cons, Prod.mk.injEq]
      by_cases same : k = key
      · subst same
        rw [if_pos rfl, Option.some.injEq]
        constructor
        · intro here
          exact Or.inl ⟨rfl, here.symm⟩
        · intro either
          rcases either with ⟨-, here⟩ | later
          · exact here.symm
          · exact absurd (List.mem_map_of_mem later) nodup.1
      · rw [if_neg same, ih nodup.2]
        constructor
        · exact Or.inr
        · intro either
          rcases either with ⟨here, -⟩ | later
          · exact absurd here.symm same
          · exact later

/-- The items are the keys with what they are bound to. -/
theorem get?_eq_some_iff {d : Dict κ ν} {key : κ} {value : ν} :
    d.get? key = some value ↔ (key, value) ∈ d.items :=
  find_eq_some_iff d.nodup

/-- Assigning the value that is there changes nothing. -/
theorem set_get? {d : Dict κ ν} {key : κ} {value : ν} (present : d.get? key = some value) :
    d.set key value = d := by
  have same : (d.set key value).items = d.items := by
    rw [items_set_old present]
    refine (List.map_congr_left fun item member => ?_).trans (List.map_id _)
    split
    · rename_i here
      have found := get?_eq_some_iff.mpr member
      rw [here, present] at found
      exact Prod.ext here.symm (Option.some.inj found)
    · rfl
  obtain ⟨items, nodup⟩ := d
  exact Dict.mk.injEq .. ▸ same

/-- The keys of a mapping made from items. -/
theorem mem_keys_ofList {items : List (κ × ν)} {key : κ} :
    key ∈ (ofList items).keys ↔ key ∈ items.map Prod.fst := by
  induction items using List.reverseRecOn with
  | nil => rfl
  | append_singleton items item ih =>
      rw [ofList, List.foldl_concat, ← ofList, keys, set, keys_assign, ← keys, List.map_append,
        List.mem_append, ← ih]
      split
      · rename_i old
        have known : item.1 ∈ (ofList items).keys := old
        constructor
        · exact Or.inl
        · intro either
          rcases either with early | here
          · exact early
          · obtain rfl : key = item.1 := by simpa using here
            exact known
      · rw [List.mem_append]
        rfl

end Dict

end Python
