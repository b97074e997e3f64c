import Plimsoll.Database.Statements

/-!
The rows of one organisation in a table, and what removing and appending rows
makes of them.
-/

namespace Plimsoll.Database

open Python Contracts

variable {κ ρ : Type} [DecidableEq κ] {table table' : Dict κ ρ}

/-- Every row stands under its own key. -/
def Keyed (key : ρ → κ) (table : Dict κ ρ) : Prop :=
  ∀ k row, table.get? k = some row → key row = k

/-- A table without the rows under some keys. -/
def without (table : Dict κ ρ) (keys : List κ) : Dict κ ρ := keys.foldl Dict.pop table

theorem items_without (table : Dict κ ρ) (keys : List κ) :
    (without table keys).items = table.items.filter fun item => item.1 ∉ keys := by
  induction keys generalizing table with
  | nil => simp [without]
  | cons key keys ih =>
      rw [without, List.foldl_cons, ← without, ih, Dict.pop, List.filter_filter]
      refine List.filter_congr fun item _ => ?_
      rw [Bool.eq_iff_iff, Bool.and_eq_true, decide_eq_true_eq, decide_eq_true_eq,
        decide_eq_true_eq, List.mem_cons, not_or]
      exact and_comm

/-- A table with rows appended. -/
def Appended (key : ρ → κ) (rows : List ρ) (table table' : Dict κ ρ) : Prop :=
  table'.items = table.items ++ rows.map fun row => (key row, row)

omit [DecidableEq κ] in
theorem Appended.nil {key : ρ → κ} : Appended key [] table table := by
  rw [Appended, List.map_nil, List.append_nil]

theorem Appended.set {key : ρ → κ} {row : ρ} {rows : List ρ} (free : table.get? (key row) = none)
    (appended : Appended key rows (table.set (key row) row) table') :
    Appended key (row :: rows) table table' := by
  rw [Appended] at appended ⊢
  rw [appended, Dict.items_set_new free, List.append_assoc]
  rfl

theorem Appended.concat {key : ρ → κ} {row : ρ} {rows : List ρ}
    (appended : Appended key rows table table') (free : table'.get? (key row) = none) :
    Appended key (rows ++ [row]) table (table'.set (key row) row) := by
  rw [Appended] at appended ⊢
  rw [Dict.items_set_new free, appended, List.append_assoc, List.map_append]
  rfl

theorem Keyed.without {key : ρ → κ} (keyed : Keyed key table) (keys : List κ) :
    Keyed key (Database.without table keys) := by
  intro k row found
  have member := Dict.get?_eq_some_iff.mp found
  rw [items_without] at member
  exact keyed k row (Dict.get?_eq_some_iff.mpr (List.mem_of_mem_filter member))

theorem Keyed.appended {key : ρ → κ} {rows : List ρ} (keyed : Keyed key table)
    (appended : Appended key rows table table') : Keyed key table' := by
  intro k row found
  have member := Dict.get?_eq_some_iff.mp found
  rw [appended, List.mem_append] at member
  rcases member with old | new
  · exact keyed k row (Dict.get?_eq_some_iff.mpr old)
  · obtain ⟨row', -, same⟩ := List.mem_map.mp new
    cases same
    rfl

variable [Tenant ρ] {org : Uuid}

/-- The rows of an organisation. -/
def rowsOf (org : Uuid) (table : Dict κ ρ) : List ρ :=
  (table.items.map Prod.snd).filter fun row => Tenant.organizationId row = org

omit [DecidableEq κ] in
/-- A transaction sees the rows of the organisation it is bound to. -/
theorem visible_eq {c : Setting} (bound : c.org = some org) : visible c table = rowsOf org table := by
  rw [visible, rowsOf]
  refine List.filter_congr fun row _ => ?_
  rw [decide_eq_decide, Setting.Sees, bound, Option.some.injEq]
  exact eq_comm

theorem byKey_eq {c : Setting} {key : κ} {row : ρ} (bound : c.org = some org)
    (found : table.get? key = some row) (owner : Tenant.organizationId row = org) :
    byKey c table key = some row :=
  byKey_eq_some_iff.mpr ⟨found, by rw [Setting.Sees, bound, owner]⟩

theorem mem_rowsOf {row : ρ} :
    row ∈ rowsOf org table ↔ ∃ key, table.get? key = some row ∧ Tenant.organizationId row = org := by
  rw [rowsOf, List.mem_filter, List.mem_map, decide_eq_true_eq]
  constructor
  · rintro ⟨⟨⟨key, row'⟩, member, rfl⟩, owner⟩
    exact ⟨key, Dict.get?_eq_some_iff.mpr member, owner⟩
  · rintro ⟨key, found, owner⟩
    exact ⟨⟨(key, row), Dict.get?_eq_some_iff.mp found, rfl⟩, owner⟩

/-- Removing all the rows that are like this leaves none of them. -/
theorem rowsOf_without {key : ρ → κ} (keyed : Keyed key table) (like : ρ → Bool) :
    (rowsOf org (without table (((rowsOf org table).filter like).map key))).filter like = [] := by
  rw [List.filter_eq_nil_iff]
  intro row member alike
  obtain ⟨k, found, owner⟩ := mem_rowsOf.mp member
  have inItems := Dict.get?_eq_some_iff.mp found
  rw [items_without, List.mem_filter, decide_eq_true_eq] at inItems
  have before := Dict.get?_eq_some_iff.mpr inItems.1
  refine inItems.2 (List.mem_map.mpr ⟨row, ?_, keyed k row before⟩)
  exact List.mem_filter.mpr ⟨mem_rowsOf.mpr ⟨k, before, owner⟩, alike⟩

omit [DecidableEq κ] in
/-- Rows of an organisation that are appended come last. -/
theorem rowsOf_appended {key : ρ → κ} {rows : List ρ} (appended : Appended key rows table table')
    (owned : ∀ row ∈ rows, Tenant.organizationId row = org) :
    rowsOf org table' = rowsOf org table ++ rows := by
  rw [rowsOf, appended, List.map_append, List.filter_append, List.map_map, ← rowsOf]
  congr 1
  refine (List.filter_eq_self.mpr ?_).trans ?_
  · intro row member
    obtain ⟨row', inRows, rfl⟩ := List.mem_map.mp member
    exact decide_eq_true (owned row' inRows)
  · exact List.map_id _

end Plimsoll.Database
