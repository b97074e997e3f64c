import Plimsoll.Python.Value
import Mathlib.Data.List.Forall2

/-!
Validation as `pydantic` does it, in its lax mode, for the models this code
declares: texts, lists, optional values and nested models. A model's fields are
all checked, and what is wrong with them is reported together.
-/

namespace Pydantic

open Python

/-- An entry of `ValidationError.errors()`: where it is, and its message. -/
structure Issue where
  loc : List String
  msg : String
deriving DecidableEq, Repr

/-- A value that passed, or all that is wrong with it. -/
abbrev Validated (α : Type) := Except (List Issue) α

variable {α β : Type}

/-- One thing is wrong, here. -/
def failure (msg : String) : Validated α := .error [{ loc := [], msg }]

/-- What is wrong with a part of a value, seen from the value. -/
def under (part : String) (result : Validated α) : Validated α :=
  result.mapError fun issues => issues.map fun issue => { issue with loc := part :: issue.loc }

/-- Both parts pass, or what is wrong with either is reported. -/
def both : Validated α → Validated β → Validated (α × β)
  | .ok a, .ok b => .ok (a, b)
  | .ok _, .error issues => .error issues
  | .error issues, .ok _ => .error issues
  | .error issues, .error others => .error (issues ++ others)

/-- All parts pass, or what is wrong with any is reported. -/
def all : List (Validated α) → Validated (List α)
  | [] => .ok []
  | first :: rest => (both first (all rest)).map fun parts => parts.1 :: parts.2

/-! ## Types -/

/-- `str` with `Field(min_length=minLength)`. Bytes pass as the text they
encode. -/
def str (decode : List UInt8 → Option String) (minLength : Nat) (value : Value) :
    Validated { s : String // minLength ≤ s.length } :=
  let text : Validated String :=
    match value with
    | .str s => .ok s
    | .bytes data =>
        match decode data with
        | some s => .ok s
        | none =>
            failure "Input should be a valid string, unable to parse raw data as a unicode string"
    | _ => failure "Input should be a valid string"
  text.bind fun s =>
    if long : minLength ≤ s.length then .ok ⟨s, long⟩
    else
      failure ("String should have at least " ++ toString minLength ++
        (if minLength = 1 then " character" else " characters"))

/-- `t | None`. -/
def nullable (t : Value → Validated α) : Value → Validated (Option α)
  | .none => .ok none
  | value => (t value).map some

/-- `list[t]`. Tuples and sets pass as the lists of their members. -/
def listOf (t : Value → Validated α) (value : Value) : Validated (List α) :=
  let members (items : List Value) : Validated (List α) :=
    all (items.zipIdx.map fun item => under (toString item.2) (t item.1))
  match value with
  | .list items => members items
  | .tuple items => members items
  | .set items => members items
  | _ => failure "Input should be a valid list"

/-- A nested model, of the fields of a mapping. -/
def model (name : String) (fields : List (Value × Value) → Validated α) :
    Value → Validated α
  | .dict items => fields items
  | _ => failure ("Input should be a valid dictionary or instance of " ++ name)

/-! ## Fields -/

/-- A field without a default. -/
def required (items : List (Value × Value)) (name : String) (t : Value → Validated α) :
    Validated α :=
  under name (match Value.get? name items with
    | none => failure "Field required"
    | some value => t value)

/-- A field with a default, which is not itself validated. -/
def optional (items : List (Value × Value)) (name : String) (fallback : α)
    (t : Value → Validated α) : Validated α :=
  under name (match Value.get? name items with
    | none => .ok fallback
    | some value => t value)

/-! ## What passes -/

theorem map_ok {f : α → β} {result : Validated α} {b : β} :
    result.map f = .ok b ↔ ∃ a, result = .ok a ∧ f a = b := by
  cases result with
  | error issues => simp [Except.map]
  | ok a => simp [Except.map]

theorem under_ok {part : String} {result : Validated α} {a : α} :
    under part result = .ok a ↔ result = .ok a := by
  cases result with
  | error issues => simp [under, Except.mapError]
  | ok a => simp [under, Except.mapError]

theorem both_ok {first : Validated α} {second : Validated β} {a : α} {b : β} :
    both first second = .ok (a, b) ↔ first = .ok a ∧ second = .ok b := by
  cases first with
  | error issues => cases second <;> simp [both]
  | ok a => cases second <;> simp [both]

theorem all_ok {results : List (Validated α)} :
    ∀ {parts : List α}, all results = .ok parts →
      List.Forall₂ (fun result part => result = .ok part) results parts := by
  induction results with
  | nil =>
      intro parts passed
      cases passed
      exact .nil
  | cons first rest ih =>
      intro parts passed
      rw [all] at passed
      obtain ⟨⟨a, others⟩, together, rfl⟩ := map_ok.mp passed
      obtain ⟨head, tail⟩ := both_ok.mp together
      exact .cons head (ih tail)

/-- The text that a value passes as. -/
def asText (decode : List UInt8 → Option String) : Value → Option String
  | .str s => some s
  | .bytes data => decode data
  | _ => none

theorem str_ok {decode : List UInt8 → Option String} {minLength : Nat} {value : Value}
    {s : { s : String // minLength ≤ s.length }} (passed : str decode minLength value = .ok s) :
    asText decode value = some s.val := by
  have long : ∀ text : String, (if long : minLength ≤ text.length then
      (.ok ⟨text, long⟩ : Validated { s : String // minLength ≤ s.length })
      else failure ("String should have at least " ++ toString minLength ++
        (if minLength = 1 then " character" else " characters"))) = .ok s → text = s.val := by
    intro text checked
    split at checked
    · cases checked
      rfl
    · cases checked
  unfold str at passed
  cases value with
  | str text => exact congrArg some (long text passed)
  | bytes data =>
      cases decoded : decode data with
      | none => simp only [decoded] at passed; cases passed
      | some text =>
          simp only [decoded] at passed
          rw [asText, decoded, long text passed]
  | _ => cases passed

section

variable {R : α → β → Prop} {items : List α} {parts : List β}

theorem exists_part (passed : List.Forall₂ R items parts) {item : α} (member : item ∈ items) :
    ∃ part ∈ parts, R item part := by
  induction passed with
  | nil => cases member
  | cons head tail ih =>
      rcases List.mem_cons.mp member with rfl | member
      · exact ⟨_, List.mem_cons_self, head⟩
      · obtain ⟨part, inside, related⟩ := ih member
        exact ⟨part, List.mem_cons_of_mem _ inside, related⟩

theorem exists_item (passed : List.Forall₂ R items parts) {part : β} (member : part ∈ parts) :
    ∃ item ∈ items, R item part :=
  exists_part passed.flip member

end

/-- What a list, a tuple or a set holds. -/
def elements : Value → List Value
  | .list items => items
  | .tuple items => items
  | .set items => items
  | _ => []

/-- A list that passes has one part for each element, in order. -/
theorem listOf_ok {t : Value → Validated α} {value : Value} {parts : List α}
    (passed : listOf t value = .ok parts) :
    List.Forall₂ (fun item part => t item = .ok part) (elements value) parts := by
  have members : ∀ items : List Value,
      all (items.zipIdx.map fun item => under (toString item.2) (t item.1)) = .ok parts →
        List.Forall₂ (fun item part => t item = .ok part) items parts := by
    intro items passed
    have each := List.forall₂_map_left_iff.mp (all_ok passed)
    simp only [under_ok] at each
    rw [← List.zipIdx_map_fst 0 items]
    exact List.forall₂_map_left_iff.mpr each
  cases value with
  | list items => exact members items passed
  | tuple items => exact members items passed
  | set items => exact members items passed
  | _ => cases passed

theorem model_ok {name : String} {fields : List (Value × Value) → Validated α} {value : Value} {a : α}
    (passed : model name fields value = .ok a) :
    ∃ items, value = .dict items ∧ fields items = .ok a := by
  cases value with
  | dict items => exact ⟨items, rfl, passed⟩
  | _ => cases passed

theorem optional_ok {items : List (Value × Value)} {name : String} {fallback : α}
    {t : Value → Validated α} {a : α} (passed : optional items name fallback t = .ok a) :
    (Value.get? name items = none ∧ a = fallback) ∨
      ∃ value, Value.get? name items = some value ∧ t value = .ok a := by
  rw [optional, under_ok] at passed
  cases found : Value.get? name items with
  | none =>
      rw [found] at passed
      cases passed
      exact Or.inl ⟨rfl, rfl⟩
  | some value =>
      rw [found] at passed
      exact Or.inr ⟨value, rfl, passed⟩

end Pydantic
