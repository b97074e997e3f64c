import Plimsoll.Errors
import Mathlib.Data.List.Forall2

/-!
Code that acts on a world and may raise: what was done before an exception
stays done. `Ensures` is the rule of such code: an invariant of the world that
it keeps, and what holds of the value it returns.
-/

namespace Plimsoll

/-- A computation on worlds `W` that returns an `α` or raises. -/
def Action (W α : Type) : Type := W → Except Raised α × W

namespace Action

variable {W α β : Type}

instance : Monad (Action W) where
  pure a w := (.ok a, w)
  bind action next w :=
    match action w with
    | (.ok a, w) => next a w
    | (.error exc, w) => (.error exc, w)

/-- `raise exc`. -/
def raise (exc : Raised) : Action W α := fun w => (.error exc, w)

/-- `try: action finally: cleanup`. -/
def tryFinally (action : Action W α) (cleanup : W → W) : Action W α := fun w =>
  ((action w).1, cleanup (action w).2)

@[simp] theorem pure_apply (a : α) (w : W) : (pure a : Action W α) w = (.ok a, w) := rfl

@[simp] theorem raise_apply (exc : Raised) (w : W) : (raise exc : Action W α) w = (.error exc, w) :=
  rfl

theorem bind_apply (action : Action W α) (next : α → Action W β) (w : W) :
    (action >>= next) w =
      match action w with
      | (.ok a, w) => next a w
      | (.error exc, w) => (.error exc, w) := rfl

/-! ## Rules -/

/-- From a world with `I`, the action leads to one with `I`, and what it returns
satisfies `Q`. -/
def Ensures (I : W → Prop) (action : Action W α) (Q : α → Prop) : Prop :=
  ∀ w, I w → I (action w).2 ∧ ∀ a, (action w).1 = .ok a → Q a

variable {I : W → Prop} {Q : α → Prop} {R : β → Prop}

theorem Ensures.pure {a : α} (holds : Q a) : Ensures I (Pure.pure a) Q :=
  fun _ inv => ⟨inv, fun _ same => Except.ok.inj same ▸ holds⟩

theorem Ensures.raise {exc : Raised} : Ensures I (Action.raise exc : Action W α) Q :=
  fun _ inv => ⟨inv, fun _ impossible => by cases impossible⟩

theorem Ensures.bind {action : Action W α} {next : α → Action W β} (first : Ensures I action Q)
    (second : ∀ a, Q a → Ensures I (next a) R) : Ensures I (action >>= next) R := by
  intro w inv
  obtain ⟨keeps, returns⟩ := first w inv
  rw [bind_apply]
  cases ran : action w with
  | mk result w' =>
      rw [ran] at keeps returns
      cases result with
      | error exc => exact ⟨keeps, fun _ impossible => by cases impossible⟩
      | ok a => exact second a (returns a rfl) w' keeps

theorem Ensures.tryFinally {action : Action W α} {cleanup : W → W} (ensured : Ensures I action Q)
    (keeps : ∀ w, I w → I (cleanup w)) : Ensures I (action.tryFinally cleanup) Q := by
  intro w inv
  obtain ⟨kept, returns⟩ := ensured w inv
  exact ⟨keeps _ kept, returns⟩

/-! ## Loops -/

/-- A loop that runs `body` for each value in turn and keeps the results, up to
the first exception that leaves it. -/
def forEach (body : α → Action W β) : List α → Action W (List β)
  | [] => pure []
  | x :: rest => do
      let y ← body x
      let ys ← forEach body rest
      return y :: ys

/-- A loop ends when its first round does and the rest does in the world the round
left. -/
theorem forEach_cons_ok_iff {body : α → Action W β} {x : α} {rest : List α} {w : W} :
    (∃ ys, (forEach body (x :: rest) w).1 = .ok ys) ↔
      (∃ y, (body x w).1 = .ok y) ∧ ∃ ys, (forEach body rest (body x w).2).1 = .ok ys := by
  rw [forEach, bind_apply]
  cases body x w with
  | mk result w₁ =>
      cases result with
      | error exc => simp
      | ok y =>
          simp only [bind_apply]
          cases forEach body rest w₁ with
          | mk result w₂ =>
              cases result with
              | error exc => simp
              | ok ys => simp

/-- Every result is what the body returned for its value, in some world. -/
theorem forEach_forall₂ {body : α → Action W β} {xs : List α} :
    ∀ {w w' : W} {ys : List β}, forEach body xs w = (.ok ys, w') →
      List.Forall₂ (fun x y => ∃ w w', body x w = (.ok y, w')) xs ys := by
  induction xs with
  | nil =>
      intro w w' ys ended
      obtain ⟨rfl, -⟩ : [] = ys ∧ w = w' := by simpa [forEach] using ended
      exact .nil
  | cons x rest ih =>
      intro w w' ys ended
      rw [forEach, bind_apply] at ended
      cases first : body x w with
      | mk result w₁ =>
          cases result with
          | error exc => simp [first] at ended
          | ok y =>
              simp only [first, bind_apply] at ended
              cases later : forEach body rest w₁ with
              | mk result w₂ =>
                  cases result with
                  | error exc => simp [later] at ended
                  | ok others =>
                      obtain ⟨rfl, -⟩ : y :: others = ys ∧ w₂ = w' := by
                        simpa [later] using ended
                      exact .cons ⟨w, w₁, first⟩ (ih later)

/-- A loop whose rounds keep a log beside the world. It returns what the loop
without the log returns, and logs what its rounds log, one after the other. -/
theorem forEach_logged {ε : Type} {body : α → Action W β} {logged : α → Action (W × List ε) β}
    {Logs : α → β → List ε → Prop}
    (round : ∀ x w y w' log, body x w = (.ok y, w') →
      ∃ more, logged x (w, log) = (.ok y, w', log ++ more) ∧ Logs x y more) {xs : List α} :
    ∀ {w w' : W} {ys : List β} (log : List ε), forEach body xs w = (.ok ys, w') →
      ∃ more : List (List ε), forEach logged xs (w, log) = (.ok ys, w', log ++ more.flatten) ∧
        List.Forall₂ (fun pair events => Logs pair.1 pair.2 events) (xs.zip ys) more := by
  induction xs with
  | nil =>
      intro w w' ys log ended
      obtain ⟨rfl, rfl⟩ : [] = ys ∧ w = w' := by simpa [forEach] using ended
      exact ⟨[], by simp [forEach], .nil⟩
  | cons x rest ih =>
      intro w w' ys log ended
      rw [forEach, bind_apply] at ended
      cases first : body x w with
      | mk result w₁ =>
          cases result with
          | error exc => simp [first] at ended
          | ok y =>
              simp only [first, bind_apply] at ended
              cases later : forEach body rest w₁ with
              | mk result w₂ =>
                  cases result with
                  | error exc => simp [later] at ended
                  | ok others =>
                      obtain ⟨rfl, rfl⟩ : y :: others = ys ∧ w₂ = w' := by
                        simpa [later] using ended
                      obtain ⟨events, ran, logs⟩ := round x w y w₁ log first
                      obtain ⟨more, ranOn, logsOn⟩ := ih (log ++ events) later
                      refine ⟨events :: more, ?_, .cons logs logsOn⟩
                      simp only [forEach, bind_apply, ran, ranOn, pure_apply, List.flatten_cons,
                        List.append_assoc]

/-- A body that always returns and leaves the world alone makes a loop that does
the same. -/
theorem forEach_eq_map {body : α → Action W β} {result : α → β}
    (returns : ∀ x w, body x w = (.ok (result x), w)) (xs : List α) (w : W) :
    forEach body xs w = (.ok (xs.map result), w) := by
  induction xs with
  | nil => rfl
  | cons x rest ih => simp [forEach, bind_apply, returns, ih]

end Action

end Plimsoll
