import Mathlib.Logic.Function.Basic

/-!
Programs that run in a database transaction.

A program is a tree: it asks the database to execute a statement, or its
environment for something the database does not know (a clock, a random value),
and goes on with the answer. What a statement does is a list of writes, each the
new version of one row, so that the same program can run alone or in turn with
others.
-/

namespace Sql

/-- A database and the environment of the programs that use it. -/
structure Interface where
  Database : Type
  /-- The new version of a row. -/
  Write : Type
  apply : Write → Database → Database
  /-- What a write locks. -/
  Lock : Type
  lock : Write → Lock
  lockEq : DecidableEq Lock
  /-- What a write locks in common with others: a row it refers to. -/
  share : Write → Option Lock := fun _ => none
  /-- What is local to a transaction. -/
  Setting : Type
  Statement : Type
  Answer : Statement → Type
  /-- The answer to a statement, and its writes. -/
  execute : (s : Statement) → Setting → Database → Answer s × List Write
  /-- The setting behind a statement. -/
  setting : Statement → Setting → Setting
  Environment : Type
  Question : Type
  Reply : Question → Type
  reply : (q : Question) → Environment → Reply q × Environment

attribute [instance] Interface.lockEq

/-- A program that returns an `α` or raises an `ε`. -/
inductive Program (I : Interface) (ε α : Type) where
  | finished (outcome : Except ε α)
  | execute (s : I.Statement) (next : I.Answer s → Program I ε α)
  | ask (q : I.Question) (next : I.Reply q → Program I ε α)

variable {I : Interface} {ε α β : Type}

namespace Program

/-- Sequencing; an exception skips what follows. -/
def bind : Program I ε α → (α → Program I ε β) → Program I ε β
  | .finished (.ok a), f => f a
  | .finished (.error exc), _ => .finished (.error exc)
  | .execute s next, f => .execute s fun answer => (next answer).bind f
  | .ask q next, f => .ask q fun answer => (next answer).bind f

instance : Monad (Program I ε) where
  pure a := .finished (.ok a)
  bind := Program.bind

/-- An exception. -/
def raise (exc : ε) : Program I ε α := .finished (.error exc)

/-- Replace an exception. -/
def mapError (f : ε → ε) : Program I ε α → Program I ε α
  | .finished (.ok a) => .finished (.ok a)
  | .finished (.error exc) => .finished (.error (f exc))
  | .execute s next => .execute s fun answer => (next answer).mapError f
  | .ask q next => .ask q fun answer => (next answer).mapError f

/-- What a program comes to, its exception included. -/
def attempt : Program I ε α → Program I ε (Except ε α)
  | .finished outcome => .finished (.ok outcome)
  | .execute s next => .execute s fun answer => (next answer).attempt
  | .ask q next => .ask q fun answer => (next answer).attempt

@[simp] theorem pure_bind_eq (a : α) (f : α → Program I ε β) : (pure a >>= f) = f a := rfl

@[simp] theorem finished_ok_bind (a : α) (f : α → Program I ε β) :
    (Program.finished (.ok a) >>= f) = f a := rfl

@[simp] theorem raise_bind (exc : ε) (f : α → Program I ε β) :
    ((raise exc : Program I ε α) >>= f) = raise exc := rfl

@[simp] theorem execute_bind (s : I.Statement) (next : I.Answer s → Program I ε α)
    (f : α → Program I ε β) :
    (Program.execute s next >>= f) = .execute s fun answer => next answer >>= f := rfl

@[simp] theorem ask_bind (q : I.Question) (next : I.Reply q → Program I ε α)
    (f : α → Program I ε β) :
    (Program.ask q next >>= f) = .ask q fun answer => next answer >>= f := rfl

theorem bind_assoc {γ : Type} (p : Program I ε α) (f : α → Program I ε β) (g : β → Program I ε γ) :
    ((p >>= f) >>= g) = p >>= fun a => f a >>= g := by
  induction p with
  | finished outcome =>
      cases outcome with
      | ok a => rfl
      | error exc => rfl
  | execute s next ih => exact congrArg (Program.execute s) (funext ih)
  | ask q next ih => exact congrArg (Program.ask q) (funext ih)

@[simp] theorem mapError_execute (f : ε → ε) (s : I.Statement)
    (next : I.Answer s → Program I ε α) :
    (Program.execute s next).mapError f = .execute s fun answer => (next answer).mapError f := rfl

@[simp] theorem mapError_ask (f : ε → ε) (q : I.Question) (next : I.Reply q → Program I ε α) :
    (Program.ask q next).mapError f = .ask q fun answer => (next answer).mapError f := rfl

@[simp] theorem mapError_raise (f : ε → ε) (exc : ε) :
    (raise exc : Program I ε α).mapError f = raise (f exc) := rfl

@[simp] theorem mapError_pure (f : ε → ε) (a : α) :
    (pure a : Program I ε α).mapError f = pure a := rfl

end Program

/-! ## A program alone -/

/-- Several writes, in order. -/
def Interface.applyAll (I : Interface) (writes : List I.Write) (d : I.Database) : I.Database :=
  writes.foldl (fun d write => I.apply write d) d

@[simp] theorem Interface.applyAll_nil (d : I.Database) : I.applyAll [] d = d := rfl

@[simp] theorem Interface.applyAll_cons (write : I.Write) (writes : List I.Write)
    (d : I.Database) : I.applyAll (write :: writes) d = I.applyAll writes (I.apply write d) := rfl

theorem Interface.applyAll_append (before after : List I.Write) (d : I.Database) :
    I.applyAll (before ++ after) d = I.applyAll after (I.applyAll before d) :=
  List.foldl_append

/-- What a program acts on while it runs. -/
structure View (I : Interface) where
  setting : I.Setting
  database : I.Database
  environment : I.Environment

/-- A program that nothing runs beside. -/
def Program.run : Program I ε α → View I → Except ε α × View I
  | .finished outcome, v => (outcome, v)
  | .execute s next, v =>
      (next (I.execute s v.setting v.database).1).run
        { v with
          setting := I.setting s v.setting
          database := I.applyAll (I.execute s v.setting v.database).2 v.database }
  | .ask q next, v =>
      (next (I.reply q v.environment).1).run
        { v with environment := (I.reply q v.environment).2 }

namespace Program

@[simp] theorem run_finished (outcome : Except ε α) (v : View I) :
    (Program.finished outcome).run v = (outcome, v) := rfl

@[simp] theorem run_pure (a : α) (v : View I) :
    (pure a : Program I ε α).run v = (.ok a, v) := rfl

@[simp] theorem run_raise (exc : ε) (v : View I) :
    (raise exc : Program I ε α).run v = (.error exc, v) := rfl

theorem run_execute (s : I.Statement) (next : I.Answer s → Program I ε α) (v : View I) :
    (Program.execute s next).run v =
      (next (I.execute s v.setting v.database).1).run
        { v with
          setting := I.setting s v.setting
          database := I.applyAll (I.execute s v.setting v.database).2 v.database } := rfl

/-- Programs run one after the other. -/
theorem run_bind (p : Program I ε α) (f : α → Program I ε β) (v : View I) :
    (p >>= f).run v =
      match p.run v with
      | (.ok a, v) => (f a).run v
      | (.error exc, v) => (.error exc, v) := by
  induction p generalizing v with
  | finished outcome =>
      cases outcome with
      | ok a => rfl
      | error exc => rfl
  | execute s next ih => exact ih _ _
  | ask q next ih => exact ih _ _

/-- What follows a program that returns. -/
theorem run_bind_ok {p : Program I ε α} {f : α → Program I ε β} {v v₁ : View I} {a : α}
    (first : p.run v = (.ok a, v₁)) : (p >>= f).run v = (f a).run v₁ := by
  rw [run_bind, first]

/-- Nothing follows a program that raises. -/
theorem run_bind_error {p : Program I ε α} {f : α → Program I ε β} {v v₁ : View I} {exc : ε}
    (first : p.run v = (.error exc, v₁)) : (p >>= f).run v = (.error exc, v₁) := by
  rw [run_bind, first]

/-- A sequence that returns has gone through both its parts. -/
theorem bind_ok {p : Program I ε α} {f : α → Program I ε β} {v v' : View I} {b : β}
    (ran : (p >>= f).run v = (.ok b, v')) :
    ∃ a v₁, p.run v = (.ok a, v₁) ∧ (f a).run v₁ = (.ok b, v') := by
  rw [run_bind] at ran
  cases first : p.run v with
  | mk outcome v₁ =>
      cases outcome with
      | error exc => simp [first] at ran
      | ok a => exact ⟨a, v₁, rfl, by simpa [first] using ran⟩

theorem run_mapError (p : Program I ε α) (f : ε → ε) (v : View I) :
    (p.mapError f).run v = ((p.run v).1.mapError f, (p.run v).2) := by
  induction p generalizing v with
  | finished outcome =>
      cases outcome with
      | ok a => rfl
      | error exc => rfl
  | execute s next ih => exact ih _ _
  | ask q next ih => exact ih _ _

/-- Replacing exceptions does not touch what is returned. -/
theorem mapError_ok {p : Program I ε α} {f : ε → ε} {v v' : View I} {a : α}
    (ran : (p.mapError f).run v = (.ok a, v')) : p.run v = (.ok a, v') := by
  rw [run_mapError] at ran
  cases first : p.run v with
  | mk outcome v₁ =>
      cases outcome with
      | error exc =>
          rw [first] at ran
          cases ran
      | ok b =>
          rw [first] at ran
          exact ran

/-- What every statement and every question keeps, a program keeps. -/
theorem run_keeps {P : View I → Prop}
    (execute : ∀ s v, P v → P { v with
      setting := I.setting s v.setting
      database := I.applyAll (I.execute s v.setting v.database).2 v.database })
    (ask : ∀ q v, P v → P { v with environment := (I.reply q v.environment).2 })
    (p : Program I ε α) {v : View I} (holds : P v) : P (p.run v).2 := by
  induction p generalizing v with
  | finished outcome => exact holds
  | execute s next ih => exact ih _ (execute s v holds)
  | ask q next ih => exact ih _ (ask q v holds)

end Program

/-! ## Transactions -/

/-- A program in a transaction of its own: what it wrote stays if it returns,
and is undone if it raises. -/
def transaction (p : Program I ε α) (setting : I.Setting) (d : I.Database) (e : I.Environment) :
    Except ε α × I.Database × I.Environment :=
  match p.run ⟨setting, d, e⟩ with
  | (.ok a, v) => (.ok a, v.database, v.environment)
  | (.error exc, v) => (.error exc, d, v.environment)

theorem transaction_ok {p : Program I ε α} {setting : I.Setting} {d : I.Database}
    {e : I.Environment} {a : α} {v : View I} (ran : p.run ⟨setting, d, e⟩ = (.ok a, v)) :
    transaction p setting d e = (.ok a, v.database, v.environment) := by
  rw [transaction, ran]

/-- An exception undoes every write. -/
theorem transaction_error {p : Program I ε α} {setting : I.Setting} {d : I.Database}
    {e : I.Environment} {exc : ε} {v : View I} (ran : p.run ⟨setting, d, e⟩ = (.error exc, v)) :
    transaction p setting d e = (.error exc, d, v.environment) := by
  rw [transaction, ran]

end Sql
