import Plimsoll.Database.Statements
import Plimsoll.ScriptRepos
import Plimsoll.Sql.Serial

/-!
Statements of a transaction that writes under a lock, before it has taken it and
after.
-/

namespace Plimsoll.Transaction

open Database (Fault Setting Statement Write)

variable {α : Type} {rely : Sql.Rely postgres} {raises : Raised → Prop} {c : Setting}
  {base d : Database}

/-- A statement that writes nothing, before the lock is taken. -/
theorem reads_statement {s : Statement} {post : s.Answer → Setting → Sql.Phase postgres → Prop}
    (silent : ∀ d, (Database.execute s c d).2 = [])
    (after : ∀ d₁ d₂, rely.evolves d d₁ → rely.evolves d₁ d₂ →
      post (Database.execute s c d₁).1 (Database.rebind s c) (.reading d₂)) :
    (Sql.Program.execute s pure : Transaction s.Answer).Keeps rely raises post c (.reading d) :=
  Sql.Program.Keeps.read (fun d₁ _ => silent d₁) fun d₁ evolves₁ d₂ evolves₂ =>
    after d₁ d₂ evolves₁ evolves₂

/-- A statement that cannot fail. -/
theorem keeps_statement {s : Statement} {post : s.Answer → Setting → Sql.Phase postgres → Prop}
    {answer : s.Answer} {writes : List Write} (executed : Database.execute s c d = (answer, writes))
    (after : post answer (Database.rebind s c) (.owning base (postgres.applyAll writes d))) :
    (Sql.Program.execute s pure : Transaction s.Answer).Keeps rely raises post c
      (.owning base d) :=
  Sql.Program.Keeps.go executed after

/-- A statement that may fail and does not. -/
theorem keeps_checked {s : Statement} {post : α → Setting → Sql.Phase postgres → Prop}
    {result : s.Answer → Except Fault α} {answer : s.Answer} {a : α} {writes : List Write}
    (executed : Database.execute s c d = (answer, writes)) (ok : result answer = .ok a)
    (after : post a (Database.rebind s c) (.owning base (postgres.applyAll writes d))) :
    (Sql.Program.execute s fun x => checked (result x) : Transaction α).Keeps rely raises post c
      (.owning base d) := by
  refine Sql.Program.Keeps.go executed ?_
  rw [ok]
  exact after

/-- An audit row under a new identifier. -/
theorem keeps_record {post : Unit → Setting → Sql.Phase postgres → Prop}
    {principal : AccessClaims} {action entityType : String} {entityId : Contracts.Uuid}
    {metadata : Option (List (String × Detail))}
    (bound : c.org = some principal.organizationId)
    (isNew : ∀ id, rely.replies d Question.uuid4 id → d.auditLogs.get? id = none)
    (after : ∀ id, d.auditLogs.get? id = none → post () c (.owning base { d with
      auditLogs := d.auditLogs.set id {
        id, action, entityType, entityId, metadata
        organizationId := principal.organizationId
        userId := principal.userId } })) :
    (ScriptRepos.record principal action entityType entityId metadata).Keeps rely raises post c
      (.owning base d) := by
  refine Sql.Program.Keeps.bind ?_
  intro id drawn
  have free := isNew id drawn
  change (insertAudit _).Keeps rely raises post c _
  exact keeps_checked (by exact Database.insert_free bound free rfl) rfl (after id free)

end Plimsoll.Transaction
