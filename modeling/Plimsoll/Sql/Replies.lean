import Plimsoll.Sql.ReadCommitted

/-!
Environments that keep to what is documented of them.

What may be replied to a question is said by a function that leaves such replies alone. A
run in an environment that keeps to it is a run of programs whose every reply has gone
through that function, so that the programs may be judged under it.
-/

namespace Sql

variable {I : Interface} {ε α β : Type}

/-- What an environment replies, as far as it is known. -/
structure Replies (I : Interface) where
  /-- What may be replied stays as it is, and anything else becomes something that may be. -/
  usual : (q : I.Question) → I.Reply q → I.Reply q
  honest : I.Environment → Prop
  honest_reply : ∀ q e, honest e →
    usual q (I.reply q e).1 = (I.reply q e).1 ∧ honest (I.reply q e).2

variable (replies : Replies I)

/-! ## Programs -/

/-- The program, where all that is replied is usual. -/
def Program.replied : Program I ε α → Program I ε α
  | .finished outcome => .finished outcome
  | .execute s next => .execute s fun answer => (next answer).replied
  | .ask q next => .ask q fun r => (next (replies.usual q r)).replied

namespace Program

theorem replied_bind (p : Program I ε α) (f : α → Program I ε β) :
    (p >>= f).replied replies = p.replied replies >>= fun a => (f a).replied replies := by
  induction p with
  | finished outcome =>
      cases outcome with
      | ok a => rfl
      | error exc => rfl
  | execute s next ih => exact congrArg (Program.execute s) (funext ih)
  | ask q next ih => exact congrArg (Program.ask q) (funext fun r => ih (replies.usual q r))

theorem replied_mapError (p : Program I ε α) (f : ε → ε) :
    (p.mapError f).replied replies = (p.replied replies).mapError f := by
  induction p with
  | finished outcome =>
      cases outcome with
      | ok a => rfl
      | error exc => rfl
  | execute s next ih => exact congrArg (Program.execute s) (funext ih)
  | ask q next ih => exact congrArg (Program.ask q) (funext fun r => ih (replies.usual q r))

end Program

/-! ## Systems -/

/-- The transactions, where all that is replied is usual. -/
def System.replied (sys : System I ε α) : System I ε α where
  Job := sys.Job
  setting := sys.setting
  body job := (sys.body job).replied replies

variable {sys : System I ε α}

def Session.replied (session : Session sys) : Session (sys.replied replies) where
  job := session.job
  setting := session.setting
  pending := session.pending
  program := session.program.replied replies

def Event.replied : Event sys → Event (sys.replied replies)
  | .start id job => .start id job
  | .advance id => .advance id
  | .commit id => .commit id
  | .rollback id => .rollback id

namespace Server

def replied (s : Server sys) : Server (sys.replied replies) where
  committed := s.committed
  environment := s.environment
  sessions id := (s.sessions id).map fun session => session.replied replies
  held := s.held
  shared := s.shared
  started := s.started
  returned := s.returned

variable {replies} {s s' : Server sys}

theorem replied_put (s : Server sys) (id : Nat) (session : Session sys) :
    (s.put id session).replied replies = (s.replied replies).put id (session.replied replies) := by
  refine congrArg (fun sessions => ({ s.replied replies with sessions := sessions })) ?_
  funext other
  by_cases same : other = id
  · subst same
    simp [replied, put]
  · simp [replied, put, same]

theorem replied_close (s : Server sys) (id : Nat) :
    (s.close id).replied replies = (s.replied replies).close id := by
  refine congrArg (fun sessions => ({ (s.replied replies).close id with sessions := sessions })) ?_
  funext other
  by_cases same : other = id
  · subst same
    simp [replied, close]
  · simp [replied, close, same]

theorem replied_sessions {id : Nat} {session : Session sys}
    (found : s.sessions id = some session) :
    (s.replied replies).sessions id = some (session.replied replies) :=
  congrArg (Option.map (Session.replied replies)) found

/-- What is replied by an environment that keeps to its documentation is usual. -/
theorem step_replied {e : Event sys} (honest : replies.honest s.environment)
    (stepped : s.step e = some s') :
    (s.replied replies).step (e.replied replies) = some (s'.replied replies) ∧
      replies.honest s'.environment := by
  cases e with
  | start id job =>
      obtain ⟨free, rfl⟩ := step_start stepped
      have free' : (s.replied replies).sessions id = none := congrArg (Option.map _) free
      refine ⟨?_, honest⟩
      rw [begun, replied_put]
      simp only [Event.replied, step, free']
      rfl
  | advance id =>
      obtain ⟨session, found, ⟨q, next, shape, rfl⟩ | ⟨st, next, shape, free, rfl⟩⟩ :=
        step_advance stepped
      · obtain ⟨usual, honest⟩ := replies.honest_reply q s.environment honest
        have shape' : (session.replied replies).program =
            .ask q fun r => (next (replies.usual q r)).replied replies :=
          congrArg (Program.replied replies) shape
        refine ⟨?_, honest⟩
        rw [asked, replied_put]
        simp only [Event.replied, step, replied_sessions found, shape', asked]
        change some (put _ id { session.replied replies with
          program := (next (replies.usual q (I.reply q s.environment).1)).replied replies }) = _
        rw [usual]
        rfl
      · have shape' : (session.replied replies).program =
            .execute st fun answer => (next answer).replied replies :=
          congrArg (Program.replied replies) shape
        have free' : (s.replied replies).Free id (I.execute st (session.replied replies).setting
            ((s.replied replies).view (session.replied replies))).2 := free
        refine ⟨?_, honest⟩
        rw [executed, replied_put]
        simp only [Event.replied, step, replied_sessions found, shape', if_pos free']
        rfl
  | commit id =>
      obtain ⟨session, a, found, shape, rfl⟩ := step_commit stepped
      have shape' : (session.replied replies).program = .finished (.ok a) :=
        congrArg (Program.replied replies) shape
      refine ⟨?_, honest⟩
      simp only [Event.replied, step, replied_sessions found, shape']
      refine congrArg some ?_
      rw [committing, ← replied_close]
      rfl
  | rollback id =>
      obtain rfl := step_rollback stepped
      cases found : s.sessions id with
      | none =>
          rw [step, found] at stepped
          cases stepped
      | some session =>
          refine ⟨?_, honest⟩
          rw [replied_close]
          simp only [Event.replied, step, replied_sessions found]

/-- A run in such an environment is one of programs to which all that is replied is usual. -/
theorem Run.replied {condition : Server sys → Event sys → Prop} (run : Run condition s s')
    (honest : replies.honest s.environment) :
    Run (fun _ _ => True) (s.replied replies) (s'.replied replies) ∧
      replies.honest s'.environment := by
  induction run with
  | refl => exact ⟨.refl, honest⟩
  | step _ _ stepped ih =>
      obtain ⟨before, honest⟩ := ih
      obtain ⟨here, honest⟩ := step_replied honest stepped
      exact ⟨before.step trivial here, honest⟩

end Server

end Sql
