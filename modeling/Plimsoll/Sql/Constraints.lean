import Plimsoll.Sql.Evolution

/-!
Constraints beside other transactions.

A unique index and a foreign key are checked by each statement against what it sees,
which is not what is committed in the end. That they hold there all the same is due to
locks: of an entry that a row puts into an index, and of a row that it refers to, held
in common so that nobody deletes that one.
-/

namespace Sql

open Server

variable {I : Interface} {ε α : Type}

/-! ## Unique indexes -/

namespace Rows

variable (rows : Rows I) {K : Type} (key : (lock : I.Lock) → rows.Row lock → Option K)

/-- No two rows have one entry in an index. -/
def Unique (d : I.Database) : Prop :=
  ∀ lock lock' k, key lock (rows.row lock d) = some k → key lock' (rows.row lock' d) = some k →
    lock = lock'

variable {rows key} {d : I.Database} {writes : List I.Write}

/-- An index stays unique where the entries that are written stand against no other. -/
theorem Unique.applyAll (unique : rows.Unique key d)
    (alone : ∀ write ∈ writes, ∀ k, key (I.lock write) (rows.written write) = some k →
      (∀ lock, key lock (rows.row lock d) = some k → lock = I.lock write) ∧
        ∀ write' ∈ writes, key (I.lock write') (rows.written write') = some k →
          I.lock write' = I.lock write) :
    rows.Unique key (I.applyAll writes d) := by
  have source (lock : I.Lock) (k : K)
      (here : key lock (rows.row lock (I.applyAll writes d)) = some k) :
      key lock (rows.row lock d) = some k ∨
        ∃ write ∈ writes, lock = I.lock write ∧
          key (I.lock write) (rows.written write) = some k := by
    revert here
    refine rows.row_applyAll (P := fun lock r => key lock r = some k →
      key lock (rows.row lock d) = some k ∨ ∃ write ∈ writes, lock = I.lock write ∧
        key (I.lock write) (rows.written write) = some k) Or.inl ?_
    exact fun write member here => Or.inr ⟨write, member, rfl, here⟩
  intro lock lock' k here there
  rcases source lock k here with old | ⟨write, member, rfl, new⟩
  · rcases source lock' k there with old' | ⟨write', member', rfl, new'⟩
    · exact unique lock lock' k old old'
    · exact (alone write' member' k new').1 lock old
  · rcases source lock' k there with old' | ⟨write', member', rfl, new'⟩
    · exact ((alone write member k new).1 lock' old').symm
    · exact ((alone write member k new).2 write' member' new').symm

end Rows

/-- Unique indexes over the rows of a database; a row has at most one entry in them. -/
structure Indexes (ev : Evolution I) where
  Key : Type
  key : (lock : I.Lock) → ev.Row lock → Option Key
  entry : Key → I.Lock
  /-- A statement checks what it sees, and locks the entries that it puts there. -/
  execute : ∀ s c d, ev.Sound d → ev.Unique key d →
    ev.Unique key (I.applyAll (I.execute s c d).2 d) ∧
      ∀ write ∈ (I.execute s c d).2, ∀ k, key (I.lock write) (ev.written write) = some k →
        key (I.lock write) (ev.row (I.lock write) d) = some k ∨
          ∃ write' ∈ (I.execute s c d).2, I.lock write' = entry k

namespace Indexes

variable {ev : Evolution I} (idx : Indexes ev) {sys : System I ε α}

/-- The entry of a row. -/
def keyAt (lock : I.Lock) (d : I.Database) : Option idx.Key := idx.key lock (ev.row lock d)

/-- An entry that is new behind these writes is locked by them. -/
def Guarded (d : I.Database) (writes : List I.Write) : Prop :=
  ∀ lock k, idx.keyAt lock (I.applyAll writes d) = some k →
    idx.keyAt lock d = some k ∨ ∃ write ∈ writes, I.lock write = idx.entry k

/-- What every session sees is unique, and what it has made so is locked. -/
structure Invariant (s : Server sys) : Prop extends ev.Invariant s where
  unique : ev.Unique idx.key s.committed
  views : ∀ id session, s.sessions id = some session →
    ev.Unique idx.key (s.view session) ∧ idx.Guarded s.committed session.pending

variable {idx} {s s' : Server sys} {d : I.Database} {writes : List I.Write}

/-- What a statement adds to the writes of its transaction. -/
theorem Guarded.execute (guarded : idx.Guarded d writes) (sound : ev.Sound (I.applyAll writes d))
    (unique : ev.Unique idx.key (I.applyAll writes d)) (st : I.Statement) (c : I.Setting) :
    idx.Guarded d (writes ++ (I.execute st c (I.applyAll writes d)).2) := by
  intro lock k
  rw [I.applyAll_append]
  have locks := (idx.execute st c _ sound unique).2
  refine ev.row_applyAll (P := fun lock r => idx.key lock r = some k → idx.keyAt lock d = some k ∨
    ∃ write ∈ writes ++ (I.execute st c (I.applyAll writes d)).2, I.lock write = idx.entry k) ?_ ?_
  · intro here
    rcases guarded lock k here with before | ⟨write, member, entry⟩
    · exact Or.inl before
    · exact Or.inr ⟨write, List.mem_append_left _ member, entry⟩
  · intro write member here
    rcases locks write member k here with before | ⟨write', member', entry⟩
    · rcases guarded _ k before with old | ⟨write', member', entry⟩
      · exact Or.inl old
      · exact Or.inr ⟨write', List.mem_append_left _ member', entry⟩
    · exact Or.inr ⟨write', List.mem_append_right _ member', entry⟩

/-- What another session sees when one commits is unique: an entry that both had made
would be locked by both. -/
theorem Invariant.views_committed (inv : idx.Invariant s) {id other : Nat}
    {session session' : Session sys} (found : s.sessions id = some session)
    (found' : s.sessions other = some session') (differs : other ≠ id) :
    ev.Unique idx.key (I.applyAll session'.pending (s.view session)) ∧
      idx.Guarded (s.view session) session'.pending := by
  obtain ⟨unique, guarded⟩ := inv.views id session found
  obtain ⟨unique', guarded'⟩ := inv.views other session' found'
  have split := ev.row_committing inv.locked found found' differs
  -- a row that the session has written, and one that it finds
  have across (lock lock' : I.Lock) (k : idx.Key)
      (untouched : ev.row lock (s.view session) = ev.row lock s.committed)
      (unseen : ev.row lock' (s.view session') = ev.row lock' s.committed)
      (here : idx.keyAt lock (s.view session') = some k)
      (there : idx.keyAt lock' (s.view session) = some k) : lock = lock' := by
    rcases guarded' lock k here with before | ⟨write', member', entry'⟩
    · refine unique lock lock' k ?_ there
      rw [untouched]
      exact before
    · rcases guarded lock' k there with before | ⟨write, member, entry⟩
      · refine unique' lock lock' k here ?_
        rw [unseen]
        exact before
      · exact absurd (inv.locked.disjoint found' found member' member (entry'.trans entry.symm))
          differs
  constructor
  · intro lock lock' k here there
    rcases split lock with ⟨same, untouched, -⟩ | ⟨same, unseen⟩
    · rw [same] at here
      rcases split lock' with ⟨same', -, -⟩ | ⟨same', unseen'⟩
      · rw [same'] at there
        exact unique' lock lock' k here there
      · rw [same'] at there
        exact across lock lock' k untouched unseen' here there
    · rw [same] at here
      rcases split lock' with ⟨same', untouched', -⟩ | ⟨same', -⟩
      · rw [same'] at there
        exact (across lock' lock k untouched' unseen there here).symm
      · rw [same'] at there
        exact unique lock lock' k here there
  · intro lock k here
    unfold keyAt at here ⊢
    rcases split lock with ⟨same, untouched, -⟩ | ⟨same, -⟩
    · rw [same] at here
      rw [untouched]
      exact guarded' lock k here
    · rw [same] at here
      exact Or.inl here

theorem Invariant.step (inv : idx.Invariant s) {e : Event sys} (stepped : s.step e = some s') :
    idx.Invariant s' := by
  refine ⟨(inv.toInvariant.step stepped).1, ?_, ?_⟩
  · rcases committed_step stepped with same | ⟨id, session, found, same⟩
    · exact same ▸ inv.unique
    · exact same ▸ (inv.views id session found).1
  · refine sessions_step (P := fun d session =>
      ev.Unique idx.key (I.applyAll session.pending d) ∧ idx.Guarded d session.pending)
      stepped inv.views ?_ ?_ ?_ ?_
    · exact fun _ job _ => ⟨inv.unique, fun _ _ here => Or.inl here⟩
    · exact fun id session q next r found _ => inv.views id session found
    · intro id session st next found _
      obtain ⟨sound, -⟩ := inv.sees id session found
      obtain ⟨unique, guarded⟩ := inv.views id session found
      refine ⟨?_, guarded.execute sound unique st session.setting⟩
      rw [I.applyAll_append]
      exact (idx.execute st session.setting _ sound unique).1
    · exact fun id other session session' found found' differs =>
        inv.views_committed found found' differs

/-- The indexes are unique in every run, in what is committed and in what each session
sees. -/
theorem of_run {condition : Server sys → Event sys → Prop} {e : I.Environment}
    (sound : ev.Sound d) (unique : ev.Unique idx.key d)
    (run : Run condition { committed := d, environment := e } s) : idx.Invariant s := by
  refine run.invariant ⟨Evolution.invariant_of_start sound, unique, ?_⟩ ?_
  · intro id session at_
    cases at_
  · exact fun _ _ _ inv _ stepped => inv.step stepped

end Indexes

/-! ## Locks in common -/

namespace Server

variable {sys : System I ε α} {s s' : Server sys}

/-- What a session refers to is locked by it in common, and by nobody else alone. -/
structure Sharing (s : Server sys) : Prop where
  shares : ∀ id session, s.sessions id = some session → ∀ write ∈ session.pending,
    ∀ lock ∈ I.share write, id ∈ s.shared lock
  apart : ∀ lock id other, s.held lock = some id → other ∈ s.shared lock → other = id

theorem sharing_put {id : Nat} {session : Session sys} (sharing : s.Sharing)
    (own : ∀ write ∈ session.pending, ∀ lock ∈ I.share write, id ∈ s.shared lock) :
    (s.put id session).Sharing := by
  refine ⟨?_, sharing.apart⟩
  intro other found at_ write member
  by_cases same : other = id
  · subst same
    obtain rfl : session = found := by simpa [put] using at_
    exact own write member
  · exact sharing.shares other found (by simpa [put, same] using at_) write member

theorem sharing_close {id : Nat} (sharing : s.Sharing) : (s.close id).Sharing := by
  constructor
  · intro other session at_ write member lock refers
    by_cases same : other = id
    · subst same
      simp [close] at at_
    · have shared := sharing.shares other session (by simpa [close, same] using at_) write member
        lock refers
      simp [close, leave, shared, same]
  · intro lock owner other held shared
    simp only [close, release, leave, List.mem_filter, decide_eq_true_eq] at held shared
    split at held
    · cases held
    · exact sharing.apart lock owner other held shared.1

/-- Locks in common are kept through every step. -/
theorem sharing_step {e : Event sys} (sharing : s.Sharing) (stepped : s.step e = some s') :
    s'.Sharing := by
  cases e with
  | start id job =>
      obtain ⟨-, rfl⟩ := step_start stepped
      exact sharing_put ⟨sharing.shares, sharing.apart⟩ fun write member => by cases member
  | advance id =>
      obtain ⟨session, found, ⟨q, next, -, rfl⟩ | ⟨st, next, -, free, rfl⟩⟩ := step_advance stepped
      · exact sharing_put ⟨sharing.shares, sharing.apart⟩ (sharing.shares id session found)
      · refine sharing_put ⟨?_, ?_⟩ ?_
        · intro other session' at_ write member lock refers
          have shared := sharing.shares other session' at_ write member lock refers
          simp only [join]
          split
          · exact List.mem_cons_of_mem _ shared
          · exact shared
        · intro lock owner other held shared
          simp only [acquire, join] at held shared
          -- whoever shares the lock does so from before, or with this statement
          have shares : other ∈ s.shared lock ∨ other = id ∧
              ∃ write ∈ (I.execute st session.setting (s.view session)).2,
                I.share write = some lock := by
            split at shared
            · rename_i refers
              rcases List.mem_cons.mp shared with rfl | before
              · exact Or.inr ⟨rfl, List.mem_filterMap.mp refers⟩
              · exact Or.inl before
            · exact Or.inl shared
          split at held
          · rename_i writes
            obtain rfl := Option.some.inj held
            obtain ⟨write, member, rfl⟩ := List.mem_map.mp writes
            rcases shares with before | ⟨same, -⟩
            · exact (free write member).2.1 other before
            · exact same
          · rcases shares with before | ⟨rfl, write, member, refers⟩
            · exact sharing.apart lock owner other held before
            · rcases (free write member).2.2 lock refers with unlocked | own
              · rw [held] at unlocked
                cases unlocked
              · rw [held] at own
                exact (Option.some.inj own).symm
        · intro write member lock refers
          simp only [join]
          rcases List.mem_append.mp member with before | here
          · have shared := sharing.shares id session found write before lock refers
            split
            · exact List.mem_cons_of_mem _ shared
            · exact shared
          · rw [if_pos (List.mem_filterMap.mpr ⟨write, here, refers⟩)]
            exact List.mem_cons_self
  | commit id =>
      obtain ⟨session, a, -, -, rfl⟩ := step_commit stepped
      obtain ⟨shares, apart⟩ := @sharing_close _ _ _ _ _ id sharing
      exact ⟨shares, apart⟩
  | rollback id =>
      obtain rfl := step_rollback stepped
      exact sharing_close sharing

end Server

/-! ## Foreign keys -/

namespace Rows

variable (rows : Rows I) (refers : (lock : I.Lock) → rows.Row lock → I.Lock → Prop)
  (there : (lock : I.Lock) → rows.Row lock → Prop)

/-- Every row that is referred to is there. -/
def Closed (d : I.Database) : Prop :=
  ∀ lock target, refers lock (rows.row lock d) target → there target (rows.row target d)

variable {rows refers there} {d : I.Database} {writes : List I.Write}

/-- References stay closed where the rows that are written refer to what is there, and
where those that are deleted are referred to by none. -/
theorem Closed.applyAll (closed : rows.Closed refers there d)
    (refer : ∀ write ∈ writes, ∀ target, refers (I.lock write) (rows.written write) target →
      there target (rows.row target d))
    (kept : ∀ write ∈ writes, there (I.lock write) (rows.written write) ∨
      (∀ lock, ¬ refers lock (rows.row lock d) (I.lock write)) ∧
        ∀ write' ∈ writes, ¬ refers (I.lock write') (rows.written write') (I.lock write)) :
    rows.Closed refers there (I.applyAll writes d) := by
  intro lock target here
  have source : refers lock (rows.row lock d) target ∨
      ∃ write ∈ writes, refers (I.lock write) (rows.written write) target := by
    revert here
    refine rows.row_applyAll (P := fun lock r => refers lock r target →
      refers lock (rows.row lock d) target ∨
        ∃ write ∈ writes, refers (I.lock write) (rows.written write) target) Or.inl ?_
    exact fun write member here => Or.inr ⟨write, member, here⟩
  have before : there target (rows.row target d) := by
    rcases source with old | ⟨write, member, new⟩
    · exact closed lock target old
    · exact refer write member target new
  have wanted : (∃ lock, refers lock (rows.row lock d) target) ∨
      ∃ write ∈ writes, refers (I.lock write) (rows.written write) target :=
    source.imp_left fun old => ⟨lock, old⟩
  clear here source
  revert wanted
  refine rows.row_applyAll (P := fun target r => ((∃ lock, refers lock (rows.row lock d) target) ∨
    ∃ write ∈ writes, refers (I.lock write) (rows.written write) target) → there target r) ?_ ?_
  · exact fun _ => before
  · intro write member wanted
    rcases kept write member with there | ⟨none_, neither⟩
    · exact there
    · rcases wanted with ⟨lock, old⟩ | ⟨write', member', new⟩
      · exact absurd old (none_ lock)
      · exact absurd new (neither write' member')

end Rows

/-- Rows that refer to others. What is permanent is never deleted; to anything else a
row refers under a lock in common. -/
structure ForeignKeys (ev : Evolution I) where
  refers : (lock : I.Lock) → ev.Row lock → I.Lock → Prop
  there : (lock : I.Lock) → ev.Row lock → Prop
  permanent : I.Lock → Prop
  stays : ∀ lock r r', permanent lock → ev.follows lock r r' → there lock r → there lock r'
  /-- A statement checks what it sees, and shares what it refers to. -/
  execute : ∀ s c d, ev.Sound d → ev.Closed refers there d →
    ev.Closed refers there (I.applyAll (I.execute s c d).2 d) ∧
      ∀ write ∈ (I.execute s c d).2, ∀ target, refers (I.lock write) (ev.written write) target →
        refers (I.lock write) (ev.row (I.lock write) d) target ∨ permanent target ∨
          ∃ write' ∈ (I.execute s c d).2, I.share write' = some target

namespace ForeignKeys

variable {ev : Evolution I} (keys : ForeignKeys ev) {sys : System I ε α}

/-- What rows newly refer to behind these writes is permanent, or shared by them. -/
def Guarded (d : I.Database) (writes : List I.Write) : Prop :=
  ∀ lock target, keys.refers lock (ev.row lock (I.applyAll writes d)) target →
    keys.refers lock (ev.row lock d) target ∨ keys.permanent target ∨
      ∃ write ∈ writes, I.share write = some target

/-- What every session sees is closed, and what it has made refer to something is
guarded. -/
structure Invariant (s : Server sys) : Prop extends ev.Invariant s where
  closed : ev.Closed keys.refers keys.there s.committed
  views : ∀ id session, s.sessions id = some session →
    ev.Closed keys.refers keys.there (s.view session) ∧ keys.Guarded s.committed session.pending
  sharing : s.Sharing

variable {keys} {s s' : Server sys} {d : I.Database} {writes : List I.Write}

theorem Guarded.execute (guarded : keys.Guarded d writes) (sound : ev.Sound (I.applyAll writes d))
    (closed : ev.Closed keys.refers keys.there (I.applyAll writes d)) (st : I.Statement)
    (c : I.Setting) :
    keys.Guarded d (writes ++ (I.execute st c (I.applyAll writes d)).2) := by
  intro lock target
  rw [I.applyAll_append]
  have shares := (keys.execute st c _ sound closed).2
  refine ev.row_applyAll (P := fun lock r => keys.refers lock r target →
    keys.refers lock (ev.row lock d) target ∨ keys.permanent target ∨
      ∃ write ∈ writes ++ (I.execute st c (I.applyAll writes d)).2,
        I.share write = some target) ?_ ?_
  · intro here
    rcases guarded lock target here with before | permanent | ⟨write, member, shared⟩
    · exact Or.inl before
    · exact Or.inr (Or.inl permanent)
    · exact Or.inr (Or.inr ⟨write, List.mem_append_left _ member, shared⟩)
  · intro write member here
    rcases shares write member target here with before | permanent | ⟨write', member', shared⟩
    · rcases guarded _ target before with old | permanent | ⟨write', member', shared⟩
      · exact Or.inl old
      · exact Or.inr (Or.inl permanent)
      · exact Or.inr (Or.inr ⟨write', List.mem_append_left _ member', shared⟩)
    · exact Or.inr (Or.inl permanent)
    · exact Or.inr (Or.inr ⟨write', List.mem_append_right _ member', shared⟩)

/-- Where one session has made a row refer to something that another has written, it is
permanent: they cannot hold both locks. -/
theorem Invariant.apart (inv : keys.Invariant s) {id other : Nat} {session session' : Session sys}
    (found : s.sessions id = some session) (found' : s.sessions other = some session')
    (differs : other ≠ id) {target : I.Lock} {write write' : I.Write}
    (member : write ∈ session.pending) (shared : I.share write = some target)
    (member' : write' ∈ session'.pending) (here : target = I.lock write') : False := by
  have held := inv.locked other session' found' write' member'
  rw [← here] at held
  exact differs (inv.sharing.apart target other id held
    (inv.sharing.shares id session found write member target shared)).symm

/-- What another session sees when one commits is closed: what it refers to nobody else
has deleted, and what it has deleted nobody else refers to. -/
theorem Invariant.views_committed (inv : keys.Invariant s) {id other : Nat}
    {session session' : Session sys} (found : s.sessions id = some session)
    (found' : s.sessions other = some session') (differs : other ≠ id) :
    ev.Closed keys.refers keys.there (I.applyAll session'.pending (s.view session)) ∧
      keys.Guarded (s.view session) session'.pending := by
  obtain ⟨closed, guarded⟩ := inv.views id session found
  obtain ⟨closed', guarded'⟩ := inv.views other session' found'
  have onward := (inv.sees id session found).2
  have onward' := (inv.sees other session' found').2
  have split := ev.row_committing inv.locked found found' differs
  constructor
  · intro lock target here
    rcases split lock with ⟨same, untouched, -⟩ | ⟨same, unseen⟩
    · rw [same] at here
      have seen := closed' lock target here
      rcases split target with ⟨same', -, -⟩ | ⟨same', unseen'⟩
      · rw [same']
        exact seen
      · rw [same']
        rw [unseen'] at seen
        rcases guarded' lock target here with before | permanent | ⟨write, member, shared⟩
        · refine closed lock target ?_
          rw [untouched]
          exact before
        · exact keys.stays target _ _ permanent (onward target) seen
        · rcases ev.row_view_cases session target with same'' | ⟨write', member', written⟩
          · rw [same'']
            exact seen
          · exact (inv.apart found' found differs.symm member shared member' written).elim
    · rw [same] at here
      rcases split target with ⟨same', untouched', write', member', written⟩ | ⟨same', -⟩
      · rw [same']
        rcases guarded lock target here with before | permanent | ⟨write, member, shared⟩
        · refine closed' lock target ?_
          rw [unseen]
          exact before
        · have seen := closed lock target here
          rw [untouched'] at seen
          exact keys.stays target _ _ permanent (onward' target) seen
        · exact (inv.apart found found' differs member shared member' written).elim
      · rw [same']
        exact closed lock target here
  · intro lock target here
    rcases split lock with ⟨same, untouched, -⟩ | ⟨same, -⟩
    · rw [same] at here
      rw [untouched]
      exact guarded' lock target here
    · rw [same] at here
      exact Or.inl here

theorem Invariant.step (inv : keys.Invariant s) {e : Event sys} (stepped : s.step e = some s') :
    keys.Invariant s' := by
  refine ⟨(inv.toInvariant.step stepped).1, ?_, ?_, sharing_step inv.sharing stepped⟩
  · rcases committed_step stepped with same | ⟨id, session, found, same⟩
    · exact same ▸ inv.closed
    · exact same ▸ (inv.views id session found).1
  · refine sessions_step (P := fun d session =>
      ev.Closed keys.refers keys.there (I.applyAll session.pending d) ∧
        keys.Guarded d session.pending) stepped inv.views ?_ ?_ ?_ ?_
    · exact fun _ job _ => ⟨inv.closed, fun _ _ here => Or.inl here⟩
    · exact fun id session q next r found _ => inv.views id session found
    · intro id session st next found _
      obtain ⟨sound, -⟩ := inv.sees id session found
      obtain ⟨closed, guarded⟩ := inv.views id session found
      refine ⟨?_, guarded.execute sound closed st session.setting⟩
      rw [I.applyAll_append]
      exact (keys.execute st session.setting _ sound closed).1
    · exact fun id other session session' found found' differs =>
        inv.views_committed found found' differs

/-- References are closed in every run, in what is committed and in what each session
sees. -/
theorem of_run {condition : Server sys → Event sys → Prop} {e : I.Environment}
    (sound : ev.Sound d) (closed : ev.Closed keys.refers keys.there d)
    (run : Run condition { committed := d, environment := e } s) : keys.Invariant s := by
  refine run.invariant ⟨Evolution.invariant_of_start sound, closed, ?_, ?_, ?_⟩ ?_
  · intro id session at_
    cases at_
  · intro id session at_
    cases at_
  · intro lock id other held
    cases held
  · exact fun _ _ _ inv _ stepped => inv.step stepped

end ForeignKeys

end Sql
