import Plimsoll.Sql.Evolution
import Plimsoll.Sql.Guarantee
import Plimsoll.Sql.Replies
import Mathlib.Logic.Relation

/-!
Transactions that take effect at once.

The rows of a database are a map from locks, and what a transaction does to them is a
relation of such maps. Where each program, whatever others commit meanwhile, comes to
writes that do to the rows as they are committed by then what its job says, the jobs that
return have taken effect one after the other, in the order of their commits.
-/

namespace Sql

variable {I : Interface} {ε α β : Type}

/-! ## One after the other -/

/-- Jobs, each with its answer, that take effect one after the other. -/
def Serially {J S : Type*} (effect : J → α → S → S → Prop) : List (J × α) → S → S → Prop
  | [], s, s' => s = s'
  | (job, a) :: rest, s, s'' => ∃ s', effect job a s s' ∧ Serially effect rest s' s''

section

variable {J S : Type*} {effect : J → α → S → S → Prop}

theorem Serially.snoc {done : List (J × α)} {job : J} {a : α} {s s' s'' : S}
    (before : Serially effect done s s') (last : effect job a s' s'') :
    Serially effect (done ++ [(job, a)]) s s'' := by
  induction done generalizing s with
  | nil =>
      obtain rfl : s = s' := before
      exact ⟨s'', last, rfl⟩
  | cons first rest ih =>
      obtain ⟨s₁, here, later⟩ := before
      exact ⟨s₁, here, ih later⟩

/-- What every effect keeps holds in the end. -/
theorem Serially.invariant {P : S → Prop} {done : List (J × α)} {s s' : S}
    (serially : Serially effect done s s')
    (keeps : ∀ job a s s', (job, a) ∈ done → effect job a s s' → P s → P s') (first : P s) :
    P s' := by
  induction done generalizing s with
  | nil =>
      obtain rfl : s = s' := serially
      exact first
  | cons head rest ih =>
      obtain ⟨job, a⟩ := head
      obtain ⟨s₁, here, later⟩ := serially
      exact ih later (fun job a s s' member => keeps job a s s' (List.mem_cons_of_mem _ member))
        (keeps job a s s₁ List.mem_cons_self here first)

end

/-! ## Stores -/

namespace Rows

variable (rows : Rows I)

/-- The rows under their locks. -/
abbrev Store := (lock : I.Lock) → rows.Row lock

/-- What happens to the rows. -/
abbrev Transition := rows.Store → rows.Store → Prop

def store (d : I.Database) : rows.Store := fun lock => rows.row lock d

/-- A row is written. -/
def overwrite (s : rows.Store) (write : I.Write) : rows.Store :=
  Function.update s (I.lock write) (rows.written write)

theorem store_apply (write : I.Write) (d : I.Database) :
    rows.store (I.apply write d) = rows.overwrite (rows.store d) write := by
  funext lock
  by_cases same : lock = I.lock write
  · subst same
    exact (rows.row_apply write d).trans (Function.update_self _ _ _).symm
  · rw [overwrite, Function.update_of_ne same]
    exact rows.row_apply_other write lock d same

theorem store_applyAll (writes : List I.Write) (d : I.Database) :
    rows.store (I.applyAll writes d) = writes.foldl rows.overwrite (rows.store d) := by
  induction writes generalizing d with
  | nil => rfl
  | cons write rest ih => rw [I.applyAll_cons, ih, store_apply, List.foldl_cons]

end Rows

/-! ## Isolation -/

/-- What transactions may rely on, beside the rows that they have written. -/
structure Isolation (I : Interface) extends Evolution I, Replies I where
  /-- How the rows evolve together. -/
  evolves : toRows.Store → toRows.Store → Prop
  evolves_refl : ∀ s, evolves s s
  evolves_trans : ∀ s₁ s₂ s₃, evolves s₁ s₂ → evolves s₂ s₃ → evolves s₁ s₃
  /-- What the holder of a lock may rely on. -/
  keeps : I.Lock → toRows.Store → toRows.Store → Prop
  keeps_refl : ∀ lock s, keeps lock s s
  keeps_trans : ∀ lock s₁ s₂ s₃, keeps lock s₁ s₂ → keeps lock s₂ s₃ → keeps lock s₁ s₃
  /-- What the writes of a transaction are like. -/
  proper : List I.Write → Prop
  proper_nil : proper []
  proper_execute : ∀ writes s c d, proper writes → proper (writes ++ (I.execute s c d).2)

namespace Isolation

variable (iso : Isolation I)

/-- What a transaction relies on: its rows stay, with what their locks keep, and the
others become what they may become. -/
def rely : Reliance I where
  same lock d d' := iso.row lock d = iso.row lock d' ∧ iso.keeps lock (iso.store d) (iso.store d')
  same_refl lock _ := ⟨rfl, iso.keeps_refl lock _⟩
  same_trans _ _ _ _ first second :=
    ⟨first.1.trans second.1, iso.keeps_trans _ _ _ _ first.2 second.2⟩
  evolves d d' :=
    iso.Sound d → iso.Sound d' ∧ iso.Onward d d' ∧ iso.evolves (iso.store d) (iso.store d')
  evolves_refl _ sound := ⟨sound, .refl, iso.evolves_refl _⟩
  evolves_trans _ _ _ first second sound := by
    obtain ⟨sound', onward, evolved⟩ := first sound
    obtain ⟨sound'', onward', evolved'⟩ := second sound'
    exact ⟨sound'', onward.trans onward', iso.evolves_trans _ _ _ evolved evolved'⟩

variable {iso} {d d' : I.Database} {writes more : List I.Write}

theorem stable_left (stable : iso.rely.Stable (writes ++ more) d d') :
    iso.rely.Stable writes d d' :=
  ⟨stable.evolves, fun write member => stable.same write (List.mem_append_left _ member)⟩

/-- Where a transaction writes, it finds in the end what it found when it wrote. -/
theorem row_stable (stable : iso.rely.Stable (writes ++ more) d d') {write : I.Write}
    (member : write ∈ more) :
    iso.row (I.lock write) (I.applyAll writes d) = iso.row (I.lock write) (I.applyAll writes d') :=
  iso.row_applyAll_written fun _ =>
    (stable.same write (List.mem_append_right _ member)).1

/-- What a transaction sees has become what it may become. -/
theorem onward_stable (sound : iso.Sound d) (stable : iso.rely.Stable writes d d') :
    iso.Onward (I.applyAll writes d) (I.applyAll writes d') := by
  intro lock
  by_cases own : ∀ write ∈ writes, lock ≠ I.lock write
  · rw [iso.row_applyAll_other own, iso.row_applyAll_other own]
    exact (stable.evolves sound).2.1 lock
  · obtain ⟨write, member, rfl⟩ : ∃ write ∈ writes, lock = I.lock write := by
      simpa only [not_forall, not_not, exists_prop] using own
    rw [iso.row_applyAll_written fun _ => (stable.same write member).1]
    exact iso.refl _ _

/-- A row that has changed is one that was written. -/
theorem locked_of_ne {lock : I.Lock}
    (differs : iso.row lock d ≠ iso.row lock (I.applyAll writes d)) :
    ∃ write ∈ writes, I.lock write = lock := by
  by_contra none_
  refine differs (iso.row_applyAll_other fun write member same => none_ ?_).symm
  exact ⟨write, member, same.symm⟩

/-- What a statement may write, it may write wherever it finds the same rows. -/
theorem onward_execute {s : I.Statement} {c : I.Setting} (sound : iso.Sound d)
    (sound' : iso.Sound d') (found : ∀ write ∈ (I.execute s c d).2,
      iso.row (I.lock write) d = iso.row (I.lock write) d') :
    iso.Sound (I.applyAll (I.execute s c d).2 d') ∧
      iso.Onward d' (I.applyAll (I.execute s c d).2 d') := by
  have each := iso.execute s c d sound
  constructor
  · intro lock
    exact iso.row_applyAll (P := iso.holds) (sound' lock) fun write member => (each write member).1
  · intro lock
    refine iso.row_applyAll (P := fun lock r => iso.follows lock (iso.row lock d') r)
      (iso.refl lock _) fun write member => ?_
    rw [← found write member]
    exact (each write member).2

/-! ### Programs -/

/-- These writes do to whatever is committed with them what `E` says. -/
structure Makes (E : iso.Transition) (d : I.Database) (writes : List I.Write) : Prop where
  sound : iso.Sound d
  proper : iso.proper writes
  onward : ∀ d', iso.rely.Stable writes d d' →
    iso.Sound (I.applyAll writes d') ∧ iso.Onward d' (I.applyAll writes d')
  effect : ∀ d', iso.rely.Stable writes d d' → E (iso.store d') (iso.store (I.applyAll writes d'))

theorem Makes.stable {E : iso.Transition} (makes : iso.Makes E d writes)
    (stable : iso.rely.Stable writes d d') : iso.Makes E d' writes :=
  ⟨(stable.evolves makes.sound).1, makes.proper,
    fun d'' later => makes.onward d'' (stable.trans later),
    fun d'' later => makes.effect d'' (stable.trans later)⟩

theorem Makes.mono {E E' : iso.Transition} (makes : iso.Makes E d writes)
    (weaker : ∀ s s', E s s' → E' s s') : iso.Makes E' d writes :=
  ⟨makes.sound, makes.proper, makes.onward, fun d' stable => weaker _ _ (makes.effect d' stable)⟩

/-- The program, to which all that is replied is usual, goes from writes that do what `E`
says to those that do what `E'` says of what it returns. -/
def Takes (iso : Isolation I) (p : Program I ε α) (c : I.Setting) (E : iso.Transition)
    (E' : α → iso.Transition) : Prop :=
  ∀ d writes, iso.Makes E d writes → (p.replied iso.toReplies).Ensures iso.rely
    (fun a c' d writes => c' = c ∧ iso.Makes (E' a) d writes) c d writes

section

variable {p : Program I ε α} {f : α → Program I ε β} {c : I.Setting} {E : iso.Transition}
  {E' : α → iso.Transition}

theorem Takes.pure {a : α} (known : ∀ s s', E s s' → E' a s s') :
    iso.Takes (pure a : Program I ε α) c E E' :=
  fun _ _ makes _ stable => ⟨rfl, (makes.mono known).stable stable⟩

theorem Takes.raise (exc : ε) : iso.Takes (Program.raise exc : Program I ε α) c E E' :=
  fun _ _ _ => trivial

/-- What is known of the rows, whatever they are, may be used. -/
theorem Takes.given {P : Prop} (holds : ∀ s s', E s s' → P) (takes : P → iso.Takes p c E E') :
    iso.Takes p c E E' :=
  fun d writes makes => takes (holds _ _ (makes.effect d .refl)) d writes makes

/-- More may be known at first. -/
theorem Takes.strengthen {E₀ : iso.Transition} (takes : iso.Takes p c E E')
    (stronger : ∀ s s', E₀ s s' → E s s') : iso.Takes p c E₀ E' :=
  fun d writes makes => takes d writes (makes.mono stronger)

theorem Takes.weaken {E'' : α → iso.Transition} (takes : iso.Takes p c E E')
    (weaker : ∀ a s s', E' a s s' → E'' a s s') : iso.Takes p c E E'' := by
  intro d writes makes
  refine Program.Ensures.weaken (takes d writes makes) ?_
  rintro a c' d writes ⟨same, made⟩
  exact ⟨same, made.mono (weaker a)⟩

theorem Takes.bind {E'' : β → iso.Transition} (first : iso.Takes p c E E')
    (rest : ∀ a, iso.Takes (f a) c (E' a) E'') : iso.Takes (p >>= f) c E E'' := by
  intro d writes makes
  rw [Program.replied_bind]
  refine Program.Ensures.bind (Program.Ensures.weaken (first d writes makes) ?_)
  rintro a c' d writes ⟨rfl, made⟩
  exact rest a d writes made

theorem Takes.mapError {g : ε → ε} (takes : iso.Takes p c E E') :
    iso.Takes (p.mapError g) c E E' := by
  intro d writes makes
  rw [Program.replied_mapError]
  exact Program.Ensures.mapError (takes d writes makes)

theorem Takes.ask {q : I.Question} {next : I.Reply q → Program I ε α}
    (takes : ∀ r, iso.Takes (next (iso.usual q r)) c E E') : iso.Takes (.ask q next) c E E' :=
  fun d writes makes r => takes r d writes makes

/-- A statement: what it makes of the rows by the commit may be told from what it found
when it was executed, as far as that has stayed. -/
theorem Takes.execute {s : I.Statement} {next : I.Answer s → Program I ε α}
    (E₁ : I.Answer s → iso.Transition) (same : I.setting s c = c)
    (step : ∀ d writes, iso.Makes E d writes →
      ∀ d', iso.rely.Stable (writes ++ (I.execute s c (I.applyAll writes d)).2) d d' →
        E₁ (I.execute s c (I.applyAll writes d)).1 (iso.store d')
          (iso.store (I.applyAll (I.execute s c (I.applyAll writes d)).2 (I.applyAll writes d'))))
    (rest : ∀ answer, iso.Takes (next answer) c (E₁ answer) E') :
    iso.Takes (.execute s next) c E E' := by
  intro d writes makes d' stable _
  have made := makes.stable stable
  have after : iso.Makes (E₁ (I.execute s c (I.applyAll writes d')).1) d'
      (writes ++ (I.execute s c (I.applyAll writes d')).2) := by
    refine ⟨made.sound, iso.proper_execute _ _ _ _ made.proper, fun d'' later => ?_,
      fun d'' later => ?_⟩
    · obtain ⟨sound, onward⟩ := made.onward d'' (stable_left later)
      obtain ⟨sound', onward'⟩ := onward_execute (made.onward d' .refl).1 sound fun write member =>
        row_stable later member
      rw [I.applyAll_append]
      exact ⟨sound', onward.trans onward'⟩
    · rw [I.applyAll_append]
      exact step d' writes made d'' later
  rw [same]
  exact rest _ d' _ after

/-- A statement that does the same wherever it finds the same rows to write, and elsewhere
what has become of those that it found. -/
theorem Takes.local {s : I.Statement} {next : I.Answer s → Program I ε α}
    {T : I.Answer s → iso.Transition} (same : I.setting s c = c)
    (step : ∀ s₀ d d', E s₀ (iso.store d) → iso.Sound d → iso.Onward d d' →
      (∀ write ∈ (I.execute s c d).2, iso.row (I.lock write) d = iso.row (I.lock write) d') →
        T (I.execute s c d).1 (iso.store d') (iso.store (I.applyAll (I.execute s c d).2 d')))
    (rest : ∀ answer, iso.Takes (next answer) c (Relation.Comp E (T answer)) E') :
    iso.Takes (.execute s next) c E E' := by
  refine Takes.execute _ same (fun d writes makes d' stable => ?_) rest
  refine ⟨_, makes.effect d' (stable_left stable),
    step _ _ _ (makes.effect d .refl) (makes.onward d .refl).1 ?_ ?_⟩
  · exact onward_stable makes.sound (stable_left stable)
  · exact fun write member => row_stable stable member

/-- A statement that writes nothing. -/
theorem Takes.read {s : I.Statement} {next : I.Answer s → Program I ε α}
    (same : I.setting s c = c) (silent : ∀ d, (I.execute s c d).2 = [])
    (rest : ∀ answer, iso.Takes (next answer) c E E') : iso.Takes (.execute s next) c E E' := by
  refine Takes.execute _ same (fun d writes makes d' stable => ?_) rest
  rw [silent] at stable ⊢
  exact makes.effect d' (stable_left stable)

end

/-! ### Systems -/

open Server

variable {sys : System I ε α} {effect : sys.Job → α → iso.Transition}
  (takes : ∀ job e, iso.Takes (sys.body job) (sys.setting job e) Eq fun a => effect job a)
  (evolves : ∀ job a s s', effect job a s s' → iso.evolves s s')
  (kept : ∀ job a d writes lock, iso.Sound d → iso.proper writes →
    effect job a (iso.store d) (iso.store (I.applyAll writes d)) →
      lock ∉ writes.map I.lock → iso.keeps lock (iso.store d) (iso.store (I.applyAll writes d)))
  (sound : iso.Sound d)

/-- What the transactions of a system promise each other, where every program takes the
effect of its job, which is how the rows evolve, and leaves to the holders of locks what
they rely on. -/
def assurance : Assurance (sys.replied iso.toReplies) where
  toReliance := iso.rely
  initial := d
  made job a d writes := iso.Makes (effect job a) d writes
  evolves_of_made _ made _ :=
    ⟨(made.onward _ .refl).1, (made.onward _ .refl).2, evolves _ _ _ _ (made.effect _ .refl)⟩
  same_of_made evolved made unlocked :=
    ⟨(iso.row_applyAll_other fun write member same =>
        unlocked (List.mem_map.mpr ⟨write, member, same.symm⟩)).symm,
      kept _ _ _ _ _ made.sound made.proper (made.effect _ .refl) unlocked⟩
  ensures job e d' evolved := by
    have makes : iso.Makes Eq d' [] :=
      ⟨(evolved sound).1, iso.proper_nil, fun d'' later =>
        ⟨(later.evolves (evolved sound).1).1, .refl⟩, fun _ _ => rfl⟩
    exact Program.Ensures.weaken (takes job e d' [] makes) fun _ _ _ _ made => made.2

/-- No event of such a system is ruled out. -/
theorem condition_met (s : Server (sys.replied iso.toReplies)) (e : Event _) :
    (assurance takes evolves kept sound).Condition s e := by
  cases e with
  | advance id => exact fun _ _ _ _ _ => trivial
  | _ => trivial

/-- From where the promises are kept, the jobs that return take effect one after the
other. -/
theorem serially_of_chronicle {condition : Server _ → Event _ → Prop}
    {s s' : Server (sys.replied iso.toReplies)} {done : List (Commit _)}
    (inv : (assurance takes evolves kept sound).Invariant s)
    (chronicle : Chronicle condition s done s') :
    (assurance takes evolves kept sound).Invariant s' ∧
      Serially effect (done.map fun c => (c.job, c.answer)) (iso.store s.committed)
        (iso.store s'.committed) := by
  induction chronicle with
  | refl => exact ⟨inv, rfl⟩
  | @step done s₁ s₂ e _ _ stepped ih =>
      obtain ⟨inv, before⟩ := ih
      refine ⟨inv.step (condition_met takes evolves kept sound s₁ e) stepped, ?_⟩
      rcases step_cases stepped with ⟨nothing, same, -⟩ | ⟨id, session, a, rfl, found, shape, rfl⟩
      · rw [nothing, List.append_nil, same]
        exact before
      · rw [commits_of_commit found shape, List.map_append]
        exact before.snoc ((inv.made found shape).effect _ .refl)

include takes evolves kept sound

/-- The jobs that return from one moment of a run to another take effect one after the
other, in the order of their commits. -/
theorem serially_of_later {condition condition' : Server sys → Event sys → Prop}
    {e : I.Environment} {s s' : Server sys} (honest : iso.honest e)
    (run : Run condition { committed := d, environment := e } s) (later : Run condition' s s') :
    ∃ more, s'.returned = s.returned ++ more ∧
      Serially effect more (iso.store s.committed) (iso.store s'.committed) := by
  obtain ⟨run, honest⟩ := run.replied honest
  have inv : (assurance takes evolves kept sound).Invariant (s.replied iso.toReplies) :=
    Assurance.invariant_of_run (fun s e _ => condition_met takes evolves kept sound s e) run
  obtain ⟨done, chronicle⟩ := (later.replied honest).1.chronicle
  let more : List (sys.Job × α) := done.map fun c => (c.job, c.answer)
  have returned : s'.returned = s.returned ++ more := chronicle.returned
  exact ⟨more, returned, (serially_of_chronicle takes evolves kept sound inv chronicle).2⟩

/-- So do those that return in a run from its beginning. -/
theorem serially_of_run {condition : Server sys → Event sys → Prop} {e : I.Environment}
    {s : Server sys} (honest : iso.honest e)
    (run : Run condition { committed := d, environment := e } s) :
    Serially effect s.returned (iso.store d) (iso.store s.committed) := by
  have begun : Run condition { committed := d, environment := e }
      ({ committed := d, environment := e } : Server sys) := .refl
  obtain ⟨more, returned, serially⟩ := serially_of_later takes evolves kept sound honest begun run
  rw [returned]
  exact serially

end Isolation

end Sql
