import Plimsoll.Git.Arguments

/-!
Which commit a ref resolves to. A remote lists every ref whose name ends in what
it is asked about, by name, with the object it stores; `resolve_ref` takes the
first line.
-/

namespace Plimsoll.Client

open Python

/-! ## Remotes -/

/-- An object id. -/
abbrev ObjectId := { id : String // id.length = 40 ∧ IsHex id }

/-- A ref that a remote advertises: what it stores, and the commit this is or,
for an annotated tag, points to. -/
structure Ref where
  name : String
  stored : ObjectId
  commit : ObjectId
  /-- A name holds neither control characters nor spaces. -/
  printable : ∀ c ∈ name.toList, 0x20 < c.toNat
  /-- A branch stores its tip. -/
  branch : startsWith name "refs/heads/" = true → stored = commit

/-- The refs of a remote. -/
structure Advertisement where
  refs : List Ref
  distinct : (refs.map Ref.name).Nodup

/-- `refs/heads/<name>`. -/
def branchName (name : String) : String := "refs/heads/" ++ name

/-- `refs/tags/<name>`. -/
def tagName (name : String) : String := "refs/tags/" ++ name

/-- The rule `ls-remote` matches names by. -/
def tailMatch (pattern name : String) : Bool := endsWith name ("/" ++ pattern)

/-- The order `ls-remote` lists refs in. -/
def nameLe (a b : Ref) : Prop := a.name ≤ b.name

instance : DecidableRel nameLe := fun a b => inferInstanceAs (Decidable (a.name ≤ b.name))

/-- The refs `ls-remote` lists. -/
def Advertisement.listed (advertisement : Advertisement) (pattern : String) : List Ref :=
  (advertisement.refs.filter fun ref => tailMatch pattern ref.name).insertionSort nameLe

/-- The line `ls-remote` prints for a ref. -/
def line (ref : Ref) : String := ref.stored.val ++ "\t" ++ ref.name ++ "\n"

/-- What `ls-remote` prints. -/
def printed (refs : List Ref) : String := String.join (refs.map line)

/-- The machine reaches a remote with these refs: the workspace opens, and
`ls-remote` is answered. -/
structure Serves {W : Type} (rt : Runtime) (m : Machine W) (access : GitAccess)
    (advertisement : Advertisement) (ref : String) : Prop where
  workspace : ∀ w, ∃ workspace w', m.mkdtemp w = (.ok workspace, w')
  environment : ∀ workspace w, ∃ environment w',
    accessEnvironment rt m workspace access w = (.ok environment, w')
  found : ∀ environment w, advertisement.listed ref ≠ [] → ∃ stdout stderr w',
    m.exec ⟨lsRemote access.url ref, environment, none⟩ w = (.ok (.exited 0 stdout stderr), w') ∧
      rt.decodeReplace stdout = printed (advertisement.listed ref)
  missing : ∀ environment w, advertisement.listed ref = [] → ∃ stdout stderr w',
    m.exec ⟨lsRemote access.url ref, environment, none⟩ w = (.ok (.exited 2 stdout stderr), w')

/-! ## The first line -/

theorem isSpace_of_lowerHexDigit {c : Char} (hex : lowerHexDigit c = true) : isSpace c = false := by
  have range : (48 ≤ c.toNat ∧ c.toNat ≤ 57) ∨ (97 ≤ c.toNat ∧ c.toNat ≤ 102) := by
    simpa [lowerHexDigit, Char.isDigit, Char.le_def, UInt32.le_iff_toNat_le] using hex
  simp only [isSpace, Bool.or_eq_false_iff, Bool.and_eq_false_iff, decide_eq_false_iff_not,
    beq_eq_false_iff_ne]
  omega

/-- The first field of a line that begins with an object id and a tab is the id. -/
theorem firstField_line (id : ObjectId) {name rest : String} (oneLine : '\n' ∉ name.toList) :
    firstField (id.val ++ "\t" ++ name ++ "\n" ++ rest) = id.val := by
  obtain ⟨id, long, hex⟩ := id
  have visible : ∀ c ∈ id.toList, isSpace c = false := fun c member =>
    isSpace_of_lowerHexDigit (hex c member)
  have nonempty : id.toList ≠ [] := by
    intro none
    rw [← String.length_toList, none] at long
    cases long
  have noTab : ∀ c ∈ id.toList, (c != '\t') = true := by
    intro c member
    refine bne_iff_ne.mpr fun same => ?_
    subst same
    exact absurd (visible _ member) (by decide)
  have noNewline : ∀ c ∈ (id ++ "\t" ++ name).toList, (c != '\n') = true := by
    intro c member
    refine bne_iff_ne.mpr fun same => ?_
    subst same
    simp only [String.toList_append, List.mem_append] at member
    rcases member with (inId | isTab) | inName
    · exact absurd (visible _ inId) (by decide)
    · exact absurd isTab (by decide)
    · exact oneLine inName
  have first : (partition (id ++ "\t" ++ name ++ "\n" ++ rest) '\n').1 = id ++ "\t" ++ name := by
    rw [← String.toList_inj, toList_partition_fst, String.toList_append, String.toList_append,
      List.append_assoc, List.takeWhile_append_of_pos noNewline]
    simp
  unfold firstField
  rw [first, ← String.toList_inj, toList_partition_fst, toList_strip, String.toList_append,
    String.toList_append, List.append_assoc, stripChars_append_of_visible nonempty visible,
    List.takeWhile_append_of_pos noTab]
  obtain ⟨cut, shape⟩ := List.rdropWhile_prefix isSpace (l := "\t".toList ++ name.toList)
  cases kept : ("\t".toList ++ name.toList).rdropWhile isSpace with
  | nil => simp
  | cons c more =>
      rw [kept] at shape
      obtain rfl : c = '\t' := (List.cons.inj shape).1
      simp

/-! ## The first ref -/

variable {advertisement : Advertisement} {pattern : String}

theorem mem_listed {ref : Ref} :
    ref ∈ advertisement.listed pattern ↔
      ref ∈ advertisement.refs ∧ tailMatch pattern ref.name = true := by
  rw [Advertisement.listed, List.mem_insertionSort, List.mem_filter]

instance : Std.Total nameLe := ⟨fun a b => le_total a.name b.name⟩

instance : IsTrans Ref nameLe := ⟨fun _ _ _ first second => le_trans (α := String) first second⟩

/-- The first of the refs whose names end in `/pattern`, by name, stores `id`. -/
def Advertisement.FirstStores (advertisement : Advertisement) (pattern : String) (id : ObjectId) :
    Prop :=
  ∃ ref ∈ advertisement.refs, tailMatch pattern ref.name = true ∧
    (∀ other ∈ advertisement.refs, tailMatch pattern other.name = true → ref.name ≤ other.name) ∧
    ref.stored = id

/-- Two refs of one name are one. -/
theorem Advertisement.eq_of_name {a b : Ref} (first : a ∈ advertisement.refs)
    (second : b ∈ advertisement.refs) (same : a.name = b.name) : a = b :=
  List.inj_on_of_nodup_map advertisement.distinct first second same

theorem firstStores_iff_head {id : ObjectId} :
    advertisement.FirstStores pattern id ↔
      ∃ first rest, advertisement.listed pattern = first :: rest ∧ first.stored = id := by
  have ordered : (advertisement.listed pattern).Pairwise nameLe := List.pairwise_insertionSort _ _
  constructor
  · intro ⟨ref, member, matching, least, stores⟩
    have inList := mem_listed.mpr ⟨member, matching⟩
    cases shape : advertisement.listed pattern with
    | nil =>
        rw [shape] at inList
        cases inList
    | cons first rest =>
        refine ⟨first, rest, rfl, ?_⟩
        have firstIn := mem_listed.mp (shape ▸ List.mem_cons_self : first ∈ advertisement.listed pattern)
        have below : first.name ≤ ref.name := by
          rw [shape] at inList ordered
          rcases List.mem_cons.mp inList with isFirst | inRest
          · rw [isFirst]
          · exact List.rel_of_pairwise_cons ordered inRest
        have same := advertisement.eq_of_name firstIn.1 member
          (le_antisymm below (least first firstIn.1 firstIn.2))
        rw [same, stores]
  · intro ⟨first, rest, shape, stores⟩
    have firstIn := mem_listed.mp (shape ▸ List.mem_cons_self : first ∈ advertisement.listed pattern)
    refine ⟨first, firstIn.1, firstIn.2, fun other member matching => ?_, stores⟩
    have inList := mem_listed.mpr ⟨member, matching⟩
    rw [shape] at inList ordered
    rcases List.mem_cons.mp inList with isFirst | inRest
    · rw [isFirst]
    · exact List.rel_of_pairwise_cons ordered inRest

/-! ## Resolving -/

section

variable {rt : Runtime} {W : Type} {m : Machine W} {access : GitAccess} {ref : String} {w : W}

/-- What a workspace that opens hands through. -/
theorem withWorkspace_opens {α : Type} (Q : Except Raised α → Prop)
    (body : Dict String String → PurePath → Action W α)
    (workspace : ∀ w, ∃ workspace w', m.mkdtemp w = (.ok workspace, w'))
    (environment : ∀ workspace w, ∃ environment w',
      accessEnvironment rt m workspace access w = (.ok environment, w'))
    (inside : ∀ environment workspace w, Q (body environment workspace w).1) (w : W) :
    Q (withWorkspace rt m access body w).1 := by
  obtain ⟨directory, w₁, made⟩ := workspace w
  obtain ⟨settings, w₂, prepared⟩ := environment directory w₁
  unfold withWorkspace
  rw [Action.bind_apply, made]
  dsimp only
  rw [Action.tryFinally, Action.bind_apply, prepared]
  exact inside settings directory w₂

theorem resolveRef_commit (isSha : commitSha.isMatch (strip ref) = true) :
    (resolveRef rt m access ref w).1 = .ok { sha := strip ref } := by
  simp [resolveRef, isSha]

/-- The remote's answer is taken when it is not a commit that is asked for. -/
theorem resolveRef_asks {output : Except Raised String}
    (notSha : commitSha.isMatch (strip ref) = false)
    (answer : (withWorkspace rt m access (fun environment _ =>
      runCommand rt m (lsRemote access.url ref) environment none) w).1 = output) :
    (resolveRef rt m access ref w).1 =
      output.bind fun output => (readResolution rt ref output w).1 := by
  simp only [resolveRef, notSha, Bool.false_eq_true, if_false, Action.bind_apply]
  cases ran : withWorkspace rt m access (fun environment _ =>
      runCommand rt m (lsRemote access.url ref) environment none) w with
  | mk result w' =>
      rw [ran] at answer
      subst answer
      cases result with
      | error exc => rfl
      | ok text =>
          dsimp only [Except.bind]
          unfold readResolution
          split
          · rfl
          · rfl

theorem resolveRef_listed (serves : Serves rt m access advertisement ref)
    (notSha : commitSha.isMatch (strip ref) = false) {first : Ref} {rest : List Ref}
    (shape : advertisement.listed ref = first :: rest) :
    (resolveRef rt m access ref w).1 = .ok { sha := first.stored.val } := by
  have oneLine : '\n' ∉ first.name.toList := by
    intro member
    exact absurd (first.printable _ member) (by decide)
  have field : firstField (printed (first :: rest)) = first.stored.val := by
    rw [printed, List.map_cons, String.join_cons, line]
    exact firstField_line first.stored oneLine
  have answer := withWorkspace_opens (fun result => result = .ok (printed (first :: rest)))
    (fun environment _ => runCommand rt m (lsRemote access.url ref) environment none)
    serves.workspace serves.environment
    (by
      intro environment workspace w
      obtain ⟨stdout, stderr, w', ran, decoded⟩ := serves.found environment w (by rw [shape]; simp)
      rw [runCommand, Action.bind_apply, ran]
      simp [decoded, shape]) w
  have long := first.stored.property.1
  rw [resolveRef_asks notSha answer]
  simp [Except.bind, readResolution, field, long]

theorem resolveRef_unlisted (serves : Serves rt m access advertisement ref)
    (notSha : commitSha.isMatch (strip ref) = false) (none : advertisement.listed ref = []) :
    ∃ message, (resolveRef rt m access ref w).1 = .error (.gitError message) := by
  obtain ⟨message, answer⟩ := withWorkspace_opens
    (fun result : Except Raised String => ∃ message, result = .error (.gitError message))
    (fun environment _ => runCommand rt m (lsRemote access.url ref) environment .none)
    serves.workspace serves.environment
    (by
      intro environment workspace w
      obtain ⟨stdout, stderr, w', ran⟩ := serves.missing environment w none
      rw [runCommand, Action.bind_apply, ran]
      exact ⟨_, rfl⟩) w
  rw [resolveRef_asks notSha answer]
  exact ⟨message, rfl⟩

/-! ## Exactly when a ref resolves to what it names -/

/-- What `resolve_ref` answers when it answers with `id`: a commit that is asked
for, or else the object of the first ref. -/
def Answers (advertisement : Advertisement) (ref : String) (id : ObjectId) : Prop :=
  (commitSha.isMatch (strip ref) = true ∧ strip ref = id.val) ∨
    (commitSha.isMatch (strip ref) = false ∧ advertisement.FirstStores ref id)

/-- Nothing is answered. -/
def Unanswered (advertisement : Advertisement) (ref : String) : Prop :=
  commitSha.isMatch (strip ref) = false ∧
    ∀ other ∈ advertisement.refs, tailMatch ref other.name = false

theorem listed_eq_nil_iff :
    advertisement.listed pattern = [] ↔
      ∀ other ∈ advertisement.refs, tailMatch pattern other.name = false := by
  rw [List.eq_nil_iff_forall_not_mem]
  simp only [mem_listed, not_and, Bool.not_eq_true]

theorem resolveRef_ok_iff (serves : Serves rt m access advertisement ref) {id : ObjectId} :
    (resolveRef rt m access ref w).1 = .ok { sha := id.val } ↔ Answers advertisement ref id := by
  cases isSha : commitSha.isMatch (strip ref) with
  | true =>
      rw [resolveRef_commit isSha, Answers, isSha]
      simp
  | false =>
      rw [Answers, isSha, firstStores_iff_head]
      simp only [Bool.false_eq_true, false_and, true_and, false_or]
      cases shape : advertisement.listed ref with
      | nil =>
          obtain ⟨message, raised⟩ := resolveRef_unlisted (w := w) serves isSha shape
          rw [raised]
          simp
      | cons first rest =>
          rw [resolveRef_listed serves isSha shape]
          simp [Subtype.ext_iff]

theorem resolveRef_error_iff (serves : Serves rt m access advertisement ref) :
    (∃ message, (resolveRef rt m access ref w).1 = .error (.gitError message)) ↔
      Unanswered advertisement ref := by
  rw [Unanswered, ← listed_eq_nil_iff]
  cases isSha : commitSha.isMatch (strip ref) with
  | true =>
      rw [resolveRef_commit isSha]
      simp
  | false =>
      cases shape : advertisement.listed ref with
      | nil => simp [resolveRef_unlisted (w := w) serves isSha shape]
      | cons first rest =>
          rw [resolveRef_listed serves isSha shape]
          simp

/-- Whatever holds of the tip of the branch a ref names, or else of the commit
of the tag it names, and otherwise of nothing. -/
def Named (advertisement : Advertisement) (ref : String) (names : ObjectId → Prop)
    (nothing : Prop) : Prop :=
  (∀ branch ∈ advertisement.refs, branch.name = branchName ref → names branch.commit) ∧
    ((∀ branch ∈ advertisement.refs, branch.name ≠ branchName ref) →
      (∀ tag ∈ advertisement.refs, tag.name = tagName ref → names tag.commit) ∧
        ((∀ tag ∈ advertisement.refs, tag.name ≠ tagName ref) → nothing))

/-- `resolve_ref` returns the tip of the branch `ref`, or else the commit of the
tag `ref`, and otherwise raises `GitError`. -/
def ResolvesNamed (rt : Runtime) (m : Machine W) (access : GitAccess)
    (advertisement : Advertisement) (ref : String) (w : W) : Prop :=
  Named advertisement ref
    (fun commit => (resolveRef rt m access ref w).1 = .ok { sha := commit.val })
    (∃ message, (resolveRef rt m access ref w).1 = .error (.gitError message))

/-- A ref resolves to what it names exactly if the first of the refs whose names
end in it stores that very commit, and there is none if it names nothing. -/
theorem resolvesNamed_iff (serves : Serves rt m access advertisement ref) :
    ResolvesNamed rt m access advertisement ref w ↔
      Named advertisement ref (Answers advertisement ref) (Unanswered advertisement ref) := by
  unfold ResolvesNamed
  simp only [resolveRef_ok_iff serves, resolveRef_error_iff serves]

end

/-! ## Two branches -/

/-- The id of forty equal digits. -/
def repeated (digit : Char) (hex : lowerHexDigit digit = true) : ObjectId :=
  ⟨String.ofList (List.replicate 40 digit), by rw [String.length_ofList, List.length_replicate],
    fun c member => by
      rw [String.toList_ofList] at member
      rw [List.eq_of_mem_replicate member]
      exact hex⟩

/-- A branch. -/
def branchAt (name : String) (tip : ObjectId)
    (printable : (branchName name).toList.all (fun c => decide (0x20 < c.toNat)) = true) : Ref where
  name := branchName name
  stored := tip
  commit := tip
  printable c member := of_decide_eq_true (List.all_eq_true.mp printable c member)
  branch _ := rfl

/-- The tip of `main`. -/
def mainTip : ObjectId := repeated '1' (by decide)

/-- The branch `main` and one whose name ends in `/main`. -/
def mainAndFeature : Advertisement where
  refs := [branchAt "feature/main" (repeated '2' (by decide)) (by decide),
    branchAt "main" mainTip (by decide)]
  distinct := by decide

/-- The bytes of an ASCII text. -/
def asciiBytes (text : String) : List UInt8 := text.toList.map fun c => c.toNat.toUInt8

theorem serves_obliging {advertisement : Advertisement} {url ref : String}
    (some : advertisement.listed ref ≠ [])
    (plain : ascii.decodeReplace (asciiBytes (printed (advertisement.listed ref))) =
      printed (advertisement.listed ref)) :
    Serves ascii (obliging (asciiBytes (printed (advertisement.listed ref)))) { url } advertisement
      ref where
  workspace w := ⟨_, w, rfl⟩
  environment _ w := ⟨_, w, rfl⟩
  found _ w _ := ⟨_, _, w, rfl, plain⟩
  missing _ _ none := absurd none some

/-- A remote with both branches. -/
theorem resolvesNamed_iff_main :
    ResolvesNamed ascii (obliging (asciiBytes (printed (mainAndFeature.listed "main"))))
        { url := "https://git.test/load.git" } mainAndFeature "main" () ↔
      Named mainAndFeature "main" (Answers mainAndFeature "main")
        (Unanswered mainAndFeature "main") :=
  resolvesNamed_iff (serves_obliging (by decide +kernel) (by decide +kernel))

/-- With a branch `feature/main` beside it, `main` resolves to the tip of that
branch. -/
theorem main_resolves_to_feature :
    ¬ ∀ (W : Type) (rt : Runtime) (m : Machine W) (access : GitAccess)
        (advertisement : Advertisement) (ref : String) (w : W),
      Serves rt m access advertisement ref → commitSha.isMatch (strip ref) = false →
        ResolvesNamed rt m access advertisement ref w := by
  intro always
  have serves : Serves ascii (obliging (asciiBytes (printed (mainAndFeature.listed "main"))))
      { url := "https://git.test/load.git" } mainAndFeature "main" :=
    serves_obliging (by decide +kernel) (by decide +kernel)
  have named := always Unit _ _ _ _ _ () serves (by decide +kernel)
  have resolved := named.1 (branchAt "main" mainTip (by decide)) (by simp [mainAndFeature]) rfl
  have first : (mainAndFeature.listed "main").head?.map Ref.stored =
      some (repeated '2' (by decide)) := by decide +kernel
  cases shape : mainAndFeature.listed "main" with
  | nil => rw [shape] at first; cases first
  | cons head rest =>
      rw [resolveRef_listed serves (by decide +kernel) shape] at resolved
      rw [shape] at first
      have stored : head.stored = repeated '2' (by decide) := Option.some.inj first
      rw [stored] at resolved
      exact absurd resolved (by decide +kernel)

end Plimsoll.Client
