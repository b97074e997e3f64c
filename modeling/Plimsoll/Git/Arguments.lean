import Plimsoll.Git.Client
import Plimsoll.Contracts.Scripts

/-!
Which words of a Git command line can be options.

Git reads a word with a leading hyphen as an option wherever it stands in front
of `--`, and the client's command lines have no `--`. A URL begins with its
scheme and a commit with a digit; nothing says how a ref or a plan's directory
begins.
-/

namespace Plimsoll.Client

open Python Contracts

variable {rt : Runtime} {W : Type} {m : Machine W} {α : Type}

/-! ## Watching a machine -/

/-- An action in a world with a log beside it. -/
def beside (action : Action W α) : Action (W × List Command) α := fun s =>
  ((action s.1).1, (action s.1).2, s.2)

/-- The machine with a log of the commands it was asked to run. -/
def record (m : Machine W) : Machine (W × List Command) where
  path := m.path
  mkdtemp := beside m.mkdtemp
  writeBytes path content := beside (m.writeBytes path content)
  chmod path mode := beside (m.chmod path mode)
  exec command s := ((m.exec command s.1).1, (m.exec command s.1).2, s.2 ++ [command])
  rmtree path s := (m.rmtree path s.1, s.2)
  files s := m.files s.1

/-- A ref is resolved and a plan fetched at the commit, as verifying, pinning
and preflight do. -/
def resolveAndFetch (rt : Runtime) (m : Machine W) (access : GitAccess) (ref planPath : String) :
    Action W Checkout := do
  let resolution ← (git rt m).resolveRef access ref
  (git rt m).fetchPlan access resolution.sha planPath

/-- The commands this runs. -/
def commandsOf (rt : Runtime) (m : Machine W) (access : GitAccess) (ref planPath : String) (w : W) :
    List Command := (resolveAndFetch rt (record m) access ref planPath (w, [])).2.2

/-- No word that came from data begins with a hyphen. -/
def OperandsOnly (commands : List Command) : Prop :=
  ∀ command ∈ commands, ∀ text, Word.given text ∈ command.words → startsWith text "-" = false

/-- An object id is written in hexadecimal. -/
def IsHex (sha : String) : Prop := ∀ c ∈ sha.toList, lowerHexDigit c = true

/-- `ls-remote` prints an object id at the start of a line. -/
def PrintsObjectIds (rt : Runtime) (m : Machine W) : Prop :=
  ∀ url ref environment w w' stdout stderr,
    m.exec ⟨lsRemote url ref, environment, none⟩ w = (.ok (.exited 0 stdout stderr), w') →
      IsHex (firstField (rt.decodeReplace stdout))

/-- On every machine, and with any credential, the words taken from the URL, the
ref, the commit and the plan's directory are operands. -/
def NeverOptions (rt : Runtime) (url ref planPath : String) : Prop :=
  ∀ (W : Type) (m : Machine W) (access : GitAccess) (w : W), access.url = url →
    PrintsObjectIds rt m → OperandsOnly (commandsOf rt m access ref planPath w)

/-! ## Words that are operands -/

theorem not_hyphen_of_head {text : String} {c : Char} (head : text.toList.head? = some c)
    (differs : c ≠ '-') : startsWith text "-" = false := by
  by_contra starts
  rw [Bool.not_eq_false, startsWith_iff] at starts
  obtain ⟨rest, cut⟩ := starts
  rw [← cut] at head
  exact differs (Option.some.inj head).symm

theorem not_hyphen_of_scheme {url : String} (supported : supportedScheme url = .ok url) :
    startsWith url "-" = false := by
  obtain ⟨scheme, allowed, starts⟩ := supportedScheme_ok_iff.mp supported
  obtain ⟨rest, cut⟩ := startsWith_iff.mp starts
  simp only [allowedSchemes, List.mem_cons, List.not_mem_nil, or_false] at allowed
  rcases allowed with rfl | rfl | rfl | rfl
  · exact not_hyphen_of_head (c := 'h') (by rw [← cut]; rfl) (by decide)
  · exact not_hyphen_of_head (c := 'h') (by rw [← cut]; rfl) (by decide)
  · exact not_hyphen_of_head (c := 's') (by rw [← cut]; rfl) (by decide)
  · exact not_hyphen_of_head (c := 'g') (by rw [← cut]; rfl) (by decide)

theorem not_hyphen_of_hex {sha : String} (hex : IsHex sha) :
    startsWith sha "-" = false := by
  by_contra starts
  rw [Bool.not_eq_false, startsWith_iff] at starts
  obtain ⟨rest, cut⟩ := starts
  exact absurd (hex '-' (by rw [← cut]; exact List.mem_cons_self)) (by decide)

/-- A commit id, or one with a newline behind it, begins with a digit. -/
theorem not_hyphen_of_commitSha {sha : String} (isSha : commitSha.isMatch sha = true) :
    startsWith sha "-" = false := by
  obtain ⟨stop, ran⟩ := Regex.isMatch_iff.mp isSha
  unfold commitSha at ran
  simp only [Regex.mem_run_seq, Regex.mem_run_atStart, Regex.mem_run_repeated,
    Regex.mem_run_atEnd] at ran
  obtain ⟨_, ⟨-, rfl⟩, _, ⟨cs, rest, shape, hex, long, -, rfl⟩, -⟩ := ran
  cases cs with
  | nil => simp at long
  | cons c cs =>
      have head : sha.toList.head? = some c := by
        rw [show sha.toList = c :: cs ++ rest from shape]
        rfl
      refine not_hyphen_of_head head ?_
      rintro rfl
      exact absurd (hex '-' List.mem_cons_self) (by decide)

/-! ## What a recording machine keeps -/

/-- The log has operands only. -/
def Clean (s : W × List Command) : Prop := OperandsOnly s.2

theorem ensures_beside (action : Action W α) :
    Action.Ensures Clean (beside action) fun _ => True :=
  fun _ clean => ⟨clean, fun _ _ => trivial⟩

theorem ensures_exec {command : Command}
    (operands : ∀ text, Word.given text ∈ command.words → startsWith text "-" = false) :
    Action.Ensures Clean ((record m).exec command) fun _ => True := by
  intro s clean
  refine ⟨fun other member text given => ?_, fun _ _ => trivial⟩
  rcases List.mem_append.mp member with before | here
  · exact clean other before text given
  · obtain rfl := List.mem_singleton.mp here
    exact operands text given

theorem ensures_runCommand {words : List Word} {environment : Dict String String}
    {cwd : Option PurePath}
    (operands : ∀ text, Word.given text ∈ words → startsWith text "-" = false) :
    Action.Ensures Clean (runCommand rt (record m) words environment cwd) fun _ => True := by
  refine Action.Ensures.bind (@ensures_exec W m ⟨words, environment, cwd⟩ operands) ?_
  intro completion _
  cases completion with
  | timedOut => exact .raise
  | exited returncode stdout stderr =>
      dsimp only
      split
      · exact .raise
      · exact .pure trivial

theorem ensures_accessEnvironment {workspace : PurePath} {access : GitAccess} :
    Action.Ensures Clean (accessEnvironment rt (record m) workspace access) fun _ => True := by
  unfold accessEnvironment
  split
  · unfold tokenEnvironment
    split
    · exact .raise
    · refine Action.Ensures.bind (ensures_beside _) fun _ _ => ?_
      exact Action.Ensures.bind (ensures_beside _) fun _ _ => .pure trivial
  · refine Action.Ensures.bind (ensures_beside _) fun _ _ => ?_
    exact Action.Ensures.bind (ensures_beside _) fun _ _ => .pure trivial
  · exact .pure trivial

theorem ensures_withWorkspace {access : GitAccess}
    {body : Dict String String → PurePath → Action (W × List Command) α} {Q : α → Prop}
    (inside : ∀ environment workspace, Action.Ensures Clean (body environment workspace) Q) :
    Action.Ensures Clean (withWorkspace rt (record m) access body) Q := by
  refine Action.Ensures.bind (ensures_beside m.mkdtemp) fun workspace _ => ?_
  refine Action.Ensures.tryFinally ?_ fun _ clean => clean
  exact Action.Ensures.bind ensures_accessEnvironment fun environment _ =>
    inside environment workspace

/-- What `_run` returns is the decoded output of a command that exited with 0. -/
theorem runCommand_ok {words : List Word} {environment : Dict String String}
    {cwd : Option PurePath} {w w' : W} {output : String}
    (returned : runCommand rt m words environment cwd w = (.ok output, w')) :
    ∃ stdout stderr, m.exec ⟨words, environment, cwd⟩ w = (.ok (.exited 0 stdout stderr), w') ∧
      output = rt.decodeReplace stdout := by
  rw [runCommand, Action.bind_apply] at returned
  cases ran : m.exec ⟨words, environment, cwd⟩ w with
  | mk result after =>
      cases result with
      | error exc => simp [ran] at returned
      | ok completion =>
          cases completion with
          | timedOut => simp [ran] at returned
          | exited returncode stdout stderr =>
              by_cases zero : returncode = 0
              · subst zero
                obtain ⟨rfl, rfl⟩ : rt.decodeReplace stdout = output ∧ after = w' := by
                  simpa [ran] using returned
                exact ⟨stdout, stderr, rfl, rfl⟩
              · simp [ran, zero] at returned

/-- A commit that `resolve_ref` returns is an operand. -/
theorem ensures_resolveRef {access : GitAccess} {ref : String} (honest : PrintsObjectIds rt m)
    (scheme : supportedScheme access.url = .ok access.url)
    (plain : commitSha.isMatch (strip ref) = true ∨ startsWith ref "-" = false) :
    Action.Ensures Clean (resolveRef rt (record m) access ref) fun resolution =>
      startsWith resolution.sha "-" = false := by
  by_cases isSha : commitSha.isMatch (strip ref) = true
  · simp only [resolveRef, isSha, if_true]
    exact .pure (not_hyphen_of_commitSha isSha)
  · simp only [resolveRef, isSha]
    have refPlain := plain.resolve_left isSha
    have operands : ∀ text, Word.given text ∈ lsRemote access.url ref →
        startsWith text "-" = false := by
      intro text given
      simp only [lsRemote, List.mem_cons, Word.given.injEq, reduceCtorEq, false_or,
        List.not_mem_nil, or_false] at given
      rcases given with rfl | rfl
      · exact not_hyphen_of_scheme scheme
      · exact refPlain
    have asked : Action.Ensures (Clean (W := W)) (withWorkspace rt (record m) access
        fun environment _ => runCommand rt (record m) (lsRemote access.url ref) environment none)
        fun output => IsHex (firstField output) := by
      refine ensures_withWorkspace fun environment _ s clean => ?_
      refine ⟨(ensures_runCommand operands s clean).1, fun output returned => ?_⟩
      obtain ⟨stdout, stderr, ran, rfl⟩ := runCommand_ok (Prod.ext returned rfl)
      exact honest access.url ref environment s.1 _ stdout stderr
        (Prod.ext (congrArg Prod.fst ran : _) rfl)
    refine Action.Ensures.bind asked fun output hex => ?_
    simp only [readResolution]
    split
    · exact .raise
    · refine .pure ?_
      dsimp only
      exact not_hyphen_of_hex hex

theorem ensures_fetchPlan {access : GitAccess} {sha planPath : String}
    (scheme : supportedScheme access.url = .ok access.url) (commit : startsWith sha "-" = false)
    (directory : startsWith (planDirectory planPath) "-" = false) :
    Action.Ensures Clean (fetchPlan rt (record m) access sha planPath) fun _ => True := by
  refine ensures_withWorkspace fun environment workspace => ?_
  refine Action.Ensures.bind (ensures_runCommand ?_) fun _ _ => ?_
  · intro text given
    obtain rfl : text = access.url := by simpa [clone] using given
    exact not_hyphen_of_scheme scheme
  refine Action.Ensures.bind (ensures_runCommand ?_) fun _ _ => ?_
  · intro text given
    by_cases top : planDirectory planPath = ""
    · simp [sparseCheckout, top] at given
    · obtain rfl : text = planDirectory planPath := by simpa [sparseCheckout, top] using given
      exact directory
  refine Action.Ensures.bind (ensures_runCommand ?_) fun _ _ => ?_
  · intro text given
    obtain rfl : text = sha := by simpa [checkoutCommit] using given
    exact commit
  exact fun _ clean => ⟨clean, fun _ _ => trivial⟩

/-! ## A machine on which everything succeeds -/

/-- Every command exits with 0 and prints the same bytes. -/
def obliging (stdout : List UInt8) : Machine Unit where
  path := none
  mkdtemp := pure (PurePath.ofString "/tmp/plimsoll-git")
  writeBytes _ _ := pure ()
  chmod _ _ := pure ()
  exec _ := pure (.exited 0 stdout [])
  rmtree _ w := w
  files _ := { isFile := fun _ => .ok false, readBytes := fun _ => .error (.osError "No such file") }

variable {stdout : List UInt8}

theorem runCommand_obliging {words : List Word} {environment : Dict String String}
    {cwd : Option PurePath} {s : Unit × List Command} :
    runCommand rt (record (obliging stdout)) words environment cwd s =
      (.ok (rt.decodeReplace stdout), (), s.2 ++ [⟨words, environment, cwd⟩]) := rfl

/-- What an open repository's commands run in. -/
theorem withWorkspace_obliging {url : String}
    {body : Dict String String → PurePath → Action (Unit × List Command) α}
    {s : Unit × List Command} :
    ∃ environment workspace,
      withWorkspace rt (record (obliging stdout)) { url } body s = body environment workspace s :=
  ⟨_, _, rfl⟩

/-- The words of the commands that fetch a plan are added to the log. -/
theorem fetchPlan_obliging {url sha planPath : String} {s : Unit × List Command} :
    ∃ checkout, ((fetchPlan rt (record (obliging stdout)) { url } sha planPath s).2.2).map
        Command.words =
      s.2.map Command.words ++
        [clone url checkout, sparseCheckout (planDirectory planPath), checkoutCommit sha] := by
  obtain ⟨environment, workspace, inside⟩ :=
    @withWorkspace_obliging rt _ stdout url
      (checkOut rt (record (obliging stdout)) url sha planPath) s
  refine ⟨workspace.join "checkout", ?_⟩
  rw [fetchPlan, inside]
  simp [checkOut, openCheckout, Action.bind_apply, runCommand_obliging]

/-- A ref that is not a commit is asked about, and the answer taken for one. -/
theorem resolveRef_obliging {url ref : String} {s : Unit × List Command}
    (notSha : ¬ commitSha.isMatch (strip ref) = true)
    (long : (firstField (rt.decodeReplace stdout)).length = 40) :
    ∃ environment, resolveRef rt (record (obliging stdout)) { url } ref s =
      (.ok { sha := firstField (rt.decodeReplace stdout) }, (),
        s.2 ++ [⟨lsRemote url ref, environment, none⟩]) := by
  obtain ⟨environment, workspace, inside⟩ :=
    @withWorkspace_obliging rt _ stdout url (fun environment _ =>
      runCommand rt (record (obliging stdout)) (lsRemote url ref) environment none) s
  refine ⟨environment, ?_⟩
  simp [resolveRef, notSha, Action.bind_apply, inside, runCommand_obliging, readResolution, long]

/-- The commands of a run on which everything succeeds. -/
theorem commandsOf_obliging {url ref planPath : String}
    (long : (firstField (rt.decodeReplace stdout)).length = 40) :
    ∃ checkout sha, (commandsOf rt (obliging stdout) { url } ref planPath ()).map Command.words =
      (if commitSha.isMatch (strip ref) = true then [] else [lsRemote url ref]) ++
        [clone url checkout, sparseCheckout (planDirectory planPath), checkoutCommit sha] := by
  by_cases isSha : commitSha.isMatch (strip ref) = true
  · obtain ⟨checkout, words⟩ := @fetchPlan_obliging rt stdout url (strip ref) planPath ((), [])
    refine ⟨checkout, strip ref, ?_⟩
    simp [commandsOf, resolveAndFetch, git, Action.bind_apply, resolveRef, isSha, words]
  · obtain ⟨environment, resolved⟩ :=
      @resolveRef_obliging rt stdout url ref ((), []) isSha long
    obtain ⟨checkout, words⟩ := @fetchPlan_obliging rt stdout url
      (firstField (rt.decodeReplace stdout)) planPath ((), [⟨lsRemote url ref, environment, none⟩])
    refine ⟨checkout, firstField (rt.decodeReplace stdout), ?_⟩
    simp [commandsOf, resolveAndFetch, git, Action.bind_apply, resolved, isSha, words]

/-! ## Operands -/

/-- The condition is enough. -/
theorem neverOptions_of_plain {url ref planPath : String} (scheme : supportedScheme url = .ok url)
    (plainRef : commitSha.isMatch (strip ref) = true ∨ startsWith ref "-" = false)
    (plainDirectory : startsWith (planDirectory planPath) "-" = false) :
    NeverOptions rt url ref planPath := by
  intro W m access w same honest
  subst same
  have ensured : Action.Ensures Clean
      (resolveAndFetch rt (record m) access ref planPath) fun _ => True := by
    unfold resolveAndFetch git
    dsimp only
    refine Action.Ensures.bind (ensures_resolveRef honest scheme plainRef) ?_
    intro resolution operand
    exact ensures_fetchPlan scheme operand plainDirectory
  have start : Clean (w, []) := by
    intro command member
    cases member
  exact (ensured (w, []) start).1

/-- The words that come from data are operands exactly if a ref that is sent to
the remote, and the directory of the plan, do not begin with a hyphen. -/
theorem neverOptions_iff {url ref planPath : String} (scheme : supportedScheme url = .ok url)
    (printable : ∃ stdout, (firstField (rt.decodeReplace stdout)).length = 40 ∧
      IsHex (firstField (rt.decodeReplace stdout))) :
    NeverOptions rt url ref planPath ↔
      (commitSha.isMatch (strip ref) = true ∨ startsWith ref "-" = false) ∧
        startsWith (planDirectory planPath) "-" = false := by
  refine ⟨fun never => ?_, fun ⟨plainRef, plainDirectory⟩ =>
    neverOptions_of_plain scheme plainRef plainDirectory⟩
  obtain ⟨stdout, long, hex⟩ := printable
  have honest : PrintsObjectIds rt (obliging stdout) := by
    intro url ref environment w w' out err ran
    obtain ⟨rfl, -⟩ : stdout = out ∧ _ := by simpa [obliging] using ran
    exact hex
  have operands := never Unit (obliging stdout) { url } () rfl honest
  obtain ⟨checkout, sha, words⟩ := @commandsOf_obliging rt stdout url ref planPath long
  have operand : ∀ line ∈ (commandsOf rt (obliging stdout) { url } ref planPath ()).map
      Command.words, ∀ text, Word.given text ∈ line → startsWith text "-" = false := by
    intro line member text given
    obtain ⟨command, ran, rfl⟩ := List.mem_map.mp member
    exact operands command ran text given
  rw [words] at operand
  constructor
  · by_cases isSha : commitSha.isMatch (strip ref) = true
    · exact .inl isSha
    · exact .inr (operand (lsRemote url ref) (by simp [isSha]) ref (by simp [lsRemote]))
  · by_cases top : planDirectory planPath = ""
    · rw [top]
      rfl
    · exact operand (sparseCheckout (planDirectory planPath)) (by simp) _
        (by simp [sparseCheckout, top])

/-! ## Runs -/

/-- The interpreter on ASCII output. -/
def ascii : Runtime where
  ucd := Unicode.basic
  sets := SetOrder.listed
  decode := asciiText
  decodeStrict bytes := some (asciiText bytes)
  decodeReplace := asciiText
  fromstring _ := .error "syntax error: line 1, column 0"
  safeLoad _ := .ok .none
  sha256 _ := ""
where
  asciiText (bytes : List UInt8) : String :=
    String.ofList (bytes.map fun byte => Char.ofNat byte.toNat)

/-- What `ls-remote` prints for a head. -/
def advertised : List UInt8 := List.replicate 40 49 ++ [9, 72, 69, 65, 68, 10]

theorem advertised_printable : ∃ stdout,
    (firstField (ascii.decodeReplace stdout)).length = 40 ∧
      IsHex (firstField (ascii.decodeReplace stdout)) := by
  refine ⟨advertised, by decide +kernel, fun c member => ?_⟩
  have hex : (firstField (ascii.decodeReplace advertised)).toList.all lowerHexDigit = true := by
    decide +kernel
  exact List.all_eq_true.mp hex c member

theorem neverOptions_main :
    NeverOptions ascii "https://git.example.com/load.git" "main" "plans/checkout.jmx" :=
  (neverOptions_iff (by decide +kernel) advertised_printable).mpr
    ⟨.inr (by decide +kernel), by decide +kernel⟩

/-- A repository whose ref is an option. -/
def refOption : ScriptRepoCreate where
  name := "load"
  repoUrl := "https://git.example.com/load.git"
  planPath := "plan.jmx"
  defaultRef := "--upload-pack=touch /tmp/owned"
  name_length := by decide +kernel
  repoUrl_length := by decide +kernel
  repoUrl_scheme := by decide +kernel
  planPath_length := by decide +kernel
  planPath_inside := by decide +kernel
  defaultRef_length := by decide +kernel

/-- The remote is asked with that option, and not about any ref. -/
theorem refOption_reaches_git : ¬ NeverOptions ascii refOption.repoUrl refOption.defaultRef
    refOption.planPath := by
  intro never
  have honest : PrintsObjectIds ascii (obliging []) := by
    intro url ref environment w w' out err ran
    obtain ⟨rfl, -⟩ : [] = out ∧ _ := by simpa [obliging] using ran
    intro c member
    have empty : firstField (ascii.decodeReplace []) = "" := by decide +kernel
    rw [empty] at member
    cases member
  have operands := never Unit (obliging []) { url := refOption.repoUrl } () rfl honest
  have asked : ∃ environment, commandsOf ascii (obliging []) { url := refOption.repoUrl }
      refOption.defaultRef refOption.planPath () =
        [⟨lsRemote refOption.repoUrl refOption.defaultRef, environment, none⟩] := ⟨_, rfl⟩
  obtain ⟨environment, log⟩ := asked
  rw [log] at operands
  have plain := operands _ List.mem_cons_self refOption.defaultRef (by simp [lsRemote])
  exact absurd plain (by decide +kernel)

end Plimsoll.Client
