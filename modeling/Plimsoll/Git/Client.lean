import Plimsoll.Git
import Plimsoll.Python.Regex

/-!
The Git client: what `resolve_ref` and `fetch_plan` do on a machine.

A command line is a list of words. Some are the program's own; `given` marks
those that come from a repository's row, a ref or a commit, which is bookkeeping
for the statements about them: the machine sees their texts.
-/

namespace Plimsoll.Client

open Python

/-! ## Machines -/

/-- A word of a command line. -/
inductive Word where
  | own (text : String)
  | given (text : String)
deriving DecidableEq, Repr

def Word.text : Word → String
  | .own text => text
  | .given text => text

/-- A subprocess to start. -/
structure Command where
  words : List Word
  environment : Dict String String
  cwd : Option PurePath

/-- How a subprocess ended. -/
inductive Completion where
  | timedOut
  | exited (returncode : Int) (stdout stderr : List UInt8)

/-- The operating system as the client uses it. -/
structure Machine (W : Type) where
  /-- `os.environ.get("PATH")`. -/
  path : Option String
  mkdtemp : Action W PurePath
  writeBytes : PurePath → List UInt8 → Action W Unit
  chmod : PurePath → Nat → Action W Unit
  exec : Command → Action W Completion
  /-- `shutil.rmtree(path, ignore_errors=True)`. -/
  rmtree : PurePath → W → W
  files : W → FileView

/-! ## Constants -/

/-- `TIMEOUT_SECONDS`. -/
def timeoutSeconds : Nat := 60

def lowerHexDigit (c : Char) : Bool := c.isDigit || ('a' ≤ c && c ≤ 'f')

/-- `COMMIT_SHA`. -/
def commitSha : Regex := .seq .atStart (.seq (.repeated lowerHexDigit 40 (some 40)) .atEnd)

/-- `DEFAULT_TOKEN_USERNAME`. -/
def defaultTokenUsername : String := "x-access-token"

/-- `ASKPASS`. -/
def askpassScript : String :=
  "#!/bin/sh\ncase \"$1\" in\n" ++
    "  Username*) printf '%s' \"$PLIMSOLL_GIT_USERNAME\" ;;\n" ++
    "  *) printf '%s' \"$PLIMSOLL_GIT_PASSWORD\" ;;\nesac\n"

/-! ## Operations -/

variable (rt : Runtime) {W : Type} (m : Machine W) {α : Type}

/-- What `_workspace` adds to the environment for a token. -/
def tokenEnvironment (workspace : PurePath) (secret : List UInt8)
    (environment : Dict String String) : Action W (Dict String String) :=
  match rt.decodeStrict secret with
  | none => Action.raise .valueError
  | some secret => do
      let (username, password) :=
        match partition secret ':' with
        | (username, some password) => (username, password)
        | (_, none) => (defaultTokenUsername, secret)
      let askpass := workspace.join "askpass.sh"
      m.writeBytes askpass askpassScript.toUTF8.toList
      m.chmod askpass 0o700
      return ((environment.set "GIT_ASKPASS" askpass.asPosix).set
        "PLIMSOLL_GIT_USERNAME" username).set "PLIMSOLL_GIT_PASSWORD" password

/-- What `_workspace` adds to the environment for an SSH key. -/
def keyEnvironment (workspace : PurePath) (secret : List UInt8)
    (environment : Dict String String) : Action W (Dict String String) := do
  let key := workspace.join "id_key"
  m.writeBytes key (if secret.getLast? = some 10 then secret else secret ++ [10])
  m.chmod key 0o600
  return environment.set "GIT_SSH_COMMAND"
    ("ssh -i " ++ key.asPosix ++ " -o IdentitiesOnly=yes -o BatchMode=yes " ++
      "-o StrictHostKeyChecking=accept-new")

/-- The environment `_workspace` hands over. -/
def accessEnvironment (workspace : PurePath) (access : GitAccess) :
    Action W (Dict String String) :=
  let environment := Dict.ofList
    [("PATH", m.path.getD "/usr/bin:/bin"),
      ("HOME", workspace.asPosix),
      ("GIT_TERMINAL_PROMPT", "0"),
      ("GIT_CONFIG_NOSYSTEM", "1")]
  match access.kind, access.secret with
  | some "GIT_TOKEN", some secret => tokenEnvironment rt m workspace secret environment
  | some "GIT_SSH_KEY", some secret => keyEnvironment m workspace secret environment
  | _, _ => pure environment

/-- `async with _workspace(access) as (environment, workspace): body`. -/
def withWorkspace (access : GitAccess) (body : Dict String String → PurePath → Action W α) :
    Action W α := do
  let workspace ← m.mkdtemp
  let inside : Action W α := do
    let environment ← accessEnvironment rt m workspace access
    body environment workspace
  inside.tryFinally (m.rmtree workspace)

/-- `_run`. -/
def runCommand (words : List Word) (environment : Dict String String) (cwd : Option PurePath) :
    Action W String := do
  match ← m.exec { words, environment, cwd } with
  | .timedOut =>
      Action.raise (.gitError
        ("Git did not respond within " ++ toString timeoutSeconds ++ " seconds."))
  | .exited returncode stdout stderr =>
      if returncode ≠ 0 then
        let message := strip (rt.decodeReplace stderr)
        Action.raise (.gitError (if message = "" then "Git failed." else message))
      else pure (rt.decodeReplace stdout)

/-- The first line of a text, trimmed, up to its first tab. -/
def firstField (output : String) : String :=
  (partition (strip (partition output '\n').1) '\t').1

/-- The command line that asks a remote about a ref. -/
def lsRemote (url ref : String) : List Word :=
  [.own "git", .own "ls-remote", .own "--exit-code", .given url, .given ref]

/-- What `resolve_ref` makes of the remote's answer. -/
def readResolution (ref output : String) : Action W RefResolution :=
  let sha := firstField output
  if sha.length ≠ 40 then
    Action.raise (.gitError ("Ref " ++ rt.ucd.repr ref ++ " did not resolve to a commit."))
  else return { sha }

/-- `resolve_ref`. -/
def resolveRef (access : GitAccess) (ref : String) : Action W RefResolution := do
  let candidate := strip ref
  if commitSha.isMatch candidate then return { sha := candidate }
  let output ← withWorkspace rt m access fun environment _ =>
    runCommand rt m (lsRemote access.url ref) environment none
  readResolution rt ref output

/-- The directory of a plan, as `fetch_plan` names it to Git. -/
def planDirectory (planPath : String) : String := (PurePath.ofString planPath).parent.asPosix

def clone (url : String) (checkout : PurePath) : List Word :=
  [.own "git", .own "clone", .own "--quiet", .own "--filter=blob:none", .own "--no-checkout",
    .own "--sparse", .given url, .own checkout.asPosix]

def sparseCheckout (directory : String) : List Word :=
  [.own "git", .own "sparse-checkout", .own "set", .own "--no-cone",
    if directory = "" then .own "/*" else .given directory]

def checkoutCommit (sha : String) : List Word :=
  [.own "git", .own "checkout", .own "--quiet", .given sha]

/-- The files of a checkout as they stand. -/
def openCheckout (checkout : PurePath) : Action W Checkout := fun w =>
  (.ok { root := checkout, files := m.files w }, w)

/-- What `fetch_plan` does in its workspace. -/
def checkOut (url sha planPath : String) (environment : Dict String String)
    (workspace : PurePath) : Action W Checkout := do
  let checkout := workspace.join "checkout"
  let _ ← runCommand rt m (clone url checkout) environment none
  let _ ← runCommand rt m (sparseCheckout (planDirectory planPath)) environment (some checkout)
  let _ ← runCommand rt m (checkoutCommit sha) environment (some checkout)
  openCheckout m checkout

/-- `fetch_plan`, entered and left again; the checkout is what stands open in
between. -/
def fetchPlan (access : GitAccess) (sha planPath : String) : Action W Checkout :=
  withWorkspace rt m access (checkOut rt m access.url sha planPath)

/-- The behaviour of Git that the client gives the services. -/
def git : Git W where
  resolveRef := resolveRef rt m
  fetchPlan := fetchPlan rt m

end Plimsoll.Client
