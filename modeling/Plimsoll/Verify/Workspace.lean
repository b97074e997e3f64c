import Plimsoll.Posix.Machine
import Plimsoll.Verify.Worktree

/-!
A commit with its symbolic links, checked out on a machine.
-/

namespace Plimsoll.Verify

open Python Posix

/-- A machine, and the directory that a commit is checked out to, which is a path from
`/` without `..` and leads through no link. -/
structure Workspace where
  machine : Machine
  root : PurePath
  absolute : root.root = .slash
  canonical : ".." ∉ root.parts

namespace Workspace

variable (rt : Runtime) (workspace : Workspace) (listing : Listing)

/-- Where a path leads when these files and links are checked out. -/
def follow (path : PurePath) : Walk := workspace.machine.follow workspace.root.parts listing path

/-- The checkout of these files and links. -/
def checkout : Checkout where
  root := workspace.root
  files := viewOf rt fun path => (workspace.follow listing path).found

variable {rt workspace listing} {path : PurePath}

theorem isFile_iff :
    (workspace.checkout rt listing).files.isFile path = .ok true ↔
      hasNull path = false ∧ ∃ content, (workspace.follow listing path).found = .file content := by
  unfold checkout viewOf
  dsimp only
  cases hasNull path with
  | true => simp
  | false =>
      cases (workspace.follow listing path).found with
      | absent => simp
      | refused message => simp
      | file content => simp
      | directory place => simp

end Workspace

/-! ## A machine -/

/-- A machine with nothing on it, where a name has at most 255 bytes, a path at most 4095,
and a path may lead through 40 links. -/
def bareMachine : Machine where
  outside _ := .absent
  refuses _ name := if 255 < name.utf8ByteSize then some "[Errno 36] File name too long" else none
  refusesPath path :=
    if 4095 < path.asPosix.utf8ByteSize then some "[Errno 36] File name too long" else none
  linkLimit := 40
  cwd := []

def bareWorkspace : Workspace where
  machine := bareMachine
  root := PurePath.ofString "/tmp/plimsoll-git-1/checkout"
  absolute := by decide
  canonical := by decide

end Plimsoll.Verify
