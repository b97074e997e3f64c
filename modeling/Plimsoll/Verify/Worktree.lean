import Plimsoll.Posix.FileSystem
import Plimsoll.Verify

/-!
A commit checked out on a host. What Git fetches is a tree of files at a root;
what stands around it is the host's. Below the root every host answers as the
tree alone does.
-/

namespace Plimsoll.Verify

open Python Posix

/-! ## Paths -/

/-- A null character, which no path the kernel takes may hold. -/
def hasNull (path : PurePath) : Bool := path.parts.any fun part => part.toList.contains '\x00'

/-- An `OSError` on a path. -/
def osErrorAt (rt : Runtime) (strerror : String) (path : PurePath) : Raised :=
  .osError (strerror ++ ": " ++ rt.ucd.repr path.asPosix)

/-- The files that paths lead to, as `pathlib` asks for them. `is_file` takes the
`ValueError` of a null character for an answer. -/
def viewOf (rt : Runtime) {Dir : Type} (find : PurePath → Entry Dir) : FileView where
  isFile path :=
    if hasNull path then .ok false
    else
      match find path with
      | .file _ => .ok true
      | .refused strerror => .error (osErrorAt rt strerror path)
      | .absent => .ok false
      | .directory _ => .ok false
  readBytes path :=
    if hasNull path then .error .valueError
    else
      match find path with
      | .file content => .ok content
      | .refused strerror => .error (osErrorAt rt strerror path)
      | .absent => .error (osErrorAt rt "[Errno 2] No such file or directory" path)
      | .directory _ => .error (osErrorAt rt "[Errno 21] Is a directory" path)

/-- The files of a host. -/
def view (rt : Runtime) (fs : FileSystem) : FileView := viewOf rt fs.find

/-! ## Worktrees -/

/-- The files of a commit below the root of its checkout, which is a path from
`/` without `..`. -/
structure Worktree where
  root : PurePath
  listing : List (String × Tree)
  absolute : root.root = .slash
  canonical : ".." ∉ root.parts

namespace Worktree

variable (worktree : Worktree)

def tree : Tree := .directory worktree.listing

/-- What a path leads to, as far as the worktree tells. -/
def resolve (path : PurePath) : Sight :=
  if path.root = .relative then .outside
  else Posix.resolve worktree.root.parts worktree.tree [] path.parts

/-- The worktree settles what `is_file` says of a path: the path is no path, or
it asks for no name outside. -/
def Settles (path : PurePath) : Prop := hasNull path = true ∨ worktree.resolve path ≠ .outside

/-- The worktree alone, with nothing outside it. -/
def files (rt : Runtime) : FileView where
  isFile path :=
    .ok (!hasNull path &&
      match worktree.resolve path with
      | .file _ => true
      | _ => false)
  readBytes path :=
    match worktree.resolve path with
    | .file content => .ok content
    | _ => .error (osErrorAt rt "[Errno 2] No such file or directory" path)

end Worktree

/-- What stands around each worktree: a host that holds it. -/
def Surroundings := (worktree : Worktree) → Host worktree.root.parts worktree.tree

variable {W : Type}

/-- A Git remote: the commit a ref names, and the files of a commit in the
workspace they are checked out to. -/
structure Remote (W : Type) where
  resolveRef : GitAccess → String → Action W RefResolution
  fetch : GitAccess → String → String → Action W Worktree

/-- The checkout of a worktree on a host. -/
def hosted (rt : Runtime) (worktree : Worktree) (host : Host worktree.root.parts worktree.tree) :
    Checkout where
  root := worktree.root
  files := view rt host.toFileSystem

/-- The checkout of a worktree on its host. -/
def Worktree.checkoutOn (rt : Runtime) (around : Surroundings) (worktree : Worktree) : Checkout where
  root := worktree.root
  files := view rt (around worktree).toFileSystem

/-- The worktree as a checkout of its own. -/
def Worktree.checkout (rt : Runtime) (worktree : Worktree) : Checkout where
  root := worktree.root
  files := worktree.files rt

/-- The behaviour of Git on a machine with these surroundings. -/
def Remote.on (rt : Runtime) (around : Surroundings) (remote : Remote W) : Git W where
  resolveRef := remote.resolveRef
  fetchPlan access sha planPath := do
    let worktree ← remote.fetch access sha planPath
    return worktree.checkoutOn rt around

/-! ## What a host shows -/

variable {rt : Runtime} {worktree : Worktree} {path : PurePath}

theorem find_found (path : PurePath) (host : Host worktree.root.parts worktree.tree) :
    Found (worktree.resolve path) (host.find path) := by
  have top : sight worktree.root.parts worktree.tree [] = .directory := by
    cases parts : worktree.root.parts with
    | nil => rfl
    | cons part rest => rfl
  have walked := host.walk_found path.parts top
  rw [host.place_nil] at walked
  rw [Worktree.resolve, FileSystem.find]
  cases path.root with
  | relative => trivial
  | slash => exact walked
  | doubleSlash => exact walked

/-- A host says of a path that is settled what the worktree says. -/
theorem isFile_eq (rt : Runtime) (host : Host worktree.root.parts worktree.tree)
    (settled : worktree.Settles path) :
    (view rt host.toFileSystem).isFile path = (worktree.files rt).isFile path := by
  have found := find_found path host
  unfold view viewOf Worktree.files
  dsimp only
  cases null : hasNull path with
  | true => rfl
  | false =>
      have within : worktree.resolve path ≠ .outside :=
        settled.resolve_left (Bool.eq_false_iff.mp null)
      cases seen : worktree.resolve path with
      | outside => exact absurd seen within
      | nothing => rw [seen] at found; rw [show host.find path = _ from found]; rfl
      | file content => rw [seen] at found; rw [show host.find path = _ from found]; rfl
      | directory =>
          rw [seen] at found
          obtain ⟨dir, same⟩ := found
          rw [same]
          rfl

/-- A file of the worktree reads the same on every host. -/
theorem readBytes_eq (host : Host worktree.root.parts worktree.tree)
    (present : (worktree.files rt).isFile path = .ok true) :
    (view rt host.toFileSystem).readBytes path = (worktree.files rt).readBytes path := by
  have found := find_found path host
  unfold view viewOf
  unfold Worktree.files at present ⊢
  dsimp only at present ⊢
  cases null : hasNull path with
  | true => rw [null] at present; cases present
  | false =>
      cases seen : worktree.resolve path with
      | outside => rw [null, seen] at present; cases present
      | nothing => rw [null, seen] at present; cases present
      | directory => rw [null, seen] at present; cases present
      | file content => rw [seen] at found; rw [show host.find path = _ from found]; rfl

/-! ## Below the root -/

namespace Worktree

/-- The worktree settles what is below its root. -/
theorem settles_of_descendant (below : worktree.root.Descendant path) : worktree.Settles path := by
  obtain ⟨sameRoot, rest, parts, down⟩ := below
  refine Or.inr ?_
  rw [resolve, sameRoot, worktree.absolute, if_neg PathRoot.noConfusion, parts, tree,
    resolve_root worktree.listing rest (List.nil_append _) worktree.canonical]
  simpa using resolve_inside worktree.root.parts (.directory worktree.listing) [] down

end Worktree

end Plimsoll.Verify
