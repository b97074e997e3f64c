import Plimsoll.Python.PurePath

/-!
File systems as the kernel walks them, and a tree of files that stands in one.

A directory is whatever a host says it is. Looking a name up in one follows
links, so a host may tie its directories together as it likes; `..` is a name
like any other. What is known of a host that holds a tree at a root is what
`Host.shows` says: the directories of the tree, and those the root's own path
goes through, are where their names say.

`resolve` follows a path as far as that is known. It gives `outside` at the
first name whose entry is up to the host.
-/

namespace Posix

open Python

/-! ## Hosts -/

/-- What a name in a directory stands for. `refused` is an error other than
there being nothing. -/
inductive Entry (Dir : Type) where
  | absent
  | refused (message : String)
  | file (content : List UInt8)
  | directory (dir : Dir)

/-- A file system with its directories, `/`, and a working directory. -/
structure FileSystem where
  Dir : Type
  slash : Dir
  cwd : Dir
  /-- The entry of a name in a directory, links followed. -/
  lookup : Dir → String → Entry Dir

namespace FileSystem

variable (fs : FileSystem)

/-- What the parts of a path lead to from a directory. -/
def walk (dir : fs.Dir) : List String → Entry fs.Dir
  | [] => .directory dir
  | name :: rest =>
      match fs.lookup dir name with
      | .absent => .absent
      | .refused message => .refused message
      | .file content => if rest = [] then .file content else .absent
      | .directory inner => walk inner rest

/-- What a path leads to. -/
def find (path : PurePath) : Entry fs.Dir :=
  match path.root with
  | .relative => fs.walk fs.cwd path.parts
  | .slash => fs.walk fs.slash path.parts
  | .doubleSlash => fs.walk fs.slash path.parts

/-- No name is refused. -/
def Searchable : Prop := ∀ dir name message, fs.lookup dir name ≠ .refused message

variable {fs}

theorem Searchable.walk_ne_refused (searchable : fs.Searchable) {parts : List String} :
    ∀ {dir : fs.Dir} {message : String}, fs.walk dir parts ≠ .refused message := by
  induction parts with
  | nil => intro dir message refused; cases refused
  | cons name rest ih =>
      intro dir message refused
      rw [walk] at refused
      cases found : fs.lookup dir name with
      | absent => rw [found] at refused; cases refused
      | refused other => exact searchable dir name other found
      | file content =>
          rw [found] at refused
          dsimp only at refused
          split at refused
          · cases refused
          · cases refused
      | directory inner => rw [found] at refused; exact ih refused

end FileSystem

/-! ## Trees -/

/-- Regular files and directories, and no links. -/
inductive Tree where
  | file (content : List UInt8)
  | directory (entries : List (String × Tree))

/-- What stands at a place, as far as a tree and its root tell. -/
inductive Sight where
  | outside
  | nothing
  | file (content : List UInt8)
  | directory

/-- The entry of a name. -/
def entryOf (name : String) (entries : List (String × Tree)) : Option Tree :=
  (entries.find? fun entry => entry.1 = name).map Prod.snd

/-- What stands below a tree. -/
def Tree.sight : Tree → List String → Sight
  | .file content, [] => .file content
  | .file _, _ :: _ => .nothing
  | .directory _, [] => .directory
  | .directory entries, name :: rest =>
      match entryOf name entries with
      | none => .nothing
      | some inner => inner.sight rest

/-- What stands at a place, for a tree at a root. -/
def sight : List String → Tree → List String → Sight
  | [], tree, place => tree.sight place
  | _ :: _, _, [] => .directory
  | part :: root, tree, name :: place => if name = part then sight root tree place else .outside

/-- The place a name leads to. -/
def step (place : List String) (name : String) : List String :=
  if name = ".." then place.dropLast else place ++ [name]

/-- What the parts of a path lead to from a place. -/
def resolve (root : List String) (tree : Tree) (place : List String) : List String → Sight
  | [] => .directory
  | name :: rest =>
      match sight root tree (step place name) with
      | .outside => .outside
      | .nothing => .nothing
      | .file content => if rest = [] then .file content else .nothing
      | .directory => resolve root tree (step place name) rest

variable {root : List String} {tree : Tree}

theorem Tree.sight_ne_outside {place : List String} : ∀ {tree : Tree},
    tree.sight place ≠ .outside := by
  induction place with
  | nil =>
      intro tree
      cases tree with
      | file content => simp [Tree.sight]
      | directory entries => simp [Tree.sight]
  | cons name rest ih =>
      intro tree
      cases tree with
      | file content => simp [Tree.sight]
      | directory entries =>
          rw [Tree.sight]
          cases entryOf name entries with
          | none => simp
          | some inner => exact ih

theorem sight_append (root : List String) (tree : Tree) (place : List String) : sight root tree (root ++ place) = tree.sight place := by
  induction root with
  | nil => rfl
  | cons part root ih => simpa [sight] using ih

theorem sight_root {entries : List (String × Tree)} :
    sight root (.directory entries) root = .directory := by
  have seen := sight_append root (.directory entries) []
  rwa [List.append_nil] at seen

/-- The root's own path goes through directories. -/
theorem sight_ancestor {before after : List String} (above : before ++ after = root)
    (proper : after ≠ []) : sight root tree before = .directory := by
  induction before generalizing root with
  | nil =>
      cases root with
      | nil => exact absurd above proper
      | cons part root => rfl
  | cons name before ih =>
      cases root with
      | nil => cases above
      | cons part root =>
          obtain ⟨rfl, rest⟩ := List.cons.inj above
          simpa [sight] using ih rest

/-- Below the root nothing is up to the host. -/
theorem resolve_inside (root : List String) (tree : Tree) {parts : List String} :
    ∀ (place : List String), ".." ∉ parts → resolve root tree (root ++ place) parts ≠ .outside := by
  induction parts with
  | nil => exact fun _ _ => Sight.noConfusion
  | cons name rest ih =>
      intro place down
      have plain : name ≠ ".." := fun same => down (same ▸ List.mem_cons_self)
      have later : ".." ∉ rest := fun member => down (List.mem_cons_of_mem _ member)
      have next : step (root ++ place) name = root ++ (place ++ [name]) := by
        rw [step, if_neg plain, List.append_assoc]
      rw [resolve, next, sight_append]
      cases seen : tree.sight (place ++ [name]) with
      | outside => exact absurd seen Tree.sight_ne_outside
      | nothing => exact Sight.noConfusion
      | file content =>
          dsimp only
          split
          · exact Sight.noConfusion
          · exact Sight.noConfusion
      | directory => exact ih _ later

/-- The root's own path leads to the root. -/
theorem resolve_root (entries : List (String × Tree)) (parts : List String)
    {before after : List String} (path : before ++ after = root) (plain : ".." ∉ after) :
    resolve root (.directory entries) before (after ++ parts) =
      resolve root (.directory entries) root parts := by
  induction after generalizing before with
  | nil => rw [List.append_nil] at path; rw [path, List.nil_append]
  | cons name after ih =>
      have here : name ≠ ".." := fun same => plain (same ▸ List.mem_cons_self)
      have later : ".." ∉ after := fun member => plain (List.mem_cons_of_mem _ member)
      have next : before ++ [name] ++ after = root := by rw [← path, List.append_assoc]; rfl
      have seen : sight root (.directory entries) (before ++ [name]) = .directory := by
        cases after with
        | nil => rw [← next, List.append_nil] at *; exact sight_root
        | cons other after => exact sight_ancestor next (List.cons_ne_nil _ _)
      rw [List.cons_append, resolve, step, if_neg here, seen]
      exact ih next later

/-! ## Hosts of a tree -/

/-- A directory shows at a name what is known to stand there. -/
def Shows {Dir : Type} : Sight → Dir → Entry Dir → Prop
  | .outside, _, _ => True
  | .nothing, _, entry => entry = .absent
  | .file content, _, entry => entry = .file content
  | .directory, dir, entry => entry = .directory dir

/-- A file system with a tree at a root. No link lies on the root's path or in
the tree, and what is there can be searched. -/
structure Host (root : List String) (tree : Tree) extends FileSystem where
  /-- Where the directory at a place is. -/
  place : List String → Dir
  place_nil : place [] = slash
  shows : ∀ here name, sight root tree here = .directory →
    Shows (sight root tree (step here name)) (place (step here name)) (lookup (place here) name)

/-- What a walk found is what it was known to find. -/
def Found {Dir : Type} : Sight → Entry Dir → Prop
  | .outside, _ => True
  | .nothing, entry => entry = .absent
  | .file content, entry => entry = .file content
  | .directory, entry => ∃ dir, entry = .directory dir

/-- A walk from a known place finds what its path resolves to. -/
theorem Host.walk_found (host : Host root tree) (parts : List String) :
    ∀ {here : List String}, sight root tree here = .directory →
      Found (resolve root tree here parts) (host.walk (host.place here) parts) := by
  induction parts with
  | nil => exact fun _ => ⟨_, rfl⟩
  | cons name rest ih =>
      intro here known
      have shown := host.shows here name known
      rw [resolve, FileSystem.walk]
      cases seen : sight root tree (step here name) with
      | outside => trivial
      | nothing => rw [seen] at shown; rw [show host.lookup _ name = _ from shown]; rfl
      | file content =>
          rw [seen] at shown
          rw [show host.lookup _ name = _ from shown]
          dsimp only
          split
          · rfl
          · rfl
      | directory =>
          rw [seen] at shown
          rw [show host.lookup _ name = _ from shown]
          exact ih seen

/-! ## Surroundings -/

/-- The tree at its root, with one directory for each place, and around it
whatever `outside` puts there. -/
def surround (root : List String) (tree : Tree) (outside : List String → Entry (List String)) :
    Host root tree where
  Dir := List String
  slash := []
  cwd := []
  lookup here name :=
    match sight root tree (step here name) with
    | .outside => outside (step here name)
    | .nothing => .absent
    | .file content => .file content
    | .directory => .directory (step here name)
  place := id
  place_nil := rfl
  shows here name _ := by
    dsimp only [id]
    cases sight root tree (step here name) with
    | outside => trivial
    | nothing => rfl
    | file content => rfl
    | directory => rfl

/-- A path that leaves asks the host for one place first, and where that place
is refused the path is. -/
theorem exists_of_resolve_outside {parts : List String} :
    ∀ {here : List String}, resolve root tree here parts = .outside →
      ∃ asked, ∀ outside message, outside asked = .refused message →
        (surround root tree outside).walk here parts = .refused message := by
  induction parts with
  | nil => exact fun leaves => Sight.noConfusion leaves
  | cons name rest ih =>
      intro here leaves
      rw [resolve] at leaves
      cases seen : sight root tree (step here name) with
      | outside =>
          refine ⟨step here name, fun outside message shown => ?_⟩
          simp only [FileSystem.walk, surround, seen, shown]
      | nothing => rw [seen] at leaves; cases leaves
      | file content =>
          rw [seen] at leaves
          dsimp only at leaves
          split at leaves
          · cases leaves
          · cases leaves
      | directory =>
          rw [seen] at leaves
          obtain ⟨asked, first⟩ := ih leaves
          refine ⟨asked, fun outside message shown => ?_⟩
          simpa only [FileSystem.walk, surround, seen] using first outside message shown

/-- Around the tree nothing is refused unless something outside is. -/
theorem surround_searchable {outside : List String → Entry (List String)}
    (around : ∀ place message, outside place ≠ .refused message) :
    (surround root tree outside).Searchable := by
  intro here name message refused
  simp only [surround] at refused
  cases seen : sight root tree (step here name) with
  | outside => rw [seen] at refused; exact around _ _ refused
  | nothing => rw [seen] at refused; cases refused
  | file content => rw [seen] at refused; cases refused
  | directory => rw [seen] at refused; cases refused

end Posix
