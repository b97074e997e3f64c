import Plimsoll.Posix.FileSystem

/-!
A machine with symbolic links. A listing has files and links below a root; what
stands elsewhere is the machine's own, and so is what a directory refuses. A walk
follows the links it meets, until there have been too many.
-/

namespace Posix

open Python

/-! ## Listings -/

/-- What is stored at a place: the content of a file, the text of a link, or a directory
that stays empty. -/
inductive Blob where
  | file (content : List UInt8)
  | link (target : String)
  | hollow

/-- A name of an entry. -/
structure IsName (name : String) : Prop extends IsPart name where
  notParent : name ≠ ".."

instance (name : String) : Decidable (IsName name) :=
  decidable_of_iff (name ≠ "" ∧ name ≠ "." ∧ '/' ∉ name.toList ∧ name ≠ "..")
    ⟨fun ⟨nonempty, notDot, noSlash, notParent⟩ => ⟨⟨nonempty, notDot, noSlash⟩, notParent⟩,
      fun isName => ⟨isName.nonempty, isName.notDot, isName.noSlash, isName.notParent⟩⟩

/-- What is stored, by its places below a root; nothing is stored below anything else. -/
structure Listing where
  entries : List (List String × Blob)
  named : ∀ entry ∈ entries, entry.1 ≠ [] ∧ ∀ name ∈ entry.1, IsName name
  apart : ∀ entry ∈ entries, ∀ other ∈ entries, entry.1 <+: other.1 → entry.1 = other.1

/-- What stands at a place. -/
inductive Node where
  | absent
  | file (content : List UInt8)
  | link (target : String)
  | directory

def Blob.node : Blob → Node
  | .file content => .file content
  | .link target => .link target
  | .hollow => .directory

namespace Listing

variable (listing : Listing)

/-- The entry at a place. -/
def entryAt (place : List String) : Option (List String × Blob) :=
  listing.entries.find? fun entry => entry.1 = place

/-- A directory is there when something below it is. -/
def node (place : List String) : Node :=
  match listing.entryAt place with
  | some entry => entry.2.node
  | none =>
      if place = [] ∨ listing.entries.any (fun entry => place.isPrefixOf entry.1) then .directory
      else .absent

end Listing

/-! ## Machines -/

/-- A machine, but for what the listing says. -/
structure Machine where
  /-- What stands outside the listing's root. -/
  outside : List String → Node
  /-- The error for a name in a directory that is not about there being nothing:
  the name is too long, or the directory may not be searched. -/
  refuses : List String → String → Option String
  /-- The error for a path as a whole, which is too long. -/
  refusesPath : PurePath → Option String
  /-- How many links a walk may follow. -/
  linkLimit : Nat
  cwd : List String

/-- The places that a walk has looked at, and what it has come to. -/
structure Walk where
  asked : List (List String)
  found : Entry (List String)

/-- A walk that has looked at a place before. -/
def Walk.behind (place : List String) (walk : Walk) : Walk where
  asked := place :: walk.asked
  found := walk.found

namespace Machine

variable (machine : Machine) (root : List String) (listing : Listing)

/-- What stands at a place of the machine; its own directories lead to the root. -/
def node (place : List String) : Node :=
  if root.isPrefixOf place then listing.node (place.drop root.length)
  else if place.isPrefixOf root then .directory
  else machine.outside place

/-- The walk through the parts of a path from a directory. An empty part asks for
nothing; `follow` is how the walk goes on where a link leads. -/
def walkFrom (follow : List String → List String → Walk) (here : List String) :
    List String → Walk
  | [] => ⟨[], .directory here⟩
  | name :: rest =>
      if name = "" then walkFrom follow here rest
      else
        match machine.refuses here name with
        | some message => ⟨[], .refused message⟩
        | none =>
            if name = "." then walkFrom follow here rest
            else
              match machine.node root listing (step here name) with
              | .absent => ⟨[step here name], .absent⟩
              | .file content => ⟨[step here name], if rest = [] then .file content else .absent⟩
              | .directory => (walkFrom follow (step here name) rest).behind (step here name)
              | .link target =>
                  (follow (if startsWith target "/" then [] else here)
                    (split target '/' ++ rest)).behind (step here name)

/-- The walk through the parts of a path that may follow so many links. One link more
is an error that there is nothing. -/
def walk : Nat → List String → List String → Walk
  | 0 => machine.walkFrom root listing fun _ _ => ⟨[], .absent⟩
  | links + 1 => machine.walkFrom root listing (walk links)

/-- The walk along a path. -/
def follow (path : PurePath) : Walk :=
  match machine.refusesPath path with
  | some message => ⟨[], .refused message⟩
  | none =>
      machine.walk root listing machine.linkLimit
        (if path.root = .relative then machine.cwd else []) path.parts

end Machine

end Posix
