import Plimsoll.Python.Text
import Mathlib.Data.List.Infix

/-!
`pathlib.PurePosixPath`: a root and the parts below it. Reading a text drops
empty parts and `.`, and leaves `..` alone; joining an absolute text replaces
the whole path.
-/

namespace Python

/-- What a path starts from: the working directory, `/`, or the `//` that POSIX
sets apart. -/
inductive PathRoot where
  | relative
  | slash
  | doubleSlash
deriving DecidableEq, Repr

/-- A part of a path is not empty, not `.`, and holds no separator. -/
structure IsPart (part : String) : Prop where
  nonempty : part ≠ ""
  notDot : part ≠ "."
  noSlash : '/' ∉ part.toList

/-- A `PurePosixPath`. -/
@[ext]
structure PurePath where
  root : PathRoot
  parts : List String
  isPart : ∀ part ∈ parts, IsPart part
deriving DecidableEq

namespace PurePath

/-- The parts of a text behind its root. -/
def partsOf (s : String) : List String :=
  (split s '/').filter fun part => part ≠ "" && part ≠ "."

theorem slash_not_mem_of_split {s part : String} (member : part ∈ split s '/') :
    '/' ∉ part.toList := by
  rw [split, List.mem_map] at member
  obtain ⟨cs, inParts, rfl⟩ := member
  rw [String.toList_ofList]
  exact sep_not_mem_of_mem_splitOn inParts

theorem isPart_of_mem_partsOf {s part : String} (member : part ∈ partsOf s) : IsPart part := by
  rw [partsOf, List.mem_filter, Bool.and_eq_true, decide_eq_true_eq, decide_eq_true_eq] at member
  exact ⟨member.2.1, member.2.2, slash_not_mem_of_split member.1⟩

/-- `posixpath.splitroot`, the root. -/
def rootOf (s : String) : PathRoot :=
  match s.toList with
  | '/' :: '/' :: '/' :: _ => .slash
  | '/' :: '/' :: _ => .doubleSlash
  | '/' :: _ => .slash
  | _ => .relative

/-- `PurePosixPath(s)`. -/
def ofString (s : String) : PurePath := ⟨rootOf s, partsOf s, fun _ => isPart_of_mem_partsOf⟩

/-- `path / key`. -/
def join (path : PurePath) (key : String) : PurePath :=
  if startsWith key "/" then ofString key
  else
    { root := path.root
      parts := path.parts ++ partsOf key
      isPart := fun part member =>
        (List.mem_append.mp member).elim (path.isPart part) isPart_of_mem_partsOf }

/-- `path.parent`. -/
def parent (path : PurePath) : PurePath where
  root := path.root
  parts := path.parts.dropLast
  isPart part member := path.isPart part (List.mem_of_mem_dropLast member)

/-- `path.name`. -/
def name (path : PurePath) : String := path.parts.getLast?.getD ""

/-- `path.parents`, nearest first. -/
def parents (path : PurePath) : List PurePath :=
  (List.range path.parts.length).map fun n =>
    { root := path.root
      parts := path.parts.take (path.parts.length - 1 - n)
      isPart := fun part member => path.isPart part (List.mem_of_mem_take member) }

theorem rootOf_ne_relative {s : String} (absolute : startsWith s "/" = true) :
    rootOf s ≠ .relative := by
  obtain ⟨rest, text⟩ := List.isPrefixOf_iff_prefix.mp absolute
  unfold rootOf
  split
  · exact PathRoot.noConfusion
  · exact PathRoot.noConfusion
  · exact PathRoot.noConfusion
  · rename_i noSlash
    exact absurd text.symm (noSlash rest)

theorem rootOf_eq_relative {s : String} (relative : startsWith s "/" = false) :
    rootOf s = .relative := by
  have noSlash : ∀ rest, s.toList ≠ '/' :: rest := by
    intro rest text
    rw [startsWith, text] at relative
    cases relative
  unfold rootOf
  split
  · rename_i text
    exact absurd text (noSlash _)
  · rename_i text
    exact absurd text (noSlash _)
  · rename_i text
    exact absurd text (noSlash _)
  · rfl

theorem join_ne_relative {path : PurePath} {key : String} (absolute : path.root ≠ .relative) :
    (path.join key).root ≠ .relative := by
  unfold join
  split
  · rename_i keyAbsolute
    exact rootOf_ne_relative keyAbsolute
  · exact absolute

/-- The text of a root. -/
def rootText : PathRoot → String
  | .relative => ""
  | .slash => "/"
  | .doubleSlash => "//"

/-- `path.as_posix()`, which is `str(path)`. -/
def asPosix (path : PurePath) : String :=
  let text := rootText path.root ++ Python.join "/" path.parts
  if text = "" then "." else text

/-! ## Below a root -/

/-- A path below a root, reached by names only. -/
def Descendant (root path : PurePath) : Prop :=
  path.root = root.root ∧ ∃ rest, path.parts = root.parts ++ rest ∧ ".." ∉ rest

theorem join_of_relative {path : PurePath} {key : String} (relative : startsWith key "/" = false) :
    (path.join key).root = path.root ∧ (path.join key).parts = path.parts ++ partsOf key := by
  unfold join
  rw [relative]
  exact ⟨rfl, rfl⟩

/-- A part is a path of one part. -/
theorem partsOf_eq_self {part : String} (isPart : IsPart part) : partsOf part = [part] := by
  rw [partsOf, split_eq_self isPart.noSlash]
  simp [isPart.nonempty, isPart.notDot]

/-- From a directory a part leads one step down. -/
theorem parts_join_of_isPart {path : PurePath} {part : String} (isPart : IsPart part) :
    (path.join part).parts = path.parts ++ [part] := by
  have relative : startsWith part "/" = false := by
    refine Bool.eq_false_iff.mpr fun absolute => isPart.noSlash ?_
    exact (startsWith_iff.mp absolute).subset (by decide)
  rw [(join_of_relative relative).2, partsOf_eq_self isPart]

theorem not_mem_partsOf {s : String} (noParent : ".." ∉ split s '/') : ".." ∉ partsOf s :=
  fun member => noParent (List.mem_filter.mp member).1

theorem descendant_join {root : PurePath} {key : String} (relative : startsWith key "/" = false)
    (noParent : ".." ∉ split key '/') : Descendant root (root.join key) :=
  ⟨(join_of_relative relative).1, _, (join_of_relative relative).2, not_mem_partsOf noParent⟩

theorem Descendant.join {root path : PurePath} {key : String} (below : Descendant root path)
    (relative : startsWith key "/" = false) (noParent : ".." ∉ split key '/') :
    Descendant root (path.join key) := by
  obtain ⟨sameRoot, rest, parts, down⟩ := below
  obtain ⟨joinRoot, joinParts⟩ := join_of_relative relative
  refine ⟨joinRoot.trans sameRoot, rest ++ partsOf key, ?_, fun member => ?_⟩
  · rw [joinParts, parts, List.append_assoc]
  · rcases List.mem_append.mp member with inRest | inKey
    · exact down inRest
    · exact not_mem_partsOf noParent inKey

/-- The parent of a path below a root that is not the root is below it too. -/
theorem Descendant.parent {root path : PurePath} (below : Descendant root path) (ne : path ≠ root) :
    Descendant root path.parent := by
  obtain ⟨sameRoot, rest, parts, down⟩ := below
  have nonempty : rest ≠ [] := by
    intro empty
    rw [empty, List.append_nil] at parts
    exact ne (PurePath.ext sameRoot parts)
  refine ⟨sameRoot, rest.dropLast, ?_, fun member => down (List.mem_of_mem_dropLast member)⟩
  change path.parts.dropLast = _
  rw [parts, List.dropLast_append_of_ne_nil nonempty]

end PurePath

end Python
