import Plimsoll.Verify.Worktree

/-!
The plan's file, from the commit's point of view. A plan path that is relative and
has no `..` leads to the same file of the commit wherever the commit is checked out,
and every host reads it alike.
-/

namespace Plimsoll.Verify

open Python Posix

/-- The file that a plan path names among those of a commit. -/
def planBytes (listing : List (String × Tree)) (planPath : String) : Option (List UInt8) :=
  if (PurePath.partsOf planPath).any fun part => part.toList.contains '\x00' then none
  else
    match resolve [] (.directory listing) [] (PurePath.partsOf planPath) with
    | .file content => some content
    | _ => none

/-! ## The place of a checkout -/

/-- Below the root of a tree a path resolves alike wherever the root is. -/
theorem resolve_below (root : List String) (tree : Tree) {parts : List String} :
    ∀ place : List String, ".." ∉ parts →
      resolve root tree (root ++ place) parts = resolve [] tree place parts := by
  induction parts with
  | nil => exact fun _ _ => rfl
  | cons name rest ih =>
      intro place down
      have plain : name ≠ ".." := fun same => down (same ▸ List.mem_cons_self)
      have later : ".." ∉ rest := fun member => down (List.mem_cons_of_mem _ member)
      have there : step (root ++ place) name = root ++ (place ++ [name]) := by
        rw [step, if_neg plain, List.append_assoc]
      have here : step place name = place ++ [name] := if_neg plain
      rw [resolve, resolve, there, here, sight_append, sight, ih _ later]

section

variable {rt : Runtime} {worktree : Worktree} {planPath : String}

theorem resolve_plan (relative : startsWith planPath "/" = false)
    (noParent : ".." ∉ split planPath '/') :
    worktree.resolve (worktree.root.join planPath) =
      resolve [] (.directory worktree.listing) [] (PurePath.partsOf planPath) := by
  obtain ⟨sameRoot, parts⟩ := PurePath.join_of_relative relative
  have down := PurePath.not_mem_partsOf noParent
  have below := resolve_below worktree.root.parts (.directory worktree.listing) [] down
  rw [List.append_nil] at below
  rw [Worktree.resolve, sameRoot, worktree.absolute, if_neg PathRoot.noConfusion, parts,
    Worktree.tree, resolve_root worktree.listing _ (List.nil_append _) worktree.canonical, below]

theorem hasNull_plan (plainRoot : hasNull worktree.root = false)
    (relative : startsWith planPath "/" = false) :
    hasNull (worktree.root.join planPath) =
      (PurePath.partsOf planPath).any fun part => part.toList.contains '\x00' := by
  unfold hasNull at plainRoot ⊢
  rw [(PurePath.join_of_relative relative).2, List.any_append, plainRoot, Bool.false_or]

/-! ## What a host says of it -/

variable (host : Host worktree.root.parts worktree.tree)

/-- A plan that the commit has is a file, and reads as the commit has it. -/
theorem view_of_planBytes {content : List UInt8} (plainRoot : hasNull worktree.root = false)
    (relative : startsWith planPath "/" = false) (noParent : ".." ∉ split planPath '/')
    (there : planBytes worktree.listing planPath = some content) :
    (view rt host.toFileSystem).isFile (worktree.root.join planPath) = .ok true ∧
      (view rt host.toFileSystem).readBytes (worktree.root.join planPath) = .ok content := by
  have found := find_found (worktree.root.join planPath) host
  rw [resolve_plan relative noParent] at found
  unfold planBytes at there
  rw [← hasNull_plan plainRoot relative] at there
  split at there
  · cases there
  · rename_i noNull
    split at there
    · rename_i same seen
      cases there
      rw [seen] at found
      unfold view viewOf
      dsimp only
      rw [if_neg noNull, if_neg noNull, show host.find _ = _ from found]
      exact ⟨rfl, rfl⟩
    · cases there

/-- A plan that the commit does not have is no file, and cannot be read. -/
theorem view_of_no_planBytes (plainRoot : hasNull worktree.root = false)
    (relative : startsWith planPath "/" = false) (noParent : ".." ∉ split planPath '/')
    (absent : planBytes worktree.listing planPath = none) :
    (view rt host.toFileSystem).isFile (worktree.root.join planPath) = .ok false ∧
      ∃ exc, (view rt host.toFileSystem).readBytes (worktree.root.join planPath) = .error exc ∧
        ((∃ message, exc = .osError message) ∨ exc = .valueError) := by
  have found := find_found (worktree.root.join planPath) host
  have inside : worktree.resolve (worktree.root.join planPath) ≠ .outside := by
    have below := resolve_inside [] (.directory worktree.listing) []
      (PurePath.not_mem_partsOf noParent)
    rwa [resolve_plan relative noParent]
  rw [resolve_plan relative noParent] at found inside
  unfold planBytes at absent
  rw [← hasNull_plan plainRoot relative] at absent
  unfold view viewOf
  dsimp only
  by_cases null : hasNull (worktree.root.join planPath) = true
  · rw [if_pos null, if_pos null]
    exact ⟨rfl, _, rfl, Or.inr rfl⟩
  · rw [if_neg null] at absent
    rw [if_neg null, if_neg null]
    split at absent
    · cases absent
    · rename_i notFile
      cases seen : resolve [] (.directory worktree.listing) [] (PurePath.partsOf planPath) with
      | outside => exact absurd seen inside
      | file content => exact absurd seen (notFile content)
      | nothing =>
          rw [seen] at found
          rw [show host.find _ = _ from found]
          exact ⟨rfl, _, rfl, Or.inl ⟨_, rfl⟩⟩
      | directory =>
          rw [seen] at found
          obtain ⟨dir, found⟩ := found
          rw [found]
          exact ⟨rfl, _, rfl, Or.inl ⟨_, rfl⟩⟩

end

end Plimsoll.Verify
