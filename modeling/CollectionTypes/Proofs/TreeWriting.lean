import CollectionTypes.Files.Output
import CollectionTypes.Proofs.Ancestors
import CollectionTypes.Proofs.TreeGrowth

/-!
# Writing to a tree

Making directories, one or many, adds directories that the path name or one of its ancestors leads
to, whether it succeeds or not. Writing an output file comes to one of three ends: the file has its
content already and nothing is done, it fails and at most directories are added, or the file is
written after that.
-/

namespace CollectionTypes

/-! ### Programs on a tree -/

namespace FileTree

variable {α β : Type}

theorem run_bind (x : StateM FileTree α) (f : α → StateM FileTree β) (t : FileTree) :
    (x >>= f) t = f (x t).1 (x t).2 := rfl

theorem run_readText (path : Text) (t : FileTree) :
    (FileSystem.readText path : StateM FileTree (Except FileError Text)) t =
      (t.readText path, t) := rfl

theorem run_writeText (path text : Text) (t : FileTree) :
    (FileSystem.writeText path text : StateM FileTree (Except FileError Unit)) t =
      match t.write path (.text text) with
      | .ok u => (.ok (), u)
      | .error e => (.error e, t) := rfl

end FileTree

open FileTree

/-- From whatever tree it starts, a program only adds directories that these path names lead to. -/
def AddsDirectories {α : Type} (paths : List Text) (x : StateM FileTree α) : Prop :=
  ∀ t, DirectoriesAdded paths t (x t).2

namespace AddsDirectories

variable {α β : Type} {paths : List Text}

theorem pure (paths : List Text) (a : α) : AddsDirectories paths (Pure.pure a) :=
  fun t => .refl paths t

theorem bind {x : StateM FileTree α} {f : α → StateM FileTree β} (hx : AddsDirectories paths x)
    (hf : ∀ a, AddsDirectories paths (f a)) : AddsDirectories paths (x >>= f) := by
  intro t
  exact (hx t).trans (hf (x t).1 (x t).2)

theorem mono {more : List Text} {x : StateM FileTree α} (h : AddsDirectories paths x)
    (hm : paths ⊆ more) : AddsDirectories more x :=
  fun t => (h t).mono hm

theorem isDirectory (path : Text) :
    AddsDirectories paths (FileSystem.isDirectory path : StateM FileTree Bool) :=
  fun t => .refl paths t

theorem makeDirectory (path : Text) :
    AddsDirectories [path]
      (FileSystem.makeDirectory path : StateM FileTree (Except FileError Unit)) := by
  intro t
  show DirectoriesAdded [path] t (change (FileTree.makeDirectory · path) t).2
  unfold change
  split
  next u h => exact directoriesAdded_of_makeDirectory h
  next => exact .refl _ t

theorem orPresent (path : Text) (result : Except FileError Unit) :
    AddsDirectories paths
      (FileSystem.orPresent path result : StateM FileTree (Except FileError Unit)) := by
  unfold FileSystem.orPresent
  split
  next => exact pure paths _
  next =>
    apply bind (isDirectory path)
    intro present
    split
    next => exact pure paths _
    next => exact pure paths _

theorem makeFirst (paths : List Text) :
    AddsDirectories paths
      (FileSystem.makeFirst paths : StateM FileTree (Except FileError Unit)) := by
  induction paths with
  | nil => exact pure [] _
  | cons path parents ih =>
    have first := (makeDirectory path).mono (List.cons_subset_cons path (List.nil_subset parents))
    have others := ih.mono (List.subset_cons_self path parents)
    unfold FileSystem.makeFirst
    split
    next => exact pure _ _
    next =>
      apply bind first
      intro result
      split
      next =>
        apply bind others
        intro made
        split
        next => exact pure _ _
        next =>
          apply bind first
          intro result
          exact orPresent path result
      next => exact orPresent path _

theorem makeParent (f : OutputFile) :
    AddsDirectories (Pathname.ancestors f.path)
      (f.makeParent : StateM FileTree (Except WriteError Unit)) := by
  unfold OutputFile.makeParent
  split
  next => exact pure _ _
  next parent h =>
    apply bind
    · apply (makeFirst (Pathname.ancestors parent)).mono
      rw [Pathname.ancestors_of_parent? h]
      exact List.subset_cons_self f.path _
    · intro result
      exact pure _ _

end AddsDirectories

/-! ### Output files -/

namespace OutputFile

/-- How writing a file to a tree ends. -/
inductive Ending (f : OutputFile) (t : FileTree) :
    Except WriteError WriteResult × FileTree → Prop
  | unchanged : t.readText f.path = .ok f.content → Ending f t (.ok .unchanged, t)
  | failed {e : WriteError} {u : FileTree} :
    DirectoriesAdded (Pathname.ancestors f.path) t u → Ending f t (.error e, u)
  | written {place : Place} {u v : FileTree} :
    DirectoriesAdded (Pathname.ancestors f.path) t u →
    FileWritten f.path (.text f.content) place u v → Ending f t (.ok .written, v)

theorem replace_run (f : OutputFile) (t : FileTree) :
    (f.replace : StateM FileTree (Except WriteError WriteResult)) t =
      match (f.makeParent : StateM FileTree (Except WriteError Unit)) t with
      | (.error e, u) => (.error e, u)
      | (.ok (), u) =>
        match u.write f.path (.text f.content) with
        | .error e => (.error (.file f.path e), u)
        | .ok v => (.ok .written, v) := by
  unfold replace
  rw [run_bind]
  obtain ⟨made, u⟩ := (f.makeParent : StateM FileTree (Except WriteError Unit)) t
  cases made with
  | error e => rfl
  | ok _ =>
    dsimp only
    rw [run_bind, run_writeText]
    cases u.write f.path (.text f.content) <;> rfl

theorem write_run (f : OutputFile) (t : FileTree) :
    (f.write : StateM FileTree (Except WriteError WriteResult)) t =
      if t.readText f.path = .ok f.content then (.ok .unchanged, t)
      else (f.replace : StateM FileTree (Except WriteError WriteResult)) t := by
  unfold write
  rw [run_bind, run_readText]
  dsimp only
  cases t.readText f.path with
  | error e => simp
  | ok text =>
    by_cases h : text = f.content
    · simp only [h, if_true]
      rfl
    · simp [h]

theorem ending_replace (f : OutputFile) (t : FileTree) :
    Ending f t ((f.replace : StateM FileTree (Except WriteError WriteResult)) t) := by
  have grown := AddsDirectories.makeParent f t
  rw [replace_run]
  generalize (f.makeParent : StateM FileTree (Except WriteError Unit)) t = made at grown ⊢
  obtain ⟨result, u⟩ := made
  cases result with
  | error e => exact .failed grown
  | ok _ =>
    dsimp only
    cases hw : u.write f.path (.text f.content) with
    | error e => exact .failed grown
    | ok v =>
      obtain ⟨place, hp⟩ := fileWritten_of_write hw
      exact .written grown hp

theorem ending_write (f : OutputFile) (t : FileTree) :
    Ending f t ((f.write : StateM FileTree (Except WriteError WriteResult)) t) := by
  rw [write_run]
  split
  next h => exact .unchanged h
  next => exact ending_replace f t

end OutputFile
end CollectionTypes
