import CollectionTypes.Proofs.FileWriting

/-!
# Trees of one shape

Two trees have the same shape if they have directories at the same places and files at the same
places, whatever these hold. Path names lead to the same places in both, or go wrong in the same
way. Making directories and writing a file do not look at what files hold, so they come to the same
in both trees and leave trees of one shape. Writing an output file looks at one file only, the one
that it writes.
-/

namespace CollectionTypes

namespace FileTree

structure SameShape (t u : FileTree) : Prop where
  directory_iff : ∀ place, u.node? place = some .directory ↔ t.node? place = some .directory
  none_iff : ∀ place, u.node? place = none ↔ t.node? place = none

variable {t u : FileTree}

theorem walk_of_none {d : t.Directory} {step : Text} (steps : List Text)
    (hs : step ≠ Pathname.above) (h : t.node? (d.val ++ [step]) = none) :
    t.walk d (step :: steps) = .error .notFound := by
  rw [walk, if_neg hs]
  split
  next => rfl
  next hn =>
    rw [h] at hn
    simp at hn
  next hn =>
    rw [h] at hn
    simp at hn

theorem walk_of_file {d : t.Directory} {step : Text} {content : FileContent} (steps : List Text)
    (hs : step ≠ Pathname.above) (h : t.node? (d.val ++ [step]) = some (.file content)) :
    t.walk d (step :: steps) = .error .notDirectory := by
  rw [walk, if_neg hs]
  split
  next hn =>
    rw [h] at hn
    simp at hn
  next => rfl
  next hn =>
    rw [h] at hn
    simp at hn

namespace SameShape

theorem symm (h : SameShape t u) : SameShape u t where
  directory_iff := fun place => (h.directory_iff place).symm
  none_iff := fun place => (h.none_iff place).symm

theorem keepsDirectories (h : SameShape t u) : KeepsDirectories t u :=
  fun place => (h.directory_iff place).2

theorem exists_file (h : SameShape t u) {place : Place} {content : FileContent}
    (hn : t.node? place = some (.file content)) :
    ∃ other, u.node? place = some (.file other) := by
  cases hu : u.node? place with
  | none =>
    rw [h.none_iff, hn] at hu
    exact absurd hu nofun
  | some node =>
    cases node with
    | directory =>
      rw [h.directory_iff, hn] at hu
      exact absurd hu nofun
    | file other => exact ⟨other, rfl⟩

/-! ### Path names -/

theorem walk_eq (h : SameShape t u) (d : t.Directory) (steps : List Text) :
    u.walk (d.kept h.keepsDirectories) steps =
      (t.walk d steps).map (Directory.kept · h.keepsDirectories) := by
  induction steps generalizing d with
  | nil => rfl
  | cons step steps ih =>
    by_cases hs : step = Pathname.above
    · subst hs
      rw [walk_above, walk_above]
      exact ih d.above
    · cases ht : t.node? (d.val ++ [step]) with
      | none =>
        have hu : u.node? ((d.kept h.keepsDirectories).val ++ [step]) = none :=
          (h.none_iff _).2 ht
        rw [walk_of_none steps hs ht, walk_of_none steps hs hu]
        rfl
      | some node =>
        cases node with
        | directory =>
          have hu : u.node? ((d.kept h.keepsDirectories).val ++ [step]) = some .directory :=
            h.keepsDirectories _ ht
          rw [walk_name steps hs ht, walk_name steps hs hu]
          exact ih ⟨d.val ++ [step], ht⟩
        | file content =>
          obtain ⟨other, hu⟩ := h.exists_file ht
          have hu : u.node? ((d.kept h.keepsDirectories).val ++ [step]) = some (.file other) := hu
          rw [walk_of_file steps hs ht, walk_of_file steps hs hu]
          rfl

theorem spot_eq (h : SameShape t u) (path : Text) :
    u.spot path = (t.spot path).map (Spot.kept h.keepsDirectories) := by
  unfold spot
  split
  next => rfl
  next =>
    have start := h.walk_eq .root (Route.ofText path).steps
    change u.walk .root _ = _ at start
    dsimp only
    rw [start]
    cases t.walk .root (Route.ofText path).steps with
    | error e => rfl
    | ok d =>
      dsimp only [Except.map]
      cases (Route.ofText path).name <;> rfl

theorem place?_eq (h : SameShape t u) (path : Text) : u.place? path = t.place? path := by
  unfold place?
  rw [h.spot_eq path]
  cases t.spot path with
  | error e => rfl
  | ok s => exact congrArg some (s.place_kept h.keepsDirectories)

/-! ### Operations -/

/-- The same error, or trees of one shape. -/
inductive Ending : Except FileError FileTree → Except FileError FileTree → Prop
  | error (e : FileError) : Ending (.error e) (.error e)
  | ok {t u : FileTree} (h : SameShape t u) : Ending (.ok t) (.ok u)

theorem put (h : SameShape t u) {d : t.Directory} {e : u.Directory} (he : e.val = d.val)
    {name : Text} {node other : FileNode} (same : other = .directory ↔ node = .directory)
    (hd : t.node? (d.val ++ [name]) ≠ some .directory)
    (hu : u.node? (e.val ++ [name]) ≠ some .directory) :
    SameShape (t.put d name node hd) (u.put e name other hu) where
  directory_iff := by
    intro place
    rw [node?_put, node?_put, he]
    split
    next => rw [Option.some.injEq, Option.some.injEq, same]
    next => exact h.directory_iff place
  none_iff := by
    intro place
    rw [node?_put, node?_put, he]
    split
    next => simp
    next => exact h.none_iff place

theorem makeDirectory (h : SameShape t u) (path : Text) :
    Ending (t.makeDirectory path) (u.makeDirectory path) := by
  unfold FileTree.makeDirectory
  rw [h.spot_eq path]
  cases t.spot path with
  | error e => exact .error e
  | ok s =>
    cases s with
    | directory d => exact .error .alreadyExists
    | entry d name endsWithSlash =>
      dsimp only [Except.map, Spot.kept]
      by_cases hn : t.node? (d.val ++ [name]) = none
      · have hu : u.node? ((d.kept h.keepsDirectories).val ++ [name]) = none :=
          (h.none_iff _).2 hn
        rw [dif_pos hn, dif_pos hu]
        exact .ok (h.put rfl Iff.rfl _ _)
      · have hu : ¬ u.node? ((d.kept h.keepsDirectories).val ++ [name]) = none :=
          fun hu => hn ((h.none_iff _).1 hu)
        rw [dif_neg hn, dif_neg hu]
        exact .error .alreadyExists

theorem write (h : SameShape t u) (path : Text) (content : FileContent) :
    Ending (t.write path content) (u.write path content) := by
  unfold FileTree.write
  rw [h.spot_eq path]
  cases t.spot path with
  | error e => exact .error e
  | ok s =>
    cases s with
    | directory d => exact .error .isDirectory
    | entry d name endsWithSlash =>
      dsimp only [Except.map, Spot.kept]
      have same : (endsWithSlash = true ∨
            u.node? ((d.kept h.keepsDirectories).val ++ [name]) = some .directory) ↔
          (endsWithSlash = true ∨ t.node? (d.val ++ [name]) = some .directory) :=
        or_congr Iff.rfl (h.directory_iff _)
      by_cases hn : endsWithSlash = true ∨ t.node? (d.val ++ [name]) = some .directory
      · rw [dif_pos hn, dif_pos (same.2 hn)]
        exact .error .isDirectory
      · rw [dif_neg hn, dif_neg fun hu => hn (same.1 hu)]
        exact .ok (h.put rfl Iff.rfl _ _)

theorem isDirectory_eq (h : SameShape t u) (path : Text) :
    u.isDirectory path = t.isDirectory path := by
  unfold isDirectory find
  rw [h.spot_eq path]
  cases t.spot path with
  | error e => rfl
  | ok s =>
    cases s with
    | directory d => rfl
    | entry d name endsWithSlash =>
      dsimp only [Except.map, Spot.kept]
      have place : (d.kept h.keepsDirectories).val ++ [name] = d.val ++ [name] := rfl
      rw [place]
      cases ht : t.node? (d.val ++ [name]) with
      | none => rw [(h.none_iff _).2 ht]
      | some node =>
        cases node with
        | directory => rw [h.keepsDirectories _ ht]
        | file content =>
          obtain ⟨other, hu⟩ := h.exists_file ht
          rw [hu]
          cases endsWithSlash <;> rfl

end SameShape

/-! ### Programs -/

/-- In trees of one shape the program has one result, and it leaves them in one shape. -/
def DependsOnShape {α : Type} (x : StateM FileTree α) : Prop :=
  ∀ t u, SameShape t u → (x u).1 = (x t).1 ∧ SameShape (x t).2 (x u).2

namespace DependsOnShape

variable {α β : Type}

theorem pure (a : α) : DependsOnShape (Pure.pure a) := fun _ _ h => ⟨rfl, h⟩

theorem bind {x : StateM FileTree α} {f : α → StateM FileTree β} (hx : DependsOnShape x)
    (hf : ∀ a, DependsOnShape (f a)) : DependsOnShape (x >>= f) := by
  intro t u h
  obtain ⟨same, shape⟩ := hx t u h
  rw [run_bind, run_bind, same]
  exact hf (x t).1 _ _ shape

theorem change {operation : FileTree → Except FileError FileTree}
    (h : ∀ t u, SameShape t u → SameShape.Ending (operation t) (operation u)) :
    DependsOnShape (FileTree.change operation) := by
  intro t u shape
  have ending := h t u shape
  unfold FileTree.change
  generalize operation t = x at ending ⊢
  generalize operation u = y at ending ⊢
  cases ending with
  | error e => exact ⟨rfl, shape⟩
  | ok made => exact ⟨rfl, made⟩

theorem makeDirectory (path : Text) :
    DependsOnShape (FileSystem.makeDirectory path : StateM FileTree (Except FileError Unit)) :=
  change fun _ _ h => h.makeDirectory path

theorem writeText (path text : Text) :
    DependsOnShape
      (FileSystem.writeText path text : StateM FileTree (Except FileError Unit)) :=
  change fun _ _ h => h.write path (.text text)

theorem isDirectory (path : Text) :
    DependsOnShape (FileSystem.isDirectory path : StateM FileTree Bool) :=
  fun _ _ h => ⟨h.isDirectory_eq path, h⟩

theorem orPresent (path : Text) (result : Except FileError Unit) :
    DependsOnShape
      (FileSystem.orPresent path result : StateM FileTree (Except FileError Unit)) := by
  unfold FileSystem.orPresent
  split
  next => exact pure _
  next =>
    apply bind (isDirectory path)
    intro present
    split
    next => exact pure _
    next => exact pure _

theorem makeFirst (paths : List Text) :
    DependsOnShape
      (FileSystem.makeFirst paths : StateM FileTree (Except FileError Unit)) := by
  induction paths with
  | nil => exact pure _
  | cons path parents ih =>
    unfold FileSystem.makeFirst
    split
    next => exact pure _
    next =>
      apply bind (makeDirectory path)
      intro result
      split
      next =>
        apply bind ih
        intro made
        split
        next => exact pure _
        next =>
          apply bind (makeDirectory path)
          intro again
          exact orPresent path again
      next => exact orPresent path _

theorem makeParent (f : OutputFile) :
    DependsOnShape (f.makeParent : StateM FileTree (Except WriteError Unit)) := by
  unfold OutputFile.makeParent
  split
  next => exact pure _
  next parent _ =>
    apply bind (makeFirst (Pathname.ancestors parent))
    intro result
    exact pure _

theorem replace (f : OutputFile) :
    DependsOnShape (f.replace : StateM FileTree (Except WriteError WriteResult)) := by
  unfold OutputFile.replace
  apply bind (makeParent f)
  intro made
  split
  next => exact pure _
  next =>
    apply bind (writeText f.path f.content)
    intro written
    split
    next => exact pure _
    next => exact pure _

end DependsOnShape
end FileTree

open FileTree

/-- Whether the file has its content already is all that writing it looks at besides the shape. -/
theorem OutputFile.writeOn_fst_eq {f : OutputFile} {t u : FileTree} (h : SameShape t u)
    (held : u.readText f.path = .ok f.content ↔ t.readText f.path = .ok f.content) :
    (f.writeOn u).1 = (f.writeOn t).1 := by
  unfold writeOn
  rw [write_run, write_run]
  by_cases ht : t.readText f.path = .ok f.content
  · rw [if_pos ht, if_pos (held.2 ht)]
  · rw [if_neg ht, if_neg fun hu => ht (held.1 hu)]
    exact (DependsOnShape.replace f t u h).1

/-! ### Places of files -/

namespace FileTree

/-- Two path names lead to one place. -/
def SamePlace (t : FileTree) (path other : Text) : Prop :=
  ∃ place, t.place? path = some place ∧ t.place? other = some place

theorem node?_of_find {t : FileTree} {path : Text} {place : Place} {content : FileContent}
    (h : t.find path = .ok (.file content)) (hp : t.place? path = some place) :
    t.node? place = some (.file content) := by
  obtain ⟨s, hs, rfl⟩ := place?_eq_some_iff.1 hp
  cases s with
  | directory d =>
    rw [find_of_directory hs] at h
    exact absurd h nofun
  | entry d name endsWithSlash =>
    rw [find_of_entry hs] at h
    change t.node? (d.val ++ [name]) = _
    cases hn : t.node? (d.val ++ [name]) with
    | none =>
      rw [hn] at h
      exact absurd h nofun
    | some node =>
      rw [hn] at h
      cases node with
      | directory => exact absurd h nofun
      | file other =>
        cases endsWithSlash with
        | true => exact absurd h nofun
        | false => exact congrArg some (Except.ok.inj h)

/-! ### Trees that differ in one file -/

/-- The trees have one shape, and hold the same but for the place that `path` leads to. -/
structure DifferAt (path : Text) (t u : FileTree) : Prop where
  shape : SameShape t u
  node?_eq : ∀ place, t.place? path ≠ some place → u.node? place = t.node? place

namespace DifferAt

variable {t u : FileTree} {path : Text}

theorem symm (h : DifferAt path t u) : DifferAt path u t where
  shape := h.shape.symm
  node?_eq := by
    intro place hp
    rw [h.shape.place?_eq] at hp
    exact (h.node?_eq place hp).symm

theorem find_eq (h : DifferAt path t u) {other : Text} {place : Place}
    (hp : t.place? other = some place) (elsewhere : t.place? path ≠ some place) :
    u.find other = t.find other :=
  find_kept h.shape.keepsDirectories hp (h.node?_eq place elsewhere)

theorem readText_eq (h : DifferAt path t u) {other : Text}
    (elsewhere : ∀ place, t.place? other = some place → t.place? path ≠ some place) :
    u.readText other = t.readText other := by
  have same : u.find other = t.find other := by
    cases hp : t.place? other with
    | some place => exact h.find_eq hp (elsewhere place hp)
    | none =>
      have nowhere := hp
      unfold place? at nowhere
      cases hs : t.spot other with
      | ok s =>
        rw [hs] at nowhere
        exact absurd nowhere nofun
      | error e =>
        unfold find
        rw [h.shape.spot_eq, hs]
        rfl
  unfold readText
  rw [same]

/-- Trees that differ in the content of one file. -/
theorem put {d : t.Directory} {name : Text} (hd : t.node? (d.val ++ [name]) ≠ some .directory)
    (content other : FileContent)
    (leads : (t.put d name (.file content) hd).place? path = some (d.val ++ [name])) :
    DifferAt path (t.put d name (.file content) hd) (t.put d name (.file other) hd) where
  shape := SameShape.put ⟨fun _ => Iff.rfl, fun _ => Iff.rfl⟩ rfl (by simp) hd hd
  node?_eq := by
    intro place hp
    have elsewhere : place ≠ d.val ++ [name] := by
      rintro rfl
      exact hp leads
    rw [node?_put, node?_put, if_neg elsewhere, if_neg elsewhere]

end DifferAt
end FileTree
end CollectionTypes
