import CollectionTypes.Files.Tree

/-!
# Changes of a tree

A path name that can be followed in a tree leads to the same place in every tree that keeps its
directories. What it holds there is then a matter of that place alone. `DirectoriesAdded` describes
what making directories does: it keeps all that is held, and adds directories at places that listed
path names lead to. `FileWritten` describes what writing a file does, which changes one place.
-/

namespace CollectionTypes.FileTree

variable {t u v : FileTree}

/-! ### Places -/

def Spot.place : t.Spot → Place
  | .directory d => d.val
  | .entry d name _ => d.val ++ [name]

/-- The place that a path name leads to, where something may be or not. -/
def place? (t : FileTree) (path : Text) : Option Place :=
  match t.spot path with
  | .ok s => some s.place
  | .error _ => none

theorem place?_eq_some_iff {path : Text} {place : Place} :
    t.place? path = some place ↔ ∃ s, t.spot path = .ok s ∧ s.place = place := by
  unfold place?
  cases t.spot path with
  | error e => simp
  | ok s => simp

/-! ### Trees that keep their directories -/

/-- Every directory of one tree is a directory of the other. -/
def KeepsDirectories (t u : FileTree) : Prop :=
  ∀ place, t.node? place = some .directory → u.node? place = some .directory

def Directory.kept (d : t.Directory) (h : KeepsDirectories t u) : u.Directory :=
  ⟨d.val, h d.val d.property⟩

def Spot.kept (h : KeepsDirectories t u) : t.Spot → u.Spot
  | .directory d => .directory (d.kept h)
  | .entry d name endsWithSlash => .entry (d.kept h) name endsWithSlash

theorem Spot.place_kept (h : KeepsDirectories t u) (s : t.Spot) : (s.kept h).place = s.place := by
  cases s <;> rfl

theorem walk_above (d : t.Directory) (steps : List Text) :
    t.walk d (Pathname.above :: steps) = t.walk d.above steps := by
  rw [walk, if_pos rfl]

theorem walk_name {d : t.Directory} {step : Text} (steps : List Text) (hs : step ≠ Pathname.above)
    (h : t.node? (d.val ++ [step]) = some .directory) :
    t.walk d (step :: steps) = t.walk ⟨d.val ++ [step], h⟩ steps := by
  rw [walk, if_neg hs]
  split
  next hn =>
    rw [h] at hn
    simp at hn
  next hn =>
    rw [h] at hn
    simp at hn
  next => rfl

theorem node?_of_walk_name {d e : t.Directory} {step : Text} {steps : List Text}
    (hs : step ≠ Pathname.above) (hw : t.walk d (step :: steps) = .ok e) :
    t.node? (d.val ++ [step]) = some .directory := by
  rw [walk, if_neg hs] at hw
  split at hw
  next => simp at hw
  next => simp at hw
  next h => exact h

/-- A way through a tree leads through every tree that keeps its directories. -/
theorem walk_kept (h : KeepsDirectories t u) {d e : t.Directory} {steps : List Text}
    (hw : t.walk d steps = .ok e) : u.walk (d.kept h) steps = .ok (e.kept h) := by
  induction steps generalizing d with
  | nil =>
    rw [walk, Except.ok.injEq] at hw
    rw [walk, hw]
  | cons step steps ih =>
    by_cases hs : step = Pathname.above
    · subst hs
      rw [walk_above] at hw ⊢
      exact ih hw
    · have hd := node?_of_walk_name hs hw
      rw [walk_name steps hs hd] at hw
      have hu : u.node? ((d.kept h).val ++ [step]) = some .directory := h _ hd
      rw [walk_name steps hs hu]
      exact ih hw

theorem spot_kept (h : KeepsDirectories t u) {path : Text} {s : t.Spot}
    (hs : t.spot path = .ok s) : u.spot path = .ok (s.kept h) := by
  unfold spot at hs ⊢
  dsimp only at hs ⊢
  split at hs
  next => simp at hs
  next hp =>
    rw [if_neg hp]
    split at hs
    next => simp at hs
    next d hd =>
      have hu := walk_kept h hd
      change u.walk .root _ = _ at hu
      rw [hu]
      split at hs
      next =>
        rw [← Except.ok.inj hs]
        rfl
      next =>
        rw [← Except.ok.inj hs]
        rfl

theorem place?_kept (h : KeepsDirectories t u) {path : Text} {place : Place}
    (hp : t.place? path = some place) : u.place? path = some place := by
  obtain ⟨s, hs, rfl⟩ := place?_eq_some_iff.1 hp
  exact place?_eq_some_iff.2 ⟨s.kept h, spot_kept h hs, s.place_kept h⟩

/-- What the last name of a path gives, by what is at its place. -/
def found (endsWithSlash : Bool) : Option FileNode → Except FileError FileNode
  | none => .error .notFound
  | some .directory => .ok .directory
  | some (.file content) => if endsWithSlash then .error .notDirectory else .ok (.file content)

theorem find_of_directory {path : Text} {d : t.Directory} (h : t.spot path = .ok (.directory d)) :
    t.find path = .ok .directory := by
  unfold find
  rw [h]

theorem find_of_entry {path name : Text} {d : t.Directory} {endsWithSlash : Bool}
    (h : t.spot path = .ok (.entry d name endsWithSlash)) :
    t.find path = found endsWithSlash (t.node? (d.val ++ [name])) := by
  unfold find
  rw [h]
  rfl

/-- What a path name holds is decided by what is at its place. -/
theorem find_kept (h : KeepsDirectories t u) {path : Text} {place : Place}
    (hp : t.place? path = some place) (hn : u.node? place = t.node? place) :
    u.find path = t.find path := by
  obtain ⟨s, hs, rfl⟩ := place?_eq_some_iff.1 hp
  have hu := spot_kept h hs
  cases s with
  | directory d => rw [find_of_directory hs, find_of_directory hu]
  | entry d name endsWithSlash =>
    rw [find_of_entry hs, find_of_entry hu]
    exact congrArg (found endsWithSlash) hn

theorem place?_of_find {path : Text} {node : FileNode} (h : t.find path = .ok node) :
    ∃ place, t.place? path = some place := by
  unfold find at h
  split at h
  next => simp at h
  next d hs => exact ⟨_, place?_eq_some_iff.2 ⟨_, hs, rfl⟩⟩
  next d name e hs => exact ⟨_, place?_eq_some_iff.2 ⟨_, hs, rfl⟩⟩

/-! ### Added directories -/

/-- All of `t` is still there in `u`, and what is new are directories that path names in `paths`
lead to. -/
structure DirectoriesAdded (paths : List Text) (t u : FileTree) : Prop where
  kept : ∀ place node, t.node? place = some node → u.node? place = some node
  added : ∀ place node, t.node? place = none → u.node? place = some node →
    node = .directory ∧ ∃ path ∈ paths, u.place? path = some place

namespace DirectoriesAdded

variable {paths : List Text}

theorem refl (paths : List Text) (t : FileTree) : DirectoriesAdded paths t t where
  kept := fun _ _ h => h
  added := by
    intro place node hn hs
    rw [hn] at hs
    simp at hs

theorem keepsDirectories (h : DirectoriesAdded paths t u) : KeepsDirectories t u :=
  fun place => h.kept place .directory

theorem trans (h : DirectoriesAdded paths t u) (h' : DirectoriesAdded paths u v) :
    DirectoriesAdded paths t v where
  kept := fun place node hn => h'.kept place node (h.kept place node hn)
  added := by
    intro place node hn hv
    cases hu : u.node? place with
    | none => exact h'.added place node hu hv
    | some node' =>
      rw [h'.kept place node' hu, Option.some.injEq] at hv
      obtain ⟨hd, path, hp, hl⟩ := h.added place node' hn hu
      exact ⟨hv ▸ hd, path, hp, place?_kept h'.keepsDirectories hl⟩

theorem mono {more : List Text} (h : DirectoriesAdded paths t u) (hm : paths ⊆ more) :
    DirectoriesAdded more t u where
  kept := h.kept
  added := by
    intro place node hn hs
    obtain ⟨hd, path, hp, hl⟩ := h.added place node hn hs
    exact ⟨hd, path, hm hp, hl⟩

/-- Files are neither added nor taken away. -/
theorem file_iff (h : DirectoriesAdded paths t u) (place : Place) (content : FileContent) :
    u.node? place = some (.file content) ↔ t.node? place = some (.file content) := by
  constructor
  · intro hu
    cases ht : t.node? place with
    | none => exact absurd (h.added place _ ht hu).1 nofun
    | some node =>
      rw [h.kept place node ht] at hu
      exact hu
  · exact h.kept place _

/-- A place that none of the path names leads to holds what it held before. -/
theorem node?_eq (h : DirectoriesAdded paths t u) {place : Place}
    (hp : ∀ path ∈ paths, u.place? path ≠ some place) : u.node? place = t.node? place := by
  cases ht : t.node? place with
  | some node => exact h.kept place node ht
  | none =>
    cases hu : u.node? place with
    | none => rfl
    | some node =>
      obtain ⟨_, path, hm, hl⟩ := h.added place node ht hu
      exact absurd hl (hp path hm)

end DirectoriesAdded

theorem keepsDirectories_put {d : t.Directory} {name : Text} (node : FileNode)
    (h : t.node? (d.val ++ [name]) ≠ some .directory) :
    KeepsDirectories t (t.put d name node h) := by
  intro place hp
  rw [node?_put, if_neg ?_]
  · exact hp
  · rintro rfl
    exact h hp

theorem directoriesAdded_of_makeDirectory {path : Text} (h : t.makeDirectory path = .ok u) :
    DirectoriesAdded [path] t u := by
  unfold makeDirectory at h
  split at h
  next => simp at h
  next => simp at h
  next d name endsWithSlash hs =>
    split at h
    next hn =>
      have hd : t.node? (d.val ++ [name]) ≠ some .directory := by simp [hn]
      obtain rfl := Except.ok.inj h
      have hk := keepsDirectories_put .directory hd
      have place := place?_kept hk (place?_eq_some_iff.2 ⟨_, hs, rfl⟩)
      constructor
      · intro p node hp
        rw [node?_put, if_neg ?_]
        · exact hp
        · rintro rfl
          rw [hn] at hp
          simp at hp
      · intro p node hp hu
        rw [node?_put] at hu
        split at hu
        next he =>
          subst he
          exact ⟨(Option.some.inj hu).symm, path, List.mem_singleton_self path, place⟩
        next =>
          rw [hp] at hu
          simp at hu
    next => simp at h

/-! ### A written file -/

/-- Writing changes one place, the one that the path name leads to. -/
structure FileWritten (path : Text) (content : FileContent) (place : Place) (t u : FileTree) :
    Prop where
  keepsDirectories : KeepsDirectories t u
  place?_eq : t.place? path = some place
  find_eq : u.find path = .ok (.file content)
  node?_eq : ∀ p, p ≠ place → u.node? p = t.node? p

theorem fileWritten_of_write {path : Text} {content : FileContent}
    (h : t.write path content = .ok u) : ∃ place, FileWritten path content place t u := by
  unfold write at h
  split at h
  next => simp at h
  next => simp at h
  next d name endsWithSlash hs =>
    split at h
    next => simp at h
    next hn =>
      rw [not_or] at hn
      obtain rfl := Except.ok.inj h
      have hk := keepsDirectories_put (.file content) hn.2
      refine ⟨d.val ++ [name], hk, place?_eq_some_iff.2 ⟨_, hs, rfl⟩, ?_, ?_⟩
      · have written := node?_put t d name (.file content) hn.2 (d.val ++ [name])
        rw [if_pos rfl] at written
        rw [find_of_entry (spot_kept hk hs)]
        change found endsWithSlash (FileTree.node? _ (d.val ++ [name])) = _
        rw [written, found, if_neg hn.1]
      · intro p hp
        rw [node?_put, if_neg hp]

/-! ### What stays -/

/-- The two trees have the same files. -/
def SameFiles (t u : FileTree) : Prop :=
  ∀ place content, u.node? place = some (.file content) ↔ t.node? place = some (.file content)

/-- The same, but for the place that `path` leads to. -/
def SameOtherFiles (path : Text) (t u : FileTree) : Prop :=
  ∀ place, u.place? path ≠ some place →
    ∀ content, u.node? place = some (.file content) ↔ t.node? place = some (.file content)

theorem sameOtherFiles_of_fileWritten {paths : List Text} {path : Text} {content : FileContent}
    {written : Place} (hd : DirectoriesAdded paths t u)
    (hw : FileWritten path content written u v) : SameOtherFiles path t v := by
  intro place hp c
  have elsewhere : place ≠ written := by
    rintro rfl
    exact hp (place?_kept hw.keepsDirectories hw.place?_eq)
  rw [hw.node?_eq place elsewhere]
  exact hd.file_iff place c

end CollectionTypes.FileTree
