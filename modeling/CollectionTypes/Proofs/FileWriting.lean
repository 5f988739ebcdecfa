import CollectionTypes.Proofs.TreeWriting

/-!
# All or nothing

Writing an output file to a tree either leaves the file in it, with every other file as it was, or
changes no file at all. Nothing is done where the file has its content already, which is the case
after every write that succeeds.
-/

namespace CollectionTypes

open FileTree

namespace FileTree

variable {t : FileTree} {path text : Text}

/-- Only a file that is a text can be read, and it reads as that text. -/
theorem readText_eq_ok_iff :
    t.readText path = .ok text ↔ t.find path = .ok (.file (.text text)) := by
  unfold readText
  split
  next e h => simp [h]
  next h => simp [h]
  next bytes h => simp [h]
  next other h => simp [h]

end FileTree

namespace OutputFile

variable {f : OutputFile} {t : FileTree}

/-- What writing a file to a tree comes to, and the tree that it leaves. -/
def writeOn (f : OutputFile) (t : FileTree) : Except WriteError WriteResult × FileTree :=
  (f.write : StateM FileTree (Except WriteError WriteResult)) t

/-- The tree holds the file, with its content. -/
def IsIn (f : OutputFile) (t : FileTree) : Prop :=
  t.find f.path = .ok (.file (.text f.content))

theorem ending_writeOn (f : OutputFile) (t : FileTree) : f.Ending t (f.writeOn t) :=
  f.ending_write t

theorem writeOn_of_isIn (h : f.IsIn t) : f.writeOn t = (.ok .unchanged, t) := by
  have holds : t.readText f.path = .ok f.content := readText_eq_ok_iff.2 h
  unfold writeOn
  rw [write_run, if_pos holds]

theorem Ending.of_ok {r : Except WriteError WriteResult × FileTree} {result : WriteResult}
    (h : Ending f t r) (hr : r.1 = .ok result) : f.IsIn r.2 ∧ SameOtherFiles f.path t r.2 := by
  cases h with
  | unchanged held => exact ⟨readText_eq_ok_iff.1 held, fun _ _ _ => Iff.rfl⟩
  | failed _ => exact absurd hr nofun
  | written grown put =>
    exact ⟨put.find_eq, sameOtherFiles_of_fileWritten grown put⟩

theorem Ending.of_unchanged {r : Except WriteError WriteResult × FileTree}
    (h : Ending f t r) (hr : r.1 = .ok .unchanged) : f.IsIn t := by
  cases h with
  | unchanged held => exact readText_eq_ok_iff.1 held
  | failed _ => exact absurd hr nofun
  | written _ _ => exact absurd hr nofun

theorem Ending.of_error {r : Except WriteError WriteResult × FileTree} {e : WriteError}
    (h : Ending f t r) (hr : r.1 = .error e) :
    DirectoriesAdded (Pathname.ancestors f.path) t r.2 := by
  cases h with
  | unchanged _ => exact absurd hr nofun
  | failed grown => exact grown
  | written _ _ => exact absurd hr nofun

theorem writeOn_eq_unchanged_iff : (f.writeOn t).1 = .ok .unchanged ↔ f.IsIn t := by
  constructor
  · exact (f.ending_writeOn t).of_unchanged
  · intro h
    rw [writeOn_of_isIn h]

/-- A write that succeeds leaves the file in the tree and every other file as it was, and a second
one finds nothing to do. It says that nothing has changed exactly when the file was there with its
content, and then the tree is the same. A write that fails leaves every file as it was, and at most
adds directories that lead to the file. -/
theorem writeOn_all_or_nothing (f : OutputFile) (t : FileTree) :
    (∀ result, (f.writeOn t).1 = .ok result →
      f.IsIn (f.writeOn t).2 ∧ SameOtherFiles f.path t (f.writeOn t).2 ∧
        f.writeOn (f.writeOn t).2 = (.ok .unchanged, (f.writeOn t).2)) ∧
      ((f.writeOn t).1 = .ok .unchanged ↔ f.IsIn t) ∧
      ((f.writeOn t).1 = .ok .unchanged → (f.writeOn t).2 = t) ∧
      ∀ e, (f.writeOn t).1 = .error e →
        SameFiles t (f.writeOn t).2 ∧
          DirectoriesAdded (Pathname.ancestors f.path) t (f.writeOn t).2 := by
  have ending := f.ending_writeOn t
  refine ⟨?_, writeOn_eq_unchanged_iff, ?_, ?_⟩
  · intro result hr
    obtain ⟨isIn, others⟩ := ending.of_ok hr
    exact ⟨isIn, others, writeOn_of_isIn isIn⟩
  · intro hr
    rw [writeOn_of_isIn (writeOn_eq_unchanged_iff.1 hr)]
  · intro e hr
    have grown := ending.of_error hr
    exact ⟨grown.file_iff, grown⟩

/-! ### Two writes beside each other -/

/-- A tree with a file that is in the way of directories. -/
def blockedTree : FileTree :=
  FileTree.empty.put .root "blocker" (.file (.text "not a directory")) (by decide)

def nestedFile : OutputFile := ⟨"a/b/types.ts", "type A = string;\n"⟩

def blockedFile : OutputFile := ⟨"blocker/types.ts", "content"⟩

theorem writeOn_nestedFile : (nestedFile.writeOn blockedTree).1 = .ok .written := by
  decide +kernel

theorem writeOn_blockedFile :
    (blockedFile.writeOn blockedTree).1 = .error (.directory "blocker" .alreadyExists) := by
  decide +kernel

theorem writeOn_all_or_nothing_blocked :
    (nestedFile.writeOn blockedTree).1 = .ok .written ∧
      nestedFile.IsIn (nestedFile.writeOn blockedTree).2 ∧
      SameOtherFiles nestedFile.path blockedTree (nestedFile.writeOn blockedTree).2 ∧
      (nestedFile.writeOn (nestedFile.writeOn blockedTree).2).1 = .ok .unchanged ∧
      (nestedFile.writeOn (nestedFile.writeOn blockedTree).2).2 =
        (nestedFile.writeOn blockedTree).2 ∧
      (blockedFile.writeOn blockedTree).1 = .error (.directory "blocker" .alreadyExists) ∧
      SameFiles blockedTree (blockedFile.writeOn blockedTree).2 := by
  obtain ⟨isIn, others, again⟩ :=
    (writeOn_all_or_nothing nestedFile blockedTree).1 .written writeOn_nestedFile
  have unchanged : (nestedFile.writeOn (nestedFile.writeOn blockedTree).2).1 = .ok .unchanged := by
    rw [again]
  have kept := (writeOn_all_or_nothing nestedFile _).2.2.1 unchanged
  obtain ⟨same, _⟩ :=
    (writeOn_all_or_nothing blockedFile blockedTree).2.2.2 _ writeOn_blockedFile
  exact ⟨writeOn_nestedFile, isIn, others, unchanged, kept, writeOn_blockedFile, same⟩

end OutputFile
end CollectionTypes
