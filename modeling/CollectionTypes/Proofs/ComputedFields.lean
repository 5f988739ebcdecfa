import CollectionTypes.Proofs.DocumentNames

/-!
# What computed fields change

Two lists of collections agree on their fields if their collections with a field dictionary have the
same names and the same fields, one by one. Their documents then differ in the members of the types
of documents only, whatever the computed fields are and whatever collections without fields there
are besides. `markedLines` are the lines of the generated file with those members marked: the others
are the same in both files, up to the two ways of writing a type that may have no members.
-/

namespace CollectionTypes

open TypeScript

/-! ### Documents that differ in their read types -/

/-- The second set is the first one with other members of the main type. -/
def DeclarationSet.AgreesOnInput (s t : DeclarationSet) : Prop :=
  { s with main := { s.main with fields := t.main.fields } } = t

/-- The same documents, except for the members of the main types. -/
structure Document.AgreesOnInput (a b : Document) : Prop where
  driverImport : a.driverImport = b.driverImport
  sets : List.Forall₂ DeclarationSet.AgreesOnInput a.sets b.sets
  mapping : a.mapping = b.mapping
  exported : a.exported = b.exported

namespace Collection

def AgreesOnFields (c d : Collection) : Prop := c.name = d.name ∧ c.fields = d.fields

/-- The same computed fields, none being as good as an empty dictionary. -/
def AgreesOnComputed (c d : Collection) : Prop :=
  c.computedFields.getD ∅ = d.computedFields.getD ∅

theorem AgreesOnFields.sets {c d : Collection} (h : c.AgreesOnFields d) :
    (DeclarationSet.ofCollection c).AgreesOnInput (.ofCollection d) := by
  obtain ⟨name, fields⟩ := h
  unfold DeclarationSet.AgreesOnInput DeclarationSet.ofCollection DeclarationSet.ofFields
  rw [name, fields]

/-- What depends on the names alone is the same for lists that agree on their fields. -/
theorem map_eq_of_names {α : Type} {cs ds : List Collection}
    (h : List.Forall₂ AgreesOnFields cs ds) (f : Text → α) :
    cs.map (fun c => f c.name) = ds.map fun d => f d.name := by
  induction h with
  | nil => rfl
  | cons h _ ih => rw [List.map_cons, List.map_cons, h.1, ih]

end Collection

section Agreement

variable {cs ds : List Collection}
  (h : List.Forall₂ Collection.AgreesOnFields (Collection.listed cs) (Collection.listed ds))

include h

theorem generated_eq_of_agreesOnFields : Collection.generated cs = Collection.generated ds :=
  Collection.map_eq_of_names h id

theorem Document.agreesOnInput_ofCollections (mappingInterface : Text) :
    (ofCollections cs mappingInterface).AgreesOnInput (ofCollections ds mappingInterface) where
  driverImport := rfl
  sets := by
    rw [sets_ofCollections, sets_ofCollections, List.forall₂_map_left_iff,
      List.forall₂_map_right_iff]
    exact h.imp fun _ _ agree => agree.sets
  mapping := by
    unfold ofCollections
    dsimp only
    rw [mappingFields_declarations, mappingFields_declarations]
    have fields := Collection.map_eq_of_names h fun name =>
      TypeScript.Field.mk name (TypeNames.ofCollection name).mappingType false
    rw [fields]
  exported := by
    unfold ofCollections
    dsimp only
    rw [exportNames_declarations, exportNames_declarations, generated_eq_of_agreesOnFields h]

end Agreement

/-! ### Lines with the members marked -/

/-- A line of a document, which may be that of a member of a main type. -/
structure MarkedLine where
  text : Text
  isMember : Bool

namespace MarkedLine

def outside (text : Text) : MarkedLine := ⟨text, false⟩

def inside (text : Text) : MarkedLine := ⟨text, true⟩

/-- The lines that are left when the members of main types are taken out. -/
def frame (lines : List MarkedLine) : List Text := (lines.filter fun l => !l.isMember).map text

@[simp] theorem map_text_outside (ts : List Text) : (ts.map outside).map text = ts := by
  rw [List.map_map]
  exact List.map_id ts

@[simp] theorem map_text_inside (ts : List Text) : (ts.map inside).map text = ts := by
  rw [List.map_map]
  exact List.map_id ts

@[simp] theorem frame_append (xs ys : List MarkedLine) :
    frame (xs ++ ys) = frame xs ++ frame ys := by
  rw [frame, List.filter_append, List.map_append, frame, frame]

@[simp] theorem frame_outside (ts : List Text) : frame (ts.map outside) = ts := by
  have kept : (ts.map outside).filter (fun l => !l.isMember) = ts.map outside := by
    simp [List.filter_eq_self, outside]
  rw [frame, kept, map_text_outside]

@[simp] theorem frame_inside (ts : List Text) : frame (ts.map inside) = [] := by
  have none : (ts.map inside).filter (fun l => !l.isMember) = [] := by
    simp [List.filter_eq_nil_iff, inside]
  rw [frame, none, List.map_nil]

theorem frame_flatMap {α : Type} (f : α → List MarkedLine) (xs : List α) :
    frame (xs.flatMap f) = xs.flatMap fun x => frame (f x) := by
  rw [frame, List.filter_flatMap, List.map_flatMap]
  rfl

end MarkedLine

namespace DocumentLines

open MarkedLine

/-- A main type without members. -/
def closedType (name : Text) : Text := "type " ++ name ++ " = " ++ "\x7b\x7d" ++ ";"

/-- The line before the members of a main type. -/
def openedType (name : Text) : Text := "type " ++ name ++ " = " ++ "\x7b"

def mainType (name : Text) (members : List Text) : List MarkedLine :=
  if members.isEmpty then [closedType name].map outside
  else [openedType name].map outside ++ members.map inside ++ ["\x7d;".toList].map outside

/-- The lines below a main type. -/
def inputBlock (name : Text) (fields : Signatures) : List Text :=
  [[]] ++
    inputTypes (name ++ "_Create") (name ++ "_Update") (name ++ "_Replace")
      (members .create fields) ++
    [[]] ++
    inputTypes (name ++ "_FaunaCreate") (name ++ "_FaunaUpdate") (name ++ "_FaunaReplace")
      (members .faunaCreate fields)

def mainMembers (c : Collection) : List Text :=
  members .main (c.fields.getD ∅) ++ members .main (c.computedFields.getD ∅)

def markedBlock (c : Collection) : List MarkedLine :=
  [docLine c.name].map outside ++ mainType c.name (mainMembers c) ++
    (inputBlock c.name (c.fields.getD ∅) ++ [[]]).map outside

/-- The lines of the generated file. -/
def markedLines (collections : List Collection) (mappingInterface : Text) : List MarkedLine :=
  let names := Collection.generated collections
  header.map outside ++ (Collection.listed collections).flatMap markedBlock ++
    (mapping mappingInterface names ++ exportLines names).map outside

theorem map_text_mainType (name : Text) (members : List Text) :
    (mainType name members).map text = objectType name members := by
  unfold mainType objectType braced
  split
  next =>
    rw [map_text_outside]
    rfl
  next =>
    rw [List.map_append, List.map_append, map_text_outside, map_text_inside, map_text_outside]
    rfl

theorem map_text_markedBlock (c : Collection) :
    (markedBlock c).map text =
      block c.name (c.fields.getD ∅) (c.computedFields.getD ∅) ++ [[]] := by
  unfold markedBlock block
  simp only [List.map_append, map_text_outside, map_text_mainType]
  simp only [inputBlock, mainMembers, List.append_assoc, List.cons_append, List.nil_append]

theorem blocks_eq_map (collections : List Collection) :
    blocks collections = (Collection.listed collections).map fun c =>
      block c.name (c.fields.getD ∅) (c.computedFields.getD ∅) := by
  rw [blocks_eq_map_texts, declarations_eq_map, List.map_map]
  apply List.map_congr_left
  intro c _
  exact DeclarationSet.texts_ofFields ..

/-- Without the marks these are the lines of the document. -/
theorem map_text_markedLines (collections : List Collection) (mappingInterface : Text) :
    (markedLines collections mappingInterface).map text =
      documentLines collections mappingInterface := by
  unfold markedLines documentLines
  dsimp only
  rw [blocks_eq_map, List.flatMap_map]
  simp only [List.map_append, map_text_outside, List.map_flatMap, map_text_markedBlock,
    List.append_assoc]

/-! ### Lines that are the same -/

/-- The same lines, except that types with these names may be on one line here and on two there. -/
inductive SameFrame (names : List Text) : List Text → List Text → Prop
  | nil : SameFrame names [] []
  | line (t : Text) {xs ys : List Text} (h : SameFrame names xs ys) :
      SameFrame names (t :: xs) (t :: ys)
  | opened {name : Text} (hn : name ∈ names) {xs ys : List Text} (h : SameFrame names xs ys) :
      SameFrame names (closedType name :: xs) (openedType name :: "\x7d;".toList :: ys)
  | closed {name : Text} (hn : name ∈ names) {xs ys : List Text} (h : SameFrame names xs ys) :
      SameFrame names (openedType name :: "\x7d;".toList :: xs) (closedType name :: ys)

namespace SameFrame

variable {names : List Text}

theorem refl : ∀ ts : List Text, SameFrame names ts ts
  | [] => .nil
  | t :: ts => .line t (refl ts)

theorem append {xs ys xs' ys' : List Text} (h : SameFrame names xs ys)
    (h' : SameFrame names xs' ys') : SameFrame names (xs ++ xs') (ys ++ ys') := by
  induction h with
  | nil => exact h'
  | line t _ ih => exact .line t ih
  | opened hn _ ih => exact .opened hn ih
  | closed hn _ ih => exact .closed hn ih

theorem flatMap {α : Type} {as bs : List α} {f : α → List Text}
    (h : List.Forall₂ (fun a b => SameFrame names (f a) (f b)) as bs) :
    SameFrame names (as.flatMap f) (bs.flatMap f) := by
  induction h with
  | nil => exact .nil
  | cons h _ ih =>
    rw [List.flatMap_cons, List.flatMap_cons]
    exact h.append ih

theorem mainType {name : Text} (hn : name ∈ names) (ms ms' : List Text) :
    SameFrame names (frame (DocumentLines.mainType name ms))
      (frame (DocumentLines.mainType name ms')) := by
  have empty (ms : List Text) (h : ms.isEmpty = true) :
      frame (DocumentLines.mainType name ms) = [closedType name] := by
    rw [DocumentLines.mainType, if_pos h, frame_outside]
  have filled (ms : List Text) (h : ¬ ms.isEmpty = true) :
      frame (DocumentLines.mainType name ms) = [openedType name, "\x7d;".toList] := by
    rw [DocumentLines.mainType, if_neg h, frame_append, frame_append, frame_outside, frame_inside,
      frame_outside]
    rfl
  by_cases h : ms.isEmpty = true
  case pos =>
    by_cases h' : ms'.isEmpty = true
    case pos =>
      rw [empty ms h, empty ms' h']
      exact refl _
    case neg =>
      rw [empty ms h, filled ms' h']
      exact .opened hn .nil
  case neg =>
    by_cases h' : ms'.isEmpty = true
    case pos =>
      rw [filled ms h, empty ms' h']
      exact .closed hn .nil
    case neg =>
      rw [filled ms h, filled ms' h']
      exact refl _

theorem markedBlock {c d : Collection} (h : c.AgreesOnFields d) (hn : c.name ∈ names) :
    SameFrame names (frame (DocumentLines.markedBlock c))
      (frame (DocumentLines.markedBlock d)) := by
  unfold DocumentLines.markedBlock
  rw [← h.1, ← h.2]
  simp only [frame_append, frame_outside]
  exact ((refl _).append (mainType hn _ _)).append (refl _)

theorem markedLines {cs ds : List Collection}
    (h : List.Forall₂ Collection.AgreesOnFields (Collection.listed cs) (Collection.listed ds))
    (mappingInterface : Text) :
    SameFrame (Collection.generated cs) (frame (DocumentLines.markedLines cs mappingInterface))
      (frame (DocumentLines.markedLines ds mappingInterface)) := by
  unfold DocumentLines.markedLines
  dsimp only
  rw [← generated_eq_of_agreesOnFields h]
  simp only [frame_append, frame_outside, frame_flatMap]
  refine ((refl _).append (flatMap ?_)).append (refl _)
  have listed : ∀ c ∈ Collection.listed cs, c.name ∈ Collection.generated cs :=
    fun _ hc => List.mem_map_of_mem hc
  apply ((List.forall₂_and_left _ _).2 ⟨listed, h⟩).imp
  rintro c d ⟨hn, agree⟩
  exact markedBlock agree hn

end SameFrame

end DocumentLines

open DocumentLines

theorem documentLines_eq_of_agrees {cs ds : List Collection}
    (h : List.Forall₂ Collection.AgreesOnFields (Collection.listed cs) (Collection.listed ds))
    (h' : List.Forall₂ Collection.AgreesOnComputed (Collection.listed cs) (Collection.listed ds))
    (mappingInterface : Text) :
    documentLines cs mappingInterface = documentLines ds mappingInterface := by
  have same : blocks cs = blocks ds := by
    rw [blocks_eq_map, blocks_eq_map, ← List.forall₂_eq_eq_eq, List.forall₂_map_left_iff,
      List.forall₂_map_right_iff]
    apply h.mp _ h'
    rintro c d ⟨name, fields⟩ computed
    rw [name, fields, computed]
  rw [documentLines, documentLines, same, generated_eq_of_agreesOnFields h]

/-- The computed fields, and the collections without fields, have no effect on the generated file
but for the members of the main types. -/
theorem generatedText_of_agreesOnFields {cs ds : List Collection}
    (h : List.Forall₂ Collection.AgreesOnFields (Collection.listed cs) (Collection.listed ds))
    (output : OutputSettings) :
    let lines := fun collections => markedLines collections output.mappingInterface
    (Document.ofCollections cs output.mappingInterface).AgreesOnInput
        (Document.ofCollections ds output.mappingInterface) ∧
      (∀ collections, generatedText collections output =
        Text.ofLines ((lines collections).map MarkedLine.text)) ∧
      SameFrame (Collection.generated cs) (MarkedLine.frame (lines cs))
        (MarkedLine.frame (lines ds)) ∧
      (List.Forall₂ Collection.AgreesOnComputed (Collection.listed cs) (Collection.listed ds) →
        generatedText cs output = generatedText ds output) := by
  refine ⟨Document.agreesOnInput_ofCollections h _, ?_, SameFrame.markedLines h _, ?_⟩
  · intro collections
    rw [generatedText_eq_ofLines, map_text_markedLines]
  · intro h'
    rw [generatedText_eq_ofLines, generatedText_eq_ofLines, documentLines_eq_of_agrees h h']

/-- Computed fields that fill an empty type, others that go, and two collections without fields. -/
theorem generatedText_of_agreesOnFields_posts :
    let title : Signatures := .ofList [("title", "String")]
    let counted : Signatures := .ofList [("size", "Number?")]
    let cs : List Collection :=
      [⟨"User", some ∅, none⟩, ⟨"Audit", none, some counted⟩, ⟨"Post", some title, some counted⟩]
    let ds : List Collection :=
      [⟨"User", some ∅, some counted⟩, ⟨"Post", some title, none⟩, ⟨"Log", none, none⟩]
    let es : List Collection := [⟨"User", some ∅, some ∅⟩, ⟨"Post", some title, some counted⟩]
    (List.Forall₂ Collection.AgreesOnFields (Collection.listed cs) (Collection.listed ds) ∧
      SameFrame ["User", "Post"] (MarkedLine.frame (markedLines cs "CollectionsTypeMapping"))
        (MarkedLine.frame (markedLines ds "CollectionsTypeMapping"))) ∧
    List.Forall₂ Collection.AgreesOnFields (Collection.listed cs) (Collection.listed es) ∧
      List.Forall₂ Collection.AgreesOnComputed (Collection.listed cs) (Collection.listed es) ∧
      generatedText cs .standard = generatedText es .standard := by
  intro title counted cs ds es
  have fields : List.Forall₂ Collection.AgreesOnFields (Collection.listed cs)
      (Collection.listed ds) := .cons ⟨rfl, rfl⟩ (.cons ⟨rfl, rfl⟩ .nil)
  have fields' : List.Forall₂ Collection.AgreesOnFields (Collection.listed cs)
      (Collection.listed es) := .cons ⟨rfl, rfl⟩ (.cons ⟨rfl, rfl⟩ .nil)
  have computed : List.Forall₂ Collection.AgreesOnComputed (Collection.listed cs)
      (Collection.listed es) := .cons rfl (.cons rfl .nil)
  obtain ⟨_, _, frames, _⟩ := generatedText_of_agreesOnFields fields .standard
  obtain ⟨_, _, _, same⟩ := generatedText_of_agreesOnFields fields' .standard
  exact ⟨⟨fields, frames⟩, fields', computed, same computed⟩

end CollectionTypes
