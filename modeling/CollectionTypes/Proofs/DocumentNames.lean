import CollectionTypes.Command.Run
import CollectionTypes.Proofs.DocumentLines

/-!
# Names in the document and in the listings

The document of a list of collections declares types, exports names, has an interface with a member
for each collection, and is accompanied by listings of the collections that it covers and of those
that it leaves out. `Document.Covers` says that all of these agree, the declared names as they are
read from the lines of the body. They do for every list of collections, whatever their names are and
whichever of their dictionaries are absent or empty.
-/

namespace CollectionTypes

open TypeScript

/-! ### Declarations in the order of the text -/

/-- A type declaration of the body of a document. -/
inductive TypeScript.Declaration where
  | objectType (type : ObjectType)
  | typeAlias (type : TypeAlias)

namespace TypeScript.Declaration

def name : Declaration → Text
  | objectType type => type.name
  | typeAlias type => type.name

def fragments : Declaration → List Fragment
  | objectType type => type.fragments
  | typeAlias type => type.fragments

def exported : Declaration → Bool
  | objectType type => type.exported
  | typeAlias type => type.exported

end TypeScript.Declaration

def Fragment.isBlank : Fragment → Bool
  | blank => true
  | _ => false

@[simp] theorem Fragment.isBlank_doc (text : Text) : isBlank (.doc text) = false := rfl

@[simp] theorem TypeScript.isBlank_declare (opening : Text) (fields : List Field) (ending : Text) :
    (declare opening fields ending).isBlank = false := by
  unfold declare
  split <;> rfl

/-- The fragments that are not blank lines. -/
def Fragment.written (fragments : List Fragment) : List Fragment :=
  fragments.filter fun f => !f.isBlank

def DeclarationSet.declared (set : DeclarationSet) : List Declaration :=
  [.objectType set.main, .objectType set.create, .typeAlias set.update, .typeAlias set.replace,
    .objectType set.faunaCreate, .typeAlias set.faunaUpdate, .typeAlias set.faunaReplace]

/-- All declarations of a document, in the order of its text. -/
def Document.declared (document : Document) : List Declaration :=
  document.sets.flatMap DeclarationSet.declared

theorem Fragment.written_append (fs gs : List Fragment) :
    written (fs ++ gs) = written fs ++ written gs :=
  List.filter_append ..

theorem Fragment.written_flatMap {α : Type} (f : α → List Fragment) (xs : List α) :
    written (xs.flatMap f) = xs.flatMap fun x => written (f x) :=
  List.filter_flatMap

theorem TypeScript.Declaration.written_fragments (d : Declaration) :
    Fragment.written d.fragments = d.fragments := by
  cases d with
  | typeAlias type => rfl
  | objectType type =>
    obtain ⟨name, doc, fields, exported⟩ := type
    cases doc <;> simp [fragments, ObjectType.fragments, Fragment.written]

theorem TypeScript.Interface.written_fragments (interface : Interface) :
    Fragment.written interface.fragments = interface.fragments := by
  obtain ⟨name, doc, fields⟩ := interface
  cases doc <;> simp [fragments, Fragment.written]

/-- Only blank lines come between the declarations of a collection. -/
theorem DeclarationSet.written_fragments (set : DeclarationSet) :
    Fragment.written set.fragments = set.declared.flatMap Declaration.fragments := by
  have object (type : ObjectType) : Fragment.written type.fragments = type.fragments :=
    Declaration.written_fragments (.objectType type)
  have other (type : TypeAlias) : Fragment.written type.fragments = type.fragments :=
    Declaration.written_fragments (.typeAlias type)
  have blank : Fragment.written [.blank] = [] := rfl
  unfold fragments declared
  simp only [Fragment.written_append, object, other, blank, List.flatMap_cons, List.flatMap_nil,
    Declaration.fragments, List.append_nil, List.nil_append, List.append_assoc]

/-- The body of a document consists of its declarations and of the mapping interface. -/
theorem Document.written_body (document : Document) :
    Fragment.written document.sourceFile.body.flatten =
      document.declared.flatMap Declaration.fragments ++ document.mapping.fragments := by
  have body : document.sourceFile.body =
      document.sets.map DeclarationSet.fragments ++ [document.mapping.fragments] := by
    unfold sourceFile SourceFile.addExport
    split <;> rfl
  rw [body, List.flatten_append, List.flatten_singleton, ← List.flatMap_def,
    Fragment.written_append, Interface.written_fragments, Fragment.written_flatMap, declared,
    List.flatMap_assoc]
  simp only [DeclarationSet.written_fragments]

/-! ### Names read from the lines -/

section Lines

open DocumentLines

/-- Whether a line begins the declaration of a type. -/
def opensType (line : Text) : Bool := ("type " : Text).isPrefixOf line

/-- A line that begins the declaration of a type with this name. -/
def Declares (name line : Text) : Prop := ∃ value, line = "type " ++ name ++ " = " ++ value

theorem Declares.opensType {name line : Text} (h : Declares name line) :
    opensType line = true := by
  obtain ⟨value, rfl⟩ := h
  rfl

theorem filter_opensType_doc (doc : Option Text) :
    (Fragment.texts (doc.map Fragment.doc).toList).filter opensType = [] := by
  cases doc <;> rfl

/-- Neither the members of a declaration nor its end begin another one. -/
theorem exists_filter_opensType_declare (opening : Text) (fields : List Field) (ending : Text) :
    ∃ value, (Fragment.texts [declare opening fields ending]).filter opensType =
      [opening ++ value].filter opensType := by
  rw [texts_declare]
  cases fields with
  | nil => exact ⟨"\x7b\x7d" ++ ending, by rw [← List.append_assoc]; rfl⟩
  | cons f fs =>
    have members : ((f :: fs).map Field.indentedLine).filter opensType = [] := by
      rw [List.filter_eq_nil_iff]
      intro line hl
      obtain ⟨g, _, rfl⟩ := List.mem_map.1 hl
      exact Bool.false_ne_true
    have closing : [("\x7d" : Text) ++ ending].filter opensType = [] := rfl
    refine ⟨"\x7b", ?_⟩
    unfold braced
    rw [if_neg (by simp), List.filter_cons, List.filter_append, members, closing,
      List.filter_cons]
    rfl

/-- The lines of a declaration begin one declaration, which is of its name. -/
theorem TypeScript.Declaration.exists_declares {d : Declaration} (h : d.exported = false) :
    ∃ line, (Fragment.texts d.fragments).filter opensType = [line] ∧ Declares d.name line := by
  cases d with
  | typeAlias type =>
    obtain ⟨name, type, exported⟩ := type
    obtain rfl : exported = false := h
    have declares : Declares name (aliasType name type) :=
      ⟨type ++ ";", List.append_assoc _ _ _⟩
    exact ⟨_, rfl, declares⟩
  | objectType type =>
    obtain ⟨name, doc, fields, exported⟩ := type
    obtain rfl : exported = false := h
    obtain ⟨value, opening⟩ :=
      exists_filter_opensType_declare ("type " ++ name ++ " = ") fields ";"
    have declares : Declares name ("type " ++ name ++ " = " ++ value) := ⟨value, rfl⟩
    refine ⟨_, ?_, declares⟩
    rw [List.filter_cons_of_pos declares.opensType, List.filter_nil] at opening
    show (Fragment.texts ((doc.map Fragment.doc).toList ++ [declare _ fields _])).filter _ = _
    rw [Fragment.texts_append, List.filter_append, filter_opensType_doc]
    exact opening

theorem TypeScript.Declaration.forall₂_declares {ds : List Declaration}
    (h : ∀ d ∈ ds, d.exported = false) :
    List.Forall₂ Declares (ds.map Declaration.name)
      ((Fragment.texts (ds.flatMap Declaration.fragments)).filter opensType) := by
  induction ds with
  | nil => exact .nil
  | cons d ds ih =>
    rw [List.forall_mem_cons] at h
    obtain ⟨line, opening, declares⟩ := exists_declares h.1
    rw [List.flatMap_cons, Fragment.texts_append, List.filter_append, opening]
    exact .cons declares (ih h.2)

theorem TypeScript.Interface.filter_opensType (interface : Interface) :
    (Fragment.texts interface.fragments).filter opensType = [] := by
  obtain ⟨value, opening⟩ := exists_filter_opensType_declare
    ("export interface " ++ interface.name ++ " ") interface.fields []
  unfold fragments
  rw [Fragment.texts_append, List.filter_append, filter_opensType_doc, opening]
  rfl

theorem Fragment.filter_opensType_written (fs : List Fragment) :
    (texts (written fs)).filter opensType = (texts fs).filter opensType := by
  induction fs with
  | nil => rfl
  | cons f fs ih =>
    rw [← List.singleton_append, written_append, texts_append, texts_append, List.filter_append,
      List.filter_append, ih]
    cases f <;> rfl

/-- The lines of the body that begin a declaration are one for each declaration. -/
theorem Document.forall₂_declares {document : Document}
    (h : ∀ d ∈ document.declared, d.exported = false) :
    List.Forall₂ Declares (document.declared.map Declaration.name)
      ((Fragment.texts document.sourceFile.body.flatten).filter opensType) := by
  rw [← Fragment.filter_opensType_written, written_body, Fragment.texts_append,
    List.filter_append, Interface.filter_opensType, List.append_nil]
  exact Declaration.forall₂_declares h

end Lines

/-! ### Types made of names -/

/-- An object type with these labels and types. -/
def TypeScript.objectText (members : List (Text × Text)) : Text :=
  "\x7b " ++ ("; " : Text).intercalate (members.map fun m => m.1 ++ ": " ++ m.2) ++ " \x7d"

/-- A type that mentions no type names but these and `Partial`. -/
inductive TypeScript.MadeOf (names : List Text) : Text → Prop
  | named {name : Text} (h : name ∈ names) : MadeOf names name
  | generic {type : Text} (h : MadeOf names type) : MadeOf names ("Partial<" ++ type ++ ">")
  | object (members : List (Text × Text)) (labels : ∀ m ∈ members, Text.isIdentifier m.1 = true)
      (types : ∀ m ∈ members, MadeOf names m.2) :
      MadeOf names (objectText members)

namespace TypeNames

/-- The types of a collection by operation. -/
def byOperation (names : TypeNames) : List (Text × Text) :=
  [("main", names.main), ("create", names.create), ("replace", names.replace),
    ("update", names.update)]

theorem mappingType_eq_objectText (names : TypeNames) :
    names.mappingType = objectText names.byOperation := by
  have main : "\x7b main: ".toList = "\x7b ".toList ++ ("main".toList ++ ": ".toList) := by decide
  have create : "; create: ".toList = "; ".toList ++ ("create".toList ++ ": ".toList) := by decide
  have replace : "; replace: ".toList = "; ".toList ++ ("replace".toList ++ ": ".toList) := by
    decide
  have update : "; update: ".toList = "; ".toList ++ ("update".toList ++ ": ".toList) := by decide
  unfold mappingType objectText byOperation
  rw [main, create, replace, update]
  simp only [List.map_cons, List.map_nil, List.intercalate_cons_cons, List.intercalate_singleton,
    List.append_assoc]

theorem madeOf_mappingType (name : Text) :
    MadeOf (family name) (ofCollection name).mappingType := by
  rw [mappingType_eq_objectText]
  apply MadeOf.object
  · simp only [byOperation, List.forall_mem_cons]
    decide
  · simp only [byOperation, List.forall_mem_cons]
    refine ⟨.named (self_mem_family name), ?_, ?_, ?_, List.forall_mem_nil _⟩ <;>
      exact .named (append_mem_family name (by decide))

end TypeNames

namespace DeclarationSet

theorem madeOf_alias_ofFields (name : Text) (fields computed : Signatures) {type : TypeAlias}
    (h : Declaration.typeAlias type ∈ (ofFields name fields computed).declared) :
    MadeOf (TypeNames.family name) type.type := by
  have create : name ++ "_Create" ∈ TypeNames.family name :=
    TypeNames.append_mem_family name (by decide)
  have wire : name ++ "_FaunaCreate" ∈ TypeNames.family name :=
    TypeNames.append_mem_family name (by decide)
  simp only [declared, List.mem_cons, List.not_mem_nil, reduceCtorEq, Declaration.typeAlias.injEq,
    false_or, or_false] at h
  obtain rfl | rfl | rfl | rfl := h
  · exact .generic (.named create)
  · exact .named create
  · exact .generic (.named wire)
  · exact .named wire

end DeclarationSet

/-! ### Collections and their declarations -/

namespace DeclarationSet

/-- The declarations of a collection, an absent dictionary being taken for an empty one. -/
def ofCollection (c : Collection) : DeclarationSet :=
  ofFields c.name (c.fields.getD ∅) (c.computedFields.getD ∅)

end DeclarationSet

theorem declarations_eq_map (collections : List Collection) :
    declarations collections =
      (Collection.listed collections).map DeclarationSet.ofCollection := by
  induction collections with
  | nil => rfl
  | cons c cs ih =>
    unfold declarations Collection.listed at ih ⊢
    cases h : c.fields with
    | none => simpa [DeclarationSet.ofCollection?, h] using ih
    | some fields =>
      have set : DeclarationSet.ofCollection? c = some (.ofCollection c) := by
        simp [DeclarationSet.ofCollection?, DeclarationSet.ofCollection, h]
      rw [List.filterMap_cons_some set, List.filter_cons_of_pos (by simp [h]), List.map_cons, ih]

theorem mappingFields_declarations (collections : List Collection) :
    mappingFields (declarations collections) =
      (Collection.listed collections).map fun c =>
        ⟨c.name, (TypeNames.ofCollection c.name).mappingType, false⟩ := by
  unfold mappingFields
  rw [declarations_eq_map, List.map_map]
  rfl

@[simp] theorem length_renderFields (mode : Mode) (signatures : Signatures) :
    (renderFields mode signatures).length = signatures.size :=
  List.length_map ..

@[simp] theorem size_empty : (∅ : Signatures).size = 0 := rfl

namespace DeclarationSet

theorem length_create_fields (c : Collection) :
    (ofCollection c).create.fields.length = c.fieldCount := by
  cases h : c.fields <;> simp [ofCollection, ofFields, Collection.fieldCount, h]

theorem length_main_fields (c : Collection) :
    (ofCollection c).main.fields.length = c.fieldCount + c.computedFieldCount := by
  rw [← length_create_fields]
  cases h : c.computedFields <;>
    simp [ofCollection, ofFields, Collection.computedFieldCount, h]

/-- What is said about the collection of a set in a listing. Fields of its documents that new ones
do not have are computed. -/
def entry (set : DeclarationSet) : Text :=
  let fieldCount := set.create.fields.length
  let computedCount := set.main.fields.length - fieldCount
  set.names.main ++ " (".toList ++ Text.ofNat fieldCount ++
    (if fieldCount = 1 then " field".toList else " fields".toList) ++
    (if 0 < computedCount then ", ".toList ++ Text.ofNat computedCount ++ " computed" else []) ++
    [')']

theorem description_eq_entry (c : Collection) : c.description = (ofCollection c).entry := by
  have computed : c.fieldCount + c.computedFieldCount - c.fieldCount = c.computedFieldCount :=
    Nat.add_sub_cancel_left ..
  unfold entry
  dsimp only
  rw [length_main_fields, length_create_fields, computed]
  rfl

end DeclarationSet

/-- What is said about a schema with these entries in its listing when the collections with these
names are left out. -/
def Outcome.listing (path : Text) (entries skipped : List Text) : Outcome :=
  let heading := Text.ofNat entries.length ++ " collection(s)".toList ++
    (if 0 < skipped.length then ", ".toList ++ Text.ofNat skipped.length ++ " skipped" else []) ++
    [':']
  .printed
    { out := Text.ofLines
        ((if skipped.isEmpty then [] else [[]]) ++
          ("✓ ".toList ++ path ++ " is valid") :: [] :: ("  " ++ heading) ::
            entries.map ("    ".toList ++ ·))
      err := Text.ofLines (skipped.map fun name =>
        "warning: collection '".toList ++ name ++ "' defines no fields and will be skipped") }

namespace Collection

/-- The collections without a field dictionary are those that are not listed. -/
theorem skipped_eq (collections : List Collection) :
    skipped collections = (collections.filter fun c => !c.fields.isSome).map name := by
  have others : (fun c : Collection => c.fields.isNone) = fun c => !c.fields.isSome := by
    funext c
    cases c.fields <;> rfl
  rw [skipped, others]

theorem perm_listed_append_skipped (collections : List Collection) :
    ((listed collections).map name ++ skipped collections).Perm (collections.map name) := by
  rw [skipped_eq, ← List.map_append]
  exact (List.filter_append_perm _ _).map name

theorem length_sub_length_listed (collections : List Collection) :
    collections.length - (listed collections).length = (skipped collections).length := by
  have total := (perm_listed_append_skipped collections).length_eq
  rw [List.length_append, List.length_map, List.length_map] at total
  omega

theorem checked_eq_listing (path : Text) (collections : List Collection) :
    Outcome.checked path collections =
      .listing path ((listed collections).map description) (skipped collections) := by
  unfold Outcome.checked Outcome.listing summary heading
  dsimp only
  rw [length_sub_length_listed, List.length_map, List.isEmpty_map, List.map_cons, List.map_map,
    List.map_map]
  rfl

end Collection

/-! ### Agreement -/

/-- What a document of these collections declares, exports and maps, and what the listings of them
say, is the same: it concerns the collections with a field dictionary, in order. -/
structure Document.Covers (document : Document) (collections : List Collection) : Prop where
  /-- The body holds the declarations and below them the mapping interface. -/
  body : Fragment.written document.sourceFile.body.flatten =
    document.declared.flatMap Declaration.fragments ++ document.mapping.fragments
  exported : document.exported.names = document.declared.map Declaration.name
  /-- In the text of the body these names are declared, in order, and no others. -/
  lines : List.Forall₂ Declares document.exported.names
    ((Fragment.texts document.sourceFile.body.flatten).filter opensType)
  families : document.exported.names =
    (Collection.listed collections).flatMap fun c => TypeNames.family c.name
  /-- Every collection with fields has a set of declarations, which are called as it is. -/
  names : document.sets.map (fun set => set.declared.map Declaration.name) =
    (Collection.listed collections).map fun c => TypeNames.family c.name
  mapping_names : document.mapping.fields.map Field.name =
    (Collection.listed collections).map Collection.name
  mapping_types : List.Forall₂
    (fun field set => MadeOf (set.declared.map Declaration.name) field.type)
    document.mapping.fields document.sets
  alias_types : ∀ set ∈ document.sets, ∀ type, .typeAlias type ∈ set.declared →
    MadeOf (set.declared.map Declaration.name) type.type
  /-- What is generated and what is skipped. -/
  partition : (document.generated, Collection.skipped collections) =
    (collections.partition (·.fields.isSome)).map (List.map Collection.name)
      (List.map Collection.name)
  perm : (document.generated ++ Collection.skipped collections).Perm
    (collections.map Collection.name)
  /-- A set has as many fields, and as many computed ones, as its collection. -/
  counts : List.Forall₂
    (fun set c => set.create.fields.length = c.fieldCount ∧
      set.main.fields.length = c.fieldCount + c.computedFieldCount)
    document.sets (Collection.listed collections)
  checked : ∀ path, Outcome.checked path collections =
    .listing path (document.sets.map DeclarationSet.entry) (Collection.skipped collections)
  /-- These are the names that writing the document reports, in whatever file system. -/
  written : ∀ {m : Type → Type} [Monad m] [LawfulMonad m] [FileSystem m] (directory : Text)
    (output : OutputSettings),
    (Generation.write collections directory output : m (Except WriteError Generation)) =
      (Except.map fun result =>
        { path := Pathname.join directory output.file
          result
          generated := document.generated
          skipped := Collection.skipped collections }) <$>
        (Generation.file collections directory output).write

section OfCollections

variable (collections : List Collection) (mappingInterface : Text)

theorem Document.sets_ofCollections :
    (ofCollections collections mappingInterface).sets =
      (Collection.listed collections).map DeclarationSet.ofCollection :=
  declarations_eq_map collections

theorem Document.mappingFields_ofCollections :
    (ofCollections collections mappingInterface).mapping.fields =
      (Collection.listed collections).map fun c =>
        ⟨c.name, (TypeNames.ofCollection c.name).mappingType, false⟩ :=
  mappingFields_declarations collections

theorem Document.generated_ofCollections :
    (ofCollections collections mappingInterface).generated =
      (Collection.listed collections).map Collection.name := by
  rw [generated, sets_ofCollections, List.map_map]
  rfl

theorem Document.exported_ofCollections :
    (ofCollections collections mappingInterface).exported.names =
      (Collection.listed collections).flatMap fun c => TypeNames.family c.name := by
  have names : (ofCollections collections mappingInterface).exported.names =
      exportNames (declarations collections) := rfl
  rw [names, exportNames_declarations, Collection.generated, List.flatMap_map]
  rfl

theorem Document.map_name_declared_ofCollections :
    (ofCollections collections mappingInterface).declared.map Declaration.name =
      (Collection.listed collections).flatMap fun c => TypeNames.family c.name := by
  rw [declared, List.map_flatMap, sets_ofCollections, List.flatMap_map]
  rfl

theorem Document.exported_of_mem_declared {d : Declaration}
    (h : d ∈ (ofCollections collections mappingInterface).declared) : d.exported = false := by
  rw [declared, sets_ofCollections, List.flatMap_map, List.mem_flatMap] at h
  obtain ⟨c, _, hd⟩ := h
  simp only [DeclarationSet.declared, List.mem_cons, List.not_mem_nil, or_false] at hd
  rcases hd with rfl | rfl | rfl | rfl | rfl | rfl | rfl <;> rfl

theorem Document.exported_eq_map_name :
    (ofCollections collections mappingInterface).exported.names =
      (ofCollections collections mappingInterface).declared.map Declaration.name := by
  rw [exported_ofCollections, map_name_declared_ofCollections]

theorem Document.forall₂_madeOf_mapping :
    List.Forall₂ (fun field set => MadeOf (set.declared.map Declaration.name) field.type)
      (ofCollections collections mappingInterface).mapping.fields
      (ofCollections collections mappingInterface).sets := by
  rw [mappingFields_ofCollections, sets_ofCollections, List.forall₂_map_left_iff,
    List.forall₂_map_right_iff, List.forall₂_same]
  intro c _
  exact TypeNames.madeOf_mappingType c.name

theorem Document.madeOf_alias {set : DeclarationSet} {type : TypeAlias}
    (hs : set ∈ (ofCollections collections mappingInterface).sets)
    (ht : .typeAlias type ∈ set.declared) :
    MadeOf (set.declared.map Declaration.name) type.type := by
  rw [sets_ofCollections] at hs
  obtain ⟨c, _, rfl⟩ := List.mem_map.1 hs
  exact DeclarationSet.madeOf_alias_ofFields _ _ _ ht

theorem Document.forall₂_counts :
    List.Forall₂
      (fun set c => set.create.fields.length = c.fieldCount ∧
        set.main.fields.length = c.fieldCount + c.computedFieldCount)
      (ofCollections collections mappingInterface).sets (Collection.listed collections) := by
  rw [sets_ofCollections, List.forall₂_map_left_iff, List.forall₂_same]
  intro c _
  exact ⟨DeclarationSet.length_create_fields c, DeclarationSet.length_main_fields c⟩

theorem Document.map_entry_ofCollections :
    (ofCollections collections mappingInterface).sets.map DeclarationSet.entry =
      (Collection.listed collections).map Collection.description := by
  rw [sets_ofCollections, List.map_map]
  apply List.map_congr_left
  intro c _
  exact (DeclarationSet.description_eq_entry c).symm

end OfCollections

theorem Generation.write_eq_map {m : Type → Type} [Monad m] [LawfulMonad m] [FileSystem m]
    (collections : List Collection) (directory : Text) (output : OutputSettings) :
    (write collections directory output : m (Except WriteError Generation)) =
      (Except.map fun result =>
        { path := Pathname.join directory output.file
          result
          generated := (Document.ofCollections collections output.mappingInterface).generated
          skipped := Collection.skipped collections }) <$>
        (file collections directory output).write := by
  rw [write, map_eq_pure_bind]
  rfl

/-- The document, the export list, the mapping interface, the lists of names and the listings
agree, whatever the collections are. -/
theorem Document.covers_ofCollections (collections : List Collection) (mappingInterface : Text) :
    (ofCollections collections mappingInterface).Covers collections := by
  have generated := generated_ofCollections collections
  constructor
  case body => exact written_body _
  case exported => exact exported_eq_map_name collections mappingInterface
  case lines =>
    rw [exported_eq_map_name]
    exact forall₂_declares fun _ hd => exported_of_mem_declared collections mappingInterface hd
  case families => exact exported_ofCollections collections mappingInterface
  case names =>
    rw [sets_ofCollections, List.map_map]
    rfl
  case mapping_names =>
    rw [mappingFields_ofCollections, List.map_map]
    rfl
  case mapping_types => exact forall₂_madeOf_mapping collections mappingInterface
  case alias_types => exact fun _ hs _ ht => madeOf_alias collections mappingInterface hs ht
  case partition =>
    rw [generated, Collection.skipped_eq, List.partition_eq_filter_filter]
    rfl
  case perm =>
    rw [generated]
    exact Collection.perm_listed_append_skipped collections
  case counts => exact forall₂_counts collections mappingInterface
  case checked =>
    intro path
    rw [Collection.checked_eq_listing, map_entry_ofCollections]
  case written =>
    intro m _ _ _ directory output
    rw [Generation.write_eq_map, generated, generated]

end CollectionTypes
