import CollectionTypes.Proofs.BoundNames
import CollectionTypes.Proofs.LayoutLines
import CollectionTypes.Proofs.Segments

/-!
# The lines of the generated document

`documentLines` says what the generated file consists of, line by line and in plain texts: the
header and the import, a block of declarations for each collection that has fields, the mapping
interface, and the export if there is anything to export. The generated text is exactly this list
of lines, and since no type has a line break that its signature did not have, cutting the text at
its line breaks gives the list back.
-/

namespace CollectionTypes

/-! ### The document in plain lines -/

namespace DocumentLines

/-- A declaration around these lines; without any it is a single line. -/
def braced (opening : Text) (members : List Text) (ending : Text) : List Text :=
  if members.isEmpty then [opening ++ "\x7b\x7d" ++ ending]
  else (opening ++ "\x7b") :: (members ++ ["\x7d" ++ ending])

/-- The line of a field; an optional one has a question mark after its name. -/
def member (mode : Mode) (name signature : Text) : Text :=
  "  " ++ name ++ (if (stripOptional signature).2 then ['?'] else []) ++ ": " ++
    (Signature.ofField signature).render mode ++ ";"

def members (mode : Mode) (signatures : Signatures) : List Text :=
  signatures.entries.map fun (name, signature) => member mode name signature

def objectType (name : Text) (members : List Text) : List Text :=
  braced ("type " ++ name ++ " = ") members ";"

def aliasType (name type : Text) : Text := "type " ++ name ++ " = " ++ type ++ ";"

/-- An object type, and below it the types of updates and replacements with it. -/
def inputTypes (create update replace : Text) (members : List Text) : List Text :=
  objectType create members ++
    [aliasType update ("Partial<" ++ create ++ ">"), aliasType replace create]

/-- A documentation comment with this text. -/
def comment (text : Text) : Text := "/** " ++ text ++ " */"

def docLine (name : Text) : Text := "/** Document of the `" ++ name ++ "` collection. */"

/-- What a collection with these fields and computed fields adds to the document. -/
def block (name : Text) (fields computed : Signatures) : List Text :=
  docLine name :: objectType name (members .main fields ++ members .main computed) ++
    [[]] ++
    inputTypes (name ++ "_Create") (name ++ "_Update") (name ++ "_Replace")
      (members .create fields) ++
    [[]] ++
    inputTypes (name ++ "_FaunaCreate") (name ++ "_FaunaUpdate") (name ++ "_FaunaReplace")
      (members .faunaCreate fields)

def blocks (collections : List Collection) : List (List Text) :=
  collections.filterMap fun c =>
    c.fields.map fun fields => block c.name fields (c.computedFields.getD ∅)

/-- The types of a collection by operation. -/
def mappingType (name : Text) : Text :=
  "\x7b main: " ++ name ++ "; create: " ++ (name ++ "_Create") ++ "; replace: " ++
    (name ++ "_Replace") ++ "; update: " ++ (name ++ "_Update") ++ " \x7d"

def mappingMember (name : Text) : Text := "  " ++ name ++ ": " ++ mappingType name ++ ";"

/-- A blank line and the export; nothing if there is nothing to export. -/
def exportLines (names : List Text) : List Text :=
  if names.isEmpty then []
  else
    ["",
      "export type \x7b " ++ (", " : Text).intercalate (names.flatMap TypeNames.family) ++ " \x7d;"]

/-- The lines above the declarations. -/
def header : List Text :=
  ["// Generated by faunats. Do not edit by hand.",
    "",
    "import type \x7b DateStub, DocumentReference, TimeStub \x7d from \"fauna\";",
    ""]

def mappingDoc : Text := "/** Read, create, replace and update types of every collection. */"

def mapping (name : Text) (names : List Text) : List Text :=
  mappingDoc :: braced ("export interface " ++ name ++ " ") (names.map mappingMember) ""

end DocumentLines

open DocumentLines in
def documentLines (collections : List Collection) (mappingInterface : Text) : List Text :=
  header ++ (blocks collections).flatMap (· ++ [[]]) ++
    mapping mappingInterface (Collection.generated collections) ++
    exportLines (Collection.generated collections)

/-! ### The document is written in these lines -/

open TypeScript DocumentLines

/-- The lines of fragments at level zero with standard indentation. -/
def Fragment.texts (fs : List Fragment) : List Text :=
  (linesOfAll 0 fs).map (Line.text Indent.standard)

theorem Fragment.texts_append (fs gs : List Fragment) :
    texts (fs ++ gs) = texts fs ++ texts gs := by
  rw [texts, linesOfAll_append, List.map_append, texts, texts]

@[simp] theorem Fragment.texts_blank : texts [.blank] = [[]] := rfl

theorem Fragment.texts_block (header close : Text) (members : List Text) :
    texts [.block header (members.map .line) (some close)] =
      header :: (members.map fun t => "  ".toList ++ t) ++ [close] := by
  rw [texts, linesOfAll, lines, linesOfAll_map_line]
  simp only [linesOfAll, Option.map_some, Option.toList_some, List.append_nil, List.map_cons,
    List.map_append, List.map_map, List.map_nil]
  rfl

namespace TypeScript

/-- The line of a field inside a declaration. -/
def Field.indentedLine (f : Field) : Text := "  " ++ f.line

theorem texts_declare (opening : Text) (fields : List Field) (ending : Text) :
    Fragment.texts [declare opening fields ending] =
      braced opening (fields.map Field.indentedLine) ending := by
  cases fields with
  | nil => rfl
  | cons f fs =>
    have body := Fragment.texts_block (opening ++ ['{']) ('}' :: ending) ((f :: fs).map Field.line)
    rw [List.map_map, List.map_map] at body
    exact body

theorem indentedLine_renderFields (mode : Mode) (signatures : Signatures) :
    (renderFields mode signatures).map Field.indentedLine = members mode signatures := by
  unfold renderFields members
  rw [List.map_map]
  apply List.map_congr_left
  intro e _
  simp only [Function.comp_apply, Field.indentedLine, Field.line, renderField, member,
    List.append_assoc]
  rfl

theorem texts_typeAlias (name type : Text) :
    Fragment.texts (TypeAlias.fragments ⟨name, type, false⟩) = [aliasType name type] := rfl

theorem texts_objectType (name : Text) (doc : Option Text) (fields : List Field) :
    Fragment.texts (ObjectType.fragments ⟨name, doc, fields, false⟩) =
      (doc.map comment).toList ++
        objectType name (fields.map Field.indentedLine) := by
  have declaration : Fragment.texts [declare ("type " ++ name ++ " = ") fields [';']] =
      objectType name (fields.map Field.indentedLine) := texts_declare _ fields _
  cases doc with
  | none => exact declaration
  | some doc => exact congrArg (comment doc :: ·) declaration

theorem partialOf_eq (type : Text) : partialOf type = "Partial<" ++ type ++ ">" := rfl

end TypeScript

theorem comment_docOf (name : Text) : comment (DeclarationSet.docOf name) = docLine name := by
  have opening : "/** Document of the `".toList = "/** ".toList ++ "Document of the `".toList := by
    decide
  have closing : "` collection. */".toList = "` collection.".toList ++ " */".toList := by decide
  unfold comment DeclarationSet.docOf docLine
  rw [opening, closing]
  simp only [List.append_assoc]

theorem DeclarationSet.texts_ofFields (name : Text) (fields computed : Signatures) :
    Fragment.texts (ofFields name fields computed).fragments = block name fields computed := by
  have main := texts_objectType name (some (docOf name))
    (renderFields .main fields ++ renderFields .main computed)
  have create := texts_objectType (name ++ "_Create") none (renderFields .create fields)
  have wire := texts_objectType (name ++ "_FaunaCreate") none (renderFields .faunaCreate fields)
  rw [List.map_append, indentedLine_renderFields, indentedLine_renderFields, Option.map_some,
    comment_docOf] at main
  rw [indentedLine_renderFields, Option.map_none] at create wire
  unfold fragments
  simp only [Fragment.texts_append]
  unfold ofFields
  dsimp only [TypeNames.ofCollection]
  rw [main, create, wire, texts_typeAlias, texts_typeAlias, texts_typeAlias, texts_typeAlias,
    Fragment.texts_blank, partialOf_eq, partialOf_eq]
  simp only [block, inputTypes, Option.toList_some, Option.toList_none, List.nil_append,
    List.append_assoc, List.cons_append]

theorem names_declarations (collections : List Collection) :
    (declarations collections).map (·.names) =
      (Collection.generated collections).map TypeNames.ofCollection := by
  induction collections with
  | nil => rfl
  | cons c cs ih =>
    unfold declarations Collection.generated at ih ⊢
    cases hc : c.fields with
    | none => simpa [hc, DeclarationSet.ofCollection?] using ih
    | some fields =>
      simp only [List.filter_cons, hc, Option.isSome_some, if_true, List.map_cons, ← ih,
        List.filterMap_cons, DeclarationSet.ofCollection?, Option.map_some]
      rfl

theorem blocks_eq_map_texts (collections : List Collection) :
    blocks collections =
      (declarations collections).map fun set => Fragment.texts set.fragments := by
  unfold blocks declarations
  rw [List.map_filterMap]
  apply List.filterMap_congr
  intro c _
  cases hc : c.fields with
  | none => simp [DeclarationSet.ofCollection?, hc]
  | some fields => simp [DeclarationSet.ofCollection?, hc, DeclarationSet.texts_ofFields]

theorem indentedLine_mappingFields (collections : List Collection) :
    (mappingFields (declarations collections)).map Field.indentedLine =
      (Collection.generated collections).map mappingMember := by
  have members : (mappingFields (declarations collections)).map Field.indentedLine =
      ((declarations collections).map (·.names)).map fun names =>
        Field.indentedLine ⟨names.main, names.mappingType, false⟩ := by
    unfold mappingFields
    rw [List.map_map, List.map_map]
    rfl
  rw [members, names_declarations, List.map_map]
  apply List.map_congr_left
  intro name _
  have type : (TypeNames.ofCollection name).mappingType = mappingType name := rfl
  simp only [Function.comp_apply, Field.indentedLine, Field.line, type, mappingMember,
    List.append_assoc, List.append_nil, if_false, Bool.false_eq_true]
  rfl

theorem exportNames_declarations (collections : List Collection) :
    exportNames (declarations collections) =
      (Collection.generated collections).flatMap TypeNames.family := by
  have all : exportNames (declarations collections) =
      ((declarations collections).map (·.names)).flatMap TypeNames.all := by
    rw [exportNames, List.flatMap_map]
  rw [all, names_declarations, List.flatMap_map]
  rfl

namespace TypeScript

theorem texts_section (spaced : Bool) (es : List (List Fragment)) :
    (Section.lines ⟨spaced, es⟩).map (Line.text Indent.standard) =
      (if spaced then [([] : Text)] else []).intercalate (es.map Fragment.texts) := by
  unfold Section.lines
  rw [map_intercalate, List.map_map]
  cases spaced <;> rfl

theorem texts_sourceFile (file : SourceFile) :
    file.lines.map (Line.text Indent.standard) =
      [([] : Text)].intercalate
        ((file.sections.filter fun s => !s.elements.isEmpty).map fun s =>
          (Section.lines s).map (Line.text Indent.standard)) := by
  unfold SourceFile.lines
  rw [map_intercalate, List.map_map]
  rfl

end TypeScript

namespace Document

theorem sections_sourceFile (document : Document) :
    document.sourceFile.sections =
      [⟨false, [SourceFile.headerFragments headerLine]⟩,
        ⟨false, [document.driverImport.fragments]⟩,
        ⟨true, document.sets.map DeclarationSet.fragments ++ [document.mapping.fragments]⟩,
        ⟨false, if document.exported.isEmpty then [] else [document.exported.fragments]⟩] := by
  unfold sourceFile SourceFile.addExport
  split
  next h =>
    rw [h]
    rfl
  next h =>
    rw [Bool.not_eq_false] at h
    rw [h]
    rfl

theorem texts_body (document : Document) :
    (Section.lines
        ⟨true, document.sets.map DeclarationSet.fragments ++ [document.mapping.fragments]⟩).map
        (Line.text Indent.standard) =
      (document.sets.flatMap fun set => Fragment.texts set.fragments ++ [[]]) ++
        Fragment.texts document.mapping.fragments := by
  rw [texts_section, List.map_append, List.map_singleton, if_pos rfl,
    intercalate_append_singleton, List.map_map, List.flatMap_map]
  rfl

/-- The lines of a document: those of its declarations end with a blank line each. -/
theorem texts_sourceFile (document : Document) :
    document.sourceFile.lines.map (Line.text Indent.standard) =
      Fragment.texts (SourceFile.headerFragments headerLine) ++ [[]] ++
        Fragment.texts document.driverImport.fragments ++ [[]] ++
        (document.sets.flatMap fun set => Fragment.texts set.fragments ++ [[]]) ++
        Fragment.texts document.mapping.fragments ++
        (if document.exported.isEmpty then []
        else [] :: Fragment.texts document.exported.fragments) := by
  have body := document.texts_body
  rw [TypeScript.texts_sourceFile, sections_sourceFile]
  cases h : document.exported.isEmpty with
  | true =>
    simp [body, texts_section, List.intercalate_cons_cons]
  | false =>
    simp [body, texts_section, List.intercalate_cons_cons]

end Document

theorem TypeScript.texts_interface (name doc : Text) (fields : List Field) :
    Fragment.texts (Interface.fragments ⟨name, some doc, fields⟩) =
      comment doc ::
        braced ("export interface " ++ name ++ " ") (fields.map Field.indentedLine) [] := by
  rw [← texts_declare]
  rfl

theorem isEmpty_flatMap_family (names : List Text) :
    (names.flatMap TypeNames.family).isEmpty = names.isEmpty := by
  cases names <;> rfl

theorem exportLines_eq (names : List Text) :
    exportLines names =
      if (names.flatMap TypeNames.family).isEmpty then []
      else [] :: Fragment.texts (Export.fragments ⟨names.flatMap TypeNames.family, true⟩) := by
  unfold exportLines Export.fragments Export.isEmpty
  rw [isEmpty_flatMap_family]
  split
  next => rfl
  next =>
    rw [Text.joined_eq_intercalate]
    rfl

theorem texts_header :
    Fragment.texts (SourceFile.headerFragments Document.headerLine) ++ [[]] ++
      Fragment.texts (Import.fragments ⟨Driver.moduleName, Driver.types, true⟩) ++ [[]] =
      header := by
  decide

/-- The generated text is the specified document, for whatever texts it is made of. -/
theorem generatedText_eq_ofLines (collections : List Collection) (output : OutputSettings) :
    generatedText collections output =
      Text.ofLines (documentLines collections output.mappingInterface) := by
  have interface := texts_interface output.mappingInterface Document.mappingDoc
    (mappingFields (declarations collections))
  rw [indentedLine_mappingFields] at interface
  have mappingLines : comment Document.mappingDoc = mappingDoc := by decide
  unfold generatedText Document.render
  rw [SourceFile.render_eq_ofLines, Document.texts_sourceFile, documentLines, ← texts_header,
    blocks_eq_map_texts, List.flatMap_map, mapping, exportLines_eq, ← exportNames_declarations,
    ← mappingLines]
  unfold Document.ofCollections
  dsimp only
  rw [interface]
  rfl

end CollectionTypes
