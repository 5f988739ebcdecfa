import CollectionTypes.Collection.Basic
import CollectionTypes.Signature.Read
import CollectionTypes.TypeScript.Declaration

/-!
# Declarations of a collection

A collection with a field dictionary yields seven types:

* the type of its documents, with the computed fields after the others;
* the type of a new document, in which a reference may also be the document itself, and aliases for
  a partial update and for a replacement;
* the same three for the wire format, in which references are always references.
-/

namespace CollectionTypes

/-- The names of the seven types of a collection. -/
structure TypeNames where
  main : Text
  create : Text
  update : Text
  replace : Text
  faunaCreate : Text
  faunaUpdate : Text
  faunaReplace : Text
deriving DecidableEq, Repr

namespace TypeNames

def ofCollection (name : Text) : TypeNames where
  main := name
  create := name ++ "_Create"
  update := name ++ "_Update"
  replace := name ++ "_Replace"
  faunaCreate := name ++ "_FaunaCreate"
  faunaUpdate := name ++ "_FaunaUpdate"
  faunaReplace := name ++ "_FaunaReplace"

/-- All names in the order of the declarations. -/
def all (names : TypeNames) : List Text :=
  [names.main, names.create, names.update, names.replace, names.faunaCreate, names.faunaUpdate,
    names.faunaReplace]

/-- The types by operation. Those of the wire format are left out. -/
def mappingType (names : TypeNames) : Text :=
  "\x7b main: " ++ names.main ++ "; create: " ++ names.create ++ "; replace: " ++ names.replace ++
    "; update: " ++ names.update ++ " \x7d"

end TypeNames

open TypeScript

/-- The field of a generated type for a field with this signature. -/
def renderField (mode : Mode) (name signature : Text) : Field where
  name := name
  type := (Signature.ofField signature).render mode
  optional := (stripOptional signature).2

def renderFields (mode : Mode) (signatures : Signatures) : List Field :=
  signatures.entries.map fun (name, signature) => renderField mode name signature

/-- The declarations of one collection. -/
structure DeclarationSet where
  names : TypeNames
  main : ObjectType
  create : ObjectType
  update : TypeAlias
  replace : TypeAlias
  faunaCreate : ObjectType
  faunaUpdate : TypeAlias
  faunaReplace : TypeAlias
deriving DecidableEq, Repr

namespace DeclarationSet

def docOf (name : Text) : Text := "Document of the `" ++ name ++ "` collection."

/-- The declarations for a collection with these fields and computed fields. -/
def ofFields (name : Text) (fields computed : Signatures) : DeclarationSet :=
  let names := TypeNames.ofCollection name
  { names
    main :=
      { name := names.main
        doc := some (docOf name)
        fields := renderFields .main fields ++ renderFields .main computed
        exported := false }
    create :=
      { name := names.create
        doc := none
        fields := renderFields .create fields
        exported := false }
    update := { name := names.update, type := partialOf names.create, exported := false }
    replace := { name := names.replace, type := names.create, exported := false }
    faunaCreate :=
      { name := names.faunaCreate
        doc := none
        fields := renderFields .faunaCreate fields
        exported := false }
    faunaUpdate :=
      { name := names.faunaUpdate, type := partialOf names.faunaCreate, exported := false }
    faunaReplace := { name := names.faunaReplace, type := names.faunaCreate, exported := false } }

def ofCollection? (c : Collection) : Option DeclarationSet :=
  c.fields.map fun fields => ofFields c.name fields (c.computedFields.getD ∅)

/-- The member of the mapping interface for this collection. -/
def mappingField (set : DeclarationSet) : Field where
  name := set.names.main
  type := set.names.mappingType
  optional := false

def fragments (set : DeclarationSet) : List Fragment :=
  set.main.fragments ++ [.blank] ++
    set.create.fragments ++ set.update.fragments ++ set.replace.fragments ++ [.blank] ++
    set.faunaCreate.fragments ++ set.faunaUpdate.fragments ++ set.faunaReplace.fragments

end DeclarationSet

/-- The declaration sets of the collections that have fields, in order. -/
def declarations (collections : List Collection) : List DeclarationSet :=
  collections.filterMap DeclarationSet.ofCollection?

/-- All names of declared types. -/
def exportNames (sets : List DeclarationSet) : List Text := sets.flatMap (·.names.all)

def mappingFields (sets : List DeclarationSet) : List Field := sets.map (·.mappingField)

end CollectionTypes
