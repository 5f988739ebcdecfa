import CollectionTypes.Collection.Basic
import CollectionTypes.Decode.Toml

/-!
# Collections from TOML

A dump is an array `collections`, which may be absent. A collection is a table or a list of its
parts in order: the name, the fields, the computed fields. A field is defined by its signature, or
by a table from which only the signature is used. Members are read in their order in the table.
-/

namespace CollectionTypes.Toml

def signatureKey : Text := "signature"

/-- The signature of a field definition: an absent signature is an unknown one. -/
def Value.signature? (extent : Extent) (value : Value) : Option Text :=
  match value with
  | .string s => some s
  | _ =>
    (value.members? extent).bind fun members =>
      match members.find? fun m => m.1.name = signatureKey with
      | none => some Collection.unknownSignature
      | some (_, _, .string s) => some s
      | some _ => none

def signature (extent : Extent) (value : Value) : Decoded Text :=
  if value.allFit isWord then
    match value.signature? extent with
    | some s => .ok s
    | none => misfit .fieldDefinition extent
  else .error .number

def signatures (extent : Extent) (value : Value) : Decoded Signatures :=
  match value.members? extent with
  | none => .error (value.misfit .map extent)
  | some members =>
    members.foldlM (fun gathered (key, e, v) => (signature e v).map (gathered.insert key.name)) ∅

/-- The parts of a collection found so far. -/
structure CollectionParts where
  name : Option Text
  fields : Option Signatures
  computedFields : Option Signatures

namespace CollectionParts

def none : CollectionParts := ⟨.none, .none, .none⟩

def nameKey : Text := "name"

def fieldsKey : Text := "fields"

def computedFieldsKey : Text := "computed_fields"

def take (parts : CollectionParts) : Key × Extent × Value → Decoded CollectionParts
  | (key, extent, value) =>
    if key.name = nameKey then
      (value.text .string extent).map fun s => { parts with name := some s }
    else if key.name = fieldsKey then
      (signatures extent value).map fun s => { parts with fields := some s }
    else if key.name = computedFieldsKey then
      (signatures extent value).map fun s => { parts with computedFields := some s }
    else value.ignore.map fun _ => parts

end CollectionParts

def collectionOfMembers (extent : Extent) (members : List (Key × Extent × Value)) :
    Decoded Collection :=
  match members.foldlM CollectionParts.take .none with
  | .error e => .error e
  | .ok parts =>
    match parts.name with
    | none => misfit (.missingField CollectionParts.nameKey) extent
    | some name => .ok ⟨name, parts.fields, parts.computedFields⟩

/-- Absent elements are absent parts, and further ones have no meaning. -/
def collectionOfElements (extent : Extent) (elements : List (Extent × Value)) :
    Decoded Collection :=
  match elements with
  | [] => misfit (.length 0 .collectionFields) extent
  | (e, name) :: rest => do
    let name ← name.text .string e
    let fields ← rest[0]?.mapM fun (e, v) => signatures e v
    let computedFields ← rest[1]?.mapM fun (e, v) => signatures e v
    .ok ⟨name, fields, computedFields⟩

def collection (extent : Extent) (value : Value) : Decoded Collection :=
  match value.elements? with
  | some elements => collectionOfElements extent elements
  | none =>
    match value.members? extent with
    | some members => collectionOfMembers extent members
    | none => .error (value.misfit .collection extent)

def collections (extent : Extent) (value : Value) : Decoded (List Collection) :=
  match value.elements? with
  | some elements => elements.mapM fun (e, v) => collection e v
  | none => .error (value.misfit .sequence extent)

def collectionsKey : Text := "collections"

def dump (t : Table) : Decoded (List Collection) :=
  t.entries.foldlM
    (fun gathered (key, extent, value) =>
      if key.name = collectionsKey then collections extent value
      else value.ignore.map fun _ => gathered)
    []

/-- The collections of a dump, in order. Their names are not looked at. -/
def collectionsOf (source : Text) : Except Failure (List Collection) := decodeTable dump source

end CollectionTypes.Toml
