import CollectionTypes.Collection.Basic
import CollectionTypes.Json.Value

/-!
# Collections from JSON

A dump is a list of collections, or an object whose member `data` is that list. A collection is an
object or a list of its parts in order: the name, the fields, the computed fields. A field is
defined by its signature, or by an object from which only the signature is used.

Reading follows the text, so the first fault in reading order is the one reported, whether it is a
malformed text or a mismatch. Values under unknown keys are skipped.
-/

namespace CollectionTypes.Json

def Value.found : Value → Found
  | null => .null
  | boolean b => .boolean b
  | number n => n.found
  | string s => .string s
  | list _ => .sequence
  | object _ => .map

/-- The signature of a field definition: absent and null signatures are unknown ones. -/
def Value.signature? : Value → Option Text
  | string s => some s
  | object members =>
    match members.filter fun m => m.1 = "signature".toList with
    | [] => some Collection.unknownSignature
    | [(_, null)] => some Collection.unknownSignature
    | [(_, string s)] => some s
    | _ => none
  | _ => none

/-- The value that starts with `c` is not what was asked for. -/
def mismatched {α : Type} (wanted : Wanted) (c : Char) (cs : Text) : Taken α :=
  if c = '[' then atHere (.mismatch (.type .sequence wanted)) (c :: cs)
  else if c = '{' then atHere (.mismatch (.type .map wanted)) (c :: cs)
  else
    match takeScalar c cs with
    | .error e => .error e
    | .ok (v, rest) => atHere (.mismatch (.type v.found wanted)) rest

def takeText (t : Text) : Taken Text :=
  match skipSpace t with
  | [] => atNext .endInValue []
  | c :: cs => if c = '"' then takeString cs else mismatched .string c cs

/-- The member of a field dictionary after its key. -/
def takeSignature (depth : Nat) (gathered : Signatures) (key t : Text) : Taken Signatures :=
  match skipColon t with
  | .error e => .error e
  | .ok rest =>
    match takeValue depth rest with
    | .error e => .error e
    | .ok (v, r) =>
      match v.signature? with
      | some s => .ok (gathered.insert key s, r)
      | none => .error (.pending .fieldDefinition r)

def takeSignatures (depth : Nat) (t : Text) : Taken Signatures :=
  match skipSpace t with
  | [] => atNext .endInValue []
  | c :: cs =>
    if c = '{' then
      match depth with
      | 0 => atNext .tooDeep (c :: cs)
      | depth + 1 => enclosed closeObject (takeMembers (takeSignature depth) ∅ true cs)
    else mismatched .map c cs

/-- A field dictionary, which may be null. -/
def takeOptionalSignatures (depth : Nat) (t : Text) : Taken (Option Signatures) :=
  match skipSpace t with
  | 'n' :: cs => takeLetters nullLetters none cs
  | _ => (takeSignatures depth t).map fun (s, r) => (some s, r)

/-- The parts of a collection found so far. -/
structure CollectionParts where
  name : Option Text
  fields : Option (Option Signatures)
  computedFields : Option (Option Signatures)

namespace CollectionParts

def none : CollectionParts := ⟨.none, .none, .none⟩

def nameKey : Text := "name"

def fieldsKey : Text := "fields"

def computedFieldsKey : Text := "computed_fields"

/-- The member of a collection after its key. A repeated key is found before its value is read. -/
def take (depth : Nat) (parts : CollectionParts) (key t : Text) : Taken CollectionParts :=
  if key = nameKey then
    if parts.name.isSome then .error (.pending (.duplicateField key) t)
    else
      match skipColon t with
      | .error e => .error e
      | .ok rest => (takeText rest).map fun (s, r) => ({ parts with name := some s }, r)
  else if key = fieldsKey then
    if parts.fields.isSome then .error (.pending (.duplicateField key) t)
    else
      match skipColon t with
      | .error e => .error e
      | .ok rest =>
        (takeOptionalSignatures depth rest).map fun (s, r) => ({ parts with fields := some s }, r)
  else if key = computedFieldsKey then
    if parts.computedFields.isSome then .error (.pending (.duplicateField key) t)
    else
      match skipColon t with
      | .error e => .error e
      | .ok rest =>
        (takeOptionalSignatures depth rest).map fun (s, r) =>
          ({ parts with computedFields := some s }, r)
  else
    match skipColon t with
    | .error e => .error e
    | .ok rest => (skipValue rest).map fun r => (parts, r)

end CollectionParts

/-- A collection written as an object, after the opening bracket. -/
def takeCollectionMembers (depth : Nat) (t : Text) : Taken Collection :=
  match takeMembers (CollectionParts.take depth) .none true t with
  | .error e => .error e
  | .ok (parts, rest) =>
    match parts.name with
    | none => .error (.pending (.missingField CollectionParts.nameKey) rest)
    | some name =>
      .ok (⟨name, parts.fields.getD none, parts.computedFields.getD none⟩, rest)

/-- The next part of a collection written as a list; no more parts are absent ones. -/
def takeNextSignatures (depth : Nat) (t : Text) : Taken (Option Signatures) :=
  match nextElement false t with
  | .error e => .error e
  | .ok (.done rest) => .ok (none, rest)
  | .ok (.more rest) => takeOptionalSignatures depth rest

/-- A collection written as a list, after the opening bracket. -/
def takeCollectionElements (depth : Nat) (t : Text) : Taken Collection :=
  match nextElement true t with
  | .error e => .error e
  | .ok (.done rest) => .error (.pending (.length 0 .collectionFields) rest)
  | .ok (.more rest) =>
    match takeText rest with
    | .error e => .error e
    | .ok (name, r₁) =>
      match takeNextSignatures depth r₁ with
      | .error e => .error e
      | .ok (fields, r₂) =>
        (takeNextSignatures depth r₂).map fun (computedFields, r) =>
          (⟨name, fields, computedFields⟩, r)

def takeCollection (depth : Nat) (t : Text) : Taken Collection :=
  match skipSpace t with
  | [] => atNext .endInValue []
  | c :: cs =>
    if c = '[' then
      match depth with
      | 0 => atNext .tooDeep (c :: cs)
      | depth + 1 => enclosed closeList (takeCollectionElements depth cs)
    else if c = '{' then
      match depth with
      | 0 => atNext .tooDeep (c :: cs)
      | depth + 1 => enclosed closeObject (takeCollectionMembers depth cs)
    else mismatched .collection c cs

def takeCollections (depth : Nat) (t : Text) : Taken (List Collection) :=
  match skipSpace t with
  | [] => atNext .endInValue []
  | c :: cs =>
    if c = '[' then
      match depth with
      | 0 => atNext .tooDeep (c :: cs)
      | depth + 1 => enclosed closeList (takeElements (takeCollection depth) true cs)
    else mismatched .sequence c cs

def dataKey : Text := "data"

/-- The member of a listing after its key. -/
def takeListingMember (depth : Nat) (gathered : Option (List Collection)) (key t : Text) :
    Taken (Option (List Collection)) :=
  if key = dataKey then
    if gathered.isSome then .error (.pending (.duplicateField key) t)
    else
      match skipColon t with
      | .error e => .error e
      | .ok rest => (takeCollections depth rest).map fun (cs, r) => (some cs, r)
  else
    match skipColon t with
    | .error e => .error e
    | .ok rest => (skipValue rest).map fun r => (gathered, r)

/-- A listing after its opening bracket. -/
def takeListingMembers (depth : Nat) (t : Text) : Taken (List Collection) :=
  match takeMembers (takeListingMember depth) none true t with
  | .error e => .error e
  | .ok (some cs, rest) => .ok (cs, rest)
  | .ok (none, rest) => .error (.pending (.missingField dataKey) rest)

def takeListing (depth : Nat) (t : Text) : Taken (List Collection) :=
  match skipSpace t with
  | [] => atNext .endInValue []
  | c :: cs =>
    if c = '{' then
      match depth with
      | 0 => atNext .tooDeep (c :: cs)
      | depth + 1 => enclosed closeObject (takeListingMembers depth cs)
    else mismatched .listing c cs

/-- The only value of a text. -/
def whole {α : Type} (taken : Taken α) : Except Fault α :=
  match taken with
  | .error e => .error e
  | .ok (a, rest) =>
    match skipSpace rest with
    | [] => .ok a
    | c :: cs => atNext .trailingText (c :: cs)

/-- Whether a dump is a plain list. Any blank may come before its first bracket. -/
def isList (source : Text) : Bool := (Text.trimStart source).head? = some '['

def takeDump (source : Text) : Except Fault (List Collection) :=
  if isList source then whole (takeCollections maxDepth source)
  else whole (takeListing maxDepth source)

/-- The collections of a dump, in order. Their names are not looked at. -/
def collectionsOf (source : Text) : Except Failure (List Collection) :=
  (takeDump source).mapError (Failure.ofFault source)

end CollectionTypes.Json
