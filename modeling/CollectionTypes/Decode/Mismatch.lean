import CollectionTypes.Text.Shown

/-!
# Values of the wrong shape

A document may be well formed and still not describe what was asked for: a value has the wrong type
or a structure has a missing, repeated or unknown field. The messages are the same for every
document format.
-/

namespace CollectionTypes

/-- What a value was found to be. A number with a fraction comes with its text. -/
inductive Found where
  | null
  | boolean (value : Bool)
  | integer (value : Int)
  | float (text : Text)
  | string (value : Text)
  | sequence
  | map
deriving DecidableEq, Repr

/-- What was asked for. -/
inductive Wanted where
  | string
  | map
  | sequence
  | path
  | listing
  | collection
  | collectionFields
  | schemaTable
  | outputTable
deriving DecidableEq, Repr

inductive Mismatch where
  | type (found : Found) (wanted : Wanted)
  | missingField (name : Text)
  | duplicateField (name : Text)
  | unknownField (name : Text) (known : List Text)
  | length (found : Nat) (wanted : Wanted)
  | fieldDefinition
deriving DecidableEq, Repr

def Text.quoted (t : Text) : Text := '`' :: t ++ ['`']

def Text.ofInt (n : Int) : Text := (toString n).toList

namespace Found

def text : Found → Text
  | null => "null"
  | boolean b => "boolean " ++ Text.quoted (if b then "true" else "false")
  | integer n => "integer " ++ Text.quoted (Text.ofInt n)
  | float t => "floating point " ++ Text.quoted t
  | string t => "string " ++ t.shown
  | sequence => "sequence"
  | map => "map"

end Found

namespace Wanted

def text : Wanted → Text
  | string => "a string"
  | map => "a map"
  | sequence => "a sequence"
  | path => "path string"
  | listing => "struct JsonListing"
  | collection => "struct RecordSchema"
  | collectionFields => "struct RecordSchema with 3 elements"
  | schemaTable => "struct SchemaConfig"
  | outputTable => "struct OutputConfig"

end Wanted

namespace Mismatch

/-- The fields that a structure has. -/
def alternatives : List Text → Text
  | [] => "there are no fields"
  | [a] => "expected " ++ a.quoted
  | [a, b] => "expected " ++ a.quoted ++ " or " ++ b.quoted
  | names => "expected one of " ++ Text.joined ", " (names.map Text.quoted)

def message : Mismatch → Text
  | type found wanted => "invalid type: " ++ found.text ++ ", expected " ++ wanted.text
  | missingField name => "missing field " ++ name.quoted
  | duplicateField name => "duplicate field " ++ name.quoted
  | unknownField name known => "unknown field " ++ name.quoted ++ ", " ++ alternatives known
  | length n wanted => "invalid length " ++ Text.ofNat n ++ ", expected " ++ wanted.text
  | fieldDefinition => "data did not match any variant of untagged enum FieldDefinition"

end Mismatch
end CollectionTypes
