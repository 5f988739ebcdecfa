import CollectionTypes.Dictionary
import CollectionTypes.Text.Basic

/-!
# Collections

A collection has a name and, each independently, a dictionary of field signatures and one of
computed field signatures. A collection whose field dictionary is absent defines no document type;
an empty dictionary does.
-/

namespace CollectionTypes

/-- Signatures by field name, in order of definition. -/
abbrev Signatures := Dictionary Text Text

structure Collection where
  name : Text
  fields : Option Signatures
  computedFields : Option Signatures
deriving DecidableEq

namespace Collection

/-- The signature of a field whose definition gives none. -/
def unknownSignature : Text := "unknown"

def new (name : Text) : Collection := { name, fields := some ∅, computedFields := none }

def withoutFields (name : Text) : Collection := { name, fields := none, computedFields := none }

/-- Inserts into a dictionary that may be absent. -/
def define (signatures : Option Signatures) (name signature : Text) : Option Signatures :=
  some ((signatures.getD ∅).insert name signature)

def field (c : Collection) (name signature : Text) : Collection :=
  { c with fields := define c.fields name signature }

def computedField (c : Collection) (name signature : Text) : Collection :=
  { c with computedFields := define c.computedFields name signature }

def fieldCount (c : Collection) : Nat := (c.fields.map Dictionary.size).getD 0

def computedFieldCount (c : Collection) : Nat := (c.computedFields.map Dictionary.size).getD 0

/-- The names of the collections without a field dictionary. -/
def skipped (collections : List Collection) : List Text :=
  (collections.filter (·.fields.isNone)).map name

end Collection
end CollectionTypes
