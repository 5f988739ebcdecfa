import CollectionTypes.Text.Basic

/-!
# Names of generated types

A usable type name is an ASCII identifier that is not one of the built-in type names.
-/

namespace CollectionTypes.Text

def isNameStart (c : Char) : Bool := c.isAlpha || c == '_' || c == '$'

def isNamePart (c : Char) : Bool := c.isAlphanum || c == '_' || c == '$'

def isIdentifier : Text → Bool
  | [] => false
  | c :: cs => isNameStart c && cs.all isNamePart

/-- The built-in types that a declaration would shadow. -/
def reservedTypeNames : List Text :=
  ["any", "bigint", "boolean", "never", "null", "number", "object", "string", "symbol",
    "undefined", "unknown", "void", "Array", "Partial", "Record"]

def isReservedTypeName (t : Text) : Bool := reservedTypeNames.contains t

end CollectionTypes.Text
