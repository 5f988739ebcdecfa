import CollectionTypes.Layout.Builder

/-!
# Type declarations

Object types, type aliases and interfaces, and their layout as code fragments. A declaration
without fields is a single line; every other takes one line for each field.
-/

namespace CollectionTypes.TypeScript

/-- A property of an object type or interface. -/
structure Field where
  name : Text
  type : Text
  optional : Bool
deriving DecidableEq, Repr

def Field.line (field : Field) : Text :=
  field.name ++ (if field.optional then ['?'] else []) ++ ": " ++ field.type ++ [';']

def exportOf (exported : Bool) : Text := if exported then "export " else []

/-- The declaration that `opening` begins: `{` and `}` around the fields, and `ending` after it. -/
def declare (opening : Text) (fields : List Field) (ending : Text) : Fragment :=
  if fields.isEmpty then .line (opening ++ "\x7b\x7d" ++ ending)
  else .block (opening ++ ['{']) (fields.map fun f => .line f.line) (some ('}' :: ending))

structure ObjectType where
  name : Text
  doc : Option Text
  fields : List Field
  exported : Bool
deriving DecidableEq, Repr

def ObjectType.fragments (object : ObjectType) : List Fragment :=
  (object.doc.map Fragment.doc).toList ++
    [declare (exportOf object.exported ++ "type " ++ object.name ++ " = ") object.fields [';']]

structure TypeAlias where
  name : Text
  type : Text
  exported : Bool
deriving DecidableEq, Repr

/-- The type whose fields are those of `type`, all of them optional. -/
def partialOf (type : Text) : Text := "Partial<" ++ type ++ ['>']

def TypeAlias.fragments (a : TypeAlias) : List Fragment :=
  [.line (exportOf a.exported ++ "type " ++ a.name ++ " = " ++ a.type ++ [';'])]

/-- Interfaces are always exported. -/
structure Interface where
  name : Text
  doc : Option Text
  fields : List Field
deriving DecidableEq, Repr

def Interface.fragments (interface : Interface) : List Fragment :=
  (interface.doc.map Fragment.doc).toList ++
    [declare ("export interface " ++ interface.name ++ " ") interface.fields []]

end CollectionTypes.TypeScript
