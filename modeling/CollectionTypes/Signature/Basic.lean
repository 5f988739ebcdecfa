import CollectionTypes.Signature.Scalar

/-!
# Field signatures and the types they become

A signature is a scalar, a name, an array, a reference to a document of a collection, an object
literal or a union. It is rendered as a type expression for one of three uses, which differ at
references only: reading sees the document, creating accepts the document or a reference to it, and
the wire format has the reference.
-/

namespace CollectionTypes

/-- What a rendered type is used for. -/
inductive Mode where
  | main
  | create
  | faunaCreate
deriving DecidableEq, Repr

/-- A property of an object literal: a name with a value, or a text that is neither. -/
inductive Property (α : Type) where
  | typed (name : Text) (value : α)
  | bare (text : Text)
deriving DecidableEq, Repr

inductive Signature where
  | scalar (scalar : Scalar)
  | named (name : Text)
  | array (element : Signature)
  | reference (target : Text)
  | object (properties : List (Property Signature))
  | union (alternatives : List Signature)

namespace Signature

/-- How an array begins, in signatures and in types. -/
def arrayOpening : Text := "Array<"

/-- How a reference begins. -/
def referenceOpening : Text := "Ref<"

/-- What stands between the alternatives of a rendered union. -/
def alternativeSeparator : Text := " | "

/-- What stands between the name and the type of a property. -/
def nameSeparator : Text := ": "

/-- A single word: a scalar keyword, or the name of a type. -/
def ofWord (word : Text) : Signature :=
  match Scalar.ofKeyword? word with
  | some s => .scalar s
  | none => .named word

def renderReference : Mode → Text → Text
  | .main, target => target
  | .create, target => target ++ alternativeSeparator ++ Driver.documentReference
  | .faunaCreate, _ => Driver.documentReference

/-- An object type with these members; the empty one has no blanks. -/
def renderObject : List Text → Text
  | [] => "\x7b\x7d"
  | p :: ps => "\x7b " ++ Text.joined "; " (p :: ps) ++ " \x7d"

mutual

def render (mode : Mode) : Signature → Text
  | .scalar s => s.typeName
  | .named name => name
  | .array element => arrayOpening ++ render mode element ++ ['>']
  | .reference target => renderReference mode target
  | .object properties => renderObject (renderProperties mode properties)
  | .union alternatives => Text.joined alternativeSeparator (renderAll mode alternatives)

def renderAll (mode : Mode) : List Signature → List Text
  | [] => []
  | s :: ss => render mode s :: renderAll mode ss

def renderProperties (mode : Mode) : List (Property Signature) → List Text
  | [] => []
  | .typed name value :: ps =>
    (name ++ nameSeparator ++ render mode value) :: renderProperties mode ps
  | .bare text :: ps => text :: renderProperties mode ps

end

theorem render_ofWord (mode : Mode) (word : Text) :
    render mode (ofWord word) = Scalar.typeOfWord word := by
  unfold ofWord Scalar.typeOfWord
  cases Scalar.ofKeyword? word <;> simp [render]

end Signature
end CollectionTypes
