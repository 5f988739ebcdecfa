import CollectionTypes.Proofs.Nesting
import CollectionTypes.Proofs.Reading
import CollectionTypes.Proofs.Trimming
import CollectionTypes.Text.Name

/-!
# The language of signatures

A signature of the language is a tree of scalars, names, references, arrays, object literals and
unions, together with the blanks and optional markers of its text. `Expression.text` writes it down
and `Expression.type` is the type that the language assigns to it; neither refers to how texts are
read. The main statement is that reading the text gives this type, for every tree, every layout and
every mode.
-/

namespace CollectionTypes.Language

open Nesting

/-! ### Words and layout -/

/-- White space, possibly none. -/
abbrev Space := { t : Text // Text.Blank t }

def noSpace : Space := ⟨[], fun _ h => absurd h List.not_mem_nil⟩

abbrev Identifier := { t : Text // Text.isIdentifier t = true }

def scalarKeyword : Scalar → Text
  | .string => "String"
  | .boolean => "Boolean"
  | .long => "Long"
  | .int => "Int"
  | .time => "Time"
  | .date => "Date"
  | .null => "Null"

def scalarType : Scalar → Text
  | .string => "string"
  | .boolean => "boolean"
  | .long => "number"
  | .int => "number"
  | .time => "TimeStub"
  | .date => "DateStub"
  | .null => "null"

/-- An identifier that is no scalar keyword. -/
abbrev OtherName := { t : Text // Text.isIdentifier t = true ∧ ∀ s, t ≠ scalarKeyword s }

/-- An optional marker with the blanks after it. -/
abbrev Marker := Option Space

def Marker.text : Marker → Text
  | none => []
  | some after => '?' :: after.val

/-- What stands around a part of a signature: blanks, and after it perhaps a marker. -/
structure Layout where
  before : Space
  after : Space
  marker : Marker

def Layout.around (l : Layout) (t : Text) : Text :=
  l.before.val ++ t ++ l.after.val ++ Marker.text l.marker

/-- The name of a property, which may end in a marker of its own, and the blanks around it. -/
structure PropertyName where
  before : Space
  name : Identifier
  optional : Bool
  after : Space

namespace PropertyName

def text (p : PropertyName) : Text := p.name.val ++ if p.optional then ['?'] else []

/-- The property with this value. -/
def withValue (p : PropertyName) (value : Text) : Text :=
  p.before.val ++ (p.text ++ p.after.val ++ ':' :: value)

end PropertyName

/-! ### Trees -/

mutual

/-- A signature that is no union, without the blanks and the marker around it. -/
inductive Construct where
  | scalar (scalar : Scalar)
  | named (name : OtherName)
  | array (element : Expression)
  | reference (before : Space) (target : Identifier) (after : Space)
  /-- The places between commas after the last property are blank: none where the literal ends with
  a property, one after a trailing comma. The inside of `{ }` is such a place, too. -/
  | object (properties : List (PropertyName × Expression)) (trailing : List Space)

/-- A signature as it is written. A union has two or more alternatives, which are no unions. -/
inductive Expression where
  | single (layout : Layout) (construct : Construct)
  | union (layout : Layout) (first : Construct) (middle : List (Layout × Construct))
      (lastLayout : Layout) (last : Construct) (marker : Marker)

end

mutual

def Construct.text : Construct → Text
  | .scalar s => scalarKeyword s
  | .named name => name.val
  | .array element => "Array<" ++ element.text ++ ">"
  | .reference before target after => "Ref<" ++ (before.val ++ target.val ++ after.val) ++ ">"
  | .object properties trailing =>
    '{' :: [','].intercalate (propertyTexts properties ++ trailing.map Subtype.val) ++ ['}']

def Expression.text : Expression → Text
  | .single layout construct => layout.around construct.text
  | .union layout first middle lastLayout last marker =>
    ['|'].intercalate
        (layout.around first.text :: (partTexts middle ++ [lastLayout.around last.text])) ++
      Marker.text marker

def partTexts : List (Layout × Construct) → List Text
  | [] => []
  | (layout, construct) :: parts => layout.around construct.text :: partTexts parts

def propertyTexts : List (PropertyName × Expression) → List Text
  | [] => []
  | (name, value) :: properties => name.withValue value.text :: propertyTexts properties

end

section Texts

variable (layout lastLayout : Layout) (construct first last : Construct)
  (middle parts : List (Layout × Construct)) (marker : Marker) (name : PropertyName)
  (value : Expression) (properties : List (PropertyName × Expression))

@[simp] theorem Construct.text_scalar (s : Scalar) :
    (Construct.scalar s).text = scalarKeyword s := rfl

@[simp] theorem Construct.text_named (n : OtherName) : (Construct.named n).text = n.val := rfl

@[simp] theorem Construct.text_array :
    (Construct.array value).text = "Array<" ++ value.text ++ ">" := rfl

@[simp] theorem Construct.text_reference (before after : Space) (target : Identifier) :
    (Construct.reference before target after).text =
      "Ref<" ++ (before.val ++ target.val ++ after.val) ++ ">" := rfl

@[simp] theorem Construct.text_object (trailing : List Space) :
    (Construct.object properties trailing).text =
      '{' :: [','].intercalate (propertyTexts properties ++ trailing.map Subtype.val) ++ ['}'] :=
  rfl

@[simp] theorem Expression.text_single :
    (Expression.single layout construct).text = layout.around construct.text := rfl

@[simp] theorem Expression.text_union :
    (Expression.union layout first middle lastLayout last marker).text =
      ['|'].intercalate
          (layout.around first.text :: (partTexts middle ++ [lastLayout.around last.text])) ++
        Marker.text marker := rfl

@[simp] theorem partTexts_nil : partTexts [] = [] := rfl

@[simp] theorem partTexts_cons :
    partTexts ((layout, construct) :: parts) =
      layout.around construct.text :: partTexts parts := rfl

@[simp] theorem propertyTexts_nil : propertyTexts [] = [] := rfl

@[simp] theorem propertyTexts_cons :
    propertyTexts ((name, value) :: properties) =
      name.withValue value.text :: propertyTexts properties := rfl

end Texts

def referenceType : Mode → Text → Text
  | .main, target => target
  | .create, target => target ++ " | DocumentReference"
  | .faunaCreate, _ => "DocumentReference"

def objectType : List Text → Text
  | [] => "\x7b\x7d"
  | p :: ps => "\x7b " ++ ("; " : Text).intercalate (p :: ps) ++ " \x7d"

mutual

def Construct.type (mode : Mode) : Construct → Text
  | .scalar s => scalarType s
  | .named name => name.val
  | .array element => "Array<" ++ element.type mode ++ ">"
  | .reference _ target _ => referenceType mode target.val
  | .object properties _ => objectType (propertyTypes mode properties)

def Expression.type (mode : Mode) : Expression → Text
  | .single _ construct => construct.type mode
  | .union _ first middle _ last _ =>
    (" | " : Text).intercalate (first.type mode :: (partTypes mode middle ++ [last.type mode]))

def partTypes (mode : Mode) : List (Layout × Construct) → List Text
  | [] => []
  | (_, construct) :: parts => construct.type mode :: partTypes mode parts

def propertyTypes (mode : Mode) : List (PropertyName × Expression) → List Text
  | [] => []
  | (name, value) :: properties =>
    (name.text ++ ": " ++ value.type mode) :: propertyTypes mode properties

end

section Types

variable (mode : Mode) (layout lastLayout : Layout) (construct first last : Construct)
  (middle parts : List (Layout × Construct)) (marker : Marker) (name : PropertyName)
  (value : Expression) (properties : List (PropertyName × Expression))

@[simp] theorem Construct.type_reference (before after : Space) (target : Identifier) :
    (Construct.reference before target after).type mode = referenceType mode target.val := rfl

@[simp] theorem Construct.type_object (trailing : List Space) :
    (Construct.object properties trailing).type mode =
      objectType (propertyTypes mode properties) := rfl

@[simp] theorem Expression.type_union :
    (Expression.union layout first middle lastLayout last marker).type mode =
      (" | " : Text).intercalate
        (first.type mode :: (partTypes mode middle ++ [last.type mode])) := rfl

@[simp] theorem partTypes_cons :
    partTypes mode ((layout, construct) :: parts) =
      construct.type mode :: partTypes mode parts := rfl

@[simp] theorem propertyTypes_cons :
    propertyTypes mode ((name, value) :: properties) =
      (name.text ++ ": " ++ value.type mode) :: propertyTypes mode properties := rfl

end Types

/-- An optional array of references or null, written with a trailing comma and a line break. -/
example :
    let blank : Space := ⟨[' '], by decide⟩
    let plain : Layout := ⟨noSpace, noSpace, none⟩
    let user : Construct := .reference noSpace ⟨"User".toList, by decide⟩ noSpace
    let friends : Expression :=
      .union ⟨blank, noSpace, some blank⟩ (.array (.single plain user)) []
        ⟨blank, noSpace, none⟩ (.scalar .null) none
    let tree : Expression :=
      .single ⟨noSpace, blank, some noSpace⟩
        (.object [(⟨blank, ⟨"friends".toList, by decide⟩, true, noSpace⟩, friends)]
          [⟨['\n'], by decide⟩])
    tree.text = "\x7b friends?: Array<Ref<User>>? | Null,\n\x7d ?".toList ∧
      tree.type .create = "\x7b friends?: Array<User | DocumentReference> | null \x7d".toList := by
  decide

end CollectionTypes.Language
