import CollectionTypes.Signature.Form

/-!
# Reading signatures

Reading never fails: a text that is no construct of the language is a name and is rendered as it
stands. `typeText` reads a text and renders the result. Fields of a collection are read by
`ofField`, which takes the alternatives of the outermost array apart itself.
-/

namespace CollectionTypes.Signature

def read (s : Text) : Signature :=
  match h : Form.ofText s with
  | .union alternatives =>
    .union (alternatives.attach.map fun ⟨a, ha⟩ =>
      have := Form.length_lt_of_union h ha
      read a)
  | .object properties =>
    .object (properties.attach.map fun
      | ⟨.typed name value, hp⟩ =>
        have := Form.length_lt_of_object h hp
        .typed name (read value)
      | ⟨.bare text, _⟩ => .bare text)
  | .array element =>
    have := Form.length_lt_of_array h
    .array (read element)
  | .reference target => .reference target
  | .word text => ofWord text
termination_by s.length

/-- The type expression of a signature text. -/
def typeText (mode : Mode) (s : Text) : Text := render mode (read s)

/-- The alternatives of a text at depth zero, also where there is only one. -/
def alternatives (t : Text) : Signature := .union ((Nesting.splitTopLevel '|' t).map read)

/-- The signature of a field, without its optional marker. -/
def ofField (s : Text) : Signature :=
  let text := (stripOptional s).1
  match Nesting.unwrap? arrayOpening text with
  | some element => .array (alternatives element)
  | none => alternatives text

end CollectionTypes.Signature
