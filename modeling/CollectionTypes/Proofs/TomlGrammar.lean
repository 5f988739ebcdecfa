import CollectionTypes.Dump.Toml
import CollectionTypes.Proofs.JsonGrammar
import CollectionTypes.Proofs.LayoutLines

/-!
# Written TOML dumps

A dump of collections is written line by line: a header for each collection, a line for its name,
and for each of its dictionaries a header and a line for each definition. Keys and texts are basic
strings, in which quotes, backslashes and control characters are escaped. `Literal.decode` is the
text that a string stands for and `WrittenCollection.lines` are the lines; neither refers to how
texts are read.
-/

namespace CollectionTypes.Toml

/-! ### Strings -/

/-- The letter after a backslash that only these strings have, and what it stands for. -/
abbrev ownEscape : Char × Char := ('e', '\x1b')

/-- The letters after a backslash that come with this many hexadecimal digits. -/
def codeForms : List (Char × Nat) := [('x', 2), ('u', 4), ('U', 8)]

/-- The characters U+0000 to U+001F and U+007F. -/
def isControl (c : Char) : Bool := c.toNat < 0x20 || c.toNat == 0x7F

/-- The number that hexadecimal digits continue. -/
def codeFrom (n : Nat) (digits : List HexDigit) : Nat :=
  digits.foldl (fun n d => n * 16 + d.value) n

/-- A character by its number. -/
structure CodeEscape where
  letter : Char
  digits : List HexDigit
  form : (letter, digits.length) ∈ codeForms
  isValid : (codeFrom 0 digits).isValidChar

/-- A character or an escape between the quotes of a string. -/
inductive Piece where
  | plain (char : PlainChar isControl)
  | short (escape : ShortEscape ownEscape)
  | code (escape : CodeEscape)

namespace Piece

def text : Piece → Text
  | plain c => [c.val]
  | short e => ['\\', e.val.1]
  | code e => '\\' :: e.letter :: e.digits.map HexDigit.char

/-- The character that a piece stands for. -/
def char : Piece → Char
  | plain c => c.val
  | short e => e.val.2
  | code e => Char.ofNat (codeFrom 0 e.digits)

/-- The last eight bits of a number in four digits. -/
def shortCode (n : Nat) : List HexDigit :=
  [.lastOf 0, .lastOf 0, .lastOf (n / 16), .lastOf n]

theorem codeFrom_shortCode (n : Nat) : codeFrom 0 (shortCode n) = n % 256 := by
  simp only [shortCode, codeFrom, List.foldl_cons, List.foldl_nil, HexDigit.lastOf]
  omega

theorem isValidChar_shortCode (n : Nat) : (codeFrom 0 (shortCode n)).isValidChar := by
  rw [codeFrom_shortCode]
  left
  omega

/-- A control character by its number. -/
def ofControl (c : Char) : Piece :=
  .code ⟨'u', shortCode c.toNat, List.mem_cons_of_mem _ List.mem_cons_self,
    isValidChar_shortCode c.toNat⟩

theorem char_ofControl {c : Char} (h : c.toNat < 128) : (ofControl c).char = c := by
  have small : c.toNat % 256 = c.toNat := Nat.mod_eq_of_lt (by omega)
  rw [ofControl, char, codeFrom_shortCode, small]
  exact Char.ofNat_toNat c

theorem toNat_lt_of_isControl (c : Char) (h : isControl c = true) : c.toNat < 128 := by
  simp only [isControl, Bool.or_eq_true, decide_eq_true_eq, beq_iff_eq] at h
  omega

/-- The character itself where it can stand in a string, else an escape. -/
def ofChar (c : Char) : Piece :=
  if h : c ≠ '"' ∧ c ≠ '\\' ∧ isControl c = false then plain ⟨c, h⟩
  else if h : (c, c) ∈ ownEscape :: sharedEscapes then short ⟨(c, c), h⟩
  else ofControl c

theorem char_ofChar (c : Char) : (ofChar c).char = c := by
  unfold ofChar
  split
  next => rfl
  next h =>
    split
    next => rfl
    next => exact char_ofControl (toNat_lt_of_not_plain toNat_lt_of_isControl h)

end Piece

/-- The pieces of a string. -/
abbrev Literal := List Piece

namespace Literal

def body (l : Literal) : Text := l.flatMap Piece.text

def text (l : Literal) : Text := '"' :: (l.body ++ ['"'])

/-- The text that a string stands for. -/
def decode (l : Literal) : Text := l.map Piece.char

/-- A text as a string, with an escape for each character that does not stand for itself. -/
def ofText (t : Text) : Literal := t.map Piece.ofChar

theorem decode_ofText (t : Text) : (ofText t).decode = t := by
  rw [ofText, decode, List.map_map]
  exact List.map_id'' Piece.char_ofChar t

end Literal

/-! ### Collections -/

/-- A definition of a field: its signature is the value itself, or in a table. -/
structure WrittenDefinition where
  key : Literal
  signature : Literal
  inTable : Bool

namespace WrittenDefinition

def valueText (d : WrittenDefinition) : Text :=
  if d.inTable then "\x7b signature = " ++ d.signature.text ++ " \x7d" else d.signature.text

def line (d : WrittenDefinition) : Text := d.key.text ++ " = " ++ d.valueText

/-- The key and the signature that are meant. -/
def decode (d : WrittenDefinition) : Text × Text := (d.key.decode, d.signature.decode)

end WrittenDefinition

/-- A collection. A dictionary that is there may be empty. -/
structure WrittenCollection where
  name : Literal
  fields : Option (List WrittenDefinition)
  computedFields : Option (List WrittenDefinition)

/-- The two dictionaries of a collection. -/
inductive Part where
  | fields
  | computedFields

def Part.key : Part → Text
  | fields => "fields"
  | computedFields => "computed_fields"

inductive WrittenLine where
  | element
  | name (name : Literal)
  | part (part : Part)
  | definition (definition : WrittenDefinition)

def WrittenLine.text : WrittenLine → Text
  | element => "[[collections]]"
  | name l => "name = " ++ l.text
  | part p => "[collections." ++ p.key ++ "]"
  | definition d => d.line

namespace WrittenCollection

/-- The header of a dictionary and its definitions. -/
def partLines (p : Part) : Option (List WrittenDefinition) → List WrittenLine
  | none => []
  | some definitions => .part p :: definitions.map .definition

def lines (w : WrittenCollection) : List WrittenLine :=
  [.element, .name w.name] ++ partLines .fields w.fields ++
    partLines .computedFields w.computedFields

/-- A writing is one of the collection with this name and these dictionaries. -/
structure IsOf (w : WrittenCollection) (c : Collection) : Prop where
  name : w.name.decode = c.name
  fields : w.fields.map (List.map WrittenDefinition.decode) = c.fields.map Dictionary.entries
  computedFields :
    w.computedFields.map (List.map WrittenDefinition.decode) =
      c.computedFields.map Dictionary.entries

end WrittenCollection

/-- The lines of a text that are not empty are those of these collections. -/
def IsDump (ws : List WrittenCollection) (text : Text) : Prop :=
  (List.splitOn '\n' text).filter (· ≠ []) =
    (ws.flatMap WrittenCollection.lines).map WrittenLine.text

/-! ### Every collection can be written -/

def WrittenDefinition.ofEntry (e : Text × Text) : WrittenDefinition where
  key := .ofText e.1
  signature := .ofText e.2
  inTable := false

theorem WrittenDefinition.decode_ofEntry (e : Text × Text) : (ofEntry e).decode = e :=
  Prod.ext (Literal.decode_ofText e.1) (Literal.decode_ofText e.2)

namespace WrittenCollection

def ofCollection (c : Collection) : WrittenCollection where
  name := .ofText c.name
  fields := c.fields.map fun d => d.entries.map .ofEntry
  computedFields := c.computedFields.map fun d => d.entries.map .ofEntry

theorem isOf_ofCollection (c : Collection) : (ofCollection c).IsOf c := by
  have decoded (d : Option Signatures) :
      (d.map fun d => d.entries.map WrittenDefinition.ofEntry).map
        (List.map WrittenDefinition.decode) = d.map Dictionary.entries := by
    cases d with
    | none => rfl
    | some d =>
      simp only [Option.map_some, List.map_map, Option.some.injEq]
      exact List.map_id'' WrittenDefinition.decode_ofEntry d.entries
  exact ⟨Literal.decode_ofText c.name, decoded c.fields, decoded c.computedFields⟩

end WrittenCollection

theorem Piece.oneLine_text (p : Piece) : Text.OneLine p.text := by
  cases p with
  | plain c =>
    intro h
    have control := c.property.2.2
    rw [← List.mem_singleton.1 h] at control
    exact absurd control (by decide)
  | short e =>
    have table : ∀ e ∈ ownEscape :: sharedEscapes, Text.OneLine ['\\', e.1] := by decide
    exact table e.val e.property
  | code e =>
    have table : ∀ f ∈ codeForms, Text.OneLine ['\\', f.1] := by decide
    have digit (d : HexDigit) : '\n' ≠ d.char := by
      obtain ⟨value, upper⟩ := d
      revert value upper
      decide
    apply Text.oneLine_append_iff.2 ⟨table _ e.form, ?_⟩
    intro h
    obtain ⟨d, _, hd⟩ := List.mem_map.1 h
    exact digit d hd.symm

theorem Literal.oneLine_text (l : Literal) : Text.OneLine l.text := by
  have body : Text.OneLine l.body := by
    intro h
    obtain ⟨p, _, h⟩ := List.mem_flatMap.1 h
    exact p.oneLine_text h
  have quote : Text.OneLine ['"'] := by decide
  apply Text.oneLine_append_iff.2 ⟨quote, ?_⟩
  exact Text.oneLine_append_iff.2 ⟨body, quote⟩

theorem WrittenDefinition.oneLine_line (d : WrittenDefinition) : Text.OneLine d.line := by
  have value : Text.OneLine d.valueText := by
    unfold valueText
    cases d.inTable with
    | false => exact d.signature.oneLine_text
    | true =>
      apply Text.oneLine_append_iff.2 ⟨?_, by decide⟩
      exact Text.oneLine_append_iff.2 ⟨by decide, d.signature.oneLine_text⟩
  apply Text.oneLine_append_iff.2 ⟨?_, value⟩
  exact Text.oneLine_append_iff.2 ⟨d.key.oneLine_text, by decide⟩

theorem WrittenLine.oneLine_text (line : WrittenLine) : Text.OneLine line.text := by
  cases line with
  | element => decide
  | name l => exact Text.oneLine_append_iff.2 ⟨by decide, l.oneLine_text⟩
  | part p =>
    cases p with
    | fields => decide
    | computedFields => decide
  | definition d => exact d.oneLine_line

theorem WrittenLine.text_ne_nil (line : WrittenLine) : line.text ≠ [] := by
  cases line with
  | element => exact List.cons_ne_nil _ _
  | name l => exact List.cons_ne_nil _ _
  | part p => exact List.cons_ne_nil _ _
  | definition d => exact List.cons_ne_nil _ _

/-- The lines of collections, each with its break, are a dump of them. -/
theorem isDump_ofLines (ws : List WrittenCollection) :
    IsDump ws (Text.ofLines ((ws.flatMap WrittenCollection.lines).map WrittenLine.text)) := by
  have line {t : Text} (h : t ∈ (ws.flatMap WrittenCollection.lines).map WrittenLine.text) :
      ∃ line : WrittenLine, line.text = t := by
    obtain ⟨line, _, rfl⟩ := List.mem_map.1 h
    exact ⟨line, rfl⟩
  have oneLine : ∀ t ∈ (ws.flatMap WrittenCollection.lines).map WrittenLine.text, t.OneLine := by
    intro t ht
    obtain ⟨line, rfl⟩ := line ht
    exact line.oneLine_text
  have kept : ∀ t ∈ (ws.flatMap WrittenCollection.lines).map WrittenLine.text,
      decide (t ≠ []) = true := by
    intro t ht
    obtain ⟨line, rfl⟩ := line ht
    exact decide_eq_true line.text_ne_nil
  unfold IsDump
  rw [Text.splitOn_ofLines oneLine, List.filter_append, List.filter_eq_self.2 kept]
  exact List.append_nil _

end CollectionTypes.Toml
