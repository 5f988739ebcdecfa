import CollectionTypes.Decode.Mismatch
import CollectionTypes.Text.Bytes

/-!
# Where and why reading JSON stops

A fault names a problem and the place where it was met: the text that is left there, and how many
of its bytes count as read. `Position.ofByte` turns a place into a line and a column, which count
bytes; `Position.mark` is the offset that a message points at.
-/

namespace CollectionTypes.Json

inductive Problem where
  | endInValue
  | endInList
  | endInObject
  | endInString
  | colonExpected
  | listEndExpected
  | objectEndExpected
  | valueExpected
  | identExpected
  | keyNotString
  | invalidNumber
  | numberOutOfRange
  | invalidEscape
  | controlCharacter
  | loneSurrogate
  | endInSurrogatePair
  | trailingComma
  | trailingText
  | tooDeep
  | mismatch (mismatch : Mismatch)
deriving DecidableEq, Repr

/-- The text ends too early, is no JSON, or does not describe what was asked for. -/
inductive Category where
  | incomplete
  | malformed
  | data
deriving DecidableEq, Repr

namespace Problem

def message : Problem → Text
  | endInValue => "EOF while parsing a value"
  | endInList => "EOF while parsing a list"
  | endInObject => "EOF while parsing an object"
  | endInString => "EOF while parsing a string"
  | colonExpected => "expected `:`"
  | listEndExpected => "expected `,` or `]`"
  | objectEndExpected => "expected `,` or `\x7d`"
  | valueExpected => "expected value"
  | identExpected => "expected ident"
  | keyNotString => "key must be a string"
  | invalidNumber => "invalid number"
  | numberOutOfRange => "number out of range"
  | invalidEscape => "invalid escape"
  | controlCharacter => "control character (\\u0000-\\u001F) found while parsing a string"
  | loneSurrogate => "lone leading surrogate in hex escape"
  | endInSurrogatePair => "unexpected end of hex escape"
  | trailingComma => "trailing comma"
  | trailingText => "trailing characters"
  | tooDeep => "recursion limit exceeded"
  | mismatch m => m.message

def category : Problem → Category
  | endInValue | endInList | endInObject | endInString => .incomplete
  | mismatch _ => .data
  | _ => .malformed

end Problem

/-- A line, from one, and the bytes of it that are read. -/
structure Position where
  line : Nat
  column : Nat
deriving DecidableEq, Repr

namespace Position

/-- The position `index` bytes into a text that starts at this line and column. -/
def advance (line column : Nat) : (index : Nat) → Text → Position
  | _, [] => { line, column }
  | index, c :: cs =>
    if index < c.utf8Size then { line, column := column + index }
    else if c = '\n' then advance (line + 1) 0 (index - 1) cs
    else advance line (column + c.utf8Size) (index - c.utf8Size) cs

def ofByte (source : Text) (index : Nat) : Position := advance 1 0 index source

/-- The offset of the first character that is at or after a position, where columns are counted in
characters, for a text that starts at this line and column. -/
def markFrom (line column : Nat) (position : Position) : Text → Nat
  | [] => 0
  | c :: cs =>
    if position.line ≤ line ∧ position.column ≤ column + 1 then 0
    else if c = '\n' then c.utf8Size + markFrom (line + 1) 0 position cs
    else c.utf8Size + markFrom line (column + 1) position cs

def mark (source : Text) (position : Position) : Nat := markFrom 1 0 position source

end Position

/-- The text left to read, and how many of its bytes count as read. -/
structure Place where
  rest : Text
  extra : Nat
deriving DecidableEq, Repr

def Place.index (source : Text) (place : Place) : Nat :=
  min source.byteLength (source.byteLength - place.rest.byteLength + place.extra)

/-- A problem at a known place, or a mismatch that gets its place from the list or object around
it. -/
inductive Fault where
  | located (problem : Problem) (place : Place)
  | pending (mismatch : Mismatch) (rest : Text)
deriving DecidableEq, Repr

/-- The result of taking something from a text: what was taken, and the rest. -/
abbrev Taken (α : Type) := Except Fault (α × Text)

/-- A problem with the next byte. -/
def atNext {α : Type} (problem : Problem) (rest : Text) : Except Fault α :=
  .error (.located problem ⟨rest, 1⟩)

/-- A problem with what was just read. -/
def atHere {α : Type} (problem : Problem) (rest : Text) : Except Fault α :=
  .error (.located problem ⟨rest, 0⟩)

/-- Why a text was refused. -/
structure Failure where
  problem : Problem
  position : Position
deriving DecidableEq, Repr

namespace Failure

def ofFault (source : Text) : Fault → Failure
  | .located problem place => ⟨problem, Position.ofByte source (place.index source)⟩
  | .pending m rest => ⟨.mismatch m, Position.ofByte source (Place.index source ⟨rest, 0⟩)⟩

def message (f : Failure) : Text :=
  f.problem.message ++ " at line " ++ Text.ofNat f.position.line ++ " column " ++
    Text.ofNat f.position.column

end Failure
end CollectionTypes.Json
