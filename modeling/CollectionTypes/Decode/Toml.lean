import CollectionTypes.Decode.Mismatch
import CollectionTypes.Decimal.Float
import CollectionTypes.Toml.Document

/-!
# What TOML values are taken for

A value is taken for a text, a list of elements or a list of members, whatever way it was written.
A date or time is taken for a table with one member. A mismatch carries the extent of the value it
was found at.

Numbers may be larger than any use has room for. That is no defect of a document as long as nothing
else is wrong: values that are ignored have room for integers of 128 bits, those that are kept for
later for integers of 64 bits, and elements that are not looked at may hold anything. As soon as a
document is not what was asked for, every number in it has to be one that a general reader could
keep, or else the document counts as malformed.
-/

namespace CollectionTypes.Toml

/-- Why a value is not used: it is something else than was asked for, or a number without room. -/
inductive Misfit where
  | mismatch (mismatch : Mismatch) (extent : Extent)
  | number
deriving DecidableEq, Repr

abbrev Decoded (α : Type) := Except Misfit α

def misfit {α : Type} (mismatch : Mismatch) (extent : Extent) : Decoded α :=
  .error (.mismatch mismatch extent)

/-- Why a text is not what was asked for: it is defective, or it describes something else. -/
inductive Failure where
  | defect (defect : Defect)
  | mismatch (mismatch : Mismatch) (span : Span)
deriving DecidableEq, Repr

/-! ### Numbers -/

/-- Whether an integer has 64 bits of which one is the sign. -/
def isShort (n : Int) : Bool := -0x8000000000000000 ≤ n && n ≤ 0x7FFFFFFFFFFFFFFF

/-- Whether an integer has 64 bits, with or without a sign. -/
def isWord (n : Int) : Bool := -0x8000000000000000 ≤ n && n ≤ 0xFFFFFFFFFFFFFFFF

/-- Whether an integer has 128 bits, with or without a sign. -/
def isLong (n : Int) : Bool :=
  -0x80000000000000000000000000000000 ≤ n && n ≤ 0xFFFFFFFFFFFFFFFFFFFFFFFFFFFFFFFF

namespace Value

/-- Whether a value is a number only if there is room for it. -/
def fits (room : Int → Bool) : Value → Bool
  | integer n => (n.map room).getD false
  | float x => x.isSome
  | _ => true

mutual

/-- Whether there is room for all numbers in a value. -/
def allFit (room : Int → Bool) : Value → Bool
  | array elements => elementsFit room elements
  | arrayOfTables elements => elementsFit room elements
  | table _ entries => entriesFit room entries
  | value => value.fits room

def elementsFit (room : Int → Bool) : List (Extent × Value) → Bool
  | [] => true
  | (_, value) :: rest => value.allFit room && elementsFit room rest

def entriesFit (room : Int → Bool) : List (Key × Extent × Value) → Bool
  | [] => true
  | (_, _, value) :: rest => value.allFit room && entriesFit room rest

end

/-- The name of the one member of a date or time. -/
def datetimeKey : Text := "$__toml_private_datetime"

/-- Whether a value is the text of a date or time. -/
def isDatetimeText : Value → Bool
  | string s => (Datetime.ofText? s).isSome
  | _ => false

mutual

/-- Whether a general reader could keep a value. To such a reader a table is a date or time if its
first member has the name for that. -/
def isGeneral : Value → Bool
  | array elements => areGeneral elements
  | arrayOfTables elements => areGeneral elements
  | table _ [] => true
  | table _ ((key, _, value) :: rest) =>
    if key.name = datetimeKey then value.isDatetimeText
    else value.isGeneral && entriesAreGeneral rest
  | value => value.fits isShort

def areGeneral : List (Extent × Value) → Bool
  | [] => true
  | (_, value) :: rest => value.isGeneral && areGeneral rest

def entriesAreGeneral : List (Key × Extent × Value) → Bool
  | [] => true
  | (_, _, value) :: rest => value.isGeneral && entriesAreGeneral rest

end

/-! ### Shapes -/

/-- Why a value is not what was asked for. -/
def misfit (wanted : Wanted) (extent : Extent) : Value → Misfit
  | string s => .mismatch (.type (.string s) wanted) extent
  | integer (some n) => .mismatch (.type (.integer n) wanted) extent
  | integer none => .number
  | float (some x) => .mismatch (.type (.float (Decimal.Notation.plain.float x)) wanted) extent
  | float none => .number
  | boolean b => .mismatch (.type (.boolean b) wanted) extent
  | datetime _ => .mismatch (.type .map wanted) extent
  | array _ => .mismatch (.type .sequence wanted) extent
  | arrayOfTables _ => .mismatch (.type .sequence wanted) extent
  | table _ _ => .mismatch (.type .map wanted) extent

/-- The members of a value that is taken for a table. -/
def members? (extent : Extent) : Value → Option (List (Key × Extent × Value))
  | table _ entries => some entries
  | datetime text => some [(⟨datetimeKey, extent⟩, extent, string text)]
  | _ => none

def elements? : Value → Option (List (Extent × Value))
  | array elements => some elements
  | arrayOfTables elements => some elements
  | _ => none

def text (wanted : Wanted) (extent : Extent) : Value → Decoded Text
  | string s => .ok s
  | value => .error (value.misfit wanted extent)

/-- A value that is not used. -/
def ignore (value : Value) : Decoded Unit :=
  if value.allFit isLong then .ok () else .error .number

end Value

/-! ### Documents -/

/-- The failure that a misfit in a table amounts to. -/
def Failure.ofMisfit (source : Text) (table : Table) : Misfit → Failure
  | .mismatch m extent =>
    if Value.entriesAreGeneral table.entries then .mismatch m (extent.span source)
    else .defect .malformed
  | .number => .defect .malformed

/-- What `decode` makes of the table that a text describes. -/
def decodeTable {α : Type} (decode : Table → Decoded α) (source : Text) : Except Failure α :=
  match tableOf source with
  | .error d => .error (.defect d)
  | .ok table => (decode table).mapError (Failure.ofMisfit source table)

end CollectionTypes.Toml
