import CollectionTypes.Collection.Basic
import CollectionTypes.Text.Bytes
import CollectionTypes.Text.Name

/-!
# Valid lists of collections

Every name must be a usable type name, and no two collections may have the same. Of several defects
the first in list order counts, and of one collection a bad name before a repeated one.
-/

namespace CollectionTypes

inductive NameDefect where
  | empty
  | notIdentifier
  | reserved
deriving DecidableEq, Repr

namespace NameDefect

def reason : NameDefect → Text
  | empty => "name cannot be empty"
  | notIdentifier => "name must be a valid identifier"
  | reserved => "name shadows a TypeScript built-in type"

def ofName? (name : Text) : Option NameDefect :=
  if name.isEmpty then some empty
  else if !name.isIdentifier then some notIdentifier
  else if name.isReservedTypeName then some reserved
  else none

theorem ofName?_eq_none_iff {name : Text} :
    ofName? name = none ↔ name.isIdentifier = true ∧ name.isReservedTypeName = false := by
  unfold ofName?
  cases name with
  | nil => simp [Text.isIdentifier]
  | cons c cs =>
    cases Text.isIdentifier (c :: cs) <;> cases Text.isReservedTypeName (c :: cs) <;> simp

end NameDefect

/-- Why a list of collections is refused. -/
inductive NameFault where
  | invalid (name : Text) (defect : NameDefect)
  | duplicate (name : Text) (earlier : Nat)
deriving DecidableEq, Repr

namespace NameFault

/-- The first defect of `collections`, which follow collections with the names `before`. -/
def firstAfter? (before : List Text) : List Collection → Option NameFault
  | [] => none
  | c :: cs =>
    match NameDefect.ofName? c.name with
    | some defect => some (.invalid c.name defect)
    | none =>
      let earlier := before.count c.name
      if 0 < earlier then some (.duplicate c.name earlier)
      else firstAfter? (before ++ [c.name]) cs

def first? (collections : List Collection) : Option NameFault := firstAfter? [] collections

def name : NameFault → Text
  | invalid name _ => name
  | duplicate name _ => name

/-- Where a defect is shown in the source: at the quoted name, and for a repeated name past as many
occurrences as there are collections with it before. -/
def span? (source : Text) : NameFault → Option Span
  | invalid name _ => Text.quotedSpan? name source 0
  | duplicate name earlier => Text.quotedSpan? name source earlier

end NameFault
end CollectionTypes
