import CollectionTypes.Driver

/-!
# Scalar keywords

The seven scalar types of field signatures, their keywords and the types they become. Keywords are
case-sensitive and distinct.
-/

namespace CollectionTypes

inductive Scalar where
  | string
  | boolean
  | long
  | int
  | time
  | date
  | null
deriving DecidableEq, Repr

namespace Scalar

def all : List Scalar := [string, boolean, long, int, time, date, null]

theorem mem_all (s : Scalar) : s ∈ all := by cases s <;> decide

def keyword : Scalar → Text
  | string => "String"
  | boolean => "Boolean"
  | long => "Long"
  | int => "Int"
  | time => "Time"
  | date => "Date"
  | null => "Null"

def ofKeyword? (word : Text) : Option Scalar := all.find? (·.keyword = word)

theorem keyword_of_ofKeyword? {word : Text} {s : Scalar} (h : ofKeyword? word = some s) :
    s.keyword = word := by
  simpa using List.find?_some h

def typeName : Scalar → Text
  | string => "string"
  | boolean => "boolean"
  | long => "number"
  | int => "number"
  | time => Driver.timeStub
  | date => Driver.dateStub
  | null => "null"

/-- The type of a scalar keyword; every other word names a type itself. -/
def typeOfWord (word : Text) : Text :=
  match ofKeyword? word with
  | some s => s.typeName
  | none => word

end Scalar
end CollectionTypes
