import CollectionTypes.Collection.Basic

/-!
# Listings

What the program says about a list of collections: a line for each that has fields, and the names of
the others.
-/

namespace CollectionTypes

/-- Lines with a line break after each. -/
def Text.ofLines (ts : List Text) : Text := ts.flatMap (· ++ ['\n'])

namespace Collection

/-- The collections with a field dictionary. -/
def listed (collections : List Collection) : List Collection :=
  collections.filter (·.fields.isSome)

/-- The name and how many fields there are. -/
def description (c : Collection) : Text :=
  c.name ++ " (".toList ++ Text.ofNat c.fieldCount ++
    (if c.fieldCount = 1 then " field".toList else " fields".toList) ++
    (if 0 < c.computedFieldCount then ", ".toList ++ Text.ofNat c.computedFieldCount ++ " computed"
      else []) ++ [')']

def warning (name : Text) : Text :=
  "warning: collection '".toList ++ name ++ "' defines no fields and will be skipped"

/-- The number of collections listed, and of those skipped. -/
def heading (collections : List Collection) : Text :=
  let listedCount := (listed collections).length
  let skippedCount := collections.length - listedCount
  Text.ofNat listedCount ++ " collection(s)".toList ++
    (if 0 < skippedCount then ", ".toList ++ Text.ofNat skippedCount ++ " skipped" else []) ++ [':']

/-- A heading and a line for each collection listed. -/
def summary (collections : List Collection) : List Text :=
  heading collections :: (listed collections).map fun c => "  " ++ c.description

end Collection
end CollectionTypes
