import CollectionTypes.Text.Basic

/-!
# Indentation

One level of indentation is a tab, four blanks or two blanks. Two is what every other number of
blanks falls back to.
-/

namespace CollectionTypes

inductive Indent where
  | spaces (width : UInt8)
  | tab
deriving DecidableEq, Repr

namespace Indent

/-- The indentation of generated declarations. -/
def standard : Indent := spaces 2

def unit : Indent → Text
  | spaces width => if width = 4 then "    " else "  "
  | tab => "\t"

/-- The blanks in front of a line at this level. -/
def lead (indent : Indent) (level : Nat) : Text := (List.replicate level indent.unit).flatten

end Indent
end CollectionTypes
