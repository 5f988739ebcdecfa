/-!
# Why a text is no document

Nearly everything that can be wrong with a text is wrong at some place in it. A path of too many
keys is the exception: it is refused as a whole.
-/

namespace CollectionTypes.Toml

inductive Defect where
  | malformed
  | longPath
deriving DecidableEq, Repr

namespace Defect

/-- Whether the defect is told together with a place in the text. -/
def isPlaced : Defect → Bool
  | malformed => true
  | longPath => false

/-- A value that has to be there. -/
def require {α : Type} : Option α → Except Defect α
  | some a => .ok a
  | none => .error malformed

end Defect
end CollectionTypes.Toml
