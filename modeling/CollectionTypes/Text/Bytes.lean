import CollectionTypes.Text.Basic

/-!
# Byte measures of text

Offsets and lengths that are shown to a user count the bytes of the UTF-8 form. They are measures
on the characters: a character contributes the size of its encoding, and lengths add up.
-/

namespace CollectionTypes

/-- A piece of a text: the bytes before it, and its own bytes. -/
structure Span where
  start : Nat
  length : Nat
deriving DecidableEq, Repr

namespace Text

def byteLength : Text → Nat
  | [] => 0
  | c :: cs => c.utf8Size + byteLength cs

@[simp] theorem byteLength_nil : byteLength [] = 0 := rfl

@[simp] theorem byteLength_cons (c : Char) (t : Text) :
    byteLength (c :: t) = c.utf8Size + byteLength t := rfl

@[simp] theorem byteLength_append (s t : Text) :
    byteLength (s ++ t) = byteLength s + byteLength t := by
  induction s with
  | nil => simp
  | cons c cs ih => simp [ih, Nat.add_assoc]

/-- Byte offsets of `word` in a text that starts at `offset`, from left to right and without
overlap. The first argument counts the characters still covered by the last occurrence. -/
def occurrencesFrom (word : Text) : (covered offset : Nat) → Text → List Nat
  | _, _, [] => []
  | covered + 1, offset, c :: cs => occurrencesFrom word covered (offset + c.utf8Size) cs
  | 0, offset, c :: cs =>
    if word.isPrefixOf (c :: cs) then
      offset :: occurrencesFrom word (word.length - 1) (offset + c.utf8Size) cs
    else
      occurrencesFrom word 0 (offset + c.utf8Size) cs

def occurrences (word t : Text) : List Nat := occurrencesFrom word 0 0 t

/-- The `n`-th occurrence of `name` between double quotes, without the quotes. -/
def quotedSpan? (name t : Text) (n : Nat) : Option Span :=
  ((occurrences ('"' :: name ++ ['"']) t)[n]?).map fun start =>
    { start := start + 1, length := byteLength name }

end Text
end CollectionTypes
