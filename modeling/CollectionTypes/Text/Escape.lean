import CollectionTypes.Text.Basic

/-!
# Escapes

The strings of both dump formats have the same hexadecimal digits, and the same letters after a
backslash but for one letter of their own.
-/

namespace CollectionTypes.Text

def hexDigit? (c : Char) : Option Nat :=
  if '0' ≤ c ∧ c ≤ '9' then some (c.toNat - '0'.toNat)
  else if 'a' ≤ c ∧ c ≤ 'f' then some (c.toNat - 'a'.toNat + 10)
  else if 'A' ≤ c ∧ c ≤ 'F' then some (c.toNat - 'A'.toNat + 10)
  else none

/-- The character that a letter after a backslash stands for, in a format with this letter of its
own and its meaning. -/
def simpleEscape? (own : Char × Char) (c : Char) : Option Char :=
  if c = own.1 then some own.2
  else if c = '"' then some '"'
  else if c = '\\' then some '\\'
  else if c = 'b' then some '\x08'
  else if c = 'f' then some '\x0c'
  else if c = 'n' then some '\n'
  else if c = 'r' then some '\r'
  else if c = 't' then some '\t'
  else none

end CollectionTypes.Text
