import CollectionTypes.Text.Basic
import CollectionTypes.Text.Unprintable

/-!
# Texts in messages

A text is quoted in a message with a backslash before quotes and backslashes, with the usual
letters for tab, line feed, carriage return and null, and with the code of every other character
that cannot be seen.
-/

namespace CollectionTypes.Text

def showCode (c : Char) : Text :=
  "\\u\x7b" ++ Nat.toDigits 16 c.toNat ++ ['}']

def showChar (c : Char) : Text :=
  if c = '"' ∨ c = '\\' then ['\\', c]
  else if c = '\t' then ['\\', 't']
  else if c = '\n' then ['\\', 'n']
  else if c = '\r' then ['\\', 'r']
  else if c = '\x00' then ['\\', '0']
  else if c.toNat < 0x20 ∨ c.toNat = 0x7F ∨ isUnprintable c then showCode c
  else [c]

def shown (t : Text) : Text := '"' :: t.flatMap showChar ++ ['"']

end CollectionTypes.Text
