import CollectionTypes.Toml.Datetime
import CollectionTypes.Toml.Lexeme
import CollectionTypes.Toml.String

/-!
# Words that are values

Booleans, integers, floating-point numbers, dates and times. The beginning of a word decides which
of them it is. Underscores may stand between digits. Hexadecimal digits count as digits there, so
that a decimal integer may have letters after an underscore: it is then an integer without a value.

Words with blanks between them are one value, as a date and a time are. Most of them have no
meaning, and that is found out when the value is understood.
-/

namespace CollectionTypes.Toml

def ofDigits (base : Nat) (digits : Text) : Nat :=
  digits.foldl (fun n c => n * base + (Text.hexDigit? c).getD 0) 0

def isHex (c : Char) : Bool := (Text.hexDigit? c).isSome

def isOctal (c : Char) : Bool := '0' ≤ c && c ≤ '7'

def isBinary (c : Char) : Bool := c == '0' || c == '1'

/-! ### Underscores -/

/-- Whether every underscore is followed by a digit, and has a digit before it. The flag tells
whether there is a digit before the text. -/
def isGroupedFrom (isDigit : Char → Bool) : (afterDigit : Bool) → Text → Bool
  | _, [] => true
  | afterDigit, c :: cs =>
    if c = '_' then
      afterDigit && (cs.head?.map isDigit).getD false && isGroupedFrom isDigit false cs
    else isGroupedFrom isDigit (isDigit c) cs

/-- Whether all underscores of a number stand between digits. -/
def isGrouped (isDigit : Char → Bool) (t : Text) : Bool := isGroupedFrom isDigit false t

def withoutUnderscores (t : Text) : Text := t.filter (· ≠ '_')

/-! ### Integers -/

/-- Whether the sign is a minus, and the text after the sign. -/
def takeSign : Text → Bool × Text
  | '+' :: cs => (false, cs)
  | '-' :: cs => (true, cs)
  | t => (false, t)

def signed (isNegative : Bool) (n : Nat) : Int := if isNegative then -(n : Int) else (n : Int)

/-- The value of a sign and decimal digits. -/
def decimal? (t : Text) : Option Int :=
  let (isNegative, digits) := takeSign t
  if !digits.isEmpty && digits.all Char.isDigit then some (signed isNegative (ofDigits 10 digits))
  else none

/-- An integer in another base, after the letter for the base. -/
def inBase? (base : Nat) (isDigit : Char → Bool) (t : Text) : Option Value :=
  if t.all (fun c => isDigit c || c == '_') && isGrouped isHex t then
    let digits := withoutUnderscores t
    some (.integer (if digits.isEmpty then none else some (ofDigits base digits : Int)))
  else none

/-- A decimal number starts with a zero only if that is its only digit. -/
def hasLeadingZero (t : Text) : Bool := 2 ≤ t.length && t.head? == some '0'

/-! ### Floating-point numbers -/

/-- The double nearest to `digits * 10 ^ exponent`, unless that is beyond the range of doubles, as
is any number of more than four hundred digits before the point. -/
def nearestDouble? (digits : Text) (exponent : Int) : Option Float :=
  let n := ofDigits 10 digits
  let magnitude : Int := (Text.ofNat n).length + exponent
  if n = 0 ∨ magnitude < -400 then some 0.0
  else if 400 < magnitude then none
  else
    let x :=
      if 0 ≤ exponent then Float.ofScientific n false exponent.toNat
      else Float.ofScientific n true (-exponent).toNat
    if x.isInf then none else some x

/-- The digits at the start of a text, and the rest, if there are any digits. -/
def takeDecimal (t : Text) : Taken Text :=
  let isPart := fun c : Char => c.isDigit || c == '_'
  let digits := withoutUnderscores (t.takeWhile isPart)
  if digits.isEmpty then none else some (digits, t.dropWhile isPart)

/-- The digits after a point, if there is one. -/
def takeFraction (t : Text) : Taken Text :=
  match t with
  | '.' :: cs => takeDecimal cs
  | _ => some ([], t)

/-- The exponent at the end of a number, if there is one. -/
def exponent? (t : Text) : Option Int :=
  match t with
  | [] => some 0
  | c :: cs =>
    if c = 'e' ∨ c = 'E' then
      let (isNegative, cs) := takeSign cs
      (takeDecimal cs).whole?.map fun digits => signed isNegative (ofDigits 10 digits)
    else none

/-- The value of a floating-point number without a sign. -/
def magnitude? (t : Text) : Option (Option Float) := do
  let (whole, rest) ← takeDecimal t
  guard (!(t.head? == some '0' && hasLeadingZero whole))
  let (fraction, rest) ← takeFraction rest
  let exponent ← exponent? rest
  some (nearestDouble? (whole ++ fraction) (exponent - fraction.length))

def negatedIf (isNegative : Bool) (x : Float) : Float := if isNegative then -x else x

/-! ### Words -/

/-- The value of a word that starts, after its sign, with a digit. Only a date may have a space
in it. -/
def number? (word : Text) : Option Value :=
  let (isNegative, t) := takeSign word
  let rest := t.dropWhile Char.isDigit
  match rest with
  | [] => if hasLeadingZero t then none else some (.integer (decimal? word))
  | c :: _ =>
    if c = '-' ∨ c = ':' then (Datetime.ofText? word).map fun d => .datetime d.text
    else if rest.contains ' ' then none
    else if rest.any fun c => c == '.' || c == 'e' || c == 'E' then
      if isGrouped Char.isDigit word then
        (magnitude? t).map fun x => .float (x.map (negatedIf isNegative))
      else none
    else if c = '_' ∧ t.head? ≠ some '0' ∧ isGrouped isHex word then
      some (.integer (decimal? (withoutUnderscores word)))
    else none

def trueText : Text := "true"

def falseText : Text := "false"

def infText : Text := "inf"

def nanText : Text := "nan"

/-- The value that a word is. -/
def word? (word : Text) : Option Value :=
  let (isNegative, t) := takeSign word
  if word = trueText then some (.boolean true)
  else if word = falseText then some (.boolean false)
  else if t = infText then some (.float (some (negatedIf isNegative (1.0 / 0.0))))
  else if t = nanText then some (.float (some (0.0 / 0.0)))
  else
    match word, t with
    | '0' :: 'x' :: cs, _ => inBase? 16 isHex cs
    | '0' :: 'o' :: cs, _ => inBase? 8 isOctal cs
    | '0' :: 'b' :: cs, _ => inBase? 2 isBinary cs
    | _, c :: _ => if c.isDigit then number? word else none
    | _, [] => none

/-- The value that a word or a string is. -/
def scalar? (t : Text) : Option Value :=
  match t with
  | [] => none
  | c :: _ => if isQuote c then (string? t).map .string else word? t

/-- The words at the start of a text, with all blanks after them. A quote belongs to a word that
has begun; where a word would begin, after a blank or a point, it ends the words. -/
def wordsFrom : (inWord : Bool) → Text → Text
  | _, [] => []
  | inWord, c :: cs =>
    if isSpace c then c :: wordsFrom false cs
    else if isDelimiter c || (!inWord && isQuote c) then []
    else c :: wordsFrom (c != '.') cs

/-- The words at the start of a text, with the blanks between them. -/
def words (t : Text) : Text := ((wordsFrom false t).reverse.dropWhile isSpace).reverse

/-- The string or the words at the start of a text, and the rest. -/
def splitScalar (t : Text) : Text × Text :=
  match t with
  | [] => ([], [])
  | c :: _ => if isQuote c then splitLexeme t else (words t, t.drop (words t).length)

end CollectionTypes.Toml
