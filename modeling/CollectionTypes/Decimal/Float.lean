import CollectionTypes.Decimal.Shortest
import CollectionTypes.Text.Basic

/-!
# Doubles as text

A finite double is written with the digits of its shortest decimal. A notation says which
magnitudes are written positionally; the others are written with a signed exponent. Either way there
is a digit on both sides of a point, unless an exponent follows a single digit.
-/

namespace CollectionTypes.Decimal

/-- Which magnitudes are written positionally, by the number of digits before the point, and which
of two shortest decimals is taken. -/
structure Notation where
  positional : Int → Bool
  tie : Tie

/-- Positional from five digits after the point to sixteen before it. -/
def Notation.compact : Notation := ⟨fun point => -5 < point && point ≤ 16, .toEven⟩

def Notation.plain : Notation := ⟨fun _ => true, .up⟩

def zeros (n : Int) : Text := List.replicate n.toNat '0'

/-- A decimal with its point after `point` of the digits. -/
def positionalText (digits : Text) (point : Int) : Text :=
  let count : Int := digits.length
  if count ≤ point then digits ++ zeros (point - count) ++ ['.', '0']
  else if 0 < point then digits.take point.toNat ++ '.' :: digits.drop point.toNat
  else ['0', '.'] ++ zeros (-point) ++ digits

def exponentText (digits : Text) (point : Int) : Text :=
  let mantissa := match digits with
    | [] => []
    | [d] => [d]
    | d :: ds => d :: '.' :: ds
  let exponent := point - 1
  mantissa ++ 'e' :: (if exponent < 0 then '-' else '+') :: Text.ofNat exponent.natAbs

def Notation.text (n : Notation) (d : Numeral) : Text :=
  let digits := Text.ofNat d.digits
  let point := digits.length + d.exponent
  if n.positional point then positionalText digits point else exponentText digits point

/-- The magnitude of a finite double that is not zero. -/
def binaryOfBits (bits : UInt64) : Binary :=
  let fraction := (bits &&& 0xFFFFFFFFFFFFF).toNat
  let biased := ((bits >>> 52) &&& 0x7FF).toNat
  if biased = 0 then { significand := fraction, exponent := -1074, lowest := false }
  else
    { significand := 0x10000000000000 + fraction
      exponent := (biased : Int) - 1075
      lowest := fraction = 0 && 1 < biased }

def Notation.float (n : Notation) (x : Float) : Text :=
  if x.isNaN then "NaN"
  else
    let sign : Text := if x.toBits >>> 63 = 1 then ['-'] else []
    if x.isInf then sign ++ "inf"
    else if x == 0.0 then sign ++ "0.0"
    else sign ++ n.text ((binaryOfBits x.toBits).shortest n.tie)

end CollectionTypes.Decimal
