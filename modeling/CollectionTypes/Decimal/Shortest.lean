/-!
# Shortest decimals

A binary floating-point number `m * 2 ^ q` stands for every real number that rounds to it. The
shortest decimal of it is the one with the fewest significant digits among those reals, and of
several with that many digits the nearest. Of two that are equally near, one is chosen by a rule.
All arithmetic is exact, on natural numbers.

For each number of digits only the two neighbours of the number on that decimal grid need a test:
if any point of the grid rounds to the number, so does one of the neighbours.
-/

namespace CollectionTypes.Decimal

/-- `digits * 10 ^ exponent`. -/
structure Numeral where
  digits : Nat
  exponent : Int
deriving DecidableEq, Repr

/-- Which of two neighbours is chosen in the middle between them. -/
inductive Tie where
  | toEven
  | up
deriving DecidableEq, Repr

/-- A positive number `significand * 2 ^ exponent`. `lowest` holds of the smallest significand of a
binade, below which neighbours are twice as close. -/
structure Binary where
  significand : Nat
  exponent : Int
  lowest : Bool
deriving DecidableEq, Repr

/-- A quotient of natural numbers. -/
structure Ratio where
  num : Nat
  den : Nat
deriving DecidableEq, Repr

namespace Ratio

/-- `n * base ^ exponent`. -/
def scaled (n base : Nat) (exponent : Int) : Ratio :=
  if 0 ≤ exponent then { num := n * base.pow exponent.toNat, den := 1 }
  else { num := n, den := base.pow (-exponent).toNat }

def le (a b : Ratio) : Bool := a.num * b.den ≤ b.num * a.den

def lt (a b : Ratio) : Bool := a.num * b.den < b.num * a.den

/-- The distance of two quotients. -/
def distance (a b : Ratio) : Ratio where
  num := (a.num * b.den - b.num * a.den) + (b.num * a.den - a.num * b.den)
  den := a.den * b.den

/-- The greatest `n` with `n * 10 ^ exponent` at most this quotient. -/
def floorAt (a : Ratio) (exponent : Int) : Nat :=
  if 0 ≤ exponent then a.num / (a.den * Nat.pow 10 exponent.toNat)
  else a.num * Nat.pow 10 (-exponent).toNat / a.den

end Ratio

namespace Numeral

def ratio (d : Numeral) : Ratio := Ratio.scaled d.digits 10 d.exponent

/-- The next decimal of this many digits. After the greatest of them comes a power of ten. -/
def next (d : Numeral) (count : Nat) : Numeral :=
  if d.digits + 1 = Nat.pow 10 count then { digits := 1, exponent := d.exponent + count }
  else { d with digits := d.digits + 1 }

end Numeral

namespace Binary

def ratio (b : Binary) : Ratio := Ratio.scaled b.significand 2 b.exponent

/-- The lower end of the reals that round to the number. -/
def lower (b : Binary) : Ratio :=
  Ratio.scaled (4 * b.significand - if b.lowest then 1 else 2) 2 (b.exponent - 2)

/-- The upper end of the reals that round to the number. -/
def upper (b : Binary) : Ratio := Ratio.scaled (4 * b.significand + 2) 2 (b.exponent - 2)

/-- Whether a decimal rounds to the number: ties go to the even significand. -/
def accepts (b : Binary) (d : Numeral) : Bool :=
  if b.significand % 2 = 0 then b.lower.le d.ratio && d.ratio.le b.upper
  else b.lower.lt d.ratio && d.ratio.lt b.upper

/-- The power of ten at or below the number. No double is below `10 ^ (-400)`. -/
def magnitude (b : Binary) : Int :=
  ((Nat.toDigits 10 (b.ratio.floorAt (-400))).length : Int) - 401

/-- Whether the number is nearer to `above` than to `below`, its lower neighbour. -/
def isNearer (b : Binary) (tie : Tie) (below above : Numeral) : Bool :=
  let down := below.ratio.distance b.ratio
  let up := above.ratio.distance b.ratio
  up.lt down || (up.le down && (tie = .up || below.digits % 2 = 1))

/-- The nearest decimal with this many digits that rounds to the number. -/
def withDigits? (b : Binary) (tie : Tie) (count : Nat) : Option Numeral :=
  let exponent := b.magnitude - count + 1
  let below : Numeral := { digits := b.ratio.floorAt exponent, exponent }
  let above := below.next count
  if b.accepts below then
    if b.accepts above && b.isNearer tie below above then some above else some below
  else if b.accepts above then some above
  else none

/-- Seventeen digits are enough for every double. -/
def shortest (b : Binary) (tie : Tie) : Numeral :=
  ((List.range 17).findSome? fun n => b.withDigits? tie (n + 1)).getD
    { digits := b.significand, exponent := 0 }

end Binary
end CollectionTypes.Decimal
