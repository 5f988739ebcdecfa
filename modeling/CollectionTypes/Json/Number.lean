import CollectionTypes.Decimal.Float
import CollectionTypes.Json.Literal

/-!
# Numbers

A number whose value is used is read exactly when it is an integer of 64 bits, and as a double
otherwise. The digits that no longer fit 64 bits only move the decimal point. A number whose value
is not used is checked for its form alone.
-/

namespace CollectionTypes.Json

/-- An integer is natural or negative; `negative n` is `-n`. -/
inductive Number where
  | natural (value : Nat)
  | negative (magnitude : Nat)
  | float (value : Float)

namespace Number

def found : Number → Found
  | natural n => .integer n
  | negative n => .integer (-n)
  | float x => .float (Decimal.Notation.compact.float x)

end Number

/-- The greatest integer that is kept exactly. -/
def maxNatural : Nat := 0xFFFFFFFFFFFFFFFF

/-- The greatest decimal exponent that is kept exactly. -/
def maxExponent : Nat := 0x7FFFFFFF

/-- The greatest magnitude of a negative integer that is kept exactly. -/
def maxNegative : Nat := 0x8000000000000000

def digitValue (c : Char) : Nat := c.toNat - '0'.toNat

def startsWithDigit : Text → Bool
  | [] => false
  | c :: _ => c.isDigit

def dropDigits (t : Text) : Text := t.dropWhile Char.isDigit

/-- Continues a number with digits while it stays below `bound`: the number, how many digits were
taken, and the rest. -/
def takeDigits (bound : Nat) : (n : Nat) → Text → Nat × Nat × Text
  | n, [] => (n, 0, [])
  | n, c :: cs =>
    if c.isDigit && n * 10 + digitValue c ≤ bound then
      let (m, count, rest) := takeDigits bound (n * 10 + digitValue c) cs
      (m, count + 1, rest)
    else (n, 0, c :: cs)

/-! ### Values -/

def powerOfTen (n : Nat) : Float := Float.ofScientific 1 false n

/-- Divides by a power of ten in steps that a double can hold. -/
def scaleDown (x : Float) (n : Nat) : Float :=
  if n ≤ 308 then x / powerOfTen n
  else if x == 0.0 then x
  else scaleDown (x / powerOfTen 308) (n - 308)
termination_by n

/-- The double next to `significand * 10 ^ exponent`, unless that is too large. -/
def toDouble? (significand : Nat) (exponent : Int) : Option Float :=
  let x := (UInt64.ofNat significand).toFloat
  if 0 ≤ exponent then
    if 308 < exponent then (if x == 0.0 then some x else none)
    else
      let y := x * powerOfTen exponent.toNat
      if y.isInf then none else some y
  else some (scaleDown x (-exponent).toNat)

/-- The number with this sign, significand and exponent, read up to `rest`. -/
def doubleAt (isNegative : Bool) (significand : Nat) (exponent : Int) (rest : Text) :
    Taken Number :=
  match toDouble? significand exponent with
  | some x => .ok (.float (if isNegative then -x else x), rest)
  | none => atHere .numberOutOfRange rest

def integerAt (isNegative : Bool) (n : Nat) (rest : Text) : Taken Number :=
  if !isNegative then .ok (.natural n, rest)
  else if n = 0 ∨ maxNegative < n then .ok (.float (-(UInt64.ofNat n).toFloat), rest)
  else .ok (.negative n, rest)

/-- After an exponent letter. -/
def takeExponent (isNegative : Bool) (significand : Nat) (exponent : Int) (t : Text) :
    Taken Number :=
  let (down, t) := match t with
    | '+' :: r => (false, r)
    | '-' :: r => (true, r)
    | _ => (false, t)
  match t with
  | [] => atHere .endInValue []
  | c :: cs =>
    if c.isDigit then
      let (n, _, rest) := takeDigits maxExponent (digitValue c) cs
      if startsWithDigit rest then
        if significand ≠ 0 ∧ !down then atHere .numberOutOfRange rest.tail
        else .ok (.float (if isNegative then -0.0 else 0.0), dropDigits rest)
      else doubleAt isNegative significand (if down then exponent - n else exponent + n) rest
    else atNext .invalidNumber (c :: cs)

def isExponentLetter (c : Char) : Bool := c == 'e' || c == 'E'

/-- After the digits of a number that is not an integer. -/
def takeScale (isNegative : Bool) (significand : Nat) (exponent : Int) (t : Text) :
    Taken Number :=
  match t with
  | [] => doubleAt isNegative significand exponent []
  | c :: cs =>
    if isExponentLetter c then takeExponent isNegative significand exponent cs
    else doubleAt isNegative significand exponent (c :: cs)

/-- After a decimal point. -/
def takeFraction (isNegative : Bool) (significand : Nat) (exponent : Int) (t : Text) :
    Taken Number :=
  let (m, count, rest) := takeDigits maxNatural significand t
  if startsWithDigit rest then takeScale isNegative m (exponent - count) (dropDigits rest)
  else if count = 0 then
    if rest.isEmpty then atNext .endInValue [] else atNext .invalidNumber rest
  else takeScale isNegative m (exponent - count) rest

/-- After the integer digits. `exact` holds if they fit 64 bits. -/
def takeTail (isNegative exact : Bool) (significand : Nat) (exponent : Int) (t : Text) :
    Taken Number :=
  match t with
  | '.' :: cs => takeFraction isNegative significand exponent cs
  | [] => if exact then integerAt isNegative significand [] else
      doubleAt isNegative significand exponent []
  | c :: cs =>
    if isExponentLetter c then takeExponent isNegative significand exponent cs
    else if exact then integerAt isNegative significand (c :: cs)
    else doubleAt isNegative significand exponent (c :: cs)

/-- A number after its sign. -/
def takeNumber (isNegative : Bool) : Text → Taken Number
  | [] => atHere .endInValue []
  | c :: cs =>
    if c = '0' then
      if startsWithDigit cs then atNext .invalidNumber cs else takeTail isNegative true 0 0 cs
    else if c.isDigit then
      let (n, _, rest) := takeDigits maxNatural (digitValue c) cs
      if startsWithDigit rest then
        let dropped := rest.takeWhile Char.isDigit
        takeTail isNegative false n dropped.length (dropDigits rest)
      else takeTail isNegative true n 0 rest
    else atNext .invalidNumber (c :: cs)

/-! ### Form -/

/-- After an exponent letter. -/
def skipExponent (t : Text) : Except Fault Text :=
  let t := match t with
    | '+' :: r => r
    | '-' :: r => r
    | _ => t
  match t with
  | [] => atNext .invalidNumber []
  | c :: cs => if c.isDigit then .ok (dropDigits cs) else atNext .invalidNumber (c :: cs)

def skipScale (t : Text) : Except Fault Text :=
  match t with
  | [] => .ok []
  | c :: cs => if isExponentLetter c then skipExponent cs else .ok (c :: cs)

/-- After the integer digits. -/
def skipTail (t : Text) : Except Fault Text :=
  match t with
  | '.' :: cs => if startsWithDigit cs then skipScale (dropDigits cs) else atNext .invalidNumber cs
  | _ => skipScale t

/-- A number after its sign. -/
def skipNumber : Text → Except Fault Text
  | [] => atNext .invalidNumber []
  | c :: cs =>
    if c = '0' then if startsWithDigit cs then atNext .invalidNumber cs else skipTail cs
    else if c.isDigit then skipTail (dropDigits cs)
    else atNext .invalidNumber (c :: cs)

theorem length_dropDigits_le (t : Text) : (dropDigits t).length ≤ t.length :=
  Text.length_dropWhile_le Char.isDigit t

theorem length_skipExponent_le {t rest : Text} (h : skipExponent t = .ok rest) :
    rest.length ≤ t.length := by
  have sign : ∀ u : Text, (match u with | '+' :: r => r | '-' :: r => r | _ => u).length ≤
      u.length := by
    intro u
    split <;> simp
  have ht := sign t
  unfold skipExponent at h
  simp only at h
  split at h
  next => simp [atNext] at h
  next c cs hc =>
    rw [hc] at ht
    split at h
    next =>
      obtain rfl := Except.ok.inj h
      have := length_dropDigits_le cs
      simp only [List.length_cons] at ht
      omega
    next => simp [atNext] at h

theorem length_skipScale_le {t rest : Text} (h : skipScale t = .ok rest) :
    rest.length ≤ t.length := by
  unfold skipScale at h
  split at h
  next =>
    obtain rfl := Except.ok.inj h
    exact Nat.le_refl _
  next c cs =>
    split at h
    next =>
      have := length_skipExponent_le h
      simp only [List.length_cons]
      omega
    next =>
      obtain rfl := Except.ok.inj h
      exact Nat.le_refl _

theorem length_skipTail_le {t rest : Text} (h : skipTail t = .ok rest) :
    rest.length ≤ t.length := by
  unfold skipTail at h
  split at h
  next cs =>
    split at h
    next =>
      have h₁ := length_skipScale_le h
      have h₂ := length_dropDigits_le cs
      simp only [List.length_cons]
      omega
    next => simp [atNext] at h
  next => exact length_skipScale_le h

theorem length_skipNumber_lt {t rest : Text} (h : skipNumber t = .ok rest) :
    rest.length < t.length := by
  unfold skipNumber at h
  split at h
  next => simp [atNext] at h
  next c cs =>
    simp only [List.length_cons]
    split at h
    next =>
      split at h
      next => simp [atNext] at h
      next =>
        have := length_skipTail_le h
        omega
    next =>
      split at h
      next =>
        have h₁ := length_skipTail_le h
        have h₂ := length_dropDigits_le cs
        omega
      next => simp [atNext] at h

end CollectionTypes.Json
