import CollectionTypes.Text.Basic

/-!
# Dates and times

A date, a time of day, or both with an optional offset from universal time. Seconds may be left
out, and so may their fraction, of which nine digits are kept. Reading checks the calendar; `text`
writes the canonical form, which has seconds, and a fraction only where it is not zero.
-/

namespace CollectionTypes.Toml

structure Date where
  year : Nat
  month : Nat
  day : Nat
deriving DecidableEq, Repr

structure Time where
  hour : Nat
  minute : Nat
  second : Nat
  nanosecond : Nat
deriving DecidableEq, Repr

/-- An offset in minutes, or the letter for none. -/
inductive Offset where
  | zulu
  | minutes (value : Int)
deriving DecidableEq, Repr

structure Datetime where
  date : Option Date
  time : Option Time
  offset : Option Offset
deriving DecidableEq, Repr

namespace Datetime

def isLeapYear (year : Nat) : Bool := year % 4 = 0 && (year % 100 ≠ 0 || year % 400 = 0)

def daysIn (year month : Nat) : Nat :=
  if month = 2 then (if isLeapYear year then 29 else 28)
  else if month = 4 ∨ month = 6 ∨ month = 9 ∨ month = 11 then 30
  else 31

/-- Continues a number with exactly this many digits. -/
def takeDigits : (count value : Nat) → Text → Option (Nat × Text)
  | 0, n, t => some (n, t)
  | _ + 1, _, [] => none
  | count + 1, n, c :: cs =>
    if c.isDigit then takeDigits count (n * 10 + (c.toNat - '0'.toNat)) cs else none

def expect (c : Char) : Text → Option Text
  | [] => none
  | x :: xs => if x = c then some xs else none

def takeDate (t : Text) : Option (Date × Text) := do
  let (year, t) ← takeDigits 4 0 t
  let (month, t) ← takeDigits 2 0 (← expect '-' t)
  let (day, t) ← takeDigits 2 0 (← expect '-' t)
  if 1 ≤ month ∧ month ≤ 12 ∧ 1 ≤ day ∧ day ≤ daysIn year month then
    some (⟨year, month, day⟩, t)
  else none

/-- The nanoseconds that the digits after the point amount to. Digits after the ninth are left
out. -/
def nanoseconds (digits : Text) : Nat :=
  let nine := (digits ++ List.replicate 9 '0').take 9
  nine.foldl (fun n c => n * 10 + (c.toNat - '0'.toNat)) 0

def takeFraction (t : Text) : Option (Nat × Text) :=
  match t with
  | '.' :: cs =>
    let digits := cs.takeWhile Char.isDigit
    if digits.isEmpty then none else some (nanoseconds digits, cs.dropWhile Char.isDigit)
  | _ => some (0, t)

def takeTime (t : Text) : Option (Time × Text) := do
  let (hour, t) ← takeDigits 2 0 t
  let (minute, t) ← takeDigits 2 0 (← expect ':' t)
  guard (hour ≤ 23 ∧ minute ≤ 59)
  match t with
  | ':' :: cs =>
    let (second, t) ← takeDigits 2 0 cs
    guard (second ≤ 60)
    let (nanosecond, t) ← takeFraction t
    some (⟨hour, minute, second, nanosecond⟩, t)
  | _ => some (⟨hour, minute, 0, 0⟩, t)

def takeOffsetMinutes (sign : Int) (t : Text) : Option (Offset × Text) := do
  let (hours, t) ← takeDigits 2 0 t
  let (minutes, t) ← takeDigits 2 0 (← expect ':' t)
  guard (hours ≤ 23 ∧ minutes ≤ 59)
  some (.minutes (sign * (hours * 60 + minutes)), t)

def takeOffset (t : Text) : Option (Option Offset × Text) :=
  match t with
  | [] => some (none, [])
  | 'Z' :: cs => some (some .zulu, cs)
  | 'z' :: cs => some (some .zulu, cs)
  | '+' :: cs => (takeOffsetMinutes 1 cs).map fun (o, r) => (some o, r)
  | '-' :: cs => (takeOffsetMinutes (-1) cs).map fun (o, r) => (some o, r)
  | _ => none

def isDateSeparator (c : Char) : Bool := c == 'T' || c == 't' || c == ' '

/-- The date or time that a whole text is. -/
def ofText? (t : Text) : Option Datetime :=
  match takeDate t with
  | some (date, []) => some ⟨some date, none, none⟩
  | some (date, c :: cs) => do
    guard (isDateSeparator c)
    let (time, t) ← takeTime cs
    let (offset, t) ← takeOffset t
    guard t.isEmpty
    some ⟨some date, some time, offset⟩
  | none =>
    match takeTime t with
    | some (time, []) => some ⟨none, some time, none⟩
    | _ => none

/-! ### Canonical form -/

/-- A number with at least this many digits. -/
def padded (width n : Nat) : Text :=
  let digits := Text.ofNat n
  List.replicate (width - digits.length) '0' ++ digits

def dateText (d : Date) : Text :=
  padded 4 d.year ++ '-' :: padded 2 d.month ++ '-' :: padded 2 d.day

/-- A point and the digits of a fraction without final zeros, unless there is no fraction. -/
def fractionText (nanosecond : Nat) : Text :=
  if nanosecond = 0 then []
  else '.' :: ((padded 9 nanosecond).reverse.dropWhile (· = '0')).reverse

def timeText (t : Time) : Text :=
  padded 2 t.hour ++ ':' :: padded 2 t.minute ++ ':' :: padded 2 t.second ++
    fractionText t.nanosecond

def offsetText : Offset → Text
  | .zulu => ['Z']
  | .minutes n =>
    (if n < 0 then '-' else '+') :: padded 2 (n.natAbs / 60) ++ ':' :: padded 2 (n.natAbs % 60)

def text (d : Datetime) : Text :=
  (d.date.map dateText).getD [] ++ (if d.date.isSome && d.time.isSome then ['T'] else []) ++
    (d.time.map timeText).getD [] ++ (d.offset.map offsetText).getD []

end Datetime
end CollectionTypes.Toml
