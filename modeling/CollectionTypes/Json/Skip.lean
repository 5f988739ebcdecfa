import CollectionTypes.Json.Number
import CollectionTypes.Json.String

/-!
# Skipping a value

A value that is not used is checked for its form alone, with the open brackets on a stack, so that
its depth has no limit. Between tokens the reader is in one of three states: a value comes next,
the inside of a bracket has just begun, or a value has just ended.
-/

namespace CollectionTypes.Json

inductive Bracket where
  | list
  | object
deriving DecidableEq, Repr

namespace Bracket

def closing : Bracket → Char
  | list => ']'
  | object => '}'

def endProblem : Bracket → Problem
  | list => .endInList
  | object => .endInObject

def separatorProblem : Bracket → Problem
  | list => .listEndExpected
  | object => .objectEndExpected

end Bracket

inductive SkipState where
  | value
  | opened
  | ended
deriving DecidableEq, Repr

def SkipState.rank : SkipState → Nat
  | opened => 1
  | _ => 0

def skipColon (t : Text) : Except Fault Text :=
  match skipSpace t with
  | [] => atNext .endInObject []
  | c :: cs => if c = ':' then .ok cs else atNext .colonExpected (c :: cs)

/-- Skips what stands in front of a value inside a bracket: a key and a colon in an object. -/
def skipKey : Bracket → Text → Except Fault Text
  | .list, t => .ok t
  | .object, t =>
    match skipSpace t with
    | [] => atNext .endInObject []
    | c :: cs =>
      if c = '"' then
        match skipString cs with
        | .error e => .error e
        | .ok rest => skipColon rest
      else atNext .keyNotString (c :: cs)

/-- Skips a value that is no list or object and starts with `c`. -/
def skipScalar (c : Char) (cs : Text) : Except Fault Text :=
  if c = 'n' then skipLetters nullLetters cs
  else if c = 't' then skipLetters trueLetters cs
  else if c = 'f' then skipLetters falseLetters cs
  else if c = '-' then skipNumber cs
  else if c.isDigit then skipNumber (c :: cs)
  else if c = '"' then skipString cs
  else atNext .valueExpected (c :: cs)

theorem length_skipColon_lt {t rest : Text} (h : skipColon t = .ok rest) :
    rest.length < t.length := by
  unfold skipColon at h
  split at h
  next => simp [atNext] at h
  next c cs hc =>
    have ht := length_lt_of_skipSpace hc
    split at h
    next =>
      obtain rfl := Except.ok.inj h
      omega
    next => simp [atNext] at h

theorem length_skipKey_le {b : Bracket} {t rest : Text} (h : skipKey b t = .ok rest) :
    rest.length ≤ t.length := by
  cases b with
  | list =>
    obtain rfl := Except.ok.inj h
    exact Nat.le_refl _
  | object =>
    simp only [skipKey] at h
    split at h
    next => simp [atNext] at h
    next c cs hc =>
      have ht := length_lt_of_skipSpace hc
      split at h
      next =>
        split at h
        next => simp at h
        next r hs =>
          have h₁ := length_skipString_lt hs
          have h₂ := length_skipColon_lt h
          omega
      next => simp [atNext] at h

theorem length_skipLetters_le {letters t rest : Text} (h : skipLetters letters t = .ok rest) :
    rest.length ≤ t.length := by
  rw [skipLetters_eq_ok_iff] at h
  rw [h, List.length_append]
  omega

theorem length_skipScalar_le {c : Char} {cs rest : Text} (h : skipScalar c cs = .ok rest) :
    rest.length ≤ cs.length := by
  unfold skipScalar at h
  split at h
  next => exact length_skipLetters_le h
  split at h
  next => exact length_skipLetters_le h
  split at h
  next => exact length_skipLetters_le h
  split at h
  next => exact Nat.le_of_lt (length_skipNumber_lt h)
  split at h
  next =>
    have := length_skipNumber_lt h
    simp only [List.length_cons] at this
    omega
  split at h
  next => exact Nat.le_of_lt (length_skipString_lt h)
  next => simp [atNext] at h

/-- Reads on until every bracket of the stack is closed and, in the state `value`, one value more.
The rest starts right after the last character read. -/
def skipFrom (stack : List Bracket) (state : SkipState) (t : Text) : Except Fault Text :=
  match state, stack with
  | .value, stack =>
    match ht : skipSpace t with
    | [] => atNext .endInValue []
    | c :: cs =>
      have := length_lt_of_skipSpace ht
      if c = '[' then skipFrom (.list :: stack) .opened cs
      else if c = '{' then skipFrom (.object :: stack) .opened cs
      else
        match hs : skipScalar c cs with
        | .error e => .error e
        | .ok rest =>
          have := length_skipScalar_le hs
          skipFrom stack .ended rest
  | _, [] => .ok t
  | .opened, b :: bs =>
    match ht : skipSpace t with
    | [] => atNext b.endProblem []
    | c :: cs =>
      have := length_lt_of_skipSpace ht
      if c = b.closing then skipFrom bs .ended cs
      else
        match hk : skipKey b (c :: cs) with
        | .error e => .error e
        | .ok rest =>
          have := length_skipKey_le hk
          skipFrom (b :: bs) .value rest
  | .ended, b :: bs =>
    match ht : skipSpace t with
    | [] => atNext b.endProblem []
    | c :: cs =>
      have := length_lt_of_skipSpace ht
      if c = b.closing then skipFrom bs .ended cs
      else if c = ',' then
        match hk : skipKey b cs with
        | .error e => .error e
        | .ok rest =>
          have := length_skipKey_le hk
          skipFrom (b :: bs) .value rest
      else atNext b.separatorProblem (c :: cs)
termination_by 2 * t.length + state.rank
decreasing_by
  all_goals
    simp only [SkipState.rank, List.length_cons] at *
    omega

/-- Skips one value and the blanks before it. -/
def skipValue (t : Text) : Except Fault Text := skipFrom [] .value t

end CollectionTypes.Json
