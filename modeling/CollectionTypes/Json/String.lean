import CollectionTypes.Json.Literal
import CollectionTypes.Text.Escape

/-!
# Strings

A string whose text is used is decoded: an escape of a code unit in the surrogate range must be
the first half of a pair. A string whose text is not used is checked for its form alone.
-/

namespace CollectionTypes.Json

/-- The character that a letter after a backslash stands for. -/
def simpleEscape? (c : Char) : Option Char := Text.simpleEscape? ('/', '/') c

def isControl (c : Char) : Bool := c.toNat < 0x20

def hexValue? (a b c d : Char) : Option Nat := do
  return (((← Text.hexDigit? a) * 16 + (← Text.hexDigit? b)) * 16 + (← Text.hexDigit? c)) * 16 +
    (← Text.hexDigit? d)

/-- Four bytes that are not all hexadecimal digits, or fewer than four. -/
def badHex {α : Type} (t : Text) : Except Fault α :=
  if t.byteLength < 4 then atHere .endInString []
  else .error (.located .invalidEscape ⟨t, 4⟩)

def takeHex (t : Text) : Taken Nat :=
  match t with
  | a :: b :: c :: d :: rest =>
    match hexValue? a b c d with
    | some n => .ok (n, rest)
    | none => badHex t
  | _ => badHex t

def isLowSurrogate (n : Nat) : Bool := 0xDC00 ≤ n && n ≤ 0xDFFF

def isHighSurrogate (n : Nat) : Bool := 0xD800 ≤ n && n ≤ 0xDBFF

def surrogatePair (high low : Nat) : Char :=
  Char.ofNat (0x10000 + (high - 0xD800) * 0x400 + (low - 0xDC00))

/-- The second half of a surrogate pair, with its own escape. -/
def takeLowSurrogate (high : Nat) : Text → Taken Char
  | [] => atHere .endInString []
  | '\\' :: [] => atHere .endInString []
  | '\\' :: c :: cs =>
    if c = 'u' then
      match takeHex cs with
      | .error e => .error e
      | .ok (n, rest) =>
        if isLowSurrogate n then .ok (surrogatePair high n, rest) else atHere .loneSurrogate rest
    else atNext .endInSurrogatePair (c :: cs)
  | c :: cs => atNext .endInSurrogatePair (c :: cs)

/-- The character of an escape, after the backslash. -/
def takeEscape : Text → Taken Char
  | [] => atHere .endInString []
  | c :: cs =>
    if c = 'u' then
      match takeHex cs with
      | .error e => .error e
      | .ok (n, rest) =>
        if isLowSurrogate n then atHere .loneSurrogate rest
        else if isHighSurrogate n then takeLowSurrogate n rest
        else .ok (Char.ofNat n, rest)
    else
      match simpleEscape? c with
      | some d => .ok (d, cs)
      | none => atNext .invalidEscape (c :: cs)

def skipEscape : Text → Except Fault Text
  | [] => atHere .endInString []
  | c :: cs =>
    if c = 'u' then (takeHex cs).map Prod.snd
    else if (simpleEscape? c).isSome then .ok cs
    else atNext .invalidEscape (c :: cs)

theorem length_takeHex_lt {t rest : Text} {n : Nat} (h : takeHex t = .ok (n, rest)) :
    rest.length < t.length := by
  have bad : ∀ u : Text, badHex u ≠ .ok (n, rest) := by
    intro u
    unfold badHex
    split <;> simp [atHere]
  unfold takeHex at h
  split at h
  next =>
    split at h
    next =>
      simp only [Except.ok.injEq, Prod.mk.injEq] at h
      obtain ⟨_, rfl⟩ := h
      simp only [List.length_cons]
      omega
    next => exact absurd h (bad _)
  next => exact absurd h (bad _)

theorem length_takeLowSurrogate_lt {high : Nat} {t rest : Text} {d : Char}
    (h : takeLowSurrogate high t = .ok (d, rest)) : rest.length < t.length := by
  unfold takeLowSurrogate at h
  split at h
  next => simp [atHere] at h
  next => simp [atHere] at h
  next c cs =>
    split at h
    next =>
      split at h
      next => simp at h
      next n r hx =>
        have := length_takeHex_lt hx
        split at h
        next =>
          simp only [Except.ok.injEq, Prod.mk.injEq] at h
          obtain ⟨_, rfl⟩ := h
          simp only [List.length_cons]
          omega
        next => simp [atHere] at h
    next => simp [atNext] at h
  next => simp [atNext] at h

theorem length_takeEscape_lt {t rest : Text} {d : Char} (h : takeEscape t = .ok (d, rest)) :
    rest.length < t.length := by
  unfold takeEscape at h
  split at h
  next => simp [atHere] at h
  next c cs =>
    simp only [List.length_cons]
    split at h
    next =>
      split at h
      next => simp at h
      next n r hx =>
        have h₁ := length_takeHex_lt hx
        split at h
        next => simp [atHere] at h
        next =>
          split at h
          next =>
            have := length_takeLowSurrogate_lt h
            omega
          next =>
            simp only [Except.ok.injEq, Prod.mk.injEq] at h
            obtain ⟨_, rfl⟩ := h
            omega
    next =>
      split at h
      next =>
        simp only [Except.ok.injEq, Prod.mk.injEq] at h
        obtain ⟨_, rfl⟩ := h
        omega
      next => simp [atNext] at h

theorem length_skipEscape_lt {t rest : Text} (h : skipEscape t = .ok rest) :
    rest.length < t.length := by
  unfold skipEscape at h
  split at h
  next => simp [atHere] at h
  next c cs =>
    simp only [List.length_cons]
    split at h
    next =>
      cases hx : takeHex cs with
      | error e => simp [hx, Except.map] at h
      | ok p =>
        obtain ⟨n, r⟩ := p
        have := length_takeHex_lt hx
        simp only [hx, Except.map, Except.ok.injEq] at h
        subst h
        omega
    next =>
      split at h
      next =>
        obtain rfl := Except.ok.inj h
        omega
      next => simp [atNext] at h

/-- The text of a string up to its closing quote. -/
def takeString : Text → Taken Text
  | [] => atHere .endInString []
  | c :: cs =>
    if c = '"' then .ok ([], cs)
    else if c = '\\' then
      match h : takeEscape cs with
      | .error e => .error e
      | .ok (d, rest) =>
        have := length_takeEscape_lt h
        (takeString rest).map fun (t, r) => (d :: t, r)
    else if isControl c then atNext .controlCharacter (c :: cs)
    else (takeString cs).map fun (t, r) => (c :: t, r)
termination_by t => t.length

/-- Skips a string up to its closing quote. -/
def skipString : Text → Except Fault Text
  | [] => atHere .endInString []
  | c :: cs =>
    if c = '"' then .ok cs
    else if c = '\\' then
      match h : skipEscape cs with
      | .error e => .error e
      | .ok rest =>
        have := length_skipEscape_lt h
        skipString rest
    else if isControl c then atHere .controlCharacter (c :: cs)
    else skipString cs
termination_by t => t.length

theorem length_skipString_lt {t rest : Text} (h : skipString t = .ok rest) :
    rest.length < t.length := by
  fun_induction skipString t with
  | case1 => simp [atHere] at h
  | case2 =>
    obtain rfl := Except.ok.inj h
    simp
  | case3 => simp at h
  | case4 cs r he _ _ ih =>
    have h₁ := ih h
    have h₂ := length_skipEscape_lt he
    simp only [List.length_cons]
    omega
  | case5 => simp [atHere] at h
  | case6 c cs _ _ _ ih =>
    have h₁ := ih h
    simp only [List.length_cons]
    omega

end CollectionTypes.Json
