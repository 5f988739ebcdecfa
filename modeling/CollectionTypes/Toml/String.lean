import CollectionTypes.Text.Escape

/-!
# Strings

Basic strings have escapes and literal strings have none; either may span lines between triple
quotes. A string of several lines leaves out a line break right after its opening quotes, and up to
two quotes may stand in front of its closing ones.
-/

namespace CollectionTypes.Toml

/-- The result of taking something from a text: what was taken, and the rest. -/
abbrev Taken (α : Type) := Option (α × Text)

def isSpace (c : Char) : Bool := c == ' ' || c == '\t'

/-- The characters that may stand for themselves in a line. -/
def isPlain (c : Char) : Bool := c == '\t' || (0x20 ≤ c.toNat && c.toNat ≠ 0x7F)

/-- What follows a line break. -/
def afterNewline? : Text → Option Text
  | '\n' :: cs => some cs
  | '\r' :: '\n' :: cs => some cs
  | _ => none

theorem length_afterNewline?_lt {t rest : Text} (h : afterNewline? t = some rest) :
    rest.length < t.length := by
  unfold afterNewline? at h
  split at h
  next =>
    obtain rfl := Option.some.inj h
    simp
  next =>
    obtain rfl := Option.some.inj h
    simp only [List.length_cons]
    omega
  next => simp at h

/-- Continues a number with exactly this many hexadecimal digits. -/
def takeHex : (count value : Nat) → Text → Taken Nat
  | 0, n, t => some (n, t)
  | _ + 1, _, [] => none
  | count + 1, n, c :: cs => (Text.hexDigit? c).bind fun d => takeHex count (n * 16 + d) cs

def takeCode (count : Nat) (t : Text) : Taken Char :=
  match takeHex count 0 t with
  | some (n, rest) => if n.isValidChar then some (Char.ofNat n, rest) else none
  | none => none

def simpleEscape? (c : Char) : Option Char := Text.simpleEscape? ('e', '\x1b') c

/-- The character of an escape, after the backslash. -/
def takeEscape : Text → Taken Char
  | [] => none
  | c :: cs =>
    match simpleEscape? c with
    | some d => some (d, cs)
    | none =>
      if c = 'x' then takeCode 2 cs
      else if c = 'u' then takeCode 4 cs
      else if c = 'U' then takeCode 8 cs
      else none

theorem length_takeHex_le {count n m : Nat} {t rest : Text}
    (h : takeHex count n t = some (m, rest)) : rest.length ≤ t.length := by
  induction count generalizing n t with
  | zero =>
    simp only [takeHex, Option.some.injEq, Prod.mk.injEq] at h
    obtain ⟨_, rfl⟩ := h
    exact Nat.le_refl _
  | succ count ih =>
    cases t with
    | nil => simp [takeHex] at h
    | cons c cs =>
      simp only [takeHex, Option.bind_eq_some_iff] at h
      obtain ⟨d, _, h⟩ := h
      have := ih h
      simp only [List.length_cons]
      omega

theorem length_takeCode_le {count : Nat} {t rest : Text} {c : Char}
    (h : takeCode count t = some (c, rest)) : rest.length ≤ t.length := by
  unfold takeCode at h
  split at h
  next n r hx =>
    split at h
    next =>
      simp only [Option.some.injEq, Prod.mk.injEq] at h
      obtain ⟨_, rfl⟩ := h
      exact length_takeHex_le hx
    next => simp at h
  next => simp at h

theorem length_takeEscape_lt {t rest : Text} {d : Char} (h : takeEscape t = some (d, rest)) :
    rest.length < t.length := by
  unfold takeEscape at h
  split at h
  next => simp at h
  next c cs =>
    simp only [List.length_cons]
    split at h
    next =>
      simp only [Option.some.injEq, Prod.mk.injEq] at h
      obtain ⟨_, rfl⟩ := h
      omega
    next =>
      split at h
      next => exact Nat.lt_succ_of_le (length_takeCode_le h)
      split at h
      next => exact Nat.lt_succ_of_le (length_takeCode_le h)
      split at h
      next => exact Nat.lt_succ_of_le (length_takeCode_le h)
      next => simp at h

/-- The text of a basic string up to its closing quote. -/
def takeBasic : Text → Taken Text
  | [] => none
  | c :: cs =>
    if c = '"' then some ([], cs)
    else if c = '\\' then
      match h : takeEscape cs with
      | none => none
      | some (d, rest) =>
        have := length_takeEscape_lt h
        (takeBasic rest).map fun (t, r) => (d :: t, r)
    else if isPlain c then (takeBasic cs).map fun (t, r) => (c :: t, r)
    else none
termination_by t => t.length

/-- The text of a literal string up to its closing quote. -/
def takeLiteral : Text → Taken Text
  | [] => none
  | c :: cs =>
    if c = '\'' then some ([], cs)
    else if isPlain c then (takeLiteral cs).map fun (t, r) => (c :: t, r)
    else none

/-- The text without the blanks and line breaks at its start. A carriage return counts only
together with the line feed after it. -/
def skipLines : Text → Text
  | [] => []
  | '\r' :: '\n' :: cs => skipLines cs
  | c :: cs => if isSpace c || c == '\n' then skipLines cs else c :: cs

theorem length_skipLines_le (t : Text) : (skipLines t).length ≤ t.length := by
  fun_induction skipLines t with
  | case1 => exact Nat.le_refl _
  | case2 cs ih => exact Nat.le_add_right_of_le (Nat.le_add_right_of_le ih)
  | case3 c cs _ _ ih => exact Nat.le_add_right_of_le ih
  | case4 c cs => exact Nat.le_refl _

/-- After a backslash: what follows the blanks and line breaks, if a line break ends the line. -/
def afterLineEnding? (t : Text) : Option Text :=
  (afterNewline? (t.dropWhile isSpace)).map skipLines

/-- The end of a string of several lines: the quotes that belong to its text, and the rest. -/
def closing? (quote : Char) : Text → Taken Text
  | a :: b :: c :: rest =>
    if a = quote ∧ b = quote ∧ c = quote then
      match rest with
      | d :: e :: rest' =>
        if d = quote ∧ e = quote then some ([quote, quote], rest')
        else if d = quote then some ([quote], e :: rest')
        else some ([], rest)
      | [d] => if d = quote then some ([quote], []) else some ([], rest)
      | [] => some ([], [])
    else none
  | _ => none

theorem length_afterLineEnding?_lt {t rest : Text} (h : afterLineEnding? t = some rest) :
    rest.length < t.length := by
  simp only [afterLineEnding?, Option.map_eq_some_iff] at h
  obtain ⟨u, hu, rfl⟩ := h
  have h₁ := length_afterNewline?_lt hu
  have h₂ := Text.length_dropWhile_le isSpace t
  have h₃ := length_skipLines_le u
  omega

/-- The text of a basic string of several lines up to its closing quotes. -/
def takeBasicLines (t : Text) : Taken Text :=
  match closing? '"' t with
  | some (quotes, rest) => some (quotes, rest)
  | none =>
    match t with
    | [] => none
    | c :: cs =>
      if c = '\\' then
        match hl : afterLineEnding? cs with
        | some rest =>
          have := length_afterLineEnding?_lt hl
          takeBasicLines rest
        | none =>
          match he : takeEscape cs with
          | none => none
          | some (d, rest) =>
            have := length_takeEscape_lt he
            (takeBasicLines rest).map fun (t, r) => (d :: t, r)
      else if isPlain c ∨ c = '\n' ∨ (c = '\r' ∧ cs.head? = some '\n') then
        (takeBasicLines cs).map fun (t, r) => (c :: t, r)
      else none
termination_by t.length

/-- The text of a literal string of several lines up to its closing quotes. -/
def takeLiteralLines (t : Text) : Taken Text :=
  match closing? '\'' t with
  | some (quotes, rest) => some (quotes, rest)
  | none =>
    match t with
    | [] => none
    | c :: cs =>
      if isPlain c ∨ c = '\n' ∨ (c = '\r' ∧ cs.head? = some '\n') then
        (takeLiteralLines cs).map fun (t, r) => (c :: t, r)
      else none

/-- What follows the opening quotes of a string of several lines. -/
def skipFirstNewline (t : Text) : Text := (afterNewline? t).getD t

/-- What was taken, if that was the whole text. -/
def Taken.whole? {α : Type} : Taken α → Option α
  | some (a, []) => some a
  | _ => none

/-- A string of any kind. -/
def takeString (t : Text) : Taken Text :=
  match t with
  | '"' :: '"' :: '"' :: cs => takeBasicLines (skipFirstNewline cs)
  | '\'' :: '\'' :: '\'' :: cs => takeLiteralLines (skipFirstNewline cs)
  | '"' :: cs => takeBasic cs
  | '\'' :: cs => takeLiteral cs
  | _ => none

/-- The text that a string with its quotes stands for. -/
def string? (t : Text) : Option Text := (takeString t).whole?

end CollectionTypes.Toml
