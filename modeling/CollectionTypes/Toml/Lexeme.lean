import CollectionTypes.Toml.Value

/-!
# Words and strings as written

The lines of a document are taken apart before anything in them is understood. For that it is
enough to know where a word or a string ends: a word before the next delimiter or point, a string
after its closing quotes. A string whose closing quote is missing ends with its line, or with the
document if it may have several lines. Nothing is lost by the cut (`splitLexeme_append`).
-/

namespace CollectionTypes.Toml

/-- A word or a string, with its quotes, at a place in the source. -/
structure Lexeme where
  text : Text
  extent : Extent
deriving DecidableEq, Repr

/-- The characters that end a word. -/
def isDelimiter (c : Char) : Bool :=
  c == ' ' || c == '\t' || c == '\r' || c == '\n' || c == '#' || c == '=' || c == ',' ||
    c == '[' || c == ']' || c == '{' || c == '}'

def isQuote (c : Char) : Bool := c == '"' || c == '\''

/-- The characters that end no word. -/
def isWordPart (c : Char) : Bool := !isDelimiter c && c != '.'

/-- Whether the character after `c` in a string is not looked at. -/
def escapes (quote c : Char) : Bool := quote == '"' && c == '\\'

/-- A string of one line after its opening quote, and the rest. -/
def splitLine (quote : Char) : (escaped : Bool) → Text → Text × Text
  | _, [] => ([], [])
  | escaped, c :: cs =>
    if c = '\n' then ([], c :: cs)
    else if c = quote ∧ escaped = false then ([c], cs)
    else
      let (t, rest) := splitLine quote (!escaped && escapes quote c) cs
      (c :: t, rest)

/-- A string of several lines after its opening quotes, and the rest. Two quotes may stand in front
of the three that close it. -/
def splitLines (quote : Char) : (escaped : Bool) → Text → Text × Text
  | _, [] => ([], [])
  | escaped, c :: cs =>
    if c = quote ∧ escaped = false ∧ cs.take 2 = [quote, quote] then
      let count := min 5 ((c :: cs).takeWhile (· == quote)).length
      ((c :: cs).take count, (c :: cs).drop count)
    else
      let (t, rest) := splitLines quote (!escaped && escapes quote c) cs
      (c :: t, rest)

/-- A string after its first quote, and the rest. -/
def splitString (quote : Char) (t : Text) : Text × Text :=
  if t.take 2 = [quote, quote] then
    let (s, rest) := splitLines quote false (t.drop 2)
    (quote :: quote :: s, rest)
  else splitLine quote false t

/-- The string or the word at the start of a text, and the rest. Where the text starts with a
delimiter or a point the word is empty. -/
def splitLexeme (t : Text) : Text × Text :=
  match t with
  | [] => ([], [])
  | c :: cs =>
    if isQuote c then
      let (s, rest) := splitString c cs
      (c :: s, rest)
    else (t.takeWhile isWordPart, t.dropWhile isWordPart)

theorem splitLine_append (quote : Char) (escaped : Bool) (t : Text) :
    (splitLine quote escaped t).1 ++ (splitLine quote escaped t).2 = t := by
  induction t generalizing escaped with
  | nil => simp [splitLine]
  | cons c cs ih =>
    unfold splitLine
    split
    next => simp
    next =>
      split
      next => simp
      next => simp [ih]

theorem splitLines_append (quote : Char) (escaped : Bool) (t : Text) :
    (splitLines quote escaped t).1 ++ (splitLines quote escaped t).2 = t := by
  induction t generalizing escaped with
  | nil => simp [splitLines]
  | cons c cs ih =>
    unfold splitLines
    split
    next => exact List.take_append_drop _ _
    next => simp [ih]

theorem splitString_append (quote : Char) (t : Text) :
    (splitString quote t).1 ++ (splitString quote t).2 = t := by
  unfold splitString
  split
  next h =>
    have h' := splitLines_append quote false (t.drop 2)
    have ht := List.take_append_drop 2 t
    rw [h] at ht
    simp only [List.cons_append, h']
    exact ht
  next => exact splitLine_append quote false t

theorem length_splitString_le (quote : Char) (t : Text) :
    (splitString quote t).2.length ≤ t.length := by
  have h := congrArg List.length (splitString_append quote t)
  rw [List.length_append] at h
  omega

theorem splitLexeme_append (t : Text) : (splitLexeme t).1 ++ (splitLexeme t).2 = t := by
  unfold splitLexeme
  split
  next => rfl
  next c cs =>
    split
    next => simp [splitString_append]
    next => exact List.takeWhile_append_dropWhile

theorem length_splitLexeme_le (t : Text) : (splitLexeme t).2.length ≤ t.length := by
  have h := congrArg List.length (splitLexeme_append t)
  rw [List.length_append] at h
  omega

end CollectionTypes.Toml
