import CollectionTypes.Toml.Defect
import CollectionTypes.Toml.Lexeme
import CollectionTypes.Toml.String

/-!
# Keys and paths

A key is a word of ASCII letters, digits, underscores and hyphens, or a string of one line. Keys
joined by points are a path; blanks may stand around a point. A path has at most eighty keys, which
are counted after all of them are understood.
-/

namespace CollectionTypes.Toml

/-- A path as written. -/
structure WrittenPath where
  parents : List Lexeme
  last : Lexeme
deriving DecidableEq, Repr

/-- Keys on the way, and the key at the end. -/
structure Path where
  parents : List Key
  last : Key
deriving DecidableEq, Repr

/-! ### As written -/

def skipSpaces (t : Text) : Text := t.dropWhile isSpace

theorem length_skipSpaces_le (t : Text) : (skipSpaces t).length ≤ t.length :=
  Text.length_dropWhile_le isSpace t

/-- The key at the start of a text, and the rest. -/
def takeKey (t : Text) : Lexeme × Text :=
  let (key, rest) := splitLexeme t
  (⟨key, .between t rest⟩, rest)

theorem length_takeKey_le (t : Text) : (takeKey t).2.length ≤ t.length :=
  length_splitLexeme_le t

/-- The path at the start of a text, and the rest. -/
def takePath (t : Text) : WrittenPath × Text :=
  match h : skipSpaces (takeKey t).2 with
  | '.' :: cs =>
    have : (skipSpaces cs).length < t.length := by
      have h₁ := length_skipSpaces_le (takeKey t).2
      have h₂ := length_takeKey_le t
      have h₃ := length_skipSpaces_le cs
      rw [h, List.length_cons] at h₁
      omega
    let (path, rest) := takePath (skipSpaces cs)
    (⟨(takeKey t).1 :: path.parents, path.last⟩, rest)
  | _ => (⟨[], (takeKey t).1⟩, (takeKey t).2)
termination_by t.length

/-! ### As understood -/

/-- The characters of a key without quotes. -/
def isBare (c : Char) : Bool := c.isAlphanum || c == '_' || c == '-'

def keyName? (t : Text) : Option Text :=
  match t with
  | '"' :: cs => (takeBasic cs).whole?
  | '\'' :: cs => (takeLiteral cs).whole?
  | _ => if !t.isEmpty && t.all isBare then some t else none

def Lexeme.key (l : Lexeme) : Except Defect Key :=
  (Defect.require (keyName? l.text)).map fun name => ⟨name, l.extent⟩

/-- How many keys a path may have. -/
def maxPath : Nat := 80

def WrittenPath.path (p : WrittenPath) : Except Defect Path := do
  let parents ← p.parents.mapM Lexeme.key
  let last ← p.last.key
  if maxPath ≤ parents.length then .error .longPath else .ok ⟨parents, last⟩

end CollectionTypes.Toml
