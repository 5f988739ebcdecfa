import CollectionTypes.Toml.Key
import CollectionTypes.Toml.Scalar

/-!
# Values as written

A value is a word, a string, an array or an inline table. Between brackets, blanks, line breaks and
comments may stand around the items, the commas and the equals signs, and a comma may follow the
last item. Brackets may be open up to a given depth. Words and strings are left as they are, and
where one is missing at the end of an assignment there is an empty word.
-/

namespace CollectionTypes.Toml

inductive Written where
  | scalar (text : Text)
  | array (elements : List (Extent × Written))
  | table (members : List (WrittenPath × Extent × Written))

/-- A path, and the value that is put there. -/
abbrev WrittenMember := WrittenPath × Extent × Written

/-- How many brackets may be open at once. -/
def maxDepth : Nat := 80

/-- What follows a comment, if there is one. -/
def skipComment (t : Text) : Text :=
  match t with
  | '#' :: cs => cs.dropWhile isPlain
  | _ => t

theorem length_skipComment_le (t : Text) : (skipComment t).length ≤ t.length := by
  unfold skipComment
  split
  next cs => exact Nat.le_succ_of_le (Text.length_dropWhile_le isPlain cs)
  next => exact Nat.le_refl _

/-- Skips blanks, line breaks and comments. A comment that does not end with its line is not
skipped. -/
def skipFiller (t : Text) : Text :=
  match t with
  | [] => []
  | c :: cs =>
    if isSpace c then skipFiller cs
    else
      match h : afterNewline? (skipComment (c :: cs)) with
      | some rest =>
        have := length_afterNewline?_lt h
        have := length_skipComment_le (c :: cs)
        skipFiller rest
      | none => if (skipComment (c :: cs)).isEmpty then [] else c :: cs
termination_by t.length
decreasing_by
  · simp
  · omega

/-- The items up to the closing bracket, and the rest after it. -/
def takeItems {α : Type} (close : Char) (item : Text → Taken α) (t : Text) : Taken (List α) :=
  match skipFiller t with
  | [] => none
  | c :: cs =>
    if c = close then some ([], cs)
    else
      match item (c :: cs) with
      | none => none
      | some (a, rest) =>
        match skipFiller rest with
        | [] => none
        | d :: ds =>
          if d = close then some ([a], ds)
          else if d = ',' ∧ ds.length < t.length then
            (takeItems close item ds).map fun (as, r) => (a :: as, r)
          else none
termination_by t.length

/-- Something together with its extent. -/
def takeLocated {α : Type} (taken : Text → Taken α) (t : Text) : Taken (Extent × α) :=
  (taken t).map fun (a, rest) => ((.between t rest, a), rest)

/-- Something that is not empty. -/
def takeSome {α : Type} (taken : Text → Taken α) (t : Text) : Taken α :=
  match taken t with
  | some (a, rest) => if rest.length < t.length then some (a, rest) else none
  | none => none

/-- An assignment on a line of its own: a path, an equals sign and a value. -/
def takeMember (value : Text → Taken Written) (t : Text) : Taken WrittenMember :=
  let (path, rest) := takePath t
  match skipSpaces rest with
  | '=' :: cs => (takeLocated value (skipSpaces cs)).map fun (located, r) => ((path, located), r)
  | _ => none

/-- A value in an inline table, which may be missing before the closing brace. -/
def takeInlineValue (value : Text → Taken Written) (t : Text) : Taken Written :=
  if t.head? = some '}' then some (.scalar [], t) else takeSome value t

/-- An assignment in an inline table. Before the closing brace the equals sign may be missing
too. -/
def takeInlineMember (value : Text → Taken Written) (t : Text) : Taken WrittenMember :=
  let (path, rest) := takePath t
  let rest := skipFiller rest
  let located :=
    match rest with
    | '}' :: _ => takeLocated (takeInlineValue value) rest
    | '=' :: cs => takeLocated (takeInlineValue value) (skipFiller cs)
    | _ => none
  located.map fun (located, r) => ((path, located), r)

/-- A value inside which at most `depth` brackets are open. A word may be empty. -/
def takeValue : (depth : Nat) → Text → Taken Written
  | depth, t =>
    match t with
    | [] => some (.scalar [], [])
    | c :: cs =>
      if c = '[' then
        match depth with
        | 0 => none
        | depth + 1 =>
          (takeItems ']' (takeLocated (takeSome (takeValue depth))) cs).map
            fun (vs, r) => (.array vs, r)
      else if c = '{' then
        match depth with
        | 0 => none
        | depth + 1 =>
          (takeItems '}' (takeInlineMember (takeValue depth)) cs).map
            fun (ms, r) => (.table ms, r)
      else
        let (word, rest) := splitScalar t
        some (.scalar word, rest)

end CollectionTypes.Toml
