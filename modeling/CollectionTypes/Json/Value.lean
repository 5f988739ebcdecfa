import CollectionTypes.Json.Skip

/-!
# Lists, objects and values

The inside of a list or object is read piece by piece by `takeElements` and `takeMembers`, which
leave the closing bracket to `enclosed`. The bracket is looked for even where the inside does not
describe what was asked for: such a mismatch is placed after the bracket, or where the bracket
should have been.

`takeValue` reads a whole value. Brackets may be open up to a given depth.
-/

namespace CollectionTypes.Json

/-- How many brackets may be open at once. -/
def maxDepth : Nat := 127

/-! ### Brackets -/

/-- Looks for the end of a list: the rest after it, or a fault where it should have been. -/
def closeList (t : Text) : Text × Option Fault :=
  match skipSpace t with
  | [] => ([], some (.located .endInList ⟨[], 1⟩))
  | c :: cs =>
    if c = ']' then (cs, none)
    else if c = ',' then
      let rest := skipSpace cs
      match rest with
      | ']' :: _ => (rest, some (.located .trailingComma ⟨rest, 1⟩))
      | _ => (rest, some (.located .trailingText ⟨rest, 1⟩))
    else (c :: cs, some (.located .trailingText ⟨c :: cs, 1⟩))

/-- Looks for the end of an object. -/
def closeObject (t : Text) : Text × Option Fault :=
  match skipSpace t with
  | [] => ([], some (.located .endInObject ⟨[], 1⟩))
  | c :: cs =>
    if c = '}' then (cs, none)
    else if c = ',' then (c :: cs, some (.located .trailingComma ⟨c :: cs, 1⟩))
    else (c :: cs, some (.located .trailingText ⟨c :: cs, 1⟩))

/-- The inside of a bracket, followed by its end. -/
def enclosed {α : Type} (close : Text → Text × Option Fault) (inside : Taken α) : Taken α :=
  match inside with
  | .ok (a, t) =>
    match close t with
    | (rest, none) => .ok (a, rest)
    | (_, some fault) => .error fault
  | .error (.pending m t) => .error (.located (.mismatch m) ⟨(close t).1, 0⟩)
  | .error fault => .error fault

/-! ### Elements and members -/

/-- Finds the next element of a list: its text, or the text from the closing bracket. -/
inductive Next where
  | more (rest : Text)
  | done (rest : Text)
deriving DecidableEq, Repr

def nextElement (first : Bool) (t : Text) : Except Fault Next :=
  match skipSpace t with
  | [] => atNext .endInList []
  | c :: cs =>
    if c = ']' then .ok (.done (c :: cs))
    else if first then .ok (.more (c :: cs))
    else if c = ',' then
      match skipSpace cs with
      | [] => atNext .endInValue []
      | d :: ds => if d = ']' then atNext .trailingComma (d :: ds) else .ok (.more (d :: ds))
    else atNext .listEndExpected (c :: cs)

/-- Finds the next member of an object: the text from its key, or from the closing bracket. -/
def nextMember (first : Bool) (t : Text) : Except Fault Next :=
  match skipSpace t with
  | [] => atNext .endInObject []
  | c :: cs =>
    if c = '}' then .ok (.done (c :: cs))
    else if first then
      if c = '"' then .ok (.more (c :: cs)) else atNext .keyNotString (c :: cs)
    else if c = ',' then
      match skipSpace cs with
      | [] => atNext .endInValue []
      | d :: ds =>
        if d = '"' then .ok (.more (d :: ds))
        else if d = '}' then atNext .trailingComma (d :: ds)
        else atNext .keyNotString (d :: ds)
    else atNext .objectEndExpected (c :: cs)

/-- The key of the next member of an object. -/
def takeKey (first : Bool) (t : Text) : Taken (Option Text) :=
  match nextMember first t with
  | .error e => .error e
  | .ok (.done rest) => .ok (none, rest)
  | .ok (.more rest) => (takeString rest.tail).map fun (key, r) => (some key, r)

/-- The elements of a list, up to its closing bracket. An element takes something of the text. -/
def takeElements {α : Type} (element : Text → Taken α) (first : Bool) (t : Text) :
    Taken (List α) :=
  match nextElement first t with
  | .error e => .error e
  | .ok (.done rest) => .ok ([], rest)
  | .ok (.more rest) =>
    match element rest with
    | .error e => .error e
    | .ok (a, r) =>
      if r.length < t.length then (takeElements element false r).map fun (as, r) => (a :: as, r)
      else atNext .valueExpected r
termination_by t.length

/-- Goes through the members of an object, up to its closing bracket. `member` gets what was
gathered so far, the key, and the text after the key; it takes something of the text. -/
def takeMembers {σ : Type} (member : σ → Text → Text → Taken σ) (gathered : σ) (first : Bool)
    (t : Text) : Taken σ :=
  match takeKey first t with
  | .error e => .error e
  | .ok (none, rest) => .ok (gathered, rest)
  | .ok (some key, rest) =>
    match member gathered key rest with
    | .error e => .error e
    | .ok (s, r) =>
      if r.length < t.length then takeMembers member s false r
      else atNext .valueExpected r
termination_by t.length

/-! ### Values -/

inductive Value where
  | null
  | boolean (value : Bool)
  | number (value : Number)
  | string (value : Text)
  | list (elements : List Value)
  | object (members : List (Text × Value))

/-- Takes a literal word, after its first letter. -/
def takeLetters {α : Type} (letters : Text) (a : α) (t : Text) : Taken α :=
  (skipLetters letters t).map fun rest => (a, rest)

/-- A value that is no list or object and starts with `c`. -/
def takeScalar (c : Char) (cs : Text) : Taken Value :=
  if c = 'n' then takeLetters nullLetters .null cs
  else if c = 't' then takeLetters trueLetters (.boolean true) cs
  else if c = 'f' then takeLetters falseLetters (.boolean false) cs
  else if c = '-' then (takeNumber true cs).map fun (n, r) => (.number n, r)
  else if c.isDigit then (takeNumber false (c :: cs)).map fun (n, r) => (.number n, r)
  else if c = '"' then (takeString cs).map fun (s, r) => (.string s, r)
  else atNext .valueExpected (c :: cs)

/-- A value inside which at most `depth` brackets are open. -/
def takeValue : (depth : Nat) → Text → Taken Value
  | depth, t =>
    match skipSpace t with
    | [] => atNext .endInValue []
    | c :: cs =>
      if c = '[' then
        match depth with
        | 0 => atNext .tooDeep (c :: cs)
        | depth + 1 =>
          (enclosed closeList (takeElements (takeValue depth) true cs)).map fun (vs, r) =>
            (.list vs, r)
      else if c = '{' then
        match depth with
        | 0 => atNext .tooDeep (c :: cs)
        | depth + 1 =>
          let member := fun members key rest =>
            match skipColon rest with
            | .error e => .error e
            | .ok rest => (takeValue depth rest).map fun (v, r) => (members ++ [(key, v)], r)
          (enclosed closeObject (takeMembers member [] true cs)).map fun (ms, r) => (.object ms, r)
      else takeScalar c cs

end CollectionTypes.Json
