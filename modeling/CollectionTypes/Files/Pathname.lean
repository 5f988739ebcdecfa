import CollectionTypes.Text.Basic

/-!
# Path names

A path name is a text whose pieces are divided by slashes. Empty pieces and single points do not
count, except for a point at the very start. Cutting off the last piece that counts keeps the rest
of the text as it is written, without the slashes and points at its end.
-/

namespace CollectionTypes.Pathname

/-- The texts between the slashes. -/
def pieces : Text → List Text
  | [] => [[]]
  | c :: cs =>
    if c = '/' then [] :: pieces cs
    else
      match pieces cs with
      | [] => [[c]]
      | p :: ps => (c :: p) :: ps

def here : Text := "."

def above : Text := ".."

/-- Whether a piece does not count, if it is not the first. -/
def isIdle (piece : Text) : Bool := piece.isEmpty || piece = here

/-- The pieces without the idle ones at the end. -/
def trimmed (ps : List Text) : List Text := (ps.reverse.dropWhile isIdle).reverse

def ofPieces (ps : List Text) : Text := Text.joined ['/'] ps

theorem joined_pieces (t : Text) : ofPieces (pieces t) = t := by
  unfold ofPieces
  induction t with
  | nil => rfl
  | cons c cs ih =>
    by_cases h : c = '/'
    · subst h
      cases hp : pieces cs with
      | nil => simp_all [pieces, Text.joined]
      | cons p ps => simp_all [pieces, Text.joined]
    · cases hp : pieces cs with
      | nil => simp_all [pieces, Text.joined]
      | cons p ps =>
        cases ps with
        | nil => simp_all [pieces, Text.joined]
        | cons q qs => simp_all [pieces, Text.joined]

def isAbsolute (path : Text) : Bool := path.head? = some '/'

/-- A path name seen from another one. -/
def join (base path : Text) : Text :=
  if isAbsolute path ∨ base.isEmpty then path
  else if base.getLast? = some '/' then base ++ path
  else base ++ '/' :: path

theorem join_of_isAbsolute {base path : Text} (h : isAbsolute path = true) :
    join base path = path := by
  simp [join, h]

theorem join_nil (path : Text) : join [] path = path := by
  simp [join]

/-- The path name without its last piece. -/
def parent? (path : Text) : Option Text :=
  match pieces path with
  | [] => none
  | first :: rest =>
    match trimmed rest with
    | [] => if first.isEmpty then none else some []
    | p :: ps =>
      let kept := trimmed (p :: ps).dropLast
      if first.isEmpty ∧ kept.isEmpty then some ['/'] else some (ofPieces (first :: kept))

/-- The path name, its parent, the parent of that, and so on. -/
def ancestors (path : Text) : List Text :=
  match parent? path with
  | none => [path]
  | some parent => if parent.length < path.length then path :: ancestors parent else [path]
termination_by path.length

/-- The last piece that counts. -/
def lastPiece (path : Text) : Text :=
  match pieces path with
  | [] => []
  | first :: rest => (trimmed rest).getLast?.getD first

/-- What follows the last point of the last piece. A point at the start of the piece does not
divide it, nor do those of a piece that names a directory by its place. -/
def extension (path : Text) : Text :=
  let name := lastPiece path
  if name = above then []
  else
    match Text.cutAt? '.' name.reverse with
    | some (after, before) => if before.isEmpty then [] else after.reverse
    | none => []

end CollectionTypes.Pathname
