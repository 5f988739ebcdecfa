import CollectionTypes.Toml.Written

/-!
# Filling tables

A member of a table puts a value at the end of a path. Tables on the way to it are created, and
those that are there may be extended only in the way they came about: a dotted path leads through
tables that dotted keys made, or through tables that no header defined yet, and ends in a table
made by a dotted key. Members are understood one after another, so that the first defect of a table
is the one that comes first in the text.
-/

namespace CollectionTypes.Toml

namespace Table

def value (t : Table) : Value := .table t.kind t.entries

/-- Changes the table at the end of `path`. Where the path meets an array of tables it goes on in
the last of them. -/
def update (dotted : Bool) (change : Table → Except Defect Table) : (path : List Key) → Table →
    Except Defect Table
  | [], t => change t
  | key :: path, t =>
    match t.get? key.name with
    | none =>
      (update dotted change path (.empty (if dotted then .dotted else .implied))).map fun child =>
        t.add key key.extent child.value
    | some (_, .table kind entries) =>
      if kind = .inline ∨ (dotted ∧ kind = .header) then .error .malformed
      else
        (update dotted change path ⟨kind, entries⟩).map fun child =>
          t.replace key.name child.value
    | some (_, .arrayOfTables elements) =>
      match elements.getLast? with
      | some (extent, .table kind entries) =>
        (update dotted change path ⟨kind, entries⟩).map fun child =>
          t.replace key.name (.arrayOfTables (elements.dropLast ++ [(extent, child.value)]))
      | _ => .error .malformed
    | some _ => .error .malformed

/-- Puts a value under a key that the table does not have yet. -/
def define (key : Key) (extent : Extent) (value : Value) (t : Table) : Except Defect Table :=
  if (t.get? key.name).isSome then .error .malformed else .ok (t.add key extent value)

/-- Puts a value at the end of a path. -/
def assign (t : Table) (path : Path) (extent : Extent) (value : Value) : Except Defect Table :=
  let isDotted := !path.parents.isEmpty
  let change := fun parent =>
    if (parent.kind == .dotted) = isDotted then define path.last extent value parent
    else .error .malformed
  t.update isDotted change path.parents

end Table

mutual

def Written.value : Written → Except Defect Value
  | .scalar t => Defect.require (scalar? t)
  | .array elements => (elementValues elements).map .array
  | .table members => (fill (.empty .inline) members).map Table.value

def elementValues : List (Extent × Written) → Except Defect (List (Extent × Value))
  | [] => .ok []
  | (extent, w) :: rest => do
    let v ← w.value
    let vs ← elementValues rest
    .ok ((extent, v) :: vs)

/-- The table with further members. -/
def fill (t : Table) : List WrittenMember → Except Defect Table
  | [] => .ok t
  | (p, extent, w) :: rest => do
    let path ← p.path
    let v ← w.value
    let t' ← t.assign path extent v
    fill t' rest

end

end CollectionTypes.Toml
