import CollectionTypes.Toml.Table

/-!
# Documents

A document is a sequence of lines: assignments, headers and empty lines, each with an optional
comment. The assignments before the first header fill the document's own table, the others the
table of the last header. A header in double brackets appends a table to an array; one in single
brackets defines a table once, and keeps what was put there only on the way to deeper headers.

All lines are taken apart before the first of them is understood. A missing key is left for the
understanding to find: it is an empty word. A header whose last key is missing need not be closed
either.
-/

namespace CollectionTypes.Toml

structure Header where
  isElement : Bool
  path : WrittenPath
  extent : Extent
deriving DecidableEq, Repr

inductive Statement where
  | assignment (member : WrittenMember)
  | header (header : Header)

/-- A header with the assignments that belong to it. -/
structure Section where
  header : Header
  assignments : List WrittenMember

structure Document where
  assignments : List WrittenMember
  sections : List Section

/-! ### Lines -/

/-- What follows the words, strings and brackets of a line. -/
def skipLexemes (t : Text) : Text :=
  match t with
  | [] => []
  | c :: cs =>
    if c = '#' ∨ c = '\n' ∨ c = '\r' then c :: cs
    else if isQuote c then
      have := length_splitString_le c cs
      skipLexemes (splitString c cs).2
    else if isWordPart c then
      have := Text.length_dropWhile_le isWordPart cs
      skipLexemes (cs.dropWhile isWordPart)
    else skipLexemes cs
termination_by t.length

/-- What follows the brackets that close a header. A header that is not closed goes on to the end
of its line if its last key is missing. -/
def afterHeader? (isElement : Bool) (path : WrittenPath) (t : Text) : Option Text :=
  match t with
  | ']' :: cs =>
    if isElement then
      match cs with
      | ']' :: r => some r
      | _ => none
    else some cs
  | _ => if path.last.text.isEmpty then some (skipLexemes t) else none

def takeHeader (t : Text) : Taken Header :=
  let (isElement, start) :=
    match t with
    | '[' :: '[' :: cs => (true, cs)
    | _ => (false, t.drop 1)
  let (path, rest) := takePath (skipSpaces start)
  (afterHeader? isElement path (skipSpaces rest)).map fun r =>
    (⟨isElement, path, .between t r⟩, r)

/-- What a line says, if anything, after its blanks. -/
def takeStatement (t : Text) : Taken (Option Statement) :=
  match t with
  | [] => some (none, [])
  | c :: _ =>
    if c = '[' then (takeHeader t).map fun (h, r) => (some (.header h), r)
    else if c = '#' ∨ c = '\n' ∨ c = '\r' then some (none, t)
    else
      (takeMember (takeValue maxDepth) t).map fun (m, r) => (some (.assignment m), r)

/-- What follows a line, after what it says. -/
def afterLine? (t : Text) : Option Text :=
  match skipComment (skipSpaces t) with
  | [] => some []
  | rest => afterNewline? rest

def takeLine (t : Text) : Taken (Option Statement) :=
  match takeStatement (skipSpaces t) with
  | none => none
  | some (s, rest) => (afterLine? rest).map fun r => (s, r)

def statements? (t : Text) : Option (List Statement) :=
  match takeLine t with
  | none => none
  | some (s, rest) =>
    if rest.isEmpty then some s.toList
    else if rest.length < t.length then (statements? rest).map fun ss => s.toList ++ ss
    else none
termination_by t.length

/-- A document may start with a byte order mark. -/
def skipMark (t : Text) : Text :=
  match t with
  | '\uFEFF' :: cs => cs
  | _ => t

namespace Document

def ofStatements : List Statement → Document
  | [] => ⟨[], []⟩
  | .assignment m :: rest =>
    let d := ofStatements rest
    { d with assignments := m :: d.assignments }
  | .header h :: rest =>
    let d := ofStatements rest
    ⟨[], ⟨h, d.assignments⟩ :: d.sections⟩

end Document

/-! ### Tables -/

/-- Appends a table to the array under a key, which is created if it is not there. -/
def Table.append (key : Key) (extent : Extent) (table parent : Table) : Except Defect Table :=
  match parent.get? key.name with
  | none => .ok (parent.add key extent (.arrayOfTables [(extent, table.value)]))
  | some (_, .arrayOfTables elements) =>
    .ok (parent.replace key.name (.arrayOfTables (elements ++ [(extent, table.value)])))
  | some _ => .error .malformed

/-- Puts a table with these members at the end of its parent. Entries that are there on the way to
deeper headers are kept. -/
def Table.defineTable (key : Key) (extent : Extent) (members : List WrittenMember)
    (parent : Table) : Except Defect Table :=
  match parent.get? key.name with
  | none => (fill (.empty .header) members).map fun t => parent.add key extent t.value
  | some (_, .table .implied entries) =>
    (fill ⟨.header, entries⟩ members).map fun t =>
      (parent.remove key.name).add key extent t.value
  | some _ => .error .malformed

namespace Section

/-- The document's own table with the table of a section. An element of an array is filled before
its place is looked for. -/
def addTo (root : Table) (s : Section) : Except Defect Table := do
  let path ← s.header.path.path
  let extent := s.header.extent
  if s.header.isElement then
    let table ← fill (.empty .header) s.assignments
    root.update false (Table.append path.last extent table) path.parents
  else root.update false (Table.defineTable path.last extent s.assignments) path.parents

end Section

namespace Document

def table (d : Document) : Except Defect Table := do
  let root ← fill (.empty .header) d.assignments
  d.sections.foldlM Section.addTo root

end Document

/-- The table that a text describes. -/
def tableOf (source : Text) : Except Defect Table := do
  let statements ← Defect.require (statements? (skipMark source))
  (Document.ofStatements statements).table

end CollectionTypes.Toml
