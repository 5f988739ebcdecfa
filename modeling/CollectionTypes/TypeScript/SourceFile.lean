import CollectionTypes.TypeScript.Declaration

/-!
# Source files

A source file has four sections: header comments, imports, body and exports. Sections with content
are separated by a blank line, and so are the elements of the body. An export that names nothing is
not part of a file.
-/

namespace CollectionTypes.TypeScript

def typeOnlyMark (typeOnly : Bool) : Text := if typeOnly then "type " else []

structure Import where
  source : Text
  names : List Text
  typeOnly : Bool
deriving DecidableEq, Repr

/-- Importing no names still loads the module. -/
def Import.fragments (i : Import) : List Fragment :=
  if i.names.isEmpty then [.line ("import \"" ++ i.source ++ "\";")]
  else
    [.line ("import " ++ typeOnlyMark i.typeOnly ++ "\x7b " ++ Text.joined ", " i.names ++
      " \x7d from \"" ++ i.source ++ "\";")]

structure Export where
  names : List Text
  typeOnly : Bool
deriving DecidableEq, Repr

def Export.isEmpty (e : Export) : Bool := e.names.isEmpty

def Export.fragments (e : Export) : List Fragment :=
  if e.isEmpty then []
  else
    [.line ("export " ++ typeOnlyMark e.typeOnly ++ "\x7b " ++ Text.joined ", " e.names ++
      " \x7d;")]

structure SourceFile where
  header : List Text
  imports : List Import
  body : List (List Fragment)
  exports : List Export
  names_of_exports : ∀ e ∈ exports, e.isEmpty = false

/-- Elements of a file that belong together; `spaced` ones have a blank line between them. -/
structure Section where
  spaced : Bool
  elements : List (List Fragment)

namespace SourceFile

def empty : SourceFile where
  header := []
  imports := []
  body := []
  exports := []
  names_of_exports := by simp

def addHeader (file : SourceFile) (line : Text) : SourceFile :=
  { file with header := file.header ++ [line] }

def addImport (file : SourceFile) (i : Import) : SourceFile :=
  { file with imports := file.imports ++ [i] }

def add (file : SourceFile) (element : List Fragment) : SourceFile :=
  { file with body := file.body ++ [element] }

def addAll (file : SourceFile) (elements : List (List Fragment)) : SourceFile :=
  { file with body := file.body ++ elements }

def addExport (file : SourceFile) (e : Export) : SourceFile :=
  if h : e.isEmpty = false then
    { file with
      exports := file.exports ++ [e]
      names_of_exports := by
        intro x hx
        rcases List.mem_append.1 hx with hx | hx
        · exact file.names_of_exports x hx
        · rw [List.mem_singleton.1 hx]
          exact h }
  else file

def headerFragments (line : Text) : List Fragment := [.line ("// " ++ line)]

def sections (file : SourceFile) : List Section :=
  [⟨false, file.header.map headerFragments⟩,
    ⟨false, file.imports.map Import.fragments⟩,
    ⟨true, file.body⟩,
    ⟨false, file.exports.map Export.fragments⟩]

def emitElements (spaced : Bool) (b : Builder) : List (List Fragment) → Builder
  | [] => b
  | [e] => b.emit e
  | e :: e' :: es =>
    let next := b.emit e
    emitElements spaced (if spaced then next.pushBlank else next) (e' :: es)

def emitSections (b : Builder) : List Section → Builder
  | [] => b
  | [s] => emitElements s.spaced b s.elements
  | s :: s' :: ss => emitSections (emitElements s.spaced b s.elements).pushBlank (s' :: ss)

def render (indent : Indent) (file : SourceFile) : Text :=
  (emitSections (Builder.start indent)
    (file.sections.filter fun s => !s.elements.isEmpty)).text

end SourceFile
end CollectionTypes.TypeScript
