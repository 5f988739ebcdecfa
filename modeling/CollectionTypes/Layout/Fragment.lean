import CollectionTypes.Layout.Indent

/-!
# Code fragments

A fragment is a line, a blank line, a documentation comment, or a block whose body is one level
deeper than its header and its closing line. `lines` flattens fragments to lines with their levels,
and `render` writes them; indentation is not written in front of a blank line.
-/

namespace CollectionTypes

inductive Fragment where
  | line (text : Text)
  | blank
  | block (header : Text) (body : List Fragment) (close : Option Text)
  | doc (text : Text)

/-- A line of code at a level, or a blank line. -/
inductive Line where
  | code (level : Nat) (text : Text)
  | blank
deriving DecidableEq, Repr

namespace Line

def render (indent : Indent) : Line → Text
  | code level text => indent.lead level ++ text ++ ['\n']
  | blank => ['\n']

def renderAll (indent : Indent) (lines : List Line) : Text := lines.flatMap (render indent)

end Line

namespace Fragment

def docOpening : Text := "/** "

def docClosing : Text := " */"

/-- A documentation comment with this text. -/
def docComment (text : Text) : Text := docOpening ++ text ++ docClosing

mutual

def lines (level : Nat) : Fragment → List Line
  | .line text => [.code level text]
  | .blank => [.blank]
  | .doc text => [.code level ("/** " ++ text ++ " */")]
  | .block header body close =>
    .code level header ::
      (linesOfAll (level + 1) body ++ (close.map (Line.code level)).toList)

def linesOfAll (level : Nat) : List Fragment → List Line
  | [] => []
  | f :: fs => lines level f ++ linesOfAll level fs

end

end Fragment
end CollectionTypes
