import CollectionTypes.Layout.Fragment

/-!
# Code builder

A builder appends lines to a text at its current level. Dedenting at level zero has no effect.
Applying a fragment walks it: a block raises the level for its body and lowers it again.
-/

namespace CollectionTypes

structure Builder where
  indent : Indent
  level : Nat
  text : Text
deriving DecidableEq, Repr

namespace Builder

def start (indent : Indent) : Builder := { indent, level := 0, text := [] }

def append (b : Builder) (t : Text) : Builder := { b with text := b.text ++ t }

def pushLine (b : Builder) (t : Text) : Builder :=
  b.append (b.indent.lead b.level ++ t ++ ['\n'])

def pushBlank (b : Builder) : Builder := b.append ['\n']

def pushDoc (b : Builder) (t : Text) : Builder := b.pushLine (Fragment.docComment t)

def pushIndent (b : Builder) : Builder := { b with level := b.level + 1 }

def pushDedent (b : Builder) : Builder := { b with level := b.level - 1 }

mutual

def apply (b : Builder) : Fragment → Builder
  | .line t => b.pushLine t
  | .blank => b.pushBlank
  | .doc t => b.pushDoc t
  | .block header body close =>
    let closed := (emit (b.pushLine header).pushIndent body).pushDedent
    match close with
    | some t => closed.pushLine t
    | none => closed

/-- Applies fragments one after another. -/
def emit (b : Builder) : List Fragment → Builder
  | [] => b
  | f :: fs => emit (apply b f) fs

end

end Builder

/-- Fragments as text at level zero with standard indentation. -/
def Fragment.textOf (fragments : List Fragment) : Text :=
  ((Builder.start Indent.standard).emit fragments).text

end CollectionTypes
