import CollectionTypes.Text.Bytes

/-!
# Tables and values

A table remembers how it came about, because that decides how it may be extended later: by a
header, as the parent of a header or of a dotted key, or in line. Keys and values carry their
extent in the source.
-/

namespace CollectionTypes.Toml

/-- A piece of a source, by the number of characters left at its start and after its end. -/
structure Extent where
  start : Nat
  stop : Nat
deriving DecidableEq, Repr

namespace Extent

/-- The piece of `t` that is left out in `rest`. -/
def between (t rest : Text) : Extent := ⟨t.length, rest.length⟩

def span (source : Text) (e : Extent) : Span where
  start := Text.byteLength (source.take (source.length - e.start))
  length := Text.byteLength ((source.drop (source.length - e.start)).take (e.start - e.stop))

end Extent

structure Key where
  name : Text
  extent : Extent
deriving DecidableEq, Repr

inductive TableKind where
  /-- Defined by a header, or the whole document. -/
  | header
  /-- Only mentioned on the way to a header. -/
  | implied
  /-- Created by a dotted key. -/
  | dotted
  | inline
deriving DecidableEq, Repr

inductive Value where
  | string (value : Text)
  /-- A numeral with something else among its digits, or without digits, has no value. -/
  | integer (value : Option Int)
  /-- A number beyond the range of doubles has no value. -/
  | float (value : Option Float)
  | boolean (value : Bool)
  | datetime (text : Text)
  | array (elements : List (Extent × Value))
  | arrayOfTables (elements : List (Extent × Value))
  | table (kind : TableKind) (entries : List (Key × Extent × Value))

structure Table where
  kind : TableKind
  entries : List (Key × Extent × Value)

namespace Table

def empty (kind : TableKind) : Table := ⟨kind, []⟩

def get? (t : Table) (name : Text) : Option (Extent × Value) :=
  (t.entries.find? fun e => e.1.name = name).map Prod.snd

/-- The table with another value under a name that it has. -/
def replace (t : Table) (name : Text) (value : Value) : Table :=
  { t with
    entries := t.entries.map fun e => if e.1.name = name then (e.1, e.2.1, value) else e }

def add (t : Table) (key : Key) (extent : Extent) (value : Value) : Table :=
  { t with entries := t.entries ++ [(key, extent, value)] }

def remove (t : Table) (name : Text) : Table :=
  { t with entries := t.entries.filter fun e => e.1.name ≠ name }

end Table
end CollectionTypes.Toml
