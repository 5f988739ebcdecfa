import CollectionTypes.Decode.Toml
import CollectionTypes.Document
import CollectionTypes.Files.Pathname

/-!
# Configuration

The configuration names the schema and says where the generated file goes. Every setting is
optional, and settings that do not exist are refused. A group of settings is a table, or a list of
its settings in order.
-/

namespace CollectionTypes

structure Configuration where
  schemaPath : Option Text
  output : OutputSettings
deriving DecidableEq, Repr

namespace Configuration

/-- The usual name of a configuration file. -/
def fileName : Text := "faunats.toml"

def standard : Configuration := ⟨none, .standard⟩

/-- The path of the generated file. -/
def target (c : Configuration) : Text := Pathname.join c.output.directory c.output.file

end Configuration

open Toml

/-! ### Reading -/

namespace SchemaSettings

def pathKey : Text := "path"

def keys : List Text := [pathKey]

def take (_ : Option Text) : Key × Extent × Value → Decoded (Option Text)
  | (key, extent, value) =>
    if key.name = pathKey then (value.text .path extent).map some
    else misfit (.unknownField key.name keys) key.extent

/-- The path of the schema. -/
def ofToml (extent : Extent) (value : Value) : Decoded (Option Text) :=
  match value.elements? with
  | some elements => elements.head?.mapM fun (e, v) => v.text .path e
  | none =>
    match value.members? extent with
    | some members => members.foldlM take none
    | none => .error (value.misfit .schemaTable extent)

end SchemaSettings

namespace OutputSettings

def directoryKey : Text := "dir"

def fileKey : Text := "file"

def mappingInterfaceKey : Text := "mapping_interface"

def keys : List Text := [directoryKey, fileKey, mappingInterfaceKey]

def take (settings : OutputSettings) : Key × Extent × Value → Decoded OutputSettings
  | (key, extent, value) =>
    if key.name = directoryKey then
      (value.text .path extent).map fun s => { settings with directory := s }
    else if key.name = fileKey then
      (value.text .string extent).map fun s => { settings with file := s }
    else if key.name = mappingInterfaceKey then
      (value.text .string extent).map fun s => { settings with mappingInterface := s }
    else misfit (.unknownField key.name keys) key.extent

/-- Elements of a list are settings in their usual order, and further ones have no meaning. -/
def ofElements (elements : List (Extent × Value)) : Decoded OutputSettings := do
  let setting := fun (i : Nat) (wanted : Wanted) (default : Text) =>
    match elements[i]? with
    | some (e, v) => v.text wanted e
    | none => Except.ok default
  .ok { directory := ← setting 0 .path standard.directory
        file := ← setting 1 .string standard.file
        mappingInterface := ← setting 2 .string standard.mappingInterface }

def ofToml (extent : Extent) (value : Value) : Decoded OutputSettings :=
  match value.elements? with
  | some elements => ofElements elements
  | none =>
    match value.members? extent with
    | some members => members.foldlM take standard
    | none => .error (value.misfit .outputTable extent)

end OutputSettings

namespace Configuration

def schemaKey : Text := "schema"

def outputKey : Text := "output"

def keys : List Text := [schemaKey, outputKey]

def take (c : Configuration) : Key × Extent × Value → Decoded Configuration
  | (key, extent, value) =>
    if key.name = schemaKey then
      (SchemaSettings.ofToml extent value).map fun path => { c with schemaPath := path }
    else if key.name = outputKey then
      (OutputSettings.ofToml extent value).map fun output => { c with output }
    else misfit (.unknownField key.name keys) key.extent

def ofTable (t : Table) : Decoded Configuration := t.entries.foldlM take standard

def ofText (source : Text) : Except Failure Configuration := decodeTable ofTable source

end Configuration
end CollectionTypes
