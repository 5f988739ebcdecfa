import CollectionTypes.Collection.Validity
import CollectionTypes.Decode.Toml
import CollectionTypes.Files.Error
import CollectionTypes.Json.Failure

/-!
# Why a document is not loaded

A file cannot be read, its format is unknown, its text cannot be understood, or the names in it are
not valid. An error has a message and, depending on its kind, a code, a hint, and a labelled place
in the source.
-/

namespace CollectionTypes

/-- A text and the name under which messages refer to it. -/
structure Source where
  name : Text
  text : Text
deriving DecidableEq, Repr

/-- The documents that may be written in TOML. -/
inductive TomlDocument where
  | schema
  | configuration
deriving DecidableEq, Repr

def TomlDocument.title : TomlDocument → Text
  | schema => "schema TOML"
  | configuration => "faunats.toml"

inductive LoadError where
  | unreadable (path : Text) (cause : FileError)
  | unsupportedFormat (path extension : Text)
  | json (source : Source) (failure : Json.Failure)
  | toml (document : TomlDocument) (source : Source) (failure : Toml.Failure)
  | name (source : Source) (fault : NameFault)
deriving DecidableEq, Repr

namespace LoadError

def inQuotes (t : Text) : Text := '\'' :: t ++ ['\'']

def message : LoadError → Text
  | unreadable path _ => "failed to read " ++ inQuotes path
  | unsupportedFormat _ extension => "unsupported schema format " ++ inQuotes extension
  | json _ _ => "failed to parse schema JSON"
  | toml document _ _ => "failed to parse " ++ document.title
  | name _ (.duplicate n _) => "duplicate collection " ++ inQuotes n
  | name _ (.invalid n _) => "invalid collection name " ++ inQuotes n

def code? : LoadError → Option Text
  | unreadable _ _ => none
  | unsupportedFormat _ _ => some "faunats::unsupported_format"
  | json _ _ => some "faunats::json_error"
  | toml _ _ _ => some "faunats::toml_error"
  | name _ (.duplicate _ _) => some "faunats::duplicate_collection"
  | name _ (.invalid _ _) => some "faunats::invalid_collection_name"

def help? : LoadError → Option Text
  | unreadable _ _ =>
    some "check the path given by --schema or the [schema] table of faunats.toml"
  | unsupportedFormat _ _ => some "schema files must end in .json or .toml"
  | json _ _ => none
  | toml _ _ _ => none
  | name _ (.duplicate _ _) => some "each collection may only appear once in a schema dump"
  | name _ (.invalid _ defect) =>
    some (defect.reason ++ ". Collection names become TypeScript type names.".toList)

/-- The place in the source that an error is about. Where a defective TOML text goes wrong is not
told. -/
def span? : LoadError → Option Span
  | json source failure => some ⟨Json.Position.mark source.text failure.position, 0⟩
  | toml _ _ (.mismatch _ span) => some span
  | name source fault => fault.span? source.text
  | _ => none

/-- Whether an error is about a place in the source. -/
def isPlaced : LoadError → Bool
  | toml _ _ (.defect d) => d.isPlaced
  | e => e.span?.isSome

/-- What is said at the place of an error, if it has one. -/
def label? (e : LoadError) : Option Text :=
  if e.isPlaced then
    match e with
    | json _ _ => some "parse error here"
    | toml _ _ _ => some "parse error here"
    | name _ (.duplicate _ _) => some "defined again here"
    | name _ (.invalid _ _) => some "invalid name"
    | _ => none
  else none

end LoadError
end CollectionTypes
