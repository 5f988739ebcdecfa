import CollectionTypes.Configuration
import CollectionTypes.Dump.Error
import CollectionTypes.Dump.Json
import CollectionTypes.Dump.Toml
import CollectionTypes.Files.System

/-!
# Loading dumps and configurations

A dump is read in the format that its file extension names, and its collection names are checked. A
configuration that need not be there is the standard one where it is not.
-/

namespace CollectionTypes

inductive DumpFormat where
  | json
  | toml
deriving DecidableEq, Repr

namespace DumpFormat

def extension : DumpFormat → Text
  | json => "json"
  | toml => "toml"

def ofPath (path : Text) : Except LoadError DumpFormat :=
  let e := Pathname.extension path
  if e = json.extension then .ok json
  else if e = toml.extension then .ok toml
  else .error (.unsupportedFormat path e)

/-- The collections that a dump describes. Their names are not looked at. -/
def describedBy (format : DumpFormat) (source : Source) : Except LoadError (List Collection) :=
  match format with
  | json => (Json.collectionsOf source.text).mapError (.json source)
  | toml => (Toml.collectionsOf source.text).mapError (.toml .schema source)

end DumpFormat

namespace Collection

/-- Checks the names of collections that come from `source`. -/
def validated (source : Source) (collections : List Collection) :
    Except LoadError (List Collection) :=
  match NameFault.first? collections with
  | some fault => .error (.name source fault)
  | none => .ok collections

/-- The collections of a dump. -/
def ofDump (format : DumpFormat) (source : Source) : Except LoadError (List Collection) :=
  match format.describedBy source with
  | .error e => .error e
  | .ok collections => validated source collections

end Collection

def Configuration.ofSource (source : Source) : Except LoadError Configuration :=
  (Configuration.ofText source.text).mapError (.toml .configuration source)

section Files

variable {m : Type → Type} [Monad m] [FileSystem m]

def readSource (path : Text) : m (Except LoadError Source) := do
  match ← FileSystem.readText path with
  | .error e => return .error (.unreadable path e)
  | .ok text => return .ok ⟨path, text⟩

def Collection.load (path : Text) : m (Except LoadError (List Collection)) := do
  match DumpFormat.ofPath path with
  | .error e => return .error e
  | .ok format =>
    match ← readSource path with
    | .error e => return .error e
    | .ok source => return Collection.ofDump format source

def Configuration.open (path : Text) : m (Except LoadError Configuration) := do
  match ← readSource path with
  | .error e => return .error e
  | .ok source => return Configuration.ofSource source

def Configuration.load (path : Text) (required : Bool) : m (Except LoadError Configuration) := do
  if required then Configuration.open path
  else if ← FileSystem.isPresent path then Configuration.open path
  else return .ok .standard

end Files
end CollectionTypes
