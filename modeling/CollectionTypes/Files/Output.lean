import CollectionTypes.Files.System

/-!
# Writing a file

A file that already has the content to be written is left alone. Otherwise the directories that
lead to it are made, and it is written.
-/

namespace CollectionTypes

structure OutputFile where
  path : Text
  content : Text
deriving DecidableEq, Repr

inductive WriteResult where
  | written
  | unchanged
deriving DecidableEq, Repr

inductive WriteError where
  | directory (path : Text) (cause : FileError)
  | file (path : Text) (cause : FileError)
deriving DecidableEq, Repr

namespace WriteError

/-- What failed, and why. -/
def chain : WriteError → List Text
  | directory path cause => ["failed to create directory '" ++ path ++ ['\''], cause.message]
  | file path cause => ["failed to write '" ++ path ++ ['\''], cause.message]

end WriteError

namespace OutputFile

variable {m : Type → Type} [Monad m] [FileSystem m]

/-- Makes the directory that a file is in. -/
def makeParent (f : OutputFile) : m (Except WriteError Unit) := do
  match Pathname.parent? f.path with
  | none => return .ok ()
  | some parent => return (← FileSystem.makeDirectories parent).mapError (.directory parent)

def replace (f : OutputFile) : m (Except WriteError WriteResult) := do
  match ← f.makeParent with
  | .error e => return .error e
  | .ok () =>
    match ← FileSystem.writeText f.path f.content with
    | .error e => return .error (.file f.path e)
    | .ok () => return .ok .written

def write (f : OutputFile) : m (Except WriteError WriteResult) := do
  match ← FileSystem.readText f.path with
  | .ok text => if text = f.content then return .ok .unchanged else f.replace
  | .error _ => f.replace

end OutputFile
end CollectionTypes
