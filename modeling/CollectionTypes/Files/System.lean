import CollectionTypes.Files.Error
import CollectionTypes.Files.Pathname

/-!
# File systems

The operations on files that the program needs. They are few, so that the program can be run on the
files of a machine as well as on a tree in memory, about which theorems are stated. Making a
directory with all that lead to it is a program on these operations.
-/

namespace CollectionTypes

class FileSystem (m : Type → Type) where
  readText (path : Text) : m (Except FileError Text)
  isPresent (path : Text) : m Bool
  isDirectory (path : Text) : m Bool
  makeDirectory (path : Text) : m (Except FileError Unit)
  /-- Makes `text` the content of a file, which need not be there before. -/
  writeText (path text : Text) : m (Except FileError Unit)

namespace FileSystem

variable {m : Type → Type} [Monad m] [FileSystem m]

/-- The result of making a directory, which does not fail where there is one already. -/
def orPresent (path : Text) (result : Except FileError Unit) : m (Except FileError Unit) := do
  match result with
  | .ok () => return .ok ()
  | .error e => if ← isDirectory path then return .ok () else return .error e

/-- Makes the first of some directories, each of which is the parent of the one before it. The
parents are made only where the first cannot be made without them. -/
def makeFirst : List Text → m (Except FileError Unit)
  | [] => return .ok ()
  | path :: parents => do
    if path.isEmpty then return .ok ()
    match ← makeDirectory path with
    | .error .notFound =>
      match ← makeFirst parents with
      | .error e => return .error e
      | .ok () => orPresent path (← makeDirectory path)
    | result => orPresent path result

/-- Makes a directory and those that lead to it. -/
def makeDirectories (path : Text) : m (Except FileError Unit) := makeFirst (Pathname.ancestors path)

end FileSystem
end CollectionTypes
