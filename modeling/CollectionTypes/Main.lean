import CollectionTypes.Command.Display

/-!
# The program

The command line on the files of the machine.
-/

namespace CollectionTypes.Machine

def fileError : IO.Error → FileError
  | .noFileOrDirectory _ _ _ => .notFound
  | .alreadyExists _ _ _ => .alreadyExists
  | .inappropriateType _ code _ => if code = 21 then .isDirectory else .notDirectory
  | e => .other (toString e).toList

def attempt {α : Type} (action : IO α) : IO (Except FileError α) := do
  match ← action.toBaseIO with
  | .ok a => return .ok a
  | .error e => return .error (fileError e)

def readBytes (path : Text) : IO (Except FileError ByteArray) :=
  attempt (IO.FS.readBinFile (String.ofList path))

/-- Whether a directory is at the path: it is there, and it cannot be read as a file. -/
def isDirectory (path : Text) : IO Bool := do
  match ← readBytes path with
  | .error .isDirectory => return true
  | _ => return false

def isPresent (path : Text) : IO Bool := do
  match ← attempt (IO.FS.Handle.mk (String.ofList path) .read) with
  | .error .notFound => return false
  | .error .notDirectory => return false
  | _ => return true

instance : FileSystem IO where
  readText path := do
    match ← readBytes path with
    | .error e => return .error e
    | .ok bytes =>
      match String.fromUTF8? bytes with
      | some s => return .ok s.toList
      | none => return .error .notText
  isPresent := isPresent
  isDirectory := isDirectory
  makeDirectory path := attempt (IO.FS.createDir (String.ofList path))
  writeText path text := attempt (IO.FS.writeFile (String.ofList path) (String.ofList text))

def environment : IO Environment := do
  let lookup := fun (name : Text) => do
    return (← IO.getEnv (String.ofList name)).map String.toList
  return { schema := ← lookup Environment.schemaName
           directory := ← lookup Environment.directoryName
           file := ← lookup Environment.fileName }

end CollectionTypes.Machine

open CollectionTypes in
def main (arguments : List String) : IO UInt32 := do
  let outcome ← runArguments (← Machine.environment) (arguments.map String.toList)
  let printed := outcome.display
  IO.print (String.ofList printed.out)
  IO.eprint (String.ofList printed.err)
  return outcome.status.toUInt32
