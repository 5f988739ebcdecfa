import CollectionTypes.Command.Listing
import CollectionTypes.Command.Settings
import CollectionTypes.Files.Output

/-!
# Running requests

Both commands load the configuration and the collections it leads to. `check` describes the
collections; `generate` writes the document made from them, or shows it in a dry run.
-/

namespace CollectionTypes

/-- Text for the standard output and for the standard error output. -/
structure Printed where
  out : Text
  err : Text
deriving DecidableEq, Repr

inductive Outcome where
  | help
  | completions (shell : Shell)
  | printed (printed : Printed)
  /-- Something could not be loaded. -/
  | diagnostic (error : LoadError)
  /-- What failed, and why. -/
  | failed (chain : List Text)
  | usage
deriving DecidableEq, Repr

namespace Outcome

/-- The exit status of the program. -/
def status : Outcome → Nat
  | help => 0
  | completions _ => 0
  | printed _ => 0
  | diagnostic _ => 1
  | failed _ => 1
  | usage => 2

end Outcome

/-- The result of writing the document of some collections: the file, the collections with
declarations in it, and those without. -/
structure Generation where
  path : Text
  result : WriteResult
  generated : List Text
  skipped : List Text
deriving DecidableEq, Repr

namespace Generation

/-- The file of the document. -/
def file (collections : List Collection) (directory : Text) (output : OutputSettings) :
    OutputFile where
  path := Pathname.join directory output.file
  content := generatedText collections output

variable {m : Type → Type} [Monad m] [FileSystem m]

/-- Writes the document of some collections into a directory. -/
def write (collections : List Collection) (directory : Text) (output : OutputSettings) :
    m (Except WriteError Generation) := do
  let f := file collections directory output
  let generated := (Document.ofCollections collections output.mappingInterface).generated
  return (← f.write).map fun result =>
    { path := f.path, result, generated, skipped := Collection.skipped collections }

/-- What is said about a document that was written. -/
def report (g : Generation) (collections : List Collection) : List Text :=
  ("Collections (".toList ++ Text.ofNat g.generated.length ++ "):") ::
    (Collection.listed collections).map (fun c => "  " ++ c.description) ++
    (if g.skipped.isEmpty then []
      else [] :: "Skipped (no fields defined):".toList :: g.skipped.map ("  - ".toList ++ ·)) ++
    [[],
      match g.result with
      | .written => "Generated: ".toList ++ g.path
      | .unchanged => "Up to date: ".toList ++ g.path]

end Generation

namespace Outcome

/-- What a dry run shows: the document, and where it would go. -/
def dryRun (collections : List Collection) (output : OutputSettings) (target : Text) : Outcome :=
  .printed
    { out := Text.ofLines
        ["── ".toList ++ output.file ++ " ──", generatedText collections output,
          "── Summary ──", "Would write: ".toList ++ target]
      err := [] }

def checked (path : Text) (collections : List Collection) : Outcome :=
  let warnings := (Collection.skipped collections).map Collection.warning
  .printed
    { out := Text.ofLines
        ((if warnings.isEmpty then [] else [[]]) ++
          ("✓ ".toList ++ path ++ " is valid") :: [] ::
            (Collection.summary collections).map ("  ".toList ++ ·))
      err := Text.ofLines warnings }

def generated (g : Generation) (collections : List Collection) : Outcome :=
  .printed { out := Text.ofLines (g.report collections), err := [] }

def schemaMissing : Outcome :=
  .failed ["no schema given; pass --schema or set [schema].path in faunats.toml"]

def notWritten (e : WriteError) : Outcome :=
  .failed ("Failed to generate TypeScript declarations".toList :: e.chain)

def versionText : Text := "faunats 0.1.0"

def version : Outcome := .printed { out := Text.ofLines [versionText], err := [] }

end Outcome

section Running

variable {m : Type → Type} [Monad m] [FileSystem m]

/-- Loads the collections of the configured schema and goes on with its path and with them. -/
def withCollections (c : Configuration) (next : Text → List Collection → m Outcome) :
    m Outcome := do
  match c.schemaPath with
  | none => return .schemaMissing
  | some path =>
    match ← Collection.load path with
    | .error e => return .diagnostic e
    | .ok collections => next path collections

def SourceOptions.check (o : SourceOptions) : m Outcome := do
  match ← o.loadConfiguration with
  | .error e => return .diagnostic e
  | .ok c =>
    withCollections (c.overridden o none none) fun path collections =>
      return .checked path collections

def GenerateOptions.run (o : GenerateOptions) : m Outcome := do
  match ← o.source.loadConfiguration with
  | .error e => return .diagnostic e
  | .ok c =>
    let c := c.overridden o.source o.directory o.file
    withCollections c fun _ collections => do
      if o.isDryRun then return .dryRun collections c.output c.target
      match ← Generation.write collections c.output.directory c.output with
      | .error e => return .notWritten e
      | .ok g => return .generated g collections

def Request.run : Request → m Outcome
  | help => return .help
  | version => return .version
  | completions shell => return .completions shell
  | check options => options.check
  | generate options => options.run

/-- Runs the program with these arguments. -/
def runArguments (environment : Environment) (arguments : List Text) : m Outcome := do
  match Request.ofArguments? environment arguments with
  | none => return .usage
  | some request => request.run

end Running
end CollectionTypes
