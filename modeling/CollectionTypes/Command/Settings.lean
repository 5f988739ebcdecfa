import CollectionTypes.Command.Request
import CollectionTypes.Dump.Load

/-!
# Settings

Options take the place of configured values. Configured paths are seen from the directory of the
configuration file, and paths in options are taken as they are.
-/

namespace CollectionTypes

namespace Configuration

/-- The configuration with its paths seen from the directory of its own file. -/
def seenFrom (c : Configuration) (path : Text) : Configuration :=
  let base := (Pathname.parent? path).getD []
  { schemaPath := c.schemaPath.map (Pathname.join base)
    output := { c.output with directory := Pathname.join base c.output.directory } }

/-- The configuration where options give some of its values. -/
def overridden (c : Configuration) (source : SourceOptions) (directory file : Option Text) :
    Configuration where
  schemaPath := source.schema.or c.schemaPath
  output :=
    { c.output with
      directory := directory.getD c.output.directory
      file := file.getD c.output.file }

end Configuration

namespace SourceOptions

/-- The file that holds the configuration. -/
def configurationPath (o : SourceOptions) : Text := o.configuration.getD Configuration.fileName

variable {m : Type → Type} [Monad m] [FileSystem m]

/-- The configuration as its paths are seen from here. Its file must be there if it was asked
for. -/
def loadConfiguration (o : SourceOptions) : m (Except LoadError Configuration) := do
  let path := o.configurationPath
  return (← Configuration.load path o.configuration.isSome).map (·.seenFrom path)

end SourceOptions
end CollectionTypes
