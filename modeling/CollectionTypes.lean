import CollectionTypes.Text.Basic
import CollectionTypes.Text.Bytes
import CollectionTypes.Text.Name
import CollectionTypes.Text.Unprintable
import CollectionTypes.Text.Shown
import CollectionTypes.Dictionary
import CollectionTypes.Decimal.Shortest
import CollectionTypes.Decimal.Float
import CollectionTypes.Driver
import CollectionTypes.Signature.Scalar
import CollectionTypes.Signature.Basic
import CollectionTypes.Signature.Nesting
import CollectionTypes.Signature.Form
import CollectionTypes.Signature.Read
import CollectionTypes.Layout.Indent
import CollectionTypes.Layout.Fragment
import CollectionTypes.Layout.Builder
import CollectionTypes.TypeScript.Declaration
import CollectionTypes.TypeScript.SourceFile
import CollectionTypes.Collection.Basic
import CollectionTypes.Collection.Declarations
import CollectionTypes.Collection.Validity
import CollectionTypes.Document
import CollectionTypes.Decode.Mismatch
import CollectionTypes.Json.Failure
import CollectionTypes.Json.Literal
import CollectionTypes.Json.Number
import CollectionTypes.Json.String
import CollectionTypes.Json.Skip
import CollectionTypes.Json.Value
import CollectionTypes.Toml.Defect
import CollectionTypes.Toml.Value
import CollectionTypes.Toml.String
import CollectionTypes.Toml.Datetime
import CollectionTypes.Toml.Lexeme
import CollectionTypes.Toml.Scalar
import CollectionTypes.Toml.Key
import CollectionTypes.Toml.Written
import CollectionTypes.Toml.Table
import CollectionTypes.Toml.Document
import CollectionTypes.Decode.Toml
import CollectionTypes.Files.Error
import CollectionTypes.Files.Pathname
import CollectionTypes.Files.System
import CollectionTypes.Files.Tree
import CollectionTypes.Files.Output
import CollectionTypes.Configuration
import CollectionTypes.Dump.Error
import CollectionTypes.Dump.Json
import CollectionTypes.Dump.Toml
import CollectionTypes.Dump.Load
import CollectionTypes.Command.Request
import CollectionTypes.Command.Settings
import CollectionTypes.Command.Listing
import CollectionTypes.Command.Run
import CollectionTypes.Command.Display
import CollectionTypes.Main
import CollectionTypes.Proofs.Trimming
import CollectionTypes.Proofs.Nesting
import CollectionTypes.Proofs.Reading
import CollectionTypes.Proofs.Language
import CollectionTypes.Proofs.LanguageReading
import CollectionTypes.Proofs.ValidNames
import CollectionTypes.Proofs.BoundNames
import CollectionTypes.Proofs.JsonGrammar
import CollectionTypes.Proofs.JsonNumbers
import CollectionTypes.Proofs.JsonStrings
import CollectionTypes.Proofs.JsonSkipping
import CollectionTypes.Proofs.JsonValues
import CollectionTypes.Proofs.JsonDump
import CollectionTypes.Proofs.JsonDefinitions
import CollectionTypes.Proofs.JsonCollections
import CollectionTypes.Proofs.JsonLoading
import CollectionTypes.Proofs.Joining
import CollectionTypes.Proofs.Origin
import CollectionTypes.Proofs.Segments
import CollectionTypes.Proofs.DocumentLines
import CollectionTypes.Proofs.LineBreaks
import CollectionTypes.Proofs.Ancestors
import CollectionTypes.Proofs.TreeGrowth
import CollectionTypes.Proofs.TreeWriting
import CollectionTypes.Proofs.Loading
import CollectionTypes.Proofs.GenerateRuns
import CollectionTypes.Proofs.TomlGrammar
import CollectionTypes.Proofs.TomlStrings
import CollectionTypes.Proofs.TomlLines
import CollectionTypes.Proofs.TomlTables
import CollectionTypes.Proofs.TomlLoading
import CollectionTypes.Proofs.TypeExpressions
import CollectionTypes.Proofs.TypeReadings
import CollectionTypes.Proofs.TypeValues
import CollectionTypes.Proofs.Occurrences
import CollectionTypes.Proofs.JsonPlaces
import CollectionTypes.Proofs.NameChecks
import CollectionTypes.Proofs.NamePlaces
import CollectionTypes.Proofs.DocumentNames
import CollectionTypes.Proofs.ComputedFields
import CollectionTypes.Proofs.Markers
import CollectionTypes.Proofs.FieldTypes
import CollectionTypes.Proofs.PropertyMarkers
import CollectionTypes.Proofs.ExportNames
import CollectionTypes.Proofs.Depth
import CollectionTypes.Proofs.Composition
import CollectionTypes.Proofs.LeftoverMarkers
import CollectionTypes.Proofs.JsonMarks
import CollectionTypes.Proofs.PropertyNames
import CollectionTypes.Proofs.BuilderRuns
import CollectionTypes.Proofs.FileSections
import CollectionTypes.Proofs.FileWriting
import CollectionTypes.Proofs.Division
import CollectionTypes.Proofs.DefinitionSteps
import CollectionTypes.Proofs.TreeShape
import CollectionTypes.Proofs.WrittenSettings
import CollectionTypes.Proofs.EffectiveSettings
import CollectionTypes.Proofs.Precedence
