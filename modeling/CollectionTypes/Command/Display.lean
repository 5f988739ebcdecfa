import CollectionTypes.Command.Run

/-!
# What the program shows

The text that an outcome puts on the standard output and on the standard error output.
-/

namespace CollectionTypes

def commandWords : Text := Text.joined [' '] Request.commandNames

def helpLines : List Text :=
  ["Generate TypeScript types from Fauna collection schemas",
    "",
    "Usage: faunats <COMMAND>",
    "",
    "Commands:",
    "  generate     Generate TypeScript declarations from a collection dump",
    "  check        Validate a collection dump without generating code",
    "  completions  Generate shell completions",
    "  help         Print this message",
    "",
    "Options of generate and check:",
    "  -c, --config <PATH>  Configuration file",
    "  -s, --schema <PATH>  Collection dump to read (.json or .toml)",
    "",
    "Options of generate:",
    "  -o, --output <PATH>  Output directory",
    "      --file <NAME>    Output file name",
    "      --dry-run        Preview generated code without writing to disk"]

/-- The completion of command names in a shell. -/
def Shell.script : Shell → Text
  | bash => "complete -W '".toList ++ commandWords ++ "' faunats"
  | elvish =>
    "set edit:completion:arg-completer[faunats] = \x7b|@words| put ".toList ++ commandWords ++
      " \x7d".toList
  | fish => "complete -c faunats -f -a '".toList ++ commandWords ++ ['\'']
  | powershell =>
    "Register-ArgumentCompleter -Native -CommandName faunats -ScriptBlock \x7b -split '".toList ++
      commandWords ++ "' \x7d".toList
  | zsh => "compdef \"_arguments '1:command:(".toList ++ commandWords ++ ")'\" faunats"

namespace LoadError

/-- What a parser or the system says about an error. -/
def detail? : LoadError → Option Text
  | unreadable _ cause => some cause.message
  | json _ failure => some failure.message
  | toml _ _ (.mismatch m _) => some m.message
  | _ => none

def sourceName? : LoadError → Option Text
  | json source _ => some source.name
  | toml _ source _ => some source.name
  | name source _ => some source.name
  | _ => none

def place? (e : LoadError) : Option Text :=
  e.sourceName?.map fun name =>
    "  in ".toList ++ name ++
      (e.span?.map fun s => ", byte ".toList ++ Text.ofNat s.start).getD [] ++
      (e.label?.map fun l => ": ".toList ++ l).getD []

def lines (e : LoadError) : List Text :=
  ("Error: ".toList ++ e.message) ::
    ((e.detail?.map ("  ".toList ++ ·)).toList ++ e.place?.toList ++
      (e.help?.map ("  help: ".toList ++ ·)).toList)

end LoadError

namespace Outcome

/-- What failed, and below it why. -/
def chainLines : List Text → List Text
  | [] => []
  | first :: causes => ("Error: ".toList ++ first) :: causes.map ("  caused by: ".toList ++ ·)

def display : Outcome → Printed
  | help => { out := Text.ofLines helpLines, err := [] }
  | completions shell => { out := Text.ofLines [shell.script], err := [] }
  | printed p => p
  | diagnostic e => { out := [], err := Text.ofLines e.lines }
  | failed chain => { out := [], err := Text.ofLines (chainLines chain) }
  | usage => { out := [], err := Text.ofLines ["Usage: faunats <COMMAND>"] }

end Outcome
end CollectionTypes
