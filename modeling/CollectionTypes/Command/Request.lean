import CollectionTypes.Text.Basic

/-!
# Requests

What a command line asks for. Arguments are read from left to right: the first that asks for help
or cannot be read decides. Options may be given once, and paths may not be empty. What no option
gives may come from the environment.
-/

namespace CollectionTypes

/-- Where to find the configuration and the schema. -/
structure SourceOptions where
  configuration : Option Text
  schema : Option Text
deriving DecidableEq, Repr

structure GenerateOptions where
  source : SourceOptions
  directory : Option Text
  file : Option Text
  isDryRun : Bool
deriving DecidableEq, Repr

inductive Shell where
  | bash
  | elvish
  | fish
  | powershell
  | zsh
deriving DecidableEq, Repr

namespace Shell

def name : Shell → Text
  | bash => "bash"
  | elvish => "elvish"
  | fish => "fish"
  | powershell => "powershell"
  | zsh => "zsh"

def all : List Shell := [bash, elvish, fish, powershell, zsh]

def ofName? (name : Text) : Option Shell := all.find? (·.name = name)

end Shell

inductive Request where
  | help
  | version
  | completions (shell : Shell)
  | check (options : SourceOptions)
  | generate (options : GenerateOptions)
deriving DecidableEq, Repr

/-- The variables that stand in for options. -/
structure Environment where
  schema : Option Text
  directory : Option Text
  file : Option Text
deriving DecidableEq, Repr

namespace Environment

def schemaName : Text := "FAUNATS_SCHEMA"

def directoryName : Text := "FAUNATS_OUTPUT_DIR"

def fileName : Text := "FAUNATS_OUTPUT_FILE"

end Environment

/-! ### Arguments -/

/-- The form of an argument. -/
inductive Argument where
  | endOfOptions
  | long (name : Text) (value : Option Text)
  | short (letter : Char) (rest : Text)
  | plain (text : Text)
deriving DecidableEq, Repr

namespace Argument

def ofText (t : Text) : Argument :=
  match t with
  | ['-', '-'] => endOfOptions
  | '-' :: '-' :: cs =>
    match Text.cutAt? '=' cs with
    | some (name, value) => long name (some value)
    | none => long cs none
  | '-' :: c :: cs => short c cs
  | _ => plain t

def helpName : Text := "help"

def asksForHelp : Argument → Bool
  | long name none => name = helpName
  | short letter _ => letter = 'h'
  | _ => false

end Argument

/-! ### Options -/

/-- The options that have a value. -/
inductive ValueOption where
  | configuration
  | schema
  | directory
  | file
deriving DecidableEq, Repr

namespace ValueOption

def name : ValueOption → Text
  | configuration => "config"
  | schema => "schema"
  | directory => "output"
  | file => "file"

def letter? : ValueOption → Option Char
  | configuration => some 'c'
  | schema => some 's'
  | directory => some 'o'
  | file => none

/-- Whether a text can be the value: only the name of the file may be empty. -/
def admits (o : ValueOption) (value : Text) : Bool := o = file || !value.isEmpty

end ValueOption

/-- The options given so far. -/
structure GivenOptions where
  values : List (ValueOption × Text)
  isDryRun : Bool
deriving DecidableEq, Repr

namespace GivenOptions

def none : GivenOptions := ⟨[], false⟩

def value? (g : GivenOptions) (o : ValueOption) : Option Text := g.values.lookup o

def give? (g : GivenOptions) (o : ValueOption) (value : Text) : Option GivenOptions :=
  if (g.value? o).isSome ∨ !o.admits value then .none
  else some { g with values := (o, value) :: g.values }

/-- The value of an option, which the environment may hold. -/
def valueOr? (g : GivenOptions) (o : ValueOption) (fallback : Option Text) :
    Option (Option Text) :=
  match g.value? o, fallback with
  | some value, _ => some (some value)
  | .none, some value => if o.admits value then some (some value) else .none
  | .none, .none => some .none

end GivenOptions

/-- The options of a command. -/
structure Usage where
  options : List ValueOption
  hasDryRun : Bool
deriving DecidableEq, Repr

namespace Usage

def check : Usage := ⟨[.configuration, .schema], false⟩

def generate : Usage := ⟨[.configuration, .schema, .directory, .file], true⟩

def dryRunName : Text := "dry-run"

/-- What the arguments of a command ask for. -/
inductive Result where
  | help
  | options (options : GivenOptions)
deriving DecidableEq, Repr

/-- The value that follows the letter of an option in the same argument. -/
def attached (t : Text) : Text :=
  match t with
  | '=' :: cs => cs
  | _ => t

/-- Whether an argument can be the value of the option before it. -/
def isValue (t : Text) : Bool :=
  match t with
  | '-' :: _ :: _ => false
  | _ => true

def read (u : Usage) : (awaiting : Option ValueOption) → GivenOptions → List Text → Option Result
  | some _, _, [] => none
  | some o, given, value :: rest =>
    if isValue value then (given.give? o value).bind fun g => read u none g rest else none
  | none, given, [] => some (.options given)
  | none, given, argument :: rest =>
    match Argument.ofText argument with
    | .endOfOptions => if rest.isEmpty then some (.options given) else none
    | .plain _ => none
    | .short letter value =>
      if letter = 'h' then some .help
      else
        match u.options.find? (·.letter? = some letter) with
        | none => none
        | some o =>
          if value.isEmpty then read u (some o) given rest
          else (given.give? o (attached value)).bind fun g => read u none g rest
    | .long name value =>
      match u.options.find? (·.name = name) with
      | some o =>
        match value with
        | none => read u (some o) given rest
        | some value => (given.give? o value).bind fun g => read u none g rest
      | none =>
        if value.isSome then none
        else if name = Argument.helpName then some .help
        else if name = dryRunName ∧ u.hasDryRun ∧ !given.isDryRun then
          read u none { given with isDryRun := true } rest
        else none

end Usage

namespace Request

def sourceOptions? (environment : Environment) (given : GivenOptions) : Option SourceOptions := do
  let schema ← given.valueOr? .schema environment.schema
  some { configuration := given.value? .configuration, schema }

def check? (environment : Environment) (arguments : List Text) : Option Request := do
  match ← Usage.check.read none .none arguments with
  | .help => some help
  | .options given => some (check (← sourceOptions? environment given))

def generate? (environment : Environment) (arguments : List Text) : Option Request := do
  match ← Usage.generate.read none .none arguments with
  | .help => some help
  | .options given =>
    let source ← sourceOptions? environment given
    let directory ← given.valueOr? .directory environment.directory
    let file ← given.valueOr? .file environment.file
    some (generate { source, directory, file, isDryRun := given.isDryRun })

/-- The name of one shell, and no options. -/
def completions? : (shell : Option Shell) → (arguments : List Text) → Option Request
  | none, [] => none
  | some s, [] => some (completions s)
  | shell, text :: rest =>
    match Argument.ofText text with
    | .endOfOptions =>
      match shell, rest with
      | some s, [] => some (completions s)
      | none, [name] => (Shell.ofName? name).map completions
      | _, _ => none
    | .plain name =>
      if shell.isSome then none
      else (Shell.ofName? name).bind fun s => completions? (some s) rest
    | argument => if argument.asksForHelp then some help else none

def checkName : Text := "check"

def generateName : Text := "generate"

def completionsName : Text := "completions"

def versionName : Text := "version"

def commandNames : List Text := [generateName, checkName, completionsName, Argument.helpName]

/-- What a command line asks for, if it can be read. -/
def ofArguments? (environment : Environment) : (arguments : List Text) → Option Request
  | [] => none
  | text :: rest =>
    match Argument.ofText text with
    | .endOfOptions => none
    | .long name value =>
      if value.isSome then none
      else if name = Argument.helpName then some help
      else if name = versionName then some version
      else none
    | .short letter _ =>
      if letter = 'h' then some help else if letter = 'V' then some version else none
    | .plain name =>
      if name = checkName then check? environment rest
      else if name = generateName then generate? environment rest
      else if name = completionsName then completions? none rest
      else if name = Argument.helpName ∧ rest.length ≤ 1 ∧ rest.all (· ∈ commandNames) then
        some help
      else none

end Request
end CollectionTypes
