import CollectionTypes.Proofs.GenerateRuns
import CollectionTypes.Proofs.WrittenSettings

/-!
# Effective settings

Each setting of a run is the option, or else what the configuration says, with paths seen from the
directory of the configuration file. A run does what these settings say and knows nothing else of
options and configuration.
-/

namespace CollectionTypes

open FileTree

/-- The configuration `c` is what a tree gives where the options look for one. -/
def SourceOptions.Loads (o : SourceOptions) (t : FileTree) (c : Configuration) : Prop :=
  Configuration.loadedFrom o.configurationPath o.configuration.isSome t = .ok c

/-- A path that is written in a file at `location`, as it is seen from here. -/
def placed (location path : Text) : Text :=
  Pathname.join ((Pathname.parent? location).getD []) path

theorem placed_of_isAbsolute {location path : Text} (h : Pathname.isAbsolute path = true) :
    placed location path = path :=
  Pathname.join_of_isAbsolute h

/-- What a run goes by. -/
structure EffectiveSettings where
  schema : Option Text
  directory : Text
  file : Text
  mappingInterface : Text

namespace EffectiveSettings

/-- Where the document goes. -/
def target (e : EffectiveSettings) : Text := Pathname.join e.directory e.file

def output (e : EffectiveSettings) : OutputSettings := ⟨e.directory, e.file, e.mappingInterface⟩

/-- The schema and what it describes, or what is said instead. -/
def reading (e : EffectiveSettings) (t : FileTree) : Except Outcome (Text × List Collection) :=
  match e.schema with
  | none => .error .schemaMissing
  | some path =>
    match Collection.ofReading path (t.readText path) with
    | .error cause => .error (.diagnostic cause)
    | .ok collections => .ok (path, collections)

def checkOn (e : EffectiveSettings) (t : FileTree) : Outcome × FileTree :=
  match e.reading t with
  | .error outcome => (outcome, t)
  | .ok (path, collections) => (.checked path collections, t)

/-- The document of these collections, where it goes. -/
def document (e : EffectiveSettings) (collections : List Collection) : OutputFile :=
  ⟨e.target, generatedText collections e.output⟩

/-- What is said about the document once it is written. -/
def generation (e : EffectiveSettings) (collections : List Collection) (result : WriteResult) :
    Generation where
  path := e.target
  result := result
  generated := (Document.ofCollections collections e.mappingInterface).generated
  skipped := Collection.skipped collections

/-- What is said after the document was written, or was not. -/
def ending (e : EffectiveSettings) (collections : List Collection) :
    Except WriteError WriteResult → Outcome
  | .error cause => .notWritten cause
  | .ok result => .generated (e.generation collections result) collections

def runOn (e : EffectiveSettings) (isDryRun : Bool) (t : FileTree) : Outcome × FileTree :=
  match e.reading t with
  | .error outcome => (outcome, t)
  | .ok (_, collections) =>
    if isDryRun then (.dryRun collections e.output e.target, t)
    else
      let written := (e.document collections).writeOn t
      (e.ending collections written.1, written.2)

end EffectiveSettings

/-- Options come first, and are taken as they are. What no option gives is in the configuration,
where paths are seen from its directory. -/
def GenerateOptions.effective (o : GenerateOptions) (c : Configuration) : EffectiveSettings where
  schema :=
    match o.source.schema with
    | some path => some path
    | none => c.schemaPath.map (placed o.source.configurationPath)
  directory :=
    match o.directory with
    | some path => path
    | none => placed o.source.configurationPath c.output.directory
  file :=
    match o.file with
    | some name => name
    | none => c.output.file
  mappingInterface := c.output.mappingInterface

namespace GenerateOptions

variable {o : GenerateOptions} {t u : FileTree} {c c' : Configuration}

theorem configurationIn_of_loads (h : o.source.Loads t c) :
    o.source.configurationIn t = .ok (c.seenFrom o.source.configurationPath) := by
  unfold SourceOptions.configurationIn
  rw [h]
  rfl

/-- The settings of a run are the effective ones. -/
theorem settings_seenFrom (o : GenerateOptions) (c : Configuration) :
    o.settings (c.seenFrom o.source.configurationPath) =
      ⟨(o.effective c).schema, (o.effective c).output⟩ := by
  obtain ⟨⟨configuration, schema⟩, directory, file, isDryRun⟩ := o
  cases schema <;> cases directory <;> cases file <;> rfl

theorem loadedFrom_of_loads (h : o.source.Loads t c) :
    o.source.loadedFrom t = ((o.effective c).reading t).map fun (path, collections) =>
      ⟨c.seenFrom o.source.configurationPath, path, collections⟩ := by
  have schema : o.source.schema.or (c.seenFrom o.source.configurationPath).schemaPath =
      (o.effective c).schema := congrArg Configuration.schemaPath (o.settings_seenFrom c)
  unfold SourceOptions.loadedFrom EffectiveSettings.reading
  rw [configurationIn_of_loads h]
  dsimp only
  rw [schema]
  cases (o.effective c).schema with
  | none => rfl
  | some path =>
    dsimp only
    cases Collection.ofReading path (t.readText path) <;> rfl

theorem checkOn_of_loads (h : o.source.Loads t c) :
    o.source.checkOn t = (o.effective c).checkOn t := by
  have loaded := loadedFrom_of_loads h
  unfold EffectiveSettings.checkOn
  cases hr : (o.effective c).reading t with
  | error outcome =>
    rw [hr] at loaded
    exact SourceOptions.checkOn_of_error loaded
  | ok read =>
    rw [hr] at loaded
    exact SourceOptions.checkOn_of_ok loaded

section Loaded

variable (o : GenerateOptions) (c : Configuration) (path : Text) (collections : List Collection)

theorem outputFile_seenFrom :
    o.outputFile ⟨c.seenFrom o.source.configurationPath, path, collections⟩ =
      (o.effective c).document collections := by
  unfold outputFile
  dsimp only
  rw [settings_seenFrom]
  rfl

theorem ending_seenFrom (result : Except WriteError WriteResult) :
    o.ending ⟨c.seenFrom o.source.configurationPath, path, collections⟩ result =
      (o.effective c).ending collections result := by
  cases result with
  | error cause => rfl
  | ok result =>
    unfold ending generation
    rw [outputFile_seenFrom]
    dsimp only
    rw [settings_seenFrom]
    rfl

end Loaded

theorem runOn_of_loads (h : o.source.Loads t c) :
    o.runOn t = (o.effective c).runOn o.isDryRun t := by
  have loaded := loadedFrom_of_loads h
  unfold EffectiveSettings.runOn
  cases hr : (o.effective c).reading t with
  | error outcome =>
    rw [hr] at loaded
    exact runOn_of_error loaded
  | ok read =>
    obtain ⟨path, collections⟩ := read
    rw [hr] at loaded
    cases hd : o.isDryRun with
    | true =>
      rw [runOn_of_isDryRun hd loaded, outputFile_seenFrom, settings_seenFrom]
      rfl
    | false =>
      rw [runOn_of_writes hd loaded, outputFile_seenFrom, ending_seenFrom]
      rfl

theorem outputPath?_of_loads (h : o.source.Loads t c) :
    o.outputPath? t = some (o.effective c).target := by
  unfold outputPath?
  rw [configurationIn_of_loads h]
  dsimp only
  rw [settings_seenFrom]
  rfl

end GenerateOptions

/-! ### What the effective settings leave open -/

namespace EffectiveSettings

variable {e e' : EffectiveSettings} {t u : FileTree}

/-- Of where things are, the schema and the target are all that counts. -/
theorem runOn_congr (schema : e'.schema = e.schema) (target : e'.target = e.target)
    (file : e'.file = e.file) (mappingInterface : e'.mappingInterface = e.mappingInterface)
    (isDryRun : Bool) (t : FileTree) : e'.runOn isDryRun t = e.runOn isDryRun t := by
  obtain ⟨s, d, f, m⟩ := e
  obtain ⟨s', d', f', m'⟩ := e'
  dsimp only at schema file mappingInterface
  subst schema file mappingInterface
  unfold runOn reading ending generation document
  rw [target]
  rfl

theorem checkOn_congr (schema : e'.schema = e.schema) (t : FileTree) :
    e'.checkOn t = e.checkOn t := by
  unfold checkOn reading
  rw [schema]

theorem checkOn_fst_eq (reading : e.reading u = e.reading t) :
    (e.checkOn u).1 = (e.checkOn t).1 := by
  unfold checkOn
  rw [reading]
  cases e.reading t <;> rfl

theorem runOn_fst_eq (reading : e.reading u = e.reading t)
    (written : ∀ collections,
      ((e.document collections).writeOn u).1 = ((e.document collections).writeOn t).1)
    (isDryRun : Bool) : (e.runOn isDryRun u).1 = (e.runOn isDryRun t).1 := by
  unfold runOn
  rw [reading]
  cases e.reading t with
  | error outcome => rfl
  | ok read =>
    cases isDryRun with
    | true => rfl
    | false => exact congrArg (e.ending read.2) (written read.2)

end EffectiveSettings
end CollectionTypes
