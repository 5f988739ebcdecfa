import CollectionTypes.Command.Run
import CollectionTypes.Proofs.TreeWriting

/-!
# What requests load from a tree

Both commands start by loading the configuration, the path of the schema and its collections. That
reads two path names and changes nothing, so it comes to the same in every tree in which these two
path names hold the same.
-/

namespace CollectionTypes

open FileTree

/-! ### The results of reading -/

def Source.ofReading (path : Text) : Except FileError Text → Except LoadError Source
  | .error e => .error (.unreadable path e)
  | .ok text => .ok ⟨path, text⟩

def Collection.ofReading (path : Text) (reading : Except FileError Text) :
    Except LoadError (List Collection) := do
  let format ← DumpFormat.ofPath path
  let source ← Source.ofReading path reading
  Collection.ofDump format source

def Configuration.ofReading (path : Text) (reading : Except FileError Text) :
    Except LoadError Configuration := do
  let source ← Source.ofReading path reading
  Configuration.ofSource source

theorem eq_ok_of_mapError {ε δ α : Type} {x : Except ε α} {f : ε → δ} {a : α}
    (h : x.mapError f = .ok a) : x = .ok a := by
  cases x with
  | error e => exact absurd h nofun
  | ok b => exact congrArg Except.ok (Except.ok.inj h)

theorem Configuration.exists_of_ofReading_eq_ok {path : Text} {reading : Except FileError Text}
    {c : Configuration} (h : ofReading path reading = .ok c) :
    ∃ text, reading = .ok text ∧ ofText text = .ok c := by
  cases reading with
  | error e => exact absurd h nofun
  | ok text => exact ⟨text, rfl, eq_ok_of_mapError h⟩

theorem run_readSource (path : Text) (t : FileTree) :
    (readSource path : StateM FileTree (Except LoadError Source)) t =
      (Source.ofReading path (t.readText path), t) := by
  unfold readSource
  rw [run_bind, run_readText]
  dsimp only
  cases t.readText path <;> rfl

theorem Collection.run_load (path : Text) (t : FileTree) :
    (Collection.load path : StateM FileTree (Except LoadError (List Collection))) t =
      (Collection.ofReading path (t.readText path), t) := by
  unfold Collection.load Collection.ofReading
  cases DumpFormat.ofPath path with
  | error e => rfl
  | ok format =>
    dsimp only
    rw [run_bind, run_readSource]
    cases Source.ofReading path (t.readText path) <;> rfl

theorem Configuration.run_open (path : Text) (t : FileTree) :
    (Configuration.open path : StateM FileTree (Except LoadError Configuration)) t =
      (Configuration.ofReading path (t.readText path), t) := by
  unfold Configuration.open Configuration.ofReading
  rw [run_bind, run_readSource]
  cases Source.ofReading path (t.readText path) <;> rfl

/-- The configuration that a tree gives, which need not be there unless it is required. -/
def Configuration.loadedFrom (path : Text) (required : Bool) (t : FileTree) :
    Except LoadError Configuration :=
  if required ∨ t.isPresent path then Configuration.ofReading path (t.readText path)
  else .ok .standard

theorem run_isPresent (path : Text) (t : FileTree) :
    (FileSystem.isPresent path : StateM FileTree Bool) t = (t.isPresent path, t) := rfl

theorem Configuration.run_load (path : Text) (required : Bool) (t : FileTree) :
    (Configuration.load path required : StateM FileTree (Except LoadError Configuration)) t =
      (Configuration.loadedFrom path required t, t) := by
  unfold Configuration.load Configuration.loadedFrom
  cases required with
  | true => simp only [if_true, true_or, Configuration.run_open]
  | false =>
    simp only [Bool.false_eq_true, if_false, false_or]
    rw [run_bind, run_isPresent]
    dsimp only
    cases t.isPresent path with
    | true => simp only [if_true, Configuration.run_open]
    | false => rfl

namespace SourceOptions

/-- The configuration with its paths as they are seen from here. -/
def configurationIn (o : SourceOptions) (t : FileTree) : Except LoadError Configuration :=
  (Configuration.loadedFrom o.configurationPath o.configuration.isSome t).map
    (·.seenFrom o.configurationPath)

/-- The path of the schema, as options or the configuration give it. -/
def schemaPath? (o : SourceOptions) (t : FileTree) : Option Text :=
  match o.configurationIn t with
  | .error _ => none
  | .ok c => o.schema.or c.schemaPath

theorem run_loadConfiguration (o : SourceOptions) (t : FileTree) :
    (o.loadConfiguration : StateM FileTree (Except LoadError Configuration)) t =
      (o.configurationIn t, t) := by
  unfold loadConfiguration configurationIn
  rw [run_bind, Configuration.run_load]
  rfl

end SourceOptions

/-! ### Configuration, schema and collections -/

/-- What a request works on. -/
structure Loaded where
  configuration : Configuration
  schemaPath : Text
  collections : List Collection
deriving DecidableEq

/-- What is loaded from a tree, or what the program says instead. -/
def SourceOptions.loadedFrom (o : SourceOptions) (t : FileTree) : Except Outcome Loaded :=
  match o.configurationIn t with
  | .error e => .error (.diagnostic e)
  | .ok c =>
    match o.schema.or c.schemaPath with
    | none => .error .schemaMissing
    | some path =>
      match Collection.ofReading path (t.readText path) with
      | .error e => .error (.diagnostic e)
      | .ok collections => .ok ⟨c, path, collections⟩

/-- A request that loads nothing says so and ends. -/
theorem run_withCollections (c : Configuration)
    (next : Text → List Collection → StateM FileTree Outcome) (t : FileTree) :
    withCollections c next t =
      match c.schemaPath with
      | none => (.schemaMissing, t)
      | some path =>
        match Collection.ofReading path (t.readText path) with
        | .error e => (.diagnostic e, t)
        | .ok collections => next path collections t := by
  unfold withCollections
  cases c.schemaPath with
  | none => rfl
  | some path =>
    dsimp only
    rw [run_bind, Collection.run_load]
    dsimp only
    cases Collection.ofReading path (t.readText path) <;> rfl

/-- Loading the collections is all that requests do with a configuration before they go on. -/
theorem SourceOptions.run_loaded {o : SourceOptions} {t : FileTree} {c c' : Configuration}
    (hc : o.configurationIn t = .ok c) (hp : c'.schemaPath = o.schema.or c.schemaPath)
    (next : Configuration → Text → List Collection → StateM FileTree Outcome) :
    withCollections c' (next c) t =
      match o.loadedFrom t with
      | .error e => (e, t)
      | .ok l => next l.configuration l.schemaPath l.collections t := by
  unfold loadedFrom
  rw [run_withCollections, hp, hc]
  dsimp only
  cases o.schema.or c.schemaPath with
  | none => rfl
  | some path =>
    dsimp only
    cases Collection.ofReading path (t.readText path) <;> rfl

theorem SourceOptions.loadedFrom_of_error {o : SourceOptions} {t : FileTree} {e : LoadError}
    (h : o.configurationIn t = .error e) : o.loadedFrom t = .error (.diagnostic e) := by
  unfold loadedFrom
  rw [h]

theorem SourceOptions.run_check (o : SourceOptions) (t : FileTree) :
    (o.check : StateM FileTree Outcome) t =
      match o.loadedFrom t with
      | .error e => (e, t)
      | .ok l => (.checked l.schemaPath l.collections, t) := by
  unfold SourceOptions.check
  rw [run_bind, run_loadConfiguration]
  cases hc : o.configurationIn t with
  | error e =>
    rw [loadedFrom_of_error hc]
    rfl
  | ok c => exact run_loaded hc rfl fun _ path collections => return .checked path collections

namespace GenerateOptions

/-- The configuration after the options. -/
def settings (o : GenerateOptions) (c : Configuration) : Configuration :=
  c.overridden o.source o.directory o.file

/-- What is left to do once collections are loaded. -/
def finish (o : GenerateOptions) (c : Configuration) (collections : List Collection) :
    StateM FileTree Outcome := do
  if o.isDryRun then return .dryRun collections c.output c.target
  match ← Generation.write collections c.output.directory c.output with
  | .error e => return .notWritten e
  | .ok g => return .generated g collections

theorem run_run (o : GenerateOptions) (t : FileTree) :
    (o.run : StateM FileTree Outcome) t =
      match o.source.loadedFrom t with
      | .error e => (e, t)
      | .ok l =>
        let c := o.settings l.configuration
        if o.isDryRun then (.dryRun l.collections c.output c.target, t)
        else
          match (Generation.write l.collections c.output.directory c.output :
              StateM FileTree (Except WriteError Generation)) t with
          | (.error e, u) => (.notWritten e, u)
          | (.ok g, u) => (.generated g l.collections, u) := by
  unfold GenerateOptions.run
  rw [run_bind, SourceOptions.run_loadConfiguration]
  cases hc : o.source.configurationIn t with
  | error e =>
    rw [SourceOptions.loadedFrom_of_error hc]
    rfl
  | ok c =>
    refine (SourceOptions.run_loaded hc rfl
      fun c _ collections => o.finish (o.settings c) collections).trans ?_
    cases o.source.loadedFrom t with
    | error e => rfl
    | ok l =>
      dsimp only
      unfold finish
      cases o.isDryRun with
      | true => rfl
      | false =>
        simp only [Bool.false_eq_true, if_false]
        rw [run_bind]
        generalize (Generation.write _ _ _ :
          StateM FileTree (Except WriteError Generation)) t = written
        obtain ⟨result, u⟩ := written
        cases result <;> rfl

end GenerateOptions
end CollectionTypes
