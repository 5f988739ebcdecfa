import CollectionTypes.Proofs.DocumentLines
import CollectionTypes.Proofs.EffectiveSettings
import CollectionTypes.Proofs.TomlLines
import CollectionTypes.Proofs.TreeShape

/-!
# Options before configuration

Settings of a configuration for which there is an option have no effect: in two trees that differ in
the configuration file a run comes to the same. That holds also where the run writes over the
configuration, because a generated document is never one itself. And where the paths in a
configuration are absolute it does not matter where its file is.
-/

namespace CollectionTypes

open FileTree

/-! ### No document is a configuration -/

namespace Toml

/-- Two words beside each other are no assignment. -/
theorem takeMember_words {word rest : Text} {c : Char} (hw : IsWord word)
    (hs : isSpace c = false) (point : c ≠ '.') (equals : c ≠ '=')
    (value : Text → Taken Written) : takeMember value (word ++ ' ' :: c :: rest) = none := by
  have blank : skipSpaces (' ' :: c :: rest) = c :: rest :=
    skipSpaces_of_head (t := c :: rest) (by simpa using hs)
  have key : splitLexeme (word ++ ' ' :: c :: rest) = (word, ' ' :: c :: rest) := by
    apply splitLexeme_word hw
    intro d hd
    obtain rfl : ' ' = d := Option.some.inj hd
    decide
  obtain ⟨extent, hk⟩ := exists_takeKey key
  have path := takePath_key hk (by
    rw [blank]
    simpa using point)
  unfold takeMember
  rw [path]
  dsimp only
  rw [blank]
  split
  next he => exact absurd (List.cons.inj he).1 equals
  next => rfl

/-- A text that starts with no blank, header or comment starts with an assignment. -/
theorem statements?_of_takeMember {c : Char} {cs : Text} (hs : isSpace c = false) (header : c ≠ '[')
    (comment : ¬ (c = '#' ∨ c = '\n' ∨ c = '\r'))
    (member : takeMember (takeValue maxDepth) (c :: cs) = none) : statements? (c :: cs) = none := by
  have statement : takeStatement (c :: cs) = none := by
    unfold takeStatement
    dsimp only
    rw [if_neg header, if_neg comment, member]
    rfl
  have start : skipSpaces (c :: cs) = c :: cs := skipSpaces_of_head (by simpa using hs)
  have line : takeLine (c :: cs) = none := by
    unfold takeLine
    rw [start, statement]
  unfold statements?
  rw [line]

end Toml

/-- A document starts with a comment, but not one that a configuration may have. -/
theorem exists_generatedText_eq (collections : List Collection) (output : OutputSettings) :
    ∃ rest, generatedText collections output = "//".toList ++ ' ' :: 'G' :: rest := by
  have lines : ∃ later, documentLines collections output.mappingInterface =
      "// Generated by faunats. Do not edit by hand.".toList :: later := ⟨_, rfl⟩
  obtain ⟨later, lines⟩ := lines
  rw [generatedText_eq_ofLines, lines]
  exact ⟨_, rfl⟩

theorem ofText_generatedText_ne (collections : List Collection) (output : OutputSettings)
    (c : Configuration) : Configuration.ofText (generatedText collections output) ≠ .ok c := by
  obtain ⟨rest, hg⟩ := exists_generatedText_eq collections output
  rw [hg]
  intro h
  obtain ⟨table, ht, _⟩ := Configuration.exists_of_ofText_eq_ok h
  have member : Toml.takeMember (Toml.takeValue Toml.maxDepth)
      ("//".toList ++ ' ' :: 'G' :: rest) = none :=
    Toml.takeMember_words ⟨by decide, by decide⟩ (by decide) (by decide) (by decide) _
  have statements : Toml.statements? ("//".toList ++ ' ' :: 'G' :: rest) = none :=
    Toml.statements?_of_takeMember (by decide) (by decide) (by decide) member
  have mark : Toml.skipMark ("//".toList ++ ' ' :: 'G' :: rest) =
      "//".toList ++ ' ' :: 'G' :: rest := rfl
  unfold Toml.tableOf at ht
  rw [mark, statements] at ht
  cases ht

namespace SourceOptions

variable {o : SourceOptions} {t u : FileTree} {c c' : Configuration}

/-- What is at the place of the configuration is one. -/
theorem Loads.ofText_eq (h : o.Loads t c) {place : Place} {text : Text}
    (hp : t.place? o.configurationPath = some place)
    (hn : t.node? place = some (.file (.text text))) : Configuration.ofText text = .ok c := by
  obtain ⟨⟨optional, e, he⟩, _⟩ | ⟨other, hr, hc⟩ := Configuration.loadedFrom_eq_ok h
  · have usual : o.configurationPath = Configuration.fileName := by
      unfold configurationPath
      rw [Option.isSome_eq_false_iff, Option.isNone_iff_eq_none] at optional
      rw [optional]
      rfl
    rw [usual, place?_fileName, Option.some.injEq] at hp
    rw [usual, find_of_entry (spot_fileName t)] at he
    change found false (t.node? [Configuration.fileName]) = _ at he
    rw [hp, hn] at he
    exact absurd he nofun
  · have there := node?_of_find (readText_eq_ok_iff.1 hr) hp
    rw [hn, Option.some.injEq, FileNode.file.injEq, FileContent.text.injEq] at there
    rw [there]
    exact hc

/-- No tree has a document where it has the configuration, so it does not count for what is held
elsewhere. -/
theorem Loads.held_of_differAt (h : o.Loads t c) (hd : DifferAt o.configurationPath t u)
    {path : Text} {collections : List Collection} {output : OutputSettings}
    (held : t.readText path = .ok (generatedText collections output)) :
    u.readText path = .ok (generatedText collections output) := by
  rw [hd.readText_eq, held]
  intro place hp same
  have there := node?_of_find (readText_eq_ok_iff.1 held) hp
  exact ofText_generatedText_ne collections output c (h.ofText_eq same there)

end SourceOptions

namespace GenerateOptions

variable {o : GenerateOptions} {t u : FileTree} {c c' : Configuration}

/-! ### Settings for which there is an option -/

/-- The configurations have the same settings where no option is given. -/
structure AgreeOnRest (o : GenerateOptions) (c c' : Configuration) : Prop where
  schemaPath : o.source.schema = none → c'.schemaPath = c.schemaPath
  directory : o.directory = none → c'.output.directory = c.output.directory
  file : o.file = none → c'.output.file = c.output.file
  mappingInterface : c'.output.mappingInterface = c.output.mappingInterface

theorem AgreeOnRest.effective_eq (h : o.AgreeOnRest c c') : o.effective c' = o.effective c := by
  unfold effective
  rw [EffectiveSettings.mk.injEq]
  refine ⟨?_, ?_, ?_, h.mappingInterface⟩
  · cases hs : o.source.schema with
    | some path => rfl
    | none => rw [h.schemaPath hs]
  · cases hd : o.directory with
    | some path => rfl
    | none => rw [h.directory hd]
  · cases hf : o.file with
    | some name => rfl
    | none => exact h.file hf

/-- A schema that is the configuration itself describes the same collections in both trees. -/
def SameSchema (o : GenerateOptions) (e : EffectiveSettings) (t u : FileTree) : Prop :=
  ∀ path, e.schema = some path → t.SamePlace path o.source.configurationPath →
    Collection.ofReading path (u.readText path) = Collection.ofReading path (t.readText path)

theorem reading_eq_of_differAt {e : EffectiveSettings}
    (h : DifferAt o.source.configurationPath t u) (schema : o.SameSchema e t u) :
    e.reading u = e.reading t := by
  unfold EffectiveSettings.reading
  cases hs : e.schema with
  | none => rfl
  | some path =>
    have same : Collection.ofReading path (u.readText path) =
        Collection.ofReading path (t.readText path) := by
      by_cases hp : t.SamePlace path o.source.configurationPath
      · exact schema path hs hp
      · rw [h.readText_eq]
        intro place there configuration
        exact hp ⟨place, there, configuration⟩
    dsimp only
    rw [same]

theorem writeOn_fst_of_differAt {e : EffectiveSettings} (ht : o.source.Loads t c)
    (hu : o.source.Loads u c') (h : DifferAt o.source.configurationPath t u)
    (collections : List Collection) :
    ((e.document collections).writeOn u).1 = ((e.document collections).writeOn t).1 := by
  apply OutputFile.writeOn_fst_eq h.shape
  constructor
  · exact hu.held_of_differAt h.symm
  · exact ht.held_of_differAt h

theorem runOn_fst_of_differAt (ht : o.source.Loads t c) (hu : o.source.Loads u c')
    (rest : o.AgreeOnRest c c') (h : DifferAt o.source.configurationPath t u)
    (schema : o.SameSchema (o.effective c) t u) : (o.runOn u).1 = (o.runOn t).1 := by
  rw [runOn_of_loads ht, runOn_of_loads hu, rest.effective_eq]
  exact EffectiveSettings.runOn_fst_eq (reading_eq_of_differAt h schema)
    (writeOn_fst_of_differAt ht hu h) o.isDryRun

theorem checkOn_fst_of_differAt (ht : o.source.Loads t c) (hu : o.source.Loads u c')
    (rest : o.AgreeOnRest c c') (h : DifferAt o.source.configurationPath t u)
    (schema : o.SameSchema (o.effective c) t u) :
    (o.source.checkOn u).1 = (o.source.checkOn t).1 := by
  rw [checkOn_of_loads ht, checkOn_of_loads hu, rest.effective_eq]
  exact EffectiveSettings.checkOn_fst_eq (reading_eq_of_differAt h schema)

/-! ### Places of the configuration -/

/-- The same options with the configuration at another place. -/
def configuredAt (o : GenerateOptions) (location : Text) : GenerateOptions :=
  { o with source := { o.source with configuration := some location } }

/-- What counts is given by options or by absolute paths. -/
structure IsAnchored (o : GenerateOptions) (c : Configuration) : Prop where
  schema : o.source.schema = none → ∀ path, c.schemaPath = some path → Pathname.isAbsolute path
  target : Pathname.isAbsolute (o.effective c).file = true ∨
    (o.directory = none → Pathname.isAbsolute c.output.directory = true)

theorem schema_configuredAt (location : Text)
    (h : o.source.schema = none → ∀ path, c.schemaPath = some path → Pathname.isAbsolute path) :
    ((o.configuredAt location).effective c).schema = (o.effective c).schema := by
  unfold effective configuredAt
  dsimp only
  cases hs : o.source.schema with
  | some path => rfl
  | none =>
    cases hp : c.schemaPath with
    | none => rfl
    | some path =>
      have absolute := h hs path hp
      dsimp only [Option.map_some]
      rw [placed_of_isAbsolute absolute, placed_of_isAbsolute absolute]

theorem directory_configuredAt (location : Text)
    (h : o.directory = none → Pathname.isAbsolute c.output.directory = true) :
    ((o.configuredAt location).effective c).directory = (o.effective c).directory := by
  unfold effective configuredAt
  dsimp only
  cases hd : o.directory with
  | some path => rfl
  | none =>
    have absolute := h hd
    dsimp only
    rw [placed_of_isAbsolute absolute, placed_of_isAbsolute absolute]

theorem target_configuredAt (location : Text)
    (h : Pathname.isAbsolute (o.effective c).file = true ∨
      (o.directory = none → Pathname.isAbsolute c.output.directory = true)) :
    ((o.configuredAt location).effective c).target = (o.effective c).target := by
  have file : ((o.configuredAt location).effective c).file = (o.effective c).file := rfl
  unfold EffectiveSettings.target
  rw [file]
  obtain hf | hd := h
  · rw [Pathname.join_of_isAbsolute hf, Pathname.join_of_isAbsolute hf]
  · rw [directory_configuredAt location hd]

/-! ### The precedence of options -/

/-- Runs do what the effective settings say: options as they are given, or else what the
configuration file says, seen from its directory, or else the usual values. Configurations that
differ only where options are given lead to the same outcomes, unless the configuration is taken
for the schema as well and describes something else. With absolute paths it does not matter where
the configuration is. -/
theorem runOn_eq_effective (h : o.source.Loads t c) :
    let e := o.effective c
    c = .ofSettings (t.setting? o.source.configurationPath) ∧
      (o.runOn t = e.runOn o.isDryRun t ∧ o.dry.runOn t = e.runOn true t ∧
        o.source.checkOn t = e.checkOn t ∧ o.outputPath? t = some e.target) ∧
      (e.schema = none → o.runOn t = (.schemaMissing, t)) ∧
      (Pathname.isAbsolute e.file = true ∨ e.directory = [] → e.target = e.file) ∧
      (∀ u c', o.source.Loads u c' → o.AgreeOnRest c c' →
        DifferAt o.source.configurationPath t u → o.SameSchema e t u →
        (o.runOn u).1 = (o.runOn t).1 ∧ (o.dry.runOn u).1 = (o.dry.runOn t).1 ∧
          (o.source.checkOn u).1 = (o.source.checkOn t).1 ∧ o.outputPath? u = o.outputPath? t) ∧
      ∀ location,
        let moved := o.configuredAt location
        ((∀ path, c.schemaPath = some path → Pathname.isAbsolute path = true) →
          (moved.effective c).schema = e.schema) ∧
        (Pathname.isAbsolute c.output.directory = true →
          (moved.effective c).directory = e.directory) ∧
        (Pathname.isAbsolute e.file = true → (moved.effective c).target = e.target) ∧
        (o.IsAnchored c → ∀ u, moved.source.Loads u c →
          moved.runOn u = e.runOn o.isDryRun u ∧ moved.source.checkOn u = e.checkOn u) := by
  intro e
  refine ⟨Configuration.eq_ofSettings h, ?_, ?_, ?_, ?_, ?_⟩
  · exact ⟨runOn_of_loads h, runOn_of_loads (o := o.dry) h, checkOn_of_loads h,
      outputPath?_of_loads h⟩
  · intro missing
    rw [runOn_of_loads h]
    unfold EffectiveSettings.runOn EffectiveSettings.reading
    rw [missing]
  · rintro (absolute | empty)
    · exact Pathname.join_of_isAbsolute absolute
    · unfold EffectiveSettings.target
      rw [empty, Pathname.join_nil]
  · intro u c' hu rest differ schema
    refine ⟨runOn_fst_of_differAt h hu rest differ schema, ?_,
      checkOn_fst_of_differAt h hu rest differ schema, ?_⟩
    · exact runOn_fst_of_differAt (o := o.dry) h hu ⟨rest.1, rest.2, rest.3, rest.4⟩ differ schema
    · rw [outputPath?_of_loads h, outputPath?_of_loads hu, rest.effective_eq]
  · intro location moved
    refine ⟨fun absolute => schema_configuredAt location fun _ => absolute,
      fun absolute => directory_configuredAt location fun _ => absolute,
      fun absolute => target_configuredAt location (.inl absolute), ?_⟩
    intro anchored u hu
    have schema := schema_configuredAt location anchored.schema
    have target := target_configuredAt location anchored.target
    rw [runOn_of_loads hu, checkOn_of_loads hu]
    exact ⟨EffectiveSettings.runOn_congr schema target rfl rfl o.isDryRun u,
      EffectiveSettings.checkOn_congr schema u⟩

/-! ### A directory that is not used -/

def anchoredText (directory : Text) : Text :=
  "[schema]\npath = \"/collections.json\"\n\n[output]\ndir = \"".toList ++ directory ++
    "\"\nfile = \"types.ts\"\n".toList

def anchoredConfiguration (directory : Text) : Configuration where
  schemaPath := some "/collections.json"
  output := { OutputSettings.standard with directory, file := "types.ts" }

/-- A tree with a configuration in a directory. -/
def settingsTree : FileTree :=
  (emptyListing.put .root "settings" .directory (by decide)).put ⟨["settings"], by decide⟩
    "faunats.toml" (.file (.text (anchoredText "one"))) (by decide)

/-- A tree with a second configuration at the usual place. -/
def configuredTree (directory : Text) : FileTree :=
  settingsTree.put .root "faunats.toml" (.file (.text (anchoredText directory))) (by decide)

def unconfiguredOptions : GenerateOptions where
  source := { configuration := none, schema := none }
  directory := some "src"
  file := none
  isDryRun := false

theorem loads_configuredTree_one : unconfiguredOptions.source.Loads (configuredTree "one")
    (anchoredConfiguration "one") := by
  unfold SourceOptions.Loads
  decide +kernel

theorem loads_configuredTree_two : unconfiguredOptions.source.Loads (configuredTree "two")
    (anchoredConfiguration "two") := by
  unfold SourceOptions.Loads
  decide +kernel

theorem loads_configuredTree_settings :
    (unconfiguredOptions.configuredAt "settings/faunats.toml").source.Loads (configuredTree "one")
      (anchoredConfiguration "one") := by
  unfold SourceOptions.Loads
  decide +kernel

theorem differAt_configuredTree (directory other : Text) :
    DifferAt Configuration.fileName (configuredTree directory) (configuredTree other) :=
  DifferAt.put (t := settingsTree) (d := .root) (by decide) _ _ (place?_fileName _)

theorem sameSchema_configuredTree (e : EffectiveSettings) (u : FileTree)
    (h : e.schema = some "/collections.json".toList) :
    unconfiguredOptions.SameSchema e (configuredTree "one") u := by
  rintro path hp ⟨place, there, configuration⟩
  rw [h, Option.some.injEq] at hp
  subst hp
  have schema : (configuredTree "one").place? "/collections.json" =
      some ["collections.json".toList] := by
    decide +kernel
  rw [schema, Option.some.injEq] at there
  subst there
  exact absurd configuration (by decide +kernel)

theorem isAnchored_unconfiguredOptions :
    unconfiguredOptions.IsAnchored (anchoredConfiguration "one") where
  schema := by
    rintro _ path ⟨⟩
    rfl
  target := .inr nofun

theorem runOn_eq_effective_configured :
    unconfiguredOptions.source.Loads (configuredTree "one") (anchoredConfiguration "one") ∧
      unconfiguredOptions.outputPath? (configuredTree "one") = some "src/types.ts".toList ∧
      (unconfiguredOptions.runOn (configuredTree "one")).1.status = 0 ∧
      (unconfiguredOptions.runOn (configuredTree "two")).1 =
        (unconfiguredOptions.runOn (configuredTree "one")).1 ∧
      (unconfiguredOptions.configuredAt "settings/faunats.toml").runOn (configuredTree "one") =
        unconfiguredOptions.runOn (configuredTree "one") := by
  have loads := loads_configuredTree_one
  obtain ⟨_, ⟨run, _, _, target⟩, _, _, overridden, moved⟩ := runOn_eq_effective loads
  have rest : unconfiguredOptions.AgreeOnRest (anchoredConfiguration "one")
      (anchoredConfiguration "two") := ⟨fun _ => rfl, nofun, fun _ => rfl, rfl⟩
  obtain ⟨same, _⟩ := overridden _ _ loads_configuredTree_two rest
    (differAt_configuredTree "one" "two") (sameSchema_configuredTree _ _ rfl)
  obtain ⟨again, _⟩ := (moved "settings/faunats.toml").2.2.2 isAnchored_unconfiguredOptions _
    loads_configuredTree_settings
  refine ⟨loads, target, ?_, same, ?_⟩
  · decide +kernel
  · rw [again, run]

end GenerateOptions
end CollectionTypes
