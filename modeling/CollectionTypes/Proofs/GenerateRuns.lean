import CollectionTypes.Proofs.FileWriting
import CollectionTypes.Proofs.Loading

/-!
# Runs of the two commands

What `generate` and `check` do to a tree of files, whatever it holds and whatever the options are.
A run that ends well has written one file, the one that a dry run announces with the content that it
shows, and a second run finds nothing to do unless the first has written over what it read. A run
that fails has changed no file. Dry runs and `check` change nothing at all, and succeed together.
-/

namespace CollectionTypes

open FileTree

/-! ### What runs say -/

/-- What a run says about the file at `path` last. -/
def Outcome.Reports (outcome : Outcome) (result : WriteResult) (path : Text) : Prop :=
  ∃ lines, outcome = .printed
    { out := Text.ofLines (lines ++
        [match result with
          | .written => "Generated: " ++ path
          | .unchanged => "Up to date: " ++ path])
      err := [] }

/-- What a dry run says about a file that would be at `path` and have this content. -/
def Outcome.Announces (outcome : Outcome) (path content : Text) : Prop :=
  ∃ file : Text, outcome = .printed
    { out := Text.ofLines
        ["── ".toList ++ file ++ " ──", content, "── Summary ──", "Would write: " ++ path]
      err := [] }

theorem Outcome.reports_generated (g : Generation) (collections : List Collection) :
    (generated g collections).Reports g.result g.path := by
  unfold generated Generation.report
  rw [List.append_cons]
  exact ⟨_, rfl⟩

/-! ### Runs -/

def SourceOptions.checkOn (o : SourceOptions) (t : FileTree) : Outcome × FileTree :=
  (o.check : StateM FileTree Outcome) t

namespace GenerateOptions

def runOn (o : GenerateOptions) (t : FileTree) : Outcome × FileTree :=
  (o.run : StateM FileTree Outcome) t

/-- The same options for a dry run. -/
def dry (o : GenerateOptions) : GenerateOptions := { o with isDryRun := true }

/-- Where the document goes, by the options and the configuration. -/
def outputPath? (o : GenerateOptions) (t : FileTree) : Option Text :=
  match o.source.configurationIn t with
  | .error _ => none
  | .ok c => some (o.settings c).target

/-- The file that a run on `l` writes. -/
def outputFile (o : GenerateOptions) (l : Loaded) : OutputFile where
  path := (o.settings l.configuration).target
  content := generatedText l.collections (o.settings l.configuration).output

def generation (o : GenerateOptions) (l : Loaded) (result : WriteResult) : Generation where
  path := (o.outputFile l).path
  result := result
  generated :=
    (Document.ofCollections l.collections
      (o.settings l.configuration).output.mappingInterface).generated
  skipped := Collection.skipped l.collections

/-- What is said once the file was written, or was not. -/
def ending (o : GenerateOptions) (l : Loaded) : Except WriteError WriteResult → Outcome
  | .error e => .notWritten e
  | .ok result => .generated (o.generation l result) l.collections

end GenerateOptions

theorem SourceOptions.checkOn_of_error {o : SourceOptions} {t : FileTree} {e : Outcome}
    (h : o.loadedFrom t = .error e) : o.checkOn t = (e, t) := by
  unfold checkOn
  rw [run_check, h]

theorem SourceOptions.checkOn_of_ok {o : SourceOptions} {t : FileTree} {l : Loaded}
    (h : o.loadedFrom t = .ok l) : o.checkOn t = (.checked l.schemaPath l.collections, t) := by
  unfold checkOn
  rw [run_check, h]

/-- Loading fails with a status of its own, before anything is written. -/
theorem SourceOptions.status_of_error {o : SourceOptions} {t : FileTree} {e : Outcome}
    (h : o.loadedFrom t = .error e) : e.status = 1 ∧ ∀ w, e ≠ .notWritten w := by
  unfold loadedFrom at h
  split at h
  next e' _ =>
    rw [← Except.error.inj h]
    exact ⟨rfl, nofun⟩
  next c _ =>
    split at h
    next =>
      rw [← Except.error.inj h]
      constructor
      · rfl
      · intro w hw
        unfold Outcome.schemaMissing Outcome.notWritten at hw
        rw [Outcome.failed.injEq, List.cons.injEq] at hw
        exact absurd hw.1 (by decide)
    next path _ =>
      split at h
      next e' _ =>
        rw [← Except.error.inj h]
        exact ⟨rfl, nofun⟩
      next => simp at h

namespace GenerateOptions

variable {o : GenerateOptions} {t u : FileTree} {l : Loaded}

theorem runOn_of_error {e : Outcome} (h : o.source.loadedFrom t = .error e) :
    o.runOn t = (e, t) := by
  unfold runOn
  rw [run_run, h]

theorem runOn_of_isDryRun (hd : o.isDryRun = true) (h : o.source.loadedFrom t = .ok l) :
    o.runOn t = (.dryRun l.collections (o.settings l.configuration).output (o.outputFile l).path,
      t) := by
  unfold runOn
  rw [run_run, h]
  dsimp only
  rw [hd]
  rfl

theorem runOn_of_writes (hd : o.isDryRun = false) (h : o.source.loadedFrom t = .ok l) :
    o.runOn t =
      (o.ending l ((o.outputFile l).writeOn t).1, ((o.outputFile l).writeOn t).2) := by
  unfold runOn
  rw [run_run, h]
  dsimp only
  rw [hd]
  simp only [Bool.false_eq_true, if_false]
  have written : (Generation.write l.collections (o.settings l.configuration).output.directory
      (o.settings l.configuration).output : StateM FileTree (Except WriteError Generation)) t =
        (((o.outputFile l).writeOn t).1.map (o.generation l), ((o.outputFile l).writeOn t).2) := rfl
  rw [written]
  generalize (o.outputFile l).writeOn t = w
  obtain ⟨result, u⟩ := w
  cases result <;> rfl

theorem exists_of_status_ending {r : Except WriteError WriteResult}
    (h : (o.ending l r).status = 0) : ∃ result, r = .ok result := by
  cases r with
  | error e => exact absurd h Nat.one_ne_zero
  | ok result => exact ⟨result, rfl⟩

end GenerateOptions

/-! ### What a second run finds -/

/-- `path` leads to where the path name `target` or one of its ancestors leads. -/
def FileTree.LeadsOnto (t : FileTree) (path target : Text) : Prop :=
  ∃ a ∈ Pathname.ancestors target, ∃ place, t.place? a = some place ∧ t.place? path = some place

/-- Writing a file and making directories for it has no effect on other path names. -/
theorem find_eq_of_not_leadsOnto {t u v : FileTree} {path target : Text} {content : FileContent}
    {place written : Place} (hd : DirectoriesAdded (Pathname.ancestors target) t u)
    (hw : FileWritten target content written u v) (hp : t.place? path = some place)
    (h : ¬ v.LeadsOnto path target) : v.find path = t.find path := by
  have keeps : KeepsDirectories t v := fun p hn => hw.keepsDirectories p (hd.keepsDirectories p hn)
  have apart : ∀ a ∈ Pathname.ancestors target, v.place? a ≠ some place := by
    intro a ha he
    exact h ⟨a, ha, place, he, place?_kept keeps hp⟩
  have directories : u.node? place = t.node? place := by
    apply hd.node?_eq
    intro a ha he
    exact apart a ha (place?_kept hw.keepsDirectories he)
  have elsewhere : place ≠ written := by
    rintro rfl
    exact apart target (Pathname.self_mem_ancestors target)
      (place?_kept hw.keepsDirectories hw.place?_eq)
  apply find_kept keeps hp
  rw [hw.node?_eq place elsewhere, directories]

theorem place?_of_readText {t : FileTree} {path text : Text} (h : t.readText path = .ok text) :
    ∃ place, t.place? path = some place := by
  unfold readText at h
  split at h
  next => simp at h
  next => simp at h
  next => simp at h
  next hf => exact place?_of_find hf

/-- The usual configuration file is at the root, where it can be looked for in every tree. -/
theorem spot_fileName (t : FileTree) :
    t.spot Configuration.fileName = .ok (.entry .root Configuration.fileName false) := by
  have route : Route.ofText Configuration.fileName = ⟨[], some Configuration.fileName, false⟩ := by
    decide
  unfold FileTree.spot
  rw [if_neg (by decide), route]
  rfl

theorem place?_fileName (t : FileTree) :
    t.place? Configuration.fileName = some [Configuration.fileName] :=
  place?_eq_some_iff.2 ⟨_, spot_fileName t, rfl⟩

theorem Collection.reading_of_ofReading {path : Text} {reading : Except FileError Text}
    {cs : List Collection} (h : ofReading path reading = .ok cs) : ∃ text, reading = .ok text := by
  cases reading with
  | error e =>
    unfold ofReading at h
    cases hf : DumpFormat.ofPath path <;> rw [hf] at h <;> exact absurd h nofun
  | ok text => exact ⟨text, rfl⟩

namespace SourceOptions

variable {o : SourceOptions} {t u : FileTree} {l : Loaded}

theorem loadedFrom_eq_ok (h : o.loadedFrom t = .ok l) :
    o.configurationIn t = .ok l.configuration ∧
      o.schema.or l.configuration.schemaPath = some l.schemaPath ∧
        Collection.ofReading l.schemaPath (t.readText l.schemaPath) = .ok l.collections := by
  unfold loadedFrom at h
  split at h
  next => simp at h
  next c hc =>
    split at h
    next => simp at h
    next path hp =>
      split at h
      next => simp at h
      next cs hcs =>
        obtain rfl := Except.ok.inj h
        exact ⟨hc, hp, hcs⟩

/-- The path of a configuration can be followed, also where the configuration need not be there. -/
theorem place?_configurationPath (h : o.loadedFrom t = .ok l) :
    ∃ place, t.place? o.configurationPath = some place := by
  have hc := (loadedFrom_eq_ok h).1
  cases ho : o.configuration with
  | none =>
    have usual : o.configurationPath = Configuration.fileName := by
      unfold configurationPath
      rw [ho]
      rfl
    rw [usual]
    exact ⟨_, place?_fileName t⟩
  | some path =>
    unfold configurationIn Configuration.loadedFrom at hc
    rw [if_pos (by simp [ho])] at hc
    cases hr : Configuration.ofReading o.configurationPath (t.readText o.configurationPath) with
    | error e =>
      rw [hr] at hc
      exact absurd hc nofun
    | ok c =>
      obtain ⟨text, ht, _⟩ := Configuration.exists_of_ofReading_eq_ok hr
      exact place?_of_readText ht

theorem place?_schemaPath (h : o.loadedFrom t = .ok l) :
    ∃ place, t.place? l.schemaPath = some place := by
  obtain ⟨text, ht⟩ := Collection.reading_of_ofReading (loadedFrom_eq_ok h).2.2
  exact place?_of_readText ht

theorem schemaPath?_of_loadedFrom (h : o.loadedFrom t = .ok l) :
    o.schemaPath? t = some l.schemaPath := by
  unfold schemaPath?
  rw [(loadedFrom_eq_ok h).1]
  exact (loadedFrom_eq_ok h).2.1

theorem configurationIn_congr (h : u.find o.configurationPath = t.find o.configurationPath) :
    o.configurationIn u = o.configurationIn t := by
  unfold configurationIn Configuration.loadedFrom isPresent readText
  rw [h]

theorem loadedFrom_congr (hc : u.find o.configurationPath = t.find o.configurationPath)
    (hs : ∀ path, o.schemaPath? t = some path → u.find path = t.find path) :
    o.loadedFrom u = o.loadedFrom t := by
  unfold loadedFrom
  unfold schemaPath? at hs
  rw [configurationIn_congr hc]
  cases hx : o.configurationIn t with
  | error e => rfl
  | ok c =>
    rw [hx] at hs
    dsimp only at hs ⊢
    cases hp : o.schema.or c.schemaPath with
    | none => rfl
    | some path =>
      dsimp only
      have same : u.readText path = t.readText path := by
        unfold readText
        rw [hs path hp]
      rw [same]

end SourceOptions

/-! ### The two commands -/

namespace GenerateOptions

variable {o : GenerateOptions} {t : FileTree} {l : Loaded}

theorem outputPath?_of_loadedFrom (h : o.source.loadedFrom t = .ok l) :
    o.outputPath? t = some (o.outputFile l).path := by
  unfold outputPath?
  rw [(SourceOptions.loadedFrom_eq_ok h).1]
  rfl

theorem dry_runOn (h : o.source.loadedFrom t = .ok l) :
    o.dry.runOn t =
      (.dryRun l.collections (o.settings l.configuration).output (o.outputFile l).path, t) :=
  runOn_of_isDryRun rfl h

theorem announces_dry (h : o.source.loadedFrom t = .ok l) :
    (o.dry.runOn t).1.Announces (o.outputFile l).path (o.outputFile l).content := by
  rw [dry_runOn h]
  exact ⟨_, rfl⟩

/-- What was loaded is loaded again after the file was written. -/
theorem loadedFrom_of_ending {r : Except WriteError WriteResult × FileTree} {result : WriteResult}
    (he : (o.outputFile l).Ending t r) (hr : r.1 = .ok result) (h : o.source.loadedFrom t = .ok l)
    (hc : ¬ r.2.LeadsOnto o.source.configurationPath (o.outputFile l).path)
    (hl : ¬ r.2.LeadsOnto l.schemaPath (o.outputFile l).path) :
    o.source.loadedFrom r.2 = .ok l := by
  cases he with
  | unchanged _ => exact h
  | failed _ => exact absurd hr nofun
  | written hg hw =>
    obtain ⟨p, hp⟩ := SourceOptions.place?_configurationPath h
    obtain ⟨q, hq⟩ := SourceOptions.place?_schemaPath h
    rw [← h]
    apply SourceOptions.loadedFrom_congr
    · exact find_eq_of_not_leadsOnto hg hw hp hc
    · intro path hpath
      rw [SourceOptions.schemaPath?_of_loadedFrom h, Option.some.injEq] at hpath
      subst hpath
      exact find_eq_of_not_leadsOnto hg hw hq hl

/-- A run that finds its file as it would write it has nothing to do. -/
theorem runOn_of_isIn (hd : o.isDryRun = false) (h : o.source.loadedFrom t = .ok l)
    (hi : (o.outputFile l).IsIn t) :
    o.runOn t = (.generated (o.generation l .unchanged) l.collections, t) := by
  rw [runOn_of_writes hd h, OutputFile.writeOn_of_isIn hi]
  rfl

theorem runOn_of_failure (hs : (o.runOn t).1.status ≠ 0) :
    SameFiles t (o.runOn t).2 ∧
      ((∀ e, (o.runOn t).1 ≠ .notWritten e) → (o.runOn t).2 = t) := by
  cases h : o.source.loadedFrom t with
  | error e =>
    rw [runOn_of_error h]
    exact ⟨fun _ _ => Iff.rfl, fun _ => rfl⟩
  | ok l =>
    cases hd : o.isDryRun with
    | true =>
      rw [runOn_of_isDryRun hd h] at hs
      exact absurd rfl hs
    | false =>
      rw [runOn_of_writes hd h] at hs ⊢
      cases hr : ((o.outputFile l).writeOn t).1 with
      | ok result =>
        rw [hr] at hs
        exact absurd rfl hs
      | error e =>
        have grown := ((o.outputFile l).ending_writeOn t).of_error hr
        exact ⟨grown.file_iff, fun said => absurd rfl (said e)⟩

theorem checkOn_dry (o : GenerateOptions) (t : FileTree) :
    (o.source.checkOn t).2 = t ∧ (o.dry.runOn t).2 = t ∧
      ((o.source.checkOn t).1.status = 0 ↔ (o.dry.runOn t).1.status = 0) := by
  cases h : o.source.loadedFrom t with
  | error e =>
    rw [SourceOptions.checkOn_of_error h, runOn_of_error (o := o.dry) h]
    exact ⟨rfl, rfl, Iff.rfl⟩
  | ok l =>
    rw [SourceOptions.checkOn_of_ok h, dry_runOn h]
    exact ⟨rfl, rfl, Iff.rfl⟩

/-- A run of `generate` that ends well leaves one file as a dry run announces it and every other
file as it was, and can be repeated without effect unless it wrote over what it read. A run that
fails leaves every file as it was, and the whole tree unless writing failed. Dry runs and `check`
leave the tree as it was, and end well for the same configuration and schema. -/
theorem runOn_repeatable_and_safe (o : GenerateOptions) (t : FileTree) :
    (o.isDryRun = false → (o.runOn t).1.status = 0 →
      ∃ path content, o.outputPath? t = some path ∧
        (∃ result, (o.runOn t).1.Reports result path) ∧
          (o.dry.runOn t).1.Announces path content ∧
          (o.runOn t).2.readText path = .ok content ∧
          SameOtherFiles path t (o.runOn t).2 ∧
          (¬ (o.runOn t).2.LeadsOnto o.source.configurationPath path →
            (∀ schema, o.source.schemaPath? t = some schema →
              ¬ (o.runOn t).2.LeadsOnto schema path) →
            (o.runOn (o.runOn t).2).1.status = 0 ∧
              (o.runOn (o.runOn t).2).1.Reports .unchanged path ∧
              (o.runOn (o.runOn t).2).2 = (o.runOn t).2)) ∧
      ((o.runOn t).1.status ≠ 0 →
        SameFiles t (o.runOn t).2 ∧
          ((∀ e, (o.runOn t).1 ≠ .notWritten e) → (o.runOn t).2 = t)) ∧
      ((o.source.checkOn t).2 = t ∧ (o.dry.runOn t).2 = t ∧
        ((o.source.checkOn t).1.status = 0 ↔ (o.dry.runOn t).1.status = 0)) := by
  refine ⟨?_, runOn_of_failure, checkOn_dry o t⟩
  intro hd hs
  cases h : o.source.loadedFrom t with
  | error e =>
    rw [runOn_of_error h] at hs
    rw [(SourceOptions.status_of_error h).1] at hs
    exact absurd hs Nat.one_ne_zero
  | ok l =>
    have written := (o.outputFile l).ending_writeOn t
    rw [runOn_of_writes hd h] at hs ⊢
    obtain ⟨result, hr⟩ := exists_of_status_ending hs
    obtain ⟨isIn, others⟩ := written.of_ok hr
    rw [hr]
    refine ⟨_, _, outputPath?_of_loadedFrom h, ⟨result, Outcome.reports_generated _ _⟩,
      announces_dry h, readText_eq_ok_iff.2 isIn, others, ?_⟩
    intro hc hl
    have again :=
      loadedFrom_of_ending written hr h hc (hl _ (SourceOptions.schemaPath?_of_loadedFrom h))
    rw [runOn_of_isIn hd again isIn]
    exact ⟨rfl, Outcome.reports_generated _ _, rfl⟩

/-! ### A run on an empty list of collections -/

/-- A tree that holds an empty list of collections. -/
def emptyListing : FileTree :=
  FileTree.empty.put .root "collections.json" (.file (.text "[]")) (by decide)

def listingOptions : GenerateOptions where
  source := { configuration := none, schema := some "collections.json" }
  directory := some "src"
  file := some "types.ts"
  isDryRun := false

theorem status_listing : (listingOptions.runOn emptyListing).1.status = 0 := by decide +kernel

theorem place?_after_listing :
    ["src/types.ts".toList, "src".toList, []].map (listingOptions.runOn emptyListing).2.place? =
      [some ["src".toList, "types.ts".toList], some ["src".toList], none] := by
  decide +kernel

theorem ancestors_listing :
    Pathname.ancestors "src/types.ts" = ["src/types.ts".toList, "src".toList, []] := by
  decide +kernel

theorem not_leadsOnto_listing {path : Text}
    (h : (listingOptions.runOn emptyListing).2.place? path = some [path]) (hp : path ≠ "src") :
    ¬ (listingOptions.runOn emptyListing).2.LeadsOnto path "src/types.ts" := by
  have places := place?_after_listing
  generalize (listingOptions.runOn emptyListing).2 = after at h places ⊢
  simp only [List.map_cons, List.map_nil, List.cons.injEq, and_true] at places
  rintro ⟨a, ha, place, hl, hq⟩
  rw [h, Option.some.injEq] at hq
  subst hq
  rw [ancestors_listing, List.mem_cons, List.mem_cons, List.mem_singleton] at ha
  rcases ha with rfl | rfl | rfl
  · rw [places.1] at hl
    simp at hl
  · rw [places.2.1, Option.some.injEq, List.cons.injEq] at hl
    exact hp hl.1.symm
  · rw [places.2.2] at hl
    simp at hl

theorem runOn_repeatable_and_safe_listing :
    let after := (listingOptions.runOn emptyListing).2
    ¬ after.LeadsOnto listingOptions.source.configurationPath "src/types.ts" ∧
      ¬ after.LeadsOnto "collections.json" "src/types.ts" ∧
      (∃ content, (listingOptions.dry.runOn emptyListing).1.Announces "src/types.ts" content ∧
        after.readText "src/types.ts" = .ok content) ∧
      (listingOptions.runOn after).1.Reports .unchanged "src/types.ts" ∧
      (listingOptions.runOn after).2 = after := by
  intro after
  have configuration : ¬ after.LeadsOnto listingOptions.source.configurationPath "src/types.ts" :=
    not_leadsOnto_listing (place?_fileName after) (by decide)
  have schema : ¬ after.LeadsOnto "collections.json" "src/types.ts" :=
    not_leadsOnto_listing (by decide +kernel) (by decide)
  obtain ⟨path, content, hp, _, announced, holds, _, again⟩ :=
    (runOn_repeatable_and_safe listingOptions emptyListing).1 rfl status_listing
  have target : listingOptions.outputPath? emptyListing = some "src/types.ts".toList := by
    decide +kernel
  have listed :
      listingOptions.source.schemaPath? emptyListing = some "collections.json".toList := by
    decide +kernel
  rw [target, Option.some.injEq] at hp
  subst hp
  obtain ⟨_, reported, same⟩ := again configuration (by
    intro s hs
    rw [listed, Option.some.injEq] at hs
    subst hs
    exact schema)
  exact ⟨configuration, schema, ⟨content, announced, holds⟩, reported, same⟩

end GenerateOptions
end CollectionTypes
