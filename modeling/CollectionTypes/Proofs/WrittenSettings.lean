import CollectionTypes.Proofs.FileWriting
import CollectionTypes.Proofs.Loading

/-!
# What a configuration says

Every setting of a configuration that loads is the text which stands in the file for it, or the
usual value where none does. The members of a table are gone through in order, each one replacing
what was there before, so the last member of a name is the one that counts; the tables of a document
have no two members of one name.
-/

namespace CollectionTypes

open FileTree

namespace Toml

/-! ### Results -/

theorem exists_of_bind_eq_ok {α β : Type} {x : Decoded α} {f : α → Decoded β} {b : β}
    (h : x >>= f = .ok b) : ∃ a, x = .ok a ∧ f a = .ok b := by
  cases x with
  | error e => exact absurd h nofun
  | ok a => exact ⟨a, rfl, h⟩

theorem exists_of_map_eq_ok {ε α β : Type} {x : Except ε α} {f : α → β} {b : β}
    (h : x.map f = .ok b) : ∃ a, x = .ok a ∧ f a = b := by
  cases x with
  | error e => exact absurd h nofun
  | ok a => exact ⟨a, rfl, Except.ok.inj h⟩

/-! ### Texts and members -/

/-- The text of a value that is one. -/
def Value.string? : Value → Option Text
  | .string s => some s
  | _ => none

theorem Value.string?_of_text {value : Value} {wanted : Wanted} {extent : Extent} {s : Text}
    (h : value.text wanted extent = .ok s) : value.string? = some s := by
  cases value with
  | string t => exact congrArg some (Except.ok.inj h)
  | _ => exact absurd h nofun

theorem Value.exists_of_map_text {α : Type} {value : Value} {wanted : Wanted} {extent : Extent}
    {f : Text → α} {a : α} (h : (value.text wanted extent).map f = .ok a) :
    ∃ s, value.string? = some s ∧ f s = a := by
  obtain ⟨s, hs, hf⟩ := exists_of_map_eq_ok h
  exact ⟨s, string?_of_text hs, hf⟩

/-- The last member of a name. -/
def lastMember? (members : List (Key × Extent × Value)) (name : Text) : Option (Extent × Value) :=
  (members.reverse.find? (·.1.name = name)).map Prod.snd

theorem lastMember?_cons (m : Key × Extent × Value) (members : List (Key × Extent × Value))
    (name : Text) :
    lastMember? (m :: members) name =
      (lastMember? members name).or (if m.1.name = name then some m.2 else none) := by
  unfold lastMember?
  rw [List.reverse_cons, List.find?_append]
  cases members.reverse.find? (·.1.name = name) with
  | some found => rfl
  | none =>
    by_cases h : m.1.name = name
    · simp [h]
    · simp [h]

/-- A part of what is made of some members, which those of one name set and no others change. -/
theorem part_of_foldlM {σ α : Type} {take : σ → Key × Extent × Value → Decoded σ} (part : σ → α)
    (name : Text) (value : Extent × Value → α)
    (sets : ∀ s m s', take s m = .ok s' →
      part s' = if m.1.name = name then value m.2 else part s)
    {members : List (Key × Extent × Value)} {s s' : σ} (h : members.foldlM take s = .ok s') :
    part s' = ((lastMember? members name).map value).getD (part s) := by
  induction members generalizing s with
  | nil =>
    rw [List.foldlM_nil] at h
    rw [← Except.ok.inj h]
    rfl
  | cons m members ih =>
    rw [List.foldlM_cons] at h
    obtain ⟨next, hm, h⟩ := exists_of_bind_eq_ok h
    rw [ih h, sets s m next hm, lastMember?_cons]
    cases lastMember? members name with
    | some found => rfl
    | none =>
      by_cases hn : m.1.name = name
      · simp [hn]
      · simp [hn]

/-- A setting of a group, which is a table, or a list with the setting at `index`. -/
def Value.setting? (value : Value) (extent : Extent) (key : Text) (index : Nat) : Option Text :=
  match value.elements? with
  | some elements => elements[index]?.bind fun e => e.2.string?
  | none =>
    (value.members? extent).bind fun members =>
      (lastMember? members key).bind fun e => e.2.string?

/-- What a table says under a key of a group. -/
def Table.setting? (t : Table) (group key : Text) (index : Nat) : Option Text :=
  (lastMember? t.entries group).bind fun e => e.2.setting? e.1 key index

end Toml

open Toml

/-! ### The groups -/

theorem SchemaSettings.take_eq_ok {path path' : Option Text} {m : Key × Extent × Value}
    (h : take path m = .ok path') :
    path' = if m.1.name = pathKey then m.2.2.string? else path := by
  obtain ⟨key, extent, value⟩ := m
  unfold take at h
  dsimp only at h ⊢
  split at h
  next hk =>
    obtain ⟨s, hs, rfl⟩ := Value.exists_of_map_text h
    rw [if_pos hk, hs]
  next => exact absurd h nofun

theorem SchemaSettings.ofToml_eq_ok {extent : Extent} {value : Value} {path : Option Text}
    (h : ofToml extent value = .ok path) : path = value.setting? extent pathKey 0 := by
  unfold ofToml at h
  unfold Value.setting?
  cases he : value.elements? with
  | some elements =>
    rw [he] at h
    cases elements with
    | nil => exact (Except.ok.inj h).symm
    | cons e elements =>
      obtain ⟨s, hs, rfl⟩ := Value.exists_of_map_text h
      exact hs.symm
  | none =>
    rw [he] at h
    cases hm : value.members? extent with
    | none =>
      rw [hm] at h
      exact absurd h nofun
    | some members =>
      rw [hm] at h
      have part := part_of_foldlM id pathKey (fun e => e.2.string?) (fun _ _ _ => take_eq_ok) h
      dsimp only [id] at part
      rw [part]
      cases hl : lastMember? members pathKey with
      | none => simp [hl]
      | some e => simp [hl]

namespace OutputSettings

/-- The settings of a group, where the usual ones stand in for those that are not there. -/
def ofSettings (setting? : Text → Nat → Option Text) : OutputSettings where
  directory := (setting? directoryKey 0).getD standard.directory
  file := (setting? fileKey 1).getD standard.file
  mappingInterface := (setting? mappingInterfaceKey 2).getD standard.mappingInterface

theorem take_eq_ok {s s' : OutputSettings} {m : Key × Extent × Value} (h : take s m = .ok s') :
    s'.directory =
        (if m.1.name = directoryKey then m.2.2.string?.getD standard.directory else s.directory) ∧
      s'.file = (if m.1.name = fileKey then m.2.2.string?.getD standard.file else s.file) ∧
      s'.mappingInterface =
        (if m.1.name = mappingInterfaceKey then m.2.2.string?.getD standard.mappingInterface
          else s.mappingInterface) := by
  obtain ⟨key, extent, value⟩ := m
  unfold take at h
  dsimp only at h ⊢
  split at h
  next hd =>
    obtain ⟨t, ht, rfl⟩ := Value.exists_of_map_text h
    rw [hd, ht]
    exact ⟨rfl, rfl, rfl⟩
  next hd =>
    split at h
    next hf =>
      obtain ⟨t, ht, rfl⟩ := Value.exists_of_map_text h
      rw [hf, ht]
      exact ⟨rfl, rfl, rfl⟩
    next hf =>
      split at h
      next hi =>
        obtain ⟨t, ht, rfl⟩ := Value.exists_of_map_text h
        rw [hi, ht]
        exact ⟨rfl, rfl, rfl⟩
      next => exact absurd h nofun

theorem element_eq_ok {elements : List (Extent × Value)} {i : Nat} {wanted : Wanted}
    {default s : Text}
    (h : (match elements[i]? with
      | some (e, v) => v.text wanted e
      | none => Except.ok default) = .ok s) :
    (elements[i]?.bind fun e => e.2.string?).getD default = s := by
  cases he : elements[i]? with
  | none =>
    rw [he] at h
    exact Except.ok.inj h
  | some e =>
    rw [he] at h
    rw [Option.bind_some, Value.string?_of_text h, Option.getD_some]

theorem ofElements_eq_ok {elements : List (Extent × Value)} {s : OutputSettings}
    (h : ofElements elements = .ok s) :
    s = ofSettings fun _ i => elements[i]?.bind fun e => e.2.string? := by
  unfold ofElements at h
  obtain ⟨directory, hd, h⟩ := exists_of_bind_eq_ok h
  obtain ⟨file, hf, h⟩ := exists_of_bind_eq_ok h
  obtain ⟨mappingInterface, hi, h⟩ := exists_of_bind_eq_ok h
  rw [← Except.ok.inj h, ofSettings, element_eq_ok hd, element_eq_ok hf, element_eq_ok hi]

theorem ofToml_eq_ok {extent : Extent} {value : Value} {s : OutputSettings}
    (h : ofToml extent value = .ok s) : s = ofSettings (value.setting? extent) := by
  unfold ofToml at h
  unfold Value.setting?
  cases he : value.elements? with
  | some elements =>
    rw [he] at h
    exact ofElements_eq_ok h
  | none =>
    rw [he] at h
    cases hm : value.members? extent with
    | none =>
      rw [hm] at h
      exact absurd h nofun
    | some members =>
      rw [hm] at h
      have directory := part_of_foldlM OutputSettings.directory directoryKey
        (fun e => e.2.string?.getD standard.directory) (fun _ _ _ h => (take_eq_ok h).1) h
      have file := part_of_foldlM OutputSettings.file fileKey
        (fun e => e.2.string?.getD standard.file) (fun _ _ _ h => (take_eq_ok h).2.1) h
      have mappingInterface := part_of_foldlM OutputSettings.mappingInterface mappingInterfaceKey
        (fun e => e.2.string?.getD standard.mappingInterface)
        (fun _ _ _ h => (take_eq_ok h).2.2) h
      have setting (key : Text) (usual : Text) :
          ((lastMember? members key).map fun e => e.2.string?.getD usual).getD usual =
            ((lastMember? members key).bind fun e => e.2.string?).getD usual := by
        cases lastMember? members key <;> rfl
      rw [setting] at directory file mappingInterface
      unfold ofSettings
      dsimp only [Option.bind_some]
      rw [← directory, ← file, ← mappingInterface]

end OutputSettings

/-! ### The whole configuration -/

namespace Configuration

/-- The configuration with these settings. -/
def ofSettings (setting? : Text → Text → Nat → Option Text) : Configuration where
  schemaPath := setting? schemaKey SchemaSettings.pathKey 0
  output := .ofSettings (setting? outputKey)

theorem take_eq_ok {c c' : Configuration} {m : Key × Extent × Value} (h : take c m = .ok c') :
    c'.schemaPath =
        (if m.1.name = schemaKey then m.2.2.setting? m.2.1 SchemaSettings.pathKey 0
          else c.schemaPath) ∧
      c'.output =
        (if m.1.name = outputKey then .ofSettings (m.2.2.setting? m.2.1) else c.output) := by
  obtain ⟨key, extent, value⟩ := m
  unfold take at h
  dsimp only at h ⊢
  split at h
  next hk =>
    obtain ⟨path, hp, rfl⟩ := exists_of_map_eq_ok h
    rw [hk, SchemaSettings.ofToml_eq_ok hp]
    exact ⟨rfl, rfl⟩
  next hk =>
    split at h
    next ho =>
      obtain ⟨output, hs, rfl⟩ := exists_of_map_eq_ok h
      rw [ho, OutputSettings.ofToml_eq_ok hs]
      exact ⟨rfl, rfl⟩
    next => exact absurd h nofun

theorem ofTable_eq_ok {t : Table} {c : Configuration} (h : ofTable t = .ok c) :
    c = ofSettings t.setting? := by
  have schemaPath := part_of_foldlM Configuration.schemaPath schemaKey
    (fun e => e.2.setting? e.1 SchemaSettings.pathKey 0) (fun _ _ _ h => (take_eq_ok h).1) h
  have output := part_of_foldlM Configuration.output outputKey
    (fun e => .ofSettings (e.2.setting? e.1)) (fun _ _ _ h => (take_eq_ok h).2) h
  have schemaSet : t.setting? schemaKey SchemaSettings.pathKey 0 = c.schemaPath := by
    rw [schemaPath]
    unfold Table.setting?
    cases lastMember? t.entries schemaKey <;> rfl
  have outputSet : OutputSettings.ofSettings (t.setting? outputKey) = c.output := by
    rw [output]
    unfold Table.setting?
    cases lastMember? t.entries outputKey <;> rfl
  rw [ofSettings, schemaSet, outputSet]

end Configuration

/-- What a file says under a key of a group, if it is there. -/
def FileTree.setting? (t : FileTree) (path : Text) (group key : Text) (index : Nat) :
    Option Text :=
  match t.readText path with
  | .error _ => none
  | .ok text =>
    match tableOf text with
    | .error _ => none
    | .ok table => table.setting? group key index

namespace Configuration

variable {path text : Text} {t : FileTree} {c : Configuration}

theorem exists_of_ofText_eq_ok (h : ofText text = .ok c) :
    ∃ table, tableOf text = .ok table ∧ ofTable table = .ok c := by
  unfold ofText decodeTable at h
  cases ht : tableOf text with
  | error d =>
    rw [ht] at h
    exact absurd h nofun
  | ok table =>
    rw [ht] at h
    exact ⟨table, rfl, eq_ok_of_mapError h⟩

/-- What is loaded is the usual configuration, or what the text of a file gives. -/
theorem loadedFrom_eq_ok {required : Bool} (h : loadedFrom path required t = .ok c) :
    (required = false ∧ ∃ e, t.find path = .error e) ∧ c = .standard ∨
      ∃ text, t.readText path = .ok text ∧ ofText text = .ok c := by
  unfold loadedFrom at h
  split at h
  next => exact .inr (exists_of_ofReading_eq_ok h)
  next absent =>
    left
    rw [not_or, Bool.not_eq_true] at absent
    refine ⟨⟨absent.1, ?_⟩, (Except.ok.inj h).symm⟩
    cases hf : t.find path with
    | error e => exact ⟨e, rfl⟩
    | ok node =>
      unfold isPresent at absent
      rw [hf] at absent
      exact absurd rfl absent.2

/-- A configuration has the settings of its file, and the usual ones for the others. -/
theorem eq_ofSettings {required : Bool} (h : loadedFrom path required t = .ok c) :
    c = ofSettings (t.setting? path) := by
  unfold FileTree.setting?
  obtain ⟨⟨_, e, he⟩, rfl⟩ | ⟨text, ht, hc⟩ := loadedFrom_eq_ok h
  · have unread : t.readText path = .error e := by
      unfold readText
      rw [he]
    rw [unread]
    rfl
  · obtain ⟨table, htable, hc⟩ := exists_of_ofText_eq_ok hc
    rw [ht]
    dsimp only
    rw [htable]
    exact ofTable_eq_ok hc

end Configuration
end CollectionTypes
