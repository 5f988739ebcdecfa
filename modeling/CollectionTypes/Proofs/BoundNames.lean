import CollectionTypes.Document
import CollectionTypes.Proofs.ValidNames
import Mathlib.Data.List.Nodup
import Mathlib.Data.List.Pairwise
import Mathlib.Data.List.Perm.Basic

/-!
# The names that a document binds

A document binds the imported driver types, the seven type names of every collection with fields,
and the name of the mapping interface. Checking collection names keeps every bound name usable but
the last, which is taken from the configuration as it stands. It does not keep the bound names
distinct: `boundNames_nodup_iff` lists the three ways in which two of them can be the same.
-/

namespace CollectionTypes

open TypeScript

def DeclarationSet.declaredNames (set : DeclarationSet) : List Text :=
  [set.main.name, set.create.name, set.update.name, set.replace.name, set.faunaCreate.name,
    set.faunaUpdate.name, set.faunaReplace.name]

/-- All names bound at the top level of a document. -/
def Document.boundNames (document : Document) : List Text :=
  document.driverImport.names ++ document.sets.flatMap DeclarationSet.declaredNames ++
    [document.mapping.name]

namespace Collection

/-- The names of the collections with a field dictionary. -/
def generated (collections : List Collection) : List Text :=
  (collections.filter (·.fields.isSome)).map name

end Collection

namespace TypeNames

/-- What the names of a collection's types other than the main one add to its name. -/
def suffixes : List Text :=
  ["_Create", "_Update", "_Replace", "_FaunaCreate", "_FaunaUpdate", "_FaunaReplace"]

/-- The type names of a collection but the main one. -/
def derived (name : Text) : List Text := suffixes.map (name ++ ·)

/-- The type names of a collection. -/
def family (name : Text) : List Text := name :: derived name

/-! ### Families of names -/

/-- No suffix ends in another one. -/
theorem eq_of_append_suffix {a b s t : Text} (hs : s ∈ suffixes) (ht : t ∈ suffixes)
    (h : a ++ s = b ++ t) : a = b ∧ s = t := by
  have apart : ∀ s ∈ suffixes, ∀ t ∈ suffixes, s <:+ t → s = t := by decide
  have hst : s = t := by
    have hs' : s <:+ b ++ t := ⟨a, h⟩
    rcases List.suffix_or_suffix_of_suffix hs' (List.suffix_append b t) with h' | h'
    · exact apart s hs t ht h'
    · exact (apart t ht s hs h').symm
  subst hst
  exact ⟨List.append_cancel_right h, rfl⟩

theorem ne_append_suffix {a s : Text} (h : s ∈ suffixes) : a ≠ a ++ s := by
  have hne : ∀ s ∈ suffixes, s ≠ [] := by decide
  intro he
  exact hne s h (List.self_eq_append_right.1 he)

theorem mem_derived {name n : Text} : n ∈ derived name ↔ ∃ s ∈ suffixes, n = name ++ s := by
  simp only [derived, List.mem_map, eq_comm]

theorem mem_family {name n : Text} :
    n ∈ family name ↔ n = name ∨ ∃ s ∈ suffixes, n = name ++ s := by
  rw [family, List.mem_cons, mem_derived]

theorem self_mem_family (name : Text) : name ∈ family name := List.mem_cons_self

theorem append_mem_family (name : Text) {s : Text} (h : s ∈ suffixes) : name ++ s ∈ family name :=
  mem_family.2 (.inr ⟨s, h, rfl⟩)

/-- A name with a suffix tells the name and the suffix. -/
theorem nodup_flatMap_derived {names : List Text} (h : names.Nodup) :
    (names.flatMap derived).Nodup := by
  have hn : suffixes.Nodup := by decide
  rw [List.nodup_flatMap]
  constructor
  · intro a _
    exact hn.map fun s t h => List.append_cancel_left h
  · apply h.pairwise_of_forall_ne
    intro a _ b _ hne n ha hb
    obtain ⟨s, hs, rfl⟩ := mem_derived.1 ha
    obtain ⟨t, ht, he⟩ := mem_derived.1 hb
    exact hne (eq_of_append_suffix hs ht he).1

theorem family_perm (names : List Text) :
    (names.flatMap family).Perm (names ++ names.flatMap derived) := by
  have sorted := List.map_append_flatMap_perm names id derived
  rw [List.map_id] at sorted
  exact sorted.symm

/-- Collections share a type name only if the name of one is the name of another with a suffix. -/
theorem nodup_flatMap_family_iff {names : List Text} (h : names.Nodup) :
    (names.flatMap family).Nodup ↔
      ∀ a ∈ names, ∀ b ∈ names, ∀ s ∈ suffixes, a ≠ b ++ s := by
  rw [(family_perm names).nodup_iff, List.nodup_append]
  constructor
  · rintro ⟨-, -, apart⟩ a ha b hb s hs
    exact apart a ha _ (List.mem_flatMap.2 ⟨b, hb, mem_derived.2 ⟨s, hs, rfl⟩⟩)
  · intro apart
    refine ⟨h, nodup_flatMap_derived h, ?_⟩
    intro a ha n hn
    obtain ⟨b, hb, hd⟩ := List.mem_flatMap.1 hn
    obtain ⟨s, hs, rfl⟩ := mem_derived.1 hd
    exact apart a ha b hb s hs

/-! ### Usable names -/

theorem usable_append {a s : Text} (ha : Text.Usable a) (hs : s ∈ suffixes) :
    Text.Usable (a ++ s) := by
  have parts : ∀ s ∈ suffixes, s.all Text.isNamePart = true := by decide
  have underscore : ∀ s ∈ suffixes, '_' ∈ s := by decide
  have reserved : ∀ r ∈ Text.reservedTypeNames, '_' ∉ r := by decide
  obtain ⟨hi, _⟩ := ha
  constructor
  · cases a with
    | nil => simp [Text.isIdentifier] at hi
    | cons c cs =>
      rw [Text.isIdentifier, Bool.and_eq_true] at hi
      rw [List.cons_append, Text.isIdentifier, hi.1, List.all_append, hi.2, parts s hs]
      rfl
  · rw [Bool.eq_false_iff]
    intro hr
    have hm : a ++ s ∈ Text.reservedTypeNames := by simpa [Text.isReservedTypeName] using hr
    exact reserved _ hm (List.mem_append_right a (underscore s hs))

theorem usable_of_mem_family {a n : Text} (ha : Text.Usable a) (hn : n ∈ family a) :
    Text.Usable n := by
  rcases mem_family.1 hn with rfl | ⟨s, hs, rfl⟩
  · exact ha
  · exact usable_append ha hs

/-- A driver type is no type name of a collection, unless it is the name of the collection. -/
theorem mem_family_of_mem_types {a n : Text} (hn : n ∈ Driver.types) (hf : n ∈ family a) :
    n = a := by
  have plain : ∀ t ∈ Driver.types, '_' ∉ t := by decide
  have underscore : ∀ s ∈ suffixes, '_' ∈ s := by decide
  rcases mem_family.1 hf with rfl | ⟨s, hs, rfl⟩
  · rfl
  · exact absurd (List.mem_append_right a (underscore s hs)) (plain _ hn)

end TypeNames

/-! ### Bound names -/

open TypeNames

theorem flatMap_declaredNames (collections : List Collection) :
    (declarations collections).flatMap DeclarationSet.declaredNames =
      (Collection.generated collections).flatMap family := by
  induction collections with
  | nil => rfl
  | cons c cs ih =>
    unfold declarations Collection.generated at ih ⊢
    cases hf : c.fields with
    | none => simpa [DeclarationSet.ofCollection?, hf] using ih
    | some fields =>
      have hd : DeclarationSet.ofCollection? c =
          some (DeclarationSet.ofFields c.name fields (c.computedFields.getD ∅)) := by
        simp [DeclarationSet.ofCollection?, hf]
      rw [List.filterMap_cons_some hd, List.filter_cons_of_pos (by simp [hf]), List.map_cons,
        List.flatMap_cons, List.flatMap_cons, ih]
      rfl

theorem boundNames_ofCollections (collections : List Collection) (mapping : Text) :
    (Document.ofCollections collections mapping).boundNames =
      Driver.types ++ (Collection.generated collections).flatMap family ++ [mapping] := by
  rw [← flatMap_declaredNames]
  rfl

theorem usable_of_mem_generated {collections : List Collection} (h : ValidNames collections)
    {n : Text} (hn : n ∈ Collection.generated collections) : Text.Usable n := by
  obtain ⟨c, hc, rfl⟩ := List.mem_map.1 hn
  exact h.usable c (List.mem_of_mem_filter hc)

theorem nodup_generated {collections : List Collection} (h : ValidNames collections) :
    (Collection.generated collections).Nodup :=
  h.nodup.sublist (List.filter_sublist.map _)

theorem nodup_types_append_iff {names : List Text} (h : names.Nodup) :
    (Driver.types ++ names.flatMap family).Nodup ↔
      (∀ n ∈ names, n ∉ Driver.types) ∧
        ∀ a ∈ names, ∀ b ∈ names, ∀ s ∈ suffixes, a ≠ b ++ s := by
  have types : Driver.types.Nodup := by decide
  rw [List.nodup_append, nodup_flatMap_family_iff h]
  constructor
  · rintro ⟨_, hs, hd⟩
    refine ⟨?_, hs⟩
    intro n hn ht
    exact hd n ht n (List.mem_flatMap.2 ⟨n, hn, self_mem_family n⟩) rfl
  · rintro ⟨hd, hs⟩
    refine ⟨types, hs, ?_⟩
    rintro n ht m hm rfl
    obtain ⟨a, ha, hf⟩ := List.mem_flatMap.1 hm
    obtain rfl := mem_family_of_mem_types ht hf
    exact hd n ha ht

/-- For accepted collections every bound name is usable except perhaps that of the mapping
interface, and two bound names are the same only in one of three cases: a collection is called like
a driver type, or like another collection with a suffix, or the mapping interface like any of these
types. -/
theorem boundNames_of_validated {source : Source} {collections accepted : List Collection}
    (h : Collection.validated source collections = .ok accepted) (output : OutputSettings) :
    let bound := (Document.ofCollections accepted output.mappingInterface).boundNames
    let names := Collection.generated accepted
    (∀ n ∈ Driver.types ++ names.flatMap family, n ∈ bound ∧ Text.Usable n) ∧
      ((∀ n ∈ bound, Text.Usable n) ↔ Text.Usable output.mappingInterface) ∧
      (bound.Nodup ↔
        (∀ n ∈ names, n ∉ Driver.types) ∧
          (∀ a ∈ names, ∀ b ∈ names, ∀ s ∈ suffixes, a ≠ b ++ s) ∧
          output.mappingInterface ∉ Driver.types ++ names.flatMap family) := by
  obtain ⟨rfl, hv⟩ := Collection.validated_eq_ok_iff.1 h
  intro bound names
  have hb : bound = Driver.types ++ names.flatMap family ++ [output.mappingInterface] :=
    boundNames_ofCollections accepted output.mappingInterface
  have types : ∀ n ∈ Driver.types, Text.Usable n := by decide
  have usable : ∀ n ∈ Driver.types ++ names.flatMap family, Text.Usable n := by
    intro n hn
    rcases List.mem_append.1 hn with ht | hf
    · exact types n ht
    · obtain ⟨a, ha, hf⟩ := List.mem_flatMap.1 hf
      exact usable_of_mem_family (usable_of_mem_generated hv ha) hf
  rw [hb]
  refine ⟨?_, ?_, ?_⟩
  · intro n hn
    exact ⟨List.mem_append_left _ hn, usable n hn⟩
  · constructor
    · intro hu
      exact hu _ (by simp)
    · intro hm n hn
      rcases List.mem_append.1 hn with hn | hn
      · exact usable n hn
      · rwa [List.mem_singleton.1 hn]
  · have last : (Driver.types ++ names.flatMap family ++ [output.mappingInterface]).Nodup ↔
        (Driver.types ++ names.flatMap family).Nodup ∧
          output.mappingInterface ∉ Driver.types ++ names.flatMap family := by
      rw [← List.concat_eq_append, List.nodup_concat, and_comm]
    rw [last, nodup_types_append_iff (nodup_generated hv), and_assoc]

/-- Two collections with fields and one without, under the usual interface name. -/
theorem boundNames_of_validated_standard :
    let source : Source := ⟨"schema", []⟩
    let collections : List Collection :=
      [⟨"User", some ∅, none⟩, ⟨"User_Create", none, none⟩, ⟨"Post", some ∅, some ∅⟩]
    let bound :=
      (Document.ofCollections collections OutputSettings.standard.mappingInterface).boundNames
    Collection.validated source collections = .ok collections ∧
      bound.Nodup ∧ ∀ n ∈ bound, Text.Usable n := by
  intro source collections bound
  have h : Collection.validated source collections = .ok collections := by decide
  obtain ⟨_, usable, nodup⟩ := boundNames_of_validated h OutputSettings.standard
  exact ⟨h, nodup.2 (by decide), usable.2 (by decide)⟩

/-- Loading a dump does not keep the bound names distinct and usable: a collection may be called
like an imported type. -/
theorem not_forall_ofDump_boundNames :
    ¬ ∀ (format : DumpFormat) (source : Source) (collections : List Collection)
        (output : OutputSettings), Collection.ofDump format source = .ok collections →
      let bound := (Document.ofCollections collections output.mappingInterface).boundNames
      bound.Nodup ∧ ∀ n ∈ bound, Text.Usable n := by
  intro h
  have loaded : Collection.ofDump .json
      ⟨"schema", "[\x7b\"name\":\"DateStub\",\"fields\":\x7b\x7d\x7d]"⟩ =
        .ok [⟨"DateStub", some ∅, none⟩] := by
    decide +kernel
  have nodup := (h .json _ _ .standard loaded).1
  exact absurd nodup (by decide)

end CollectionTypes
