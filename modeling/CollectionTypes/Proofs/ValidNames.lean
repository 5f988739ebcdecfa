import CollectionTypes.Dump.Load
import Mathlib.Tactic.SplitIfs

/-!
# Lists of collections that are accepted

A list of collections passes the check of its names exactly if every name is usable and no name
occurs twice. What the check lets through is the list itself.
-/

namespace CollectionTypes

/-- An identifier that is no built-in type name. -/
def Text.Usable (name : Text) : Prop :=
  Text.isIdentifier name = true ∧ Text.isReservedTypeName name = false

instance : DecidablePred Text.Usable := fun name =>
  inferInstanceAs (Decidable (Text.isIdentifier name = true ∧ Text.isReservedTypeName name = false))

/-- The names of a list of collections are usable and distinct. -/
structure ValidNames (collections : List Collection) : Prop where
  usable : ∀ c ∈ collections, Text.Usable c.name
  nodup : (collections.map Collection.name).Nodup

theorem validNames_nil : ValidNames [] := ⟨by simp, by simp⟩

theorem validNames_cons_iff {c : Collection} {cs : List Collection} :
    ValidNames (c :: cs) ↔
      Text.Usable c.name ∧ ValidNames cs ∧ ∀ d ∈ cs, d.name ≠ c.name := by
  constructor
  · rintro ⟨hu, hn⟩
    rw [List.map_cons, List.nodup_cons] at hn
    refine ⟨hu c (by simp), ⟨fun d hd => hu d (by simp [hd]), hn.2⟩, ?_⟩
    intro d hd he
    exact hn.1 (List.mem_map.2 ⟨d, hd, he⟩)
  · rintro ⟨hc, hv, hne⟩
    constructor
    · intro d hd
      rcases List.mem_cons.1 hd with rfl | hd
      · exact hc
      · exact hv.usable d hd
    · rw [List.map_cons, List.nodup_cons]
      refine ⟨?_, hv.nodup⟩
      intro hm
      obtain ⟨d, hd, he⟩ := List.mem_map.1 hm
      exact hne d hd he

namespace NameFault

theorem firstAfter?_eq_none_iff {before : List Text} {collections : List Collection} :
    firstAfter? before collections = none ↔
      ValidNames collections ∧ ∀ c ∈ collections, c.name ∉ before := by
  induction collections generalizing before with
  | nil =>
    constructor
    · intro _
      exact ⟨validNames_nil, by simp⟩
    · intro _
      rfl
  | cons c cs ih =>
    have apart : (∀ d ∈ cs, d.name ∉ before ++ [c.name]) ↔
        (∀ d ∈ cs, d.name ≠ c.name) ∧ ∀ d ∈ cs, d.name ∉ before := by
      simp only [List.mem_append, List.mem_singleton, not_or, ← forall_and]
      exact forall₂_congr fun d _ => and_comm
    have member : (∀ d ∈ c :: cs, d.name ∉ before) ↔
        c.name ∉ before ∧ ∀ d ∈ cs, d.name ∉ before := List.forall_mem_cons
    rw [validNames_cons_iff, member, firstAfter?]
    cases hd : NameDefect.ofName? c.name with
    | some defect =>
      have hn : ¬ Text.Usable c.name := by
        intro hu
        rw [NameDefect.ofName?_eq_none_iff.2 hu] at hd
        exact absurd hd (by simp)
      simp [hn]
    | none =>
      have hu : Text.Usable c.name := NameDefect.ofName?_eq_none_iff.1 hd
      by_cases he : c.name ∈ before
      · simp [he, List.count_pos_iff.2 he]
      · rw [if_neg fun h => he (List.count_pos_iff.1 h), ih, apart]
        constructor
        · rintro ⟨hv, hne, hb⟩
          exact ⟨⟨hu, hv, hne⟩, he, hb⟩
        · rintro ⟨⟨_, hv, hne⟩, _, hb⟩
          exact ⟨hv, hne, hb⟩

theorem first?_eq_none_iff {collections : List Collection} :
    first? collections = none ↔ ValidNames collections := by
  rw [first?, firstAfter?_eq_none_iff]
  simp

end NameFault

namespace Collection

theorem validated_eq_ok_iff {source : Source} {collections cs : List Collection} :
    validated source collections = .ok cs ↔ cs = collections ∧ ValidNames collections := by
  rw [← NameFault.first?_eq_none_iff]
  unfold validated
  cases NameFault.first? collections with
  | none => simp [eq_comm]
  | some fault => simp

theorem validated_eq_error_iff {source : Source} {collections : List Collection} {e : LoadError} :
    validated source collections = .error e ↔
      ∃ fault, NameFault.first? collections = some fault ∧ e = .name source fault := by
  unfold validated
  cases NameFault.first? collections with
  | none => simp
  | some fault => simp [eq_comm]

theorem ofDump_eq_ok_iff {format : DumpFormat} {source : Source} {cs : List Collection} :
    ofDump format source = .ok cs ↔ format.describedBy source = .ok cs ∧ ValidNames cs := by
  unfold ofDump
  cases format.describedBy source with
  | error e => simp
  | ok collections =>
    simp only [validated_eq_ok_iff, Except.ok.injEq]
    constructor
    · rintro ⟨rfl, hv⟩
      exact ⟨rfl, hv⟩
    · rintro ⟨rfl, hv⟩
      exact ⟨rfl, hv⟩

end Collection
end CollectionTypes
