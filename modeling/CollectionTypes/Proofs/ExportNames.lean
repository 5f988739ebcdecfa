import CollectionTypes.Proofs.DocumentLines

/-!
# Names that are exported twice

The export of a document lists the seven type names of every collection with fields. Sorted by kind
these are the names of the collections and the names with a suffix. Neither kind has a name twice:
the names of the collections because they are checked, and the names with a suffix because no
suffix ends in another one. So a name that is exported twice is of both kinds, and no name is
exported more often.
-/

namespace CollectionTypes

/-- A name counts once as the name of a collection and once as one with a suffix. -/
theorem TypeNames.count_flatMap_family {names : List Text} (h : names.Nodup) (n : Text) :
    (names.flatMap family).count n =
      (if n ∈ names then 1 else 0) + if n ∈ names.flatMap derived then 1 else 0 := by
  rw [(family_perm names).count_eq, List.count_append, h.count, (nodup_flatMap_derived h).count]

theorem Collection.mem_generated {collections : List Collection} {n : Text} :
    n ∈ generated collections ↔ ∃ c ∈ collections, c.fields.isSome ∧ c.name = n := by
  simp only [generated, List.mem_map, List.mem_filter, and_assoc]

/-- For accepted collections every exported name is an identifier and not reserved. Some name is
exported twice if and only if a collection with fields is called like another one with a suffix, and
no name is exported more than twice. -/
theorem exported_of_validated {source : Source} {collections accepted : List Collection}
    (h : Collection.validated source collections = .ok accepted) (mapping : Text) :
    let exported := (Document.ofCollections accepted mapping).exported.names
    (∀ n ∈ exported, Text.Usable n) ∧
      (¬ exported.Nodup ↔ ∃ a ∈ accepted, ∃ b ∈ accepted, a.fields.isSome ∧ b.fields.isSome ∧
        a ≠ b ∧ ∃ s ∈ TypeNames.suffixes, a.name = b.name ++ s) ∧
      ∀ n, exported.count n ≤ 2 := by
  obtain ⟨rfl, valid⟩ := Collection.validated_eq_ok_iff.1 h
  intro exported
  have families : exported = (Collection.generated accepted).flatMap TypeNames.family :=
    exportNames_declarations accepted
  have distinct := nodup_generated valid
  rw [families]
  refine ⟨?_, ?_, ?_⟩
  · intro n hn
    obtain ⟨a, ha, hf⟩ := List.mem_flatMap.1 hn
    exact TypeNames.usable_of_mem_family (usable_of_mem_generated valid ha) hf
  · rw [TypeNames.nodup_flatMap_family_iff distinct]
    constructor
    · intro twice
      push Not at twice
      obtain ⟨n, hn, m, hm, s, hs, he⟩ := twice
      obtain ⟨a, ha, fieldsA, rfl⟩ := Collection.mem_generated.1 hn
      obtain ⟨b, hb, fieldsB, rfl⟩ := Collection.mem_generated.1 hm
      refine ⟨a, ha, b, hb, fieldsA, fieldsB, ?_, s, hs, he⟩
      rintro rfl
      exact TypeNames.ne_append_suffix hs he
    · rintro ⟨a, ha, b, hb, fieldsA, fieldsB, -, s, hs, he⟩ apart
      have hn := Collection.mem_generated.2 ⟨a, ha, fieldsA, rfl⟩
      have hm := Collection.mem_generated.2 ⟨b, hb, fieldsB, rfl⟩
      exact apart a.name hn b.name hm s hs he
  · intro n
    rw [TypeNames.count_flatMap_family distinct]
    split_ifs <;> decide

/-- A collection that takes the name of another one's create type, and one that would take the name
of an update type but has no fields. -/
theorem exported_of_validated_create :
    let collections : List Collection :=
      [⟨"User", some ∅, none⟩, ⟨"User_Create", some ∅, none⟩, ⟨"User_Update", none, none⟩]
    let exported := (Document.ofCollections collections "Types").exported.names
    Collection.validated ⟨"schema", []⟩ collections = .ok collections ∧
      (∀ n ∈ exported, Text.Usable n) ∧ ¬ exported.Nodup := by
  intro collections exported
  have h : Collection.validated ⟨"schema", []⟩ collections = .ok collections := by decide
  obtain ⟨usable, twice, -⟩ := exported_of_validated h "Types"
  refine ⟨h, usable, twice.2 ?_⟩
  exact ⟨_, List.mem_cons_of_mem _ List.mem_cons_self, _, List.mem_cons_self, rfl, rfl,
    by decide, "_Create", by decide, rfl⟩

end CollectionTypes
