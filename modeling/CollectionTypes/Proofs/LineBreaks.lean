import CollectionTypes.Proofs.DocumentLines

/-!
# Line breaks in the generated document

A line of the document has a line break only if a name or a signature in it has one: rendering
writes none of its own. For collections without line breaks the generated text can therefore be cut
at its line breaks, and what comes out is the specified document.
-/

namespace CollectionTypes

open DocumentLines

theorem Text.OneLine.of_isInfix {t u : Text} (h : OneLine u) (hi : t <:+: u) : OneLine t := by
  intro ht
  exact h (hi.subset ht)

theorem Signature.oneLine_fixedTexts : ∀ t ∈ fixedTexts, Text.OneLine t := by decide

theorem oneLine_referenceType {t : Text} (h : Text.OneLine t) (mode : Mode) :
    Text.OneLine (Language.referenceType mode t) := by
  cases mode with
  | main => exact h
  | create => exact Text.oneLine_append_iff.2 ⟨h, by decide⟩
  | faunaCreate =>
    show Text.OneLine "DocumentReference"
    decide

/-- Rendering adds no line break to those of the text that was read. -/
theorem Signature.From.oneLine_render {s : Text} {g : Signature} (h : From s g)
    (hs : Text.OneLine s) (mode : Mode) : Text.OneLine (render mode g) := by
  rw [render_eq_joined_segments]
  intro hn
  obtain ⟨x, hx, hn⟩ := List.mem_flatMap.1 hn
  have hf := h.segmentFrom x hx
  cases x with
  | literal t =>
    rcases hf with hf | hf
    · exact oneLine_fixedTexts t hf hn
    · exact hs.of_isInfix hf hn
  | target t =>
    obtain ⟨inner, hi, _, rfl⟩ := hf
    have inside : inner <:+: "Ref<".toList ++ inner ++ ['>'] := List.infix_append _ _ _
    have target := (Text.trim_isInfix inner).trans (inside.trans hi)
    exact oneLine_referenceType (hs.of_isInfix target) mode hn

/-- The names and signatures of these fields. -/
def Signatures.OneLine (signatures : Signatures) : Prop :=
  ∀ e ∈ signatures.entries, Text.OneLine e.1 ∧ Text.OneLine e.2

/-- A collection whose name and whose fields' names and signatures have no line break. -/
structure Collection.OneLine (c : Collection) : Prop where
  name : Text.OneLine c.name
  fields : ∀ signatures ∈ c.fields, Signatures.OneLine signatures
  computedFields : ∀ signatures ∈ c.computedFields, Signatures.OneLine signatures

instance : DecidablePred Signatures.OneLine := fun signatures =>
  inferInstanceAs (Decidable (∀ e ∈ signatures.entries, Text.OneLine e.1 ∧ Text.OneLine e.2))

instance : DecidablePred Collection.OneLine := fun c =>
  decidable_of_iff
    (Text.OneLine c.name ∧ (∀ signatures ∈ c.fields, Signatures.OneLine signatures) ∧
      ∀ signatures ∈ c.computedFields, Signatures.OneLine signatures)
    ⟨fun ⟨hn, hf, hc⟩ => ⟨hn, hf, hc⟩, fun h => ⟨h.name, h.fields, h.computedFields⟩⟩

namespace DocumentLines

theorem oneLine_braced {opening ending : Text} {members : List Text}
    (ho : Text.OneLine opening) (he : Text.OneLine ending) (h : ∀ t ∈ members, Text.OneLine t) :
    ∀ t ∈ braced opening members ending, Text.OneLine t := by
  intro t ht
  unfold braced at ht
  split at ht
  next =>
    rw [List.mem_singleton.1 ht]
    simp only [Text.oneLine_append_iff]
    exact ⟨⟨ho, by decide⟩, he⟩
  next =>
    rw [List.mem_cons, List.mem_append, List.mem_singleton] at ht
    rcases ht with rfl | ht | rfl
    · exact Text.oneLine_append_iff.2 ⟨ho, by decide⟩
    · exact h t ht
    · exact Text.oneLine_append_iff.2 ⟨by decide, he⟩

theorem oneLine_member {name signature : Text} (hn : Text.OneLine name)
    (hs : Text.OneLine signature) (mode : Mode) : Text.OneLine (member mode name signature) := by
  have type : Text.OneLine ((Signature.ofField signature).render mode) :=
    (Signature.from_ofField signature).oneLine_render hs mode
  have mark : Text.OneLine (if (stripOptional signature).2 then ['?'] else []) := by
    split <;> decide
  unfold member
  simp only [Text.oneLine_append_iff]
  exact ⟨⟨⟨⟨⟨by decide, hn⟩, mark⟩, by decide⟩, type⟩, by decide⟩

theorem oneLine_members {signatures : Signatures} (h : signatures.OneLine) (mode : Mode) :
    ∀ t ∈ members mode signatures, Text.OneLine t := by
  intro t ht
  obtain ⟨e, he, rfl⟩ := List.mem_map.1 ht
  exact oneLine_member (h e he).1 (h e he).2 mode

theorem oneLine_objectType {name : Text} {members : List Text} (hn : Text.OneLine name)
    (h : ∀ t ∈ members, Text.OneLine t) : ∀ t ∈ objectType name members, Text.OneLine t := by
  apply oneLine_braced
  · simp only [Text.oneLine_append_iff]
    exact ⟨⟨by decide, hn⟩, by decide⟩
  · decide
  · exact h

theorem oneLine_aliasType {name type : Text} (hn : Text.OneLine name) (ht : Text.OneLine type) :
    Text.OneLine (aliasType name type) := by
  unfold aliasType
  simp only [Text.oneLine_append_iff]
  exact ⟨⟨⟨⟨by decide, hn⟩, by decide⟩, ht⟩, by decide⟩

theorem oneLine_inputTypes {create update replace : Text} {members : List Text}
    (hc : Text.OneLine create) (hu : Text.OneLine update) (hr : Text.OneLine replace)
    (h : ∀ t ∈ members, Text.OneLine t) :
    ∀ t ∈ inputTypes create update replace members, Text.OneLine t := by
  intro t ht
  rcases List.mem_append.1 ht with ht | ht
  · exact oneLine_objectType hc h t ht
  · rw [List.mem_cons, List.mem_singleton] at ht
    rcases ht with rfl | rfl
    · apply oneLine_aliasType hu
      simp only [Text.oneLine_append_iff]
      exact ⟨⟨by decide, hc⟩, by decide⟩
    · exact oneLine_aliasType hr hc

theorem oneLine_block {name : Text} {fields computed : Signatures} (hn : Text.OneLine name)
    (hf : fields.OneLine) (hc : computed.OneLine) :
    ∀ t ∈ block name fields computed, Text.OneLine t := by
  have suffixed (s : Text) (hs : Text.OneLine s) : Text.OneLine (name ++ s) :=
    Text.oneLine_append_iff.2 ⟨hn, hs⟩
  have doc : Text.OneLine (docLine name) := by
    unfold docLine
    simp only [Text.oneLine_append_iff]
    exact ⟨⟨by decide, hn⟩, by decide⟩
  have main : ∀ t ∈ members .main fields ++ members .main computed, Text.OneLine t := by
    intro t ht
    rcases List.mem_append.1 ht with ht | ht
    · exact oneLine_members hf .main t ht
    · exact oneLine_members hc .main t ht
  intro t ht
  unfold block at ht
  simp only [List.cons_append, List.mem_cons, List.mem_append, List.not_mem_nil, or_false] at ht
  rcases ht with rfl | (((ht | rfl) | ht) | rfl) | ht
  · exact doc
  · exact oneLine_objectType hn main t ht
  · decide
  · exact oneLine_inputTypes (suffixed _ (by decide)) (suffixed _ (by decide))
      (suffixed _ (by decide)) (oneLine_members hf .create) t ht
  · decide
  · exact oneLine_inputTypes (suffixed _ (by decide)) (suffixed _ (by decide))
      (suffixed _ (by decide)) (oneLine_members hf .faunaCreate) t ht

theorem oneLine_of_mem_family {name : Text} (hn : Text.OneLine name) :
    ∀ t ∈ TypeNames.family name, Text.OneLine t := by
  have suffixes : ∀ s ∈ TypeNames.suffixes, Text.OneLine s := by decide
  intro t ht
  rcases TypeNames.mem_family.1 ht with rfl | ⟨s, hs, rfl⟩
  · exact hn
  · exact Text.oneLine_append_iff.2 ⟨hn, suffixes s hs⟩

theorem oneLine_mappingMember {name : Text} (hn : Text.OneLine name) :
    Text.OneLine (mappingMember name) := by
  unfold mappingMember mappingType
  simp only [Text.oneLine_append_iff, hn, true_and, and_true]
  decide

theorem oneLine_exportLines {names : List Text} (h : ∀ name ∈ names, Text.OneLine name) :
    ∀ t ∈ exportLines names, Text.OneLine t := by
  intro t ht
  unfold exportLines at ht
  split at ht
  next => simp at ht
  next =>
    rw [List.mem_cons, List.mem_singleton] at ht
    rcases ht with rfl | rfl
    · decide
    · simp only [Text.oneLine_append_iff]
      refine ⟨⟨by decide, ?_⟩, by decide⟩
      intro hn
      rcases mem_of_mem_intercalate hn with hn | ⟨u, hu, hn⟩
      · exact absurd hn (by decide)
      · obtain ⟨name, hname, hu⟩ := List.mem_flatMap.1 hu
        exact oneLine_of_mem_family (h name hname) u hu hn

end DocumentLines

/-- Every line is in one piece. -/
theorem oneLine_documentLines {collections : List Collection} {mappingInterface : Text}
    (hc : ∀ c ∈ collections, c.OneLine) (hm : Text.OneLine mappingInterface) :
    ∀ t ∈ documentLines collections mappingInterface, Text.OneLine t := by
  have names : ∀ name ∈ Collection.generated collections, Text.OneLine name := by
    intro name hn
    obtain ⟨c, hl, rfl⟩ := List.mem_map.1 hn
    exact (hc c (List.mem_filter.1 hl).1).name
  intro t ht
  unfold documentLines at ht
  simp only [List.mem_append] at ht
  rcases ht with ((ht | ht) | ht) | ht
  · have head : ∀ t ∈ header, Text.OneLine t := by decide
    exact head t ht
  · obtain ⟨lines, hl, ht⟩ := List.mem_flatMap.1 ht
    obtain ⟨c, hmem, hl⟩ := List.mem_filterMap.1 hl
    obtain ⟨fields, hf, rfl⟩ := Option.map_eq_some_iff.1 hl
    have computed : (c.computedFields.getD ∅).OneLine := by
      cases he : c.computedFields with
      | none =>
        intro e hn
        exact absurd hn List.not_mem_nil
      | some signatures => exact (hc c hmem).computedFields signatures he
    rcases List.mem_append.1 ht with ht | ht
    · exact oneLine_block (hc c hmem).name ((hc c hmem).fields fields hf) computed t ht
    · rw [List.mem_singleton.1 ht]
      decide
  · rcases List.mem_cons.1 ht with rfl | ht
    · decide
    · refine oneLine_braced ?_ (by decide) ?_ t ht
      · simp only [Text.oneLine_append_iff]
        exact ⟨⟨by decide, hm⟩, by decide⟩
      · intro u hu
        obtain ⟨name, hn, rfl⟩ := List.mem_map.1 hu
        exact oneLine_mappingMember (names name hn)
  · exact oneLine_exportLines names t ht

/-- Cut at its line breaks, the generated text is the specified document, and an empty text after
its last line. -/
theorem splitOn_generatedText {collections : List Collection} {output : OutputSettings}
    (hc : ∀ c ∈ collections, c.OneLine) (hm : Text.OneLine output.mappingInterface) :
    List.splitOn '\n' (generatedText collections output) =
      documentLines collections output.mappingInterface ++ [[]] := by
  rw [generatedText_eq_ofLines]
  exact Text.splitOn_ofLines (oneLine_documentLines hc hm)

theorem splitOn_generatedText_users :
    let users := ((Collection.new "User").field "friend" "Ref<User>?").computedField "age" "Int"
    let collections := [users, Collection.withoutFields "Audit", Collection.new "Empty"]
    (∀ c ∈ collections, c.OneLine) ∧
      List.splitOn '\n' (generatedText collections OutputSettings.standard) =
        documentLines collections OutputSettings.standard.mappingInterface ++ [[]] := by
  intro users collections
  have hc : ∀ c ∈ collections, c.OneLine := by decide
  exact ⟨hc, splitOn_generatedText hc (by decide)⟩

end CollectionTypes
