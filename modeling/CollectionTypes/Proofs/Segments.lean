import CollectionTypes.Proofs.LanguageReading
import CollectionTypes.Proofs.Origin

/-!
# Segments of a rendered type

A signature is rendered as a sequence of segments that does not depend on the mode: texts that are
the same for every use, and targets of references. Only the targets look different from mode to
mode, so texts without a reference have one type.
-/

namespace CollectionTypes

/-- A part of a type: a text, or the target of a reference. -/
inductive Segment where
  | literal (text : Text)
  | target (text : Text)
deriving DecidableEq, Repr

namespace Segment

def text (mode : Mode) : Segment → Text
  | literal t => t
  | target t => Language.referenceType mode t

/-- The type that consists of these segments. -/
def joined (mode : Mode) (segments : List Segment) : Text := segments.flatMap (text mode)

end Segment

namespace Signature

/-- The segments of an object type with these members. -/
def objectSegments : List (List Segment) → List Segment
  | [] => [.literal "\x7b\x7d"]
  | p :: ps =>
    .literal "\x7b " :: ([Segment.literal "; "].intercalate (p :: ps) ++ [.literal " \x7d"])

mutual

def segments : Signature → List Segment
  | .scalar s => [.literal s.typeName]
  | .named name => [.literal name]
  | .array element => .literal arrayOpening :: (segments element ++ [.literal ['>']])
  | .reference target => [.target target]
  | .object properties => objectSegments (propertySegments properties)
  | .union alternatives =>
    [Segment.literal alternativeSeparator].intercalate (alternativeSegments alternatives)

def alternativeSegments : List Signature → List (List Segment)
  | [] => []
  | s :: ss => segments s :: alternativeSegments ss

def propertySegments : List (Property Signature) → List (List Segment)
  | [] => []
  | .typed name value :: ps =>
    (.literal name :: .literal nameSeparator :: segments value) :: propertySegments ps
  | .bare text :: ps => [.literal text] :: propertySegments ps

end

/-! ### Rendering by segments -/

theorem joined_objectSegments (mode : Mode) (ps : List (List Segment)) :
    Segment.joined mode (objectSegments ps) = renderObject (ps.map (Segment.joined mode)) := by
  cases ps with
  | nil => rfl
  | cons p ps =>
    have inside := flatMap_intercalate (Segment.text mode) [.literal "; "] (p :: ps)
    rw [List.map_cons] at inside ⊢
    rw [renderObject, Text.joined_eq_intercalate, objectSegments, Segment.joined,
      List.flatMap_cons, List.flatMap_append, inside, List.append_assoc]
    simp [Segment.text]
    rfl

mutual

theorem render_eq_joined_segments (mode : Mode) :
    ∀ s : Signature, render mode s = Segment.joined mode (segments s)
  | .scalar s => by simp [render, segments, Segment.joined, Segment.text]
  | .named name => by simp [render, segments, Segment.joined, Segment.text]
  | .array element => by
    simp [render, segments, Segment.joined, Segment.text, render_eq_joined_segments mode element]
  | .reference target => by
    simp [render, segments, Segment.joined, Segment.text,
      Language.renderReference_eq_referenceType]
  | .object properties => by
    rw [render, segments, joined_objectSegments, renderProperties_eq_map_joined mode properties]
  | .union alternatives => by
    rw [render, segments, Segment.joined, flatMap_intercalate, Text.joined_eq_intercalate,
      renderAll_eq_map_joined mode alternatives]
    simp [Segment.text]
    rfl

theorem renderAll_eq_map_joined (mode : Mode) :
    ∀ ss : List Signature,
      renderAll mode ss = (alternativeSegments ss).map (Segment.joined mode)
  | [] => rfl
  | s :: ss => by
    rw [renderAll, alternativeSegments, List.map_cons, render_eq_joined_segments mode s,
      renderAll_eq_map_joined mode ss]

theorem renderProperties_eq_map_joined (mode : Mode) :
    ∀ ps : List (Property Signature),
      renderProperties mode ps = (propertySegments ps).map (Segment.joined mode)
  | [] => rfl
  | .typed name value :: ps => by
    rw [renderProperties, propertySegments, List.map_cons, render_eq_joined_segments mode value,
      renderProperties_eq_map_joined mode ps]
    simp [Segment.joined, Segment.text]
  | .bare text :: ps => by
    rw [renderProperties, propertySegments, List.map_cons,
      renderProperties_eq_map_joined mode ps]
    simp [Segment.joined, Segment.text]

end

/-! ### Where the segments come from -/

/-- The texts that are part of types whatever the signature is. -/
def fixedTexts : List Text :=
  [arrayOpening, ['>'], "\x7b\x7d", "\x7b ", "; ", " \x7d", alternativeSeparator, nameSeparator] ++
    Scalar.all.map Scalar.typeName

/-- A literal segment is a fixed text or a piece of `s`, and a target is one in `s`. -/
def SegmentFrom (s : Text) : Segment → Prop
  | .literal t => t ∈ fixedTexts ∨ t <:+: s
  | .target t => IsTarget s t

theorem segmentFrom_fixed {t : Text} (h : t ∈ fixedTexts) (s : Text) :
    SegmentFrom s (.literal t) := Or.inl h

theorem exists_of_mem_alternativeSegments {ss : List Signature} {xs : List Segment}
    (h : xs ∈ alternativeSegments ss) : ∃ g ∈ ss, xs = segments g := by
  induction ss with
  | nil => simp [alternativeSegments] at h
  | cons g ss ih =>
    rw [alternativeSegments, List.mem_cons] at h
    rcases h with rfl | h
    · exact ⟨g, by simp, rfl⟩
    · obtain ⟨g', hg, rfl⟩ := ih h
      exact ⟨g', List.mem_cons_of_mem g hg, rfl⟩

theorem exists_of_mem_propertySegments {ps : List (Property Signature)} {xs : List Segment}
    (h : xs ∈ propertySegments ps) :
    (∃ name value, .typed name value ∈ ps ∧
        xs = .literal name :: .literal nameSeparator :: segments value) ∨
      ∃ text, .bare text ∈ ps ∧ xs = [.literal text] := by
  induction ps with
  | nil => simp [propertySegments] at h
  | cons p ps ih =>
    have later (h : xs ∈ propertySegments ps) :
        (∃ name value, .typed name value ∈ p :: ps ∧
            xs = .literal name :: .literal nameSeparator :: segments value) ∨
          ∃ text, .bare text ∈ p :: ps ∧ xs = [.literal text] := by
      rcases ih h with ⟨n, v, hp, rfl⟩ | ⟨t, ht, rfl⟩
      · exact Or.inl ⟨n, v, List.mem_cons_of_mem _ hp, rfl⟩
      · exact Or.inr ⟨t, List.mem_cons_of_mem _ ht, rfl⟩
    cases p with
    | typed name value =>
      rw [propertySegments, List.mem_cons] at h
      rcases h with rfl | h
      · exact Or.inl ⟨name, value, by simp, rfl⟩
      · exact later h
    | bare text =>
      rw [propertySegments, List.mem_cons] at h
      rcases h with rfl | h
      · exact Or.inr ⟨text, by simp, rfl⟩
      · exact later h

theorem segmentFrom_of_mem_objectSegments {s : Text} {xss : List (List Segment)}
    (h : ∀ xs ∈ xss, ∀ x ∈ xs, SegmentFrom s x) : ∀ x ∈ objectSegments xss, SegmentFrom s x := by
  intro x hx
  cases xss with
  | nil =>
    rw [objectSegments, List.mem_singleton] at hx
    rw [hx]
    exact segmentFrom_fixed (by decide) s
  | cons xs xss =>
    rw [objectSegments, List.mem_cons, List.mem_append, List.mem_singleton] at hx
    rcases hx with rfl | hx | rfl
    · exact segmentFrom_fixed (by decide) s
    · rcases mem_of_mem_intercalate hx with hx | ⟨ys, hys, hx⟩
      · rw [List.mem_singleton.1 hx]
        exact segmentFrom_fixed (by decide) s
      · exact h ys hys x hx
    · exact segmentFrom_fixed (by decide) s

theorem From.segmentFrom {s : Text} {g : Signature} (h : From s g) :
    ∀ x ∈ segments g, SegmentFrom s x := by
  induction h with
  | scalar k =>
    intro x hx
    rw [segments, List.mem_singleton] at hx
    rw [hx]
    exact segmentFrom_fixed (List.mem_append_right _ (List.mem_map.2 ⟨k, k.mem_all, rfl⟩)) s
  | named hn =>
    intro x hx
    rw [segments, List.mem_singleton] at hx
    rw [hx]
    exact Or.inr hn
  | array _ ih =>
    intro x hx
    rw [segments, List.mem_cons, List.mem_append, List.mem_singleton] at hx
    rcases hx with rfl | hx | rfl
    · exact segmentFrom_fixed (by decide) s
    · exact ih x hx
    · exact segmentFrom_fixed (by decide) s
  | reference ht =>
    intro x hx
    rw [segments, List.mem_singleton] at hx
    rw [hx]
    exact ht
  | object hn _ hb ih =>
    rw [segments]
    apply segmentFrom_of_mem_objectSegments
    intro xs hxs x hx
    rcases exists_of_mem_propertySegments hxs with ⟨name, value, hp, rfl⟩ | ⟨text, ht, rfl⟩
    · rw [List.mem_cons, List.mem_cons] at hx
      rcases hx with rfl | rfl | hx
      · exact Or.inr (hn name value hp)
      · exact segmentFrom_fixed (by decide) s
      · exact ih name value hp x hx
    · rw [List.mem_singleton.1 hx]
      exact Or.inr (hb text ht)
  | union _ ih =>
    intro x hx
    rw [segments] at hx
    rcases mem_of_mem_intercalate hx with hx | ⟨xs, hxs, hx⟩
    · rw [List.mem_singleton.1 hx]
      exact segmentFrom_fixed (by decide) s
    · obtain ⟨g, hg, rfl⟩ := exists_of_mem_alternativeSegments hxs
      exact ih g hg x hx

end Signature

/-! ### The modes of a text -/

theorem Segment.joined_eq_of_no_target {segments : List Segment}
    (h : ∀ t, Segment.target t ∉ segments) (mode mode' : Mode) :
    joined mode segments = joined mode' segments := by
  apply List.flatMap_congr
  intro x hx
  cases x with
  | literal t => rfl
  | target t => exact absurd hx (h t)

/-- The types of a text in the three modes are one sequence of segments, whose targets stand in the
text between `Ref<` and a closing bracket. Without `Ref<` in the text they are the same. -/
theorem Signature.typeText_eq_joined_segments (s : Text) :
    (∃ segments : List Segment,
      (∀ t, .target t ∈ segments → IsTarget s t) ∧
        ∀ mode, typeText mode s = Segment.joined mode segments) ∧
      (¬ "Ref<".toList <:+: s → ∀ mode mode', typeText mode s = typeText mode' s) := by
  have parts (mode : Mode) : typeText mode s = Segment.joined mode (segments (read s)) :=
    render_eq_joined_segments mode (read s)
  have targets : ∀ t, .target t ∈ segments (read s) → IsTarget s t := by
    intro t ht
    exact (from_read s).segmentFrom _ ht
  refine ⟨⟨_, targets, parts⟩, ?_⟩
  intro h mode mode'
  rw [parts, parts]
  apply Segment.joined_eq_of_no_target
  intro t ht
  obtain ⟨inner, hi, _⟩ := targets t ht
  rw [List.append_assoc] at hi
  exact h ((List.prefix_append _ _).isInfix.trans hi)

end CollectionTypes
