import CollectionTypes.Collection.Declarations
import CollectionTypes.Proofs.LanguageReading
import CollectionTypes.Proofs.Markers

/-!
# The type of a field

A field is rendered by a route of its own: the marker is stripped, the outermost array is opened,
and the alternatives inside are read one by one. Reading the signature as a whole strips a marker at
every level before it looks for alternatives. The two agree on every text in which no marker follows
another, whatever its brackets are.
-/

namespace CollectionTypes

theorem Margin.quiet {after : Text} (h : Margin after) : ∀ c ∈ after, Language.Quiet c := by
  cases h with
  | blank ha => exact fun c hc => Language.quiet_of_isBlank (ha c hc)
  | marker hb ha =>
    intro c hc
    rcases List.mem_append.1 hc with hc | hc
    · exact Language.quiet_of_isBlank (hb c hc)
    · rcases List.mem_cons.1 hc with rfl | hc
      · simp [Language.Quiet, Nesting.step]
      · exact Language.quiet_of_isBlank (ha c hc)

theorem Margin.cuts_nowhere {after : Text} (h : Margin after) :
    ∀ c ∈ after, c ≠ '|' ∧ Nesting.step c = 0 :=
  fun c hc => ⟨(h.quiet c hc).1, (h.quiet c hc).2.2.2⟩

namespace Signature

open Nesting

/-! ### The alternatives of a text -/

variable (mode : Mode)

theorem render_alternatives (t : Text) :
    render mode (alternatives t) =
      Text.joined alternativeSeparator ((pieces '|' 0 t).map (typeText mode)) := by
  have trimmed : typeText mode ∘ Text.trim = typeText mode := funext (Language.typeText_trim mode)
  rw [alternatives, render, renderAll_eq_map, splitTopLevel, List.map_map, List.map_map]
  exact congrArg (fun f => Text.joined _ ((pieces '|' 0 t).map f)) trimmed

theorem typeText_blank_append {b : Text} (hb : Text.Blank b) (t : Text) :
    typeText mode (b ++ t) = typeText mode t := by
  rw [← Language.typeText_trim, Text.trim_blank_append hb, Language.typeText_trim]

theorem map_typeText_extendFirst {b : Text} (hb : Text.Blank b) {ps : List Text} (h : ps ≠ []) :
    (extendFirst b ps).map (typeText mode) = ps.map (typeText mode) := by
  obtain ⟨p, ps, rfl⟩ := List.exists_cons_of_ne_nil h
  rw [extendFirst, List.map_cons, List.map_cons, typeText_blank_append mode hb]

/-- What stripping takes away belongs to the first and to the last piece. -/
theorem exists_pieces_stripOptional (s : Text) :
    ∃ before after init last, Text.Blank before ∧ Margin after ∧ last ++ after <:+ s ∧
      pieces '|' 0 (stripOptional s).1 = init ++ [last] ∧
      pieces '|' 0 s = extendFirst before (init ++ [last ++ after]) := by
  obtain ⟨before, after, hb, hm, hs⟩ := exists_margin s
  generalize (stripOptional s).1 = t at hs ⊢
  subst hs
  have sealedBefore : Sealed '|' before := (Language.isAlternative_space ⟨before, hb⟩).sealedBar
  obtain ⟨init, last, hp⟩ := exists_pieces_eq_concat '|' 0 t
  have ht := intercalate_pieces '|' 0 t
  rw [hp, intercalate_append_singleton] at ht
  refine ⟨before, after, init, last, hb, hm, ?_, hp, ?_⟩
  · rw [← ht, List.append_assoc]
    exact (List.suffix_append _ _).trans (List.suffix_append _ _)
  · rw [sealedBefore, pieces_append_of_forall hm.cuts_nowhere, hp, extendLast_append_singleton]

/-- The alternatives are the same whether the text is stripped before it is cut or not. -/
theorem map_typeText_pieces {s : Text} (h : SingleMarkers s) :
    (pieces '|' 0 s).map (typeText mode) =
      (pieces '|' 0 (stripOptional s).1).map (typeText mode) := by
  obtain ⟨before, after, init, last, hb, hm, part, hp, hs⟩ := exists_pieces_stripOptional s
  have final : typeText mode (last ++ after) = typeText mode last :=
    typeText_congr mode ((h.mono part.isInfix).stripOptional_around Text.blank_nil hm)
  rw [hs, hp, map_typeText_extendFirst mode hb (by simp), List.map_append, List.map_append,
    List.map_singleton, List.map_singleton, final]

theorem typeText_stripOptional {s : Text} (h : SingleMarkers s) :
    typeText mode (stripOptional s).1 = typeText mode s := by
  obtain ⟨before, after, hb, hm, hs⟩ := exists_margin s
  apply typeText_congr
  conv_rhs => rw [hs]
  rw [hs] at h
  exact ((h.mono (List.suffix_append _ _).isInfix).stripOptional_around hb hm).symm

theorem typeText_of_hasTopLevel {s : Text} (top : hasTopLevel '|' (stripOptional s).1 = true) :
    typeText mode s =
      Text.joined alternativeSeparator
        ((pieces '|' 0 (stripOptional s).1).map (typeText mode)) := by
  have form : Form.ofText s = .union (splitTopLevel '|' (stripOptional s).1) := by
    simp only [Form.ofText, top, if_true]
  rw [typeText_of_union mode form, ← render_alternatives, alternatives, render, renderAll_eq_map,
    List.map_map]
  rfl

/-- The type of a text is made of the types of its alternatives, also where there is only one. -/
theorem typeText_eq_joined_pieces {s : Text} (h : SingleMarkers s) :
    typeText mode s =
      Text.joined alternativeSeparator ((pieces '|' 0 s).map (typeText mode)) := by
  rw [map_typeText_pieces mode h]
  by_cases top : hasTopLevel '|' (stripOptional s).1 = true
  case pos => exact typeText_of_hasTopLevel mode top
  case neg =>
    have single : pieces '|' 0 (stripOptional s).1 = [(stripOptional s).1] := by
      obtain ⟨p, ps, hp⟩ := List.exists_cons_of_ne_nil (pieces_ne_nil '|' 0 (stripOptional s).1)
      have whole := intercalate_pieces '|' 0 (stripOptional s).1
      rw [hasTopLevel, hp] at top
      cases ps with
      | nil => rw [hp, ← whole, hp, List.intercalate_singleton]
      | cons q qs => simp at top
    rw [single, List.map_singleton, Text.joined, typeText_stripOptional mode h]

end Signature

/-! ### Fields -/

open Signature Nesting

theorem ofText_of_unwrap?_array {s element : Text}
    (h : unwrap? arrayOpening (stripOptional s).1 = some element) :
    Form.ofText s = .array element := by
  obtain ⟨ht, hi⟩ := eq_append_of_unwrap? h
  have word : Language.IsAlternative "Array" := Language.isAlternative_identifier (by decide)
  have hidden : hasTopLevel '|' ("Array".toList ++ '<' :: (element ++ ['>'])) = false :=
    not_hasTopLevel_of_staysInside word.sealedBar (by decide) (by decide) hi
  have top : hasTopLevel '|' (stripOptional s).1 = false := by
    rw [ht, List.append_assoc]
    exact hidden
  have body : Form.body? (stripOptional s).1 = none := by
    rw [ht]
    exact Language.body?_eq_none (by decide) _
  simp only [Form.ofText, top, body, h, Bool.false_eq_true, if_false]

/-- The signature of a field has the type that its text has as a whole. -/
theorem render_ofField (mode : Mode) {s : Text} (h : SingleMarkers s) :
    (ofField s).render mode = typeText mode s := by
  have hs := stripOptional_isInfix s
  unfold ofField
  dsimp only
  split
  next element he =>
    have inner : SingleMarkers element := h.mono ((isInfix_of_unwrap? he).trans hs)
    rw [render, render_alternatives, ← typeText_eq_joined_pieces mode inner,
      typeText_of_array mode (ofText_of_unwrap?_array he)]
  next =>
    rw [render_alternatives, ← typeText_eq_joined_pieces mode (h.mono hs),
      typeText_stripOptional mode h]

/-- A field keeps its name, has the type of its signature, and is optional if that is marked. -/
theorem renderField_eq_typeText (mode : Mode) (name : Text) {signature : Text}
    (h : SingleMarkers signature) :
    renderField mode name signature =
      { name, type := typeText mode signature, optional := decide (Marked signature) } := by
  rw [renderField, render_ofField mode h, stripOptional_snd]

/-- An array with a bracket that is never closed, and a marker on its last alternative. -/
theorem renderField_eq_typeText_unclosed :
    let signature : Text := "Array<Ref<User>? | \x7b at: Time ?> ?"
    SingleMarkers signature ∧
      renderField .create "members" signature =
        ⟨"members", typeText .create signature, decide (Marked signature)⟩ ∧
      typeText .create signature = "Array<User | DocumentReference | \x7b at: Time>".toList ∧
      Marked signature := by
  intro signature
  have h : SingleMarkers signature := by decide
  refine ⟨h, renderField_eq_typeText .create "members" h, ?_, ?_⟩
  · decide +kernel
  · decide

/-- With two markers the route of a field strips both, and reading strips one. -/
example : (renderField .main "age" "Int??").type = "number".toList ∧
    typeText .main "Int??" = "Int?".toList := by
  decide +kernel

end CollectionTypes
