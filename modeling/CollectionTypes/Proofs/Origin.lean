import CollectionTypes.Proofs.Joining
import CollectionTypes.Proofs.Reading
import CollectionTypes.Proofs.Trimming
import Mathlib.Data.List.Infix

/-!
# Where the texts in a signature come from

Reading takes texts apart and trims them, but it writes nothing of its own: every name, target and
property in the signature of a text is a piece of this text, and a target stands in it between
`Ref<` and a closing bracket. That holds of every text, also of one that is no signature of the
language.
-/

namespace CollectionTypes

/-! ### Pieces of a text -/

namespace Text

theorem trimStart_isSuffix (t : Text) : trimStart t <:+ t := List.dropWhile_suffix isBlank

theorem trimEnd_isPrefix (t : Text) : trimEnd t <+: t := by
  rw [← List.reverse_suffix, trimEnd_eq_reverse, List.reverse_reverse]
  exact trimStart_isSuffix t.reverse

theorem trim_isInfix (t : Text) : trim t <:+: t :=
  (trimEnd_isPrefix (trimStart t)).isInfix.trans (trimStart_isSuffix t).isInfix

end Text

theorem stripOptional_isInfix (s : Text) : (stripOptional s).1 <:+: s := by
  have ht := Text.trim_isInfix s
  unfold stripOptional
  split
  next rest h =>
    rw [Text.before?_eq_some_iff] at h
    have hr : rest <+: Text.trim s := ⟨['?'], h.symm⟩
    exact ((Text.trimEnd_isPrefix rest).trans hr).isInfix.trans ht
  next => exact ht

namespace Nesting

theorem intercalate_consFirst (separator : Text) (c : Char) {ps : List Text} (h : ps ≠ []) :
    separator.intercalate (consFirst c ps) = c :: separator.intercalate ps := by
  cases ps with
  | nil => exact absurd rfl h
  | cons p ps => cases ps <;> simp [consFirst, List.intercalate_cons_cons]

/-- Cutting a text loses nothing but the separators. -/
theorem intercalate_pieces (separator : Char) (d : Int) (t : Text) :
    [separator].intercalate (pieces separator d t) = t := by
  induction t generalizing d with
  | nil => rfl
  | cons c cs ih =>
    rw [pieces]
    split
    next h =>
      obtain ⟨p, ps, hp⟩ := List.exists_cons_of_ne_nil (pieces_ne_nil separator d cs)
      rw [hp, List.intercalate_cons_cons, ← hp, ih, h.1]
      rfl
    next => rw [intercalate_consFirst _ c (pieces_ne_nil separator _ cs), ih]

theorem isInfix_of_mem_splitTopLevel {separator : Char} {t p : Text}
    (h : p ∈ splitTopLevel separator t) : p <:+: t := by
  obtain ⟨q, hq, rfl⟩ := List.mem_map.1 h
  have hi := infix_intercalate_of_mem hq [separator]
  rw [intercalate_pieces] at hi
  exact (Text.trim_isInfix q).trans hi

theorem isInfix_of_unwrap? {opening t inner : Text} (h : unwrap? opening t = some inner) :
    inner <:+: t := ⟨opening, ['>'], (eq_append_of_unwrap? h).1.symm⟩

end Nesting

namespace Form

theorem isInfix_of_body? {t body : Text} (h : body? t = some body) : body <:+: t :=
  ⟨['{'], ['}'], (body?_eq_some_iff.1 h).symm⟩

/-- A property that is made of pieces of a text. -/
inductive PropertyIn (s : Text) : Property Text → Prop
  | typed {name value : Text} : name <:+: s → value <:+: s → PropertyIn s (.typed name value)
  | bare {text : Text} : text <:+: s → PropertyIn s (.bare text)

theorem propertyIn_of_mem_properties {body : Text} {p : Property Text} (h : p ∈ properties body) :
    PropertyIn body p := by
  simp only [properties, List.mem_map, List.mem_filter] at h
  obtain ⟨t, ⟨ht, _⟩, rfl⟩ := h
  have hi := Nesting.isInfix_of_mem_splitTopLevel ht
  unfold property
  split
  next name value hc =>
    obtain ⟨rfl, _⟩ := Text.eq_append_of_cutAt? hc
    have hn : name <:+: name ++ ':' :: value := (List.prefix_append name _).isInfix
    have hv : value <:+: name ++ ':' :: value := ⟨name ++ [':'], [], by simp⟩
    exact .typed (((Text.trim_isInfix name).trans hn).trans hi) (hv.trans hi)
  next => exact .bare hi

/-- The five forms, each with the parts of the text without its marker. -/
theorem cases_ofText (s : Text) :
    let text := (stripOptional s).1
    ofText s = .union (Nesting.splitTopLevel '|' text) ∨
      (∃ body, body? text = some body ∧ ofText s = .object (properties body)) ∨
      (∃ element, Nesting.unwrap? Signature.arrayOpening text = some element ∧
        ofText s = .array element) ∨
      (∃ inner, Nesting.unwrap? Signature.referenceOpening text = some inner ∧
        ofText s = .reference (Text.trim inner)) ∨
      ofText s = .word text := by
  unfold ofText
  simp only
  split
  next => simp
  next =>
    split
    next body hb => simp [hb]
    next =>
      split
      next element he => simp [he]
      next =>
        split
        next inner hr => simp [hr]
        next => simp

end Form

/-! ### Signatures made of pieces of a text -/

/-- What stands between `Ref<` and the bracket that closes it, without blanks at its ends. -/
def IsTarget (s target : Text) : Prop :=
  ∃ inner, "Ref<".toList ++ inner ++ ['>'] <:+: s ∧ Nesting.staysInside 0 inner = true ∧
    target = Text.trim inner

theorem IsTarget.mono {s t target : Text} (h : IsTarget s target) (hst : s <:+: t) :
    IsTarget t target := by
  obtain ⟨inner, hi, hs, rfl⟩ := h
  exact ⟨inner, hi.trans hst, hs, rfl⟩

theorem isTarget_of_unwrap? {t inner : Text}
    (h : Nesting.unwrap? Signature.referenceOpening t = some inner) :
    IsTarget t (Text.trim inner) := by
  obtain ⟨ht, hs⟩ := Nesting.eq_append_of_unwrap? h
  exact ⟨inner, ht ▸ List.infix_rfl, hs, rfl⟩

namespace Signature

/-- Every text in the signature is a piece of `s`, and its targets are targets in `s`. -/
inductive From (s : Text) : Signature → Prop
  | scalar (k : Scalar) : From s (.scalar k)
  | named {name : Text} : name <:+: s → From s (.named name)
  | array {element : Signature} : From s element → From s (.array element)
  | reference {target : Text} : IsTarget s target → From s (.reference target)
  | object {ps : List (Property Signature)} :
    (∀ name value, .typed name value ∈ ps → name <:+: s) →
    (∀ name value, .typed name value ∈ ps → From s value) →
    (∀ text, .bare text ∈ ps → text <:+: s) → From s (.object ps)
  | union {alternatives : List Signature} :
    (∀ a ∈ alternatives, From s a) → From s (.union alternatives)

theorem From.mono {s t : Text} {g : Signature} (h : From s g) (hst : s <:+: t) : From t g := by
  induction h with
  | scalar k => exact .scalar k
  | named hn => exact .named (hn.trans hst)
  | array _ ih => exact .array ih
  | reference ht => exact .reference (ht.mono hst)
  | object hn _ hb ih =>
    apply From.object
    · intro name value hp
      exact (hn name value hp).trans hst
    · exact ih
    · intro text hp
      exact (hb text hp).trans hst
  | union _ ih => exact .union ih

theorem from_ofWord (word : Text) : From word (ofWord word) := by
  unfold ofWord
  split
  next k _ => exact .scalar k
  next => exact .named List.infix_rfl

theorem typed_mem_map_readProperty {ps : List (Property Text)} {name : Text} {g : Signature}
    (h : .typed name g ∈ ps.map readProperty) :
    ∃ value, .typed name value ∈ ps ∧ g = read value := by
  obtain ⟨p, hp, he⟩ := List.mem_map.1 h
  cases p with
  | typed n value =>
    simp only [readProperty, Property.typed.injEq] at he
    obtain ⟨rfl, rfl⟩ := he
    exact ⟨value, hp, rfl⟩
  | bare t => simp [readProperty] at he

theorem bare_mem_map_readProperty {ps : List (Property Text)} {text : Text}
    (h : .bare text ∈ ps.map readProperty) : .bare text ∈ ps := by
  obtain ⟨p, hp, he⟩ := List.mem_map.1 h
  cases p with
  | typed n value => simp [readProperty] at he
  | bare t =>
    simp only [readProperty, Property.bare.injEq] at he
    rwa [← he]

/-- Reading writes nothing of its own. -/
theorem from_read (s : Text) : From s (read s) := by
  have hs := stripOptional_isInfix s
  rcases Form.cases_ofText s with h | ⟨body, hb, h⟩ | ⟨element, he, h⟩ | ⟨inner, hr, h⟩ | h
  · rw [read_of_union h]
    apply From.union
    intro g hg
    obtain ⟨a, ha, rfl⟩ := List.mem_map.1 hg
    have := Form.length_lt_of_union h ha
    exact (from_read a).mono ((Nesting.isInfix_of_mem_splitTopLevel ha).trans hs)
  · have hbody := (Form.isInfix_of_body? hb).trans hs
    rw [read_of_object h]
    apply From.object
    · intro name g hg
      obtain ⟨value, hp, _⟩ := typed_mem_map_readProperty hg
      cases Form.propertyIn_of_mem_properties hp with
      | typed hn _ => exact hn.trans hbody
    · intro name g hg
      obtain ⟨value, hp, rfl⟩ := typed_mem_map_readProperty hg
      have := Form.length_lt_of_object h hp
      cases Form.propertyIn_of_mem_properties hp with
      | typed _ hv => exact (from_read value).mono (hv.trans hbody)
    · intro text ht
      cases Form.propertyIn_of_mem_properties (bare_mem_map_readProperty ht) with
      | bare hb => exact hb.trans hbody
  · rw [read_of_array h]
    have := Form.length_lt_of_array h
    exact .array ((from_read element).mono ((Nesting.isInfix_of_unwrap? he).trans hs))
  · rw [read_of_reference h]
    exact .reference ((isTarget_of_unwrap? hr).mono hs)
  · rw [read_of_word h]
    exact (from_ofWord _).mono hs
termination_by s.length

theorem from_alternatives (t : Text) : From t (alternatives t) := by
  apply From.union
  intro g hg
  obtain ⟨a, ha, rfl⟩ := List.mem_map.1 hg
  exact (from_read a).mono (Nesting.isInfix_of_mem_splitTopLevel ha)

/-- The same for the signature of a field. -/
theorem from_ofField (s : Text) : From s (ofField s) := by
  have hs := stripOptional_isInfix s
  unfold ofField
  dsimp only
  split
  next element he =>
    exact .array ((from_alternatives element).mono ((Nesting.isInfix_of_unwrap? he).trans hs))
  next => exact (from_alternatives _).mono hs

end Signature
end CollectionTypes
