import CollectionTypes.Proofs.Composition

/-!
# Markers that are left over

Reading strips one optional marker from a text, and one more from each alternative of a union. What
stands in front of it is not looked at, so a second marker on the same construct is taken for a part
of its name, and so is a marker inside the brackets of a reference. The main statement says when one
more marker at the end of a text changes its type, and when the type ends in a marker that was left
over, for every text.
-/

namespace CollectionTypes

/-! ### Stripping -/

theorem trim_stripOptional (s : Text) : Text.trim (stripOptional s).1 = (stripOptional s).1 := by
  unfold stripOptional
  split
  next rest h =>
    rw [Text.before?_eq_some_iff] at h
    have start : Text.trimStart rest = rest := by
      rcases Text.blank_or_tight s with hs | ⟨before, u, after, rfl, hb, hu, ha⟩
      · rw [Text.trim_of_blank hs] at h
        exact absurd h (by simp)
      · rw [Text.trim_around hb hu ha] at h
        obtain ⟨c, cs, hc, hn⟩ := hu.head
        cases rest with
        | nil => rfl
        | cons d ds =>
          obtain rfl := (List.cons.inj (hc.symm.trans h)).1
          exact Text.trimStart_cons hn ds
    rw [Text.trim_trimEnd, Text.trim, start]
  next => exact Text.trim_trim s

theorem marked_stripOptional {s : Text} :
    Marked (stripOptional s).1 ↔ (stripOptional s).1.getLast? = some '?' := by
  rw [Marked, trim_stripOptional]

theorem stripOptional_marker (front : Text) {gap : Text} (h : Text.Blank gap) :
    (stripOptional (front ++ '?' :: gap)).1 = Text.trim front := by
  rcases Text.blank_or_tight front with hf | ⟨before, u, after, rfl, hb, hu, ha⟩
  · have whole : Text.trim (front ++ '?' :: gap) = ['?'] := by
      have := Text.trim_around hf (Text.tight_singleton (c := '?') (by decide)) h
      simpa using this
    simp [stripOptional, whole, Text.trim_of_blank hf, Text.before?, Text.trimEnd]
  · have whole : before ++ u ++ after ++ '?' :: gap =
        before ++ (u ++ after ++ ['?']) ++ gap := by simp
    rw [whole, stripOptional_marked hb hu ha h, Text.trim_around hb hu ha]

theorem length_stripOptional_lt {s : Text} (h : Marked s) :
    (stripOptional s).1.length < (Text.trim s).length := by
  obtain ⟨rest, hr⟩ := List.getLast?_eq_some_iff.1 h
  have strip : (stripOptional s).1 = Text.trimEnd rest := by
    simp only [stripOptional, Text.before?_eq_some_iff.2 hr]
  have shorter := Text.length_trimEnd_le rest
  rw [strip, hr, List.length_append]
  exact Nat.lt_succ_of_le shorter

theorem marked_iff_trimEnd {s : Text} : Marked s ↔ (Text.trimEnd s).getLast? = some '?' := by
  rcases Text.blank_or_tight s with hs | ⟨before, u, after, rfl, hb, hu, ha⟩
  · have empty : Text.trimEnd s = [] := by
      simpa [Text.trimEnd] using Text.trimEnd_append_blank hs []
    rw [Marked, Text.trim_of_blank hs, empty]
  · obtain ⟨cs, c, rfl, -⟩ := hu.last
    rw [Marked, Text.trim_around hb hu ha, Text.trimEnd_append_blank ha, Text.trimEnd_of_tight hu,
      ← List.append_assoc, List.getLast?_concat, List.getLast?_concat]

/-- In front of a character that is neither blank nor a marker nothing counts. -/
theorem marked_append_cons {c : Char} (hb : Text.isBlank c = false) (hq : c ≠ '?') (s t : Text) :
    Marked (s ++ c :: t) ↔ Marked t := by
  rw [marked_iff_trimEnd, marked_iff_trimEnd, Text.trimEnd_append_cons hb,
    List.getLast?_append_cons, List.getLast?_cons]
  cases (Text.trimEnd t).getLast? with
  | none => simpa using hq
  | some d => simp

namespace Nesting

theorem length_pieces_append {q : Text} {separator : Char}
    (h : ∀ c ∈ q, c ≠ separator ∧ step c = 0) (d : Int) (t : Text) :
    (pieces separator d (t ++ q)).length = (pieces separator d t).length := by
  obtain ⟨init, last, hp⟩ := exists_pieces_eq_concat separator d t
  rw [pieces_append_of_forall h, hp, extendLast_append_singleton]
  simp

end Nesting

namespace Signature

open Nesting

theorem hasTopLevel_stripOptional (s : Text) :
    hasTopLevel '|' (stripOptional s).1 = hasTopLevel '|' s := by
  obtain ⟨before, after, init, last, -, -, -, hp, hs⟩ := exists_pieces_stripOptional s
  rw [hasTopLevel, hasTopLevel, hp, hs]
  cases init with
  | nil => rfl
  | cons p ps => simp [extendFirst]

/-! ### How types end -/

theorem getLast?_renderObject (ts : List Text) : (renderObject ts).getLast? = some '}' := by
  cases ts with
  | nil => rfl
  | cons t ts =>
    have ending : renderObject (t :: ts) =
        "\x7b ".toList ++ Text.joined "; " (t :: ts) ++ [' '] ++ ['}'] := by
      simp [renderObject]
    rw [ending, List.getLast?_concat]

theorem getLast?_renderReference (mode : Mode) (target : Text) :
    (renderReference mode target).getLast? = some '?' ↔
      mode = .main ∧ target.getLast? = some '?' := by
  have driver : Driver.documentReference = "DocumentReferenc".toList ++ ['e'] := rfl
  cases mode with
  | main => simp [renderReference]
  | create =>
    rw [renderReference, driver, ← List.append_assoc, List.getLast?_concat]
    simp
  | faunaCreate =>
    rw [renderReference, driver, List.getLast?_concat]
    simp

theorem getLast?_typeOfWord (word : Text) :
    (Scalar.typeOfWord word).getLast? = some '?' ↔ word.getLast? = some '?' := by
  unfold Scalar.typeOfWord
  cases h : Scalar.ofKeyword? word with
  | none => rfl
  | some k =>
    rw [← Scalar.keyword_of_ofKeyword? h]
    cases k <;> decide

/-! ### Texts that are no union -/

theorem hasTopLevel_of_union {s : Text} {as : List Text} (h : Form.ofText s = .union as) :
    hasTopLevel '|' s = true := by
  rw [← hasTopLevel_stripOptional]
  unfold Form.ofText at h
  simp only at h
  split at h
  next top => exact top
  next => (repeat' split at h) <;> simp at h

section Single

variable (mode : Mode) {s : Text} (single : hasTopLevel '|' s = false)
include single

/-- The text of a construct with brackets ends in one. -/
theorem ofText_of_marked (h : Marked (stripOptional s).1) :
    Form.ofText s = .word (stripOptional s).1 := by
  rw [marked_stripOptional] at h
  have closed (c : Char) (front : Text) (ht : (stripOptional s).1 = front ++ [c]) : c = '?' := by
    rw [ht, List.getLast?_concat] at h
    exact Option.some.inj h
  rcases Form.cases_ofText s with hu | ⟨body, hb, -⟩ | ⟨element, he, -⟩ | ⟨inner, hr, -⟩ | hw
  · rw [hasTopLevel_of_union hu] at single
    exact absurd single (by decide)
  · exact absurd (closed '}' _ (Form.body?_eq_some_iff.1 hb)) (by decide)
  · exact absurd (closed '>' _ (eq_append_of_unwrap? he).1) (by decide)
  · exact absurd (closed '>' _ (eq_append_of_unwrap? hr).1) (by decide)
  · exact hw

theorem typeText_of_marked (h : Marked (stripOptional s).1) :
    typeText mode s = (stripOptional s).1 := by
  have word : Scalar.ofKeyword? (stripOptional s).1 = none := by
    rw [Option.eq_none_iff_forall_ne_some]
    intro k hk
    rw [marked_stripOptional, ← Scalar.keyword_of_ofKeyword? hk] at h
    revert h
    cases k <;> decide
  rw [typeText_of_word mode (ofText_of_marked single h), Scalar.typeOfWord, word]

omit single in
theorem length_lt_of_reference {target : Text} (h : Form.ofText s = .reference target) :
    target.length < (stripOptional s).1.length := by
  rcases Form.cases_ofText s with hf | ⟨_, -, hf⟩ | ⟨_, -, hf⟩ | ⟨inner, hr, hf⟩ | hf
  case inr.inr.inr.inl =>
    obtain rfl : Text.trim inner = target := Form.reference.inj (hf.symm.trans h)
    have shorter := Text.length_trim_le inner
    rw [(eq_append_of_unwrap? hr).1, List.length_append, List.length_append]
    exact Nat.lt_succ_of_le (Nat.le_trans shorter (Nat.le_add_left _ _))
  all_goals exact absurd (hf.symm.trans h) (by simp)

theorem getLast?_typeText_single :
    (typeText mode s).getLast? = some '?' ↔
      Marked (stripOptional s).1 ∨
        mode = .main ∧ ∃ target, Form.ofText s = .reference target ∧ Marked target := by
  by_cases marked : Marked (stripOptional s).1
  · rw [typeText_of_marked mode single marked, ← marked_stripOptional]
    simp [marked]
  · rcases Form.cases_ofText s with hf | ⟨body, -, hf⟩ | ⟨element, -, hf⟩ | ⟨inner, -, hf⟩ | hf
    · rw [hasTopLevel_of_union hf] at single
      exact absurd single (by decide)
    · rw [typeText_of_object mode hf, getLast?_renderObject]
      simp [marked, hf]
    · rw [typeText_of_array mode hf, List.getLast?_concat]
      simp [marked, hf]
    · have target : Marked (Text.trim inner) ↔ (Text.trim inner).getLast? = some '?' := by
        rw [Marked, Text.trim_trim]
      rw [typeText_of_reference mode hf, getLast?_renderReference]
      simp [marked, hf, target]
    · rw [typeText_of_word mode hf, getLast?_typeOfWord, ← marked_stripOptional]
      simp [hf]

/-- What reading leaves of a text is shorter than the text with its marker. -/
theorem typeText_ne_trim (marked : Marked s) : typeText mode s ≠ Text.trim s := by
  intro type
  have shorter := length_stripOptional_lt marked
  have last : (typeText mode s).getLast? = some '?' := by
    rw [type]
    exact marked
  rcases (getLast?_typeText_single mode single).1 last with kept | ⟨rfl, target, hf, -⟩
  · rw [typeText_of_marked mode single kept] at type
    rw [type] at shorter
    exact absurd shorter (Nat.lt_irrefl _)
  · have inside := length_lt_of_reference hf
    rw [typeText_of_reference .main hf, renderReference] at type
    rw [type] at inside
    exact absurd (Nat.lt_trans inside shorter) (Nat.lt_irrefl _)

/-- One marker is stripped from a construct, and a second one changes its type. -/
theorem typeText_append_marker_single {gap : Text} (hg : Text.Blank gap) :
    typeText mode (s ++ (gap ++ ['?'])) = typeText mode s ↔ ¬ Marked s := by
  have margin : Margin (gap ++ ['?']) := .marker hg Text.blank_nil
  constructor
  · intro same marked
    have strip : (stripOptional (s ++ (gap ++ ['?']))).1 = Text.trim s := by
      rw [← List.append_assoc, stripOptional_marker _ Text.blank_nil, Text.trim_append_blank hg]
    have single' : hasTopLevel '|' (s ++ (gap ++ ['?'])) = false := by
      rw [hasTopLevel, length_pieces_append margin.cuts_nowhere]
      exact single
    have kept : Marked (stripOptional (s ++ (gap ++ ['?']))).1 := by
      rw [strip, Marked, Text.trim_trim]
      exact marked
    rw [typeText_of_marked mode single' kept, strip] at same
    exact typeText_ne_trim mode single marked same.symm
  · intro unmarked
    exact typeText_congr mode (stripOptional_append_margin margin fun marked =>
      absurd marked unmarked)

end Single

/-! ### Unions -/

theorem exists_alternatives {s : Text} (top : hasTopLevel '|' s = true) :
    ∃ init last, pieces '|' 0 (stripOptional s).1 = init ++ [last] ∧ init ≠ [] ∧
      hasTopLevel '|' last = false := by
  rw [← hasTopLevel_stripOptional, hasTopLevel, decide_eq_true_eq] at top
  obtain ⟨init, last, hp⟩ := exists_pieces_eq_concat '|' 0 (stripOptional s).1
  have whole : pieces '|' 0 last = [last] := pieces_of_mem_pieces (by rw [hp]; simp)
  refine ⟨init, last, hp, ?_, ?_⟩
  · rintro rfl
    rw [hp] at top
    exact absurd top (by simp)
  · rw [hasTopLevel, whole]
    rfl

/-- The types of the alternatives before the last one, with a separator after each. -/
def typesBefore (mode : Mode) (init : List Text) : Text :=
  Text.joined alternativeSeparator (init.map (typeText mode)) ++ alternativeSeparator

section Pieces

variable {t last : Text} {init : List Text} (hi : init ≠ [])
include hi

theorem typeText_of_pieces (mode : Mode) {s : Text}
    (hp : pieces '|' 0 (stripOptional s).1 = init ++ [last]) :
    typeText mode s = typesBefore mode init ++ typeText mode last := by
  have top : hasTopLevel '|' (stripOptional s).1 = true := by
    have := List.length_pos_iff.2 hi
    rw [hasTopLevel, hp]
    simpa using this
  rw [typeText_of_hasTopLevel mode top, hp, List.map_append,
    Text.joined_append _ (by simpa using hi) (by simp)]
  rfl

theorem marked_of_pieces (hp : pieces '|' 0 t = init ++ [last]) : Marked t ↔ Marked last := by
  obtain ⟨ts, u, rfl⟩ := (List.eq_nil_or_concat' init).resolve_left hi
  have whole := intercalate_pieces '|' 0 t
  rw [hp, intercalate_append_singleton, List.flatMap_append] at whole
  have bar : t = ts.flatMap (· ++ ['|']) ++ u ++ '|' :: last := by
    rw [← whole]
    simp
  rw [bar]
  exact marked_append_cons (by decide) (by decide) _ last

end Pieces

theorem getLast?_typesBefore (mode : Mode) (init : List Text) (t : Text) :
    (typesBefore mode init ++ t).getLast? = some '?' ↔ t.getLast? = some '?' := by
  rcases List.eq_nil_or_concat' t with rfl | ⟨front, c, rfl⟩
  · have blank : alternativeSeparator = " |".toList ++ [' '] := rfl
    rw [List.append_nil, typesBefore, blank, ← List.append_assoc, List.getLast?_concat]
    simp
  · rw [← List.append_assoc, List.getLast?_concat, List.getLast?_concat]

theorem exists_trim_marker (front : Text) :
    ∃ gap, Text.Blank gap ∧ Text.trim (front ++ ['?']) = Text.trim front ++ (gap ++ ['?']) := by
  have mark : Text.Tight ['?'] := Text.tight_singleton (by decide)
  rcases Text.blank_or_tight front with hf | ⟨before, u, after, rfl, hb, hu, ha⟩
  · refine ⟨[], Text.blank_nil, ?_⟩
    rw [Text.trim_of_blank hf]
    simpa using Text.trim_around hf mark Text.blank_nil
  · refine ⟨after, ha, ?_⟩
    rw [Text.trim_around hb hu ha]
    simpa using Text.trim_around hb (hu.append (t := after) mark) Text.blank_nil

/-- Behind a marker a second one is stripped in its place. -/
theorem exists_stripOptional_append {s : Text} (marked : Marked s) :
    ∃ gap, Text.Blank gap ∧
      (stripOptional (s ++ ['?'])).1 = (stripOptional s).1 ++ (gap ++ ['?']) := by
  obtain ⟨front, after, ha, rfl⟩ := marked.exists_gap
  obtain ⟨gap, hg, trimmed⟩ := exists_trim_marker front
  have whole : front ++ '?' :: after = front ++ ['?'] ++ after := by simp
  refine ⟨gap, hg, ?_⟩
  rw [stripOptional_marker _ Text.blank_nil, stripOptional_marker front ha, ← trimmed, whole,
    Text.trim_append_blank ha]

/-- One marker is stripped from a union, and one from its last alternative. -/
theorem typeText_append_marker_union (mode : Mode) {s : Text} (top : hasTopLevel '|' s = true)
    (marked : Marked s) :
    typeText mode (s ++ ['?']) = typeText mode s ↔ ¬ Marked (stripOptional s).1 := by
  obtain ⟨init, last, hp, hi, single⟩ := exists_alternatives top
  obtain ⟨gap, hg, strip⟩ := exists_stripOptional_append marked
  have margin : Margin (gap ++ ['?']) := .marker hg Text.blank_nil
  have hp' : pieces '|' 0 (stripOptional (s ++ ['?'])).1 = init ++ [last ++ (gap ++ ['?'])] := by
    rw [strip, pieces_append_of_forall margin.cuts_nowhere, hp, extendLast_append_singleton]
  rw [typeText_of_pieces hi mode hp', typeText_of_pieces hi mode hp, List.append_cancel_left_eq,
    typeText_append_marker_single mode single hg, marked_of_pieces hi hp]

/-- The alternative that a text ends with: the last one of a union, else the text itself. -/
def lastAlternative (s : Text) : Text :=
  if hasTopLevel '|' s then (pieces '|' 0 (stripOptional s).1).getLast?.getD [] else s

theorem getLast?_typeText (mode : Mode) (s : Text) :
    (typeText mode s).getLast? = some '?' ↔
      Marked (stripOptional (lastAlternative s)).1 ∨ mode = .main ∧
        ∃ target, Form.ofText (lastAlternative s) = .reference target ∧ Marked target := by
  cases top : hasTopLevel '|' s with
  | false =>
    have whole : lastAlternative s = s := by simp [lastAlternative, top]
    rw [whole]
    exact getLast?_typeText_single mode top
  | true =>
    obtain ⟨init, last, hp, hi, single⟩ := exists_alternatives top
    have whole : lastAlternative s = last := by simp [lastAlternative, top, hp]
    rw [typeText_of_pieces hi mode hp, getLast?_typesBefore, whole]
    exact getLast?_typeText_single mode single

/-- When a marker at the end of a text has an effect, and when one is left at the end of its type. A
marker has none if the text has no other there, or if it is a union and its last alternative keeps
no other. A type ends in a marker if the last alternative has one more than is stripped, or is a
reference that is read and has one inside its brackets. -/
theorem typeText_marker_iff (mode : Mode) (s : Text) :
    (typeText mode (s ++ "?") = typeText mode s ↔
        ¬ Marked s ∨ hasTopLevel '|' s = true ∧ ¬ Marked (stripOptional s).1) ∧
      ((typeText mode s).getLast? = some '?' ↔
        Marked (stripOptional (lastAlternative s)).1 ∨ mode = .main ∧
          ∃ target, Form.ofText (lastAlternative s) = .reference target ∧ Marked target) := by
  refine ⟨?_, getLast?_typeText mode s⟩
  by_cases marked : Marked s
  case neg =>
    have same : typeText mode (s ++ ['?']) = typeText mode s := typeText_congr mode
      (stripOptional_append_margin (.marker Text.blank_nil Text.blank_nil) fun h => absurd h marked)
    exact iff_of_true same (Or.inl marked)
  case pos =>
    cases top : hasTopLevel '|' s with
    | false =>
      have changed := typeText_append_marker_single mode top Text.blank_nil
      simpa [marked] using changed
    | true => simpa [marked] using typeText_append_marker_union mode top marked

/-- A second marker changes the type of a scalar, and stands at its end. -/
theorem not_forall_typeText_marker :
    (¬ ∀ mode s, typeText mode (s ++ "?") = typeText mode s) ∧
      ¬ ∀ mode s, (typeText mode s).getLast? ≠ some '?' := by
  constructor
  · intro h
    exact absurd (h .main "Int?") (by decide +kernel)
  · intro h
    exact absurd (h .main "Int??") (by decide +kernel)

end Signature
end CollectionTypes
