import CollectionTypes.Proofs.Joining
import CollectionTypes.Proofs.Language

/-!
# Reading the language of signatures

The text of a construct is balanced, sealed for `|` and `,`, and begins and ends with characters
that are neither blank nor a marker. So the outermost form of its text, in any layout, is the
construct itself with the texts of its parts, and the types agree by induction on the tree.
-/

namespace CollectionTypes.Language

open Nesting Signature

/-! ### Characters -/

/-- Characters that mean nothing to the scanner. -/
def Quiet (c : Char) : Prop := c ≠ '|' ∧ c ≠ ',' ∧ c ≠ ':' ∧ step c = 0

theorem quiet_of_class {p : Char → Bool}
    (hp : ['|', ',', ':', '{', '<', '}', '>'].any p = false) {c : Char} (h : p c = true) :
    Quiet c := by
  rw [List.any_eq_false] at hp
  have other : ∀ d ∈ ['|', ',', ':', '{', '<', '}', '>'], c ≠ d := by
    rintro d hd rfl
    exact hp c hd h
  refine ⟨other _ (by simp), other _ (by simp), other _ (by simp), ?_⟩
  rw [step_eq_zero_iff, not_or, not_or]
  exact ⟨⟨other _ (by simp), other _ (by simp)⟩, ⟨other _ (by simp), other _ (by simp)⟩⟩

theorem quiet_of_isNamePart {c : Char} (h : Text.isNamePart c = true) : Quiet c :=
  quiet_of_class (by decide) h

theorem quiet_of_isBlank {c : Char} (h : Text.isBlank c = true) : Quiet c :=
  quiet_of_class (by decide) h

theorem isBlank_of_isNamePart {c : Char} (h : Text.isNamePart c = true) :
    Text.isBlank c = false := by
  have ranges : Text.isNamePart c =
      ((('A' ≤ c ∧ c ≤ 'Z') || ('a' ≤ c && c ≤ 'z')) || ('0' ≤ c && c ≤ '9') ||
        c == '_' || c == '$') := rfl
  simp only [ranges, Bool.or_eq_true, Bool.and_eq_true, decide_eq_true_eq, beq_iff_eq,
    Char.le_def, UInt32.le_iff_toNat_le] at h
  rcases h with (h | rfl) | rfl
  · rw [Bool.eq_false_iff]
    intro hb
    simp only [Text.isBlank, Bool.or_eq_true, Bool.and_eq_true, decide_eq_true_eq,
      beq_iff_eq] at hb
    change ((65 ≤ c.toNat ∧ c.toNat ≤ 90) ∨ (97 ≤ c.toNat ∧ c.toNat ≤ 122)) ∨
      (48 ≤ c.toNat ∧ c.toNat ≤ 57) at h
    omega
  · decide
  · decide

theorem isNamePart_of_isNameStart {c : Char} (h : Text.isNameStart c = true) :
    Text.isNamePart c = true := by
  simp only [Text.isNameStart, Text.isNamePart, Char.isAlphanum, Bool.or_eq_true] at h ⊢
  rcases h with (h | h) | h
  · exact Or.inl (Or.inl (Or.inl h))
  · exact Or.inl (Or.inr h)
  · exact Or.inr h

theorem isNamePart_of_isIdentifier {t : Text} (h : Text.isIdentifier t = true) :
    ∀ c ∈ t, Text.isNamePart c = true := by
  cases t with
  | nil => simp
  | cons c cs =>
    simp only [Text.isIdentifier, Bool.and_eq_true, List.all_eq_true] at h
    intro d hd
    rcases List.mem_cons.1 hd with rfl | hd
    · exact isNamePart_of_isNameStart h.1
    · exact h.2 d hd

theorem tight_of_isIdentifier {t : Text} (h : Text.isIdentifier t = true) : Text.Tight t := by
  have name := isNamePart_of_isIdentifier h
  have hne : t ≠ [] := by
    rintro rfl
    simp [Text.isIdentifier] at h
  obtain ⟨c, cs, hc⟩ := List.exists_cons_of_ne_nil hne
  have hl := List.dropLast_concat_getLast hne
  refine ⟨⟨c, cs, hc, ?_⟩, ⟨t.dropLast, t.getLast hne, hl.symm, ?_⟩⟩
  · exact isBlank_of_isNamePart (name c (by simp [hc]))
  · exact isBlank_of_isNamePart (name _ (List.getLast_mem hne))

/-! ### Texts that are cut nowhere -/

/-- What may stand between commas. -/
structure IsMember (t : Text) : Prop where
  balanced : Balanced t
  sealedComma : Sealed ',' t

/-- What may stand between bars. -/
structure IsAlternative (t : Text) : Prop extends IsMember t where
  sealedBar : Sealed '|' t

theorem IsMember.append {s t : Text} (hs : IsMember s) (ht : IsMember t) : IsMember (s ++ t) :=
  ⟨hs.balanced.append ht.balanced, hs.sealedComma.append ht.sealedComma⟩

theorem IsAlternative.append {s t : Text} (hs : IsAlternative s) (ht : IsAlternative t) :
    IsAlternative (s ++ t) :=
  ⟨hs.toIsMember.append ht.toIsMember, hs.sealedBar.append ht.sealedBar⟩

theorem isAlternative_of_quiet {t : Text} (h : ∀ c ∈ t, Quiet c) : IsAlternative t :=
  ⟨⟨balanced_of_forall fun c hc => (h c hc).2.2.2,
      sealed_of_forall fun c hc => ⟨(h c hc).2.1, (h c hc).2.2.2⟩⟩,
    sealed_of_forall fun c hc => ⟨(h c hc).1, (h c hc).2.2.2⟩⟩

theorem isAlternative_enclosed {t : Text} (h : Balanced t) {opening closing : Char}
    (ho : step opening = 1) (hc : step closing = -1) :
    IsAlternative (opening :: t ++ [closing]) :=
  ⟨⟨h.enclosed ho hc, h.sealed_enclosed _ ho hc⟩, h.sealed_enclosed _ ho hc⟩

theorem isAlternative_space (s : Space) : IsAlternative s.val :=
  isAlternative_of_quiet fun c hc => quiet_of_isBlank (s.property c hc)

theorem isAlternative_identifier {t : Text} (h : Text.isIdentifier t = true) : IsAlternative t :=
  isAlternative_of_quiet fun c hc => quiet_of_isNamePart (isNamePart_of_isIdentifier h c hc)

theorem isAlternative_marker (m : Marker) : IsAlternative m.text := by
  cases m with
  | none => exact isAlternative_of_quiet (by simp [Marker.text])
  | some after =>
    have hq : IsAlternative ['?'] := isAlternative_of_quiet (by simp [Quiet, step])
    exact hq.append (isAlternative_space after)

theorem Layout.isAlternative_around (l : Layout) {t : Text} (h : IsAlternative t) :
    IsAlternative (l.around t) :=
  (((isAlternative_space l.before).append h).append (isAlternative_space l.after)).append
    (isAlternative_marker l.marker)

theorem PropertyName.isAlternative_text (p : PropertyName) : IsAlternative p.text := by
  refine (isAlternative_identifier p.name.property).append (isAlternative_of_quiet ?_)
  split <;> simp [Quiet, step]

theorem PropertyName.isMember_withValue (p : PropertyName) {value : Text} (h : IsMember value) :
    IsMember (p.withValue value) := by
  have colon : IsMember [':'] :=
    ⟨balanced_singleton (by decide), sealed_singleton (by decide) (by decide)⟩
  have hp := (p.isAlternative_text.append (isAlternative_space p.after)).toIsMember
  exact (isAlternative_space p.before).toIsMember.append (hp.append (colon.append h))

theorem isIdentifier_scalarKeyword (s : Scalar) : Text.isIdentifier (scalarKeyword s) = true := by
  cases s <;> decide

mutual

theorem Construct.isAlternative_text : ∀ c : Construct, IsAlternative c.text
  | .scalar s => by
    rw [Construct.text_scalar]
    exact isAlternative_identifier (isIdentifier_scalarKeyword s)
  | .named name => by
    rw [Construct.text_named]
    exact isAlternative_identifier name.property.1
  | .array element => by
    have word : IsAlternative "Array" := isAlternative_identifier (by decide)
    have he := element.isMember_text.balanced
    rw [Construct.text_array]
    exact word.append (isAlternative_enclosed he (by decide) (by decide))
  | .reference before target after => by
    have word : IsAlternative "Ref" := isAlternative_identifier (by decide)
    have hi := ((isAlternative_space before).append
      (isAlternative_identifier target.property)).append (isAlternative_space after)
    rw [Construct.text_reference]
    exact word.append (isAlternative_enclosed hi.balanced (by decide) (by decide))
  | .object properties trailing => by
    rw [Construct.text_object]
    refine isAlternative_enclosed (balanced_intercalate (by decide) ?_) (by decide) (by decide)
    intro t ht
    rcases List.mem_append.1 ht with hp | hb
    · exact (isMember_of_mem_propertyTexts properties t hp).balanced
    · obtain ⟨b, _, rfl⟩ := List.mem_map.1 hb
      exact (isAlternative_space b).balanced

theorem Expression.isMember_text : ∀ e : Expression, IsMember e.text
  | .single layout construct => by
    rw [Expression.text_single]
    exact (layout.isAlternative_around construct.isAlternative_text).toIsMember
  | .union layout first middle lastLayout last marker => by
    have parts : ∀ t ∈ layout.around first.text ::
        (partTexts middle ++ [lastLayout.around last.text]), IsMember t := by
      intro t ht
      simp only [List.mem_cons, List.mem_append, List.not_mem_nil, or_false] at ht
      rcases ht with rfl | ht | rfl
      · exact (layout.isAlternative_around first.isAlternative_text).toIsMember
      · exact (isAlternative_of_mem_partTexts middle t ht).toIsMember
      · exact (lastLayout.isAlternative_around last.isAlternative_text).toIsMember
    rw [Expression.text_union]
    exact IsMember.append
      ⟨balanced_intercalate (by decide) fun t ht => (parts t ht).balanced,
        sealed_intercalate (by decide) (by decide) fun t ht => (parts t ht).sealedComma⟩
      (isAlternative_marker marker).toIsMember

theorem isAlternative_of_mem_partTexts :
    ∀ parts : List (Layout × Construct), ∀ t ∈ partTexts parts, IsAlternative t
  | [], t, h => by simp at h
  | (layout, construct) :: parts, t, h => by
    rw [partTexts_cons, List.mem_cons] at h
    rcases h with rfl | h
    · exact layout.isAlternative_around construct.isAlternative_text
    · exact isAlternative_of_mem_partTexts parts t h

theorem isMember_of_mem_propertyTexts :
    ∀ properties : List (PropertyName × Expression), ∀ t ∈ propertyTexts properties, IsMember t
  | [], t, h => by simp at h
  | (name, value) :: properties, t, h => by
    rw [propertyTexts_cons, List.mem_cons] at h
    rcases h with rfl | h
    · exact name.isMember_withValue value.isMember_text
    · exact isMember_of_mem_propertyTexts properties t h

end

/-! ### The ends of a text -/

/-- Tight, and not ending in a marker. -/
structure IsBare (t : Text) : Prop where
  tight : Text.Tight t
  unmarked : t.getLast? ≠ some '?'

theorem IsBare.stripOptional_eq {t : Text} (h : IsBare t) : stripOptional t = (t, false) := by
  simpa using stripOptional_unmarked Text.blank_nil h.tight Text.blank_nil h.unmarked

theorem isBare_of_isIdentifier {t : Text} (h : Text.isIdentifier t = true) : IsBare t := by
  refine ⟨tight_of_isIdentifier h, ?_⟩
  intro hl
  have hq := isNamePart_of_isIdentifier h '?' (List.mem_of_getLast? hl)
  exact absurd hq (by decide)

theorem isBare_append {s u : Text} (hs : Text.Tight s) {d : Char} (hd : Text.isBlank d = false)
    (hq : d ≠ '?') : IsBare (s ++ u ++ [d]) := by
  refine ⟨hs.append (Text.tight_singleton hd), ?_⟩
  rw [List.getLast?_concat]
  exact fun h => hq (Option.some.inj h)

theorem tight_arrayOpening : Text.Tight arrayOpening :=
  ⟨⟨'A', "rray<".toList, by decide, by decide⟩, ⟨"Array".toList, '<', by decide, by decide⟩⟩

theorem tight_referenceOpening : Text.Tight referenceOpening :=
  ⟨⟨'R', "ef<".toList, by decide, by decide⟩, ⟨"Ref".toList, '<', by decide, by decide⟩⟩

theorem Construct.isBare_text (c : Construct) : IsBare c.text := by
  cases c with
  | scalar s => exact isBare_of_isIdentifier (isIdentifier_scalarKeyword s)
  | named name => exact isBare_of_isIdentifier name.property.1
  | array element => exact isBare_append tight_arrayOpening (by decide) (by decide)
  | reference before target after =>
    exact isBare_append tight_referenceOpening (by decide) (by decide)
  | object properties trailing =>
    exact isBare_append (Text.tight_singleton (c := '{') (by decide)) (by decide) (by decide)

theorem Layout.stripOptional_around (l : Layout) {t : Text} (h : IsBare t) :
    (stripOptional (l.around t)).1 = t := by
  obtain ⟨before, after, marker⟩ := l
  cases marker with
  | none =>
    have ha : Layout.around ⟨before, after, none⟩ t = before.val ++ t ++ after.val :=
      List.append_nil _
    rw [ha, stripOptional_unmarked before.property h.tight after.property h.unmarked]
  | some blanks =>
    have ha : Layout.around ⟨before, after, some blanks⟩ t =
        before.val ++ (t ++ after.val ++ ['?']) ++ blanks.val := by
      simp [Layout.around, Marker.text]
    rw [ha, stripOptional_marked before.property h.tight after.property blanks.property]

/-! ### Forms -/

theorem body?_eq_none {c : Char} (h : c ≠ '{') (cs : Text) : Form.body? (c :: cs) = none := by
  simp [Form.body?, Text.after?, Ne.symm h]

theorem ofText_object {s body : Text} (hs : (stripOptional s).1 = '{' :: body ++ ['}'])
    (h : Sealed '|' ('{' :: body ++ ['}'])) :
    Form.ofText s = .object (Form.properties body) := by
  have hb : Form.body? ('{' :: body ++ ['}']) = some body := Form.body?_eq_some_iff.2 rfl
  simp only [Form.ofText, hs, h.not_hasTopLevel, hb, Bool.false_eq_true, if_false]

theorem ofText_array {s element : Text}
    (hs : (stripOptional s).1 = arrayOpening ++ element ++ ['>'])
    (h : Sealed '|' (arrayOpening ++ element ++ ['>'])) (he : Balanced element) :
    Form.ofText s = .array element := by
  have hb : Form.body? (arrayOpening ++ element ++ ['>']) = none := body?_eq_none (by decide) _
  simp only [Form.ofText, hs, h.not_hasTopLevel, hb, unwrap?_enclosed he, Bool.false_eq_true,
    if_false]

theorem ofText_reference {s target : Text}
    (hs : (stripOptional s).1 = referenceOpening ++ target ++ ['>'])
    (h : Sealed '|' (referenceOpening ++ target ++ ['>'])) (ht : Balanced target) :
    Form.ofText s = .reference (Text.trim target) := by
  have hb : Form.body? (referenceOpening ++ target ++ ['>']) = none :=
    body?_eq_none (by decide) _
  have ha : unwrap? arrayOpening (referenceOpening ++ target ++ ['>']) = none := by
    apply unwrap?_eq_none
    rintro ⟨rest, hr⟩
    exact absurd (List.cons.inj hr).1 (by decide)
  simp only [Form.ofText, hs, h.not_hasTopLevel, hb, ha, unwrap?_enclosed ht,
    Bool.false_eq_true, if_false]

theorem ofText_word {s : Text} (hi : Text.isIdentifier (stripOptional s).1 = true) :
    Form.ofText s = .word (stripOptional s).1 := by
  have name := isNamePart_of_isIdentifier hi
  have notOpening : ∀ opening : Text, '<' ∈ opening →
      unwrap? opening (stripOptional s).1 = none := by
    intro opening ho
    apply unwrap?_eq_none
    rintro ⟨rest, hr⟩
    have hn := name '<' (by simp [← hr, ho])
    exact absurd hn (by decide)
  have hb : Form.body? (stripOptional s).1 = none := by
    cases hc : (stripOptional s).1 with
    | nil => rfl
    | cons c cs =>
      refine body?_eq_none ?_ cs
      rintro rfl
      have hn := name '{' (by simp [hc])
      exact absurd hn (by decide)
  have hbar := (isAlternative_identifier hi).sealedBar.not_hasTopLevel
  simp only [Form.ofText, hbar, hb, notOpening arrayOpening (by decide),
    notOpening referenceOpening (by decide), Bool.false_eq_true, if_false]

/-! ### Unions -/

/-- Without the blanks at its ends and one marker, a union is written as before in other layouts of
its first and last alternative. -/
theorem exists_stripOptional_union (layout lastLayout : Layout) {first last : Text}
    (hf : Text.Tight first) (hl : IsBare last) (middle : List Text) (marker : Marker) :
    ∃ layout' lastLayout' : Layout,
      (stripOptional (['|'].intercalate
          (layout.around first :: (middle ++ [lastLayout.around last])) ++ marker.text)).1 =
        ['|'].intercalate (layout'.around first :: (middle ++ [lastLayout'.around last])) := by
  have split : ∀ x z : Text, ['|'].intercalate (x :: (middle ++ [z])) =
      x ++ middle.flatMap (fun y => '|' :: y) ++ '|' :: z := by
    intro x z
    induction middle generalizing x with
    | nil => simp
    | cons y ys ih => simp [List.intercalate_cons_cons, ih]
  obtain ⟨before, after, opt⟩ := layout
  obtain ⟨lastBefore, lastAfter, lastOpt⟩ := lastLayout
  let inner := after.val ++ Marker.text opt ++ middle.flatMap (fun y => '|' :: y) ++
    '|' :: lastBefore.val
  have core : IsBare (first ++ inner ++ last) := by
    refine ⟨hf.append hl.tight, ?_⟩
    obtain ⟨cs, c, hc, _⟩ := hl.tight.last
    have hu := hl.unmarked
    rw [hc, List.getLast?_concat] at hu
    rw [hc, ← List.append_assoc, List.getLast?_concat]
    exact hu
  have single : ∀ m : Marker, (stripOptional
      (Layout.around ⟨before, lastAfter, m⟩ (first ++ inner ++ last))).1 =
        ['|'].intercalate (Layout.around ⟨noSpace, after, opt⟩ first ::
          (middle ++ [Layout.around ⟨lastBefore, noSpace, none⟩ last])) := by
    intro m
    rw [Layout.stripOptional_around _ core, split]
    simp [Layout.around, Marker.text, noSpace, inner]
  rcases marker with _ | blanks
  · refine ⟨⟨noSpace, after, opt⟩, ⟨lastBefore, noSpace, none⟩, ?_⟩
    rw [← single lastOpt, split]
    simp [Layout.around, Marker.text, inner]
  rcases lastOpt with _ | lastBlanks
  · refine ⟨⟨noSpace, after, opt⟩, ⟨lastBefore, noSpace, none⟩, ?_⟩
    rw [← single (some blanks), split]
    simp [Layout.around, Marker.text, inner]
  · -- The marker of the union goes, the one of its last alternative stays.
    refine ⟨⟨noSpace, after, opt⟩, ⟨lastBefore, lastAfter, some noSpace⟩, ?_⟩
    have tight : Text.Tight (first ++ inner ++ last ++ lastAfter.val ++ ['?']) :=
      core.tight.append (Text.tight_singleton (by decide))
    have hs := stripOptional_marked before.property tight lastBlanks.property blanks.property
    simp only [split]
    simp only [Layout.around, Marker.text, noSpace, inner, List.append_assoc, List.nil_append,
      List.cons_append] at hs ⊢
    rw [hs]

/-! ### Properties -/

theorem cutAt?_append {c : Char} {s : Text} (h : c ∉ s) (t : Text) :
    Text.cutAt? c (s ++ c :: t) = some (s, t) := by
  induction s with
  | nil => simp [Text.cutAt?]
  | cons d ds ih =>
    simp only [List.mem_cons, not_or] at h
    simp [Text.cutAt?, Ne.symm h.1, ih h.2]

theorem properties_intercalate {ts : List Text} (h : ∀ t ∈ ts, Sealed ',' t) :
    Form.properties ([','].intercalate ts) =
      ((ts.map Text.trim).filter (· ≠ [])).map Form.property := by
  cases ts with
  | nil => rfl
  | cons t ts =>
    rw [Form.properties, splitTopLevel, pieces_intercalate (by decide) h (by simp)]

namespace PropertyName

theorem tight_text (p : PropertyName) : Text.Tight p.text := by
  have hn := tight_of_isIdentifier p.name.property
  unfold text
  split_ifs
  · have hq : Text.Tight ['?'] := Text.tight_singleton (by decide)
    have ha := hn.append (t := []) hq
    rwa [List.append_nil] at ha
  · rwa [List.append_nil]

theorem colon_not_mem (p : PropertyName) : ':' ∉ p.text ++ p.after.val := by
  intro h
  simp only [text, List.mem_append] at h
  rcases h with (h | h) | h
  · exact (quiet_of_isNamePart (isNamePart_of_isIdentifier p.name.property ':' h)).2.2.1 rfl
  · split_ifs at h
    · simp at h
    · simp at h
  · exact (quiet_of_isBlank (p.after.property ':' h)).2.2.1 rfl

theorem trim_withValue (p : PropertyName) (value : Text) :
    Text.trim (p.withValue value) = p.text ++ p.after.val ++ ':' :: Text.trimEnd value := by
  have hs := Text.trimStart_of_tight p.tight_text (p.after.val ++ ':' :: value)
  rw [← List.append_assoc] at hs
  rw [withValue, Text.trim, Text.trimStart_blank_append p.before.property, hs,
    Text.trimEnd_append_cons (by decide)]

theorem property_trim_withValue (p : PropertyName) (value : Text) :
    Form.property (Text.trim (p.withValue value)) = .typed p.text (Text.trimEnd value) := by
  have hn : Text.trim (p.text ++ p.after.val) = p.text :=
    Text.trim_around (b := []) noSpace.property p.tight_text p.after.property
  rw [trim_withValue, Form.property, cutAt?_append p.colon_not_mem]
  exact congrArg (Property.typed · _) hn

end PropertyName

/-! ### Types -/

theorem renderObject_eq_objectType (ps : List Text) : renderObject ps = objectType ps := by
  cases ps with
  | nil => rfl
  | cons p ps => rw [renderObject, objectType, Text.joined_eq_intercalate]

theorem renderReference_eq_referenceType (mode : Mode) (target : Text) :
    renderReference mode target = referenceType mode target := by
  cases mode with
  | main => rfl
  | create => exact List.append_assoc target _ _
  | faunaCreate => rfl

theorem typeOfWord_scalarKeyword (s : Scalar) :
    Scalar.typeOfWord (scalarKeyword s) = scalarType s := by
  cases s <;> decide

theorem typeOfWord_otherName (name : OtherName) : Scalar.typeOfWord name.val = name.val := by
  have none : Scalar.ofKeyword? name.val = none := by
    rw [Option.eq_none_iff_forall_ne_some]
    intro s hs
    have hk := Scalar.keyword_of_ofKeyword? hs
    refine name.property.2 s ?_
    rw [← hk]
    cases s <;> rfl
  rw [Scalar.typeOfWord, none]

theorem typeText_trim (mode : Mode) (s : Text) : typeText mode (Text.trim s) = typeText mode s :=
  typeText_congr mode (congrArg Prod.fst (stripOptional_trim s))

theorem typeText_trimEnd (mode : Mode) (s : Text) :
    typeText mode (Text.trimEnd s) = typeText mode s :=
  typeText_congr mode (congrArg Prod.fst (stripOptional_trimEnd s))

theorem propertyText_trim_withValue (mode : Mode) (p : PropertyName) (value : Text) :
    propertyText mode (Form.property (Text.trim (p.withValue value))) =
      p.text ++ ": " ++ typeText mode value := by
  rw [p.property_trim_withValue, propertyText, typeText_trimEnd]
  rfl

/-- Alternatives in any layout are read one by one. -/
theorem typeText_of_stripOptional_union (mode : Mode) {s : Text} {first last : Text}
    {middle : List Text} (hf : IsAlternative first) (hm : ∀ t ∈ middle, IsAlternative t)
    (hl : IsAlternative last)
    (hs : (stripOptional s).1 = ['|'].intercalate (first :: (middle ++ [last]))) :
    typeText mode s = (" | " : Text).intercalate
      ((first :: (middle ++ [last])).map (typeText mode)) := by
  have parts : ∀ t ∈ first :: (middle ++ [last]), Sealed '|' t := by
    intro t ht
    simp only [List.mem_cons, List.mem_append, List.not_mem_nil, or_false] at ht
    rcases ht with rfl | ht | rfl
    · exact hf.sealedBar
    · exact (hm t ht).sealedBar
    · exact hl.sealedBar
  have cut : pieces '|' 0 (['|'].intercalate (first :: (middle ++ [last]))) =
      first :: (middle ++ [last]) := pieces_intercalate (by decide) parts (by simp)
  have top : hasTopLevel '|' (['|'].intercalate (first :: (middle ++ [last]))) = true := by
    rw [hasTopLevel, cut]
    simp
  have form : Form.ofText s = .union ((first :: (middle ++ [last])).map Text.trim) := by
    simp only [Form.ofText, hs, top, splitTopLevel, cut, if_true]
  have trimmed : (typeText mode ∘ Text.trim) = typeText mode := funext (typeText_trim mode)
  rw [typeText_of_union mode form, Text.joined_eq_intercalate, List.map_map, trimmed]
  rfl

mutual

theorem Construct.typeText_of_stripOptional (mode : Mode) :
    ∀ (c : Construct) {s : Text}, (stripOptional s).1 = c.text → typeText mode s = c.type mode
  | .scalar k, s, hs => by
    have hi : Text.isIdentifier (stripOptional s).1 = true := by
      rw [hs]
      exact isIdentifier_scalarKeyword k
    rw [typeText_of_word mode (ofText_word hi), hs]
    exact typeOfWord_scalarKeyword k
  | .named name, s, hs => by
    have hi : Text.isIdentifier (stripOptional s).1 = true := by
      rw [hs]
      exact name.property.1
    rw [typeText_of_word mode (ofText_word hi), hs]
    exact typeOfWord_otherName name
  | .array element, s, hs => by
    have form := ofText_array hs (Construct.array element).isAlternative_text.sealedBar
      element.isMember_text.balanced
    rw [typeText_of_array mode form, element.typeText_text mode]
    rfl
  | .reference before target after, s, hs => by
    have inside := ((isAlternative_space before).append
      (isAlternative_identifier target.property)).append (isAlternative_space after)
    have form := ofText_reference hs
      (Construct.reference before target after).isAlternative_text.sealedBar inside.balanced
    rw [typeText_of_reference mode form, renderReference_eq_referenceType,
      Text.trim_around before.property (tight_of_isIdentifier target.property) after.property,
      Construct.type_reference]
  | .object properties trailing, s, hs => by
    have pieces : ∀ t ∈ propertyTexts properties ++ trailing.map Subtype.val, Sealed ',' t := by
      intro t ht
      rcases List.mem_append.1 ht with hp | hb
      · exact (isMember_of_mem_propertyTexts properties t hp).sealedComma
      · obtain ⟨b, _, rfl⟩ := List.mem_map.1 hb
        exact (isAlternative_space b).sealedComma
    have blank : ((trailing.map Subtype.val).map Text.trim).filter (· ≠ []) = [] := by
      simp only [List.filter_eq_nil_iff, List.mem_map]
      rintro _ ⟨_, ⟨b, _, rfl⟩, rfl⟩
      simp [Text.trim_of_blank b.property]
    have bars := (Construct.object properties trailing).isAlternative_text.sealedBar
    have form := ofText_object hs bars
    rw [typeText_of_object mode form, properties_intercalate pieces, List.map_append,
      List.filter_append, blank, List.append_nil, map_propertyText mode properties,
      renderObject_eq_objectType, Construct.type_object]

theorem Expression.typeText_text (mode : Mode) :
    ∀ e : Expression, typeText mode e.text = e.type mode
  | .single layout construct =>
    construct.typeText_of_stripOptional mode (layout.stripOptional_around construct.isBare_text)
  | .union layout first middle lastLayout last marker => by
    obtain ⟨layout', lastLayout', hs⟩ := exists_stripOptional_union layout lastLayout
      first.isBare_text.tight last.isBare_text (partTexts middle) marker
    have hf := first.typeText_of_stripOptional mode (layout'.stripOptional_around first.isBare_text)
    have hl := last.typeText_of_stripOptional mode
      (lastLayout'.stripOptional_around last.isBare_text)
    rw [Expression.text_union, typeText_of_stripOptional_union mode
      (layout'.isAlternative_around first.isAlternative_text)
      (isAlternative_of_mem_partTexts middle)
      (lastLayout'.isAlternative_around last.isAlternative_text) hs, List.map_cons,
      List.map_append, hf, map_typeText_partTexts mode middle, List.map_singleton, hl,
      Expression.type_union]

theorem map_typeText_partTexts (mode : Mode) :
    ∀ parts : List (Layout × Construct),
      (partTexts parts).map (typeText mode) = partTypes mode parts
  | [] => rfl
  | (layout, construct) :: parts => by
    have hc := construct.typeText_of_stripOptional mode
      (layout.stripOptional_around construct.isBare_text)
    rw [partTexts_cons, List.map_cons, hc, map_typeText_partTexts mode parts, partTypes_cons]

theorem map_propertyText (mode : Mode) :
    ∀ properties : List (PropertyName × Expression),
      ((((propertyTexts properties).map Text.trim).filter (· ≠ [])).map Form.property).map
        (propertyText mode) = propertyTypes mode properties
  | [] => rfl
  | (name, value) :: properties => by
    have hne : Text.trim (name.withValue value.text) ≠ [] := by
      rw [name.trim_withValue]
      simp
    rw [propertyTexts_cons, List.map_cons, List.filter_cons_of_pos (by simpa using hne),
      List.map_cons, List.map_cons, propertyText_trim_withValue, value.typeText_text mode,
      map_propertyText mode properties, propertyTypes_cons]

end

/-- Reading a signature of the language gives its type, in every mode. -/
theorem typeText_of_language (mode : Mode) (e : Expression) :
    typeText mode e.text = e.type mode := e.typeText_text mode

end CollectionTypes.Language
