import CollectionTypes.Signature.Form

/-!
# Trimming and blanks

Blanks around a text that begins and ends with other characters are exactly what trimming takes
away, and trimming twice is trimming once. The optional marker of a signature is looked for after
trimming, so blanks around a signature and its marker have no meaning.
-/

namespace CollectionTypes.Text

/-- White space, possibly none. -/
def Blank (t : Text) : Prop := ∀ c ∈ t, isBlank c = true

instance : DecidablePred Blank := fun t =>
  decidable_of_iff (t.all isBlank = true) (by simp [Blank])

/-- Neither empty nor with blanks at an end. -/
structure Tight (t : Text) : Prop where
  head : ∃ c cs, t = c :: cs ∧ isBlank c = false
  last : ∃ cs c, t = cs ++ [c] ∧ isBlank c = false

theorem blank_nil : Blank [] := by simp [Blank]

theorem Blank.append {s t : Text} (hs : Blank s) (ht : Blank t) : Blank (s ++ t) := by
  intro c hc
  rcases List.mem_append.1 hc with h | h
  · exact hs c h
  · exact ht c h

theorem Blank.reverse {t : Text} (h : Blank t) : Blank t.reverse := by
  intro c hc
  exact h c (List.mem_reverse.1 hc)

theorem Tight.reverse {t : Text} (h : Tight t) : Tight t.reverse := by
  obtain ⟨c, cs, hc, hb⟩ := h.head
  obtain ⟨ds, d, hd, hb'⟩ := h.last
  exact ⟨⟨d, ds.reverse, by rw [hd]; simp, hb'⟩, ⟨cs.reverse, c, by rw [hc]; simp, hb⟩⟩

theorem Tight.append {s t u : Text} (hs : Tight s) (hu : Tight u) : Tight (s ++ t ++ u) := by
  obtain ⟨c, cs, rfl, hc⟩ := hs.head
  obtain ⟨ds, d, rfl, hd⟩ := hu.last
  exact ⟨⟨c, cs ++ t ++ (ds ++ [d]), by simp, hc⟩, ⟨c :: cs ++ t ++ ds, d, by simp, hd⟩⟩

theorem tight_singleton {c : Char} (h : isBlank c = false) : Tight [c] :=
  ⟨⟨c, [], rfl, h⟩, ⟨[], c, rfl, h⟩⟩

/-! ### One end -/

theorem trimStart_blank_append {b : Text} (h : Blank b) (t : Text) :
    trimStart (b ++ t) = trimStart t := by
  induction b with
  | nil => rfl
  | cons c cs ih =>
    have hc : isBlank c = true := h c (by simp)
    have ht := ih fun d hd => h d (by simp [hd])
    simpa [trimStart, hc] using ht

theorem trimStart_cons {c : Char} (h : isBlank c = false) (cs : Text) :
    trimStart (c :: cs) = c :: cs := by
  simp [trimStart, h]

theorem trimEnd_eq_reverse (t : Text) : trimEnd t = (trimStart t.reverse).reverse := rfl

theorem trimEnd_append_blank {b : Text} (h : Blank b) (t : Text) :
    trimEnd (t ++ b) = trimEnd t := by
  rw [trimEnd_eq_reverse, List.reverse_append, trimStart_blank_append h.reverse]
  rfl

/-- Nothing before a character that is not blank is taken away at the end. -/
theorem trimEnd_append_cons {c : Char} (h : isBlank c = false) (s t : Text) :
    trimEnd (s ++ c :: t) = s ++ c :: trimEnd t := by
  have drop : ∀ r u : Text, trimStart (r ++ c :: u) = trimStart r ++ c :: u := by
    intro r u
    induction r with
    | nil => simp [trimStart, h]
    | cons d ds ih =>
      by_cases hd : isBlank d = true
      · simpa [trimStart, hd] using ih
      · simp [trimStart, hd]
  rw [trimEnd_eq_reverse, List.reverse_append, List.reverse_cons, List.append_assoc,
    List.singleton_append, drop, trimEnd_eq_reverse]
  simp

theorem trimStart_of_tight {t : Text} (h : Tight t) (s : Text) : trimStart (t ++ s) = t ++ s := by
  obtain ⟨c, cs, rfl, hc⟩ := h.head
  exact trimStart_cons hc _

theorem trimEnd_of_tight {t : Text} (h : Tight t) (s : Text) : trimEnd (s ++ t) = s ++ t := by
  rw [trimEnd_eq_reverse, List.reverse_append, trimStart_of_tight h.reverse]
  simp

/-! ### Both ends -/

theorem trim_around {b t a : Text} (hb : Blank b) (ht : Tight t) (ha : Blank a) :
    trim (b ++ t ++ a) = t := by
  rw [trim, List.append_assoc, trimStart_blank_append hb, trimStart_of_tight ht,
    trimEnd_append_blank ha]
  simpa using trimEnd_of_tight ht []

theorem trim_of_blank {b : Text} (h : Blank b) : trim b = [] := by
  have hs := trimStart_blank_append h []
  rw [List.append_nil] at hs
  rw [trim, hs]
  rfl

/-- Every text is blank, or tight between blanks. -/
theorem blank_or_tight (t : Text) :
    Blank t ∨ ∃ b u a, t = b ++ u ++ a ∧ Blank b ∧ Tight u ∧ Blank a := by
  induction t with
  | nil => exact Or.inl blank_nil
  | cons c cs ih =>
    rcases ih with h | ⟨b, u, a, rfl, hb, hu, ha⟩
    · by_cases hc : isBlank c = true
      · left
        intro d hd
        rcases List.mem_cons.1 hd with rfl | hd
        · exact hc
        · exact h d hd
      · exact Or.inr ⟨[], [c], cs, by simp, blank_nil, tight_singleton (by simpa using hc), h⟩
    · right
      by_cases hc : isBlank c = true
      · refine ⟨c :: b, u, a, by simp, ?_, hu, ha⟩
        intro d hd
        rcases List.mem_cons.1 hd with rfl | hd
        · exact hc
        · exact hb d hd
      · have hc' : isBlank c = false := by simpa using hc
        exact ⟨[], [c] ++ b ++ u, a, by simp, blank_nil, (tight_singleton hc').append hu, ha⟩

theorem trim_of_tight {t : Text} (h : Tight t) : trim t = t := by
  simpa using trim_around blank_nil h blank_nil

theorem trim_trim (t : Text) : trim (trim t) = trim t := by
  rcases blank_or_tight t with h | ⟨b, u, a, rfl, hb, hu, ha⟩
  · rw [trim_of_blank h]
    rfl
  · rw [trim_around hb hu ha, trim_of_tight hu]

theorem trim_trimEnd (t : Text) : trim (trimEnd t) = trim t := by
  rcases blank_or_tight t with h | ⟨b, u, a, rfl, hb, hu, ha⟩
  · have he := trimEnd_append_blank h []
    rw [List.nil_append] at he
    rw [he, trim_of_blank h]
    rfl
  · rw [trimEnd_append_blank ha, trimEnd_of_tight hu, trim_around hb hu ha]
    simpa using trim_around hb hu blank_nil

end Text

/-! ### The optional marker -/

theorem stripOptional_trim (s : Text) : stripOptional (Text.trim s) = stripOptional s := by
  simp only [stripOptional, Text.trim_trim]

theorem stripOptional_trimEnd (s : Text) : stripOptional (Text.trimEnd s) = stripOptional s := by
  simp only [stripOptional, Text.trim_trimEnd]

theorem stripOptional_unmarked {b t a : Text} (hb : Text.Blank b) (ht : Text.Tight t)
    (ha : Text.Blank a) (h : t.getLast? ≠ some '?') :
    stripOptional (b ++ t ++ a) = (t, false) := by
  have hn : Text.before? '?' t = none := by simp [Text.before?, h]
  simp only [stripOptional, Text.trim_around hb ht ha, hn]

theorem stripOptional_marked {b t m a : Text} (hb : Text.Blank b) (ht : Text.Tight t)
    (hm : Text.Blank m) (ha : Text.Blank a) :
    stripOptional (b ++ (t ++ m ++ ['?']) ++ a) = (t, true) := by
  have hq : Text.Tight ['?'] := Text.tight_singleton (by decide)
  have hs : Text.before? '?' (t ++ m ++ ['?']) = some (t ++ m) := Text.before?_eq_some_iff.2 rfl
  have he : Text.trimEnd (t ++ m) = t := by
    rw [Text.trimEnd_append_blank hm]
    simpa using Text.trimEnd_of_tight ht []
  simp only [stripOptional, Text.trim_around hb (ht.append hq) ha, hs, he]

end CollectionTypes
