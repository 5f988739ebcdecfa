import CollectionTypes.Proofs.Origin
import Mathlib.Data.List.Infix
import Mathlib.Data.List.TakeWhile

/-!
# Optional markers

A signature is marked if its last character that is no blank is `?`. Stripping takes away one
marker, so a second one in front of it stays, and can be stripped in turn. `SingleMarkers` excludes
texts with a marker right in front of another, blanks aside. In such a text a part keeps its meaning
whether the blanks and the marker around it are stripped before it is cut out or afterwards.
-/

namespace CollectionTypes

namespace Text

theorem trim_blank_append {b : Text} (h : Blank b) (t : Text) : trim (b ++ t) = trim t := by
  rw [trim, trimStart_blank_append h]
  rfl

theorem trim_append_blank {b : Text} (h : Blank b) (t : Text) : trim (t ++ b) = trim t := by
  rcases blank_or_tight t with ht | ⟨before, u, after, rfl, hb, hu, ha⟩
  · rw [trim_of_blank ht, trim_of_blank (ht.append h)]
  · rw [trim_around hb hu ha, List.append_assoc, trim_around hb hu (ha.append h)]

theorem exists_blank_trimEnd (t : Text) : ∃ b, Blank b ∧ t = trimEnd t ++ b := by
  refine ⟨(t.reverse.takeWhile isBlank).reverse, ?_, ?_⟩
  · intro c hc
    exact List.mem_takeWhile_imp (List.mem_reverse.1 hc)
  · rw [trimEnd, ← List.reverse_append, List.takeWhile_append_dropWhile, List.reverse_reverse]

end Text

/-- Whether a text ends in an optional marker, blanks at its end aside. -/
def Marked (s : Text) : Prop := (Text.trim s).getLast? = some '?'

instance : DecidablePred Marked := fun s =>
  inferInstanceAs (Decidable ((Text.trim s).getLast? = some '?'))

theorem stripOptional_snd (s : Text) : (stripOptional s).2 = decide (Marked s) := by
  unfold stripOptional Marked Text.before?
  split_ifs with h <;> simp [h]

theorem Marked.exists_gap {s : Text} (h : Marked s) :
    ∃ front gap, Text.Blank gap ∧ s = front ++ '?' :: gap := by
  rcases Text.blank_or_tight s with hs | ⟨before, u, after, rfl, hb, hu, ha⟩
  · rw [Marked, Text.trim_of_blank hs] at h
    exact absurd h (by simp)
  · rw [Marked, Text.trim_around hb hu ha] at h
    obtain ⟨r, rfl⟩ := List.getLast?_eq_some_iff.1 h
    exact ⟨before ++ r, after, ha, by simp⟩

/-! ### What stripping takes away -/

/-- What stripping takes away behind a text: blanks, and a marker among them or none. -/
inductive Margin : Text → Prop
  | blank {a : Text} (ha : Text.Blank a) : Margin a
  | marker {b a : Text} (hb : Text.Blank b) (ha : Text.Blank a) : Margin (b ++ '?' :: a)

theorem exists_margin (s : Text) :
    ∃ before after, Text.Blank before ∧ Margin after ∧
      s = before ++ ((stripOptional s).1 ++ after) := by
  rcases Text.blank_or_tight s with hs | ⟨before, u, after, rfl, hb, hu, ha⟩
  · refine ⟨s, [], hs, .blank Text.blank_nil, ?_⟩
    simp [stripOptional, Text.trim_of_blank hs, Text.before?]
  · by_cases h : u.getLast? = some '?'
    · obtain ⟨r, rfl⟩ := List.getLast?_eq_some_iff.1 h
      obtain ⟨gap, hg, hr⟩ := Text.exists_blank_trimEnd r
      refine ⟨before, gap ++ '?' :: after, hb, .marker hg ha, ?_⟩
      have strip : (stripOptional (before ++ (r ++ ['?']) ++ after)).1 = Text.trimEnd r := by
        simp only [stripOptional, Text.trim_around hb hu ha, Text.before?_eq_some_iff.2 rfl]
      rw [strip, ← List.append_assoc (Text.trimEnd r), ← hr]
      simp
    · refine ⟨before, after, hb, .blank ha, ?_⟩
      rw [stripOptional_unmarked hb hu ha h, List.append_assoc]

theorem stripOptional_append_margin {t after : Text} (h : Margin after)
    (ht : Marked t → Text.Blank after) :
    (stripOptional (t ++ after)).1 = (stripOptional t).1 := by
  cases h with
  | blank ha => simp only [stripOptional, Text.trim_append_blank ha]
  | @marker b a hb ha =>
    have unmarked : ¬ Marked t := by
      intro hm
      have mark := ht hm '?' (by simp)
      exact absurd mark (by decide)
    rcases Text.blank_or_tight t with hb' | ⟨before, u, a', rfl, hb', hu, ha'⟩
    · have whole : Text.trim (t ++ (b ++ '?' :: a)) = ['?'] := by
        have := Text.trim_around (hb'.append hb) (Text.tight_singleton (c := '?') (by decide)) ha
        simpa using this
      simp [stripOptional, whole, Text.trim_of_blank hb', Text.before?, Text.trimEnd]
    · rw [Marked, Text.trim_around hb' hu ha'] at unmarked
      have whole : before ++ u ++ a' ++ (b ++ '?' :: a) =
          before ++ (u ++ (a' ++ b) ++ ['?']) ++ a := by simp
      rw [whole, stripOptional_marked hb' hu (ha'.append hb) ha,
        stripOptional_unmarked hb' hu ha' unmarked]

/-! ### Texts without a second marker -/

/-- Between two markers there is more than blanks. -/
def SingleMarkers (s : Text) : Prop :=
  ∀ gap, Text.Blank gap → ¬ '?' :: gap ++ ['?'] <:+: s

namespace SingleMarkers

theorem mono {s t : Text} (h : SingleMarkers t) (hs : s <:+: t) : SingleMarkers s := by
  intro gap hg hi
  exact h gap hg (hi.trans hs)

theorem iff_forall_tails {s : Text} :
    SingleMarkers s ↔
      ∀ u ∈ s.tails, u.head? = some '?' → (Text.trimStart u.tail).head? ≠ some '?' := by
  constructor
  · intro h u hu hq hn
    obtain ⟨v, rfl⟩ := List.head?_eq_some_iff.1 hq
    obtain ⟨w, hw⟩ := List.head?_eq_some_iff.1 hn
    refine h (v.takeWhile Text.isBlank) (fun c hc => List.mem_takeWhile_imp hc) ?_
    have hv : v = v.takeWhile Text.isBlank ++ '?' :: w := by
      rw [← hw]
      exact List.takeWhile_append_dropWhile.symm
    have hp : '?' :: v.takeWhile Text.isBlank ++ ['?'] <+: '?' :: v := by
      refine ⟨w, ?_⟩
      conv_rhs => rw [hv]
      simp
    exact hp.isInfix.trans ((List.mem_tails _ _).1 hu).isInfix
  · rintro h gap hg ⟨front, back, rfl⟩
    have tail := h ('?' :: (gap ++ '?' :: back)) ((List.mem_tails _ _).2 ⟨front, by simp⟩) rfl
    apply tail
    rw [List.tail_cons, Text.trimStart_blank_append hg, Text.trimStart_cons (by decide)]
    rfl

instance : DecidablePred SingleMarkers := fun _ => decidable_of_iff _ iff_forall_tails.symm

theorem blank_of_marked {t after : Text} (h : SingleMarkers (t ++ after)) (hm : Margin after)
    (ht : Marked t) : Text.Blank after := by
  cases hm with
  | blank ha => exact ha
  | @marker b a hb ha =>
    obtain ⟨front, gap, hg, rfl⟩ := ht.exists_gap
    exact absurd ⟨front, a, by simp⟩ (h (gap ++ b) (hg.append hb))

/-- What stands around a part of a text has no influence on what stripping leaves of it. -/
theorem stripOptional_around {before t after : Text} (h : SingleMarkers (t ++ after))
    (hb : Text.Blank before) (hm : Margin after) :
    (stripOptional (before ++ (t ++ after))).1 = (stripOptional t).1 := by
  have front : stripOptional (before ++ (t ++ after)) = stripOptional (t ++ after) := by
    simp only [stripOptional, Text.trim_blank_append hb]
  rw [front, stripOptional_append_margin hm fun ht => h.blank_of_marked hm ht]

end SingleMarkers

end CollectionTypes
