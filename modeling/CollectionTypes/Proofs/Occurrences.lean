import CollectionTypes.Text.Bytes
import Mathlib.Data.List.Basic

/-!
# Occurrences of a word

The occurrences of a word in a text are found from left to right and do not overlap. Where the word
stands at a known place, the place is among them unless an occurrence further left runs into it, and
it is the one with number `n` if exactly `n` are further left. `Matches` says which places are found
without the scan: the leftmost one, and then those of the text behind it.
-/

namespace CollectionTypes.Text

/-! ### Byte measures -/

theorem eq_of_append_eq_append {s t u v : Text} (h : s ++ u = t ++ v)
    (hl : byteLength s = byteLength t) : s = t := by
  induction s generalizing t with
  | nil =>
    cases t with
    | nil => rfl
    | cons c t =>
      have := c.utf8Size_pos
      simp only [byteLength_nil, byteLength_cons] at hl
      omega
  | cons c s ih =>
    cases t with
    | nil =>
      have := c.utf8Size_pos
      simp only [byteLength_nil, byteLength_cons] at hl
      omega
    | cons d t =>
      rw [List.cons_append, List.cons_append, List.cons.injEq] at h
      obtain ⟨rfl, h⟩ := h
      rw [ih h (Nat.add_left_cancel hl)]

theorem byteLength_mono {s t : Text} (h : s <+: t) : byteLength s ≤ byteLength t := by
  obtain ⟨u, rfl⟩ := h
  rw [byteLength_append]
  exact Nat.le_add_right _ _

/-- Of two beginnings of a text the one with fewer bytes begins the other. -/
theorem isPrefix_of_byteLength_le {s p t : Text} (hs : s <+: t) (hp : p <+: t)
    (h : byteLength s ≤ byteLength p) : s <+: p := by
  rcases List.prefix_or_prefix_of_prefix hs hp with hsp | hps
  · exact hsp
  · obtain ⟨u, rfl⟩ := hs
    obtain ⟨v, hv⟩ := hp
    have same : p = s := eq_of_append_eq_append hv (Nat.le_antisymm (byteLength_mono hps) h)
    exact same ▸ List.prefix_rfl

theorem length_le_iff_byteLength_le {s p t : Text} (hs : s <+: t) (hp : p <+: t) :
    s.length ≤ p.length ↔ byteLength s ≤ byteLength p := by
  constructor
  · intro h
    exact byteLength_mono (List.prefix_of_prefix_length_le hs hp h)
  · intro h
    exact (isPrefix_of_byteLength_le hs hp h).length_le

/-! ### The scan -/

section Scan

variable {word : Text}

theorem le_of_mem_occurrencesFrom {covered offset place : Nat} {t : Text}
    (h : place ∈ occurrencesFrom word covered offset t) : offset ≤ place := by
  induction t generalizing covered offset with
  | nil => cases covered <;> simp [occurrencesFrom] at h
  | cons c t ih =>
    cases covered with
    | succ covered => exact Nat.le_of_add_right_le (ih h)
    | zero =>
      rw [occurrencesFrom] at h
      split at h
      next =>
        rcases List.mem_cons.1 h with rfl | h
        · exact Nat.le_refl _
        · exact Nat.le_of_add_right_le (ih h)
      next => exact Nat.le_of_add_right_le (ih h)

/-- The word stands at every place where it is found. -/
theorem exists_append_of_mem_occurrencesFrom {covered offset place : Nat} {t : Text}
    (h : place ∈ occurrencesFrom word covered offset t) :
    ∃ p rest, t = p ++ (word ++ rest) ∧ place = offset + byteLength p := by
  induction t generalizing covered offset with
  | nil => cases covered <;> simp [occurrencesFrom] at h
  | cons c t ih =>
    have later {covered : Nat} (h : place ∈ occurrencesFrom word covered (offset + c.utf8Size) t) :
        ∃ p rest, c :: t = p ++ (word ++ rest) ∧ place = offset + byteLength p := by
      obtain ⟨p, rest, rfl, rfl⟩ := ih h
      exact ⟨c :: p, rest, rfl, by rw [byteLength_cons, Nat.add_assoc]⟩
    cases covered with
    | succ covered => exact later h
    | zero =>
      rw [occurrencesFrom] at h
      split at h
      next begins =>
        rcases List.mem_cons.1 h with rfl | h
        · obtain ⟨rest, hr⟩ := List.isPrefixOf_iff_prefix.1 begins
          exact ⟨[], rest, hr.symm, rfl⟩
        · exact later h
      next => exact later h

theorem pairwise_occurrencesFrom (word : Text) (covered offset : Nat) (t : Text) :
    (occurrencesFrom word covered offset t).Pairwise (· < ·) := by
  induction t generalizing covered offset with
  | nil => cases covered <;> exact .nil
  | cons c t ih =>
    cases covered with
    | succ covered => exact ih covered _
    | zero =>
      rw [occurrencesFrom]
      split
      next =>
        refine .cons ?_ (ih _ _)
        intro place h
        have := c.utf8Size_pos
        have := le_of_mem_occurrencesFrom h
        omega
      next => exact ih 0 _

/-- The word that stands behind `p` is found unless it is covered from the beginning or by an
occurrence in front of it. -/
theorem mem_occurrencesFrom_iff (hw : word ≠ []) (p rest : Text) (covered offset : Nat) :
    offset + byteLength p ∈ occurrencesFrom word covered offset (p ++ (word ++ rest)) ↔
      covered ≤ p.length ∧ ∀ start ∈ occurrencesFrom word covered offset (p ++ (word ++ rest)),
        start < offset + byteLength p → start + byteLength word ≤ offset + byteLength p := by
  induction p generalizing covered offset with
  | nil =>
    have late (start : Nat) (h : start ∈ occurrencesFrom word covered offset (word ++ rest))
        (hlt : start < offset) : start + byteLength word ≤ offset :=
      absurd (le_of_mem_occurrencesFrom h) (Nat.not_le.2 hlt)
    rw [byteLength_nil, Nat.add_zero, List.nil_append, and_iff_left late]
    obtain ⟨c, cs, rfl⟩ := List.exists_cons_of_ne_nil hw
    cases covered with
    | zero => simp [occurrencesFrom]
    | succ covered =>
      have behind :
          offset ∉ occurrencesFrom (c :: cs) covered (offset + c.utf8Size) (cs ++ rest) := by
        intro h
        have := c.utf8Size_pos
        have := le_of_mem_occurrencesFrom h
        omega
      simp [occurrencesFrom, behind]
  | cons c p ih =>
    rw [List.cons_append, byteLength_cons, ← Nat.add_assoc]
    cases covered with
    | succ covered =>
      rw [occurrencesFrom, ih, List.length_cons, Nat.add_le_add_iff_right]
    | zero =>
      rw [occurrencesFrom]
      split
      next begins =>
        -- an occurrence here covers the place exactly if it is longer than what is in front
        have fits := length_le_iff_byteLength_le (List.isPrefixOf_iff_prefix.1 begins)
          (List.prefix_append (c :: p) (word ++ rest))
        rw [List.length_cons, byteLength_cons] at fits
        have positive := c.utf8Size_pos
        rw [List.mem_cons, List.forall_mem_cons, ih]
        constructor
        · rintro (here | ⟨hl, apart⟩)
          · omega
          · have := fits.1 (by omega)
            exact ⟨Nat.zero_le _, fun _ => by omega, apart⟩
        · rintro ⟨_, first, apart⟩
          have := first (by omega)
          have := fits.2 (by omega)
          exact Or.inr ⟨by omega, apart⟩
      next => simp only [ih, Nat.zero_le]

end Scan

/-! ### One occurrence after another -/

/-- The word between `p` and `rest` stands nowhere further left. -/
def IsLeftmost (word p rest : Text) : Prop :=
  ∀ q r, p ++ (word ++ rest) = q ++ (word ++ r) → p.length ≤ q.length

/-- The byte offsets of occurrences in a text that starts at `offset`: the leftmost one, and then
those in the text behind it. -/
inductive Matches (word : Text) : (offset : Nat) → Text → List Nat → Prop
  | none {offset : Nat} {t : Text} (absent : ¬ word <:+: t) : Matches word offset t []
  | next {offset : Nat} {p rest : Text} {places : List Nat} (leftmost : IsLeftmost word p rest)
      (later : Matches word (offset + byteLength (p ++ word)) rest places) :
      Matches word offset (p ++ (word ++ rest)) ((offset + byteLength p) :: places)

section Matches

variable {word : Text}

theorem exists_leftmost {t : Text} (h : word <:+: t) :
    ∃ p rest, t = p ++ (word ++ rest) ∧ IsLeftmost word p rest := by
  induction t with
  | nil =>
    obtain rfl := List.eq_nil_of_infix_nil h
    exact ⟨[], [], rfl, fun q r _ => Nat.zero_le _⟩
  | cons c t ih =>
    by_cases begins : word <+: c :: t
    · obtain ⟨rest, hr⟩ := begins
      exact ⟨[], rest, hr.symm, fun q r _ => Nat.zero_le _⟩
    · obtain ⟨p, rest, rfl, leftmost⟩ := ih ((List.infix_cons_iff.1 h).resolve_left begins)
      refine ⟨c :: p, rest, rfl, ?_⟩
      intro q r hq
      cases q with
      | nil => exact absurd ⟨r, hq.symm⟩ begins
      | cons d q => exact Nat.succ_le_succ (leftmost q r (List.cons.inj hq).2)

/-- Covered characters are passed over. -/
theorem occurrencesFrom_covered (s t : Text) (offset : Nat) :
    occurrencesFrom word s.length offset (s ++ t) =
      occurrencesFrom word 0 (offset + byteLength s) t := by
  induction s generalizing offset with
  | nil => rfl
  | cons c s ih =>
    rw [List.length_cons, List.cons_append, occurrencesFrom, ih, byteLength_cons, Nat.add_assoc]

theorem occurrencesFrom_word_append (hw : word ≠ []) (rest : Text) (offset : Nat) :
    occurrencesFrom word 0 offset (word ++ rest) =
      offset :: occurrencesFrom word 0 (offset + byteLength word) rest := by
  obtain ⟨c, cs, rfl⟩ := List.exists_cons_of_ne_nil hw
  have begins : (c :: cs).isPrefixOf (c :: (cs ++ rest)) = true :=
    List.isPrefixOf_iff_prefix.2 ⟨rest, rfl⟩
  rw [List.cons_append, occurrencesFrom, if_pos begins, List.length_cons, Nat.add_sub_cancel,
    occurrencesFrom_covered, byteLength_cons, Nat.add_assoc]

theorem occurrencesFrom_cons_of_not_isPrefix {c : Char} {t : Text} (h : ¬ word <+: c :: t)
    (offset : Nat) :
    occurrencesFrom word 0 offset (c :: t) =
      occurrencesFrom word 0 (offset + c.utf8Size) t := by
  rw [occurrencesFrom, if_neg (mt List.isPrefixOf_iff_prefix.1 h)]

theorem occurrencesFrom_of_not_isInfix {t : Text} (h : ¬ word <:+: t) (offset : Nat) :
    occurrencesFrom word 0 offset t = [] := by
  induction t generalizing offset with
  | nil => rfl
  | cons c t ih =>
    rw [List.infix_cons_iff, not_or] at h
    rw [occurrencesFrom_cons_of_not_isPrefix h.1, ih h.2]

theorem occurrencesFrom_of_leftmost (hw : word ≠ []) {p rest : Text}
    (h : IsLeftmost word p rest) (offset : Nat) :
    occurrencesFrom word 0 offset (p ++ (word ++ rest)) =
      (offset + byteLength p) ::
        occurrencesFrom word 0 (offset + byteLength (p ++ word)) rest := by
  induction p generalizing offset with
  | nil => exact occurrencesFrom_word_append hw rest offset
  | cons c p ih =>
    have begins : ¬ word <+: c :: (p ++ (word ++ rest)) := by
      rintro ⟨r, hr⟩
      exact absurd (h [] r hr.symm) (Nat.not_succ_le_zero _)
    have further : IsLeftmost word p rest := by
      intro q r hq
      exact Nat.le_of_succ_le_succ (h (c :: q) r (congrArg (c :: ·) hq))
    rw [List.cons_append, occurrencesFrom_cons_of_not_isPrefix begins, ih further, List.cons_append,
      byteLength_cons, byteLength_cons, Nat.add_assoc, Nat.add_assoc]

/-- The scan finds the leftmost occurrence, and then goes on behind it. -/
theorem matches_iff (hw : word ≠ []) {offset : Nat} {t : Text} {places : List Nat} :
    Matches word offset t places ↔ occurrencesFrom word 0 offset t = places := by
  constructor
  · intro h
    induction h with
    | none absent => exact occurrencesFrom_of_not_isInfix absent _
    | next leftmost _ ih => rw [occurrencesFrom_of_leftmost hw leftmost, ih]
  · rintro rfl
    induction hn : t.length using Nat.strongRecOn generalizing t offset with
    | ind n ih =>
      by_cases h : word <:+: t
      · obtain ⟨p, rest, rfl, leftmost⟩ := exists_leftmost h
        rw [occurrencesFrom_of_leftmost hw leftmost]
        have shorter : rest.length < n := by
          have := List.length_pos_iff.2 hw
          simp only [List.length_append] at hn
          omega
        exact .next leftmost (ih _ shorter rfl)
      · rw [occurrencesFrom_of_not_isInfix h]
        exact .none h

end Matches

/-! ### Numbered occurrences -/

theorem getElem?_eq_some_iff_of_pairwise {l : List Nat} (h : l.Pairwise (· < ·)) {n x : Nat} :
    l[n]? = some x ↔ x ∈ l ∧ (l.filter (· < x)).length = n := by
  induction l generalizing n with
  | nil => simp
  | cons a l ih =>
    obtain ⟨above, hl⟩ := List.pairwise_cons.1 h
    have none_below : (a :: l).filter (· < a) = [] := by
      rw [List.filter_eq_nil_iff]
      intro b hb
      rcases List.mem_cons.1 hb with rfl | hb
      · simp
      · simpa using Nat.le_of_lt (above b hb)
    have one_more {x : Nat} (hx : x ∈ l) : (a :: l).filter (· < x) = a :: l.filter (· < x) :=
      List.filter_cons_of_pos (by simpa using above x hx)
    cases n with
    | zero =>
      rw [List.getElem?_cons_zero, Option.some.injEq]
      constructor
      · rintro rfl
        exact ⟨List.mem_cons_self, by rw [none_below, List.length_nil]⟩
      · rintro ⟨hx, hn⟩
        rcases List.mem_cons.1 hx with rfl | hx
        · rfl
        · rw [one_more hx] at hn
          simp at hn
    | succ n =>
      rw [List.getElem?_cons_succ, ih hl]
      constructor
      · rintro ⟨hx, hn⟩
        exact ⟨List.mem_cons_of_mem a hx, by rw [one_more hx, List.length_cons, hn]⟩
      · rintro ⟨hx, hn⟩
        rcases List.mem_cons.1 hx with rfl | hx
        · rw [none_below] at hn
          simp at hn
        · rw [one_more hx, List.length_cons, Nat.add_right_cancel_iff] at hn
          exact ⟨hx, hn⟩

section Words

variable {word : Text} {p rest : Text}

theorem mem_occurrences_iff (hw : word ≠ []) :
    byteLength p ∈ occurrences word (p ++ (word ++ rest)) ↔
      ∀ start ∈ occurrences word (p ++ (word ++ rest)),
        start < byteLength p → start + byteLength word ≤ byteLength p := by
  have found := mem_occurrencesFrom_iff hw p rest 0 0
  rw [Nat.zero_add, and_iff_right (Nat.zero_le _)] at found
  exact found

theorem getElem?_occurrences_eq_some_iff {t : Text} {n place : Nat} :
    (occurrences word t)[n]? = some place ↔
      place ∈ occurrences word t ∧ ((occurrences word t).filter (· < place)).length = n :=
  getElem?_eq_some_iff_of_pairwise (pairwise_occurrencesFrom word 0 0 t)

theorem exists_append_of_mem_occurrences {t : Text} {place : Nat} (h : place ∈ occurrences word t) :
    ∃ p rest, t = p ++ (word ++ rest) ∧ place = byteLength p := by
  obtain ⟨p, rest, ht, hp⟩ := exists_append_of_mem_occurrencesFrom h
  exact ⟨p, rest, ht, by rw [hp, Nat.zero_add]⟩

end Words

/-! ### Words in quotes -/

/-- The word between double quotes. -/
def inDoubleQuotes (name : Text) : Text := '"' :: name ++ ['"']

theorem inDoubleQuotes_ne_nil (name : Text) : inDoubleQuotes name ≠ [] := List.cons_ne_nil _ _

theorem inDoubleQuotes_inj {s t : Text} (h : inDoubleQuotes s = inDoubleQuotes t) : s = t :=
  List.append_cancel_right (List.cons.inj h).2

theorem byteLength_inDoubleQuotes (name : Text) :
    byteLength (inDoubleQuotes name) = byteLength name + 2 := by
  have size : '"'.utf8Size = 1 := by decide
  simp only [inDoubleQuotes, List.cons_append, byteLength_cons, byteLength_append, byteLength_nil,
    size]
  omega

theorem eq_of_append_quote {s t v : Text} (h : '"' ∉ s) (he : t ++ '"' :: v = s ++ ['"']) :
    t = s := by
  rcases List.append_eq_append_iff.1 he with ⟨a, rfl, ha⟩ | ⟨a, rfl, ha⟩
  · cases a with
    | nil => rw [List.append_nil]
    | cons b a =>
      obtain ⟨rfl, -⟩ := List.cons.inj ha
      exact absurd (by simp) h
  · cases a with
    | nil => rw [List.append_nil]
    | cons b a => simp at ha

section Quotation

variable {t p rest body name : Text}

/-- When the content of a quotation is the place of the quoted name with this number. -/
theorem quotedSpan?_eq_some_iff (ht : t = p ++ (inDoubleQuotes body ++ rest)) {n : Nat} :
    quotedSpan? name t n = some ⟨byteLength p + 1, byteLength body⟩ ↔
      body = name ∧ ((occurrences (inDoubleQuotes name) t).filter (· < byteLength p)).length = n ∧
        ∀ start ∈ occurrences (inDoubleQuotes name) t,
          start < byteLength p → start + byteLength (inDoubleQuotes name) ≤ byteLength p := by
  have span : quotedSpan? name t n = some ⟨byteLength p + 1, byteLength body⟩ ↔
      (occurrences (inDoubleQuotes name) t)[n]? = some (byteLength p) ∧
        byteLength name = byteLength body := by
    simp [quotedSpan?, inDoubleQuotes]
  rw [span, getElem?_occurrences_eq_some_iff]
  constructor
  · rintro ⟨⟨hm, hn⟩, hl⟩
    obtain ⟨p', rest', ht', hp⟩ := exists_append_of_mem_occurrences hm
    rw [ht] at ht'
    obtain rfl := eq_of_append_eq_append ht' hp
    have same := eq_of_append_eq_append (List.append_cancel_left ht')
      (by rw [byteLength_inDoubleQuotes, byteLength_inDoubleQuotes, hl])
    obtain rfl := inDoubleQuotes_inj same
    rw [ht] at hm hn ⊢
    exact ⟨rfl, hn, (mem_occurrences_iff (inDoubleQuotes_ne_nil body)).1 hm⟩
  · rintro ⟨rfl, hn, apart⟩
    rw [ht] at hn apart ⊢
    exact ⟨⟨(mem_occurrences_iff (inDoubleQuotes_ne_nil body)).2 apart, hn⟩, rfl⟩

/-- A quoted name without quotes inside can only run into a quotation of it by ending where that
begins. -/
theorem exists_eq_append_of_overlap (ht : t = p ++ (inDoubleQuotes name ++ rest))
    (hq : '"' ∉ name) {start : Nat} (h : start ∈ occurrences (inDoubleQuotes name) t)
    (hlt : start < byteLength p)
    (hlong : ¬ start + byteLength (inDoubleQuotes name) ≤ byteLength p) :
    ∃ r, p = r ++ '"' :: name := by
  obtain ⟨r, s, hs, rfl⟩ := exists_append_of_mem_occurrences h
  rw [ht] at hs
  -- the occurrence begins inside `p` and ends behind it, so a part `u` of it is the end of `p`
  have hr : r <+: p := isPrefix_of_byteLength_le (List.prefix_append r _)
    (hs ▸ List.prefix_append p _) (Nat.le_of_lt hlt)
  obtain ⟨u, rfl⟩ := hr
  rw [List.append_assoc, List.append_cancel_left_eq] at hs
  rw [byteLength_append] at hlt hlong
  have hu : u <+: inDoubleQuotes name := isPrefix_of_byteLength_le (hs ▸ List.prefix_append u _)
    (List.prefix_append (inDoubleQuotes name) s) (by omega)
  obtain ⟨v, hv⟩ := hu
  rw [← hv, List.append_assoc, List.append_assoc, List.append_cancel_left_eq, ← List.append_assoc,
    hv] at hs
  cases u with
  | nil => simp at hlt
  | cons a u =>
    cases v with
    | nil =>
      rw [← hv, List.append_nil] at hlong
      exact absurd (Nat.le_refl _) hlong
    | cons b v =>
      -- what is left of the occurrence begins as the quotation does
      obtain ⟨rfl, -⟩ := List.cons.inj hs
      obtain ⟨rfl, he⟩ := List.cons.inj hv
      rw [eq_of_append_quote hq he]
      exact ⟨r, rfl⟩

end Quotation

end CollectionTypes.Text
