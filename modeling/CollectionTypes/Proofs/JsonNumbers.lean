import CollectionTypes.Json.Number
import CollectionTypes.Proofs.JsonGrammar
import Mathlib.Tactic.SplitIfs

/-!
# Numbers are read as written

Whatever the reader or the skipper takes as a number has the form of a number. Conversely the
skipper takes every number, and the reader every integer of 64 bits, as long as the text after it
does not continue the number.
-/

namespace CollectionTypes.Json

/-- Whether a number ends in front of this text. -/
def endsNumber : Text → Bool
  | [] => true
  | c :: _ => !c.isDigit && c != '.' && !isExponentLetter c

theorem endsNumber_cons_iff {c : Char} {cs : Text} :
    endsNumber (c :: cs) = true ↔
      c.isDigit = false ∧ c ≠ '.' ∧ isExponentLetter c = false := by
  simp [endsNumber, and_assoc]

theorem startsWithDigit_of_endsNumber {t : Text} (h : endsNumber t = true) :
    startsWithDigit t = false := by
  cases t with
  | nil => rfl
  | cons c cs => exact (endsNumber_cons_iff.1 h).1

/-! ### Digits -/

theorem dropDigits_append {ds t : Text} (hd : ds.all Char.isDigit = true)
    (ht : startsWithDigit t = false) : dropDigits (ds ++ t) = t := by
  rw [dropDigits, List.dropWhile_append_of_pos (List.all_eq_true.1 hd)]
  cases t with
  | nil => rfl
  | cons c cs => exact List.dropWhile_cons_of_neg (by simpa [startsWithDigit] using ht)

theorem dropDigits_of_not_startsWithDigit {t : Text} (h : startsWithDigit t = false) :
    dropDigits t = t := by
  have hd : ([] : Text).all Char.isDigit = true := rfl
  exact dropDigits_append hd h

theorem exists_digits_dropDigits (t : Text) :
    ∃ ds : Text, ds.all Char.isDigit = true ∧ t = ds ++ dropDigits t :=
  ⟨t.takeWhile Char.isDigit, List.all_takeWhile, List.takeWhile_append_dropWhile.symm⟩

theorem exists_digits_of_startsWithDigit {t : Text} (h : startsWithDigit t = true) :
    ∃ d : Digits, t = d.val ++ dropDigits t := by
  cases t with
  | nil => simp [startsWithDigit] at h
  | cons c cs =>
    have hc : c.isDigit = true := h
    obtain ⟨ds, hd, hs⟩ := exists_digits_dropDigits cs
    refine ⟨⟨c :: ds, by simp, by simp [hc, hd]⟩, ?_⟩
    rw [dropDigits, List.dropWhile_cons_of_pos hc]
    exact congrArg (c :: ·) hs

theorem exists_digits_of_takeDigits {bound n m count : Nat} {t rest : Text}
    (h : takeDigits bound n t = (m, count, rest)) :
    ∃ ds : Text, ds.all Char.isDigit = true ∧ t = ds ++ rest ∧ ds.length = count := by
  induction t generalizing n m count with
  | nil =>
    simp only [takeDigits, Prod.mk.injEq] at h
    obtain ⟨_, rfl, rfl⟩ := h
    exact ⟨[], rfl, rfl, rfl⟩
  | cons c cs ih =>
    unfold takeDigits at h
    split at h
    next hc =>
      simp only [Bool.and_eq_true] at hc
      simp only [Prod.mk.injEq] at h
      obtain ⟨_, rfl, rfl⟩ := h
      obtain ⟨ds, hd, hs, hl⟩ := ih rfl
      refine ⟨c :: ds, by simp [hc.1, hd], by rw [List.cons_append, ← hs], by simp [hl]⟩
    next =>
      simp only [Prod.mk.injEq] at h
      obtain ⟨_, rfl, rfl⟩ := h
      exact ⟨[], rfl, rfl, rfl⟩

theorem le_valueFrom (n : Nat) (ds : Text) : n ≤ Numeral.valueFrom n ds := by
  induction ds generalizing n with
  | nil => exact Nat.le_refl n
  | cons c cs ih =>
    have := ih (n * 10 + (c.toNat - '0'.toNat))
    rw [Numeral.valueFrom, List.foldl_cons, ← Numeral.valueFrom]
    omega

theorem takeDigits_append {bound n : Nat} {ds t : Text} (hd : ds.all Char.isDigit = true)
    (ht : startsWithDigit t = false) (hb : Numeral.valueFrom n ds ≤ bound) :
    takeDigits bound n (ds ++ t) = (Numeral.valueFrom n ds, ds.length, t) := by
  induction ds generalizing n with
  | nil =>
    cases t with
    | nil => rfl
    | cons c cs =>
      have hc : c.isDigit = false := ht
      simp [takeDigits, hc, Numeral.valueFrom]
  | cons c cs ih =>
    simp only [List.all_cons, Bool.and_eq_true] at hd
    have hv : Numeral.valueFrom n (c :: cs) =
        Numeral.valueFrom (n * 10 + digitValue c) cs := rfl
    rw [hv] at hb ⊢
    have hn := Nat.le_trans (le_valueFrom _ cs) hb
    simp [takeDigits, hd.1, hn, ih hd.2 hb]

/-- A digit that is no zero and the digits after it. -/
def WholeDigits.nonzero {c : Char} {ds : Text} (hc : c.isDigit = true) (h0 : c ≠ '0')
    (hd : ds.all Char.isDigit = true) : WholeDigits :=
  ⟨⟨c :: ds, by simp, by simp [hc, hd]⟩, by simp [h0]⟩

def WholeDigits.zero : WholeDigits := ⟨⟨['0'], by decide, by decide⟩, by decide⟩

theorem WholeDigits.zero_or_nonzero (w : WholeDigits) :
    w.val.val = ['0'] ∨ ∃ (c : Char) (ds : Text),
      w.val.val = c :: ds ∧ c.isDigit = true ∧ c ≠ '0' ∧ ds.all Char.isDigit = true := by
  obtain ⟨⟨t, hne, hd⟩, hz⟩ := w
  cases t with
  | nil => exact absurd rfl hne
  | cons c ds =>
    by_cases h0 : c = '0'
    · left
      exact hz (by simp [h0])
    · simp only [List.all_cons, Bool.and_eq_true] at hd
      right
      exact ⟨c, ds, rfl, hd.1, h0, hd.2⟩

/-! ### Numbers whose value is not used -/

theorem exists_exponent {c : Char} (hc : isExponentLetter c = true) (s : Option Bool) (d : Digits)
    (rest : Text) :
    ∃ e : Exponent, c :: (Exponent.signText s ++ (d.val ++ rest)) = e.text ++ rest := by
  refine ⟨⟨c == 'E', s, d⟩, ?_⟩
  rw [Exponent.text, List.append_assoc, List.cons_append]
  simp only [isExponentLetter, Bool.or_eq_true, beq_iff_eq] at hc
  rcases hc with rfl | rfl <;> rfl

theorem exists_exponent_of_skipExponent {c : Char} {t rest : Text}
    (hc : isExponentLetter c = true) (h : skipExponent t = .ok rest) :
    ∃ e : Exponent, c :: t = e.text ++ rest := by
  unfold skipExponent at h
  simp only at h
  split at h
  next => simp [atNext] at h
  next d ds hd =>
    have sign : ∃ s : Option Bool, t = Exponent.signText s ++ d :: ds := by
      split at hd
      · exact ⟨some false, by rw [← hd]; rfl⟩
      · exact ⟨some true, by rw [← hd]; rfl⟩
      · exact ⟨none, hd⟩
    obtain ⟨s, hs⟩ := sign
    split at h
    next hdigit =>
      obtain rfl := Except.ok.inj h
      obtain ⟨digits, hdigits⟩ := exists_digits_of_startsWithDigit (t := d :: ds) hdigit
      rw [dropDigits, List.dropWhile_cons_of_pos hdigit] at hdigits
      rw [hs, hdigits]
      exact exists_exponent hc s digits _
    next => simp [atNext] at h

theorem exists_exponent_of_skipScale {t rest : Text} (h : skipScale t = .ok rest) :
    ∃ e : Option Exponent, t = Numeral.exponentText e ++ rest := by
  unfold skipScale at h
  split at h
  next =>
    obtain rfl := Except.ok.inj h
    exact ⟨none, rfl⟩
  next c cs =>
    split at h
    next hc =>
      obtain ⟨e, he⟩ := exists_exponent_of_skipExponent hc h
      exact ⟨some e, he⟩
    next =>
      obtain rfl := Except.ok.inj h
      exact ⟨none, rfl⟩

theorem exists_parts_of_skipTail {t rest : Text} (h : skipTail t = .ok rest) :
    ∃ (f : Option Digits) (e : Option Exponent),
      t = Numeral.fractionText f ++ (Numeral.exponentText e ++ rest) := by
  unfold skipTail at h
  split at h
  next cs =>
    split at h
    next hd =>
      obtain ⟨digits, hdigits⟩ := exists_digits_of_startsWithDigit hd
      obtain ⟨e, he⟩ := exists_exponent_of_skipScale h
      rw [he] at hdigits
      exact ⟨some digits, e, congrArg ('.' :: ·) hdigits⟩
    next => simp [atNext] at h
  next =>
    obtain ⟨e, he⟩ := exists_exponent_of_skipScale h
    exact ⟨none, e, he⟩

theorem exists_numeral_of_skipNumber (negative : Bool) {t rest : Text}
    (h : skipNumber t = .ok rest) :
    ∃ n : Numeral, n.negative = negative ∧ t = n.unsigned ++ rest := by
  unfold skipNumber at h
  split at h
  next => simp [atNext] at h
  next c cs =>
    split at h
    next hc =>
      split at h
      next => simp [atNext] at h
      next =>
        obtain ⟨f, e, rfl⟩ := exists_parts_of_skipTail h
        exact ⟨⟨negative, .zero, f, e⟩, rfl, by simp [Numeral.unsigned, WholeDigits.zero, hc]⟩
    next h0 =>
      split at h
      next hc =>
        obtain ⟨ds, hd, hs⟩ := exists_digits_dropDigits cs
        obtain ⟨f, e, he⟩ := exists_parts_of_skipTail h
        rw [he] at hs
        refine ⟨⟨negative, .nonzero hc h0 hd, f, e⟩, rfl, ?_⟩
        simp [Numeral.unsigned, WholeDigits.nonzero, hs]
      next => simp [atNext] at h

theorem Digits.exists_cons (d : Digits) :
    ∃ (c : Char) (ds : Text), d.val = c :: ds ∧ c.isDigit = true ∧ ds.all Char.isDigit = true := by
  obtain ⟨t, hne, hd⟩ := d
  cases t with
  | nil => exact absurd rfl hne
  | cons c ds =>
    simp only [List.all_cons, Bool.and_eq_true] at hd
    exact ⟨c, ds, rfl, hd.1, hd.2⟩

theorem skipExponent_digits (s : Option Bool) (d : Digits) {t : Text}
    (ht : startsWithDigit t = false) :
    skipExponent (Exponent.signText s ++ d.val ++ t) = .ok t := by
  obtain ⟨c, ds, hv, hc, hd⟩ := d.exists_cons
  have hp : c ≠ '+' := by rintro rfl; exact absurd hc (by decide)
  have hm : c ≠ '-' := by rintro rfl; exact absurd hc (by decide)
  have drop := dropDigits_append hd ht
  rw [hv]
  rcases s with _ | _ | _
  · simp [skipExponent, Exponent.signText, hp, hm, hc, drop]
  · simp [skipExponent, Exponent.signText, hc, drop]
  · simp [skipExponent, Exponent.signText, hc, drop]

theorem skipScale_exponentText (e : Option Exponent) {t : Text} (ht : endsNumber t = true) :
    skipScale (Numeral.exponentText e ++ t) = .ok t := by
  cases e with
  | none =>
    cases t with
    | nil => rfl
    | cons c cs =>
      have hc := (endsNumber_cons_iff.1 ht).2.2
      simp [Numeral.exponentText, skipScale, hc]
  | some e =>
    have h := skipExponent_digits e.sign e.digits (startsWithDigit_of_endsNumber ht)
    rw [List.append_assoc] at h
    obtain ⟨capital, sign, digits⟩ := e
    cases capital
    · simpa [Numeral.exponentText, Exponent.text, skipScale, isExponentLetter] using h
    · simpa [Numeral.exponentText, Exponent.text, skipScale, isExponentLetter] using h

theorem head?_exponentText_append (e : Option Exponent) {t : Text} (ht : endsNumber t = true) :
    startsWithDigit (Numeral.exponentText e ++ t) = false ∧
      (Numeral.exponentText e ++ t).head? ≠ some '.' := by
  cases e with
  | none =>
    cases t with
    | nil => exact ⟨rfl, by simp [Numeral.exponentText]⟩
    | cons c cs =>
      obtain ⟨hd, hp, _⟩ := endsNumber_cons_iff.1 ht
      exact ⟨hd, by simpa [Numeral.exponentText] using hp⟩
  | some e =>
    obtain ⟨capital, sign, digits⟩ := e
    cases capital <;> exact ⟨rfl, by simp [Numeral.exponentText, Exponent.text]⟩

theorem skipTail_parts (f : Option Digits) (e : Option Exponent) {t : Text}
    (ht : endsNumber t = true) :
    skipTail (Numeral.fractionText f ++ (Numeral.exponentText e ++ t)) = .ok t := by
  have scale := skipScale_exponentText e ht
  obtain ⟨hd, hp⟩ := head?_exponentText_append e ht
  cases f with
  | none =>
    rw [Numeral.fractionText, List.nil_append]
    unfold skipTail
    split
    next cs he => simp [he] at hp
    next => exact scale
  | some d =>
    obtain ⟨c, ds, hv, hc, hds⟩ := d.exists_cons
    have drop : dropDigits (d.val ++ (Numeral.exponentText e ++ t)) = Numeral.exponentText e ++ t :=
      dropDigits_append d.property.2 hd
    rw [Numeral.fractionText, List.cons_append, skipTail, drop, scale]
    simp [hv, startsWithDigit, hc]

/-- No part of a number that follows its whole digits starts with a digit. -/
theorem startsWithDigit_parts (f : Option Digits) (e : Option Exponent) {t : Text}
    (ht : endsNumber t = true) :
    startsWithDigit (Numeral.fractionText f ++ (Numeral.exponentText e ++ t)) = false := by
  cases f with
  | none => exact (head?_exponentText_append e ht).1
  | some d => rfl

theorem skipNumber_unsigned (n : Numeral) {t : Text} (ht : endsNumber t = true) :
    skipNumber (n.unsigned ++ t) = .ok t := by
  have tail := skipTail_parts n.fraction n.exponent ht
  have digit := startsWithDigit_parts n.fraction n.exponent ht
  rw [Numeral.unsigned, List.append_assoc, List.append_assoc]
  rcases n.whole.zero_or_nonzero with hz | ⟨c, ds, hv, hc, h0, hd⟩
  · rw [hz]
    simp [skipNumber, digit, tail]
  · rw [hv]
    simp [skipNumber, h0, hc, dropDigits_append hd digit, tail]

/-! ### Numbers whose value is used -/

section Taken

variable {negative : Bool} {x : Number} {t rest : Text}

theorem eq_of_doubleAt {significand : Nat} {exponent : Int}
    (h : doubleAt negative significand exponent t = .ok (x, rest)) : t = rest := by
  unfold doubleAt at h
  split at h
  · exact (Prod.mk.inj (Except.ok.inj h)).2
  · simp [atHere] at h

theorem eq_of_integerAt {n : Nat} (h : integerAt negative n t = .ok (x, rest)) : t = rest := by
  unfold integerAt at h
  split_ifs at h
  all_goals exact (Prod.mk.inj (Except.ok.inj h)).2

theorem eq_of_unless {p : Prop} [Decidable p] {problem : Problem} {y : Number} {u : Text}
    (h : (if p then atHere problem u else .ok (y, t)) = .ok (x, rest)) : t = rest := by
  split at h
  · simp [atHere] at h
  · exact (Prod.mk.inj (Except.ok.inj h)).2

/-- Digits that were read, those that no longer counted included. -/
theorem exists_digits_dropDigits_of_takeDigits {bound n m count : Nat}
    (h : takeDigits bound n t = (m, count, rest)) :
    ∃ ds : Text, ds.all Char.isDigit = true ∧ t = ds ++ dropDigits rest := by
  obtain ⟨ds, hd, hs, _⟩ := exists_digits_of_takeDigits h
  obtain ⟨es, he, hr⟩ := exists_digits_dropDigits rest
  refine ⟨ds ++ es, by simp [hd, he], ?_⟩
  rw [List.append_assoc, ← hr]
  exact hs

theorem exists_exponent_of_takeExponent {c : Char} {significand : Nat} {exponent : Int}
    (hc : isExponentLetter c = true)
    (h : takeExponent negative significand exponent t = .ok (x, rest)) :
    ∃ e : Exponent, c :: t = e.text ++ rest := by
  unfold takeExponent at h
  simp only at h
  split at h
  next => simp [atHere] at h
  next d ds hd =>
    have sign : ∃ s : Option Bool, t = Exponent.signText s ++ d :: ds := by
      split at hd
      · exact ⟨some false, by rw [← hd]; rfl⟩
      · exact ⟨some true, by rw [← hd]; rfl⟩
      · exact ⟨none, hd⟩
    obtain ⟨s, hs⟩ := sign
    split at h
    next hdigit =>
      generalize hm : takeDigits maxExponent (digitValue d) ds = p at h
      obtain ⟨n, count, r⟩ := p
      simp only at h
      obtain ⟨es, he, hr⟩ := exists_digits_dropDigits_of_takeDigits hm
      split at h
      next =>
        rw [hs, hr, eq_of_unless h]
        exact exists_exponent hc s ⟨d :: es, by simp, by simp [hdigit, he]⟩ _
      next hn =>
        rw [dropDigits_of_not_startsWithDigit (eq_false_of_ne_true hn), eq_of_doubleAt h] at hr
        rw [hs, hr]
        exact exists_exponent hc s ⟨d :: es, by simp, by simp [hdigit, he]⟩ _
    next => simp [atNext] at h

theorem exists_exponent_of_takeScale {significand : Nat} {exponent : Int}
    (h : takeScale negative significand exponent t = .ok (x, rest)) :
    ∃ e : Option Exponent, t = Numeral.exponentText e ++ rest := by
  unfold takeScale at h
  split at h
  next => exact ⟨none, eq_of_doubleAt h⟩
  next c cs =>
    split at h
    next hc =>
      obtain ⟨e, he⟩ := exists_exponent_of_takeExponent hc h
      exact ⟨some e, he⟩
    next => exact ⟨none, eq_of_doubleAt h⟩

theorem exists_parts_of_takeFraction {significand : Nat} {exponent : Int}
    (h : takeFraction negative significand exponent t = .ok (x, rest)) :
    ∃ (d : Digits) (e : Option Exponent), t = d.val ++ (Numeral.exponentText e ++ rest) := by
  unfold takeFraction at h
  generalize hm : takeDigits maxNatural significand t = p at h
  obtain ⟨m, count, r⟩ := p
  simp only at h
  split at h
  next hr =>
    obtain ⟨ds, hd, hs, _⟩ := exists_digits_of_takeDigits hm
    obtain ⟨es, hes⟩ := exists_digits_of_startsWithDigit hr
    obtain ⟨e, he⟩ := exists_exponent_of_takeScale h
    refine ⟨⟨ds ++ es.val, by simp [es.property.1], by simp [hd, es.property.2]⟩, e, ?_⟩
    rw [hs, hes, he, List.append_assoc]
  next =>
    split at h
    next =>
      split at h
      · simp [atNext] at h
      · simp [atNext] at h
    next hc =>
      obtain ⟨ds, hd, hs, hl⟩ := exists_digits_of_takeDigits hm
      obtain ⟨e, he⟩ := exists_exponent_of_takeScale h
      have hne : ds ≠ [] := by
        rintro rfl
        exact hc hl.symm
      exact ⟨⟨ds, hne, hd⟩, e, by rw [hs, he]⟩

theorem exists_parts_of_takeTail {exact : Bool} {significand : Nat} {exponent : Int}
    (h : takeTail negative exact significand exponent t = .ok (x, rest)) :
    ∃ (f : Option Digits) (e : Option Exponent),
      t = Numeral.fractionText f ++ (Numeral.exponentText e ++ rest) := by
  unfold takeTail at h
  split at h
  next cs =>
    obtain ⟨d, e, he⟩ := exists_parts_of_takeFraction h
    exact ⟨some d, e, congrArg ('.' :: ·) he⟩
  next =>
    split at h
    next => exact ⟨none, none, eq_of_integerAt h⟩
    next => exact ⟨none, none, eq_of_doubleAt h⟩
  next c cs _ =>
    split_ifs at h with hc
    · obtain ⟨e, he⟩ := exists_exponent_of_takeExponent hc h
      exact ⟨none, some e, he⟩
    · exact ⟨none, none, eq_of_integerAt h⟩
    · exact ⟨none, none, eq_of_doubleAt h⟩

theorem exists_numeral_of_takeNumber (h : takeNumber negative t = .ok (x, rest)) :
    ∃ n : Numeral, n.negative = negative ∧ t = n.unsigned ++ rest := by
  unfold takeNumber at h
  split at h
  next => simp [atHere] at h
  next c cs =>
    split at h
    next hc =>
      split at h
      next => simp [atNext] at h
      next =>
        obtain ⟨f, e, rfl⟩ := exists_parts_of_takeTail h
        exact ⟨⟨negative, .zero, f, e⟩, rfl, by simp [Numeral.unsigned, WholeDigits.zero, hc]⟩
    next h0 =>
      split at h
      next hc =>
        generalize hm : takeDigits maxNatural (digitValue c) cs = p at h
        obtain ⟨m, count, r⟩ := p
        obtain ⟨ds, hd, hs⟩ := exists_digits_dropDigits_of_takeDigits hm
        -- digits that overflow the significand only scale the number
        have htail : ∃ exact exponent,
            takeTail negative exact m exponent (dropDigits r) = .ok (x, rest) := by
          simp only at h
          split at h
          next => exact ⟨false, _, h⟩
          next hn =>
            rw [dropDigits_of_not_startsWithDigit (eq_false_of_ne_true hn)]
            exact ⟨true, 0, h⟩
        obtain ⟨_, _, htail⟩ := htail
        obtain ⟨f, e, he⟩ := exists_parts_of_takeTail htail
        rw [he] at hs
        refine ⟨⟨negative, .nonzero hc h0 hd, f, e⟩, rfl, ?_⟩
        simp [Numeral.unsigned, WholeDigits.nonzero, hs]
      next => simp [atNext] at h

end Taken

theorem exists_integerAt (negative : Bool) (n : Nat) :
    ∃ x, ∀ t, integerAt negative n t = .ok (x, t) := by
  unfold integerAt
  split_ifs
  all_goals exact ⟨_, fun _ => rfl⟩

theorem takeTail_integer (negative : Bool) (n : Nat) {t : Text} (ht : endsNumber t = true) :
    takeTail negative true n 0 t = integerAt negative n t := by
  unfold takeTail
  split
  next cs => exact absurd ht (by simp [endsNumber])
  next => rfl
  next c cs _ =>
    have hc := (endsNumber_cons_iff.1 ht).2.2
    simp [hc]

theorem exists_takeNumber {n : Numeral} (hn : n.IsInteger64) :
    ∃ x, ∀ t, endsNumber t = true →
      takeNumber n.negative (n.unsigned ++ t) = .ok (x, t) := by
  have hb : Numeral.valueFrom 0 n.whole.val.val ≤ maxNatural := by
    refine Nat.le_trans hn.bounded ?_
    cases n.negative <;> decide
  have written : n.unsigned = n.whole.val.val := by
    rw [Numeral.unsigned, hn.fraction, hn.exponent]
    simp [Numeral.fractionText, Numeral.exponentText]
  rw [written]
  rcases n.whole.zero_or_nonzero with hz | ⟨c, ds, hv, hc, h0, hd⟩
  · obtain ⟨x, hx⟩ := exists_integerAt n.negative 0
    refine ⟨x, ?_⟩
    intro t ht
    rw [hz, ← hx t, ← takeTail_integer n.negative 0 ht]
    simp [takeNumber, startsWithDigit_of_endsNumber ht]
  · rw [hv] at hb ⊢
    have hvalue : Numeral.valueFrom (digitValue c) ds ≤ maxNatural := by
      simpa [Numeral.valueFrom, digitValue] using hb
    obtain ⟨x, hx⟩ := exists_integerAt n.negative (Numeral.valueFrom (digitValue c) ds)
    refine ⟨x, ?_⟩
    intro t ht
    have digit := startsWithDigit_of_endsNumber ht
    rw [← hx t, ← takeTail_integer n.negative _ ht]
    simp [takeNumber, h0, hc, takeDigits_append hd digit hvalue, digit]

end CollectionTypes.Json
