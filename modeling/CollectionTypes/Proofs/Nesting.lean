import CollectionTypes.Signature.Nesting
import Mathlib.Tactic.SplitIfs

/-!
# Balanced texts and where a text is cut

`level` follows the depth of a text that never closes a bracket it has not opened. A text that ends
at the level where it starts is balanced. A text is sealed for a separator if reading it at depth
zero finds no place to cut, whatever follows: brackets around a balanced text seal it for every
separator. Sealed texts with the separator between them are cut into just these texts.
-/

namespace CollectionTypes.Nesting

/-- The depth after a text inside `n` brackets, unless it closes one bracket more. -/
def level : (n : Nat) → Text → Option Nat
  | n, [] => some n
  | n, c :: cs =>
    if c = '{' ∨ c = '<' then level (n + 1) cs
    else if c = '}' ∨ c = '>' then if n = 0 then none else level (n - 1) cs
    else level n cs

def Balanced (t : Text) : Prop := level 0 t = some 0

theorem step_eq_one_iff {c : Char} : step c = 1 ↔ c = '{' ∨ c = '<' := by
  unfold step
  split_ifs with ho <;> simp [ho]

theorem step_eq_zero_iff {c : Char} :
    step c = 0 ↔ ¬(c = '{' ∨ c = '<') ∧ ¬(c = '}' ∨ c = '>') := by
  unfold step
  split_ifs with ho hc <;> simp [*]

theorem step_eq_neg_one_iff {c : Char} : step c = -1 ↔ c = '}' ∨ c = '>' := by
  unfold step
  split_ifs with ho hc
  · rcases ho with rfl | rfl <;> simp
  · simp [hc]
  · simp [hc]

theorem not_opening_of_closing {c : Char} (h : c = '}' ∨ c = '>') : ¬(c = '{' ∨ c = '<') := by
  rcases h with rfl | rfl <;> simp

theorem staysInside_eq_isSome_level (n : Nat) (t : Text) :
    staysInside n t = (level n t).isSome := by
  induction t generalizing n with
  | nil => rfl
  | cons c cs ih =>
    unfold staysInside level
    split_ifs with _ _ hn
    · exact ih (n + 1)
    · subst hn
      rfl
    · obtain ⟨k, rfl⟩ := Nat.exists_eq_succ_of_ne_zero hn
      exact ih k
    · exact ih n

theorem level_append (n : Nat) (s t : Text) :
    level n (s ++ t) = (level n s).bind fun m => level m t := by
  induction s generalizing n with
  | nil => rfl
  | cons c cs ih =>
    rw [List.cons_append, level, level]
    split_ifs
    · exact ih (n + 1)
    · rfl
    · exact ih (n - 1)
    · exact ih n

theorem level_add {n m : Nat} {t : Text} (h : level n t = some m) (k : Nat) :
    level (n + k) t = some (m + k) := by
  induction t generalizing n with
  | nil =>
    obtain rfl := Option.some.inj h
    rfl
  | cons c cs ih =>
    rw [level] at h ⊢
    split_ifs at h ⊢ with _ _ hn hk
    · rw [Nat.add_right_comm]
      exact ih h
    · omega
    · rw [Nat.sub_add_comm (by omega)]
      exact ih h
    · exact ih h

/-! ### Balanced texts -/

theorem balanced_nil : Balanced [] := rfl

theorem Balanced.append {s t : Text} (hs : Balanced s) (ht : Balanced t) : Balanced (s ++ t) := by
  rw [Balanced, level_append, hs]
  exact ht

theorem Balanced.level_eq {t : Text} (h : Balanced t) (n : Nat) : level n t = some n := by
  have hn := level_add h n
  rwa [Nat.zero_add] at hn

theorem balanced_singleton {c : Char} (h : step c = 0) : Balanced [c] := by
  obtain ⟨ho, hc⟩ := step_eq_zero_iff.1 h
  rw [Balanced, level, if_neg ho, if_neg hc]
  rfl

theorem balanced_of_forall {t : Text} (h : ∀ c ∈ t, step c = 0) : Balanced t := by
  induction t with
  | nil => exact balanced_nil
  | cons c cs ih =>
    have hc := balanced_singleton (h c (by simp))
    exact hc.append (ih fun d hd => h d (by simp [hd]))

theorem Balanced.enclosed {t : Text} (h : Balanced t) {opening closing : Char}
    (ho : step opening = 1) (hc : step closing = -1) :
    Balanced (opening :: t ++ [closing]) := by
  have hc' := step_eq_neg_one_iff.1 hc
  have closes : level 1 [closing] = some 0 := by
    rw [level, if_neg (not_opening_of_closing hc'), if_pos hc']
    rfl
  rw [Balanced, List.cons_append, level, if_pos (step_eq_one_iff.1 ho), level_append, h.level_eq]
  exact closes

theorem Balanced.staysInside {t : Text} (h : Balanced t) : staysInside 0 t = true := by
  rw [staysInside_eq_isSome_level, h]
  rfl

/-! ### Sealed texts -/

/-- Puts a text in front of the first piece. -/
def extendFirst (t : Text) : List Text → List Text
  | [] => [t]
  | p :: ps => (t ++ p) :: ps

theorem extendFirst_append (s t : Text) (ps : List Text) :
    extendFirst (s ++ t) ps = extendFirst s (extendFirst t ps) := by
  cases ps <;> simp [extendFirst]

theorem extendFirst_nil_of_ne_nil {ps : List Text} (h : ps ≠ []) : extendFirst [] ps = ps := by
  cases ps with
  | nil => exact absurd rfl h
  | cons p ps => rfl

/-- Reading `t` at depth zero ends at depth zero and cuts nowhere. -/
def Sealed (separator : Char) (t : Text) : Prop :=
  ∀ u, pieces separator 0 (t ++ u) = extendFirst t (pieces separator 0 u)

theorem sealed_nil (separator : Char) : Sealed separator [] := by
  intro u
  exact (extendFirst_nil_of_ne_nil (pieces_ne_nil separator 0 u)).symm

theorem Sealed.append {separator : Char} {s t : Text} (hs : Sealed separator s)
    (ht : Sealed separator t) : Sealed separator (s ++ t) := by
  intro u
  rw [List.append_assoc, hs, ht, extendFirst_append]

theorem consFirst_eq_extendFirst (c : Char) (ps : List Text) :
    consFirst c ps = extendFirst [c] ps := by
  cases ps <;> rfl

theorem sealed_singleton {separator c : Char} (hc : c ≠ separator) (h : step c = 0) :
    Sealed separator [c] := by
  intro u
  rw [List.singleton_append, pieces, if_neg (by simp [hc]), h, consFirst_eq_extendFirst]
  rfl

theorem sealed_of_forall {separator : Char} {t : Text}
    (h : ∀ c ∈ t, c ≠ separator ∧ step c = 0) : Sealed separator t := by
  induction t with
  | nil => exact sealed_nil separator
  | cons c cs ih =>
    have hc := h c (by simp)
    exact (sealed_singleton hc.1 hc.2).append (ih fun d hd => h d (by simp [hd]))

/-- Inside a bracket no separator counts. -/
theorem pieces_append_of_level {separator : Char} {n m : Nat} {t : Text}
    (h : level n t = some m) (u : Text) :
    pieces separator (n + 1 : Nat) (t ++ u) =
      extendFirst t (pieces separator (m + 1 : Nat) u) := by
  induction t generalizing n with
  | nil =>
    obtain rfl := Option.some.inj h
    exact (extendFirst_nil_of_ne_nil (pieces_ne_nil separator _ u)).symm
  | cons c cs ih =>
    have deep : ¬ ((n + 1 : Nat) : Int) = 0 := by omega
    have next : ∀ k : Nat, level k cs = some m → ((n + 1 : Nat) : Int) + step c = (k + 1 : Nat) →
        pieces separator (n + 1 : Nat) (c :: cs ++ u) =
          extendFirst (c :: cs) (pieces separator (m + 1 : Nat) u) := by
      intro k hk hd
      rw [List.cons_append, pieces, if_neg fun h => deep h.2.1, hd, ih hk, consFirst_eq_extendFirst,
        ← extendFirst_append]
      rfl
    rw [level] at h
    split_ifs at h with ho hc hn
    · exact next (n + 1) h (by simp [step, ho])
    · apply next (n - 1) h
      simp only [step, if_neg ho, if_pos hc]
      omega
    · exact next n h (by simp [step, ho, hc])

theorem Balanced.sealed_enclosed {t : Text} (h : Balanced t) (separator : Char)
    {opening closing : Char} (ho : step opening = 1) (hc : step closing = -1) :
    Sealed separator (opening :: t ++ [closing]) := by
  intro u
  have inside : pieces separator (0 + 1 : Nat) (t ++ closing :: u) =
      extendFirst t (pieces separator (0 + 1 : Nat) (closing :: u)) :=
    pieces_append_of_level (h.level_eq 0) (closing :: u)
  have first : pieces separator 0 (opening :: (t ++ closing :: u)) =
      consFirst opening (pieces separator (0 + 1 : Nat) (t ++ closing :: u)) := by
    rw [pieces, if_neg (by simp [ho]), ho]
    rfl
  have final : pieces separator (0 + 1 : Nat) (closing :: u) =
      consFirst closing (pieces separator 0 u) := by
    rw [pieces, if_neg (by simp [hc]), hc]
    rfl
  have regroup : opening :: t ++ [closing] ++ u = opening :: (t ++ closing :: u) := by simp
  rw [regroup, first, inside, final, consFirst_eq_extendFirst, consFirst_eq_extendFirst,
    ← extendFirst_append, ← extendFirst_append]
  simp

/-! ### Texts with more behind them -/

/-- Puts a text behind the last piece. -/
def extendLast (q : Text) : List Text → List Text
  | [] => [q]
  | [p] => [p ++ q]
  | p :: p' :: ps => p :: extendLast q (p' :: ps)

theorem exists_pieces_eq_concat (separator : Char) (d : Int) (t : Text) :
    ∃ init last, pieces separator d t = init ++ [last] :=
  ⟨_, _, (List.dropLast_concat_getLast (pieces_ne_nil separator d t)).symm⟩

theorem extendLast_append_singleton (q : Text) (init : List Text) (last : Text) :
    extendLast q (init ++ [last]) = init ++ [last ++ q] := by
  induction init with
  | nil => rfl
  | cons p ps ih =>
    have more : ps ++ [last] ≠ [] := by simp
    obtain ⟨r, rs, hr⟩ := List.exists_cons_of_ne_nil more
    rw [List.cons_append, List.cons_append, ← ih, hr]
    rfl

theorem consFirst_extendLast (c : Char) (q : Text) (ps : List Text) :
    consFirst c (extendLast q ps) = extendLast q (consFirst c ps) := by
  match ps with
  | [] => rfl
  | [_] => rfl
  | _ :: _ :: _ => rfl

section Quiet

variable {separator : Char} {q : Text} (h : ∀ c ∈ q, c ≠ separator ∧ step c = 0)
include h

theorem pieces_of_forall (d : Int) : pieces separator d q = [q] := by
  induction q with
  | nil => rfl
  | cons c cs ih =>
    obtain ⟨hc, hs⟩ := h c (by simp)
    rw [pieces, if_neg (by simp [hc]), hs, Int.add_zero, ih fun e he => h e (by simp [he])]
    rfl

/-- A text without separators and brackets goes to the last piece, at whatever depth it stands. -/
theorem pieces_append_of_forall (d : Int) (t : Text) :
    pieces separator d (t ++ q) = extendLast q (pieces separator d t) := by
  induction t generalizing d with
  | nil => exact pieces_of_forall h d
  | cons c cs ih =>
    rw [List.cons_append, pieces, pieces, ih, ih]
    split_ifs
    · obtain ⟨p, ps, hp⟩ := List.exists_cons_of_ne_nil (pieces_ne_nil separator d cs)
      rw [hp]
      rfl
    · exact consFirst_extendLast c q _

end Quiet

/-! ### Cutting -/

theorem Sealed.pieces_eq {separator : Char} {t : Text} (h : Sealed separator t) :
    pieces separator 0 t = [t] := by
  have ht := h []
  rw [List.append_nil] at ht
  rw [ht]
  simp [pieces, extendFirst]

theorem Sealed.not_hasTopLevel {separator : Char} {t : Text} (h : Sealed separator t) :
    hasTopLevel separator t = false := by
  simp [hasTopLevel, h.pieces_eq]

theorem Sealed.pieces_append_separator {separator : Char} {t : Text} (h : Sealed separator t)
    (hs : step separator = 0) (u : Text) :
    pieces separator 0 (t ++ separator :: u) = t :: pieces separator 0 u := by
  rw [h, pieces, if_pos ⟨rfl, rfl, hs⟩]
  simp [extendFirst]

theorem pieces_intercalate {separator : Char} (hs : step separator = 0) {ts : List Text}
    (h : ∀ t ∈ ts, Sealed separator t) (hne : ts ≠ []) :
    pieces separator 0 ([separator].intercalate ts) = ts := by
  induction ts with
  | nil => exact absurd rfl hne
  | cons t ts ih =>
    have ht := h t (by simp)
    cases ts with
    | nil =>
      rw [List.intercalate_singleton]
      exact ht.pieces_eq
    | cons u us =>
      have hus := ih (fun v hv => h v (by simp [hv])) (by simp)
      rw [List.intercalate_cons_cons, List.append_assoc, List.singleton_append,
        ht.pieces_append_separator hs, hus]

theorem balanced_intercalate {separator : Char} (hs : step separator = 0) {ts : List Text}
    (h : ∀ t ∈ ts, Balanced t) : Balanced ([separator].intercalate ts) := by
  induction ts with
  | nil => exact balanced_nil
  | cons t ts ih =>
    have ht := h t (by simp)
    cases ts with
    | nil =>
      rw [List.intercalate_singleton]
      exact ht
    | cons u us =>
      rw [List.intercalate_cons_cons]
      exact (ht.append (balanced_singleton hs)).append (ih fun v hv => h v (by simp [hv]))

/-- Another separator between the texts cuts nowhere. -/
theorem sealed_intercalate {separator other : Char} (hne : other ≠ separator)
    (ho : step other = 0) {ts : List Text} (h : ∀ t ∈ ts, Sealed separator t) :
    Sealed separator ([other].intercalate ts) := by
  induction ts with
  | nil => exact sealed_nil separator
  | cons t ts ih =>
    have ht := h t (by simp)
    cases ts with
    | nil =>
      rw [List.intercalate_singleton]
      exact ht
    | cons u us =>
      rw [List.intercalate_cons_cons]
      exact (ht.append (sealed_singleton hne ho)).append (ih fun v hv => h v (by simp [hv]))

/-- A bracket that is not closed before the end hides every separator. -/
theorem not_hasTopLevel_of_staysInside {separator opening closing : Char} {word inner : Text}
    (hw : Sealed separator word) (ho : step opening = 1) (hc : step closing ≠ 0)
    (hi : staysInside 0 inner = true) :
    hasTopLevel separator (word ++ opening :: (inner ++ [closing])) = false := by
  rw [staysInside_eq_isSome_level] at hi
  obtain ⟨m, hm⟩ := Option.isSome_iff_exists.1 hi
  have inside : pieces separator (0 + 1 : Nat) (inner ++ [closing]) =
      extendFirst inner (pieces separator (m + 1 : Nat) [closing]) := pieces_append_of_level hm _
  have first : pieces separator 0 (opening :: (inner ++ [closing])) =
      consFirst opening (pieces separator (0 + 1 : Nat) (inner ++ [closing])) := by
    rw [pieces, if_neg (by simp [ho]), ho]
    rfl
  have final : pieces separator (m + 1 : Nat) [closing] = [[closing]] := by
    rw [pieces, if_neg (by simp [hc])]
    rfl
  rw [hasTopLevel, hw, first, inside, final]
  rfl

theorem unwrap?_of_staysInside {inner : Text} (h : staysInside 0 inner = true) (opening : Text) :
    unwrap? opening (opening ++ inner ++ ['>']) = some inner := by
  have ha : Text.after? opening (opening ++ inner ++ ['>']) = some (inner ++ ['>']) := by
    rw [Text.after?_eq_some_iff, List.append_assoc]
  have hb : Text.before? '>' (inner ++ ['>']) = some inner := Text.before?_eq_some_iff.2 rfl
  rw [unwrap?, ha, Option.bind_some, hb, Option.bind_some, if_pos h]

theorem unwrap?_enclosed {opening inner : Text} (h : Balanced inner) :
    unwrap? opening (opening ++ inner ++ ['>']) = some inner :=
  unwrap?_of_staysInside h.staysInside opening

theorem unwrap?_eq_none {opening t : Text} (h : ¬ opening <+: t) : unwrap? opening t = none := by
  rw [Option.eq_none_iff_forall_ne_some]
  intro inner hi
  obtain ⟨rfl, _⟩ := eq_append_of_unwrap? hi
  exact h ⟨inner ++ ['>'], by simp⟩

end CollectionTypes.Nesting
