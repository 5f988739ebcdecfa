import CollectionTypes.Proofs.Nesting
import Mathlib.Data.List.Infix

/-!
# Depth and the closing bracket of a generic

The depth at the end of a text is the number of brackets it opens less the number it closes, and it
may have been negative on the way. `Closes` says which texts are one generic: the final `>` closes
the bracket that the opening ends with. Opening a text looks less closely. It finds the inside also
where a bracket of the inside is left open and the final `>` closes that one, and the main statement
says that this is the only difference.
-/

namespace CollectionTypes.Nesting

/-- How many brackets a text opens. -/
def openings (t : Text) : Nat := t.countP fun c => c = '{' ∨ c = '<'

/-- How many brackets a text closes, whether it opened them or not. -/
def closings (t : Text) : Nat := t.countP fun c => c = '}' ∨ c = '>'

@[simp] theorem depth_nil (d : Int) : depth d [] = d := rfl

@[simp] theorem depth_cons (d : Int) (c : Char) (t : Text) :
    depth d (c :: t) = depth (d + step c) t := rfl

theorem depth_append (d : Int) (s t : Text) : depth d (s ++ t) = depth (depth d s) t := by
  induction s generalizing d with
  | nil => rfl
  | cons c cs ih => exact ih (d + step c)

theorem depth_eq (d : Int) (t : Text) : depth d t = d + openings t - closings t := by
  induction t generalizing d with
  | nil => simp [openings, closings]
  | cons c cs ih =>
    rw [depth_cons, ih]
    unfold openings closings step
    rw [List.countP_cons, List.countP_cons]
    by_cases ho : c = '{' ∨ c = '<'
    · have hc : ¬ (c = '}' ∨ c = '>') := fun hc => not_opening_of_closing hc ho
      simp only [ho, hc, if_true, decide_true, decide_false, Bool.false_eq_true, if_false]
      omega
    · by_cases hc : c = '}' ∨ c = '>'
      · simp only [ho, hc, if_true, decide_true, decide_false, Bool.false_eq_true, if_false]
        omega
      · simp only [ho, hc, decide_false, Bool.false_eq_true, if_false]
        omega

theorem depth_start (d : Int) (t : Text) : depth d t = d + depth 0 t := by
  rw [depth_eq d, depth_eq 0]
  omega

/-- A text that ends at depth zero may be cut by itself, however deep or low it was inside. -/
theorem pieces_append_of_depth {separator : Char} (hs : step separator = 0) {d : Int} {t : Text}
    (h : depth d t = 0) (u : Text) :
    pieces separator d (t ++ separator :: u) = pieces separator d t ++ pieces separator 0 u := by
  induction t generalizing d with
  | nil =>
    obtain rfl : d = 0 := h
    rw [List.nil_append, pieces.eq_2, if_pos ⟨rfl, rfl, hs⟩]
    rfl
  | cons c cs ih =>
    rw [depth_cons] at h
    rw [List.cons_append, pieces, pieces, ih h]
    split_ifs with cut
    · rw [cut.2.2, Int.add_zero] at h
      rw [ih h, List.cons_append]
    · obtain ⟨p, ps, hp⟩ := List.exists_cons_of_ne_nil (pieces_ne_nil separator (d + step c) cs)
      rw [hp]
      rfl

/-- A piece is not cut again, since it is read from the depth at which it begins. -/
theorem pieces_of_pieces_eq_cons {separator : Char} {d : Int} {t p : Text} {ps : List Text}
    (h : pieces separator d t = p :: ps) :
    pieces separator d p = [p] ∧ ∀ q ∈ ps, pieces separator 0 q = [q] := by
  induction t generalizing d p ps with
  | nil =>
    obtain ⟨rfl, rfl⟩ := List.cons.inj h
    exact ⟨rfl, by simp⟩
  | cons c cs ih =>
    rw [pieces] at h
    split_ifs at h with cut
    · obtain ⟨rfl, rfl⟩ := List.cons.inj h
      obtain ⟨q, qs, hq⟩ := List.exists_cons_of_ne_nil (pieces_ne_nil separator d cs)
      obtain ⟨first, others⟩ := ih hq
      rw [cut.2.1] at first
      rw [hq]
      exact ⟨rfl, List.forall_mem_cons.2 ⟨first, others⟩⟩
    · obtain ⟨q, qs, hq⟩ := List.exists_cons_of_ne_nil (pieces_ne_nil separator (d + step c) cs)
      obtain ⟨first, others⟩ := ih hq
      rw [hq] at h
      obtain ⟨rfl, rfl⟩ := List.cons.inj h
      refine ⟨?_, others⟩
      rw [pieces, if_neg cut, first]
      rfl

theorem pieces_of_mem_pieces {separator : Char} {t p : Text} (h : p ∈ pieces separator 0 t) :
    pieces separator 0 p = [p] := by
  obtain ⟨q, qs, hq⟩ := List.exists_cons_of_ne_nil (pieces_ne_nil separator 0 t)
  obtain ⟨first, others⟩ := pieces_of_pieces_eq_cons hq
  rw [hq] at h
  rcases List.mem_cons.1 h with rfl | h
  · exact first
  · exact others p h

/-! ### Texts that close only what they open -/

/-- No beginning of the text closes more brackets than it opens. -/
def NeverBelow (t : Text) : Prop := ∀ p, p <+: t → 0 ≤ depth 0 p

theorem staysInside_iff {n : Nat} {t : Text} :
    staysInside n t = true ↔ ∀ p, p <+: t → 0 ≤ depth n p := by
  induction t generalizing n with
  | nil => simp [staysInside]
  | cons c cs ih =>
    -- a beginning is empty or goes on behind the first character
    have split : (∀ p, p <+: c :: cs → 0 ≤ depth n p) ↔
        ∀ p, p <+: cs → 0 ≤ depth (n + step c) p := by
      constructor
      · intro h p hp
        exact h (c :: p) (List.cons_prefix_cons.2 ⟨rfl, hp⟩)
      · intro h p hp
        rcases List.prefix_cons_iff.1 hp with rfl | ⟨q, rfl, hq⟩
        · exact Int.natCast_nonneg n
        · exact h q hq
    rw [split, staysInside.eq_def]
    dsimp only
    split_ifs with ho hc
    · rw [ih, step_eq_one_iff.2 ho]
      rfl
    · rw [step_eq_neg_one_iff.2 hc]
      cases n with
      | zero =>
        constructor
        · exact fun h => absurd h Bool.false_ne_true
        · intro h
          exact absurd (h [] List.nil_prefix) (by decide)
      | succ n =>
        have closed : ((n + 1 : Nat) : Int) + -1 = n := by omega
        rw [ih, closed]
    · rw [ih, step_eq_zero_iff.2 ⟨ho, hc⟩, Int.add_zero]

theorem neverBelow_iff_staysInside {t : Text} : NeverBelow t ↔ staysInside 0 t = true :=
  staysInside_iff.symm

instance : DecidablePred NeverBelow := fun _ => decidable_of_iff _ neverBelow_iff_staysInside.symm

theorem neverBelow_iff_counts {t : Text} :
    NeverBelow t ↔ ∀ p, p <+: t → closings p ≤ openings p := by
  refine forall_congr' fun p => imp_congr_right fun _ => ?_
  rw [depth_eq]
  omega

theorem NeverBelow.append {s t : Text} (hs : NeverBelow s) (ht : NeverBelow t) :
    NeverBelow (s ++ t) := by
  rw [neverBelow_iff_staysInside, staysInside_eq_isSome_level, Option.isSome_iff_exists] at *
  obtain ⟨m, hm⟩ := hs
  obtain ⟨k, hk⟩ := ht
  have inside := level_add hk m
  rw [Nat.zero_add] at inside
  exact ⟨k + m, by rw [level_append, hm, Option.bind_some, inside]⟩

theorem neverBelow_opening {c : Char} (h : step c = 1) : NeverBelow [c] := by
  rcases step_eq_one_iff.1 h with rfl | rfl <;> decide

/-- A text that ends above zero has a bracket that is still open at its end: the last one that leads
up to the depth of the end from below. -/
theorem exists_open {s t : Text} (hs : s <:+ t) (h : 0 < depth 0 s) :
    ∃ front bracket back, t = front ++ bracket :: back ∧ step bracket = 1 ∧ NeverBelow back ∧
      depth 0 back = 0 := by
  induction t generalizing s with
  | nil =>
    rw [List.suffix_nil.1 hs] at h
    exact absurd h (by decide)
  | cons c cs ih =>
    by_cases later : ∃ u, u <:+ cs ∧ 0 < depth 0 u
    · obtain ⟨u, hu, hd⟩ := later
      obtain ⟨front, bracket, back, rfl, rest⟩ := ih hu hd
      exact ⟨c :: front, bracket, back, rfl, rest⟩
    · have low : ∀ u, u <:+ cs → depth 0 u ≤ 0 := by
        intro u hu
        by_contra hd
        exact later ⟨u, hu, Int.not_le.1 hd⟩
      rcases List.suffix_cons_iff.1 hs with rfl | hs
      · rw [depth_cons, depth_start] at h
        have below := low cs List.suffix_rfl
        have up : step c = 1 ∧ depth 0 cs = 0 := by
          unfold step at h ⊢
          split_ifs at h ⊢ <;> omega
        refine ⟨[], c, cs, rfl, up.1, ?_, up.2⟩
        rintro p ⟨u, rfl⟩
        have rest := low u (List.suffix_append p u)
        have whole := up.2
        rw [depth_append, depth_start] at whole
        omega
      · exact absurd h (Int.not_lt.2 (low s hs))

/-! ### Generics -/

/-- The text is `opening`, `inner` and a final `>`, and this closes the bracket at the end of
`opening`: inside, no bracket is closed before it is opened, and each that is opened is closed. -/
structure Closes (opening inner t : Text) : Prop where
  text : t = opening ++ inner ++ ['>']
  inside : NeverBelow inner
  level : depth 0 inner = 0

/-- The final `>` of the text closes a bracket in `inner`. -/
def LeavesOpen (opening inner t : Text) : Prop :=
  ∃ front bracket back, inner = front ++ bracket :: back ∧ step bracket = 1 ∧ NeverBelow front ∧
    Closes (opening ++ front ++ [bracket]) back t

theorem unwrap?_eq_some_iff {opening t inner : Text} :
    unwrap? opening t = some inner ↔ t = opening ++ inner ++ ['>'] ∧ NeverBelow inner := by
  rw [neverBelow_iff_staysInside]
  constructor
  · exact eq_append_of_unwrap?
  · rintro ⟨rfl, inside⟩
    exact unwrap?_of_staysInside inside opening

theorem LeavesOpen.depth_pos {opening inner t : Text} (h : LeavesOpen opening inner t) :
    0 < depth 0 inner := by
  obtain ⟨front, bracket, back, rfl, opens, below, closes⟩ := h
  have start := below front List.prefix_rfl
  rw [depth_append, depth_cons, depth_start, opens, closes.level]
  omega

theorem LeavesOpen.unwrap? {opening inner t : Text} (h : LeavesOpen opening inner t) :
    unwrap? opening t = some inner := by
  obtain ⟨front, bracket, back, rfl, opens, below, closes⟩ := h
  rw [unwrap?_eq_some_iff]
  constructor
  · rw [closes.text]
    simp
  · exact below.append ((neverBelow_opening opens).append closes.inside)

/-- The inside of a text is found if the final `>` closes the bracket at the end of the opening, or
one in the inside. -/
theorem unwrap?_eq_some_iff_closes_or {opening t inner : Text} :
    unwrap? opening t = some inner ↔ Closes opening inner t ∨ LeavesOpen opening inner t := by
  constructor
  · intro h
    obtain ⟨text, inside⟩ := unwrap?_eq_some_iff.1 h
    have low := inside inner List.prefix_rfl
    rcases Int.lt_or_eq_of_le low with pos | zero
    · obtain ⟨front, bracket, back, rfl, opens, below, level⟩ := exists_open List.suffix_rfl pos
      have before : NeverBelow front := fun p hp => inside p (hp.trans (List.prefix_append front _))
      refine Or.inr ⟨front, bracket, back, rfl, opens, before, ?_, below, level⟩
      rw [text]
      simp
    · exact Or.inl ⟨text, inside, zero.symm⟩
  · rintro (closes | leaves)
    · exact unwrap?_eq_some_iff.2 ⟨closes.text, closes.inside⟩
    · exact leaves.unwrap?

/-- Every generic is recognised with its inside. What else is recognised are the texts that leave a
bracket of the inside open, so that the final `>` closes that one. -/
theorem unwraps_iff_closes_iff (opening inner t : Text) :
    (unwrap? opening t = some inner ↔ Closes opening inner t ∨ LeavesOpen opening inner t) ∧
      ((unwrap? opening t = some inner ↔ Closes opening inner t) ↔
        ¬ LeavesOpen opening inner t) := by
  refine ⟨unwrap?_eq_some_iff_closes_or, ?_⟩
  rw [unwrap?_eq_some_iff_closes_or]
  constructor
  · intro h leaves
    have level := (h.1 (Or.inr leaves)).level
    have pos := leaves.depth_pos
    omega
  · intro h
    exact or_iff_left h

/-- The final `>` closes the inner bracket, and yet the outer one counts as closed. -/
theorem exists_unclosed_generic :
    let text : Text := "Array<Array<Int>"
    unwrap? "Array<" text = some "Array<Int" ∧ ¬ Closes "Array<" "Array<Int" text ∧
      Closes "Array<Array<" "Int" text := by
  intro text
  refine ⟨?found, ?outer, ?inner⟩
  case found => decide
  case outer => exact fun closes => absurd closes.level (by decide)
  case inner => exact ⟨by decide, by decide, by decide⟩

end CollectionTypes.Nesting
