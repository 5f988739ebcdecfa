import CollectionTypes.Proofs.Depth
import CollectionTypes.Proofs.Origin
import CollectionTypes.Text.Bytes

/-!
# The division of a text at its separators

Cutting reads a text once and keeps the depth as it goes, so that whether a separator counts depends
on all that stands before it. `Division` says what the parts are without such a reading, each part
being looked at by itself. A text has exactly one division, and its parts are the texts between the
separators that count. The byte offsets of these separators are places between characters, and what
lies between them are the parts.
-/

namespace CollectionTypes

namespace Text

/-- The parts of a text before and after a byte offset, which must not be inside a character or
beyond the end. -/
def splitBytes? (offset : Nat) : Text → Option (Text × Text)
  | [] => if offset = 0 then some ([], []) else none
  | c :: cs =>
    if offset = 0 then some ([], c :: cs)
    else if c.utf8Size ≤ offset then
      (splitBytes? (offset - c.utf8Size) cs).map fun (front, back) => (c :: front, back)
    else none

/-- The text from one byte offset to another. -/
def slice? (start stop : Nat) (t : Text) : Option Text :=
  (splitBytes? stop t).bind fun (front, _) => (splitBytes? start front).map Prod.snd

theorem splitBytes?_append (s t : Text) : splitBytes? (byteLength s) (s ++ t) = some (s, t) := by
  induction s with
  | nil => cases t <;> rfl
  | cons c cs ih =>
    have pos := c.utf8Size_pos
    have some_bytes : ¬ c.utf8Size + byteLength cs = 0 := by omega
    rw [byteLength_cons, List.cons_append, splitBytes?, if_neg some_bytes,
      if_pos (Nat.le_add_right _ _), Nat.add_sub_cancel_left, ih]
    rfl

theorem slice?_append (before t after : Text) :
    slice? (byteLength before) (byteLength (before ++ t)) (before ++ t ++ after) = some t := by
  simp only [slice?, splitBytes?_append, Option.bind_some, Option.map_some]

end Text

namespace Nesting

open Text

def brackets : List Char := ['{', '<', '}', '>']

theorem step_eq_zero_iff_not_mem_brackets {c : Char} : step c = 0 ↔ c ∉ brackets := by
  rw [step_eq_zero_iff, ← not_or, or_assoc]
  simp [brackets]

theorem pieces_of_bracket {separator : Char} (h : step separator ≠ 0) (d : Int) (t : Text) :
    pieces separator d t = [t] := by
  induction t generalizing d with
  | nil => rfl
  | cons c cs ih =>
    have kept : ¬ (c = separator ∧ d = 0 ∧ step c = 0) := by
      rintro ⟨rfl, -, hs⟩
      exact h hs
    rw [pieces, if_neg kept, ih]
    rfl

/-! ### Divisions -/

/-- These texts with the separator between them are the text; each but the last closes as many
brackets as it opens; and in none of them a separator follows as many closed as opened brackets. -/
structure Division (separator : Char) (t : Text) (ps : List Text) : Prop where
  ne_nil : ps ≠ []
  text : [separator].intercalate ps = t
  level : ∀ p ∈ ps.dropLast, openings p = closings p
  undivided : ∀ p ∈ ps, ∀ a b, p = a ++ separator :: b → openings a ≠ closings a

theorem depth_eq_zero_iff {t : Text} : depth 0 t = 0 ↔ openings t = closings t := by
  rw [depth_eq]
  omega

section Separator

variable {separator : Char} (hs : step separator = 0)

include hs

theorem pieces_eq_singleton_iff {d : Int} {t : Text} :
    pieces separator d t = [t] ↔ ∀ a b, t = a ++ separator :: b → depth d a ≠ 0 := by
  constructor
  · rintro h a b rfl level
    have first := List.length_pos_iff.2 (pieces_ne_nil separator d a)
    have second := List.length_pos_iff.2 (pieces_ne_nil separator 0 b)
    have whole := congrArg List.length h
    rw [pieces_append_of_depth hs level, List.length_append, List.length_singleton] at whole
    omega
  · intro h
    induction t generalizing d with
    | nil => rfl
    | cons c cs ih =>
      have kept : ¬ (c = separator ∧ d = 0 ∧ step c = 0) := by
        rintro ⟨rfl, hd, -⟩
        exact h [] cs rfl hd
      have rest : ∀ a b, cs = a ++ separator :: b → depth (d + step c) a ≠ 0 := by
        rintro a b rfl
        exact h (c :: a) b rfl
      rw [pieces, if_neg kept, ih rest]
      rfl

/-- The parts of a division are what cutting the text gives. -/
theorem Division.pieces_eq {t : Text} {ps : List Text} (h : Division separator t ps) :
    pieces separator 0 t = ps := by
  induction ps generalizing t with
  | nil => exact absurd rfl h.ne_nil
  | cons p ps ih =>
    have single : pieces separator 0 p = [p] := by
      rw [pieces_eq_singleton_iff hs]
      intro a b hp
      rw [Ne, depth_eq_zero_iff]
      exact h.undivided p List.mem_cons_self a b hp
    cases ps with
    | nil =>
      rw [← h.text, List.intercalate_singleton]
      exact single
    | cons q qs =>
      have level : depth 0 p = 0 := depth_eq_zero_iff.2 (h.level p List.mem_cons_self)
      have rest : Division separator ([separator].intercalate (q :: qs)) (q :: qs) :=
        { ne_nil := List.cons_ne_nil q qs
          text := rfl
          level := fun r hr => h.level r (List.mem_cons_of_mem p hr)
          undivided := fun r hr => h.undivided r (List.mem_cons_of_mem p hr) }
      rw [← h.text, List.intercalate_cons_cons, List.append_assoc, List.singleton_append,
        pieces_append_of_depth hs level, single, ih rest]
      rfl

omit hs in
/-- Every piece but the last ends at depth zero, where it was cut off. -/
theorem depth_of_pieces_eq_cons {d : Int} {t p q : Text} {ps : List Text}
    (h : pieces separator d t = p :: q :: ps) :
    depth d p = 0 ∧ ∀ r ∈ (q :: ps).dropLast, depth 0 r = 0 := by
  induction t generalizing d p q ps with
  | nil => simp [pieces] at h
  | cons c cs ih =>
    rw [pieces] at h
    split_ifs at h with cut
    · obtain ⟨rfl, rest⟩ := List.cons.inj h
      refine ⟨cut.2.1, ?_⟩
      cases ps with
      | nil => simp
      | cons p' ps =>
        obtain ⟨first, others⟩ := ih rest
        rw [cut.2.1] at first
        rw [List.dropLast_cons_cons]
        exact List.forall_mem_cons.2 ⟨first, others⟩
    · obtain ⟨p', ps', hp⟩ := List.exists_cons_of_ne_nil (pieces_ne_nil separator (d + step c) cs)
      rw [hp] at h
      obtain ⟨rfl, rfl⟩ := List.cons.inj h
      have rest := ih hp
      exact rest

theorem division_pieces (t : Text) : Division separator t (pieces separator 0 t) where
  ne_nil := pieces_ne_nil separator 0 t
  text := intercalate_pieces separator 0 t
  level := by
    intro p hp
    rw [← depth_eq_zero_iff]
    cases hps : pieces separator 0 t with
    | nil => exact absurd hps (pieces_ne_nil separator 0 t)
    | cons q qs =>
      rw [hps] at hp
      cases qs with
      | nil => simp at hp
      | cons r rs =>
        obtain ⟨first, others⟩ := depth_of_pieces_eq_cons hps
        rw [List.dropLast_cons_cons] at hp
        rcases List.mem_cons.1 hp with rfl | hp
        · exact first
        · exact others p hp
  undivided := by
    intro p hp a b hab
    rw [Ne, ← depth_eq_zero_iff]
    exact (pieces_eq_singleton_iff hs).1 (pieces_of_mem_pieces hp) a b hab

end Separator

/-! ### Cuts -/

/-- Byte offsets of the separators at depth zero, for a text that starts at depth `d` and at
`offset`. -/
def cutsFrom (separator : Char) (d : Int) (offset : Nat) : Text → List Nat
  | [] => []
  | c :: cs =>
    if c = separator ∧ d = 0 ∧ step c = 0 then
      offset :: cutsFrom separator d (offset + c.utf8Size) cs
    else cutsFrom separator (d + step c) (offset + c.utf8Size) cs

def cuts (separator : Char) (t : Text) : List Nat := cutsFrom separator 0 0 t

/-- The texts from `start` to the first cut, between the cuts, and from the last cut to the end,
without the separators at the cuts, which have `width` bytes. -/
def slices? (width : Nat) (t : Text) (start : Nat) : (cuts : List Nat) → Option (List Text)
  | [] => (slice? start (byteLength t) t).map fun p => [p]
  | cut :: cuts =>
    (slice? start cut t).bind fun p => (slices? width t (cut + width) cuts).map fun ps => p :: ps

/-- The scan is ahead of the beginning of the piece that it is in. What it has of this piece goes in
front of the pieces that the rest is cut into. -/
theorem slices?_cutsFrom (separator : Char) (d : Int) (before piece rest : Text) :
    slices? separator.utf8Size (before ++ piece ++ rest) (byteLength before)
        (cutsFrom separator d (byteLength (before ++ piece)) rest) =
      some (extendFirst piece (pieces separator d rest)) := by
  induction rest generalizing d before piece with
  | nil =>
    have last := slice?_append before piece []
    rw [List.append_nil] at last ⊢
    rw [cutsFrom, slices?, last]
    simp [pieces, extendFirst]
  | cons c cs ih =>
    have width :
        byteLength (before ++ piece) + c.utf8Size = byteLength (before ++ piece ++ [c]) := by
      rw [byteLength_append _ [c]]
      rfl
    have regroup : before ++ piece ++ c :: cs = before ++ piece ++ [c] ++ cs := by simp
    rw [cutsFrom, pieces]
    split_ifs with cut
    · obtain ⟨rfl, -, -⟩ := cut
      have first := slice?_append before piece (c :: cs)
      have others := ih d (before ++ piece ++ [c]) []
      rw [List.append_nil, extendFirst_nil_of_ne_nil (pieces_ne_nil c d cs), ← regroup, ← width]
        at others
      rw [slices?, first, Option.bind_some, others]
      simp [extendFirst]
    · have same := ih (d + step c) before (piece ++ [c])
      rw [← List.append_assoc, ← regroup, ← width, extendFirst_append,
        ← consFirst_eq_extendFirst] at same
      exact same

theorem slices?_cuts (separator : Char) (t : Text) :
    slices? separator.utf8Size t 0 (cuts separator t) = some (pieces separator 0 t) := by
  have whole := slices?_cutsFrom separator 0 [] [] t
  rw [extendFirst_nil_of_ne_nil (pieces_ne_nil separator 0 t)] at whole
  exact whole

theorem mem_cutsFrom_iff {separator : Char} (hs : step separator = 0) {d : Int} {offset i : Nat}
    {t : Text} :
    i ∈ cutsFrom separator d offset t ↔
      ∃ a b, t = a ++ separator :: b ∧ offset + byteLength a = i ∧ depth d a = 0 := by
  induction t generalizing d offset with
  | nil => simp [cutsFrom]
  | cons c cs ih =>
    -- the separator is the first character or stands behind it
    have split : (∃ a b, c :: cs = a ++ separator :: b ∧ offset + byteLength a = i ∧
          depth d a = 0) ↔
        (c = separator ∧ offset = i ∧ d = 0) ∨ ∃ a b, cs = a ++ separator :: b ∧
          offset + c.utf8Size + byteLength a = i ∧ depth (d + step c) a = 0 := by
      constructor
      · rintro ⟨a, b, hab, hi, hd⟩
        cases a with
        | nil =>
          obtain ⟨rfl, -⟩ := List.cons.inj hab
          exact Or.inl ⟨rfl, hi, hd⟩
        | cons e a =>
          obtain ⟨rfl, rfl⟩ := List.cons.inj hab
          rw [byteLength_cons, ← Nat.add_assoc] at hi
          exact Or.inr ⟨a, b, rfl, hi, hd⟩
      · rintro (⟨rfl, rfl, rfl⟩ | ⟨a, b, rfl, hi, hd⟩)
        · exact ⟨[], cs, rfl, rfl, rfl⟩
        · refine ⟨c :: a, b, rfl, ?_, hd⟩
          rw [byteLength_cons, ← Nat.add_assoc]
          exact hi
    rw [split, cutsFrom]
    split_ifs with cut
    · obtain ⟨rfl, rfl, -⟩ := cut
      rw [List.mem_cons, ih, hs, Int.add_zero, eq_comm]
      simp
    · rw [ih, or_iff_right]
      rintro ⟨rfl, -, rfl⟩
      exact cut ⟨rfl, rfl, hs⟩

theorem cutsFrom_of_bracket {separator : Char} (h : step separator ≠ 0) (d : Int) (offset : Nat)
    (t : Text) : cutsFrom separator d offset t = [] := by
  induction t generalizing d offset with
  | nil => rfl
  | cons c cs ih =>
    have kept : ¬ (c = separator ∧ d = 0 ∧ step c = 0) := by
      rintro ⟨rfl, -, hs⟩
      exact h hs
    rw [cutsFrom, if_neg kept, ih]

/-- A text has one division at a separator that is no bracket. Splitting gives its parts trimmed,
finds a separator if there are two of them, and cuts at the separators that have as many closed as
opened brackets before them. At a bracket there is no cut. -/
theorem splitTopLevel_of_division (separator : Char) (t : Text) :
    (separator ∉ brackets →
      ∃ ps, Division separator t ps ∧ (∀ qs, Division separator t qs → qs = ps) ∧
        splitTopLevel separator t = ps.map Text.trim ∧
        (hasTopLevel separator t = true ↔ 1 < ps.length) ∧
        slices? separator.utf8Size t 0 (cuts separator t) = some ps ∧
        ∀ i, i ∈ cuts separator t ↔
          ∃ a b, t = a ++ separator :: b ∧ byteLength a = i ∧ openings a = closings a) ∧
      (separator ∈ brackets →
        splitTopLevel separator t = [Text.trim t] ∧ hasTopLevel separator t = false ∧
          cuts separator t = []) := by
  constructor
  · intro h
    have hs := step_eq_zero_iff_not_mem_brackets.2 h
    refine ⟨pieces separator 0 t, division_pieces hs t, ?unique, rfl, ?several,
      slices?_cuts separator t, ?places⟩
    case unique => exact fun qs division => (division.pieces_eq hs).symm
    case several => rw [hasTopLevel, decide_eq_true_eq]
    case places =>
      intro i
      simp only [cuts, mem_cutsFrom_iff hs, depth_eq_zero_iff, Nat.zero_add]
  · intro h
    have hs : step separator ≠ 0 := fun hs => step_eq_zero_iff_not_mem_brackets.1 hs h
    refine ⟨?_, ?_, cutsFrom_of_bracket hs 0 0 t⟩
    · rw [splitTopLevel, pieces_of_bracket hs, List.map_singleton]
    · rw [hasTopLevel, pieces_of_bracket hs]
      rfl

/-- A separator of three bytes behind a character of two, between brackets that go below depth zero
and back, and a bracket as separator. -/
theorem splitTopLevel_of_division_arrow :
    let t : Text := "é → >→< → b"
    let ps : List Text := ["é ".toList, " >→< ".toList, " b".toList]
    ('→' ∉ brackets ∧ Division '→' t ps ∧ (∀ qs, Division '→' t qs → qs = ps) ∧
      splitTopLevel '→' t = ["é".toList, ">→<".toList, "b".toList] ∧
      hasTopLevel '→' t = true ∧ cuts '→' t = [3, 13] ∧ slices? 3 t 0 [3, 13] = some ps) ∧
      '<' ∈ brackets ∧ splitTopLevel '<' t = [t] := by
  intro t ps
  have arrow : '→' ∉ brackets := by decide
  have bracket : '<' ∈ brackets := by decide
  have places : cuts '→' t = [3, 13] := by decide
  have parts : slices? 3 t 0 [3, 13] = some ps := by decide
  obtain ⟨qs, division, unique, split, several, slices, -⟩ :=
    (splitTopLevel_of_division '→' t).1 arrow
  rw [places] at slices
  obtain rfl : qs = ps := Option.some.inj (slices.symm.trans parts)
  refine ⟨⟨arrow, division, unique, ?_, several.2 (by decide), places, parts⟩, bracket, ?_⟩
  · rw [split]
    decide
  · rw [((splitTopLevel_of_division '<' t).2 bracket).1]
    decide

end Nesting
end CollectionTypes
