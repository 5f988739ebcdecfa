import CollectionTypes.Files.Pathname
import Mathlib.Data.List.Basic

/-!
# Ancestors of path names

The parent of a path name is shorter than the path name. So `ancestors` never stops before there is
no parent left, and the ancestors of the parent are among those of the path name.
-/

namespace CollectionTypes.Pathname

theorem ofPieces_cons_cons (p q : Text) (ps : List Text) :
    ofPieces (p :: q :: ps) = p ++ '/' :: ofPieces (q :: ps) := by
  simp [ofPieces, Text.joined]

theorem trimmed_isPrefix (ps : List Text) : trimmed ps <+: ps := by
  rw [trimmed, ← List.reverse_suffix, List.reverse_reverse]
  exact List.dropWhile_suffix isIdle

theorem length_ofPieces_lt {first : Text} {ps qs : List Text} (h : ps <+: qs)
    (hne : ps ≠ qs) : (ofPieces (first :: ps)).length < (ofPieces (first :: qs)).length := by
  induction ps generalizing first qs with
  | nil =>
    cases qs with
    | nil => exact absurd rfl hne
    | cons q qs =>
      rw [ofPieces_cons_cons]
      simp [ofPieces, Text.joined]
  | cons p ps ih =>
    cases qs with
    | nil => simp at h
    | cons q qs =>
      obtain ⟨rfl, hp⟩ := List.cons_prefix_cons.1 h
      have less : (ofPieces (p :: ps)).length < (ofPieces (p :: qs)).length :=
        ih hp (fun e => hne (congrArg (p :: ·) e))
      rw [ofPieces_cons_cons, ofPieces_cons_cons]
      simp only [List.length_append, List.length_cons]
      omega

/-- Besides the slash at its start, an absolute path with a piece that counts has that piece. -/
theorem length_ofPieces_absolute {rest : List Text} (h : trimmed rest ≠ []) :
    1 < (ofPieces ([] :: rest)).length := by
  cases rest with
  | nil => exact absurd rfl h
  | cons q qs =>
    rw [ofPieces_cons_cons, List.nil_append, List.length_cons]
    have inside : ofPieces (q :: qs) ≠ [] := by
      cases qs with
      | nil =>
        rintro hq
        obtain rfl : q = [] := hq
        exact h (by decide)
      | cons r rs =>
        rw [ofPieces_cons_cons]
        simp
    have := List.length_pos_iff.2 inside
    omega

/-- Taking the parent shortens a path name, so `ancestors` goes on as long as there is one. -/
theorem length_parent?_lt {path parent : Text} (h : parent? path = some parent) :
    parent.length < path.length := by
  have joined := joined_pieces path
  unfold parent? at h
  split at h
  next => simp at h
  next first rest hp =>
    rw [hp] at joined
    rw [← joined]
    have start := trimmed_isPrefix rest
    split at h
    next ht =>
      split at h
      next => simp at h
      next hf =>
        obtain rfl := Option.some.inj h
        rw [List.isEmpty_iff] at hf
        cases rest with
        | nil => exact List.length_pos_iff.2 hf
        | cons q qs =>
          rw [ofPieces_cons_cons, List.length_append, List.length_cons, List.length_nil]
          omega
    next p ps ht =>
      have counted : trimmed rest ≠ [] := by simp [ht]
      dsimp only at h
      split at h
      next hk =>
        obtain rfl := Option.some.inj h
        rw [List.isEmpty_iff] at hk
        rw [hk.1]
        exact length_ofPieces_absolute counted
      next =>
        obtain rfl := Option.some.inj h
        have shorter : trimmed (p :: ps).dropLast <+: (p :: ps).dropLast := trimmed_isPrefix _
        rw [ht] at start
        apply length_ofPieces_lt ((shorter.trans (List.dropLast_prefix _)).trans start)
        intro he
        have h₁ := shorter.length_le
        have h₂ := start.length_le
        rw [List.length_dropLast] at h₁
        rw [← he] at h₂
        simp only [List.length_cons] at h₁ h₂
        omega

theorem ancestors_of_parent? {path parent : Text} (h : parent? path = some parent) :
    ancestors path = path :: ancestors parent := by
  rw [ancestors, h]
  exact if_pos (length_parent?_lt h)

theorem self_mem_ancestors (path : Text) : path ∈ ancestors path := by
  rw [ancestors]
  split
  next => exact List.mem_singleton_self path
  next =>
    split
    next => exact List.mem_cons_self
    next => exact List.mem_singleton_self path

end CollectionTypes.Pathname
