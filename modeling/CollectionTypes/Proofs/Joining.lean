import CollectionTypes.Text.Basic
import Mathlib.Data.List.Basic

/-!
# Joined texts

Joining texts with a separator is the intercalation of lists, and taking a list apart element by
element goes on through it.
-/

namespace CollectionTypes

theorem Text.joined_eq_intercalate (separator : Text) (ts : List Text) :
    Text.joined separator ts = separator.intercalate ts := by
  induction ts with
  | nil => rfl
  | cons t ts ih =>
    cases ts with
    | nil => rw [Text.joined, List.intercalate_singleton]
    | cons u us => rw [Text.joined, ih, List.intercalate_cons_cons]

/-- A separator after every list but the last. -/
theorem intercalate_append_singleton {α : Type} (separator : List α) (xss : List (List α))
    (ys : List α) :
    separator.intercalate (xss ++ [ys]) = xss.flatMap (· ++ separator) ++ ys := by
  induction xss with
  | nil => simp
  | cons xs xss ih =>
    have more : xss ++ [ys] ≠ [] := by simp
    obtain ⟨zs, zss, h⟩ := List.exists_cons_of_ne_nil more
    rw [List.cons_append, h, List.intercalate_cons_cons, ← h, ih, List.flatMap_cons,
      List.append_assoc, List.append_assoc, List.append_assoc]

/-- A separator before every list but the first. -/
theorem intercalate_cons_eq {α : Type} (separator xs : List α) (xss : List (List α)) :
    separator.intercalate (xs :: xss) = xs ++ xss.flatMap (separator ++ ·) := by
  induction xss generalizing xs with
  | nil => simp
  | cons ys yss ih =>
    rw [List.intercalate_cons_cons, ih, List.flatMap_cons, List.append_assoc, List.append_assoc]

/-- Nothing between neighbours. -/
theorem nil_intercalate {α : Type} (xss : List (List α)) :
    ([] : List α).intercalate xss = xss.flatten := by
  cases xss with
  | nil => rfl
  | cons xs xss =>
    rw [intercalate_cons_eq, List.flatten_cons]
    exact congrArg (xs ++ ·) List.flatMap_id

theorem flatMap_intercalate {α β : Type} (f : α → List β) (separator : List α)
    (xss : List (List α)) :
    (separator.intercalate xss).flatMap f =
      (separator.flatMap f).intercalate (xss.map (List.flatMap f)) := by
  induction xss with
  | nil => rfl
  | cons xs xss ih =>
    cases xss with
    | nil => simp
    | cons ys yss =>
      rw [List.intercalate_cons_cons, List.flatMap_append, List.flatMap_append, ih]
      simp only [List.map_cons, List.intercalate_cons_cons]

theorem map_intercalate {α β : Type} (f : α → β) (separator : List α) (xss : List (List α)) :
    (separator.intercalate xss).map f = (separator.map f).intercalate (xss.map (List.map f)) := by
  have single : List.map f = List.flatMap fun a => [f a] := by
    funext xs
    exact List.map_eq_flatMap
  rw [single, flatMap_intercalate]

theorem infix_intercalate_of_mem {α : Type} {xs : List α} {xss : List (List α)} (h : xs ∈ xss)
    (separator : List α) : xs <:+: separator.intercalate xss := by
  induction xss with
  | nil => simp at h
  | cons ys yss ih =>
    cases yss with
    | nil =>
      obtain rfl := List.mem_singleton.1 h
      exact ⟨[], [], by rw [List.intercalate_singleton, List.nil_append, List.append_nil]⟩
    | cons zs zss =>
      rw [List.intercalate_cons_cons]
      rcases List.mem_cons.1 h with rfl | h
      · rw [List.append_assoc]
        exact (List.prefix_append xs _).isInfix
      · exact (ih h).trans (List.suffix_append _ _).isInfix

theorem mem_of_mem_intercalate {α : Type} {a : α} {separator : List α} {xss : List (List α)}
    (h : a ∈ separator.intercalate xss) : a ∈ separator ∨ ∃ xs ∈ xss, a ∈ xs := by
  induction xss with
  | nil => simp at h
  | cons xs xss ih =>
    cases xss with
    | nil =>
      rw [List.intercalate_singleton] at h
      exact Or.inr ⟨xs, by simp, h⟩
    | cons ys yss =>
      rw [List.intercalate_cons_cons, List.mem_append, List.mem_append] at h
      rcases h with (h | h) | h
      · exact Or.inr ⟨xs, by simp, h⟩
      · exact Or.inl h
      · rcases ih h with hs | ⟨zs, hz, ha⟩
        · exact Or.inl hs
        · exact Or.inr ⟨zs, List.mem_cons_of_mem xs hz, ha⟩

end CollectionTypes
