import CollectionTypes.Proofs.Depth
import CollectionTypes.Proofs.FieldTypes

/-!
# Types put together from types

Reading looks at a text as a whole: it trims and strips it, counts brackets from its beginning and
only then cuts it. Still the type of a union is the union of the types of any two parts that a bar
separates, if the first part closes as many brackets as it opens, and the type of an array is the
array of the type of its element. That holds of every text, also where brackets do not match or a
part is blank. Only a marker in front of another marker has to be excluded in unions, since each of
them is stripped at another level.
-/

namespace CollectionTypes

theorem Text.joined_append (separator : Text) {ts us : List Text} (ht : ts ≠ []) (hu : us ≠ []) :
    Text.joined separator (ts ++ us) =
      Text.joined separator ts ++ separator ++ Text.joined separator us := by
  induction ts with
  | nil => exact absurd rfl ht
  | cons t ts ih =>
    cases ts with
    | nil =>
      obtain ⟨u, us, rfl⟩ := List.exists_cons_of_ne_nil hu
      rfl
    | cons t' ts =>
      have rest := ih (List.cons_ne_nil t' ts)
      rw [List.cons_append, List.cons_append] at *
      rw [Text.joined, Text.joined, rest]
      simp only [List.append_assoc]

/-- A word without the character that stands between two texts is a piece of one of them. -/
theorem infix_or_infix_of_append_cons {α : Type} {word a b : List α} {c : α}
    (h : word <:+: a ++ c :: b) (hc : c ∉ word) : word <:+: a ∨ word <:+: b := by
  -- the word reaches no further into `c :: b` than its beginning
  have short : ∀ w, w <+: c :: b → c ∉ w → w = [] := by
    intro w hw hn
    rcases List.prefix_cons_iff.1 hw with rfl | ⟨t, rfl, -⟩
    · rfl
    · exact absurd List.mem_cons_self hn
  rcases List.infix_append_iff.1 h with h | h | ⟨w, w', rfl, hw, hw'⟩
  · exact Or.inl h
  · rcases List.infix_cons_iff.1 h with h | h
    · rw [short word h hc]
      exact Or.inl List.nil_infix
    · exact Or.inr h
  · rw [short w' hw' fun hm => hc (List.mem_append_right w hm), List.append_nil]
    exact Or.inl hw.isInfix

theorem SingleMarkers.append_bar {a b : Text} (ha : SingleMarkers a) (hb : SingleMarkers b) :
    SingleMarkers (a ++ '|' :: b) := by
  intro gap hg hi
  have apart : '|' ∉ '?' :: gap ++ ['?'] := by
    intro hm
    simp only [List.mem_append, List.mem_cons, List.not_mem_nil, or_false] at hm
    rcases hm with (h | h) | h
    · exact absurd h (by decide)
    · exact absurd (hg '|' h) (by decide)
    · exact absurd h (by decide)
  rcases infix_or_infix_of_append_cons hi apart with h | h
  · exact ha gap hg h
  · exact hb gap hg h

namespace Signature

open Nesting

/-- The first part may go below zero on the way, and the second one need not return to it. -/
theorem typeText_append_bar (mode : Mode) {a b : Text} (ha : SingleMarkers a)
    (hb : SingleMarkers b) (level : depth 0 a = 0) :
    typeText mode (a ++ '|' :: b) =
      typeText mode a ++ alternativeSeparator ++ typeText mode b := by
  have cut : pieces '|' 0 (a ++ '|' :: b) = pieces '|' 0 a ++ pieces '|' 0 b :=
    pieces_append_of_depth (by decide) level b
  have nonempty (t : Text) : (pieces '|' 0 t).map (typeText mode) ≠ [] := by
    simp [pieces_ne_nil]
  rw [typeText_eq_joined_pieces mode (ha.append_bar hb), cut, List.map_append,
    Text.joined_append _ (nonempty a) (nonempty b), ← typeText_eq_joined_pieces mode ha,
    ← typeText_eq_joined_pieces mode hb]

theorem typeText_array (mode : Mode) {s : Text} (inside : NeverBelow s) :
    typeText mode (arrayOpening ++ s ++ ['>']) = arrayOpening ++ typeText mode s ++ ['>'] := by
  have bare : Language.IsBare (arrayOpening ++ s ++ ['>']) :=
    Language.isBare_append Language.tight_arrayOpening (by decide) (by decide)
  apply typeText_of_array mode
  apply ofText_of_unwrap?_array
  rw [bare.stripOptional_eq, unwrap?_eq_some_iff]
  exact ⟨rfl, inside⟩

/-- A bar at depth zero is a union and `Array<` with the bracket that closes it an array, on texts
of any kind. -/
theorem typeText_composed (mode : Mode) :
    (∀ a b, SingleMarkers a → SingleMarkers b → openings a = closings a →
        typeText mode (a ++ "|" ++ b) = typeText mode a ++ " | " ++ typeText mode b) ∧
      ∀ s, (∀ p, p <+: s → closings p ≤ openings p) →
        typeText mode ("Array<" ++ s ++ ">") = "Array<" ++ typeText mode s ++ ">" := by
  constructor
  · intro a b ha hb counts
    have level : depth 0 a = 0 := by
      rw [depth_eq]
      omega
    have whole : a ++ "|".toList ++ b = a ++ '|' :: b := List.append_assoc a ['|'] b
    rw [whole]
    exact typeText_append_bar mode ha hb level
  · intro s counts
    exact typeText_array mode (neverBelow_iff_counts.2 counts)

/-- The first part closes a bracket before it opens one, and the second part and the element leave
one open. -/
theorem typeText_composed_unmatched :
    let a : Text := " Ref<User>? | > <"
    let b : Text := "Ref<Day> ? | Array<Int"
    let s : Text := "Ref<User> | < ?"
    (SingleMarkers a ∧ SingleMarkers b ∧ openings a = closings a ∧
        typeText .create (a ++ "|" ++ b) = typeText .create a ++ " | " ++ typeText .create b) ∧
      (∀ p, p <+: s → closings p ≤ openings p) ∧
      typeText .create ("Array<" ++ s ++ ">") = "Array<" ++ typeText .create s ++ ">" := by
  intro a b s
  have ha : SingleMarkers a := by decide
  have hb : SingleMarkers b := by decide
  have counts : openings a = closings a := by decide
  have inside : ∀ p, p <+: s → closings p ≤ openings p := neverBelow_iff_counts.1 (by decide)
  exact ⟨⟨ha, hb, counts, (typeText_composed .create).1 a b ha hb counts⟩, inside,
    (typeText_composed .create).2 s inside⟩

end Signature
end CollectionTypes
