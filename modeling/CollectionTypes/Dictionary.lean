/-!
# Dictionaries in order of first use

A dictionary holds its entries in the order in which their keys were first inserted. Inserting a
key again replaces the value and leaves the position, so keys stay distinct; that is part of the
type.
-/

namespace CollectionTypes

/-- Entries with distinct keys, in order of first insertion. -/
structure Dictionary (κ : Type) (α : Type) where
  entries : List (κ × α)
  nodup : (entries.map Prod.fst).Nodup
deriving DecidableEq

namespace Dictionary

variable {κ α : Type} [DecidableEq κ]

def empty : Dictionary κ α := ⟨[], List.nodup_nil⟩

instance : EmptyCollection (Dictionary κ α) := ⟨empty⟩

def keys (d : Dictionary κ α) : List κ := d.entries.map Prod.fst

def size (d : Dictionary κ α) : Nat := d.entries.length

def get? (d : Dictionary κ α) (k : κ) : Option α := (d.entries.find? (·.1 = k)).map Prod.snd

/-- The entries after giving `k` the value `v`: in place where `k` occurs, else at the end. -/
def put (k : κ) (v : α) : List (κ × α) → List (κ × α)
  | [] => [(k, v)]
  | e :: es => if e.1 = k then (k, v) :: es else e :: put k v es

theorem keys_put (k : κ) (v : α) (es : List (κ × α)) :
    (put k v es).map Prod.fst =
      if k ∈ es.map Prod.fst then es.map Prod.fst else es.map Prod.fst ++ [k] := by
  induction es with
  | nil => simp [put]
  | cons e es ih =>
    by_cases h : e.1 = k
    · simp [put, h]
    · have h' : ¬ k = e.1 := fun x => h x.symm
      by_cases hk : k ∈ es.map Prod.fst
      · simp only [put, if_neg h, List.map_cons, ih, if_pos hk,
          if_pos (List.mem_cons_of_mem _ hk)]
      · have hn : k ∉ e.1 :: es.map Prod.fst := by simp [h', hk]
        simp only [put, if_neg h, List.map_cons, ih, if_neg hk, if_neg hn, List.cons_append]

def insert (d : Dictionary κ α) (k : κ) (v : α) : Dictionary κ α where
  entries := put k v d.entries
  nodup := by
    rw [keys_put]
    split
    next => exact d.nodup
    next h =>
      rw [List.nodup_append]
      refine ⟨d.nodup, by simp, ?_⟩
      rintro a ha b hb rfl
      simp only [List.mem_singleton] at hb
      exact h (hb ▸ ha)

theorem keys_insert (d : Dictionary κ α) (k : κ) (v : α) :
    (d.insert k v).keys = if k ∈ d.keys then d.keys else d.keys ++ [k] :=
  keys_put k v d.entries

theorem find?_put (k k' : κ) (v : α) (es : List (κ × α)) :
    (put k v es).find? (fun e => e.1 = k') =
      if k' = k then some (k, v) else es.find? (fun e => e.1 = k') := by
  induction es with
  | nil => by_cases h : k = k' <;> simp [put, h, eq_comm]
  | cons e es ih =>
    by_cases h : e.1 = k
    · by_cases hk : k' = k
      · simp [put, h, hk]
      · have hk' : ¬ k = k' := fun x => hk x.symm
        simp [put, h, hk, hk']
    · by_cases hk : k' = k
      · subst hk
        simp [put, h, ih]
      · by_cases he : e.1 = k'
        · simp [put, hk, he]
        · simp [put, h, hk, he, ih]

theorem get?_insert (d : Dictionary κ α) (k k' : κ) (v : α) :
    (d.insert k v).get? k' = if k' = k then some v else d.get? k' := by
  simp only [get?, insert, find?_put]
  split <;> rfl

theorem mem_keys_insert {d : Dictionary κ α} {k k' : κ} {v : α} :
    k' ∈ (d.insert k v).keys ↔ k' = k ∨ k' ∈ d.keys := by
  rw [keys_insert]
  split
  next h =>
    constructor
    · exact Or.inr
    · rintro (rfl | h')
      · exact h
      · exact h'
  next => simp [or_comm]

theorem mem_keys_of_get? {d : Dictionary κ α} {k : κ} {v : α} (h : d.get? k = some v) :
    k ∈ d.keys := by
  simp only [get?, Option.map_eq_some_iff] at h
  obtain ⟨e, he, _⟩ := h
  have hk : e.1 = k := by simpa using List.find?_some he
  exact List.mem_map.2 ⟨e, List.mem_of_find?_eq_some he, hk⟩

/-- The entries whose keys have a property. -/
def filter (d : Dictionary κ α) (p : κ → Bool) : Dictionary κ α where
  entries := d.entries.filter fun e => p e.1
  nodup := d.nodup.sublist (List.filter_sublist.map _)

omit [DecidableEq κ] in
theorem mem_keys_filter {d : Dictionary κ α} {p : κ → Bool} {k : κ} :
    k ∈ (d.filter p).keys ↔ k ∈ d.keys ∧ p k = true := by
  simp only [keys, filter, List.mem_map, List.mem_filter]
  constructor
  · rintro ⟨e, ⟨he, hp⟩, rfl⟩
    exact ⟨⟨e, he, rfl⟩, hp⟩
  · rintro ⟨⟨e, he, rfl⟩, hp⟩
    exact ⟨e, ⟨he, hp⟩, rfl⟩

theorem get?_filter_of_pos (d : Dictionary κ α) {p : κ → Bool} {k : κ} (h : p k = true) :
    (d.filter p).get? k = d.get? k := by
  have hq : (fun e : κ × α => decide (p e.1 = true ∧ decide (e.1 = k) = true)) =
      fun e => decide (e.1 = k) := by
    funext e
    by_cases he : e.1 = k <;> simp [he, h]
  simp only [get?, filter, List.find?_filter]
  rw [hq]

def ofList (es : List (κ × α)) : Dictionary κ α :=
  es.foldl (fun d e => d.insert e.1 e.2) empty

end Dictionary
end CollectionTypes
