import CollectionTypes.Proofs.JsonDump
import CollectionTypes.Proofs.JsonValues

/-!
# Dictionaries of definitions

The readers of texts, definitions and dictionaries take what the relations of a written dump allow,
and nothing else. Values that are ignored in a definition are read, so they must be plain to be
accepted.
-/

namespace CollectionTypes.Json

/-- Any value may be ignored. -/
def anything : Written → Prop := fun _ => True

theorem ignores_anything {ms : List (Member Written)} (h : TextKeys ms) : Ignores anything ms :=
  ⟨h, fun _ _ _ => trivial⟩

/-! ### Texts -/

theorem mismatched_ne_ok {α : Type} {wanted : Wanted} {c : Char} {cs : Text} {p : α × Text} :
    mismatched wanted c cs ≠ .ok p := by
  unfold mismatched
  split_ifs
  · simp [atHere]
  · simp [atHere]
  · split <;> simp [atHere]

/-- A string and its text. -/
def IsText (w : Written) (s : Text) : Prop := ∃ l : Literal, w = .string l ∧ l.decode = some s

theorem sound_takeText : Sound takeText IsText := by
  intro t s rest h
  unfold takeText at h
  split at h
  next => simp [atNext] at h
  next c cs hc =>
    obtain ⟨a, rfl⟩ := exists_space_of_skipSpace hc
    split at h
    next hq =>
      obtain ⟨l, hl, hd⟩ := exists_literal_of_takeString h
      exact ⟨a, .string l, by simp [hq, hl, Literal.text], l, rfl, hd⟩
    next => exact absurd h mismatched_ne_ok

theorem IsText.accepted {w : Written} {s : Text} (h : IsText w s) : Accepts takeText w s := by
  obtain ⟨l, rfl, hl⟩ := h
  intro a t _
  rw [Written.text_string, Literal.text, List.append_assoc, List.cons_append, takeText,
    skipSpace_append_cons a (by decide)]
  simp [takeString_body hl]

/-! ### Signatures -/

/-- The members with a key stand for the values under it. -/
theorem denotes_filter {ms : List (Member Written)} {members : List (Text × Value)} (key : Text)
    (keys : List.Forall₂ (fun m x => m.key.decode = some x.1) ms members)
    (values : List.Forall₂ (fun m x => Denotes (Member.value m) x.2) ms members) :
    List.Forall₂ (fun w x => Denotes w x.2) (valuesAt key ms)
      (members.filter fun x => x.1 = key) := by
  induction keys with
  | nil => exact .nil
  | @cons m x ms members hk _ ih =>
    cases values with
    | cons hv values =>
      by_cases he : x.1 = key
      · rw [valuesAt_cons_of_eq (by rw [hk, he]), List.filter_cons_of_pos (by simpa using he)]
        exact .cons hv (ih values)
      · rw [valuesAt_cons_of_ne (by rw [hk]; simpa using he),
          List.filter_cons_of_neg (by simpa using he)]
        exact ih values

section Found

variable {key : Text} {ms : List (Member Written)} {members : List (Text × Value)}

theorem exists_member_of_valuesAt {w : Written}
    (keys : List.Forall₂ (fun m x => m.key.decode = some x.1) ms members)
    (values : List.Forall₂ (fun m x => Denotes (Member.value m) x.2) ms members)
    (he : valuesAt key ms = [w]) :
    ∃ x, (members.filter fun x => x.1 = key) = [x] ∧ Denotes w x.2 := by
  have found := denotes_filter key keys values
  rw [he] at found
  obtain ⟨x, xs, hx, hxs, hf⟩ := List.forall₂_cons_left_iff.1 found
  obtain rfl := List.forall₂_nil_left_iff.1 hxs
  exact ⟨x, hf, hx⟩

theorem exists_value_of_filter {x : Text × Value}
    (keys : List.Forall₂ (fun m x => m.key.decode = some x.1) ms members)
    (values : List.Forall₂ (fun m x => Denotes (Member.value m) x.2) ms members)
    (he : (members.filter fun x => x.1 = key) = [x]) :
    ∃ w, valuesAt key ms = [w] ∧ Denotes w x.2 := by
  have found := denotes_filter key keys values
  rw [he] at found
  obtain ⟨w, ws, hw, hws, hv⟩ := List.forall₂_cons_right_iff.1 found
  obtain rfl := List.forall₂_nil_right_iff.1 hws
  exact ⟨w, hv, hw⟩

end Found

theorem textKeys_of_forall₂ {ms : List (Member Written)} {members : List (Text × Value)}
    (keys : List.Forall₂ (fun m x => m.key.decode = some x.1) ms members) : TextKeys ms := by
  induction keys with
  | nil => exact textKeys_nil
  | cons hk _ ih => exact textKeys_cons hk ih

theorem signature?_object (members : List (Text × Value)) :
    (Value.object members).signature? =
      match members.filter fun x => x.1 = signatureKey with
      | [] => some Collection.unknownSignature
      | [(_, .null)] => some Collection.unknownSignature
      | [(_, .string s)] => some s
      | _ => none := rfl

theorem Denotes.signs {w : Written} {v : Value} {s : Text} (h : Denotes w v)
    (hs : v.signature? = some s) : Signs anything w s := by
  cases h with
  | null => simp [Value.signature?] at hs
  | boolean b => simp [Value.signature?] at hs
  | number n x => simp [Value.signature?] at hs
  | list _ => simp [Value.signature?] at hs
  | string hl =>
    simp only [Value.signature?, Option.some.injEq] at hs
    subst hs
    exact .text hl
  | @object blank ms members keys values =>
    have ignores := ignores_anything (textKeys_of_forall₂ keys)
    rw [signature?_object] at hs
    split at hs
    next hm =>
      have found := denotes_filter signatureKey keys values
      rw [hm] at found
      obtain rfl := Option.some.inj hs
      exact .absent ignores (List.forall₂_nil_right_iff.1 found)
    next k hm =>
      obtain ⟨w, he, hw⟩ := exists_value_of_filter keys values hm
      obtain rfl := Option.some.inj hs
      cases hw
      exact .null ignores he
    next k s' hm =>
      obtain ⟨w, he, hw⟩ := exists_value_of_filter keys values hm
      obtain rfl := Option.some.inj hs
      cases hw with
      | string hl => exact .given ignores he hl
    next => simp at hs

theorem Signs.signature? {ignored : Written → Prop} {w : Written} {v : Value} {s : Text}
    (h : Signs ignored w s) (hd : Denotes w v) : v.signature? = some s := by
  cases h with
  | text hl =>
    cases hd with
    | string hl' => exact hl'.symm.trans hl
  | absent _ he =>
    cases hd with
    | object keys values =>
      have found := denotes_filter signatureKey keys values
      rw [he] at found
      rw [signature?_object, List.forall₂_nil_left_iff.1 found]
  | null _ he =>
    cases hd with
    | object keys values =>
      obtain ⟨⟨k, v⟩, hf, hx⟩ := exists_member_of_valuesAt keys values he
      cases hx
      rw [signature?_object, hf]
  | given _ he hl =>
    cases hd with
    | object keys values =>
      obtain ⟨⟨k, v⟩, hf, hx⟩ := exists_member_of_valuesAt keys values he
      cases hx with
      | string hl' =>
        rw [signature?_object, hf]
        exact hl'.symm.trans hl

theorem Plain.mono {depth depth' : Nat} {w : Written} (h : Plain depth w) (hd : depth ≤ depth') :
    Plain depth' w := by
  induction h generalizing depth' with
  | null => exact .null
  | boolean b => exact .boolean b
  | number hn => exact .number hn
  | string hl => exact .string hl
  | list _ ih =>
    obtain ⟨depth', rfl⟩ := Nat.exists_eq_add_of_lt hd
    apply Plain.list
    intro e he
    exact ih e he (by omega)
  | object keys _ ih =>
    obtain ⟨depth', rfl⟩ := Nat.exists_eq_add_of_lt hd
    apply Plain.object keys
    intro m hm
    exact ih m hm (by omega)

theorem mem_valuesAt {key : Text} {m : Member Written} {ms : List (Member Written)} (hm : m ∈ ms)
    (hk : m.key.decode = some key) : m.value ∈ valuesAt key ms :=
  List.mem_map.2 ⟨m, List.mem_filter.2 ⟨hm, by simpa using hk⟩, rfl⟩

theorem Ignores.plain {depth : Nat} {ms : List (Member Written)}
    (h : Ignores (Plain depth) ms) (hv : ∀ v ∈ valuesAt signatureKey ms, Plain depth v)
    (blank : Space) : Plain (depth + 1) (.object blank ms) := by
  apply Plain.object h.keys
  intro m hm
  by_cases hk : m.key.decode = some signatureKey
  · exact hv m.value (mem_valuesAt hm hk)
  · exact h.others m hm hk

/-- A definition is plain if what it ignores is. -/
theorem Signs.plain {depth : Nat} {w : Written} {s : Text} (h : Signs (Plain depth) w s) :
    Plain (depth + 1) w := by
  cases h with
  | text hl => exact .string hl
  | absent hi he => exact hi.plain (by simp [he]) _
  | null hi he =>
    apply hi.plain
    rw [he]
    exact List.forall_mem_singleton.2 .null
  | given hi he hl =>
    apply hi.plain
    rw [he]
    exact List.forall_mem_singleton.2 (.string hl)

/-! ### Dictionaries -/

/-- Reading a definition inserts its signature. -/
def InsertsSignature (ignored : Written → Prop) (d : Signatures) (key : Text) (w : Written)
    (d' : Signatures) : Prop :=
  ∃ s, Signs ignored w s ∧ d' = d.insert key s

theorem soundMember_takeSignature (depth : Nat) :
    SoundMember (takeSignature depth) (InsertsSignature anything) := by
  intro d key t d' rest h
  unfold takeSignature at h
  split at h
  next => simp at h
  next u hu =>
    split at h
    next => simp at h
    next v r hv =>
      split at h
      next s hs =>
        obtain ⟨rfl, rfl⟩ := Prod.mk.inj (Except.ok.inj h)
        obtain ⟨between, a, w, rfl, hw⟩ := exists_value_of_skipColon (sound_takeValue depth) hu hv
        exact ⟨between, a, w, rfl, s, hw.signs hs, rfl⟩
      next => simp at h

theorem Signs.accepted {bound depth : Nat} {w : Written} {s : Text} (h : Signs (Plain bound) w s)
    (hd : bound + 1 ≤ depth) (d : Signatures) (key : Text) :
    AcceptsMember (takeSignature depth) d key w (d.insert key s) := by
  intro between a t ht
  -- the whole definition is read as a value before its signature is looked up
  obtain ⟨v, hv, hw⟩ := (h.plain.mono hd).accepted
  rw [takeSignature, skipColon_between]
  simp only
  rw [hv a ht]
  simp only
  rw [h.signature? hw]

theorem Chain.definitions {ignored : Written → Prop} {d d' : Signatures}
    {ms : List (Member Written)} (h : Chain (InsertsSignature ignored) d ms d') :
    ∃ definitions, List.Forall₂ (Defines ignored) ms definitions ∧
      d' = definitions.foldl (fun d e => d.insert e.1 e.2) d := by
  induction h with
  | nil d => exact ⟨[], .nil, rfl⟩
  | @cons d d₁ d₂ m ms key hk hm _ ih =>
    obtain ⟨s, hs, rfl⟩ := hm
    obtain ⟨definitions, hdef, rfl⟩ := ih
    exact ⟨(key, s) :: definitions, .cons ⟨hk, hs⟩ hdef, rfl⟩

theorem chain_of_defines {bound depth : Nat} {ms : List (Member Written)}
    {definitions : List (Text × Text)}
    (h : List.Forall₂ (Defines (Plain bound)) ms definitions) (hd : bound + 1 ≤ depth)
    (d : Signatures) :
    Chain (AcceptsMember (takeSignature depth)) d ms
      (definitions.foldl (fun d e => d.insert e.1 e.2) d) := by
  induction h generalizing d with
  | nil => exact .nil d
  | cons hm _ ih => exact .cons hm.1 (hm.2.accepted hd d _) (ih _)

/-- A dictionary that may be null, with the definitions inserted one after another. -/
def IsDefined (ignored : Written → Prop) (w : Written) (d : Option Signatures) : Prop :=
  ∃ definitions, Defined ignored w definitions ∧ d = definitions.map Dictionary.ofList

theorem sound_takeSignatures (depth : Nat) :
    Sound (takeSignatures depth) fun w d => IsDefined anything w (some d) := by
  intro t d rest h
  unfold takeSignatures at h
  split at h
  next => simp [atNext] at h
  next c cs hc =>
    obtain ⟨a, rfl⟩ := exists_space_of_skipSpace hc
    split at h
    next ho =>
      split at h
      next => simp [atNext] at h
      next depth =>
        obtain ⟨w, hw, blank, ms, rfl, hchain⟩ :=
          exists_object_of_enclosed (soundMember_takeSignature depth) h
        obtain ⟨definitions, hdef, rfl⟩ := hchain.definitions
        exact ⟨a, _, by rw [ho, hw], some definitions, .object hdef, rfl⟩
    next => exact absurd h mismatched_ne_ok

theorem sound_takeOptionalSignatures (depth : Nat) :
    Sound (takeOptionalSignatures depth) (IsDefined anything) := by
  intro t d rest h
  unfold takeOptionalSignatures at h
  split at h
  next cs hc =>
    obtain ⟨a, rfl⟩ := exists_space_of_skipSpace hc
    obtain ⟨rfl, rfl⟩ := eq_of_takeLetters h
    exact ⟨a, .null, rfl, none, .null, rfl⟩
  next =>
    obtain ⟨d, hd, rfl⟩ := eq_of_map_eq_ok h
    exact sound_takeSignatures depth hd

theorem Defined.accepted {bound depth : Nat} {w : Written}
    {definitions : Option (List (Text × Text))} (h : Defined (Plain bound) w definitions)
    (hd : bound + 2 ≤ depth) :
    Accepts (takeOptionalSignatures depth) w (definitions.map Dictionary.ofList) := by
  intro a t ht
  cases h with
  | null =>
    rw [takeOptionalSignatures, skipSpace_append]
    rfl
  | @object blank ms definitions hdef =>
    obtain ⟨depth, rfl⟩ := Nat.exists_eq_add_of_le hd
    have hchain := chain_of_defines hdef (Nat.le_add_right (bound + 1) depth) ∅
    rw [show bound + 2 + depth = (bound + 1 + depth) + 1 by omega, text_object_append,
      takeOptionalSignatures, takeSignatures, skipSpace_append_cons a (by decide)]
    have taken := enclosed_takeMembers hchain blank t
    simp [taken, Except.map]
    rfl

end CollectionTypes.Json
