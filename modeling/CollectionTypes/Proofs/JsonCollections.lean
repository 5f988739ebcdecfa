import CollectionTypes.Proofs.JsonDefinitions

/-!
# Collections

A collection is read from an object with its members in any order, each known one at most once, or
from a list of its parts. Values under unknown keys are skipped, so any value may stand there.
-/

namespace CollectionTypes.Json

/-! ### Slots -/

theorem Chain.keys {σ : Type} {R : σ → Text → Written → σ → Prop} {s s' : σ}
    {ms : List (Member Written)} (h : Chain R s ms s') : TextKeys ms := by
  induction h with
  | nil => exact textKeys_nil
  | cons hk _ _ ih => exact textKeys_cons hk ih

/-- A slot of the state that only one key fills, and only where it is empty, is filled by the
values under that key. -/
theorem Chain.fills {σ α : Type} {R : σ → Text → Written → σ → Prop} {read : Written → α → Prop}
    {key : Text} (slot : σ → Option α)
    (at_key : ∀ {s w s'}, R s key w s' → slot s = none ∧ ∃ a, read w a ∧ slot s' = some a)
    (beside : ∀ {s k w s'}, k ≠ key → R s k w s' → slot s' = slot s) {s s' : σ}
    {ms : List (Member Written)} (h : Chain R s ms s') :
    Fills read (slot s) (valuesAt key ms) (slot s') := by
  induction h with
  | nil s => exact .keep (slot s)
  | @cons s s₁ s₂ m ms k hk hm _ ih =>
    by_cases he : k = key
    · obtain ⟨hs, a, ha, hs₁⟩ := at_key (he ▸ hm)
      rw [hs₁] at ih
      rw [valuesAt_cons_of_eq (by rw [hk, he]), hs]
      -- the slot is full now, so the key does not come again
      cases hv : valuesAt key ms with
      | nil =>
        rw [hv, fills_nil_iff] at ih
        rw [ih]
        exact .fill ha
      | cons w ws =>
        rw [hv, fills_cons_iff] at ih
        exact absurd ih.1 (by simp)
    · have hne : m.key.decode ≠ some key := by
        rw [hk]
        simpa using he
      rw [valuesAt_cons_of_ne hne, ← beside he hm]
      exact ih

/-- Definitions that need not be there, inserted one after another. -/
def IsOptionalDefined (ignored : Written → Prop) (values : List Written)
    (d : Option Signatures) : Prop :=
  ∃ definitions, OptionalDefined ignored values definitions ∧
    d = definitions.map Dictionary.ofList

theorem isOptionalDefined_nil (ignored : Written → Prop) : IsOptionalDefined ignored [] none :=
  ⟨none, .absent, rfl⟩

theorem IsDefined.optional {ignored : Written → Prop} {w : Written} {d : Option Signatures}
    (h : IsDefined ignored w d) : IsOptionalDefined ignored [w] d := by
  obtain ⟨definitions, hdef, rfl⟩ := h
  exact ⟨definitions, .present hdef, rfl⟩

/-- What a reader of optional definitions leaves in an empty slot. -/
theorem Fills.optionalDefined {ignored : Written → Prop} {values : List Written}
    {slot : Option (Option Signatures)} (h : Fills (IsDefined ignored) none values slot) :
    IsOptionalDefined ignored values (slot.getD none) := by
  cases h with
  | keep => exact isOptionalDefined_nil ignored
  | fill hw => exact hw.optional

theorem OptionalDefined.exists_fills {bound depth : Nat} {values : List Written}
    {definitions : Option (List (Text × Text))}
    (h : OptionalDefined (Plain bound) values definitions) (hd : bound + 2 ≤ depth) :
    ∃ slot, Fills (Accepts (takeOptionalSignatures depth)) none values slot ∧
      slot.getD none = definitions.map Dictionary.ofList := by
  cases h with
  | absent => exact ⟨none, .keep none, rfl⟩
  | present hdef => exact ⟨some (_), .fill (hdef.accepted hd), rfl⟩

/-! ### Members of a collection -/

/-- Reading a member of a collection fills the slot under its key or skips the value. -/
inductive TakesPart (ignored : Written → Prop) (p : CollectionParts) (key : Text) (w : Written) :
    CollectionParts → Prop
  | name {s : Text} : key = CollectionParts.nameKey → p.name = none → IsText w s →
    TakesPart ignored p key w { p with name := some s }
  | fields {d : Option Signatures} : key = CollectionParts.fieldsKey → p.fields = none →
    IsDefined ignored w d → TakesPart ignored p key w { p with fields := some d }
  | computedFields {d : Option Signatures} : key = CollectionParts.computedFieldsKey →
    p.computedFields = none → IsDefined ignored w d →
    TakesPart ignored p key w { p with computedFields := some d }
  | other : key ≠ CollectionParts.nameKey → key ≠ CollectionParts.fieldsKey →
    key ≠ CollectionParts.computedFieldsKey → TakesPart ignored p key w p

/-- A value after a colon that is skipped. -/
def skipAfterColon {α : Type} (x : α) (t : Text) : Taken α :=
  match skipColon t with
  | .error e => .error e
  | .ok rest => (skipValue rest).map fun r => (x, r)

theorem exists_value_of_skipAfterColon {α : Type} {x y : α} {t rest : Text}
    (h : skipAfterColon x t = .ok (y, rest)) :
    x = y ∧ ∃ (between a : Space) (w : Written),
      t = between.val ++ ':' :: (a.val ++ (w.text ++ rest)) := by
  unfold skipAfterColon at h
  split at h
  next => simp at h
  next u hu =>
    obtain ⟨between, rfl⟩ := exists_space_of_skipColon hu
    cases hs : skipValue u with
    | error e => simp [hs, Except.map] at h
    | ok r =>
      rw [hs] at h
      obtain ⟨rfl, rfl⟩ := Prod.mk.inj (Except.ok.inj h)
      obtain ⟨a, w, rfl⟩ := exists_written_of_skipValue hs
      exact ⟨rfl, between, a, w, rfl⟩

theorem skipAfterColon_value {α : Type} (x : α) (between a : Space) (w : Written) {t : Text}
    (ht : endsNumber t = true) :
    skipAfterColon x (between.val ++ ':' :: (a.val ++ (w.text ++ t))) = .ok (x, t) := by
  rw [skipAfterColon, skipColon_between]
  simp only
  rw [skipValue_text a w ht]
  rfl

namespace CollectionParts

variable {p : CollectionParts} {key : Text}

theorem take_name (depth : Nat) (hk : key = nameKey) (hp : p.name = Option.none) :
    take depth p key = takeAfterColon takeText fun s => { p with name := some s } := by
  funext t
  simp only [take, hk, hp, if_true, Option.isSome_none, Bool.false_eq_true, if_false]
  rfl

theorem take_fields (depth : Nat) (hk : key = fieldsKey) (hp : p.fields = Option.none) :
    take depth p key =
      takeAfterColon (takeOptionalSignatures depth) fun d => { p with fields := some d } := by
  funext t
  simp only [take, hk, hp, nameKey_ne_fieldsKey.symm, if_true, Option.isSome_none,
    Bool.false_eq_true, if_false]
  rfl

theorem take_computedFields (depth : Nat) (hk : key = computedFieldsKey)
    (hp : p.computedFields = Option.none) :
    take depth p key =
      takeAfterColon (takeOptionalSignatures depth)
        fun d => { p with computedFields := some d } := by
  funext t
  simp only [take, hk, hp, nameKey_ne_computedFieldsKey.symm, fieldsKey_ne_computedFieldsKey.symm,
    if_true, Option.isSome_none, Bool.false_eq_true, if_false]
  rfl

theorem take_other (depth : Nat) (hn : key ≠ nameKey) (hf : key ≠ fieldsKey)
    (hc : key ≠ computedFieldsKey) : take depth p key = skipAfterColon p := by
  funext t
  simp only [take, hn, hf, hc, if_false]
  rfl

end CollectionParts

theorem soundMember_take (depth : Nat) :
    SoundMember (CollectionParts.take depth) (TakesPart anything) := by
  intro p key t p' rest h
  by_cases hn : key = CollectionParts.nameKey
  · cases hp : p.name with
    | some s => simp [CollectionParts.take, hn, hp] at h
    | none =>
      rw [CollectionParts.take_name depth hn hp] at h
      obtain ⟨between, a, w, s, rfl, hw, rfl⟩ := exists_value_of_takeAfterColon sound_takeText h
      exact ⟨between, a, w, rfl, .name hn hp hw⟩
  by_cases hf : key = CollectionParts.fieldsKey
  · cases hp : p.fields with
    | some d => simp [CollectionParts.take, hf, hp, nameKey_ne_fieldsKey.symm] at h
    | none =>
      rw [CollectionParts.take_fields depth hf hp] at h
      obtain ⟨between, a, w, d, rfl, hw, rfl⟩ :=
        exists_value_of_takeAfterColon (sound_takeOptionalSignatures depth) h
      exact ⟨between, a, w, rfl, .fields hf hp hw⟩
  by_cases hc : key = CollectionParts.computedFieldsKey
  · cases hp : p.computedFields with
    | some d =>
      simp [CollectionParts.take, hc, hp, nameKey_ne_computedFieldsKey.symm,
        fieldsKey_ne_computedFieldsKey.symm] at h
    | none =>
      rw [CollectionParts.take_computedFields depth hc hp] at h
      obtain ⟨between, a, w, d, rfl, hw, rfl⟩ :=
        exists_value_of_takeAfterColon (sound_takeOptionalSignatures depth) h
      exact ⟨between, a, w, rfl, .computedFields hc hp hw⟩
  · rw [CollectionParts.take_other depth hn hf hc] at h
    obtain ⟨rfl, between, a, w, rfl⟩ := exists_value_of_skipAfterColon h
    exact ⟨between, a, w, rfl, .other hn hf hc⟩

section Parts

variable {ignored : Written → Prop} {p p' : CollectionParts} {ms : List (Member Written)}

theorem Chain.fills_name (h : Chain (TakesPart ignored) p ms p') :
    Fills IsText p.name (valuesAt CollectionParts.nameKey ms) p'.name := by
  apply h.fills CollectionParts.name
  · intro p w p' h
    cases h with
    | name _ hp hw => exact ⟨hp, _, hw, rfl⟩
    | fields hk => exact absurd hk nameKey_ne_fieldsKey
    | computedFields hk => exact absurd hk nameKey_ne_computedFieldsKey
    | other hk => exact absurd rfl hk
  · intro p k w p' hk h
    cases h with
    | name he => exact absurd he hk
    | fields => rfl
    | computedFields => rfl
    | other => rfl

theorem Chain.fills_fields (h : Chain (TakesPart ignored) p ms p') :
    Fills (IsDefined ignored) p.fields (valuesAt CollectionParts.fieldsKey ms) p'.fields := by
  apply h.fills CollectionParts.fields
  · intro p w p' h
    cases h with
    | name hk => exact absurd hk nameKey_ne_fieldsKey.symm
    | fields _ hp hw => exact ⟨hp, _, hw, rfl⟩
    | computedFields hk => exact absurd hk fieldsKey_ne_computedFieldsKey
    | other _ hk => exact absurd rfl hk
  · intro p k w p' hk h
    cases h with
    | name => rfl
    | fields he => exact absurd he hk
    | computedFields => rfl
    | other => rfl

theorem Chain.fills_computedFields (h : Chain (TakesPart ignored) p ms p') :
    Fills (IsDefined ignored) p.computedFields (valuesAt CollectionParts.computedFieldsKey ms)
      p'.computedFields := by
  apply h.fills CollectionParts.computedFields
  · intro p w p' h
    cases h with
    | name hk => exact absurd hk nameKey_ne_computedFieldsKey.symm
    | fields hk => exact absurd hk fieldsKey_ne_computedFieldsKey.symm
    | computedFields _ hp hw => exact ⟨hp, _, hw, rfl⟩
    | other _ _ hk => exact absurd rfl hk
  · intro p k w p' hk h
    cases h with
    | name => rfl
    | fields => rfl
    | computedFields he => exact absurd he hk
    | other => rfl

section Accepted

variable {depth : Nat} {key : Text} {w : Written} {s : Text} {d : Option Signatures}

theorem acceptsMember_name (hk : key = CollectionParts.nameKey) (hp : p.name = none)
    (hs : IsText w s) :
    AcceptsMember (CollectionParts.take depth) p key w { p with name := some s } := by
  intro between a t ht
  rw [CollectionParts.take_name depth hk hp]
  exact hs.accepted.takeAfterColon _ between a ht

theorem acceptsMember_fields (hk : key = CollectionParts.fieldsKey) (hp : p.fields = none)
    (hd : Accepts (takeOptionalSignatures depth) w d) :
    AcceptsMember (CollectionParts.take depth) p key w { p with fields := some d } := by
  intro between a t ht
  rw [CollectionParts.take_fields depth hk hp]
  exact hd.takeAfterColon _ between a ht

theorem acceptsMember_computedFields (hk : key = CollectionParts.computedFieldsKey)
    (hp : p.computedFields = none) (hd : Accepts (takeOptionalSignatures depth) w d) :
    AcceptsMember (CollectionParts.take depth) p key w { p with computedFields := some d } := by
  intro between a t ht
  rw [CollectionParts.take_computedFields depth hk hp]
  exact hd.takeAfterColon _ between a ht

theorem acceptsMember_other (hn : key ≠ CollectionParts.nameKey)
    (hf : key ≠ CollectionParts.fieldsKey) (hc : key ≠ CollectionParts.computedFieldsKey) :
    AcceptsMember (CollectionParts.take depth) p key w p := by
  intro between a t ht
  rw [CollectionParts.take_other depth hn hf hc]
  exact skipAfterColon_value p between a w ht

end Accepted

/-- Members with at most one value for each slot are taken, whatever their order. -/
theorem chain_of_fills {depth : Nat} (keys : TextKeys ms)
    (hn : Fills IsText p.name (valuesAt CollectionParts.nameKey ms) p'.name)
    (hf : Fills (Accepts (takeOptionalSignatures depth)) p.fields
      (valuesAt CollectionParts.fieldsKey ms) p'.fields)
    (hc : Fills (Accepts (takeOptionalSignatures depth)) p.computedFields
      (valuesAt CollectionParts.computedFieldsKey ms) p'.computedFields) :
    Chain (AcceptsMember (CollectionParts.take depth)) p ms p' := by
  induction ms generalizing p with
  | nil =>
    obtain ⟨n, f, c⟩ := p'
    simp only [valuesAt_nil, fills_nil_iff] at hn hf hc
    rw [hn, hf, hc]
    exact .nil p
  | cons m ms ih =>
    obtain ⟨⟨key, hk⟩, keys⟩ := List.forall_mem_cons.1 keys
    have ne {k : Text} (h : key ≠ k) : m.key.decode ≠ some k := by
      rw [hk]
      simpa using h
    by_cases heq : key = CollectionParts.nameKey
    · rw [valuesAt_cons_of_eq (by rw [hk, heq]), fills_cons_iff] at hn
      rw [valuesAt_cons_of_ne (ne (heq ▸ nameKey_ne_fieldsKey))] at hf
      rw [valuesAt_cons_of_ne (ne (heq ▸ nameKey_ne_computedFieldsKey))] at hc
      obtain ⟨hp, hv, s, hs, hp'⟩ := hn
      refine .cons hk (acceptsMember_name heq hp hs) (ih keys ?_ hf hc)
      rw [hv, hp']
      exact .keep (some s)
    by_cases hef : key = CollectionParts.fieldsKey
    · rw [valuesAt_cons_of_ne (ne heq)] at hn
      rw [valuesAt_cons_of_eq (by rw [hk, hef]), fills_cons_iff] at hf
      rw [valuesAt_cons_of_ne (ne (hef ▸ fieldsKey_ne_computedFieldsKey))] at hc
      obtain ⟨hp, hv, d, hd, hp'⟩ := hf
      refine .cons hk (acceptsMember_fields hef hp hd) (ih keys hn ?_ hc)
      rw [hv, hp']
      exact .keep (some d)
    rw [valuesAt_cons_of_ne (ne heq)] at hn
    rw [valuesAt_cons_of_ne (ne hef)] at hf
    by_cases hec : key = CollectionParts.computedFieldsKey
    · rw [valuesAt_cons_of_eq (by rw [hk, hec]), fills_cons_iff] at hc
      obtain ⟨hp, hv, d, hd, hp'⟩ := hc
      refine .cons hk (acceptsMember_computedFields hec hp hd) (ih keys hn hf ?_)
      rw [hv, hp']
      exact .keep (some d)
    · rw [valuesAt_cons_of_ne (ne hec)] at hc
      exact .cons hk (acceptsMember_other heq hef hec) (ih keys hn hf hc)

end Parts

/-! ### Collections as objects -/

/-- A described collection, with the definitions inserted one after another. -/
def IsDescribed (ignored : Written → Prop) (w : Written) (c : Collection) : Prop :=
  ∃ d : Description, Describes ignored w d ∧ c = d.collection

theorem described_of_chain {p : CollectionParts} {ms : List (Member Written)} {name : Text}
    (h : Chain (TakesPart anything) .none ms p) (hn : p.name = some name) (blank : Space) :
    IsDescribed anything (.object blank ms)
      ⟨name, p.fields.getD none, p.computedFields.getD none⟩ := by
  obtain ⟨fields, hf, ef⟩ := h.fills_fields.optionalDefined
  obtain ⟨computedFields, hc, ec⟩ := h.fills_computedFields.optionalDefined
  have hname := h.fills_name
  rw [hn] at hname
  cases hv : valuesAt CollectionParts.nameKey ms with
  | nil =>
    rw [hv, fills_nil_iff] at hname
    exact absurd hname (by simp [CollectionParts.none])
  | cons w ws =>
    rw [hv, fills_cons_iff] at hname
    obtain ⟨_, rfl, s, ⟨l, rfl, hl⟩, hs⟩ := hname
    obtain rfl := Option.some.inj hs
    refine ⟨⟨name, fields, computedFields⟩, ?_, ?_⟩
    · exact .object h.keys hv hl hf hc
    · rw [ef, ec]
      rfl

theorem exists_object_of_takeCollectionMembers {depth : Nat} {t rest : Text} {c : Collection}
    (h : enclosed closeObject (takeCollectionMembers depth t) = .ok (c, rest)) :
    ∃ w : Written, '{' :: t = w.text ++ rest ∧ IsDescribed anything w c := by
  obtain ⟨u, hu, hr⟩ := ok_of_enclosed h
  unfold takeCollectionMembers at hu
  split at hu
  next => simp at hu
  next p r hp =>
    split at hu
    next => simp at hu
    next name hn =>
      obtain ⟨rfl, rfl⟩ := Prod.mk.inj (Except.ok.inj hu)
      obtain ⟨a, ms, v, rfl, rfl, hms⟩ := exists_members_of_takeMembers (soundMember_take depth) hp
      refine ⟨.object a ms, ?_, described_of_chain hms hn a⟩
      obtain rfl : v = rest := (Prod.mk.inj hr).1
      rw [text_object_append]

theorem takeCollectionMembers_separated {depth : Nat} {p : CollectionParts} {name : Text}
    {ms : List (Member Written)}
    (h : Chain (AcceptsMember (CollectionParts.take depth)) .none ms p) (hn : p.name = some name)
    (blank : Space) (t : Text) :
    enclosed closeObject (takeCollectionMembers depth
      (blank.val ++ (separated true (ms.map Member.text) ++ '}' :: t))) =
        .ok (⟨name, p.fields.getD none, p.computedFields.getD none⟩, t) := by
  rw [takeCollectionMembers, takeMembers_separated h true blank t]
  simp only [hn]
  exact enclosed_ok (closeObject_closing t)

/-! ### Collections as lists -/

theorem takeNextSignatures_closing (depth : Nat) (a : Space) (t : Text) :
    takeNextSignatures depth (a.val ++ ']' :: t) = .ok (none, ']' :: t) := by
  rw [takeNextSignatures, nextElement_closing]

theorem takeNextSignatures_element {depth : Nat} {e : Element Written} {d : Option Signatures}
    (h : Accepts (takeOptionalSignatures depth) e.value d) (a : Space) {t : Text}
    (ht : endsNumber t = true) :
    takeNextSignatures depth (a.val ++ ',' :: (e.text ++ t)) = .ok (d, e.after.val ++ t) := by
  obtain ⟨c, cs, hv, hs, hc⟩ := e.value.text_cases
  have next := nextElement_more false a e.before hs (hc .list) (cs ++ (e.after.val ++ t))
  have taken := h .none (endsNumber_space_append e.after ht)
  simp only [Space.val_none, List.nil_append, hv, List.cons_append] at taken
  simp only [takeNextSignatures, Element.text, hv, List.append_assoc, List.cons_append]
  simp only [lead, Bool.false_eq_true, if_false, List.singleton_append] at next
  rw [next]
  exact taken

/-- The end of the list, or one more element. -/
theorem cases_of_takeNextSignatures {depth : Nat} {t rest : Text} {d : Option Signatures}
    (h : takeNextSignatures depth t = .ok (d, rest)) :
    (d = none ∧ ∃ (a : Space) (u : Text), t = a.val ++ rest ∧ rest = ']' :: u) ∨
      ∃ (a b : Space) (w : Written),
        t = a.val ++ ',' :: (b.val ++ (w.text ++ rest)) ∧ IsDefined anything w d := by
  unfold takeNextSignatures at h
  split at h
  next => simp at h
  next r hr =>
    left
    obtain ⟨rfl, rfl⟩ := Prod.mk.inj (Except.ok.inj h)
    obtain ⟨a, u, ht, hu⟩ := done_of_nextElement hr
    exact ⟨rfl, a, u, ht, hu⟩
  next r hr =>
    right
    obtain ⟨a, b, rfl⟩ := more_of_nextElement hr
    obtain ⟨c, w, rfl, hw⟩ := sound_takeOptionalSignatures depth h
    exact ⟨a, b.append c, w, by simp [lead], hw⟩

theorem described_of_parts {es : List (Element Written)} {l : Literal} {name : Text}
    {d d' : Option Signatures} (fields computedFields : List Written)
    (he : es.map Element.value = .string l :: (fields ++ computedFields))
    (hn : fields = [] → computedFields = []) (hl : l.decode = some name)
    (hf : IsOptionalDefined anything fields d) (hc : IsOptionalDefined anything computedFields d')
    (blank : Space) : IsDescribed anything (.list blank es) ⟨name, d, d'⟩ := by
  obtain ⟨ds, hf, rfl⟩ := hf
  obtain ⟨ds', hc, rfl⟩ := hc
  exact ⟨⟨name, ds, ds'⟩, .list he hn hl hf hc, rfl⟩

theorem exists_list_of_takeCollectionElements {depth : Nat} {t rest : Text} {c : Collection}
    (h : enclosed closeList (takeCollectionElements depth t) = .ok (c, rest)) :
    ∃ w : Written, '[' :: t = w.text ++ rest ∧ IsDescribed anything w c := by
  obtain ⟨u, hu, hr⟩ := ok_of_enclosed h
  obtain ⟨last, rfl⟩ := closeList_eq hr
  unfold takeCollectionElements at hu
  split at hu
  next => simp at hu
  next => simp at hu
  next r hfirst =>
    obtain ⟨a, b, rfl⟩ := more_of_nextElement hfirst
    split at hu
    next => simp at hu
    next name r₁ hname =>
      obtain ⟨b', _, rfl, l, rfl, hl⟩ := sound_takeText hname
      split at hu
      next => simp at hu
      next fields r₂ hfields =>
        obtain ⟨computedFields, hcomputed, rfl⟩ := eq_of_map_eq_ok hu
        -- the name alone, the name and the fields, or all three parts
        rcases cases_of_takeNextSignatures hfields with
          ⟨rfl, a₁, v, rfl, rfl⟩ | ⟨a₁, b₁, w₁, rfl, h₁⟩
        · have closing := takeNextSignatures_closing depth .none v
          rw [Space.val_none, List.nil_append, hcomputed] at closing
          obtain ⟨rfl, hv⟩ := Prod.mk.inj (Except.ok.inj closing)
          refine ⟨.list a [⟨b.append b', .string l, a₁.append last⟩], ?_, ?_⟩
          · simp [text_list_append, separated_cons, Element.text, lead, ← hv]
          · exact described_of_parts [] [] rfl (fun _ => rfl) hl (isOptionalDefined_nil _)
              (isOptionalDefined_nil _) a
        rcases cases_of_takeNextSignatures hcomputed with
          ⟨rfl, a₂, v, rfl, _⟩ | ⟨a₂, b₂, w₂, rfl, h₂⟩
        · refine ⟨.list a [⟨b.append b', .string l, a₁⟩, ⟨b₁, w₁, a₂.append last⟩], ?_, ?_⟩
          · simp [text_list_append, separated_cons, Element.text, lead]
          · exact described_of_parts [w₁] [] rfl (fun _ => rfl) hl h₁.optional
              (isOptionalDefined_nil _) a
        · refine ⟨.list a [⟨b.append b', .string l, a₁⟩, ⟨b₁, w₁, a₂⟩, ⟨b₂, w₂, last⟩], ?_, ?_⟩
          · simp [text_list_append, separated_cons, Element.text, lead]
          · exact described_of_parts [w₁] [w₂] rfl (by simp) hl h₁.optional h₂.optional a

theorem takeCollectionElements_parts {depth : Nat} {e : Element Written} {name t r₁ r₂ : Text}
    {d d' : Option Signatures} (hn : IsText e.value name) (a : Space) (ht : endsNumber t = true)
    (h₁ : takeNextSignatures depth (e.after.val ++ t) = .ok (d, r₁))
    (h₂ : takeNextSignatures depth r₁ = .ok (d', r₂)) :
    takeCollectionElements depth (a.val ++ (e.text ++ t)) = .ok (⟨name, d, d'⟩, r₂) := by
  obtain ⟨c, cs, hv, hs, hc⟩ := e.value.text_cases
  have next := nextElement_more true a e.before hs (hc .list) (cs ++ (e.after.val ++ t))
  have taken := hn.accepted .none (endsNumber_space_append e.after ht)
  simp only [Space.val_none, List.nil_append, hv, List.cons_append] at taken
  simp only [lead, if_true, List.nil_append] at next
  simp only [takeCollectionElements, Element.text, hv, List.append_assoc, List.cons_append]
  rw [next]
  simp only
  rw [taken]
  simp only
  rw [h₁]
  simp only
  rw [h₂]
  rfl

theorem Describes.elements_taken {bound depth : Nat} {blank : Space}
    {es : List (Element Written)} {d : Description}
    (h : Describes (Plain bound) (.list blank es) d) (hd : bound + 2 ≤ depth) (t : Text) :
    enclosed closeList (takeCollectionElements depth
      (blank.val ++ (separated true (es.map Element.text) ++ ']' :: t))) =
        .ok (d.collection, t) := by
  obtain ⟨name, fields, computedFields⟩ := d
  have closing := takeNextSignatures_closing depth (t := t)
  cases h with
  | list he hempty hl hf hc =>
    cases es with
    | nil => simp at he
    | cons e es =>
      obtain ⟨hv, he⟩ := List.cons.inj he
      have hname : IsText e.value name := ⟨_, hv, hl⟩
      have ends (es : List (Element Written)) :
          endsNumber (separated false (es.map Element.text) ++ ']' :: t) = true :=
        endsNumber_separated .list _ t
      have text (e : Element Written) (es : List (Element Written)) :
          separated false ((e :: es).map Element.text) ++ ']' :: t =
            ',' :: (e.text ++ (separated false (es.map Element.text) ++ ']' :: t)) := by
        simp
      rw [List.map_cons, separated_true_cons, List.append_assoc]
      cases hf with
      | absent =>
        rw [hempty rfl, List.append_nil, List.map_eq_nil_iff] at he
        rw [hempty rfl] at hc
        cases hc
        subst he
        rw [takeCollectionElements_parts hname blank (ends []) (closing e.after) (closing .none)]
        exact enclosed_ok (closeList_closing .none t)
      | present hdef =>
        rw [List.singleton_append, List.map_eq_cons_iff] at he
        obtain ⟨e₁, es, rfl, rfl, hes⟩ := he
        have first := takeNextSignatures_element (hdef.accepted hd) e.after (ends es)
        cases hc with
        | absent =>
          obtain rfl := List.map_eq_nil_iff.1 hes
          rw [text, takeCollectionElements_parts hname blank rfl first (closing e₁.after)]
          exact enclosed_ok (closeList_closing .none t)
        | present hdef₂ =>
          obtain ⟨e₂, rfl, rfl⟩ := List.map_eq_singleton_iff.1 hes
          have second := takeNextSignatures_element (hdef₂.accepted hd) e₁.after (ends [])
          rw [text] at first
          rw [text, text, takeCollectionElements_parts hname blank rfl first second]
          exact enclosed_ok (closeList_closing e₂.after t)

/-! ### Collections -/

theorem sound_takeCollection (depth : Nat) :
    Sound (takeCollection depth) (IsDescribed anything) := by
  intro t c rest h
  unfold takeCollection at h
  split at h
  next => simp [atNext] at h
  next d ds hd =>
    obtain ⟨a, rfl⟩ := exists_space_of_skipSpace hd
    split at h
    next hl =>
      split at h
      next => simp [atNext] at h
      next =>
        obtain ⟨w, hw, hc⟩ := exists_list_of_takeCollectionElements h
        exact ⟨a, w, by rw [hl, hw], hc⟩
    next =>
      split at h
      next ho =>
        split at h
        next => simp [atNext] at h
        next =>
          obtain ⟨w, hw, hc⟩ := exists_object_of_takeCollectionMembers h
          exact ⟨a, w, by rw [ho, hw], hc⟩
      next => exact absurd h mismatched_ne_ok

/-- A described collection is taken if what it ignores in definitions is plain. -/
theorem Describes.accepted {bound depth : Nat} {w : Written} {d : Description}
    (h : Describes (Plain bound) w d) (hd : bound + 3 ≤ depth) :
    Accepts (takeCollection depth) w d.collection := by
  obtain ⟨depth, rfl⟩ := Nat.exists_eq_add_of_le hd
  rw [show bound + 3 + depth = (bound + 2 + depth) + 1 by omega]
  have inner : bound + 2 ≤ bound + 2 + depth := Nat.le_add_right _ _
  intro a t _
  cases w with
  | list blank es =>
    rw [text_list_append, takeCollection, skipSpace_append_cons a (by decide)]
    exact h.elements_taken inner t
  | object blank ms =>
    rw [text_object_append, takeCollection, skipSpace_append_cons a (by decide)]
    cases h with
    | object keys hn hl hf hc =>
      obtain ⟨fields, hfills, ef⟩ := hf.exists_fills inner
      obtain ⟨computedFields, hcfills, ec⟩ := hc.exists_fills inner
      have hname : Fills IsText none (valuesAt CollectionParts.nameKey ms) (some d.name) := by
        rw [hn]
        exact .fill ⟨_, rfl, hl⟩
      have hchain : Chain (AcceptsMember (CollectionParts.take (bound + 2 + depth)))
          CollectionParts.none ms ⟨some d.name, fields, computedFields⟩ :=
        chain_of_fills keys hname hfills hcfills
      have taken := takeCollectionMembers_separated hchain rfl blank t
      rw [ef, ec] at taken
      exact taken
  | null => cases h
  | boolean b => cases h
  | number n => cases h
  | string l => cases h

end CollectionTypes.Json
