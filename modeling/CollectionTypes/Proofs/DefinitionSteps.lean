import CollectionTypes.Proofs.JsonDump
import CollectionTypes.Proofs.PropertyNames
import Mathlib.Data.Finset.Card

/-!
# Collections built step by step

A collection is built by giving it fields and computed fields one after another, in any order and
with any names. Its two dictionaries have the names in order of first use, each with the signature
that was given last. A dictionary depends on the steps for it alone, so steps for one may be moved
past steps for the other. The types of the collection have their properties in the same order.
-/

namespace CollectionTypes

/-! ### The order of keys -/

/-- The distinct elements of `names`, in order of their first occurrence. -/
structure FirstUses (names keys : List Text) : Prop where
  mem_iff : ∀ n, n ∈ keys ↔ n ∈ names
  ordered : keys.Pairwise fun m n => names.idxOf m < names.idxOf n

namespace FirstUses

variable {names keys : List Text}

theorem nil : FirstUses [] [] where
  mem_iff := fun _ => Iff.rfl
  ordered := List.Pairwise.nil

/-- What comes behind the names does not change where they occur first. -/
theorem ordered_append (h : FirstUses names keys) (more : List Text) :
    keys.Pairwise fun m n => (names ++ more).idxOf m < (names ++ more).idxOf n := by
  apply h.ordered.imp_of_mem
  intro m n hm hn less
  rw [List.idxOf_append_of_mem ((h.mem_iff m).1 hm), List.idxOf_append_of_mem ((h.mem_iff n).1 hn)]
  exact less

theorem concat_of_mem (h : FirstUses names keys) {n : Text} (hn : n ∈ names) :
    FirstUses (names ++ [n]) keys where
  mem_iff := by
    intro k
    rw [h.mem_iff, List.mem_append, List.mem_singleton, or_iff_left_of_imp]
    rintro rfl
    exact hn
  ordered := h.ordered_append [n]

theorem concat_of_not_mem (h : FirstUses names keys) {n : Text} (hn : n ∉ names) :
    FirstUses (names ++ [n]) (keys ++ [n]) where
  mem_iff := by
    intro k
    rw [List.mem_append, List.mem_append, h.mem_iff]
  ordered := by
    rw [List.pairwise_append]
    refine ⟨h.ordered_append [n], List.pairwise_singleton _ n, ?_⟩
    intro m hm k hk
    rw [List.mem_singleton] at hk
    subst hk
    have old : m ∈ names := (h.mem_iff m).1 hm
    have before := List.idxOf_lt_length_of_mem old
    rw [List.idxOf_append_of_mem old, List.idxOf_append_of_notMem hn]
    omega

theorem nodup (h : FirstUses names keys) : keys.Nodup := by
  apply h.ordered.imp
  rintro m n less rfl
  exact absurd less (Nat.lt_irrefl _)

theorem length_eq (h : FirstUses names keys) : keys.length = names.toFinset.card := by
  have same : names.toFinset = keys.toFinset := by
    ext n
    rw [List.mem_toFinset, List.mem_toFinset, h.mem_iff]
  rw [same, List.toFinset_card_of_nodup h.nodup]

end FirstUses

theorem Dictionary.firstUses_ofList (given : List (Text × Text)) :
    FirstUses (given.map Prod.fst) (ofList given).keys := by
  induction given using List.reverseRecOn with
  | nil => exact FirstUses.nil
  | append_singleton given e ih =>
    rw [Json.ofList_concat, keys_insert, List.map_append, List.map_singleton]
    split
    next h => exact ih.concat_of_mem ((ih.mem_iff e.1).1 h)
    next h => exact ih.concat_of_not_mem fun hn => h ((ih.mem_iff e.1).2 hn)

theorem Dictionary.size_eq_length_keys {κ α : Type} (d : Dictionary κ α) :
    d.size = d.keys.length := by
  rw [size, keys, List.length_map]

theorem Dictionary.size_ofList (given : List (Text × Text)) :
    (ofList given).size = (given.map Prod.fst).toFinset.card := by
  rw [size_eq_length_keys, (firstUses_ofList given).length_eq]

/-- A dictionary has these names in order of first use, each with the signature given last. -/
structure KeepsFirstUse (given : List (Text × Text)) (signatures : Signatures) : Prop where
  order : FirstUses (given.map Prod.fst) signatures.keys
  last : Json.HoldsLast given signatures
  size_eq : signatures.size = (given.map Prod.fst).toFinset.card

theorem keepsFirstUse_ofList (given : List (Text × Text)) :
    KeepsFirstUse given (.ofList given) where
  order := Dictionary.firstUses_ofList given
  last := Json.holdsLast_ofList given
  size_eq := Dictionary.size_ofList given

/-! ### Steps -/

namespace Collection

/-- Whether a collection starts with an empty dictionary of fields or with none. -/
inductive Start where
  | new
  | withoutFields
deriving DecidableEq

def Start.collection (name : Text) : Start → Collection
  | new => Collection.new name
  | withoutFields => Collection.withoutFields name

inductive DefinitionStep where
  | field (name signature : Text)
  | computedField (name signature : Text)

namespace DefinitionStep

def on (c : Collection) : DefinitionStep → Collection
  | field name signature => c.field name signature
  | computedField name signature => c.computedField name signature

def field? : DefinitionStep → Option (Text × Text)
  | field name signature => some (name, signature)
  | computedField _ _ => none

def computedField? : DefinitionStep → Option (Text × Text)
  | field _ _ => none
  | computedField name signature => some (name, signature)

/-- The names and signatures given to fields, in order. -/
def fieldsOf (steps : List DefinitionStep) : List (Text × Text) := steps.filterMap field?

def computedFieldsOf (steps : List DefinitionStep) : List (Text × Text) :=
  steps.filterMap computedField?

theorem fieldsOf_concat (steps : List DefinitionStep) (step : DefinitionStep) :
    fieldsOf (steps ++ [step]) = fieldsOf steps ++ step.field?.toList := by
  rw [fieldsOf, List.filterMap_append]
  cases step <;> rfl

theorem computedFieldsOf_concat (steps : List DefinitionStep) (step : DefinitionStep) :
    computedFieldsOf (steps ++ [step]) = computedFieldsOf steps ++ step.computedField?.toList := by
  rw [computedFieldsOf, List.filterMap_append]
  cases step <;> rfl

end DefinitionStep

open DefinitionStep

def built (start : Start) (name : Text) (steps : List DefinitionStep) : Collection :=
  steps.foldl on (start.collection name)

/-- The dictionary of these definitions, which is there if it was from the start or if there are
any. -/
def definitions (present : Bool) (given : List (Text × Text)) : Option Signatures :=
  if present = true ∨ given ≠ [] then some (.ofList given) else none

theorem getD_definitions (present : Bool) (given : List (Text × Text)) :
    (definitions present given).getD ∅ = .ofList given := by
  unfold definitions
  split_ifs with h
  · rfl
  · rw [not_or, not_not] at h
    rw [h.2]
    rfl

theorem definitions_eq_none_iff {present : Bool} {given : List (Text × Text)} :
    definitions present given = none ↔ present = false ∧ given = [] := by
  unfold definitions
  split_ifs with h
  · cases present <;> simp_all
  · rw [not_or, not_not, Bool.not_eq_true] at h
    exact iff_of_true rfl h

theorem define_definitions (present : Bool) (given : List (Text × Text)) (name signature : Text) :
    define (definitions present given) name signature =
      definitions present (given ++ [(name, signature)]) := by
  have some_given : given ++ [(name, signature)] ≠ [] := by simp
  rw [define, getD_definitions, definitions, if_pos (Or.inr some_given), Json.ofList_concat]

/-- Each step changes one of the dictionaries and leaves the other. -/
theorem built_eq (start : Start) (name : Text) (steps : List DefinitionStep) :
    built start name steps =
      { name
        fields := definitions (start = .new) (fieldsOf steps)
        computedFields := definitions false (computedFieldsOf steps) } := by
  induction steps using List.reverseRecOn with
  | nil => cases start <;> rfl
  | append_singleton steps step ih =>
    have last : built start name (steps ++ [step]) = step.on (built start name steps) := by
      rw [built, List.foldl_append]
      rfl
    rw [last, ih, fieldsOf_concat, computedFieldsOf_concat]
    cases step with
    | field n s =>
      have next := define_definitions (start = .new) (fieldsOf steps) n s
      simp only [on, Collection.field, field?, computedField?, Option.toList_some,
        Option.toList_none, List.append_nil, next]
    | computedField n s =>
      have next := define_definitions false (computedFieldsOf steps) n s
      simp only [on, Collection.computedField, field?, computedField?, Option.toList_some,
        Option.toList_none, List.append_nil, next]

theorem fieldCount_eq (c : Collection) : c.fieldCount = (c.fields.getD ∅).size := by
  unfold fieldCount
  cases c.fields <;> rfl

theorem computedFieldCount_eq (c : Collection) :
    c.computedFieldCount = (c.computedFields.getD ∅).size := by
  unfold computedFieldCount
  cases c.computedFields <;> rfl

/-- A collection with a dictionary of fields has types that declare its fields, and one without has
none. -/
theorem declaresFieldsOf_ofCollection? (c : Collection) :
    match DeclarationSet.ofCollection? c with
    | none => c.fields = none
    | some set => c.fields ≠ none ∧ set.DeclaresFieldsOf c := by
  have declared := DeclarationSet.declaresFieldsOf_ofCollection c
  unfold DeclarationSet.ofCollection at declared
  unfold DeclarationSet.ofCollection?
  cases h : c.fields with
  | none => rfl
  | some fields =>
    rw [h] at declared
    exact ⟨Option.some_ne_none fields, declared⟩

/-- However the steps are mixed, both dictionaries of a collection keep the names given to them in
order of first use with the signatures given last, each whatever was given to the other, and the
types of the collection declare their properties in this order. There is no dictionary of fields if
there was none at the start and no field was given. -/
theorem built_keepsFirstUse (start : Start) (name : Text) (steps : List DefinitionStep) :
    let c := built start name steps
    let fields := fieldsOf steps
    let computed := computedFieldsOf steps
    c.name = name ∧
      (KeepsFirstUse fields (c.fields.getD ∅) ∧
        c.fieldCount = (fields.map Prod.fst).toFinset.card ∧
        (c.fields = none ↔ start = .withoutFields ∧ fields = [])) ∧
      (KeepsFirstUse computed (c.computedFields.getD ∅) ∧
        c.computedFieldCount = (computed.map Prod.fst).toFinset.card ∧
        (c.computedFields = none ↔ computed = [])) ∧
      ((∀ others, fieldsOf others = fields → (built start name others).fields = c.fields) ∧
        (∀ others, computedFieldsOf others = computed →
          (built start name others).computedFields = c.computedFields) ∧
        ∀ others, fieldsOf others = fields → computedFieldsOf others = computed →
          built start name others = c) ∧
      match DeclarationSet.ofCollection? c with
      | none => c.fields = none
      | some set => c.fields ≠ none ∧ set.DeclaresFieldsOf c := by
  intro c fields computed
  have hc : c = ⟨name, definitions (start = .new) fields, definitions false computed⟩ :=
    built_eq start name steps
  have inFields : KeepsFirstUse fields (c.fields.getD ∅) := by
    rw [hc, getD_definitions]
    exact keepsFirstUse_ofList fields
  have inComputed : KeepsFirstUse computed (c.computedFields.getD ∅) := by
    rw [hc, getD_definitions]
    exact keepsFirstUse_ofList computed
  refine ⟨?name, ⟨inFields, ?count, ?absent⟩, ⟨inComputed, ?computedCount, ?computedAbsent⟩,
    ⟨?byFields, ?byComputed, ?mixed⟩, declaresFieldsOf_ofCollection? c⟩
  case name => rw [hc]
  case count => rw [fieldCount_eq, inFields.size_eq]
  case absent =>
    rw [hc, definitions_eq_none_iff]
    cases start <;> simp
  case computedCount => rw [computedFieldCount_eq, inComputed.size_eq]
  case computedAbsent =>
    rw [hc, definitions_eq_none_iff]
    simp
  case byFields =>
    intro others hf
    rw [built_eq, hf, hc]
  case byComputed =>
    intro others hg
    rw [built_eq, hg, hc]
  case mixed =>
    intro others hf hg
    rw [built_eq, hf, hg, hc]

/-- A name given twice, a computed field of the same name, and the steps in another order. -/
theorem built_keepsFirstUse_mixed :
    let steps : List DefinitionStep :=
      [.field "b" "Int", .computedField "a" "String", .field "a" "Int", .field "b" "Long?"]
    let others : List DefinitionStep :=
      [.field "b" "Int", .field "a" "Int", .field "b" "Long?", .computedField "a" "String"]
    let c := built .withoutFields "User" steps
    fieldsOf others = fieldsOf steps ∧ computedFieldsOf others = computedFieldsOf steps ∧
      built .withoutFields "User" others = c ∧ c.fieldCount = 2 ∧
      FirstUses ["b".toList, "a".toList, "b".toList] c.fieldNames ∧
      c.fieldNames = ["b".toList, "a".toList] ∧
      (DeclarationSet.ofCollection c).DeclaresFieldsOf c := by
  intro steps others c
  have fields : fieldsOf others = fieldsOf steps := rfl
  have computed : computedFieldsOf others = computedFieldsOf steps := rfl
  obtain ⟨-, ⟨kept, count, -⟩, -, ⟨-, -, mixed⟩, declared⟩ :=
    built_keepsFirstUse .withoutFields "User" steps
  refine ⟨fields, computed, mixed others fields computed, ?_, kept.order, by decide, declared.2⟩
  rw [count]
  decide

end Collection
end CollectionTypes
