import CollectionTypes.Proofs.TypeReadings
import Mathlib.Data.Set.BooleanAlgebra
import Mathlib.Order.CompletePartialOrder

/-!
# What the generated types accept

A type expression denotes a set of values: a union denotes the union of its alternatives, and arrays
and the members of object types are covariant. The types of a signature in the three modes differ
in the sets that stand for its references, and of these the one for creating is the largest. So the
type for creating accepts every value of the other two, however deep the references are.
-/

namespace CollectionTypes.TypeScript

universe u

/-! ### Sets of values -/

/-- The same member with a set of values that is no larger. -/
def Narrower {V : Type u} (m m' : MemberName × Set V) : Prop := m.1 = m'.1 ∧ m.2 ⊆ m'.2

/-- A meaning for names, generic types and object types. -/
structure Interpretation (V : Type u) where
  named : Text → Set V
  generic : Text → Set V → Set V
  object : List (MemberName × Set V) → Set V
  array_mono : Monotone (generic "Array")
  object_mono : ∀ ms ms', List.Forall₂ Narrower ms ms' → object ms ⊆ object ms'

section Values

variable {V : Type u} (I : Interpretation V)

mutual

def PlainType.values : PlainType → Set V
  | .named name => I.named name
  | .generic head argument => I.generic head argument.values
  | .object members => I.object (memberValues members)

def TypeExpression.values : TypeExpression → Set V
  | .union first others => first.values ∪ otherValues others

def otherValues : List PlainType → Set V
  | [] => ∅
  | p :: ps => p.values ∪ otherValues ps

def memberValues : List (MemberName × TypeExpression) → List (MemberName × Set V)
  | [] => []
  | (name, type) :: ms => (name, type.values) :: memberValues ms

end

theorem otherValues_append (ps qs : List PlainType) :
    otherValues I (ps ++ qs) = otherValues I ps ∪ otherValues I qs := by
  induction ps with
  | nil => exact (Set.empty_union _).symm
  | cons p ps ih => rw [List.cons_append, otherValues, ih, otherValues, Set.union_assoc]

end Values

/-! ### Unions -/

namespace TypeExpression

variable {V : Type u} (I : Interpretation V)

theorem values_plain (p : PlainType) : (plain p).values I = p.values I := Set.union_empty _

theorem otherValues_alternatives (e : TypeExpression) :
    otherValues I e.alternatives = e.values I := by
  cases e with
  | union first others => rfl

theorem values_withOthers (e : TypeExpression) (ps : List PlainType) :
    (e.withOthers ps).values I = e.values I ∪ otherValues I ps := by
  cases e with
  | union first others =>
    rw [withOthers, TypeExpression.values, otherValues_append, TypeExpression.values,
      Set.union_assoc]

end TypeExpression

/-! ### Plain values -/

/-- Values made of lists and records. -/
inductive PlainValue where
  | atom (text : Text)
  | list (elements : List PlainValue)
  | record (properties : List (Text × PlainValue))

/-- A record has every property of an object type that is not optional, and those it has are in
their sets. -/
def HasMembers (properties : List (Text × PlainValue)) (ms : List (MemberName × Set PlainValue)) :
    Prop :=
  ∀ m ∈ ms, (∀ v, (m.1.name, v) ∈ properties → v ∈ m.2) ∧
    (m.1.optional = false → ∃ v, (m.1.name, v) ∈ properties)

theorem HasMembers.mono {properties : List (Text × PlainValue)}
    {ms ms' : List (MemberName × Set PlainValue)} (h : HasMembers properties ms)
    (hm : List.Forall₂ Narrower ms ms') : HasMembers properties ms' := by
  induction hm with
  | nil => exact h
  | cons narrower _ ih =>
    obtain ⟨first, rest⟩ := List.forall_mem_cons.1 h
    refine List.forall_mem_cons.2 ⟨?_, ih rest⟩
    obtain ⟨name, subset⟩ := narrower
    rw [← name]
    exact ⟨fun v hv => subset (first.1 v hv), first.2⟩

/-- Arrays are lists and objects are records, whatever the names mean. -/
def Interpretation.ofNames (named : Text → Set PlainValue) : Interpretation PlainValue where
  named := named
  generic head s := { v | head = "Array".toList ∧ ∃ vs, v = .list vs ∧ ∀ x ∈ vs, x ∈ s }
  object ms := { v | ∃ properties, v = .record properties ∧ HasMembers properties ms }
  array_mono := by
    rintro s s' hs v ⟨head, vs, rfl, h⟩
    exact ⟨head, vs, rfl, fun x hx => hs (h x hx)⟩
  object_mono := by
    rintro ms ms' hm v ⟨properties, rfl, h⟩
    exact ⟨properties, rfl, h.mono hm⟩

end TypeScript

/-! ### The type for creating is the largest -/

namespace Language

open TypeScript TypeExpression

variable {V : Type u} (I : Interpretation V) (mode : Mode)

theorem referenceReading_subset (target : Text) :
    (referenceReading target mode).values I ⊆ (referenceReading target .create).values I := by
  have create : (referenceReading target .create).values I =
      I.named target ∪ (I.named "DocumentReference" ∪ ∅) := rfl
  rw [create, Set.union_empty]
  cases mode with
  | main =>
    rw [referenceReading, values_plain]
    exact Set.subset_union_left
  | create => exact create.subset.trans (by rw [Set.union_empty])
  | faunaCreate =>
    rw [referenceReading, values_plain]
    exact Set.subset_union_right

mutual

theorem Construct.values_subset :
    ∀ c : Construct, (c.reading mode).values I ⊆ (c.reading .create).values I
  | .scalar _ => subset_rfl
  | .named _ => subset_rfl
  | .array element => by
    rw [Construct.reading, Construct.reading, values_plain, values_plain]
    exact I.array_mono element.values_subset
  | .reference _ target _ => referenceReading_subset I mode target.val
  | .object properties _ => by
    rw [Construct.reading, Construct.reading, values_plain, values_plain]
    exact I.object_mono _ _ (forall₂_propertyReadings properties)

theorem Expression.values_subset :
    ∀ e : Expression, (e.reading mode).values I ⊆ (e.reading .create).values I
  | .single _ construct => construct.values_subset
  | .union _ first middle _ last _ => by
    rw [Expression.reading, Expression.reading, values_withOthers, values_withOthers,
      otherValues_append, otherValues_append, otherValues_alternatives, otherValues_alternatives]
    exact Set.union_subset_union first.values_subset
      (Set.union_subset_union (otherValues_partReadings_subset middle) last.values_subset)

theorem otherValues_partReadings_subset :
    ∀ parts : List (Layout × Construct),
      otherValues I (partReadings mode parts) ⊆ otherValues I (partReadings .create parts)
  | [] => subset_rfl
  | (_, construct) :: parts => by
    rw [partReadings, partReadings, otherValues_append, otherValues_append,
      otherValues_alternatives, otherValues_alternatives]
    exact Set.union_subset_union construct.values_subset (otherValues_partReadings_subset parts)

theorem forall₂_propertyReadings :
    ∀ properties : List (PropertyName × Expression),
      List.Forall₂ Narrower (memberValues I (propertyReadings mode properties))
        (memberValues I (propertyReadings .create properties))
  | [] => .nil
  | (_, value) :: properties =>
    .cons ⟨rfl, value.values_subset⟩ (forall₂_propertyReadings properties)

end

/-- The types of a signature in the three modes have one reading each, and the one for creating has
every value of the other two, whatever the names of types mean. -/
theorem values_subset_create (e : Expression) :
    ∃ main create wire : TypeExpression,
      (∀ type, Reads (Signature.typeText .main e.text) type ↔ type = main) ∧
      (∀ type, Reads (Signature.typeText .create e.text) type ↔ type = create) ∧
      (∀ type, Reads (Signature.typeText .faunaCreate e.text) type ↔ type = wire) ∧
      ∀ {V : Type u} (I : Interpretation V),
        main.values I ⊆ create.values I ∧ wire.values I ⊆ create.values I := by
  refine ⟨e.reading .main, e.reading .create, e.reading .faunaCreate, fun _ => e.reads_iff .main,
    fun _ => e.reads_iff .create, fun _ => e.reads_iff .faunaCreate, ?_⟩
  intro V I
  exact ⟨e.values_subset I .main, e.values_subset I .faunaCreate⟩

end Language
end CollectionTypes
