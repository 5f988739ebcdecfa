import CollectionTypes.Dump.Json
import CollectionTypes.Proofs.JsonGrammar
import Mathlib.Data.List.Forall2
import Mathlib.Data.List.Induction
import Mathlib.Tactic.SplitIfs

/-!
# What a written dump describes

A dump is a list of collections or an object whose only member `data` is that list. These relations
say on written values which collections a dump describes, in terms of the members with a given key.
Values under other keys are ignored; which ones a definition may ignore is a parameter.
-/

namespace CollectionTypes.Json

/-! ### Descriptions -/

/-- What a dump says about a collection. The definitions of a dictionary are in the order in which
they are written, and several of them may have the same key. -/
structure Description where
  name : Text
  fields : Option (List (Text × Text))
  computedFields : Option (List (Text × Text))
deriving DecidableEq

/-- The collection whose dictionaries have the definitions inserted one after another. -/
def Description.collection (d : Description) : Collection where
  name := d.name
  fields := d.fields.map Dictionary.ofList
  computedFields := d.computedFields.map Dictionary.ofList

/-- A dictionary has the keys of the definitions, each with its last signature. -/
structure HoldsLast (definitions : List (Text × Text)) (signatures : Signatures) : Prop where
  mem_keys_iff : ∀ key, key ∈ signatures.keys ↔ key ∈ definitions.map Prod.fst
  get?_eq : ∀ key,
    signatures.get? key = (definitions.reverse.find? (·.1 = key)).map Prod.snd

theorem ofList_concat (definitions : List (Text × Text)) (d : Text × Text) :
    Dictionary.ofList (definitions ++ [d]) = (Dictionary.ofList definitions).insert d.1 d.2 := by
  rw [Dictionary.ofList, List.foldl_append]
  rfl

theorem holdsLast_ofList (definitions : List (Text × Text)) :
    HoldsLast definitions (Dictionary.ofList definitions) := by
  induction definitions using List.reverseRecOn with
  | nil =>
    constructor
    · intro key
      rfl
    · intro key
      rfl
  | append_singleton definitions d ih =>
    rw [ofList_concat]
    constructor
    · intro key
      rw [Dictionary.mem_keys_insert, ih.mem_keys_iff, List.map_append, List.mem_append, or_comm]
      simp
    · intro key
      rw [Dictionary.get?_insert, List.reverse_append]
      by_cases hk : key = d.1
      · simp [hk]
      · have hk' : ¬ d.1 = key := fun h => hk h.symm
        simp [hk, hk', ih.get?_eq key]

/-! ### Members by key -/

/-- The values of the members with a key, in order. -/
def valuesAt (key : Text) (ms : List (Member Written)) : List Written :=
  (ms.filter fun m => m.key.decode = some key).map Member.value

@[simp] theorem valuesAt_nil (key : Text) : valuesAt key [] = [] := rfl

theorem valuesAt_cons_of_eq {key : Text} {m : Member Written} (h : m.key.decode = some key)
    (ms : List (Member Written)) : valuesAt key (m :: ms) = m.value :: valuesAt key ms := by
  simp [valuesAt, h]

theorem valuesAt_cons_of_ne {key : Text} {m : Member Written} (h : m.key.decode ≠ some key)
    (ms : List (Member Written)) : valuesAt key (m :: ms) = valuesAt key ms := by
  simp [valuesAt, h]

/-- Every key is a text. -/
def TextKeys (ms : List (Member Written)) : Prop := ∀ m ∈ ms, ∃ key, m.key.decode = some key

theorem textKeys_nil : TextKeys [] := List.forall_mem_nil _

theorem textKeys_cons {m : Member Written} {ms : List (Member Written)} {key : Text}
    (hk : m.key.decode = some key) (h : TextKeys ms) : TextKeys (m :: ms) :=
  List.forall_mem_cons.2 ⟨⟨key, hk⟩, h⟩

/-! ### Definitions, collections and dumps -/

theorem nameKey_ne_fieldsKey : CollectionParts.nameKey ≠ CollectionParts.fieldsKey := by decide

theorem nameKey_ne_computedFieldsKey :
    CollectionParts.nameKey ≠ CollectionParts.computedFieldsKey := by decide

theorem fieldsKey_ne_computedFieldsKey :
    CollectionParts.fieldsKey ≠ CollectionParts.computedFieldsKey := by decide

def signatureKey : Text := "signature"

section Relations

variable (ignored : Written → Prop)

/-- The members of a definition have text keys, and a value under another key than the signature's
may be ignored. -/
structure Ignores (ms : List (Member Written)) : Prop where
  keys : TextKeys ms
  others : ∀ m ∈ ms, m.key.decode ≠ some signatureKey → ignored m.value

/-- A definition gives a signature, or an unknown one. -/
inductive Signs : Written → Text → Prop
  | text {l : Literal} {s : Text} : l.decode = some s → Signs (.string l) s
  | absent {blank : Space} {ms : List (Member Written)} :
    Ignores ignored ms → valuesAt signatureKey ms = [] →
    Signs (.object blank ms) Collection.unknownSignature
  | null {blank : Space} {ms : List (Member Written)} :
    Ignores ignored ms → valuesAt signatureKey ms = [.null] →
    Signs (.object blank ms) Collection.unknownSignature
  | given {blank : Space} {ms : List (Member Written)} {l : Literal} {s : Text} :
    Ignores ignored ms → valuesAt signatureKey ms = [.string l] →
    l.decode = some s → Signs (.object blank ms) s

/-- A member is the definition of a field with this key and signature. -/
def Defines (m : Member Written) (definition : Text × Text) : Prop :=
  m.key.decode = some definition.1 ∧ Signs ignored m.value definition.2

/-- A dictionary of definitions, which may be null. -/
inductive Defined : Written → Option (List (Text × Text)) → Prop
  | null : Defined .null none
  | object {blank : Space} {ms : List (Member Written)} {definitions : List (Text × Text)} :
    List.Forall₂ (Defines ignored) ms definitions →
    Defined (.object blank ms) (some definitions)

/-- A dictionary of definitions that need not be there. -/
inductive OptionalDefined : List Written → Option (List (Text × Text)) → Prop
  | absent : OptionalDefined [] none
  | present {w : Written} {definitions : Option (List (Text × Text))} :
    Defined ignored w definitions → OptionalDefined [w] definitions

/-- A collection written as an object, or as a list of its name, fields and computed fields. -/
inductive Describes : Written → Description → Prop
  | object {blank : Space} {ms : List (Member Written)} {l : Literal} {d : Description} :
    TextKeys ms → valuesAt CollectionParts.nameKey ms = [.string l] → l.decode = some d.name →
    OptionalDefined ignored (valuesAt CollectionParts.fieldsKey ms) d.fields →
    OptionalDefined ignored (valuesAt CollectionParts.computedFieldsKey ms) d.computedFields →
    Describes (.object blank ms) d
  | list {blank : Space} {es : List (Element Written)} {l : Literal}
    {fields computedFields : List Written} {d : Description} :
    es.map Element.value = .string l :: (fields ++ computedFields) →
    (fields = [] → computedFields = []) → l.decode = some d.name →
    OptionalDefined ignored fields d.fields →
    OptionalDefined ignored computedFields d.computedFields → Describes (.list blank es) d

end Relations

/-- The list of collections in a dump. -/
inductive CollectionArray : Written → List Written → Prop
  | list {blank : Space} {es : List (Element Written)} :
    CollectionArray (.list blank es) (es.map Element.value)
  | listing {blank inner : Space} {ms : List (Member Written)} {es : List (Element Written)} :
    TextKeys ms → valuesAt dataKey ms = [.list inner es] →
    CollectionArray (.object blank ms) (es.map Element.value)

/-! ### Every description can be written -/

def textElement (w : Written) : Element Written := ⟨.none, w, .none⟩

def textMember (key : Text) (w : Written) : Member Written :=
  ⟨.none, .ofText key, .none, textElement w⟩

def writtenDefinitions : Option (List (Text × Text)) → Written
  | none => .null
  | some definitions =>
    .object .none (definitions.map fun d => textMember d.1 (.string (.ofText d.2)))

namespace Description

/-- The description as an object without blanks. -/
def written (d : Description) : Written :=
  .object .none [textMember CollectionParts.nameKey (.string (.ofText d.name)),
    textMember CollectionParts.fieldsKey (writtenDefinitions d.fields),
    textMember CollectionParts.computedFieldsKey (writtenDefinitions d.computedFields)]

/-- The dump of these descriptions, as a list. -/
def writtenAll (ds : List Description) : Written :=
  .list .none (ds.map fun d => textElement d.written)

end Description

theorem defined_written (ignored : Written → Prop) (definitions : Option (List (Text × Text))) :
    Defined ignored (writtenDefinitions definitions) definitions := by
  cases definitions with
  | none => exact .null
  | some ds =>
    apply Defined.object
    rw [List.forall₂_map_left_iff, List.forall₂_same]
    intro d _
    exact ⟨Literal.decode_ofText d.1, .text (Literal.decode_ofText d.2)⟩

theorem valuesAt_textMember (key k : Text) (w : Written) (ms : List (Member Written)) :
    valuesAt key (textMember k w :: ms) =
      if k = key then w :: valuesAt key ms else valuesAt key ms := by
  have hk : (textMember k w).key.decode = some k := Literal.decode_ofText k
  split_ifs with h
  · exact valuesAt_cons_of_eq (by rw [hk, h]) ms
  · exact valuesAt_cons_of_ne (by simpa [hk] using h) ms

theorem Description.describes_written (ignored : Written → Prop) (d : Description) :
    Describes ignored d.written d := by
  have key (k : Text) (w : Written) : (textMember k w).key.decode = some k :=
    Literal.decode_ofText k
  refine .object ?_ ?_ (Literal.decode_ofText d.name) ?_ ?_
  · exact textKeys_cons (key _ _) (textKeys_cons (key _ _) (textKeys_cons (key _ _) textKeys_nil))
  · simp [valuesAt_textMember, nameKey_ne_fieldsKey.symm, nameKey_ne_computedFieldsKey.symm]
  · simp only [valuesAt_textMember, nameKey_ne_fieldsKey, fieldsKey_ne_computedFieldsKey.symm,
      if_true, if_false, valuesAt_nil]
    exact .present (defined_written ignored d.fields)
  · simp only [valuesAt_textMember, nameKey_ne_computedFieldsKey, fieldsKey_ne_computedFieldsKey,
      if_true, if_false, valuesAt_nil]
    exact .present (defined_written ignored d.computedFields)

theorem collectionArray_writtenAll (ds : List Description) :
    CollectionArray (Description.writtenAll ds) (ds.map Description.written) := by
  have values : (ds.map fun d => textElement d.written).map Element.value =
      ds.map Description.written := List.map_map
  rw [← values]
  exact .list

theorem forall₂_writtenAll (ignored : Written → Prop) (ds : List Description) :
    List.Forall₂ (Describes ignored) (ds.map Description.written) ds := by
  rw [List.forall₂_map_left_iff, List.forall₂_same]
  intro d _
  exact d.describes_written ignored

/-! ### Slots -/

/-- A slot that is filled at most once by the values under its key. -/
inductive Fills {α : Type} (read : Written → α → Prop) : Option α → List Written → Option α → Prop
  | keep (slot : Option α) : Fills read slot [] slot
  | fill {w : Written} {a : α} : read w a → Fills read none [w] (some a)

theorem fills_nil_iff {α : Type} {read : Written → α → Prop} {slot slot' : Option α} :
    Fills read slot [] slot' ↔ slot' = slot := by
  constructor
  · rintro ⟨⟩
    rfl
  · rintro rfl
    exact .keep slot'

theorem fills_cons_iff {α : Type} {read : Written → α → Prop} {slot slot' : Option α}
    {w : Written} {ws : List Written} :
    Fills read slot (w :: ws) slot' ↔ slot = none ∧ ws = [] ∧ ∃ a, read w a ∧ slot' = some a := by
  constructor
  · rintro ⟨⟩
    next a ha => exact ⟨rfl, rfl, a, ha, rfl⟩
  · rintro ⟨rfl, rfl, a, ha, rfl⟩
    exact .fill ha

end CollectionTypes.Json
