import CollectionTypes.Proofs.FieldTypes
import Mathlib.Algebra.Order.BigOperators.Group.List
import Mathlib.Algebra.Order.Ring.Nat

/-!
# Optional properties of object literals

A field of a collection is optional if its signature is marked. A property of an object literal has
a signature, too, but reading it drops the marker there: in the type a property is optional if its
name is written with a marker. So an object type has the optional properties that the rule for
fields would give it exactly if every property with a marked value has a marked name, at whatever
depth the literal stands in a signature.
-/

namespace CollectionTypes.Signature

/-! ### Parts of a signature -/

/-- The texts that are read on the way through a signature: the signature, its alternatives,
elements and values of properties, and the parts of these. -/
inductive Part : Text → Text → Prop
  | whole (s : Text) : Part s s
  | alternative {s a t : Text} {as : List Text} (form : Form.ofText s = .union as) (mem : a ∈ as)
      (part : Part a t) : Part s t
  | element {s e t : Text} (form : Form.ofText s = .array e) (part : Part e t) : Part s t
  | value {s name v t : Text} {ps : List (Property Text)} (form : Form.ofText s = .object ps)
      (mem : .typed name v ∈ ps) (part : Part v t) : Part s t

theorem isInfix_renderObject {t : Text} {ts : List Text} (h : t ∈ ts) : t <:+: renderObject ts := by
  obtain ⟨u, us, rfl⟩ := List.exists_cons_of_ne_nil (List.ne_nil_of_mem h)
  have inside := infix_intercalate_of_mem h "; ".toList
  rw [← Text.joined_eq_intercalate] at inside
  exact inside.trans ⟨"\x7b ".toList, " \x7d".toList, rfl⟩

/-- The type of a part stands in the type of the signature. -/
theorem Part.typeText_isInfix {s t : Text} (h : Part s t) (mode : Mode) :
    typeText mode t <:+: typeText mode s := by
  induction h with
  | whole s => exact List.infix_rfl
  | alternative form mem _ ih =>
    rw [typeText_of_union mode form, Text.joined_eq_intercalate]
    exact ih.trans (infix_intercalate_of_mem (List.mem_map_of_mem mem) _)
  | element form _ ih =>
    rw [typeText_of_array mode form]
    exact ih.trans (List.infix_append _ _ _)
  | @value s name v t ps form mem _ ih =>
    have member : propertyText mode (.typed name v) ∈ ps.map (propertyText mode) :=
      List.mem_map_of_mem mem
    rw [typeText_of_object mode form]
    exact (ih.trans (List.suffix_append _ _).isInfix).trans (isInfix_renderObject member)

/-! ### Members of an object type -/

/-- The name of a property without its marker. -/
def unmarkedName (name : Text) : Text := (Text.before? '?' name).getD name

/-- A member of an object type, with a marker after its name if `optional` says so. -/
def memberText (mode : Mode) (optional : Text → Text → Bool) : Property Text → Text
  | .typed name value =>
    unmarkedName name ++ (if optional name value then ['?'] else []) ++ nameSeparator ++
      typeText mode value
  | .bare text => text

/-- A property is optional if its name is marked. -/
def optionalByName (name _value : Text) : Bool := name.getLast? = some '?'

/-- A property is optional if its name is marked, or if a field with its signature is optional. -/
def optionalAsField (mode : Mode) (name value : Text) : Bool :=
  optionalByName name value || (renderField mode name value).optional

theorem optionalAsField_eq (mode : Mode) (name value : Text) :
    optionalAsField mode name value = (optionalByName name value || decide (Marked value)) := by
  rw [optionalAsField, renderField, stripOptional_snd]

theorem unmarkedName_append (name value : Text) :
    unmarkedName name ++ (if optionalByName name value then ['?'] else []) = name := by
  unfold unmarkedName optionalByName Text.before?
  by_cases h : name.getLast? = some '?'
  · obtain ⟨front, rfl⟩ := List.getLast?_eq_some_iff.1 h
    simp
  · simp [h]

theorem memberText_optionalByName (mode : Mode) :
    memberText mode optionalByName = propertyText mode := by
  funext p
  cases p with
  | typed name value => rw [memberText, unmarkedName_append, propertyText]
  | bare text => rfl

theorem length_renderObject (ts : List Text) :
    (renderObject ts).length = (ts.map fun t => t.length + 2).sum + 2 := by
  cases ts with
  | nil => rfl
  | cons t ts =>
    have opening : "\x7b ".toList.length = 2 := rfl
    have closing : " \x7d".toList.length = 2 := rfl
    have others : (ts.flatMap ("; ".toList ++ ·)).length = (ts.map fun u => u.length + 2).sum := by
      rw [List.length_flatMap]
      refine congrArg List.sum (List.map_congr_left fun u _ => ?_)
      rw [List.length_append, Nat.add_comm]
      rfl
    rw [renderObject, Text.joined_eq_intercalate, intercalate_cons_eq, List.map_cons, List.sum_cons]
    simp only [List.length_append, others, opening, closing]
    omega

/-- Members that are no shorter make a longer object type unless all have the same length. -/
theorem length_eq_of_renderObject_eq {α : Type} {f g : α → Text} {xs : List α}
    (h : ∀ x ∈ xs, (f x).length ≤ (g x).length)
    (same : renderObject (xs.map f) = renderObject (xs.map g)) :
    ∀ x ∈ xs, (f x).length = (g x).length := by
  intro x hx
  by_contra hne
  have total := congrArg List.length same
  rw [length_renderObject, length_renderObject, List.map_map, List.map_map] at total
  have longer :
      (xs.map fun x => (f x).length + 2).sum < (xs.map fun x => (g x).length + 2).sum := by
    apply List.sum_lt_sum
    · intro y hy
      exact Nat.add_le_add_right (h y hy) 2
    · exact ⟨x, hx, by have := h x hx; omega⟩
  exact absurd (Nat.add_right_cancel total) (Nat.ne_of_lt longer)

theorem length_memberText_optionalAsField (mode : Mode) (name value : Text) :
    (memberText mode (optionalAsField mode) (.typed name value)).length =
      (memberText mode optionalByName (.typed name value)).length +
        if Marked value ∧ optionalByName name value = false then 1 else 0 := by
  simp only [memberText, optionalAsField_eq, List.length_append]
  cases optionalByName name value <;> by_cases h : Marked value <;> simp [h]
  omega

/-! ### The two rules -/

/-- The rule for fields and the names alone give the same object type only if no marked value stands
behind a name without a marker. -/
theorem renderObject_optionalByName_eq_iff (mode : Mode) (ps : List (Property Text)) :
    renderObject (ps.map (memberText mode optionalByName)) =
        renderObject (ps.map (memberText mode (optionalAsField mode))) ↔
      ∀ name value, .typed name value ∈ ps → Marked value → name.getLast? = some '?' := by
  constructor
  · intro same name value mem marked
    have shorter : ∀ p ∈ ps, (memberText mode optionalByName p).length ≤
        (memberText mode (optionalAsField mode) p).length := by
      intro p _
      cases p with
      | typed n v =>
        rw [length_memberText_optionalAsField]
        exact Nat.le_add_right _ _
      | bare text => exact Nat.le_refl _
    have lengths := length_eq_of_renderObject_eq shorter same _ mem
    rw [length_memberText_optionalAsField, Nat.left_eq_add] at lengths
    by_contra unmarked
    have name_only : optionalByName name value = false := by simpa [optionalByName] using unmarked
    rw [if_pos ⟨marked, name_only⟩] at lengths
    exact absurd lengths (by decide)
  · intro h
    congr 1
    apply List.map_congr_left
    intro p mem
    cases p with
    | bare text => rfl
    | typed name value =>
      have rule : optionalAsField mode name value = optionalByName name value := by
        rw [optionalAsField_eq]
        by_cases marked : Marked value
        · simp [optionalByName, h name value mem marked]
        · simp [marked]
      rw [memberText, memberText, rule]

/-- What becomes of an object literal at any depth of a signature: a property is optional in its
type if its name is marked. That is what the rule for fields says exactly if every property with a
marked value has a marked name. -/
theorem members_of_part (mode : Mode) {s t : Text} {ps : List (Property Text)} (part : Part s t)
    (object : Form.ofText t = .object ps) :
    typeText mode t <:+: typeText mode s ∧
      typeText mode t = renderObject (ps.map (memberText mode optionalByName)) ∧
      (typeText mode t = renderObject (ps.map (memberText mode (optionalAsField mode))) ↔
        ∀ name value, .typed name value ∈ ps → Marked value → name.getLast? = some '?') := by
  have members : typeText mode t = renderObject (ps.map (memberText mode optionalByName)) := by
    rw [typeText_of_object mode object, memberText_optionalByName]
  refine ⟨part.typeText_isInfix mode, members, ?_⟩
  rw [members]
  exact renderObject_optionalByName_eq_iff mode ps

/-- The literal in an array in a property: the second of its properties loses its marker. -/
theorem members_of_part_nested :
    let signature : Text := "\x7b stops?: Array<\x7b at?: Time?, by: Ref<User>? \x7d> \x7d"
    let literal : Text := "\x7b at?: Time?, by: Ref<User>? \x7d"
    let properties : List (Property Text) := [.typed "at?" " Time?", .typed "by" " Ref<User>?"]
    Part signature literal ∧ Form.ofText literal = .object properties ∧
      (typeText .main literal <:+: typeText .main signature ∧
        typeText .main literal =
          renderObject (properties.map (memberText .main optionalByName)) ∧
        (typeText .main literal =
            renderObject (properties.map (memberText .main (optionalAsField .main))) ↔
          ∀ name value, .typed name value ∈ properties → Marked value →
            name.getLast? = some '?')) ∧
      typeText .main literal = "\x7b at?: TimeStub; by: User \x7d".toList := by
  intro signature literal properties
  have outer : Form.ofText signature =
      .object [.typed "stops?" (" Array<".toList ++ literal ++ ['>'])] := by decide
  have inner : Form.ofText (" Array<".toList ++ literal ++ ['>']) = .array literal := by decide
  have object : Form.ofText literal = .object properties := by decide
  have part : Part signature literal :=
    .value outer (List.mem_singleton_self _) (.element inner (.whole literal))
  exact ⟨part, object, members_of_part .main part object, by decide +kernel⟩

/-- An optional property becomes a required one, where a field with its signature is optional. -/
theorem exists_required_property :
    let signature : Text := "\x7b zip: Int? \x7d"
    let properties : List (Property Text) := [.typed "zip" " Int?"]
    Form.ofText signature = .object properties ∧
      typeText .main signature = "\x7b zip: number \x7d".toList ∧
      (renderField .main "zip" " Int?").line = "zip?: number;".toList ∧
      typeText .main signature ≠
        renderObject (properties.map (memberText .main (optionalAsField .main))) := by
  intro signature properties
  refine ⟨?form, ?type, ?field, ?other⟩
  case form => decide
  case type => decide +kernel
  case field => decide +kernel
  case other => decide +kernel

end CollectionTypes.Signature
