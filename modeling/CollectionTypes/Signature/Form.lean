import CollectionTypes.Signature.Basic
import CollectionTypes.Signature.Nesting

/-!
# The outermost form of a signature text

Reading a signature looks at one level at a time: `Form.ofText` says which construct a text is at
depth zero and cuts out the texts of its parts. Every text has a form, since one that fits no other
construct is a word. The parts are shorter than the text, so reading them in turn ends.
-/

namespace CollectionTypes

/-- The text without one trailing optional marker and the blanks around it, and whether there was
a marker. -/
def stripOptional (s : Text) : Text × Bool :=
  match Text.before? '?' (Text.trim s) with
  | some rest => (Text.trimEnd rest, true)
  | none => (Text.trim s, false)

theorem length_stripOptional_le (s : Text) : (stripOptional s).1.length ≤ s.length := by
  have ht := Text.length_trim_le s
  unfold stripOptional
  split
  next rest h =>
    have hr := Text.length_trimEnd_le rest
    rw [Text.before?_eq_some_iff] at h
    rw [h, List.length_append] at ht
    exact Nat.le_trans hr (by omega)
  next => exact ht

inductive Form where
  | union (alternatives : List Text)
  | object (properties : List (Property Text))
  | array (element : Text)
  | reference (target : Text)
  | word (text : Text)
deriving DecidableEq, Repr

namespace Form

/-- The inside of a text between a first `{` and a last `}`. -/
def body? (t : Text) : Option Text := (Text.after? ['{'] t).bind (Text.before? '}')

/-- A property is cut at its first colon. The name keeps its own optional marker. -/
def property (t : Text) : Property Text :=
  match Text.cutAt? ':' t with
  | some (name, value) => .typed (Text.trim name) value
  | none => .bare t

/-- The properties between top-level commas; blank ones do not count. -/
def properties (body : Text) : List (Property Text) :=
  ((Nesting.splitTopLevel ',' body).filter (· ≠ [])).map property

def ofText (s : Text) : Form :=
  let text := (stripOptional s).1
  if Nesting.hasTopLevel '|' text then .union (Nesting.splitTopLevel '|' text)
  else match body? text with
    | some body => .object (properties body)
    | none => match Nesting.unwrap? Signature.arrayOpening text with
      | some element => .array element
      | none => match Nesting.unwrap? Signature.referenceOpening text with
        | some target => .reference (Text.trim target)
        | none => .word text

theorem body?_eq_some_iff {t body : Text} : body? t = some body ↔ t = '{' :: body ++ ['}'] := by
  simp only [body?, Option.bind_eq_some_iff, Text.after?_eq_some_iff, Text.before?_eq_some_iff]
  constructor
  · rintro ⟨_, rfl, rfl⟩
    simp
  · rintro rfl
    exact ⟨body ++ ['}'], by simp⟩

theorem length_of_typed_mem {body name value : Text}
    (h : .typed name value ∈ properties body) : value.length ≤ body.length := by
  simp only [properties, List.mem_map, List.mem_filter] at h
  obtain ⟨p, ⟨hp, _⟩, hv⟩ := h
  simp only [Nesting.splitTopLevel, List.mem_map] at hp
  obtain ⟨q, hq, rfl⟩ := hp
  have h₁ := Nesting.length_le_of_mem_pieces hq
  have h₂ := Text.length_trim_le q
  unfold property at hv
  split at hv
  next n v hc =>
    obtain ⟨ht, _⟩ := Text.eq_append_of_cutAt? hc
    have h₃ := congrArg List.length ht
    simp only [Property.typed.injEq] at hv
    obtain ⟨_, rfl⟩ := hv
    simp only [List.length_append, List.length_cons] at h₃
    omega
  next => simp at hv

theorem length_lt_of_union {s a : Text} {alternatives : List Text}
    (h : ofText s = .union alternatives) (ha : a ∈ alternatives) : a.length < s.length := by
  have hs := length_stripOptional_le s
  unfold ofText at h
  simp only at h
  split at h
  next htop =>
    simp only [Form.union.injEq] at h
    subst h
    simp only [Nesting.splitTopLevel, List.mem_map] at ha
    obtain ⟨p, hp, rfl⟩ := ha
    have h₁ := Nesting.length_lt_of_mem_pieces hp (by simpa [Nesting.hasTopLevel] using htop)
    have h₂ := Text.length_trim_le p
    omega
  next => (repeat' split at h) <;> simp at h

theorem length_lt_of_object {s name value : Text} {ps : List (Property Text)}
    (h : ofText s = .object ps) (hp : .typed name value ∈ ps) : value.length < s.length := by
  have hs := length_stripOptional_le s
  unfold ofText at h
  simp only at h
  split at h
  next => simp at h
  next =>
    split at h
    next body hb =>
      simp only [Form.object.injEq] at h
      subst h
      have h₁ := length_of_typed_mem hp
      rw [body?_eq_some_iff] at hb
      have h₂ := congrArg List.length hb
      simp only [List.length_append, List.length_cons, List.length_nil] at h₂
      omega
    next => (repeat' split at h) <;> simp at h

theorem length_lt_of_array {s element : Text} (h : ofText s = .array element) :
    element.length < s.length := by
  have hs := length_stripOptional_le s
  unfold ofText at h
  simp only at h
  split at h
  next => simp at h
  next =>
    split at h
    next => simp at h
    next =>
      split at h
      next e he =>
        simp only [Form.array.injEq] at h
        subst h
        have h₁ := congrArg List.length (Nesting.eq_append_of_unwrap? he).1
        simp only [List.length_append, List.length_cons, List.length_nil] at h₁
        omega
      next => split at h <;> simp at h

end Form
end CollectionTypes
