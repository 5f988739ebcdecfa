import CollectionTypes.Proofs.Joining
import CollectionTypes.Proofs.TypeExpressions

/-!
# Signatures as type expressions

The type of a signature in a mode is the text of a type expression, which follows the tree of the
signature: every part of the text groups as the part of the signature that it comes from. A
reference adds an alternative of its own to the type that it stands in.
-/

namespace CollectionTypes.Language

open TypeScript TypeExpression

def PropertyName.memberName (p : PropertyName) : MemberName := ⟨p.name.val, p.optional⟩

/-- The type of a reference: its target, a reference to a document, or either of them. -/
def referenceReading (target : Text) : Mode → TypeExpression
  | .main => plain (.named target)
  | .create => .union (.named target) [.named "DocumentReference"]
  | .faunaCreate => plain (.named "DocumentReference")

section Readings

variable (mode : Mode)

mutual

def Construct.reading : Construct → TypeExpression
  | .scalar s => plain (.named (scalarType s))
  | .named name => plain (.named name.val)
  | .array element => plain (.generic "Array" element.reading)
  | .reference _ target _ => referenceReading target.val mode
  | .object properties _ => plain (.object (propertyReadings properties))

def Expression.reading : Expression → TypeExpression
  | .single _ construct => construct.reading
  | .union _ first middle _ last _ =>
    first.reading.withOthers (partReadings middle ++ last.reading.alternatives)

def partReadings : List (Layout × Construct) → List PlainType
  | [] => []
  | (_, construct) :: parts => construct.reading.alternatives ++ partReadings parts

def propertyReadings : List (PropertyName × Expression) → List (MemberName × TypeExpression)
  | [] => []
  | (name, value) :: properties => (name.memberName, value.reading) :: propertyReadings properties

end

end Readings

/-! ### Tokens of the types -/

variable (mode : Mode)

theorem isIdentifier_scalarType (s : Scalar) : Text.isIdentifier (scalarType s) = true := by
  cases s <;> decide

theorem tokens_bar (t : Text) : tokens (" | ".toList ++ t) = .mark '|' :: tokens t := by
  change tokens (' ' :: '|' :: ' ' :: t) = _
  rw [tokens_blank (by decide), tokens_mark (by decide) (by decide), tokens_blank (by decide)]

theorem tokens_semicolon (t : Text) : tokens (';' :: ' ' :: t) = .mark ';' :: tokens t := by
  rw [tokens_mark (by decide) (by decide), tokens_blank (by decide)]

theorem tokens_colon (t : Text) : tokens (": ".toList ++ t) = .mark ':' :: tokens t := by
  change tokens (':' :: ' ' :: t) = _
  rw [tokens_mark (by decide) (by decide), tokens_blank (by decide)]

theorem tokens_referenceType {target : Text} (h : Text.isIdentifier target = true) {t : Text}
    (ht : EndsWord t) :
    tokens (referenceType mode target ++ t) =
      (referenceReading target mode).tokens ++ tokens t := by
  have reference : tokens ("DocumentReference".toList ++ t) =
      .word "DocumentReference".toList :: tokens t := tokens_word (by decide) ht
  cases mode with
  | main => exact tokens_word h ht
  | create =>
    have bar : EndsWord (" | ".toList ++ ("DocumentReference".toList ++ t)) :=
      endsWord_cons (by decide) _
    calc tokens (target ++ " | DocumentReference".toList ++ t)
      _ = tokens (target ++ (" | ".toList ++ ("DocumentReference".toList ++ t))) := by
        rw [List.append_assoc]
        rfl
      _ = .word target :: .mark '|' :: .word "DocumentReference".toList :: tokens t := by
        rw [tokens_word h bar, tokens_bar, reference]
  | faunaCreate => exact reference

theorem endsWord_partTypes (parts : List (Layout × Construct)) {t : Text} (ht : EndsWord t) :
    EndsWord ((partTypes mode parts).flatMap (" | ".toList ++ ·) ++ t) := by
  cases parts with
  | nil => exact ht
  | cons part parts => exact endsWord_cons (by decide) _

/-- Members with a semicolon and a blank in front of each, or of each but the first. -/
def memberTexts (first : Bool) : List Text → Text
  | [] => []
  | p :: ps => (if first then [] else [';', ' ']) ++ (p ++ memberTexts false ps)

theorem flatMap_eq_memberTexts (ps : List Text) :
    ps.flatMap ("; ".toList ++ ·) = memberTexts false ps := by
  induction ps with
  | nil => rfl
  | cons p ps ih =>
    rw [List.flatMap_cons, ih, List.append_assoc]
    rfl

theorem intercalate_eq_memberTexts (ps : List Text) :
    ("; " : Text).intercalate ps = memberTexts true ps := by
  cases ps with
  | nil => rfl
  | cons p ps =>
    rw [intercalate_cons_eq, flatMap_eq_memberTexts]
    rfl

theorem endsWord_memberTexts (ps : List Text) {t : Text} (ht : EndsWord t) :
    EndsWord (memberTexts false ps ++ t) := by
  cases ps with
  | nil => exact ht
  | cons p ps => exact endsWord_cons (by decide) _

theorem tokens_objectType (ps : List Text) (t : Text) :
    tokens (objectType ps ++ t) =
      .mark '\x7b' :: tokens (memberTexts true ps ++ (' ' :: '\x7d' :: t)) := by
  cases ps with
  | nil =>
    change tokens ('\x7b' :: '\x7d' :: t) = .mark '\x7b' :: tokens (' ' :: '\x7d' :: t)
    rw [tokens_mark (by decide) (by decide), tokens_blank (by decide) ('\x7d' :: t)]
  | cons p ps =>
    rw [objectType, intercalate_eq_memberTexts, List.append_assoc, List.append_assoc]
    change tokens ('\x7b' :: ' ' :: (memberTexts true (p :: ps) ++ _)) = _
    rw [tokens_mark (by decide) (by decide), tokens_blank (by decide)]
    rfl

theorem tokens_property (p : PropertyName) (t : Text) :
    TypeScript.tokens (p.text ++ (": ".toList ++ t)) =
      p.memberName.tokens ++ TypeScript.tokens t := by
  obtain ⟨before, ⟨name, hn⟩, optional, after⟩ := p
  have colon : EndsWord (": ".toList ++ t) := endsWord_cons (by decide) _
  cases optional with
  | false =>
    change TypeScript.tokens (name ++ [] ++ (": ".toList ++ t)) = _
    rw [List.append_nil, tokens_word hn colon, tokens_colon]
    rfl
  | true =>
    change TypeScript.tokens (name ++ ['?'] ++ (": ".toList ++ t)) = _
    rw [List.append_assoc, List.singleton_append, tokens_word hn (endsWord_cons (by decide) _),
      tokens_mark (by decide) (by decide), tokens_colon]
    rfl

mutual

theorem Construct.tokens_type :
    ∀ (c : Construct) {t : Text}, EndsWord t →
      tokens (c.type mode ++ t) = (c.reading mode).tokens ++ tokens t
  | .scalar s, t, ht => tokens_word (isIdentifier_scalarType s) ht
  | .named name, t, ht => tokens_word name.property.1 ht
  | .array element, t, ht => by
    have opened : EndsWord ('<' :: (element.type mode ++ '>' :: t)) := endsWord_cons (by decide) _
    have inside := element.tokens_type (t := '>' :: t) (endsWord_cons (by decide) t)
    rw [tokens_mark (by decide) (by decide)] at inside
    calc tokens ("Array<".toList ++ element.type mode ++ ['>'] ++ t)
      _ = tokens ("Array".toList ++ '<' :: (element.type mode ++ '>' :: t)) := by
        simp only [List.append_assoc]
        rfl
      _ = .word "Array".toList :: .mark '<' ::
            ((element.reading mode).tokens ++ .mark '>' :: tokens t) := by
        rw [tokens_word (by decide) opened, tokens_mark (by decide) (by decide), inside]
      _ = _ := by
        rw [Construct.reading, tokens_plain, PlainType.tokens_generic, List.cons_append,
          List.cons_append, List.append_assoc, List.singleton_append]
  | .reference _ target _, t, ht => tokens_referenceType mode target.property ht
  | .object properties _, t, ht => by
    rw [Construct.type_object, tokens_objectType,
      tokens_propertyTypes properties true (endsWord_cons (by decide) _), tokens_blank (by decide),
      tokens_mark (by decide) (by decide), Construct.reading, tokens_plain,
      PlainType.tokens_object, List.cons_append, List.append_assoc, List.singleton_append]

theorem Expression.tokens_type :
    ∀ (e : Expression) {t : Text}, EndsWord t →
      tokens (e.type mode ++ t) = (e.reading mode).tokens ++ tokens t
  | .single _ construct, t, ht => construct.tokens_type ht
  | .union _ first middle _ last _, t, ht => by
    have bar : EndsWord (" | ".toList ++ (last.type mode ++ t)) := endsWord_cons (by decide) _
    have lastTokens : tokens (" | ".toList ++ (last.type mode ++ t)) =
        otherTokens (last.reading mode).alternatives ++ tokens t := by
      rw [tokens_bar, last.tokens_type ht, otherTokens_alternatives, List.cons_append]
    rw [Expression.type_union, intercalate_cons_eq, List.flatMap_append, List.append_assoc,
      List.append_assoc, List.flatMap_singleton, List.append_assoc,
      first.tokens_type (endsWord_partTypes mode middle bar), tokens_partTypes middle bar,
      lastTokens, Expression.reading, tokens_withOthers, otherTokens_append, List.append_assoc,
      List.append_assoc]

theorem tokens_partTypes :
    ∀ (parts : List (Layout × Construct)) {t : Text}, EndsWord t →
      tokens ((partTypes mode parts).flatMap (" | ".toList ++ ·) ++ t) =
        otherTokens (partReadings mode parts) ++ tokens t
  | [], t, ht => rfl
  | (_, construct) :: parts, t, ht => by
    have more := endsWord_partTypes mode parts ht
    rw [partTypes_cons, List.flatMap_cons, List.append_assoc, List.append_assoc, tokens_bar,
      construct.tokens_type more, tokens_partTypes parts ht, partReadings, otherTokens_append,
      otherTokens_alternatives, List.append_assoc, List.cons_append]

theorem tokens_propertyTypes :
    ∀ (properties : List (PropertyName × Expression)) (first : Bool) {t : Text}, EndsWord t →
      tokens (memberTexts first (propertyTypes mode properties) ++ t) =
        memberTokens first (propertyReadings mode properties) ++ tokens t
  | [], first, t, ht => rfl
  | (name, value) :: properties, first, t, ht => by
    have more := endsWord_memberTexts (propertyTypes mode properties) ht
    have inside : tokens ((name.text ++ ": ".toList ++ value.type mode) ++
        (memberTexts false (propertyTypes mode properties) ++ t)) =
          name.memberName.tokens ++ ((value.reading mode).tokens ++
            (memberTokens false (propertyReadings mode properties) ++ tokens t)) := by
      rw [List.append_assoc, List.append_assoc, tokens_property, value.tokens_type more,
        tokens_propertyTypes properties false ht]
    rw [propertyTypes_cons, memberTexts, propertyReadings, memberTokens_cons]
    simp only [List.append_assoc] at inside ⊢
    cases first with
    | true => exact inside
    | false =>
      have separator := tokens_semicolon (name.text ++ (": ".toList ++ (value.type mode ++
        (memberTexts false (propertyTypes mode properties) ++ t))))
      rw [inside] at separator
      exact separator

end

/-- The rendered text of a signature says exactly one type expression. -/
theorem Expression.reads_iff (e : Expression) {type : TypeExpression} :
    Reads (Signature.typeText mode e.text) type ↔ type = e.reading mode := by
  have reading : Reads (Signature.typeText mode e.text) (e.reading mode) := by
    have h := e.tokens_type mode endsWord_nil
    rw [List.append_nil, tokens_nil, List.append_nil] at h
    rw [e.typeText_text mode]
    exact h
  constructor
  · intro h
    exact h.unique reading
  · rintro rfl
    exact reading

end CollectionTypes.Language
