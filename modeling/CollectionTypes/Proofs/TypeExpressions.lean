import CollectionTypes.Proofs.LanguageReading

/-!
# Type expressions

A type expression is a union of one or more types that are no unions themselves: names, generic
types with an argument, and object types. Its tokens are words and marks, and blanks between them
have no meaning. A text reads as the type expression whose tokens are its own. There is at most one
such expression, so a text that has a reading groups in one way only.
-/

namespace CollectionTypes.TypeScript

/-! ### Tokens -/

inductive Token where
  | word (text : Text)
  | mark (char : Char)
deriving DecidableEq

/-- The longest words of a text and the characters between them that are not blank. -/
def tokens (t : Text) : List Token :=
  match t with
  | [] => []
  | c :: cs =>
    if Text.isNamePart c then
      .word (c :: cs.takeWhile Text.isNamePart) :: tokens (cs.dropWhile Text.isNamePart)
    else if Text.isBlank c then tokens cs
    else .mark c :: tokens cs
termination_by t.length
decreasing_by
  · have := Text.length_dropWhile_le Text.isNamePart cs
    simp only [List.length_cons]
    omega
  · simp
  · simp

/-- A text that does not continue a word in front of it. -/
def EndsWord (t : Text) : Prop := ∀ c ∈ t.head?, Text.isNamePart c = false

theorem endsWord_nil : EndsWord [] := by simp [EndsWord]

theorem endsWord_cons {c : Char} (h : Text.isNamePart c = false) (t : Text) :
    EndsWord (c :: t) := by
  simpa [EndsWord] using h

@[simp] theorem tokens_nil : tokens [] = [] := by rw [tokens]

theorem tokens_mark {c : Char} (hn : Text.isNamePart c = false) (hb : Text.isBlank c = false)
    (t : Text) : tokens (c :: t) = .mark c :: tokens t := by
  rw [tokens]
  simp [hn, hb]

theorem tokens_blank {c : Char} (hb : Text.isBlank c = true) (t : Text) :
    tokens (c :: t) = tokens t := by
  have hn : Text.isNamePart c = false := by
    rw [Bool.eq_false_iff]
    intro hn
    rw [Language.isBlank_of_isNamePart hn] at hb
    exact absurd hb (by decide)
  rw [tokens]
  simp [hn, hb]

theorem tokens_word {w : Text} (hw : Text.isIdentifier w = true) {t : Text} (ht : EndsWord t) :
    tokens (w ++ t) = .word w :: tokens t := by
  have parts := Language.isNamePart_of_isIdentifier hw
  cases w with
  | nil => simp [Text.isIdentifier] at hw
  | cons c cs =>
    have rest : ∀ d ∈ cs, Text.isNamePart d = true := fun d hd => parts d (by simp [hd])
    have stops : t.takeWhile Text.isNamePart = [] ∧ t.dropWhile Text.isNamePart = t := by
      cases t with
      | nil => exact ⟨rfl, rfl⟩
      | cons d ds =>
        have hd : Text.isNamePart d = false := ht d (by simp)
        simp [hd]
    rw [List.cons_append, tokens, if_pos (parts c (by simp)), List.takeWhile_append_of_pos rest,
      List.dropWhile_append_of_pos rest, stops.1, stops.2, List.append_nil]

/-! ### Expressions -/

/-- The name of a member, which may be optional. -/
structure MemberName where
  name : Text
  optional : Bool
deriving DecidableEq

mutual

/-- A type that is no union. -/
inductive PlainType where
  | named (name : Text)
  | generic (head : Text) (argument : TypeExpression)
  | object (members : List (MemberName × TypeExpression))

inductive TypeExpression where
  | union (first : PlainType) (others : List PlainType)

end

def MemberName.tokens (m : MemberName) : List Token :=
  .word m.name :: if m.optional then [.mark '?', .mark ':'] else [.mark ':']

mutual

def PlainType.tokens : PlainType → List Token
  | .named name => [.word name]
  | .generic head argument => .word head :: .mark '<' :: (argument.tokens ++ [.mark '>'])
  | .object members => .mark '\x7b' :: (memberTokens true members ++ [.mark '\x7d'])

def TypeExpression.tokens : TypeExpression → List Token
  | .union first others => first.tokens ++ otherTokens others

/-- The alternatives of a union after the first. -/
def otherTokens : List PlainType → List Token
  | [] => []
  | p :: ps => .mark '|' :: (p.tokens ++ otherTokens ps)

/-- The members of an object type, the first of which has no semicolon before it. -/
def memberTokens (first : Bool) : List (MemberName × TypeExpression) → List Token
  | [] => []
  | (name, type) :: ms =>
    (if first then [] else [.mark ';']) ++ (name.tokens ++ (type.tokens ++ memberTokens false ms))

end

section Tokens

variable (name head : Text) (argument : TypeExpression)
  (members : List (MemberName × TypeExpression)) (p : PlainType) (ps : List PlainType)

@[simp] theorem PlainType.tokens_named : (named name).tokens = [.word name] := rfl

@[simp] theorem PlainType.tokens_generic :
    (generic head argument).tokens = .word head :: .mark '<' :: (argument.tokens ++ [.mark '>']) :=
  rfl

@[simp] theorem PlainType.tokens_object :
    (object members).tokens = .mark '\x7b' :: (memberTokens true members ++ [.mark '\x7d']) := rfl

@[simp] theorem TypeExpression.tokens_union :
    (union p ps).tokens = p.tokens ++ otherTokens ps := rfl

@[simp] theorem otherTokens_nil : otherTokens [] = [] := rfl

@[simp] theorem otherTokens_cons :
    otherTokens (p :: ps) = .mark '|' :: (p.tokens ++ otherTokens ps) := rfl

theorem memberTokens_cons (first : Bool) (m : MemberName) :
    memberTokens first ((m, argument) :: members) =
      (if first then [] else [.mark ';']) ++
        (m.tokens ++ (argument.tokens ++ memberTokens false members)) := rfl

end Tokens

/-! ### Unions -/

namespace TypeExpression

def plain (p : PlainType) : TypeExpression := union p []

/-- The alternatives of a union; a type that is no union is the only one. -/
def alternatives : TypeExpression → List PlainType
  | union first others => first :: others

/-- The union with more alternatives. -/
def withOthers : TypeExpression → List PlainType → TypeExpression
  | union first others, ps => union first (others ++ ps)

@[simp] theorem tokens_plain (p : PlainType) : (plain p).tokens = p.tokens := by
  rw [plain, tokens_union, otherTokens_nil, List.append_nil]

theorem otherTokens_append (ps qs : List PlainType) :
    otherTokens (ps ++ qs) = otherTokens ps ++ otherTokens qs := by
  induction ps with
  | nil => rfl
  | cons p ps ih =>
    rw [List.cons_append, otherTokens_cons, ih, otherTokens_cons, List.cons_append,
      List.append_assoc]

theorem otherTokens_alternatives (e : TypeExpression) :
    otherTokens e.alternatives = .mark '|' :: e.tokens := by
  cases e with
  | union first others => rfl

theorem tokens_withOthers (e : TypeExpression) (ps : List PlainType) :
    (e.withOthers ps).tokens = e.tokens ++ otherTokens ps := by
  cases e with
  | union first others =>
    rw [withOthers, tokens_union, otherTokens_append, tokens_union, List.append_assoc]

end TypeExpression

/-- The type expression that a text says. -/
def Reads (t : Text) (e : TypeExpression) : Prop := tokens t = e.tokens

/-! ### A text has one reading -/

/-- Tokens that do not continue a name in front of them. -/
def EndsPlain (ts : List Token) : Prop := ts.head? ≠ some (.mark '<')

/-- Tokens that do not continue a type expression in front of them. -/
structure EndsType (ts : List Token) : Prop where
  plain : EndsPlain ts
  union : ts.head? ≠ some (.mark '|')

theorem endsType_nil : EndsType [] := ⟨by simp [EndsPlain], by simp⟩

theorem endsType_mark {c : Char} (hp : c ≠ '<') (hu : c ≠ '|') (ts : List Token) :
    EndsType (.mark c :: ts) := ⟨by simpa [EndsPlain] using hp, by simpa using hu⟩

theorem EndsType.otherTokens_append {ts : List Token} (h : EndsType ts) (ps : List PlainType) :
    EndsPlain (otherTokens ps ++ ts) := by
  cases ps with
  | nil => exact h.plain
  | cons p ps => simp [EndsPlain]

theorem endsType_memberTokens (ms : List (MemberName × TypeExpression)) (ts : List Token) :
    EndsType (memberTokens false ms ++ .mark '\x7d' :: ts) := by
  cases ms with
  | nil => exact endsType_mark (by decide) (by decide) ts
  | cons m ms => exact endsType_mark (by decide) (by decide) _

theorem MemberName.eq_of_tokens_append {m m' : MemberName} {ts ts' : List Token}
    (h : m.tokens ++ ts = m'.tokens ++ ts') : m = m' ∧ ts = ts' := by
  obtain ⟨name, optional⟩ := m
  obtain ⟨name', optional'⟩ := m'
  cases optional <;> cases optional' <;> simp_all [MemberName.tokens]

/-- Members begin with a name, or a semicolon if they are not the first. -/
theorem memberTokens_append_ne (first : Bool) (m : MemberName × TypeExpression)
    (ms : List (MemberName × TypeExpression)) (ts ts' : List Token) :
    memberTokens first (m :: ms) ++ ts ≠ .mark '\x7d' :: ts' := by
  obtain ⟨name, type⟩ := m
  cases first <;> simp [memberTokens_cons, MemberName.tokens]

mutual

theorem PlainType.eq_of_tokens_append : ∀ (p : PlainType) {p' : PlainType} {ts ts' : List Token},
    EndsPlain ts → EndsPlain ts' → p.tokens ++ ts = p'.tokens ++ ts' → p = p' ∧ ts = ts'
  | .named name, p', ts, ts', ht, _, h => by
    cases p' with
    | named name' => simpa using h
    | generic head' argument' =>
      rw [PlainType.tokens_named, PlainType.tokens_generic, List.singleton_append,
        List.cons_append] at h
      exact absurd (by rw [List.tail_eq_of_cons_eq h]; rfl) ht
    | object members' => simp at h
  | .generic head argument, p', ts, ts', _, ht', h => by
    cases p' with
    | named name' =>
      rw [PlainType.tokens_named, PlainType.tokens_generic, List.singleton_append,
        List.cons_append] at h
      exact absurd (by rw [← List.tail_eq_of_cons_eq h]; rfl) ht'
    | generic head' argument' =>
      simp only [PlainType.tokens_generic, List.cons_append, List.append_assoc, List.nil_append,
        List.cons.injEq, Token.word.injEq, true_and] at h
      obtain ⟨rfl, h⟩ := h
      obtain ⟨rfl, hr⟩ := argument.eq_of_tokens_append (endsType_mark (by decide) (by decide) ts)
        (endsType_mark (by decide) (by decide) ts') h
      exact ⟨rfl, List.tail_eq_of_cons_eq hr⟩
    | object members' => simp at h
  | .object members, p', ts, ts', _, _, h => by
    cases p' with
    | named name' => simp at h
    | generic head' argument' => simp at h
    | object members' =>
      simp only [PlainType.tokens_object, List.cons_append, List.append_assoc, List.nil_append,
        List.cons.injEq, true_and] at h
      obtain ⟨rfl, hr⟩ := eq_of_memberTokens_append members h
      exact ⟨rfl, hr⟩

theorem TypeExpression.eq_of_tokens_append :
    ∀ (e : TypeExpression) {e' : TypeExpression} {ts ts' : List Token},
      EndsType ts → EndsType ts' → e.tokens ++ ts = e'.tokens ++ ts' → e = e' ∧ ts = ts'
  | .union first others, .union first' others', ts, ts', ht, ht', h => by
    simp only [TypeExpression.tokens_union, List.append_assoc] at h
    obtain ⟨rfl, hr⟩ := first.eq_of_tokens_append (ht.otherTokens_append others)
      (ht'.otherTokens_append others') h
    obtain ⟨rfl, hr'⟩ := eq_of_otherTokens_append others ht ht' hr
    exact ⟨rfl, hr'⟩

theorem eq_of_otherTokens_append : ∀ (ps : List PlainType) {ps' : List PlainType}
    {ts ts' : List Token}, EndsType ts → EndsType ts' →
      otherTokens ps ++ ts = otherTokens ps' ++ ts' → ps = ps' ∧ ts = ts'
  | [], ps', ts, ts', ht, _, h => by
    cases ps' with
    | nil => exact ⟨rfl, h⟩
    | cons p' ps' =>
      rw [otherTokens_nil, List.nil_append] at h
      exact absurd (by rw [h]; rfl) ht.union
  | p :: ps, ps', ts, ts', ht, ht', h => by
    cases ps' with
    | nil =>
      rw [otherTokens_nil, List.nil_append] at h
      exact absurd (by rw [← h]; rfl) ht'.union
    | cons p' ps' =>
      simp only [otherTokens_cons, List.cons_append, List.append_assoc, List.cons.injEq,
        true_and] at h
      obtain ⟨rfl, hr⟩ := p.eq_of_tokens_append (ht.otherTokens_append ps)
        (ht'.otherTokens_append ps') h
      obtain ⟨rfl, hr'⟩ := eq_of_otherTokens_append ps ht ht' hr
      exact ⟨rfl, hr'⟩

theorem eq_of_memberTokens_append : ∀ (ms : List (MemberName × TypeExpression)) {first : Bool}
    {ms' : List (MemberName × TypeExpression)} {ts ts' : List Token},
      memberTokens first ms ++ .mark '\x7d' :: ts = memberTokens first ms' ++ .mark '\x7d' :: ts' →
        ms = ms' ∧ ts = ts'
  | [], first, ms', ts, ts', h => by
    cases ms' with
    | nil => exact ⟨rfl, List.tail_eq_of_cons_eq h⟩
    | cons m' ms' => exact absurd h.symm (memberTokens_append_ne first m' ms' _ ts)
  | (name, type) :: ms, first, ms', ts, ts', h => by
    cases ms' with
    | nil => exact absurd h (memberTokens_append_ne first (name, type) ms _ ts')
    | cons m' ms' =>
      obtain ⟨name', type'⟩ := m'
      simp only [memberTokens_cons, List.append_assoc] at h
      obtain ⟨rfl, hn⟩ := MemberName.eq_of_tokens_append (List.append_cancel_left h)
      obtain ⟨rfl, ht⟩ := type.eq_of_tokens_append (endsType_memberTokens ms ts)
        (endsType_memberTokens ms' ts') hn
      obtain ⟨rfl, hr⟩ := eq_of_memberTokens_append ms ht
      exact ⟨rfl, hr⟩

end

theorem Reads.unique {t : Text} {e e' : TypeExpression} (h : Reads t e) (h' : Reads t e') :
    e = e' := by
  have tokens : e.tokens ++ [] = e'.tokens ++ [] := by rw [← h, ← h']
  exact (e.eq_of_tokens_append endsType_nil endsType_nil tokens).1

end CollectionTypes.TypeScript
