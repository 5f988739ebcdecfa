import CollectionTypes.Json.String
import CollectionTypes.Proofs.WrittenEscapes

/-!
# Written JSON

A JSON text is a tree of values together with the blanks between its tokens, the escapes of its
strings and the digits of its numbers. `Written.text` writes the tree down and `Literal.decode` is
the text that a string stands for; neither refers to how texts are read.
-/

namespace CollectionTypes.Json

/-! ### Blanks -/

/-- Blanks between tokens, possibly none. -/
abbrev Space := { t : Text // t.all isSpace = true }

namespace Space

def none : Space := ⟨[], rfl⟩

def append (a b : Space) : Space :=
  ⟨a.val ++ b.val, by rw [List.all_append, a.property, b.property, Bool.and_self]⟩

@[simp] theorem val_none : none.val = [] := rfl

@[simp] theorem val_append (a b : Space) : (a.append b).val = a.val ++ b.val := rfl

end Space

/-! ### Strings -/

/-- A code unit in four hexadecimal digits. -/
structure CodeUnit where
  first : HexDigit
  second : HexDigit
  third : HexDigit
  fourth : HexDigit

namespace CodeUnit

def value (u : CodeUnit) : Nat :=
  ((u.first.value * 16 + u.second.value) * 16 + u.third.value) * 16 + u.fourth.value

def digits (u : CodeUnit) : Text :=
  [u.first.char, u.second.char, u.third.char, u.fourth.char]

def ofNat (n : Nat) : CodeUnit :=
  ⟨.lastOf (n / 4096), .lastOf (n / 256), .lastOf (n / 16), .lastOf n⟩

theorem value_ofNat {n : Nat} (h : n < 65536) : (ofNat n).value = n := by
  simp only [value, ofNat, HexDigit.lastOf]
  omega

end CodeUnit

/-- The letter after a backslash that only these strings have, and what it stands for. -/
abbrev ownEscape : Char × Char := ('/', '/')

/-- A character or an escape between the quotes of a string. -/
inductive Piece where
  | plain (char : PlainChar isControl)
  | short (escape : ShortEscape ownEscape)
  | unit (unit : CodeUnit)

def Piece.text : Piece → Text
  | plain c => [c.val]
  | short e => ['\\', e.val.1]
  | unit u => '\\' :: 'u' :: u.digits

theorem Piece.text_unit (u : CodeUnit) : (unit u).text = '\\' :: 'u' :: u.digits := rfl

/-- The character itself where it can stand in a string, else its code unit. -/
def Piece.ofChar (c : Char) : Piece :=
  if h : c ≠ '"' ∧ c ≠ '\\' ∧ isControl c = false then plain ⟨c, h⟩
  else unit (CodeUnit.ofNat c.toNat)

theorem toNat_lt_of_isControl (c : Char) (h : isControl c = true) : c.toNat < 128 := by
  simp only [isControl, decide_eq_true_eq] at h
  omega

/-- The pieces of a string. -/
abbrev Literal := List Piece

namespace Literal

def body (l : Literal) : Text := l.flatMap Piece.text

def text (l : Literal) : Text := '"' :: l.body ++ ['"']

@[simp] theorem body_nil : body [] = [] := rfl

@[simp] theorem body_cons (p : Piece) (l : Literal) : body (p :: l) = p.text ++ body l := rfl

theorem body_append (l m : Literal) : body (l ++ m) = body l ++ body m := List.flatMap_append

/-- The text of a string, unless it has half of a surrogate pair alone. -/
def decode : Literal → Option Text
  | [] => some []
  | .plain c :: rest => (decode rest).map (c.val :: ·)
  | .short e :: rest => (decode rest).map (e.val.2 :: ·)
  | .unit u :: rest =>
    if isLowSurrogate u.value then none
    else if isHighSurrogate u.value then
      match rest with
      | .unit v :: rest =>
        if isLowSurrogate v.value then
          (decode rest).map (surrogatePair u.value v.value :: ·)
        else none
      | _ => none
    else (decode rest).map (Char.ofNat u.value :: ·)

@[simp] theorem decode_nil : decode [] = some [] := rfl

@[simp] theorem decode_plain (c : PlainChar isControl) (rest : Literal) :
    decode (.plain c :: rest) = (decode rest).map (c.val :: ·) := rfl

@[simp] theorem decode_short (e : ShortEscape ownEscape) (rest : Literal) :
    decode (.short e :: rest) = (decode rest).map (e.val.2 :: ·) := rfl

theorem decode_unit {u : CodeUnit} (hl : isLowSurrogate u.value = false)
    (hh : isHighSurrogate u.value = false) (rest : Literal) :
    decode (.unit u :: rest) = (decode rest).map (Char.ofNat u.value :: ·) := by
  conv => lhs; unfold decode
  simp [hl, hh]

theorem decode_pair {u v : CodeUnit} (hl : isLowSurrogate u.value = false)
    (hh : isHighSurrogate u.value = true) (hv : isLowSurrogate v.value = true) (rest : Literal) :
    decode (.unit u :: .unit v :: rest) =
      (decode rest).map (surrogatePair u.value v.value :: ·) := by
  rw [decode]
  simp [hl, hh, hv]

/-- A text as a string, with an escape for each character that does not stand for itself. -/
def ofText (t : Text) : Literal := t.map Piece.ofChar

theorem decode_ofText (t : Text) : (ofText t).decode = some t := by
  induction t with
  | nil => rfl
  | cons c cs ih =>
    rw [ofText, List.map_cons, ← ofText]
    unfold Piece.ofChar
    split_ifs with hc
    · rw [decode_plain, ih]
      rfl
    · have hv : (CodeUnit.ofNat c.toNat).value = c.toNat :=
        CodeUnit.value_ofNat (by have := toNat_lt_of_not_plain toNat_lt_of_isControl hc; omega)
      have hn := toNat_lt_of_not_plain toNat_lt_of_isControl hc
      rw [decode_unit, hv, ih, Char.ofNat_toNat]
      · rfl
      · rw [hv, isLowSurrogate]
        simp
        omega
      · rw [hv, isHighSurrogate]
        simp
        omega

end Literal

/-! ### Numbers -/

/-- One or more decimal digits. -/
abbrev Digits := { t : Text // t ≠ [] ∧ t.all Char.isDigit = true }

/-- The digits in front of a decimal point: a zero is alone. -/
abbrev WholeDigits := { d : Digits // d.val.head? = some '0' → d.val = ['0'] }

structure Exponent where
  capital : Bool
  sign : Option Bool
  digits : Digits

namespace Exponent

/-- A present sign is negative or not. -/
def signText : Option Bool → Text
  | none => []
  | some true => ['-']
  | some false => ['+']

def text (e : Exponent) : Text :=
  (if e.capital then 'E' else 'e') :: signText e.sign ++ e.digits.val

end Exponent

structure Numeral where
  negative : Bool
  whole : WholeDigits
  fraction : Option Digits
  exponent : Option Exponent

namespace Numeral

def fractionText : Option Digits → Text
  | none => []
  | some d => '.' :: d.val

def exponentText : Option Exponent → Text
  | none => []
  | some e => e.text

def unsigned (n : Numeral) : Text :=
  n.whole.val.val ++ fractionText n.fraction ++ exponentText n.exponent

def text (n : Numeral) : Text := if n.negative then '-' :: n.unsigned else n.unsigned

/-- The value of decimal digits that continue a number. -/
def valueFrom (n : Nat) (digits : Text) : Nat :=
  digits.foldl (fun n c => n * 10 + (c.toNat - '0'.toNat)) n

/-- An integer that fits 64 bits, with or without a sign. -/
structure IsInteger64 (n : Numeral) : Prop where
  fraction : n.fraction = none
  exponent : n.exponent = none
  bounded : valueFrom 0 n.whole.val.val ≤
    if n.negative then 0x8000000000000000 else 0xFFFFFFFFFFFFFFFF

end Numeral

/-! ### Values -/

/-- A value with the blanks around it. -/
structure Element (V : Type) where
  before : Space
  value : V
  after : Space

/-- A key and its value, with the blanks around them. -/
structure Member (V : Type) where
  before : Space
  key : Literal
  between : Space
  element : Element V

inductive Written where
  | null
  | boolean (value : Bool)
  | number (numeral : Numeral)
  | string (literal : Literal)
  | list (blank : Space) (elements : List (Element Written))
  | object (blank : Space) (members : List (Member Written))

mutual

def Written.text : Written → Text
  | .null => "null"
  | .boolean b => if b then "true" else "false"
  | .number n => n.text
  | .string l => l.text
  | .list blank es => '[' :: blank.val ++ [','].intercalate (elementTexts es) ++ [']']
  | .object blank ms => '{' :: blank.val ++ [','].intercalate (memberTexts ms) ++ ['}']

def elementTexts : List (Element Written) → List Text
  | [] => []
  | ⟨before, value, after⟩ :: es => (before.val ++ value.text ++ after.val) :: elementTexts es

def memberTexts : List (Member Written) → List Text
  | [] => []
  | ⟨before, key, between, ⟨beforeValue, value, after⟩⟩ :: ms =>
    (before.val ++ key.text ++ between.val ++
      ':' :: (beforeValue.val ++ value.text ++ after.val)) :: memberTexts ms

end

def Element.text (e : Element Written) : Text := e.before.val ++ e.value.text ++ e.after.val

/-- The value of a member. -/
def Member.value (m : Member Written) : Written := m.element.value

/-- The key of a member and what stands between it and the value's blanks. -/
def Member.text (m : Member Written) : Text :=
  m.before.val ++ m.key.text ++ m.between.val ++ ':' :: m.element.text

theorem Member.text_eq (m : Member Written) :
    m.text = m.before.val ++
      '"' :: (m.key.body ++ '"' :: (m.between.val ++ ':' :: m.element.text)) := by
  simp [text, Literal.text]

theorem elementTexts_eq_map (es : List (Element Written)) :
    elementTexts es = es.map Element.text := by
  induction es with
  | nil => rfl
  | cons e es ih => exact congrArg (e.text :: ·) ih

theorem memberTexts_eq_map (ms : List (Member Written)) :
    memberTexts ms = ms.map Member.text := by
  induction ms with
  | nil => rfl
  | cons m ms ih => exact congrArg (m.text :: ·) ih

/-- What stands in front of a piece that is the first one or not. -/
def lead (first : Bool) : Text := if first then [] else [',']

/-- Texts with a comma in front of each, or of each but the first. -/
def separated (first : Bool) : List Text → Text
  | [] => []
  | t :: ts => lead first ++ (t ++ separated false ts)

theorem separated_cons (first : Bool) (t : Text) (ts : List Text) :
    separated first (t :: ts) = lead first ++ (t ++ separated false ts) := rfl

@[simp] theorem separated_nil (first : Bool) : separated first [] = [] := rfl

@[simp] theorem separated_true_cons (t : Text) (ts : List Text) :
    separated true (t :: ts) = t ++ separated false ts := rfl

@[simp] theorem separated_false_cons (t : Text) (ts : List Text) :
    separated false (t :: ts) = ',' :: (t ++ separated false ts) := rfl

theorem intercalate_eq_separated (ts : List Text) : [','].intercalate ts = separated true ts := by
  cases ts with
  | nil => rfl
  | cons t ts =>
    rw [separated_true_cons]
    induction ts generalizing t with
    | nil => simp
    | cons u us ih =>
      rw [List.intercalate_cons_cons, ih, separated_false_cons, List.append_assoc,
        List.singleton_append]

namespace Written

@[simp] theorem text_number (n : Numeral) : (number n).text = n.text := rfl

@[simp] theorem text_string (l : Literal) : (string l).text = l.text := rfl

theorem text_list (blank : Space) (es : List (Element Written)) :
    (list blank es).text =
      '[' :: (blank.val ++ separated true (es.map Element.text) ++ [']']) := by
  rw [← intercalate_eq_separated, ← elementTexts_eq_map]
  rfl

theorem text_object (blank : Space) (ms : List (Member Written)) :
    (object blank ms).text =
      '{' :: (blank.val ++ separated true (ms.map Member.text) ++ ['}']) := by
  rw [← intercalate_eq_separated, ← memberTexts_eq_map]
  rfl

end Written

theorem text_list_append (blank : Space) (es : List (Element Written)) (t : Text) :
    (Written.list blank es).text ++ t =
      '[' :: (blank.val ++ (separated true (es.map Element.text) ++ ']' :: t)) := by
  simp [Written.text_list]

theorem text_object_append (blank : Space) (ms : List (Member Written)) (t : Text) :
    (Written.object blank ms).text ++ t =
      '{' :: (blank.val ++ (separated true (ms.map Member.text) ++ '}' :: t)) := by
  simp [Written.text_object]

/-- Induction on the values inside a value. -/
theorem Written.induction {P : Written → Prop} (null : P .null) (boolean : ∀ b, P (.boolean b))
    (number : ∀ n, P (.number n)) (string : ∀ l, P (.string l))
    (list : ∀ blank es, (∀ e ∈ es, P (Element.value e)) → P (.list blank es))
    (object : ∀ blank ms, (∀ m ∈ ms, P (Member.value m)) → P (.object blank ms)) (w : Written) :
    P w := by
  refine @Written.rec P (fun es => ∀ e ∈ es, P e.value) (fun ms => ∀ m ∈ ms, P m.value)
    (fun e => P e.value) (fun m => P m.value) null boolean number string list object
    ?_ ?_ ?_ ?_ ?_ ?_ w
  · exact List.forall_mem_nil _
  · intro e es he hes
    exact List.forall_mem_cons.2 ⟨he, hes⟩
  · exact List.forall_mem_nil _
  · intro m ms hm hms
    exact List.forall_mem_cons.2 ⟨hm, hms⟩
  · intro _ _ _ h
    exact h
  · intro _ _ _ _ h
    exact h

end CollectionTypes.Json
