import CollectionTypes.Proofs.TomlGrammar

/-!
# Basic strings are read as written

The lines of a document are taken apart before strings are understood. Both steps take a written
string as a whole, whatever follows its closing quote, and understanding gives the text that it
stands for.
-/

namespace CollectionTypes.Toml

/-! ### Escapes -/

theorem takeHex_digits (digits : List HexDigit) (n : Nat) (rest : Text) :
    takeHex digits.length n (digits.map HexDigit.char ++ rest) =
      some (codeFrom n digits, rest) := by
  induction digits generalizing n with
  | nil => rfl
  | cons d ds ih =>
    simp only [List.length_cons, List.map_cons, List.cons_append, takeHex, Text.hexDigit?_char,
      Option.bind_some]
    exact ih (n * 16 + d.value)

theorem takeCode_digits {digits : List HexDigit} (h : (codeFrom 0 digits).isValidChar)
    (rest : Text) :
    takeCode digits.length (digits.map HexDigit.char ++ rest) =
      some (Char.ofNat (codeFrom 0 digits), rest) := by
  unfold takeCode
  rw [takeHex_digits]
  exact if_pos h

theorem simpleEscape?_short (e : ShortEscape ownEscape) : simpleEscape? e.val.1 = some e.val.2 :=
  (Text.simpleEscape?_eq_some_iff (by decide)).2 e.property

theorem takeEscape_short (e : ShortEscape ownEscape) (rest : Text) :
    takeEscape (e.val.1 :: rest) = some (e.val.2, rest) := by
  simp only [takeEscape, simpleEscape?_short]

theorem takeEscape_code (e : CodeEscape) (rest : Text) :
    takeEscape (e.letter :: (e.digits.map HexDigit.char ++ rest)) =
      some (Char.ofNat (codeFrom 0 e.digits), rest) := by
  have code := takeCode_digits e.isValid rest
  have form := e.form
  simp only [codeForms, List.mem_cons, Prod.mk.injEq, List.not_mem_nil, or_false] at form
  rcases form with ⟨hl, hn⟩ | ⟨hl, hn⟩ | ⟨hl, hn⟩
  · rw [hn] at code
    rw [hl]
    exact code
  · rw [hn] at code
    rw [hl]
    exact code
  · rw [hn] at code
    rw [hl]
    exact code

/-! ### Understanding a string -/

theorem isPlain_of_plainChar (c : PlainChar isControl) : isPlain c.val = true := by
  obtain ⟨c, _, _, hc⟩ := c
  simp only [isControl, Bool.or_eq_false_iff, decide_eq_false_iff_not, beq_eq_false_iff_ne] at hc
  simp only [isPlain, Bool.or_eq_true, Bool.and_eq_true, decide_eq_true_eq]
  omega

theorem takeBasic_escape {t rest : Text} {c : Char} (h : takeEscape t = some (c, rest)) :
    takeBasic ('\\' :: t) = (takeBasic rest).map fun (s, r) => (c :: s, r) := by
  rw [takeBasic, if_neg (by decide), if_pos rfl]
  split
  next hn =>
    rw [h] at hn
    simp at hn
  next d r hs =>
    rw [h, Option.some.injEq, Prod.mk.injEq] at hs
    obtain ⟨rfl, rfl⟩ := hs
    rfl

theorem takeBasic_piece (p : Piece) (t : Text) :
    takeBasic (p.text ++ t) = (takeBasic t).map fun (s, r) => (p.char :: s, r) := by
  cases p with
  | plain c =>
    rw [Piece.text, List.singleton_append, takeBasic, if_neg c.property.1, if_neg c.property.2.1,
      if_pos (isPlain_of_plainChar c)]
    rfl
  | short e => exact takeBasic_escape (takeEscape_short e t)
  | code e =>
    rw [Piece.text, List.cons_append, List.cons_append]
    exact takeBasic_escape (takeEscape_code e t)

theorem takeBasic_body (l : Literal) (rest : Text) :
    takeBasic (l.body ++ '"' :: rest) = some (l.decode, rest) := by
  induction l with
  | nil =>
    show takeBasic ('"' :: rest) = some ([], rest)
    rw [takeBasic, if_pos rfl]
  | cons p l ih =>
    rw [Literal.body, List.flatMap_cons, List.append_assoc, takeBasic_piece, ← Literal.body, ih]
    rfl

/-! ### Cutting a string out of its line -/

/-- A character that neither ends a string nor hides what follows. -/
def IsInner (c : Char) : Prop := c ≠ '\n' ∧ c ≠ '"' ∧ c ≠ '\\'

theorem splitLine_inner {c : Char} (h : IsInner c) (t : Text) :
    splitLine '"' false (c :: t) =
      (c :: (splitLine '"' false t).1, (splitLine '"' false t).2) := by
  have plain : escapes '"' c = false := by simp [escapes, h.2.2]
  rw [splitLine, if_neg h.1, if_neg (by simp [h.2.1]), plain]
  rfl

theorem splitLine_escaped {c : Char} (h : c ≠ '\n') (t : Text) :
    splitLine '"' false ('\\' :: c :: t) =
      ('\\' :: c :: (splitLine '"' false t).1, (splitLine '"' false t).2) := by
  have hidden : (!false && escapes '"' '\\') = true := rfl
  rw [splitLine, if_neg (by decide), if_neg (by decide), hidden, splitLine, if_neg h,
    if_neg (by simp)]
  rfl

theorem splitLine_inners {cs : Text} (h : ∀ c ∈ cs, IsInner c) (t : Text) :
    splitLine '"' false (cs ++ t) =
      (cs ++ (splitLine '"' false t).1, (splitLine '"' false t).2) := by
  induction cs with
  | nil => rfl
  | cons c cs ih =>
    rw [List.forall_mem_cons] at h
    rw [List.cons_append, splitLine_inner h.1, ih h.2]
    rfl

theorem isInner_hexDigit (d : HexDigit) : IsInner d.char := by
  obtain ⟨value, upper⟩ := d
  unfold IsInner
  revert value upper
  decide

theorem splitLine_piece (p : Piece) (t : Text) :
    splitLine '"' false (p.text ++ t) =
      (p.text ++ (splitLine '"' false t).1, (splitLine '"' false t).2) := by
  have line := p.oneLine_text
  cases p with
  | plain c =>
    apply splitLine_inner
    refine ⟨?_, c.property.1, c.property.2.1⟩
    intro he
    exact line (List.mem_singleton.2 he.symm)
  | short e =>
    apply splitLine_escaped
    intro he
    exact line (List.mem_cons_of_mem _ (List.mem_singleton.2 he.symm))
  | code e =>
    have letter : e.letter ≠ '\n' := by
      intro he
      exact line (List.mem_cons_of_mem _ (List.mem_cons.2 (.inl he.symm)))
    have digits : ∀ c ∈ e.digits.map HexDigit.char, IsInner c := by
      intro c hc
      obtain ⟨d, _, rfl⟩ := List.mem_map.1 hc
      exact isInner_hexDigit d
    rw [Piece.text, List.cons_append, List.cons_append, splitLine_escaped letter,
      splitLine_inners digits]
    rfl

theorem splitLine_body (l : Literal) (rest : Text) :
    splitLine '"' false (l.body ++ '"' :: rest) = (l.body ++ ['"'], rest) := by
  induction l with
  | nil =>
    show splitLine '"' false ('"' :: rest) = (['"'], rest)
    rw [splitLine, if_neg (by decide), if_pos (by simp)]
  | cons p l ih =>
    rw [Literal.body, List.flatMap_cons, List.append_assoc, splitLine_piece, ← Literal.body, ih,
      List.append_assoc]

/-- The first character after an opening quote is a quote only if the string is empty. -/
theorem head?_body_ne (l : Literal) (t : Text) (h : l ≠ []) : (l.body ++ t).head? ≠ some '"' := by
  cases l with
  | nil => exact absurd rfl h
  | cons p l =>
    rw [Literal.body, List.flatMap_cons, List.append_assoc]
    cases p with
    | plain c => simpa [Piece.text] using c.property.1
    | short e => simp [Piece.text]
    | code e => simp [Piece.text]

theorem splitString_literal (l : Literal) {rest : Text} (h : rest.head? ≠ some '"') :
    splitString '"' (l.body ++ '"' :: rest) = (l.body ++ ['"'], rest) := by
  have single : (l.body ++ '"' :: rest).take 2 ≠ ['"', '"'] := by
    by_cases hl : l = []
    · subst hl
      cases rest with
      | nil => simp [Literal.body]
      | cons c cs =>
        intro he
        simp only [Literal.body, List.flatMap_nil, List.nil_append, List.take_succ_cons,
          List.take_zero, List.cons.injEq, and_true, true_and] at he
        exact h (congrArg some he)
    · have first := head?_body_ne l ('"' :: rest) hl
      generalize l.body ++ '"' :: rest = t at first ⊢
      cases t with
      | nil => simp
      | cons c cs =>
        intro he
        rw [List.take_succ_cons, List.cons.injEq] at he
        exact first (congrArg some he.1)
  rw [splitString, if_neg single, splitLine_body]

theorem Literal.text_append (l : Literal) (rest : Text) :
    l.text ++ rest = '"' :: (l.body ++ '"' :: rest) := by
  simp [Literal.text]

/-- A string is one lexeme in front of whatever is no quote. -/
theorem splitLexeme_literal (l : Literal) {rest : Text} (h : rest.head? ≠ some '"') :
    splitLexeme (l.text ++ rest) = (l.text, rest) := by
  rw [Literal.text_append]
  unfold splitLexeme
  dsimp only
  rw [if_pos (by decide), splitString_literal l h]
  rfl

/-! ### Strings as keys and values -/

theorem keyName?_literal (l : Literal) : keyName? l.text = some l.decode := by
  have basic : keyName? l.text = (takeBasic (l.body ++ ['"'])).whole? := rfl
  rw [basic, takeBasic_body]
  rfl

theorem string?_literal (l : Literal) : string? l.text = some l.decode := by
  have basic : takeString l.text = takeBasic (l.body ++ ['"']) := by
    cases l with
    | nil => rfl
    | cons p l =>
      have first := head?_body_ne (p :: l) ['"'] (by simp)
      unfold Literal.text
      generalize Literal.body (p :: l) ++ ['"'] = t at first ⊢
      unfold takeString
      split
      next => simp_all
      next => simp_all
      next => simp_all
      next => simp_all
      next => simp_all
  rw [string?, basic, takeBasic_body]
  rfl

theorem scalar?_literal (l : Literal) : scalar? l.text = some (.string l.decode) := by
  unfold scalar?
  rw [string?_literal]
  rfl

end CollectionTypes.Toml
