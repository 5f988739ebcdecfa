import CollectionTypes.Proofs.JsonGrammar
import Mathlib.Tactic.SplitIfs

/-!
# Strings are read as written

The reader takes a string exactly if the text goes on with the body of a written string and its
closing quote, and what it returns is the text that the string stands for. The skipper takes the
same strings, those with lone halves of surrogate pairs included.
-/

namespace CollectionTypes.Json

/-! ### Escapes -/

theorem takeHex_digits (u : CodeUnit) (t : Text) : takeHex (u.digits ++ t) = .ok (u.value, t) := by
  simp [CodeUnit.digits, CodeUnit.value, takeHex, hexValue?, Text.hexDigit?_char]

theorem exists_codeUnit {t rest : Text} {n : Nat} (h : takeHex t = .ok (n, rest)) :
    ∃ u : CodeUnit, t = u.digits ++ rest ∧ u.value = n := by
  have bad (u : Text) : badHex u ≠ .ok (n, rest) := by
    unfold badHex
    split <;> simp [atHere]
  unfold takeHex at h
  split at h
  next a b c d r =>
    split at h
    next m hm =>
      simp only [Except.ok.injEq, Prod.mk.injEq] at h
      obtain ⟨rfl, rfl⟩ := h
      simp only [hexValue?, Option.bind_eq_bind, Option.pure_def, Option.bind_eq_some_iff,
        Option.some.injEq] at hm
      obtain ⟨a', ha, b', hb, c', hc, d', hd, rfl⟩ := hm
      obtain ⟨a, rfl, rfl⟩ := exists_hexDigit ha
      obtain ⟨b, rfl, rfl⟩ := exists_hexDigit hb
      obtain ⟨c, rfl, rfl⟩ := exists_hexDigit hc
      obtain ⟨d, rfl, rfl⟩ := exists_hexDigit hd
      exact ⟨⟨a, b, c, d⟩, rfl, rfl⟩
    next => exact absurd h (bad _)
  next => exact absurd h (bad _)

theorem simpleEscape?_eq_some_iff {c d : Char} :
    simpleEscape? c = some d ↔ (c, d) ∈ ownEscape :: sharedEscapes :=
  Text.simpleEscape?_eq_some_iff (by decide)

theorem simpleEscape?_short (e : ShortEscape ownEscape) : simpleEscape? e.val.1 = some e.val.2 :=
  simpleEscape?_eq_some_iff.2 e.property

theorem shortEscape_ne_unit (e : ShortEscape ownEscape) : e.val.1 ≠ 'u' := by
  have table : ∀ e ∈ ownEscape :: sharedEscapes, e.1 ≠ 'u' := by decide
  exact table e.val e.property

/-! ### Escapes in a string whose text is used -/

theorem exists_unit_of_takeLowSurrogate {high : Nat} {t rest : Text} {d : Char}
    (h : takeLowSurrogate high t = .ok (d, rest)) :
    ∃ u : CodeUnit, t = (Piece.unit u).text ++ rest ∧ isLowSurrogate u.value = true ∧
      surrogatePair high u.value = d := by
  unfold takeLowSurrogate at h
  split at h
  next => simp [atHere] at h
  next => simp [atHere] at h
  next c cs =>
    split at h
    next hc =>
      split at h
      next => simp at h
      next n r hx =>
        obtain ⟨u, rfl, rfl⟩ := exists_codeUnit hx
        split at h
        next hl =>
          simp only [Except.ok.injEq, Prod.mk.injEq] at h
          obtain ⟨rfl, rfl⟩ := h
          exact ⟨u, by rw [hc]; rfl, hl, rfl⟩
        next => simp [atHere] at h
    next => simp [atNext] at h
  next => simp [atNext] at h

/-- An escape is one piece or a surrogate pair, in front of whatever comes next. -/
theorem exists_pieces_of_takeEscape {t rest : Text} {d : Char}
    (h : takeEscape t = .ok (d, rest)) :
    ∃ l : Literal, '\\' :: t = l.body ++ rest ∧
      ∀ (m : Literal) (s : Text), m.decode = some s → Literal.decode (l ++ m) = some (d :: s) := by
  unfold takeEscape at h
  split at h
  next => simp [atHere] at h
  next c cs =>
    split at h
    next hc =>
      split at h
      next => simp at h
      next n r hx =>
        obtain ⟨u, rfl, rfl⟩ := exists_codeUnit hx
        split at h
        next => simp [atHere] at h
        next hl =>
          split at h
          next hh =>
            obtain ⟨v, rfl, hv, rfl⟩ := exists_unit_of_takeLowSurrogate h
            refine ⟨[.unit u, .unit v], ?_, ?_⟩
            · simp [hc, Piece.text]
            · intro m s hm
              simp [Literal.decode_pair (eq_false_of_ne_true hl) hh hv, hm]
          next hh =>
            simp only [Except.ok.injEq, Prod.mk.injEq] at h
            obtain ⟨rfl, rfl⟩ := h
            refine ⟨[.unit u], ?_, ?_⟩
            · simp [hc, Piece.text]
            · intro m s hm
              simp [Literal.decode_unit (eq_false_of_ne_true hl) (eq_false_of_ne_true hh), hm]
    next =>
      split at h
      next e he =>
        simp only [Except.ok.injEq, Prod.mk.injEq] at h
        obtain ⟨rfl, rfl⟩ := h
        refine ⟨[.short ⟨(c, e), simpleEscape?_eq_some_iff.1 he⟩], rfl, ?_⟩
        intro m s hm
        simp [hm]
      next => simp [atNext] at h

theorem takeEscape_short (e : ShortEscape ownEscape) (t : Text) :
    takeEscape (e.val.1 :: t) = .ok (e.val.2, t) := by
  simp [takeEscape, shortEscape_ne_unit e, simpleEscape?_short e]

theorem takeEscape_unit {u : CodeUnit} (hl : isLowSurrogate u.value = false)
    (hh : isHighSurrogate u.value = false) (t : Text) :
    takeEscape ('u' :: (u.digits ++ t)) = .ok (Char.ofNat u.value, t) := by
  simp [takeEscape, takeHex_digits, hl, hh]

theorem takeEscape_pair {u v : CodeUnit} (hl : isLowSurrogate u.value = false)
    (hh : isHighSurrogate u.value = true) (hv : isLowSurrogate v.value = true) (t : Text) :
    takeEscape ('u' :: (u.digits ++ ((Piece.unit v).text ++ t))) =
      .ok (surrogatePair u.value v.value, t) := by
  simp [takeEscape, takeHex_digits, hl, hh, Piece.text, takeLowSurrogate, hv]

/-! ### Strings whose text is used -/

theorem eq_of_map_eq_ok {α β : Type} {taken : Taken α} {f : α → β} {y : β} {rest : Text}
    (h : (taken.map fun (x, r) => (f x, r)) = .ok (y, rest)) :
    ∃ x, taken = .ok (x, rest) ∧ f x = y := by
  cases taken with
  | error e => simp [Except.map] at h
  | ok p =>
    simp only [Except.map, Except.ok.injEq, Prod.mk.injEq] at h
    obtain ⟨rfl, rfl⟩ := h
    exact ⟨p.1, rfl, rfl⟩

theorem takeString_quote (t : Text) : takeString ('"' :: t) = .ok ([], t) := by
  rw [takeString]
  simp

theorem takeString_plain (c : PlainChar isControl) (t : Text) :
    takeString (c.val :: t) = (takeString t).map fun (s, r) => (c.val :: s, r) := by
  obtain ⟨c, hq, hb, hc⟩ := c
  rw [takeString]
  simp [hq, hb, hc]

theorem takeString_escape {t rest : Text} {d : Char} (h : takeEscape t = .ok (d, rest)) :
    takeString ('\\' :: t) = (takeString rest).map fun (s, r) => (d :: s, r) := by
  rw [takeString]
  simp only [if_false, if_true, Char.reduceEq]
  split
  next e he => rw [h] at he; exact absurd he (by simp)
  next d' r' he =>
    rw [h] at he
    obtain ⟨rfl, rfl⟩ := Prod.mk.inj (Except.ok.inj he)
    rfl

theorem takeString_body {l : Literal} {s : Text} (h : l.decode = some s) (rest : Text) :
    takeString (l.body ++ '"' :: rest) = .ok (s, rest) := by
  fun_induction Literal.decode l generalizing s with
  | case1 =>
    obtain rfl := Option.some.inj h
    exact takeString_quote rest
  | case2 c l ih =>
    obtain ⟨s, hs, rfl⟩ := Option.map_eq_some_iff.1 h
    rw [Literal.body_cons, List.append_assoc, Piece.text, List.singleton_append,
      takeString_plain, ih hs]
    rfl
  | case3 e l ih =>
    obtain ⟨s, hs, rfl⟩ := Option.map_eq_some_iff.1 h
    rw [Literal.body_cons, List.append_assoc, Piece.text, List.cons_append,
      List.singleton_append, takeString_escape (takeEscape_short e _), ih hs]
    rfl
  | case4 => simp at h
  | case5 u hl hh v l hv ih =>
    obtain ⟨s, hs, rfl⟩ := Option.map_eq_some_iff.1 h
    rw [Literal.body_cons, Literal.body_cons, List.append_assoc, List.append_assoc,
      Piece.text_unit u, List.cons_append, List.cons_append,
      takeString_escape (takeEscape_pair (eq_false_of_ne_true hl) hh hv _), ih hs]
    rfl
  | case6 => simp at h
  | case7 => simp at h
  | case8 u l hl hh ih =>
    obtain ⟨s, hs, rfl⟩ := Option.map_eq_some_iff.1 h
    rw [Literal.body_cons, List.append_assoc, Piece.text, List.cons_append, List.cons_append,
      takeString_escape
        (takeEscape_unit (eq_false_of_ne_true hl) (eq_false_of_ne_true hh) _), ih hs]
    rfl

theorem exists_literal_of_takeString {t s rest : Text} (h : takeString t = .ok (s, rest)) :
    ∃ l : Literal, t = l.body ++ '"' :: rest ∧ l.decode = some s := by
  fun_induction takeString t generalizing s rest with
  | case1 => simp [atHere] at h
  | case2 cs =>
    simp only [Except.ok.injEq, Prod.mk.injEq] at h
    obtain ⟨rfl, rfl⟩ := h
    exact ⟨[], rfl, rfl⟩
  | case3 => simp at h
  | case4 cs d r he _ _ ih =>
    obtain ⟨s', hs, rfl⟩ := eq_of_map_eq_ok h
    obtain ⟨l, rfl, hl⟩ := ih hs
    obtain ⟨l', hl', hd⟩ := exists_pieces_of_takeEscape he
    refine ⟨l' ++ l, ?_, hd l s' hl⟩
    rw [hl', Literal.body_append, List.append_assoc]
  | case5 => simp [atNext] at h
  | case6 c cs hq hb hc ih =>
    obtain ⟨s', hs, rfl⟩ := eq_of_map_eq_ok h
    obtain ⟨l, rfl, hl⟩ := ih hs
    exact ⟨.plain ⟨c, hq, hb, eq_false_of_ne_true hc⟩ :: l, rfl, by simp [hl]⟩

/-! ### Strings whose text is not used -/

theorem exists_piece_of_skipEscape {t rest : Text} (h : skipEscape t = .ok rest) :
    ∃ p : Piece, '\\' :: t = p.text ++ rest := by
  unfold skipEscape at h
  split at h
  next => simp [atHere] at h
  next c cs =>
    split at h
    next hc =>
      cases hx : takeHex cs with
      | error e => simp [hx, Except.map] at h
      | ok p =>
        obtain ⟨n, r⟩ := p
        obtain ⟨u, rfl, rfl⟩ := exists_codeUnit hx
        simp only [hx, Except.map, Except.ok.injEq] at h
        subst h
        exact ⟨.unit u, by rw [hc]; rfl⟩
    next =>
      split at h
      next he =>
        obtain ⟨d, hd⟩ := Option.isSome_iff_exists.1 he
        obtain rfl := Except.ok.inj h
        exact ⟨.short ⟨(c, d), simpleEscape?_eq_some_iff.1 hd⟩, rfl⟩
      next => simp [atNext] at h

theorem skipEscape_short (e : ShortEscape ownEscape) (t : Text) :
    skipEscape (e.val.1 :: t) = .ok t := by
  simp [skipEscape, shortEscape_ne_unit e, simpleEscape?_short e]

theorem skipEscape_unit (u : CodeUnit) (t : Text) :
    skipEscape ('u' :: (u.digits ++ t)) = .ok t := by
  simp [skipEscape, takeHex_digits, Except.map]

theorem skipString_quote (t : Text) : skipString ('"' :: t) = .ok t := by
  rw [skipString]
  simp

theorem skipString_plain (c : PlainChar isControl) (t : Text) :
    skipString (c.val :: t) = skipString t := by
  obtain ⟨c, hq, hb, hc⟩ := c
  rw [skipString]
  simp [hq, hb, hc]

theorem skipString_escape {t rest : Text} (h : skipEscape t = .ok rest) :
    skipString ('\\' :: t) = skipString rest := by
  rw [skipString]
  simp only [if_false, if_true, Char.reduceEq]
  split
  next e he => rw [h] at he; exact absurd he (by simp)
  next r he =>
    rw [h] at he
    rw [Except.ok.inj he]

theorem skipString_body (l : Literal) (rest : Text) :
    skipString (l.body ++ '"' :: rest) = .ok rest := by
  induction l with
  | nil => exact skipString_quote rest
  | cons p l ih =>
    rw [Literal.body_cons, List.append_assoc, ← ih]
    cases p with
    | plain c => exact skipString_plain c _
    | short e => exact skipString_escape (skipEscape_short e _)
    | unit u => exact skipString_escape (skipEscape_unit u _)

theorem exists_literal_of_skipString {t rest : Text} (h : skipString t = .ok rest) :
    ∃ l : Literal, t = l.body ++ '"' :: rest := by
  fun_induction skipString t with
  | case1 => simp [atHere] at h
  | case2 cs =>
    obtain rfl := Except.ok.inj h
    exact ⟨[], rfl⟩
  | case3 => simp at h
  | case4 cs r he _ _ ih =>
    obtain ⟨l, rfl⟩ := ih h
    obtain ⟨p, hp⟩ := exists_piece_of_skipEscape he
    exact ⟨p :: l, by rw [hp, Literal.body_cons, List.append_assoc]⟩
  | case5 => simp [atHere] at h
  | case6 c cs hq hb hc ih =>
    obtain ⟨l, rfl⟩ := ih h
    exact ⟨.plain ⟨c, hq, hb, eq_false_of_ne_true hc⟩ :: l, rfl⟩

end CollectionTypes.Json
