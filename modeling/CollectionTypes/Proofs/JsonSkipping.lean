import CollectionTypes.Json.Skip
import CollectionTypes.Proofs.JsonNumbers
import CollectionTypes.Proofs.JsonStrings

/-!
# Skipping takes exactly one value

A text that is skipped as a value is blanks and one written value, and every written value is
skipped up to its end. The reader keeps the open brackets on a stack; `Closes` says what the text
after a value must be for the stack to be emptied.
-/

namespace CollectionTypes.Json

/-! ### Blanks -/

theorem skipSpace_append (a : Space) (t : Text) : skipSpace (a.val ++ t) = skipSpace t :=
  List.dropWhile_append_of_pos (List.all_eq_true.1 a.property)

theorem exists_space (t : Text) : ∃ a : Space, t = a.val ++ skipSpace t :=
  ⟨⟨t.takeWhile isSpace, List.all_takeWhile⟩, List.takeWhile_append_dropWhile.symm⟩

theorem exists_space_of_skipSpace {t u : Text} (h : skipSpace t = u) :
    ∃ a : Space, t = a.val ++ u := by
  rw [← h]
  exact exists_space t

theorem skipSpace_cons {c : Char} (h : isSpace c = false) (t : Text) :
    skipSpace (c :: t) = c :: t :=
  List.dropWhile_cons_of_neg (by simp [h])

theorem skipSpace_append_cons (a : Space) {c : Char} (h : isSpace c = false) (t : Text) :
    skipSpace (a.val ++ c :: t) = c :: t := by
  rw [skipSpace_append, skipSpace_cons h]

theorem endsNumber_space_append (a : Space) {t : Text} (h : endsNumber t = true) :
    endsNumber (a.val ++ t) = true := by
  obtain ⟨a, ha⟩ := a
  cases a with
  | nil => exact h
  | cons c cs =>
    simp only [List.all_cons, Bool.and_eq_true] at ha
    have hc := ha.1
    simp only [isSpace, Bool.or_eq_true, beq_iff_eq] at hc
    rcases hc with ((rfl | rfl) | rfl) | rfl <;> rfl

/-! ### Scalars -/

theorem exists_written_of_skipScalar {c : Char} {cs rest : Text}
    (h : skipScalar c cs = .ok rest) : ∃ w : Written, c :: cs = w.text ++ rest := by
  unfold skipScalar at h
  split_ifs at h with hn ht hf hm hd hq
  · rw [skipLetters_eq_ok_iff] at h
    exact ⟨.null, by rw [hn, h]; rfl⟩
  · rw [skipLetters_eq_ok_iff] at h
    exact ⟨.boolean true, by rw [ht, h]; rfl⟩
  · rw [skipLetters_eq_ok_iff] at h
    exact ⟨.boolean false, by rw [hf, h]; rfl⟩
  · obtain ⟨n, hneg, he⟩ := exists_numeral_of_skipNumber true h
    exact ⟨.number n, by simp [hm, he, Numeral.text, hneg]⟩
  · obtain ⟨n, hneg, he⟩ := exists_numeral_of_skipNumber false h
    exact ⟨.number n, by simp [he, Numeral.text, hneg]⟩
  · obtain ⟨l, hl⟩ := exists_literal_of_skipString h
    exact ⟨.string l, by simp [hq, hl, Literal.text]⟩
  · simp [atNext] at h

theorem ne_of_isDigit {c d : Char} (hc : c.isDigit = true) (hd : d.isDigit = false) : c ≠ d := by
  rintro rfl
  rw [hc] at hd
  exact absurd hd (by decide)

theorem skipScalar_digit {c : Char} (hc : c.isDigit = true) (cs : Text) :
    skipScalar c cs = skipNumber (c :: cs) := by
  have hn := ne_of_isDigit hc (d := 'n') (by decide)
  have ht := ne_of_isDigit hc (d := 't') (by decide)
  have hf := ne_of_isDigit hc (d := 'f') (by decide)
  have hm := ne_of_isDigit hc (d := '-') (by decide)
  rw [skipScalar, if_neg hn, if_neg ht, if_neg hf, if_neg hm, if_pos hc]

theorem isSpace_of_isDigit {c : Char} (hc : c.isDigit = true) : isSpace c = false := by
  have hs := ne_of_isDigit hc (d := ' ') (by decide)
  have ht := ne_of_isDigit hc (d := '\t') (by decide)
  have hn := ne_of_isDigit hc (d := '\n') (by decide)
  have hr := ne_of_isDigit hc (d := '\r') (by decide)
  simp [isSpace, hs, ht, hn, hr]

/-- A number starts with its sign or with a digit. -/
theorem Numeral.text_cases (n : Numeral) :
    (n.negative = true ∧ n.text = '-' :: n.unsigned) ∨
      n.negative = false ∧ ∃ (c : Char) (cs : Text),
        n.text = n.unsigned ∧ n.unsigned = c :: cs ∧ c.isDigit = true := by
  unfold text
  cases hn : n.negative with
  | true =>
    left
    exact ⟨rfl, rfl⟩
  | false =>
    right
    obtain ⟨c, ds, hv, hc, _⟩ := n.whole.val.exists_cons
    refine ⟨rfl, c, ds ++ (fractionText n.fraction ++ exponentText n.exponent), rfl, ?_, hc⟩
    simp [unsigned, hv]

/-- The first character of a value, in front of the rest of it. -/
theorem Written.text_cases (w : Written) :
    ∃ (c : Char) (cs : Text),
      w.text = c :: cs ∧ isSpace c = false ∧ ∀ b : Bracket, c ≠ b.closing := by
  have other {c : Char} (hl : c ≠ ']') (ho : c ≠ '}') : ∀ b : Bracket, c ≠ b.closing := by
    intro b
    cases b with
    | list => exact hl
    | object => exact ho
  cases w with
  | null => exact ⟨'n', "ull".toList, rfl, by decide, other (by decide) (by decide)⟩
  | boolean b =>
    cases b with
    | true => exact ⟨'t', "rue".toList, rfl, by decide, other (by decide) (by decide)⟩
    | false => exact ⟨'f', "alse".toList, rfl, by decide, other (by decide) (by decide)⟩
  | number n =>
    rcases n.text_cases with ⟨_, ht⟩ | ⟨_, c, cs, ht, hu, hc⟩
    · exact ⟨'-', _, ht, by decide, other (by decide) (by decide)⟩
    · refine ⟨c, cs, ht.trans hu, isSpace_of_isDigit hc, other ?_ ?_⟩
      · exact ne_of_isDigit hc (by decide)
      · exact ne_of_isDigit hc (by decide)
  | string l => exact ⟨'"', _, rfl, by decide, other (by decide) (by decide)⟩
  | list blank es => exact ⟨'[', _, text_list blank es, by decide, other (by decide) (by decide)⟩
  | object blank ms =>
    exact ⟨'{', _, text_object blank ms, by decide, other (by decide) (by decide)⟩

/-! ### Keys -/

theorem skipColon_between (a : Space) (t : Text) : skipColon (a.val ++ ':' :: t) = .ok t := by
  rw [skipColon, skipSpace_append_cons a (by decide)]
  rfl

theorem exists_space_of_skipColon {t rest : Text} (h : skipColon t = .ok rest) :
    ∃ a : Space, t = a.val ++ ':' :: rest := by
  unfold skipColon at h
  split at h
  next => simp [atNext] at h
  next c cs hc =>
    split at h
    next he =>
      obtain rfl := Except.ok.inj h
      rw [he] at hc
      exact exists_space_of_skipSpace hc
    next => simp [atNext] at h

theorem skipKey_member (m : Member Written) (t : Text) :
    skipKey .object (m.text ++ t) = .ok (m.element.text ++ t) := by
  simp only [m.text_eq, List.append_assoc, List.cons_append, skipKey,
    skipSpace_append_cons m.before (show isSpace '"' = false by decide), if_true, skipString_body,
    skipColon_between]

theorem exists_key_of_skipKey {t rest : Text} (h : skipKey .object t = .ok rest) :
    ∃ (before : Space) (key : Literal) (between : Space),
      t = before.val ++ key.text ++ between.val ++ ':' :: rest := by
  simp only [skipKey] at h
  split at h
  next => simp [atNext] at h
  next c cs hc =>
    split at h
    next hq =>
      split at h
      next => simp at h
      next r hs =>
        obtain ⟨before, rfl⟩ := exists_space_of_skipSpace hc
        obtain ⟨key, rfl⟩ := exists_literal_of_skipString hs
        obtain ⟨between, rfl⟩ := exists_space_of_skipColon h
        exact ⟨before, key, between, by simp [hq, Literal.text]⟩
    next => simp [atNext] at h

/-! ### Steps of the skipper -/

def Bracket.opening : Bracket → Char
  | list => '['
  | object => '{'

section Steps

variable {stack bs : List Bracket} {b : Bracket} {c : Char} {t cs rest : Text}

theorem skipFrom_value (ht : skipSpace t = c :: cs) :
    skipFrom stack .value t =
      if c = '[' then skipFrom (.list :: stack) .opened cs
      else if c = '{' then skipFrom (.object :: stack) .opened cs
      else skipScalar c cs >>= skipFrom stack .ended := by
  rw [skipFrom]
  split
  next h => simp [ht] at h
  next c' cs' h =>
    obtain ⟨rfl, rfl⟩ := List.cons.inj (ht.symm.trans h)
    split_ifs with hl ho
    · rfl
    · rfl
    · split
      next e he => simp [he, bind, Except.bind]
      next r hr => simp [hr, bind, Except.bind]

theorem skipFrom_opened (ht : skipSpace t = c :: cs) :
    skipFrom (b :: bs) .opened t =
      if c = b.closing then skipFrom bs .ended cs
      else skipKey b (c :: cs) >>= skipFrom (b :: bs) .value := by
  conv => lhs; rw [skipFrom]
  split
  next h => simp [ht] at h
  next c' cs' h =>
    obtain ⟨rfl, rfl⟩ := List.cons.inj (ht.symm.trans h)
    split_ifs with hc
    · rfl
    · split
      next e he => simp [he, bind, Except.bind]
      next r hr => simp [hr, bind, Except.bind]

theorem skipFrom_ended (ht : skipSpace t = c :: cs) :
    skipFrom (b :: bs) .ended t =
      if c = b.closing then skipFrom bs .ended cs
      else if c = ',' then skipKey b cs >>= skipFrom (b :: bs) .value
      else atNext b.separatorProblem (c :: cs) := by
  conv => lhs; rw [skipFrom]
  split
  next h => simp [ht] at h
  next c' cs' h =>
    obtain ⟨rfl, rfl⟩ := List.cons.inj (ht.symm.trans h)
    split_ifs with hc hs
    · rfl
    · split
      next e he => simp [he, bind, Except.bind]
      next r hr => simp [hr, bind, Except.bind]
    · rfl

theorem skipFrom_open (ht : skipSpace t = b.opening :: cs) :
    skipFrom stack .value t = skipFrom (b :: stack) .opened cs := by
  rw [skipFrom_value ht]
  cases b with
  | list => rfl
  | object => rfl

theorem skipFrom_scalar (ht : skipSpace t = c :: cs) (hl : c ≠ '[') (ho : c ≠ '{')
    (hs : skipScalar c cs = .ok rest) :
    skipFrom stack .value t = skipFrom stack .ended rest := by
  rw [skipFrom_value ht, if_neg hl, if_neg ho, hs]
  rfl

theorem skipFrom_close {state : SkipState} (hs : state ≠ .value)
    (ht : skipSpace t = b.closing :: cs) :
    skipFrom (b :: bs) state t = skipFrom bs .ended cs := by
  cases state with
  | value => exact absurd rfl hs
  | opened => rw [skipFrom_opened ht, if_pos rfl]
  | ended => rw [skipFrom_ended ht, if_pos rfl]

theorem skipFrom_first (ht : skipSpace t = c :: cs) (hc : c ≠ b.closing)
    (hk : skipKey b (c :: cs) = .ok rest) :
    skipFrom (b :: bs) .opened t = skipFrom (b :: bs) .value rest := by
  rw [skipFrom_opened ht, if_neg hc, hk]
  rfl

theorem skipFrom_next (ht : skipSpace t = ',' :: cs) (hk : skipKey b cs = .ok rest) :
    skipFrom (b :: bs) .ended t = skipFrom (b :: bs) .value rest := by
  have hc : ',' ≠ b.closing := by
    cases b with
    | list => decide
    | object => decide
  rw [skipFrom_ended ht, if_neg hc, if_pos rfl, hk]
  rfl

end Steps

/-! ### Written values are skipped -/

theorem isSpace_opening (b : Bracket) : isSpace b.opening = false := by
  cases b with
  | list => rfl
  | object => rfl

theorem isSpace_closing (b : Bracket) : isSpace b.closing = false := by
  cases b with
  | list => rfl
  | object => rfl

theorem endsNumber_separated (b : Bracket) (ts : List Text) (t : Text) :
    endsNumber (separated false ts ++ b.closing :: t) = true := by
  cases ts with
  | nil =>
    cases b with
    | list => rfl
    | object => rfl
  | cons u us => rfl

/-- A piece of the inside of a bracket is read up to its value, after the opening bracket as well
as after a comma. -/
structure IsPiece (b : Bracket) (p : Text) (e : Element Written) : Prop where
  first : ∀ t, ∃ (c : Char) (cs : Text) (a : Space), skipSpace (p ++ t) = c :: cs ∧
    c ≠ b.closing ∧ skipKey b (c :: cs) = .ok (a.val ++ (e.value.text ++ (e.after.val ++ t)))
  next : ∀ t, ∃ a : Space, skipKey b (p ++ t) = .ok (a.val ++ (e.value.text ++ (e.after.val ++ t)))

theorem isPiece_element (e : Element Written) : IsPiece .list e.text e := by
  obtain ⟨c, cs, hv, hs, hc⟩ := e.value.text_cases
  constructor
  · intro t
    refine ⟨c, cs ++ (e.after.val ++ t), .none, ?_, hc .list, ?_⟩
    · simp only [Element.text, List.append_assoc, hv, List.cons_append,
        skipSpace_append_cons e.before hs]
    · simp [skipKey, hv]
  · intro t
    exact ⟨e.before, by simp [skipKey, Element.text]⟩

theorem isPiece_member (m : Member Written) : IsPiece .object m.text m.element := by
  have key (t : Text) : skipKey .object (m.text ++ t) =
      .ok (m.element.before.val ++ (m.element.value.text ++ (m.element.after.val ++ t))) := by
    rw [skipKey_member, Element.text, List.append_assoc, List.append_assoc]
  have start (t : Text) : ∃ cs, skipSpace (m.text ++ t) = '"' :: cs := by
    rw [m.text_eq, List.append_assoc]
    exact ⟨_, skipSpace_append_cons m.before (by decide) _⟩
  constructor
  · intro t
    obtain ⟨cs, hs⟩ := start t
    refine ⟨'"', cs, m.element.before, hs, by decide, ?_⟩
    have hk := key t
    obtain ⟨a, ha⟩ := exists_space_of_skipSpace hs
    rw [ha] at hk
    simpa only [skipKey, skipSpace_append_cons a (show isSpace '"' = false by decide),
      skipSpace_cons (show isSpace '"' = false by decide)] using hk
  · intro t
    exact ⟨m.element.before, key t⟩

/-- A value is skipped in front of any text that does not continue a number. -/
def Skips (w : Written) : Prop :=
  ∀ (stack : List Bracket) (a : Space) (t : Text), endsNumber t = true →
    skipFrom stack .value (a.val ++ (w.text ++ t)) = skipFrom stack .ended t

section Inside

variable {b : Bracket} {ps : List (Text × Element Written)}

theorem skipFrom_separated (h : ∀ x ∈ ps, IsPiece b x.1 x.2 ∧ Skips x.2.value)
    (bs : List Bracket) (a : Space) (t : Text) :
    skipFrom (b :: bs) .ended (a.val ++ (separated false (ps.map Prod.fst) ++ b.closing :: t)) =
      skipFrom bs .ended t := by
  -- the blanks after a value are those in front of the next comma
  induction ps generalizing a with
  | nil => exact skipFrom_close nofun (skipSpace_append_cons a (isSpace_closing b) t)
  | cons x ps ih =>
    obtain ⟨⟨hp, hx⟩, hps⟩ := List.forall_mem_cons.1 h
    simp only [List.map_cons, separated_false_cons, List.cons_append, List.append_assoc]
    obtain ⟨a', hk⟩ := hp.next (separated false (ps.map Prod.fst) ++ b.closing :: t)
    rw [skipFrom_next (skipSpace_append_cons a (by decide) _) hk, hx (b :: bs) a']
    · exact ih hps x.2.after
    · exact endsNumber_space_append _ (endsNumber_separated b _ t)

theorem skipFrom_inside (h : ∀ x ∈ ps, IsPiece b x.1 x.2 ∧ Skips x.2.value)
    (bs : List Bracket) (a : Space) (t : Text) :
    skipFrom (b :: bs) .opened (a.val ++ (separated true (ps.map Prod.fst) ++ b.closing :: t)) =
      skipFrom bs .ended t := by
  cases ps with
  | nil => exact skipFrom_close nofun (skipSpace_append_cons a (isSpace_closing b) t)
  | cons x ps =>
    obtain ⟨⟨hp, hx⟩, hps⟩ := List.forall_mem_cons.1 h
    simp only [List.map_cons, separated_true_cons, List.append_assoc]
    obtain ⟨c, cs, a', hs, hc, hk⟩ :=
      hp.first (separated false (ps.map Prod.fst) ++ b.closing :: t)
    rw [skipFrom_first ((skipSpace_append a _).trans hs) hc hk, hx (b :: bs) a']
    · exact skipFrom_separated hps bs x.2.after t
    · exact endsNumber_space_append _ (endsNumber_separated b _ t)

theorem skipFrom_bracket (h : ∀ x ∈ ps, IsPiece b x.1 x.2 ∧ Skips x.2.value)
    (stack : List Bracket) (a blank : Space) (t : Text) :
    skipFrom stack .value (a.val ++ b.opening ::
        (blank.val ++ (separated true (ps.map Prod.fst) ++ b.closing :: t))) =
      skipFrom stack .ended t := by
  rw [skipFrom_open (skipSpace_append_cons a (isSpace_opening b) _)]
  exact skipFrom_inside h stack blank t

end Inside

theorem Numeral.skips (n : Numeral) : Skips (.number n) := by
  intro stack a t ht
  rw [Written.text_number]
  rcases n.text_cases with ⟨_, hm⟩ | ⟨_, c, cs, hu, hc, hd⟩
  · rw [hm]
    exact skipFrom_scalar (skipSpace_append_cons a (by decide) _) (by decide) (by decide)
      (skipNumber_unsigned n ht)
  · have hs := skipNumber_unsigned n ht
    rw [hc] at hs
    rw [hu, hc]
    apply skipFrom_scalar (skipSpace_append_cons a (isSpace_of_isDigit hd) _)
      (ne_of_isDigit hd (by decide)) (ne_of_isDigit hd (by decide))
    rw [skipScalar_digit hd]
    exact hs

theorem Written.skips (w : Written) : Skips w := by
  induction w using Written.induction with
  | null =>
    intro stack a t _
    exact skipFrom_scalar (skipSpace_append_cons a (by decide) _) (by decide) (by decide)
      (skipLetters_eq_ok_iff.2 rfl)
  | boolean b =>
    intro stack a t _
    cases b with
    | true =>
      exact skipFrom_scalar (skipSpace_append_cons a (by decide) _) (by decide) (by decide)
        (skipLetters_eq_ok_iff.2 rfl)
    | false =>
      exact skipFrom_scalar (skipSpace_append_cons a (by decide) _) (by decide) (by decide)
        (skipLetters_eq_ok_iff.2 rfl)
  | number n => exact n.skips
  | string l =>
    intro stack a t _
    have h := skipString_body l t
    rw [text_string, Literal.text, List.append_assoc]
    exact skipFrom_scalar (skipSpace_append_cons a (by decide) _) (by decide) (by decide) h
  | list blank es ih =>
    intro stack a t _
    have pieces : ∀ x ∈ es.map fun e => (e.text, e), IsPiece .list x.1 x.2 ∧ Skips x.2.value := by
      intro x hx
      obtain ⟨e, he, rfl⟩ := List.mem_map.1 hx
      exact ⟨isPiece_element e, ih e he⟩
    have h := skipFrom_bracket pieces stack a blank t
    rw [List.map_map] at h
    rw [text_list_append]
    exact h
  | object blank ms ih =>
    intro stack a t _
    have pieces : ∀ x ∈ ms.map fun m => (m.text, m.element),
        IsPiece .object x.1 x.2 ∧ Skips x.2.value := by
      intro x hx
      obtain ⟨m, hm, rfl⟩ := List.mem_map.1 hx
      exact ⟨isPiece_member m, ih m hm⟩
    have h := skipFrom_bracket pieces stack a blank t
    rw [List.map_map] at h
    rw [text_object_append]
    exact h

theorem skipValue_text (a : Space) (w : Written) {t : Text} (ht : endsNumber t = true) :
    skipValue (a.val ++ (w.text ++ t)) = .ok t := by
  rw [skipValue, w.skips [] a t ht, skipFrom]
  intro h
  exact absurd h (by decide)

/-! ### What is skipped is a written value -/

/-- Texts that may stand between commas inside a bracket. -/
def Bracket.Pieces : Bracket → List Text → Prop
  | list, ps => ∃ es : List (Element Written), ps = es.map Element.text
  | object, ps => ∃ ms : List (Member Written), ps = ms.map Member.text

theorem Bracket.pieces_nil (b : Bracket) : b.Pieces [] := by
  cases b with
  | list => exact ⟨[], rfl⟩
  | object => exact ⟨[], rfl⟩

/-- The text goes on with the inside of the bracket `b`, its end and whatever `closes` asks for. -/
def Inside (first : Bool) (b : Bracket) (closes : Text → Prop) (t : Text) : Prop :=
  ∃ (a : Space) (ps : List Text) (u : Text),
    b.Pieces ps ∧ t = a.val ++ (separated first ps ++ b.closing :: u) ∧ closes u

/-- The text closes every bracket of the stack and goes on with `rest`. -/
def Closes (rest : Text) : List Bracket → Text → Prop
  | [], t => t = rest
  | b :: bs, t => Inside false b (Closes rest bs) t

/-- The text goes on with a value, after which `closes` holds. -/
def StartsValue (closes : Text → Prop) (t : Text) : Prop :=
  ∃ (a : Space) (w : Written) (u : Text), t = a.val ++ (w.text ++ u) ∧ closes u

/-- What the skipper must find in each of its states. -/
def Finds (rest : Text) : SkipState → List Bracket → Text → Prop
  | .value, stack, t => StartsValue (Closes rest stack) t
  | .opened, b :: bs, t => Inside true b (Closes rest bs) t
  | .opened, [], t => t = rest
  | .ended, stack, t => Closes rest stack t

theorem exists_piece_of_skipKey {b : Bracket} {t : Text} {before after : Space} {w : Written}
    {u : Text} (h : skipKey b t = .ok (before.val ++ (w.text ++ (after.val ++ u)))) :
    ∃ p : Text, t = p ++ u ∧ ∀ ps, b.Pieces ps → b.Pieces (p :: ps) := by
  cases b with
  | list =>
    refine ⟨Element.text ⟨before, w, after⟩, ?_, ?_⟩
    · simp [Except.ok.inj h, Element.text]
    · rintro ps ⟨es, rfl⟩
      exact ⟨⟨before, w, after⟩ :: es, rfl⟩
  | object =>
    obtain ⟨a, key, between, rfl⟩ := exists_key_of_skipKey h
    refine ⟨Member.text ⟨a, key, between, ⟨before, w, after⟩⟩, ?_, ?_⟩
    · simp [Member.text, Element.text]
    · rintro ps ⟨ms, rfl⟩
      exact ⟨⟨a, key, between, ⟨before, w, after⟩⟩ :: ms, rfl⟩

section Inside

variable {first : Bool} {b : Bracket} {closes : Text → Prop} {t u rest : Text}

theorem Inside.written (h : Inside true b closes t) :
    ∃ (w : Written) (u : Text), b.opening :: t = w.text ++ u ∧ closes u := by
  obtain ⟨a, ps, u, hp, rfl, hu⟩ := h
  cases b with
  | list =>
    obtain ⟨es, rfl⟩ := hp
    refine ⟨.list a es, u, ?_, hu⟩
    simp [Written.text_list, Bracket.opening, Bracket.closing]
  | object =>
    obtain ⟨ms, rfl⟩ := hp
    refine ⟨.object a ms, u, ?_, hu⟩
    simp [Written.text_object, Bracket.opening, Bracket.closing]

theorem Inside.after_space (a : Space) (h : Inside first b closes t) :
    Inside first b closes (a.val ++ t) := by
  obtain ⟨a', ps, u, hp, rfl, hu⟩ := h
  exact ⟨a.append a', ps, u, hp, by simp, hu⟩

theorem inside_close (h : closes u) : Inside first b closes (b.closing :: u) :=
  ⟨.none, [], u, b.pieces_nil, rfl, h⟩

theorem inside_first (hk : skipKey b t = .ok rest)
    (h : StartsValue (Inside false b closes) rest) : Inside true b closes t := by
  obtain ⟨before, w, _, rfl, after, ps, u, hps, rfl, hu⟩ := h
  obtain ⟨p, rfl, hp⟩ := exists_piece_of_skipKey hk
  exact ⟨.none, p :: ps, u, hp ps hps, by simp, hu⟩

theorem inside_next (hk : skipKey b t = .ok rest)
    (h : StartsValue (Inside false b closes) rest) : Inside false b closes (',' :: t) := by
  obtain ⟨before, w, _, rfl, after, ps, u, hps, rfl, hu⟩ := h
  obtain ⟨p, rfl, hp⟩ := exists_piece_of_skipKey hk
  exact ⟨.none, p :: ps, u, hp ps hps, by simp, hu⟩

end Inside

theorem finds_of_skipFrom {stack : List Bracket} {state : SkipState} {t rest : Text}
    (h : skipFrom stack state t = .ok rest) : Finds rest state stack t := by
  -- in front of a value (cases 1 to 5), with no bracket open (6), after an opening bracket (7 to
  -- 10) and after a value inside one (11 to 15)
  fun_induction skipFrom stack state t with
  | case1 => simp [atNext] at h
  | case2 stack t cs ht _ ih =>
    obtain ⟨a, rfl⟩ := exists_space_of_skipSpace ht
    obtain ⟨w, u, hw, hu⟩ := Inside.written (ih h)
    exact ⟨a, w, u, congrArg (a.val ++ ·) hw, hu⟩
  | case3 stack t cs ht _ _ ih =>
    obtain ⟨a, rfl⟩ := exists_space_of_skipSpace ht
    obtain ⟨w, u, hw, hu⟩ := Inside.written (ih h)
    exact ⟨a, w, u, congrArg (a.val ++ ·) hw, hu⟩
  | case4 => simp at h
  | case5 stack t c cs ht _ _ _ rest' hs _ ih =>
    obtain ⟨a, rfl⟩ := exists_space_of_skipSpace ht
    obtain ⟨w, hw⟩ := exists_written_of_skipScalar hs
    exact ⟨a, w, rest', congrArg (a.val ++ ·) hw, ih h⟩
  | case6 state t hs =>
    have ht : t = rest := Except.ok.inj h
    cases state with
    | value => exact absurd rfl hs
    | opened => exact ht
    | ended => exact ht
  | case7 => simp [atNext] at h
  | case8 b bs t cs ht _ ih =>
    obtain ⟨a, rfl⟩ := exists_space_of_skipSpace ht
    exact Inside.after_space a (inside_close (ih h))
  | case9 => simp at h
  | case10 b bs t c cs ht _ _ rest' hk _ ih =>
    obtain ⟨a, rfl⟩ := exists_space_of_skipSpace ht
    exact Inside.after_space a (inside_first hk (ih h))
  | case11 => simp [atNext] at h
  | case12 b bs t cs ht _ ih =>
    obtain ⟨a, rfl⟩ := exists_space_of_skipSpace ht
    exact Inside.after_space a (inside_close (ih h))
  | case13 => simp at h
  | case14 t b bs cs rest' hk _ ht _ _ ih =>
    obtain ⟨a, rfl⟩ := exists_space_of_skipSpace ht
    exact Inside.after_space a (inside_next hk (ih h))
  | case15 => simp [atNext] at h

theorem exists_written_of_skipValue {t rest : Text} (h : skipValue t = .ok rest) :
    ∃ (a : Space) (w : Written), t = a.val ++ (w.text ++ rest) := by
  obtain ⟨a, w, u, ht, rfl⟩ := finds_of_skipFrom h
  exact ⟨a, w, ht⟩

end CollectionTypes.Json
