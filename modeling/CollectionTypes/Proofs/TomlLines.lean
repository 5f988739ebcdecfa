import CollectionTypes.Proofs.Joining
import CollectionTypes.Proofs.TomlStrings
import Mathlib.Data.List.Forall2

/-!
# What the lines of a dump say

Each line of a written dump is taken as one header or one assignment, up to the end of the line.
Statements carry their places in the text, which have no influence on what they mean; the relations
below leave them open.
-/

namespace CollectionTypes.Toml

/-! ### Words and paths -/

/-- A key without quotes. -/
structure IsWord (w : Text) : Prop where
  ne_nil : w ≠ []
  isPlain : w.all (fun c => isWordPart c && !isQuote c) = true

theorem takeWhile_word {w rest : Text} (hw : ∀ c ∈ w, isWordPart c = true)
    (hr : ∀ c ∈ rest.head?, isWordPart c = false) :
    (w ++ rest).takeWhile isWordPart = w ∧ (w ++ rest).dropWhile isWordPart = rest := by
  have stop : rest.takeWhile isWordPart = [] ∧ rest.dropWhile isWordPart = rest := by
    cases rest with
    | nil => exact ⟨rfl, rfl⟩
    | cons c cs =>
      have hc := hr c rfl
      simp [hc]
  rw [List.takeWhile_append_of_pos hw, List.dropWhile_append_of_pos hw, stop.1, stop.2,
    List.append_nil]
  exact ⟨rfl, rfl⟩

theorem splitLexeme_word {w rest : Text} (hw : IsWord w)
    (hr : ∀ c ∈ rest.head?, isWordPart c = false) : splitLexeme (w ++ rest) = (w, rest) := by
  have plain : ∀ c ∈ w, isWordPart c = true ∧ isQuote c = false := by simpa using hw.isPlain
  obtain ⟨taken, dropped⟩ := takeWhile_word (fun c hc => (plain c hc).1) hr
  obtain ⟨c, cs, rfl⟩ := List.exists_cons_of_ne_nil hw.ne_nil
  have head := (plain c List.mem_cons_self).2
  unfold splitLexeme
  simp only [List.cons_append, head, Bool.false_eq_true, if_false] at taken dropped ⊢
  rw [taken, dropped]

theorem exists_takeKey {t w rest : Text} (h : splitLexeme t = (w, rest)) :
    ∃ extent, takeKey t = (⟨w, extent⟩, rest) := by
  unfold takeKey
  rw [h]
  exact ⟨_, rfl⟩

/-- A key that no point follows is a path. -/
theorem takePath_key {t rest : Text} {key : Lexeme} (h : takeKey t = (key, rest))
    (hr : (skipSpaces rest).head? ≠ some '.') : takePath t = (⟨[], key⟩, rest) := by
  rw [takePath]
  split
  next cs hs =>
    rw [h] at hs
    rw [hs] at hr
    exact absurd rfl hr
  next => rw [h]

/-- A key goes before the path after its point. -/
theorem takePath_point {t cs rest : Text} {key : Lexeme} {path : WrittenPath}
    (h : takeKey t = (key, '.' :: cs)) (hp : takePath (skipSpaces cs) = (path, rest)) :
    takePath t = (⟨key :: path.parents, path.last⟩, rest) := by
  have point : skipSpaces (takeKey t).2 = '.' :: cs := by
    rw [h]
    rfl
  rw [takePath]
  split
  next cs' hs =>
    rw [point, List.cons.injEq] at hs
    obtain ⟨_, rfl⟩ := hs
    dsimp only
    rw [hp, h]
  next hn => exact absurd point (hn cs)

theorem skipSpaces_of_head {t : Text} (h : ∀ c ∈ t.head?, isSpace c = false) :
    skipSpaces t = t := by
  cases t with
  | nil => rfl
  | cons c cs =>
    unfold skipSpaces
    rw [List.dropWhile_cons_of_neg]
    simp [h c rfl]

/-! ### Values -/

theorem takeValue_literal (depth : Nat) (l : Literal) {rest : Text} (h : rest.head? ≠ some '"') :
    takeValue depth (l.text ++ rest) = some (.scalar l.text, rest) := by
  have split := splitLexeme_literal l h
  rw [Literal.text_append] at split ⊢
  unfold takeValue
  simp only [splitScalar]
  rw [if_neg (by decide), if_neg (by decide), if_pos (by decide), split]

/-- A member of a table under a key, whatever its places. -/
def IsMember (m : WrittenMember) (key : Text) (w : Written) : Prop :=
  ∃ keyExtent extent, m = (⟨[], ⟨key, keyExtent⟩⟩, extent, w)

/-- A value that gives a signature. -/
inductive Gives (l : Literal) : Written → Prop
  | text : Gives l (.scalar l.text)
  | table {m : WrittenMember} :
    IsMember m signatureKey (.scalar l.text) → Gives l (.table [m])

/-- Characters at which no filler begins. -/
def IsContent (c : Char) : Prop :=
  isSpace c = false ∧ c ≠ '#' ∧ c ≠ '\n' ∧ c ≠ '\r'

instance : DecidablePred IsContent := fun c =>
  inferInstanceAs (Decidable (isSpace c = false ∧ c ≠ '#' ∧ c ≠ '\n' ∧ c ≠ '\r'))

theorem skipFiller_of_content {c : Char} (h : IsContent c) (cs : Text) :
    skipFiller (c :: cs) = c :: cs := by
  obtain ⟨hs, hc, hn, hr⟩ := h
  have comment : skipComment (c :: cs) = c :: cs := by
    unfold skipComment
    split
    next he => exact absurd (List.cons.inj he).1 hc
    next => rfl
  have newline : afterNewline? (c :: cs) = none := by
    unfold afterNewline?
    split
    next he => exact absurd (List.cons.inj he).1 hn
    next he => exact absurd (List.cons.inj he).1 hr
    next => rfl
  rw [skipFiller, hs]
  simp only [Bool.false_eq_true, if_false]
  split
  next r hr' =>
    rw [comment, newline] at hr'
    simp at hr'
  next => simp [comment]

theorem skipFiller_space (t : Text) : skipFiller (' ' :: t) = skipFiller t := by
  rw [skipFiller, if_pos (by decide)]

/-- An inline table with one member. -/
theorem takeItems_single {α : Type} {item : Text → Taken α} {close : Char} {a : α} {c : Char}
    {cs rest : Text} (hc : IsContent c) (hne : c ≠ close) (hclose : IsContent close)
    (hi : item (c :: cs) = some (a, ' ' :: close :: rest)) :
    takeItems close item (' ' :: c :: cs) = some ([a], rest) := by
  rw [takeItems, skipFiller_space, skipFiller_of_content hc]
  dsimp only
  rw [if_neg hne, hi]
  dsimp only
  rw [skipFiller_space, skipFiller_of_content hclose]
  dsimp only
  rw [if_pos rfl]

theorem exists_takeMember {t cs rest : Text} {key : Text} {keyExtent : Extent} {w : Written}
    {value : Text → Taken Written}
    (hp : takePath t = (⟨[], ⟨key, keyExtent⟩⟩, ' ' :: '=' :: ' ' :: cs))
    (hs : ∀ c ∈ cs.head?, isSpace c = false) (hv : value cs = some (w, rest)) :
    ∃ m, takeMember value t = some (m, rest) ∧ IsMember m key w := by
  have equals : skipSpaces (' ' :: '=' :: ' ' :: cs) = '=' :: ' ' :: cs := rfl
  have blank : skipSpaces (' ' :: cs) = cs := skipSpaces_of_head hs
  have taken : takeMember value t = (takeLocated value (skipSpaces (' ' :: cs))).map
      fun located => ((⟨[], ⟨key, keyExtent⟩⟩, located.1), located.2) := by
    unfold takeMember
    rw [hp]
    dsimp only
    rw [equals]
    rfl
  rw [taken, blank, takeLocated, hv]
  exact ⟨_, rfl, _, _, rfl⟩

theorem exists_takeInlineMember {t cs rest : Text} {key : Text} {keyExtent : Extent} {w : Written}
    {value : Text → Taken Written} {c : Char}
    (hp : takePath t = (⟨[], ⟨key, keyExtent⟩⟩, ' ' :: '=' :: ' ' :: c :: cs))
    (hc : IsContent c) (hb : c ≠ '\x7d') (hv : value (c :: cs) = some (w, rest))
    (hl : rest.length < (c :: cs).length) :
    ∃ m, takeInlineMember value t = some (m, rest) ∧ IsMember m key w := by
  have equals : skipFiller (' ' :: '=' :: ' ' :: c :: cs) = '=' :: ' ' :: c :: cs := by
    rw [skipFiller_space]
    exact skipFiller_of_content (by decide) _
  have blank : skipFiller (' ' :: c :: cs) = c :: cs := by
    rw [skipFiller_space]
    exact skipFiller_of_content hc cs
  have there : takeInlineValue value (c :: cs) = some (w, rest) := by
    unfold takeInlineValue takeSome
    rw [if_neg (by simpa using hb), hv]
    exact if_pos hl
  have taken : takeInlineMember value t =
      (takeLocated (takeInlineValue value) (skipFiller (' ' :: c :: cs))).map
        fun located => ((⟨[], ⟨key, keyExtent⟩⟩, located.1), located.2) := by
    unfold takeInlineMember
    rw [hp]
    dsimp only
    rw [equals]
    rfl
  rw [taken, blank, takeLocated, there]
  exact ⟨_, rfl, _, _, rfl⟩

/-- The path of an assignment is its key. -/
theorem exists_takePath_assigned {key t : Text} (h : ∃ extent,
    takeKey (key ++ ' ' :: '=' :: t) = (⟨key, extent⟩, ' ' :: '=' :: t)) :
    ∃ extent, takePath (key ++ ' ' :: '=' :: t) = (⟨[], ⟨key, extent⟩⟩, ' ' :: '=' :: t) := by
  obtain ⟨extent, hk⟩ := h
  have equals : skipSpaces (' ' :: '=' :: t) = '=' :: t := rfl
  refine ⟨extent, takePath_key hk ?_⟩
  rw [equals]
  simp

theorem exists_takeKey_word {w : Text} (hw : IsWord w) (t : Text) :
    ∃ extent, takeKey (w ++ ' ' :: '=' :: t) = (⟨w, extent⟩, ' ' :: '=' :: t) := by
  apply exists_takeKey
  apply splitLexeme_word hw
  rintro c ⟨⟩
  rfl

theorem exists_takeKey_literal (l : Literal) (t : Text) :
    ∃ extent, takeKey (l.text ++ ' ' :: '=' :: t) = (⟨l.text, extent⟩, ' ' :: '=' :: t) := by
  apply exists_takeKey
  apply splitLexeme_literal
  simp

theorem isWord_signatureKey : IsWord signatureKey := ⟨by decide, by decide⟩

theorem takeValue_table (depth : Nat) (t : Text) :
    takeValue (depth + 1) ('\x7b' :: t) =
      (takeItems '\x7d' (takeInlineMember (takeValue depth)) t).map
        fun (ms, r) => (.table ms, r) := by
  rw [takeValue, if_neg (by decide), if_pos rfl]

/-- The value of a definition is taken whole, in both of its forms. -/
theorem exists_takeValue (depth : Nat) (d : WrittenDefinition) {rest : Text}
    (h : rest.head? ≠ some '"') :
    ∃ w, takeValue (depth + 1) (d.valueText ++ rest) = some (w, rest) ∧ Gives d.signature w := by
  unfold WrittenDefinition.valueText
  cases d.inTable with
  | false => exact ⟨_, takeValue_literal (depth + 1) d.signature h, .text⟩
  | true =>
    -- The string ends at a blank, so it is taken as in a line, one bracket deeper.
    have braces : "\x7b signature = " ++ d.signature.text ++ " \x7d" ++ rest =
        '\x7b' :: ' ' :: (signatureKey ++ ' ' :: '=' :: ' ' ::
          (d.signature.text ++ ' ' :: '\x7d' :: rest)) := by
      rw [List.append_assoc, List.append_assoc]
      rfl
    have value : takeValue depth (d.signature.text ++ ' ' :: '\x7d' :: rest) =
        some (.scalar d.signature.text, ' ' :: '\x7d' :: rest) :=
      takeValue_literal depth d.signature (by simp)
    obtain ⟨extent, hp⟩ := exists_takePath_assigned (exists_takeKey_word isWord_signatureKey
      (' ' :: (d.signature.text ++ ' ' :: '\x7d' :: rest)))
    rw [Literal.text_append] at value hp
    obtain ⟨m, hm, member⟩ := exists_takeInlineMember hp (by decide) (by decide) value (by
      simp only [List.length_cons, List.length_append]
      omega)
    have first : IsContent 's' := by decide
    have last : IsContent '\x7d' := by decide
    have items := takeItems_single first (by decide) last hm
    refine ⟨.table [m], ?_, .table member⟩
    rw [if_pos rfl, braces, Literal.text_append, takeValue_table]
    exact congrArg (Option.map _) items

/-! ### Statements -/

/-- What may stand after a line, and what follows its end. -/
inductive Ends : Text → Text → Prop
  | last : Ends [] []
  | newline (t : Text) : Ends ('\n' :: t) t

/-- What a line says, whatever its places. -/
inductive WrittenLine.Yields : WrittenLine → Statement → Prop
  | element {keyExtent extent : Extent} :
    Yields .element (.header ⟨true, ⟨[], ⟨collectionsKey, keyExtent⟩⟩, extent⟩)
  | name {l : Literal} {m : WrittenMember} :
    IsMember m CollectionParts.nameKey (.scalar l.text) → Yields (.name l) (.assignment m)
  | part {p : Part} {parentExtent keyExtent extent : Extent} :
    Yields (.part p)
      (.header ⟨false, ⟨[⟨collectionsKey, parentExtent⟩], ⟨p.key, keyExtent⟩⟩, extent⟩)
  | definition {d : WrittenDefinition} {m : WrittenMember} {w : Written} :
    IsMember m d.key.text w → Gives d.signature w → Yields (.definition d) (.assignment m)

theorem Ends.head?_ne {rest next : Text} (h : Ends rest next) {c : Char} (hc : c ≠ '\n') :
    rest.head? ≠ some c := by
  cases h with
  | last => simp
  | newline t => simpa using hc.symm

theorem Ends.afterLine?_eq {rest next : Text} (h : Ends rest next) :
    afterLine? rest = some next := by
  cases h with
  | last => rfl
  | newline t => rfl

/-- The first key of a header, before a bracket or a point. -/
theorem exists_takeKey_header {key t : Text} (hw : IsWord key)
    (ht : ∀ c ∈ t.head?, c = ']' ∨ c = '.') :
    ∃ extent, takeKey (key ++ t) = (⟨key, extent⟩, t) := by
  apply exists_takeKey
  apply splitLexeme_word hw
  intro c hc
  rcases ht c hc with rfl | rfl
  · decide
  · decide

theorem isWord_collectionsKey : IsWord collectionsKey := ⟨by decide, by decide⟩

theorem isWord_partKey (p : Part) : IsWord p.key := by
  cases p with
  | fields => exact ⟨by decide, by decide⟩
  | computedFields => exact ⟨by decide, by decide⟩

theorem exists_takeStatement_header {t rest : Text} {isElement : Bool} {path : WrittenPath}
    {extent : Extent} (h : takeHeader t = some (⟨isElement, path, extent⟩, rest))
    (ht : t.head? = some '[') :
    takeStatement t = some (some (.header ⟨isElement, path, extent⟩), rest) := by
  cases t with
  | nil => simp at ht
  | cons c cs =>
    obtain rfl := Option.some.inj ht
    unfold takeStatement
    dsimp only
    rw [if_pos rfl, h]
    rfl

theorem exists_takeStatement_element (rest : Text) :
    ∃ s, takeStatement (WrittenLine.element.text ++ rest) = some (some s, rest) ∧
      WrittenLine.element.Yields s := by
  obtain ⟨keyExtent, hk⟩ := exists_takeKey_header isWord_collectionsKey
    (show ∀ c ∈ (']' :: ']' :: rest).head?, c = ']' ∨ c = '.' by simp)
  have closing : skipSpaces (']' :: ']' :: rest) = ']' :: ']' :: rest := rfl
  have path := takePath_key hk (by simp [closing])
  have taken : takeHeader (WrittenLine.element.text ++ rest) =
      (afterHeader? true (takePath (collectionsKey ++ ']' :: ']' :: rest)).1
        (skipSpaces (takePath (collectionsKey ++ ']' :: ']' :: rest)).2)).map fun r =>
          (⟨true, (takePath (collectionsKey ++ ']' :: ']' :: rest)).1,
            .between (WrittenLine.element.text ++ rest) r⟩, r) := rfl
  rw [path] at taken
  exact ⟨_, exists_takeStatement_header taken rfl, .element⟩

theorem takeHeader_table {t : Text} (h : t.head? ≠ some '[') :
    takeHeader ('[' :: t) =
      (afterHeader? false (takePath (skipSpaces t)).1 (skipSpaces (takePath (skipSpaces t)).2)).map
        fun r => (⟨false, (takePath (skipSpaces t)).1, .between ('[' :: t) r⟩, r) := by
  unfold takeHeader
  split
  next isElement start he =>
    split at he
    next heq =>
      rw [(List.cons.inj heq).2] at h
      exact absurd rfl h
    next =>
      obtain ⟨rfl, rfl⟩ := Prod.mk.inj he
      rfl

theorem exists_takeStatement_part (p : Part) (rest : Text) :
    ∃ s, takeStatement ((WrittenLine.part p).text ++ rest) = some (some s, rest) ∧
      (WrittenLine.part p).Yields s := by
  obtain ⟨keyExtent, hl⟩ := exists_takeKey_header (isWord_partKey p)
    (show ∀ c ∈ (']' :: rest).head?, c = ']' ∨ c = '.' by simp)
  obtain ⟨parentExtent, hk⟩ := exists_takeKey_header isWord_collectionsKey
    (show ∀ c ∈ ('.' :: (p.key ++ ']' :: rest)).head?, c = ']' ∨ c = '.' by simp)
  have closing : skipSpaces (']' :: rest) = ']' :: rest := rfl
  have start : skipSpaces (p.key ++ ']' :: rest) = p.key ++ ']' :: rest := by
    cases p with
    | fields => rfl
    | computedFields => rfl
  have last := takePath_key hl (by simp [closing])
  rw [← start] at last
  have path := takePath_point hk last
  have brackets : (WrittenLine.part p).text ++ rest =
      '[' :: (collectionsKey ++ '.' :: (p.key ++ ']' :: rest)) := by
    show "[collections." ++ p.key ++ "]" ++ rest = _
    rw [List.append_assoc, List.append_assoc]
    rfl
  have first : skipSpaces (collectionsKey ++ '.' :: (p.key ++ ']' :: rest)) =
      collectionsKey ++ '.' :: (p.key ++ ']' :: rest) := rfl
  have head : (collectionsKey ++ '.' :: (p.key ++ ']' :: rest)).head? ≠ some '[' := by
    show some 'c' ≠ some '['
    decide
  have taken := takeHeader_table head
  rw [first, path] at taken
  rw [brackets]
  exact ⟨_, exists_takeStatement_header taken rfl, .part⟩

theorem takeStatement_assignment {c : Char} {cs rest : Text} {m : WrittenMember}
    (hb : c ≠ '[') (hc : IsContent c)
    (h : takeMember (takeValue maxDepth) (c :: cs) = some (m, rest)) :
    takeStatement (c :: cs) = some (some (.assignment m), rest) := by
  obtain ⟨_, hash, feed, carriage⟩ := hc
  unfold takeStatement
  dsimp only
  rw [if_neg hb, if_neg (by simp [hash, feed, carriage]), h]
  rfl

theorem exists_takeStatement_name (l : Literal) {rest next : Text} (h : Ends rest next) :
    ∃ s, takeStatement ((WrittenLine.name l).text ++ rest) = some (some s, rest) ∧
      (WrittenLine.name l).Yields s := by
  have word : IsWord CollectionParts.nameKey := ⟨by decide, by decide⟩
  have line : (WrittenLine.name l).text ++ rest =
      CollectionParts.nameKey ++ ' ' :: '=' :: ' ' :: (l.text ++ rest) := by
    show "name = " ++ l.text ++ rest = _
    rw [List.append_assoc]
    rfl
  obtain ⟨extent, hp⟩ := exists_takePath_assigned
    (exists_takeKey_word word (' ' :: (l.text ++ rest)))
  have value := takeValue_literal maxDepth l (h.head?_ne (show '"' ≠ '\n' by decide))
  have quote : ∀ c ∈ (l.text ++ rest).head?, isSpace c = false := by
    rintro c ⟨⟩
    rfl
  obtain ⟨m, hm, member⟩ := exists_takeMember hp quote value
  rw [line]
  have first : IsContent 'n' := by decide
  exact ⟨_, takeStatement_assignment (by decide) first hm, .name member⟩

theorem exists_takeStatement_definition (d : WrittenDefinition) {rest next : Text}
    (h : Ends rest next) :
    ∃ s, takeStatement ((WrittenLine.definition d).text ++ rest) = some (some s, rest) ∧
      (WrittenLine.definition d).Yields s := by
  have line : (WrittenLine.definition d).text ++ rest =
      d.key.text ++ ' ' :: '=' :: ' ' :: (d.valueText ++ rest) := by
    show d.key.text ++ " = " ++ d.valueText ++ rest = _
    rw [List.append_assoc, List.append_assoc]
    rfl
  obtain ⟨extent, hp⟩ := exists_takePath_assigned
    (exists_takeKey_literal d.key (' ' :: (d.valueText ++ rest)))
  obtain ⟨w, value, gives⟩ := exists_takeValue 79 d (h.head?_ne (show '"' ≠ '\n' by decide))
  have start : ∀ c ∈ (d.valueText ++ rest).head?, isSpace c = false := by
    unfold WrittenDefinition.valueText
    cases d.inTable with
    | false =>
      rintro c ⟨⟩
      rfl
    | true =>
      rintro c ⟨⟩
      rfl
  obtain ⟨m, hm, member⟩ := exists_takeMember hp start value
  rw [line]
  exact ⟨_, takeStatement_assignment (by decide) (by decide) hm, .definition member gives⟩

/-- A line is taken as one statement, up to its end. -/
theorem exists_takeStatement (line : WrittenLine) {rest next : Text} (h : Ends rest next) :
    ∃ s, takeStatement (line.text ++ rest) = some (some s, rest) ∧ line.Yields s := by
  cases line with
  | element => exact exists_takeStatement_element rest
  | name l => exact exists_takeStatement_name l h
  | part p => exact exists_takeStatement_part p rest
  | definition d => exact exists_takeStatement_definition d h

/-! ### Documents -/

theorem exists_head (line : WrittenLine) :
    ∃ c cs, line.text = c :: cs ∧ isSpace c = false ∧ c ≠ '\uFEFF' := by
  cases line with
  | element => exact ⟨_, _, rfl, by decide, by decide⟩
  | name l => exact ⟨_, _, rfl, by decide, by decide⟩
  | part p => exact ⟨_, _, rfl, by decide, by decide⟩
  | definition d => exact ⟨_, _, rfl, by decide, by decide⟩

theorem statements?_nil : statements? [] = some [] := by
  rw [statements?]
  rfl

theorem statements?_taken {t rest : Text} {s : Option Statement} (h : takeLine t = some (s, rest))
    (hl : rest.length < t.length) :
    statements? t = (statements? rest).map fun ss => s.toList ++ ss := by
  rw [statements?, h]
  dsimp only
  by_cases he : rest.isEmpty = true
  · obtain rfl := List.isEmpty_iff.1 he
    rw [if_pos (by rfl), statements?_nil, Option.map_some, List.append_nil]
  · rw [if_neg he, if_pos hl]

theorem Ends.length_le {rest next : Text} (h : Ends rest next) : next.length ≤ rest.length := by
  cases h with
  | last => exact Nat.le_refl _
  | newline t => exact Nat.le_succ _

/-- An empty line says nothing. -/
theorem statements?_empty {rest next : Text} (h : Ends rest next) :
    statements? rest = statements? next := by
  cases h with
  | last => rfl
  | newline =>
    have taken : takeLine ('\n' :: next) = some (none, next) := rfl
    rw [statements?_taken taken (Nat.lt_succ_self _)]
    exact Option.map_id'

theorem exists_statements?_line (line : WrittenLine) {rest next : Text} (h : Ends rest next) :
    ∃ s, line.Yields s ∧
      statements? (line.text ++ rest) = (statements? next).map fun ss => s :: ss := by
  obtain ⟨s, hs, yields⟩ := exists_takeStatement line h
  obtain ⟨c, cs, head, space, _⟩ := exists_head line
  have start : skipSpaces (line.text ++ rest) = line.text ++ rest := by
    apply skipSpaces_of_head
    rw [head]
    rintro _ ⟨⟩
    exact space
  have taken : takeLine (line.text ++ rest) = some (some s, next) := by
    unfold takeLine
    rw [start, hs]
    dsimp only
    rw [h.afterLine?_eq]
    rfl
  have shorter : next.length < (line.text ++ rest).length := by
    have le := h.length_le
    rw [head, List.cons_append, List.length_cons, List.length_append]
    omega
  exact ⟨s, yields, statements?_taken taken shorter⟩

/-- The first line of a text, and what stands after it. -/
theorem exists_ends (t : Text) (ts : List Text) :
    ∃ rest, ['\n'].intercalate (t :: ts) = t ++ rest ∧ Ends rest (['\n'].intercalate ts) := by
  cases ts with
  | nil => exact ⟨[], by simp, .last⟩
  | cons u us => exact ⟨_, by rw [List.intercalate_cons_cons, List.append_assoc]; rfl, .newline _⟩

/-- The lines that are not empty are taken as one statement each, in order. -/
theorem exists_statements?_lines {ts : List Text} {lines : List WrittenLine}
    (h : ts.filter (· ≠ []) = lines.map WrittenLine.text) :
    ∃ ss, statements? (['\n'].intercalate ts) = some ss ∧
      List.Forall₂ WrittenLine.Yields lines ss := by
  -- An empty line uses up none of the lines of the dump, so these are left open.
  induction ts generalizing lines with
  | nil =>
    have none : lines = [] := List.map_eq_nil_iff.1 h.symm
    rw [none]
    exact ⟨[], statements?_nil, .nil⟩
  | cons t ts ih =>
    obtain ⟨rest, text, ends⟩ := exists_ends t ts
    rw [text]
    by_cases ht : t = []
    · rw [List.filter_cons_of_neg (by simpa using ht)] at h
      rw [ht, List.nil_append, statements?_empty ends]
      exact ih h
    · rw [List.filter_cons_of_pos (by simpa using ht)] at h
      cases lines with
      | nil => simp at h
      | cons line lines =>
        obtain ⟨rfl, hts⟩ := List.cons.inj h
        obtain ⟨ss, hss, all⟩ := ih hts
        obtain ⟨s, yields, hs⟩ := exists_statements?_line line ends
        rw [hs, hss]
        exact ⟨s :: ss, rfl, .cons yields all⟩

theorem skipMark_of_lines {ts : List Text} {lines : List WrittenLine}
    (h : ts.filter (· ≠ []) = lines.map WrittenLine.text) :
    skipMark (['\n'].intercalate ts) = ['\n'].intercalate ts := by
  cases ts with
  | nil => rfl
  | cons t ts =>
    obtain ⟨rest, text, ends⟩ := exists_ends t ts
    rw [text]
    by_cases ht : t = []
    · rw [ht, List.nil_append]
      generalize ['\n'].intercalate ts = next at ends
      cases ends with
      | last => rfl
      | newline => rfl
    · -- The text starts with a line of the dump, and none of these starts with a mark.
      have member : t ∈ lines.map WrittenLine.text := by
        rw [← h, List.mem_filter]
        exact ⟨List.mem_cons_self, by simpa using ht⟩
      obtain ⟨line, _, rfl⟩ := List.mem_map.1 member
      obtain ⟨c, cs, head, _, mark⟩ := exists_head line
      rw [head, List.cons_append]
      unfold skipMark
      split
      next he => exact absurd (List.cons.inj he).1 mark
      next => rfl

/-- A dump is taken apart into the statements that its lines make. -/
theorem exists_statements?_dump {ws : List WrittenCollection} {text : Text}
    (h : IsDump ws text) :
    ∃ ss, statements? (skipMark text) = some ss ∧
      List.Forall₂ WrittenLine.Yields (ws.flatMap WrittenCollection.lines) ss := by
  have joined : ['\n'].intercalate (List.splitOn '\n' text) = text := List.intercalate_splitOn '\n'
  have unmarked := skipMark_of_lines h
  have found := exists_statements?_lines h
  rw [joined] at unmarked found
  rw [unmarked]
  exact found

end CollectionTypes.Toml
