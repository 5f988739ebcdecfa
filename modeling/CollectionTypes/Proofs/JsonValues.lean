import CollectionTypes.Json.Value
import CollectionTypes.Proofs.JsonSkipping
import Mathlib.Data.List.Forall2

/-!
# Lists, objects and values are read as written

A reader of values is sound for a relation if what it takes is blanks and one written value, to
which its result is related; it accepts a written value if it takes it in front of any text that
does not continue a number. Both pass from a reader to the lists and objects of what it reads, and
from there to `takeValue`: it takes written values only, and all those that are plain and no deeper
than it allows.
-/

namespace CollectionTypes.Json

/-- What a reader takes is blanks and one value, to which its result is related. -/
def Sound {α : Type} (take : Text → Taken α) (R : Written → α → Prop) : Prop :=
  ∀ ⦃t : Text⦄ ⦃x : α⦄ ⦃rest : Text⦄, take t = .ok (x, rest) →
    ∃ (a : Space) (w : Written), t = a.val ++ (w.text ++ rest) ∧ R w x

/-- A reader takes a value for `x`, in front of any text that does not continue a number. -/
def Accepts {α : Type} (take : Text → Taken α) (w : Written) (x : α) : Prop :=
  ∀ (a : Space) ⦃t : Text⦄, endsNumber t = true → take (a.val ++ (w.text ++ t)) = .ok (x, t)

/-! ### Brackets -/

theorem closeList_eq {t rest : Text} (h : closeList t = (rest, none)) :
    ∃ a : Space, t = a.val ++ ']' :: rest := by
  unfold closeList at h
  split at h
  next => simp at h
  next c cs hc =>
    split at h
    next he =>
      obtain ⟨rfl, _⟩ := Prod.mk.inj h
      rw [he] at hc
      exact exists_space_of_skipSpace hc
    next =>
      split at h
      next =>
        simp only at h
        split at h <;> simp at h
      next => simp at h

theorem closeList_closing (a : Space) (t : Text) : closeList (a.val ++ ']' :: t) = (t, none) := by
  rw [closeList, skipSpace_append_cons a (by decide)]
  rfl

theorem closeObject_closing (t : Text) : closeObject ('}' :: t) = (t, none) := rfl

theorem ok_of_enclosed {α : Type} {close : Text → Text × Option Fault} {inside : Taken α} {x : α}
    {rest : Text} (h : enclosed close inside = .ok (x, rest)) :
    ∃ t, inside = .ok (x, t) ∧ close t = (rest, none) := by
  unfold enclosed at h
  split at h
  next y t =>
    split at h
    next r hr =>
      obtain ⟨rfl, rfl⟩ := Prod.mk.inj (Except.ok.inj h)
      exact ⟨t, rfl, hr⟩
    next => simp at h
  next => simp at h
  next => simp at h

theorem enclosed_ok {α : Type} {close : Text → Text × Option Fault} {x : α} {t rest : Text}
    (h : close t = (rest, none)) : enclosed close (.ok (x, t)) = .ok (x, rest) := by
  simp [enclosed, h]

/-! ### Elements -/

theorem nextElement_closing (first : Bool) (a : Space) (t : Text) :
    nextElement first (a.val ++ ']' :: t) = .ok (.done (']' :: t)) := by
  rw [nextElement, skipSpace_append_cons a (by decide)]
  rfl

theorem nextElement_more (first : Bool) (a b : Space) {c : Char} (hs : isSpace c = false)
    (hc : c ≠ ']') (t : Text) :
    nextElement first (a.val ++ (lead first ++ (b.val ++ c :: t))) = .ok (.more (c :: t)) := by
  cases first with
  | true =>
    rw [nextElement, skipSpace_append, lead, if_pos rfl, List.nil_append,
      skipSpace_append_cons b hs]
    simp [hc]
  | false =>
    rw [nextElement, skipSpace_append]
    simp [lead, skipSpace_cons (show isSpace ',' = false by decide), skipSpace_append_cons b hs, hc]

theorem done_of_nextElement {first : Bool} {t rest : Text}
    (h : nextElement first t = .ok (.done rest)) :
    ∃ (a : Space) (u : Text), t = a.val ++ rest ∧ rest = ']' :: u := by
  unfold nextElement at h
  split at h
  next => simp [atNext] at h
  next c cs hc =>
    split at h
    next he =>
      obtain ⟨a, rfl⟩ := exists_space_of_skipSpace hc
      obtain rfl := Next.done.inj (Except.ok.inj h)
      exact ⟨a, cs, rfl, by rw [he]⟩
    next =>
      split at h
      next => simp at h
      next =>
        split at h
        next =>
          split at h
          next => simp [atNext] at h
          next => split at h <;> simp [atNext] at h
        next => simp [atNext] at h

theorem more_of_nextElement {first : Bool} {t rest : Text}
    (h : nextElement first t = .ok (.more rest)) :
    ∃ a b : Space, t = a.val ++ (lead first ++ (b.val ++ rest)) := by
  unfold nextElement at h
  split at h
  next => simp [atNext] at h
  next c cs hc =>
    obtain ⟨a, rfl⟩ := exists_space_of_skipSpace hc
    split at h
    next => simp at h
    next =>
      split at h
      next hf =>
        obtain rfl := Next.more.inj (Except.ok.inj h)
        exact ⟨a, .none, by simp [lead, hf]⟩
      next hf =>
        split at h
        next hcomma =>
          split at h
          next => simp [atNext] at h
          next d ds hd =>
            obtain ⟨b, rfl⟩ := exists_space_of_skipSpace hd
            split at h
            next => simp [atNext] at h
            next =>
              obtain rfl := Next.more.inj (Except.ok.inj h)
              exact ⟨a, b, by simp [lead, hf, hcomma]⟩
        next => simp [atNext] at h

section Elements

variable {α : Type} {element : Text → Taken α} {xs : List α}

/-- What is taken as the elements of a list is elements with commas between them. -/
theorem exists_elements_of_takeElements {R : Written → α → Prop} (he : Sound element R)
    {first : Bool} {t rest : Text} (h : takeElements element first t = .ok (xs, rest)) :
    ∃ (a : Space) (es : List (Element Written)) (u : Text),
      t = a.val ++ (separated first (es.map Element.text) ++ rest) ∧ rest = ']' :: u ∧
        List.Forall₂ (fun e x => R e.value x) es xs := by
  fun_induction takeElements element first t generalizing xs with
  | case1 => simp at h
  | case2 first t r hn =>
    obtain ⟨rfl, rfl⟩ := Prod.mk.inj (Except.ok.inj h)
    obtain ⟨a, u, rfl, hu⟩ := done_of_nextElement hn
    exact ⟨a, [], u, rfl, hu, .nil⟩
  | case3 => simp at h
  | case4 first t r hn x r' hx _ ih =>
    obtain ⟨xs, hxs, rfl⟩ := eq_of_map_eq_ok h
    obtain ⟨a, b, rfl⟩ := more_of_nextElement hn
    obtain ⟨c, w, rfl, hw⟩ := he hx
    obtain ⟨after, es, u, rfl, hu, hes⟩ := ih hxs
    refine ⟨a, ⟨b.append c, w, after⟩ :: es, u, ?_, hu, .cons hw hes⟩
    simp [separated_cons, Element.text]
  | case5 => simp [atNext] at h

theorem takeElements_separated {es : List (Element Written)}
    (h : List.Forall₂ (fun e x => Accepts element e.value x) es xs) (first : Bool) (a : Space)
    (t : Text) :
    takeElements element first (a.val ++ (separated first (es.map Element.text) ++ ']' :: t)) =
      .ok (xs, ']' :: t) := by
  induction h generalizing first a with
  | nil =>
    rw [takeElements, List.map_nil, separated_nil, List.nil_append, nextElement_closing]
  | @cons e x es xs hx _ ih =>
    -- the list goes on because the element starts with no closing bracket
    obtain ⟨c, cs, hv, hs, hc⟩ := e.value.text_cases
    have ht : endsNumber (separated false (es.map Element.text) ++ ']' :: t) = true :=
      endsNumber_separated .list _ t
    have taken := hx .none (endsNumber_space_append e.after ht)
    rw [Space.val_none, List.nil_append, hv] at taken
    have next := nextElement_more first a e.before hs (hc .list)
      (cs ++ (e.after.val ++ (separated false (es.map Element.text) ++ ']' :: t)))
    rw [List.map_cons, separated_cons, Element.text, hv, takeElements]
    simp only [List.append_assoc, List.cons_append] at next taken ⊢
    rw [next]
    simp only
    rw [taken]
    simp only [ih false e.after, Except.map]
    rw [if_pos]
    simp only [List.length_append, List.length_cons]
    omega

/-- A list of elements that are related to what an element reader takes. -/
def ListOf (R : Written → α → Prop) (w : Written) (xs : List α) : Prop :=
  ∃ (blank : Space) (es : List (Element Written)),
    w = .list blank es ∧ List.Forall₂ (fun e x => R e.value x) es xs

theorem exists_list_of_enclosed {R : Written → α → Prop} (he : Sound element R) {t rest : Text}
    (h : enclosed closeList (takeElements element true t) = .ok (xs, rest)) :
    ∃ w : Written, '[' :: t = w.text ++ rest ∧ ListOf R w xs := by
  obtain ⟨u, hu, hr⟩ := ok_of_enclosed h
  obtain ⟨a, es, v, rfl, rfl, hes⟩ := exists_elements_of_takeElements he hu
  refine ⟨.list a es, ?_, a, es, rfl, hes⟩
  obtain rfl : v = rest := (Prod.mk.inj hr).1
  rw [text_list_append]

theorem enclosed_takeElements {es : List (Element Written)}
    (h : List.Forall₂ (fun e x => Accepts element e.value x) es xs) (blank : Space) (t : Text) :
    enclosed closeList (takeElements element true
      (blank.val ++ (separated true (es.map Element.text) ++ ']' :: t))) = .ok (xs, t) := by
  rw [takeElements_separated h true blank t]
  exact enclosed_ok (closeList_closing .none t)

end Elements

/-! ### Members -/

theorem takeKey_closing (first : Bool) (a : Space) (t : Text) :
    takeKey first (a.val ++ '}' :: t) = .ok (none, '}' :: t) := by
  have h : nextMember first (a.val ++ '}' :: t) = .ok (.done ('}' :: t)) := by
    rw [nextMember, skipSpace_append_cons a (by decide)]
    rfl
  rw [takeKey, h]

theorem takeKey_literal (first : Bool) (a b : Space) {l : Literal} {key : Text}
    (hl : l.decode = some key) (t : Text) :
    takeKey first (a.val ++ (lead first ++ (b.val ++ (l.text ++ t)))) = .ok (some key, t) := by
  have quote : isSpace '"' = false := by decide
  have h : nextMember first (a.val ++ (lead first ++ (b.val ++ '"' :: (l.body ++ '"' :: t)))) =
      .ok (.more ('"' :: (l.body ++ '"' :: t))) := by
    cases first with
    | true => simp [nextMember, skipSpace_append, lead, skipSpace_cons quote]
    | false =>
      simp [nextMember, skipSpace_append, lead, skipSpace_cons quote,
        skipSpace_cons (show isSpace ',' = false by decide)]
  have ht : l.text ++ t = '"' :: (l.body ++ '"' :: t) := by simp [Literal.text]
  rw [ht, takeKey, h]
  simp [takeString_body hl, Except.map]

theorem done_of_nextMember {first : Bool} {t rest : Text}
    (h : nextMember first t = .ok (.done rest)) :
    ∃ (a : Space) (u : Text), t = a.val ++ rest ∧ rest = '}' :: u := by
  unfold nextMember at h
  split at h
  next => simp [atNext] at h
  next c cs hc =>
    split at h
    next he =>
      obtain ⟨a, rfl⟩ := exists_space_of_skipSpace hc
      obtain rfl := Next.done.inj (Except.ok.inj h)
      exact ⟨a, cs, rfl, by rw [he]⟩
    next =>
      split at h
      next => split at h <;> simp [atNext] at h
      next =>
        split at h
        next =>
          split at h
          next => simp [atNext] at h
          next => split_ifs at h <;> simp [atNext] at h
        next => simp [atNext] at h

theorem more_of_nextMember {first : Bool} {t rest : Text}
    (h : nextMember first t = .ok (.more rest)) :
    ∃ (a b : Space) (u : Text), t = a.val ++ (lead first ++ (b.val ++ rest)) ∧
      rest = '"' :: u := by
  unfold nextMember at h
  split at h
  next => simp [atNext] at h
  next c cs hc =>
    obtain ⟨a, rfl⟩ := exists_space_of_skipSpace hc
    split at h
    next => simp at h
    next =>
      split at h
      next hf =>
        split at h
        next hq =>
          obtain rfl := Next.more.inj (Except.ok.inj h)
          exact ⟨a, .none, cs, by simp [lead, hf], by rw [hq]⟩
        next => simp [atNext] at h
      next hf =>
        split at h
        next hcomma =>
          split at h
          next => simp [atNext] at h
          next d ds hd =>
            obtain ⟨b, rfl⟩ := exists_space_of_skipSpace hd
            split_ifs at h with hq
            · obtain rfl := Next.more.inj (Except.ok.inj h)
              exact ⟨a, b, ds, by simp [lead, hf, hcomma], by rw [hq]⟩
            · simp [atNext] at h
            · simp [atNext] at h
        next => simp [atNext] at h

theorem closing_of_takeKey {first : Bool} {t rest : Text} (h : takeKey first t = .ok (none, rest)) :
    ∃ (a : Space) (u : Text), t = a.val ++ rest ∧ rest = '}' :: u := by
  unfold takeKey at h
  split at h
  next => simp at h
  next r hr =>
    obtain rfl := (Prod.mk.inj (Except.ok.inj h)).2
    exact done_of_nextMember hr
  next =>
    obtain ⟨_, _, hn⟩ := eq_of_map_eq_ok h
    exact absurd hn (by simp)

theorem literal_of_takeKey {first : Bool} {t rest key : Text}
    (h : takeKey first t = .ok (some key, rest)) :
    ∃ (a b : Space) (l : Literal),
      t = a.val ++ (lead first ++ (b.val ++ (l.text ++ rest))) ∧ l.decode = some key := by
  unfold takeKey at h
  split at h
  next => simp at h
  next => simp at h
  next r hr =>
    obtain ⟨a, b, u, rfl, rfl⟩ := more_of_nextMember hr
    obtain ⟨s, hs, he⟩ := eq_of_map_eq_ok h
    obtain rfl := Option.some.inj he
    obtain ⟨l, hu, hl⟩ := exists_literal_of_takeString hs
    have hu : u = l.body ++ '"' :: rest := hu
    exact ⟨a, b, l, by simp [hu, Literal.text], hl⟩

/-- Members with text keys lead from one state to another, step by step. -/
inductive Chain {σ : Type} (R : σ → Text → Written → σ → Prop) :
    σ → List (Member Written) → σ → Prop
  | nil (s : σ) : Chain R s [] s
  | cons {s s' s'' : σ} {m : Member Written} {ms : List (Member Written)} {key : Text} :
    m.key.decode = some key → R s key m.value s' → Chain R s' ms s'' → Chain R s (m :: ms) s''

section Members

variable {σ : Type} {member : σ → Text → Text → Taken σ}

/-- What a reader of members takes after a key is a colon and one value. -/
def SoundMember (member : σ → Text → Text → Taken σ) (R : σ → Text → Written → σ → Prop) : Prop :=
  ∀ ⦃s : σ⦄ ⦃key t : Text⦄ ⦃s' : σ⦄ ⦃rest : Text⦄, member s key t = .ok (s', rest) →
    ∃ (between a : Space) (w : Written),
      t = between.val ++ ':' :: (a.val ++ (w.text ++ rest)) ∧ R s key w s'

theorem exists_value_of_skipColon {α : Type} {take : Text → Taken α} {R : Written → α → Prop}
    (hs : Sound take R) {t u rest : Text} {x : α} (hc : skipColon t = .ok u)
    (h : take u = .ok (x, rest)) :
    ∃ (between a : Space) (w : Written),
      t = between.val ++ ':' :: (a.val ++ (w.text ++ rest)) ∧ R w x := by
  obtain ⟨between, rfl⟩ := exists_space_of_skipColon hc
  obtain ⟨a, w, rfl, hw⟩ := hs h
  exact ⟨between, a, w, rfl, hw⟩

/-- A value after a colon, whose reading is stored by `f`. -/
def takeAfterColon {α β : Type} (take : Text → Taken α) (f : α → β) (t : Text) : Taken β :=
  match skipColon t with
  | .error e => .error e
  | .ok rest => (take rest).map fun (x, r) => (f x, r)

theorem exists_value_of_takeAfterColon {α β : Type} {take : Text → Taken α}
    {R : Written → α → Prop} (hs : Sound take R) {f : α → β} {t rest : Text} {y : β}
    (h : takeAfterColon take f t = .ok (y, rest)) :
    ∃ (between a : Space) (w : Written) (x : α),
      t = between.val ++ ':' :: (a.val ++ (w.text ++ rest)) ∧ R w x ∧ f x = y := by
  unfold takeAfterColon at h
  split at h
  next => simp at h
  next u hu =>
    obtain ⟨x, hx, hy⟩ := eq_of_map_eq_ok h
    obtain ⟨between, a, w, rfl, hw⟩ := exists_value_of_skipColon hs hu hx
    exact ⟨between, a, w, x, rfl, hw, hy⟩

theorem Accepts.takeAfterColon {α β : Type} {take : Text → Taken α} {w : Written} {x : α}
    (h : Accepts take w x) (f : α → β) (between a : Space) {t : Text}
    (ht : endsNumber t = true) :
    takeAfterColon take f (between.val ++ ':' :: (a.val ++ (w.text ++ t))) = .ok (f x, t) := by
  rw [Json.takeAfterColon, skipColon_between]
  simp only
  rw [h a ht]
  rfl

/-- A reader of members takes a colon and a value, and goes from one state to another. -/
def AcceptsMember (member : σ → Text → Text → Taken σ) (s : σ) (key : Text) (w : Written)
    (s' : σ) : Prop :=
  ∀ (between a : Space) ⦃t : Text⦄, endsNumber t = true →
    member s key (between.val ++ ':' :: (a.val ++ (w.text ++ t))) = .ok (s', t)

theorem exists_members_of_takeMembers {R : σ → Text → Written → σ → Prop}
    (hm : SoundMember member R) {s s' : σ} {first : Bool} {t rest : Text}
    (h : takeMembers member s first t = .ok (s', rest)) :
    ∃ (a : Space) (ms : List (Member Written)) (u : Text),
      t = a.val ++ (separated first (ms.map Member.text) ++ rest) ∧ rest = '}' :: u ∧
        Chain R s ms s' := by
  fun_induction takeMembers member s first t with
  | case1 => simp at h
  | case2 s first t r hk =>
    obtain ⟨rfl, rfl⟩ := Prod.mk.inj (Except.ok.inj h)
    obtain ⟨a, u, rfl, hu⟩ := closing_of_takeKey hk
    exact ⟨a, [], u, rfl, hu, .nil s⟩
  | case3 => simp at h
  | case4 s first t key r hk s₁ r' hs _ ih =>
    obtain ⟨a, b, l, rfl, hl⟩ := literal_of_takeKey hk
    obtain ⟨between, c, w, rfl, hw⟩ := hm hs
    obtain ⟨after, ms, u, rfl, hu, hms⟩ := ih h
    refine ⟨a, ⟨b, l, between, ⟨c, w, after⟩⟩ :: ms, u, ?_, hu, .cons hl hw hms⟩
    simp [separated_cons, Member.text, Element.text]
  | case5 => simp [atNext] at h

theorem takeMembers_separated {s s' : σ} {ms : List (Member Written)}
    (h : Chain (AcceptsMember member) s ms s') (first : Bool) (a : Space) (t : Text) :
    takeMembers member s first (a.val ++ (separated first (ms.map Member.text) ++ '}' :: t)) =
      .ok (s', '}' :: t) := by
  induction h generalizing first a with
  | nil s => rw [takeMembers, List.map_nil, separated_nil, List.nil_append, takeKey_closing]
  | @cons s s₁ s₂ m ms key hk hm _ ih =>
    have ht : endsNumber (separated false (ms.map Member.text) ++ '}' :: t) = true :=
      endsNumber_separated .object _ t
    have taken := hm m.between m.element.before (endsNumber_space_append m.element.after ht)
    have next := takeKey_literal first a m.before hk (m.between.val ++ ':' ::
      (m.element.before.val ++ (m.value.text ++
        (m.element.after.val ++ (separated false (ms.map Member.text) ++ '}' :: t)))))
    have text : a.val ++ (separated first ((m :: ms).map Member.text) ++ '}' :: t) =
        a.val ++ (lead first ++ (m.before.val ++ (m.key.text ++ (m.between.val ++ ':' ::
          (m.element.before.val ++ (m.value.text ++ (m.element.after.val ++
            (separated false (ms.map Member.text) ++ '}' :: t)))))))) := by
      simp [separated_cons, Member.text, Element.text, Member.value]
    rw [text, takeMembers, next]
    simp only
    rw [taken]
    simp only [ih false m.element.after]
    rw [if_pos]
    simp only [List.length_append, List.length_cons]
    omega

/-- An object whose members lead from one state to another. -/
def ObjectOf (R : σ → Text → Written → σ → Prop) (s : σ) (w : Written) (s' : σ) : Prop :=
  ∃ (blank : Space) (ms : List (Member Written)), w = .object blank ms ∧ Chain R s ms s'

theorem exists_object_of_enclosed {R : σ → Text → Written → σ → Prop} (hm : SoundMember member R)
    {s s' : σ} {t rest : Text}
    (h : enclosed closeObject (takeMembers member s true t) = .ok (s', rest)) :
    ∃ w : Written, '{' :: t = w.text ++ rest ∧ ObjectOf R s w s' := by
  obtain ⟨u, hu, hr⟩ := ok_of_enclosed h
  obtain ⟨a, ms, v, rfl, rfl, hms⟩ := exists_members_of_takeMembers hm hu
  refine ⟨.object a ms, ?_, a, ms, rfl, hms⟩
  obtain rfl : v = rest := (Prod.mk.inj hr).1
  rw [text_object_append]

theorem enclosed_takeMembers {s s' : σ} {ms : List (Member Written)}
    (h : Chain (AcceptsMember member) s ms s') (blank : Space) (t : Text) :
    enclosed closeObject (takeMembers member s true
      (blank.val ++ (separated true (ms.map Member.text) ++ '}' :: t))) = .ok (s', t) := by
  rw [takeMembers_separated h true blank t]
  exact enclosed_ok (closeObject_closing t)

end Members

/-! ### Values -/

/-- A written value stands for a value; the value of a number is left open. -/
inductive Denotes : Written → Value → Prop
  | null : Denotes .null .null
  | boolean (b : Bool) : Denotes (.boolean b) (.boolean b)
  | number (n : Numeral) (x : Number) : Denotes (.number n) (.number x)
  | string {l : Literal} {s : Text} : l.decode = some s → Denotes (.string l) (.string s)
  | list {blank : Space} {es : List (Element Written)} {vs : List Value} :
    List.Forall₂ (fun e v => Denotes (Element.value e) v) es vs →
    Denotes (.list blank es) (.list vs)
  | object {blank : Space} {ms : List (Member Written)} {members : List (Text × Value)} :
    List.Forall₂ (fun m x => m.key.decode = some x.1) ms members →
    List.Forall₂ (fun m x => Denotes (Member.value m) x.2) ms members →
    Denotes (.object blank ms) (.object members)

theorem eq_of_takeLetters {α : Type} {letters cs rest : Text} {x y : α}
    (h : takeLetters letters x cs = .ok (y, rest)) : cs = letters ++ rest ∧ x = y := by
  unfold takeLetters at h
  cases hs : skipLetters letters cs with
  | error e => simp [hs, Except.map] at h
  | ok r =>
    rw [hs] at h
    obtain ⟨rfl, rfl⟩ := Prod.mk.inj (Except.ok.inj h)
    exact ⟨skipLetters_eq_ok_iff.1 hs, rfl⟩

theorem exists_written_of_takeScalar {c : Char} {cs rest : Text} {v : Value}
    (h : takeScalar c cs = .ok (v, rest)) :
    ∃ w : Written, c :: cs = w.text ++ rest ∧ Denotes w v := by
  have letters {w : Written} {letters : Text} {x : Value} (hw : c :: letters = w.text)
      (hd : Denotes w x) (h : takeLetters letters x cs = .ok (v, rest)) :
      ∃ w : Written, c :: cs = w.text ++ rest ∧ Denotes w v := by
    obtain ⟨rfl, rfl⟩ := eq_of_takeLetters h
    exact ⟨w, by rw [← hw]; rfl, hd⟩
  unfold takeScalar at h
  split_ifs at h with hn ht hf hm hd hq
  · exact letters (by rw [hn]; rfl) .null h
  · exact letters (by rw [ht]; rfl) (.boolean true) h
  · exact letters (by rw [hf]; rfl) (.boolean false) h
  · obtain ⟨x, hx, rfl⟩ := eq_of_map_eq_ok h
    obtain ⟨n, hneg, he⟩ := exists_numeral_of_takeNumber hx
    exact ⟨.number n, by simp [hm, he, Numeral.text, hneg], .number n x⟩
  · obtain ⟨x, hx, rfl⟩ := eq_of_map_eq_ok h
    obtain ⟨n, hneg, he⟩ := exists_numeral_of_takeNumber hx
    exact ⟨.number n, by simp [he, Numeral.text, hneg], .number n x⟩
  · obtain ⟨s, hs, rfl⟩ := eq_of_map_eq_ok h
    obtain ⟨l, hl, hd⟩ := exists_literal_of_takeString hs
    exact ⟨.string l, by simp [hq, hl, Literal.text], .string hd⟩
  · simp [atNext] at h

/-- Gathering a member appends its key and a value that it stands for. -/
def GathersValue (gathered : List (Text × Value)) (key : Text) (w : Written)
    (gathered' : List (Text × Value)) : Prop :=
  ∃ v, Denotes w v ∧ gathered' = gathered ++ [(key, v)]

theorem Chain.gathered {gathered gathered' : List (Text × Value)} {ms : List (Member Written)}
    (h : Chain GathersValue gathered ms gathered') :
    ∃ members, gathered' = gathered ++ members ∧
      List.Forall₂ (fun m x => m.key.decode = some x.1) ms members ∧
      List.Forall₂ (fun m x => Denotes (Member.value m) x.2) ms members := by
  induction h with
  | nil s => exact ⟨[], by simp, .nil, .nil⟩
  | @cons s s₁ s₂ m ms key hk hm _ ih =>
    obtain ⟨v, hv, rfl⟩ := hm
    obtain ⟨members, rfl, keys, values⟩ := ih
    exact ⟨(key, v) :: members, by simp, .cons hk keys, .cons hv values⟩

/-- The member of an object after its key, as `takeValue` reads it. -/
def takeMember (depth : Nat) (members : List (Text × Value)) (key t : Text) :
    Taken (List (Text × Value)) :=
  takeAfterColon (takeValue depth) (fun v => members ++ [(key, v)]) t

theorem soundMember_takeMember {depth : Nat} (h : Sound (takeValue depth) Denotes) :
    SoundMember (takeMember depth) GathersValue := by
  intro members key t members' rest ht
  obtain ⟨between, a, w, v, rfl, hw, rfl⟩ := exists_value_of_takeAfterColon h ht
  exact ⟨between, a, w, rfl, v, hw, rfl⟩

theorem sound_takeValue (depth : Nat) : Sound (takeValue depth) Denotes := by
  induction depth with
  | zero =>
    intro t v rest h
    unfold takeValue at h
    split at h
    next => simp [atNext] at h
    next c cs hc =>
      split_ifs at h
      · simp [atNext] at h
      · simp [atNext] at h
      · obtain ⟨a, rfl⟩ := exists_space_of_skipSpace hc
        obtain ⟨w, hw, hv⟩ := exists_written_of_takeScalar h
        exact ⟨a, w, congrArg (a.val ++ ·) hw, hv⟩
  | succ depth ih =>
    intro t v rest h
    unfold takeValue at h
    split at h
    next => simp [atNext] at h
    next c cs hc =>
      obtain ⟨a, rfl⟩ := exists_space_of_skipSpace hc
      split_ifs at h with hl ho
      · obtain ⟨vs, hvs, rfl⟩ := eq_of_map_eq_ok h
        obtain ⟨w, hw, blank, es, rfl, hes⟩ := exists_list_of_enclosed ih hvs
        exact ⟨a, _, by rw [hl, hw], .list hes⟩
      · obtain ⟨members, hms, rfl⟩ := eq_of_map_eq_ok h
        obtain ⟨w, hw, blank, ms, rfl, hchain⟩ :=
          exists_object_of_enclosed (soundMember_takeMember ih) hms
        obtain ⟨members', rfl, keys, values⟩ := hchain.gathered
        exact ⟨a, _, by rw [ho, hw], .object keys values⟩
      · obtain ⟨w, hw, hv⟩ := exists_written_of_takeScalar h
        exact ⟨a, w, congrArg (a.val ++ ·) hw, hv⟩

/-- Brackets are nested at most so deep, numbers are integers of 64 bits, and every string has a
text. -/
inductive Plain : Nat → Written → Prop
  | null {depth : Nat} : Plain depth .null
  | boolean {depth : Nat} (b : Bool) : Plain depth (.boolean b)
  | number {depth : Nat} {n : Numeral} : n.IsInteger64 → Plain depth (.number n)
  | string {depth : Nat} {l : Literal} {s : Text} : l.decode = some s → Plain depth (.string l)
  | list {depth : Nat} {blank : Space} {es : List (Element Written)} :
    (∀ e ∈ es, Plain depth (Element.value e)) → Plain (depth + 1) (.list blank es)
  | object {depth : Nat} {blank : Space} {ms : List (Member Written)} :
    (∀ m ∈ ms, ∃ key, m.key.decode = some key) → (∀ m ∈ ms, Plain depth (Member.value m)) →
    Plain (depth + 1) (.object blank ms)

theorem takeValue_scalar {depth : Nat} {c : Char} {cs t : Text} {v : Value} (a : Space)
    (hs : isSpace c = false) (hl : c ≠ '[') (ho : c ≠ '{') (h : takeScalar c cs = .ok (v, t)) :
    takeValue depth (a.val ++ c :: cs) = .ok (v, t) := by
  unfold takeValue
  rw [skipSpace_append_cons a hs]
  simp only [hl, ho, if_false]
  exact h

theorem takeValue_list {depth : Nat} {cs t : Text} {vs : List Value} (a : Space)
    (h : enclosed closeList (takeElements (takeValue depth) true cs) = .ok (vs, t)) :
    takeValue (depth + 1) (a.val ++ '[' :: cs) = .ok (.list vs, t) := by
  unfold takeValue
  rw [skipSpace_append_cons a (by decide)]
  simp only [if_true]
  rw [h]
  rfl

theorem takeValue_object {depth : Nat} {cs t : Text} {members : List (Text × Value)} (a : Space)
    (h : enclosed closeObject (takeMembers (takeMember depth) [] true cs) = .ok (members, t)) :
    takeValue (depth + 1) (a.val ++ '{' :: cs) = .ok (.object members, t) := by
  unfold takeValue
  rw [skipSpace_append_cons a (by decide)]
  have hb : ¬ '{' = '[' := by decide
  simp only [hb, if_true, if_false]
  exact congrArg (Except.map fun x => (Value.object x.1, x.2)) h

theorem takeScalar_digit {c : Char} (hc : c.isDigit = true) (cs : Text) :
    takeScalar c cs = (takeNumber false (c :: cs)).map fun (x, r) => (.number x, r) := by
  have hn := ne_of_isDigit hc (d := 'n') (by decide)
  have ht := ne_of_isDigit hc (d := 't') (by decide)
  have hf := ne_of_isDigit hc (d := 'f') (by decide)
  have hm := ne_of_isDigit hc (d := '-') (by decide)
  rw [takeScalar, if_neg hn, if_neg ht, if_neg hf, if_neg hm, if_pos hc]

theorem Numeral.exists_accepted {n : Numeral} (hn : n.IsInteger64) (depth : Nat) :
    ∃ x, Accepts (takeValue depth) (.number n) (.number x) := by
  obtain ⟨x, hx⟩ := exists_takeNumber hn
  refine ⟨x, ?_⟩
  intro a t ht
  have taken := hx t ht
  rw [Written.text_number]
  rcases n.text_cases with ⟨hneg, hm⟩ | ⟨hneg, c, cs, hu, hc, hd⟩
  · rw [hneg] at taken
    rw [hm]
    apply takeValue_scalar a (by decide) (by decide) (by decide)
    change takeScalar '-' (n.unsigned ++ t) = .ok (.number x, t)
    simp [takeScalar, taken, Except.map]
  · rw [hneg, hc] at taken
    rw [hu, hc]
    apply takeValue_scalar a (isSpace_of_isDigit hd) (ne_of_isDigit hd (by decide))
      (ne_of_isDigit hd (by decide))
    rw [List.cons_append] at taken
    change takeScalar c (cs ++ t) = .ok (.number x, t)
    rw [takeScalar_digit hd, taken]
    rfl

theorem exists_forall₂ {α β : Type} {R : α → β → Prop} {as : List α} (h : ∀ a ∈ as, ∃ b, R a b) :
    ∃ bs, List.Forall₂ R as bs := by
  induction as with
  | nil => exact ⟨[], .nil⟩
  | cons a as ih =>
    obtain ⟨⟨b, hb⟩, has⟩ := List.forall_mem_cons.1 h
    obtain ⟨bs, hbs⟩ := ih has
    exact ⟨b :: bs, .cons hb hbs⟩

theorem acceptsMember_takeMember {depth : Nat} {w : Written} {v : Value}
    (h : Accepts (takeValue depth) w v) (members : List (Text × Value)) (key : Text) :
    AcceptsMember (takeMember depth) members key w (members ++ [(key, v)]) := by
  intro between a t ht
  exact h.takeAfterColon (fun v => members ++ [(key, v)]) between a ht

theorem exists_chain {depth : Nat} {ms : List (Member Written)}
    (keys : ∀ m ∈ ms, ∃ key, m.key.decode = some key)
    (values : ∀ m ∈ ms, ∃ v, Accepts (takeValue depth) m.value v ∧ Denotes m.value v)
    (gathered : List (Text × Value)) :
    ∃ members, Chain (AcceptsMember (takeMember depth)) gathered ms (gathered ++ members) ∧
      List.Forall₂ (fun m x => m.key.decode = some x.1) ms members ∧
      List.Forall₂ (fun m x => Denotes (Member.value m) x.2) ms members := by
  induction ms generalizing gathered with
  | nil => exact ⟨[], by rw [List.append_nil]; exact .nil gathered, .nil, .nil⟩
  | cons m ms ih =>
    obtain ⟨⟨key, hk⟩, keys⟩ := List.forall_mem_cons.1 keys
    obtain ⟨⟨v, ha, hv⟩, values⟩ := List.forall_mem_cons.1 values
    obtain ⟨members, hchain, hkeys, hvalues⟩ := ih keys values (gathered ++ [(key, v)])
    rw [List.append_assoc] at hchain
    exact ⟨(key, v) :: members, .cons hk (acceptsMember_takeMember ha gathered key) hchain,
      .cons hk hkeys, .cons hv hvalues⟩

/-- A plain value is taken for a value that it denotes. -/
theorem Plain.accepted {depth : Nat} {w : Written} (h : Plain depth w) :
    ∃ v, Accepts (takeValue depth) w v ∧ Denotes w v := by
  induction h with
  | null =>
    refine ⟨.null, ?_, .null⟩
    intro a t _
    exact takeValue_scalar a (by decide) (by decide) (by decide) rfl
  | boolean b =>
    refine ⟨.boolean b, ?_, .boolean b⟩
    intro a t _
    cases b with
    | true => exact takeValue_scalar a (by decide) (by decide) (by decide) rfl
    | false => exact takeValue_scalar a (by decide) (by decide) (by decide) rfl
  | @number depth n hn =>
    obtain ⟨x, hx⟩ := n.exists_accepted hn depth
    exact ⟨.number x, hx, .number n x⟩
  | @string depth l s hl =>
    refine ⟨.string s, ?_, .string hl⟩
    intro a t _
    have h := takeString_body hl t
    rw [Written.text_string, Literal.text, List.append_assoc]
    apply takeValue_scalar a (by decide) (by decide) (by decide)
    change takeScalar '"' (l.body ++ '"' :: t) = .ok (.string s, t)
    simp [takeScalar, h, Except.map]
  | @list depth blank es _ ih =>
    obtain ⟨vs, hvs⟩ := exists_forall₂ ih
    refine ⟨.list vs, ?_, .list (hvs.imp fun _ _ h => h.2)⟩
    intro a t _
    rw [text_list_append]
    exact takeValue_list a (enclosed_takeElements (hvs.imp fun _ _ h => h.1) blank t)
  | @object depth blank ms keys _ ih =>
    obtain ⟨members, hchain, hkeys, hvalues⟩ := exists_chain keys ih []
    refine ⟨.object members, ?_, .object hkeys hvalues⟩
    intro a t _
    rw [text_object_append]
    exact takeValue_object a (enclosed_takeMembers hchain blank t)

end CollectionTypes.Json
