import CollectionTypes.Proofs.JsonLoading

/-!
# Places in written JSON

A path leads from a value to a value inside it, through the elements of lists and the members of
objects. `Leads` says in addition what the text of the outer value has in front of the inner one and
behind it. In a dump one of four paths leads to the name of each collection.
-/

namespace CollectionTypes.Json

/-! ### Paths -/

inductive Step where
  | element (index : Nat)
  | member (key : Text)
deriving DecidableEq

/-- What a list has in front of the value of an element that follows these. -/
def textBeforeElement (blank : Space) (es : List (Element Written)) (e : Element Written) : Text :=
  '[' :: (blank.val ++ (separated true (es.map Element.text) ++ (lead es.isEmpty ++ e.before.val)))

/-- What a list has behind the value of an element that these follow. -/
def textAfterElement (e : Element Written) (es : List (Element Written)) : Text :=
  e.after.val ++ (separated false (es.map Element.text) ++ [']'])

/-- What an object has in front of the value of a member that follows these. -/
def textBeforeMember (blank : Space) (ms : List (Member Written)) (m : Member Written) : Text :=
  '{' :: (blank.val ++ (separated true (ms.map Member.text) ++ (lead ms.isEmpty ++
    (m.before.val ++ (m.key.text ++ (m.between.val ++ (':' :: m.element.before.val)))))))

/-- What an object has behind the value of a member that these follow. -/
def textAfterMember (m : Member Written) (ms : List (Member Written)) : Text :=
  m.element.after.val ++ (separated false (ms.map Member.text) ++ ['}'])

/-- The path leads from `w` to `v`, which has `before` in front of it in the text of `w`, and
`after` behind it. -/
inductive Leads :
    List Step → (w : Written) → (before : Text) → (v : Written) → (after : Text) → Prop
  | here (w : Written) : Leads [] w [] w []
  | element {path : List Step} {before after : Text} {v : Written} (blank : Space)
    (es : List (Element Written)) (e : Element Written) (rest : List (Element Written)) :
    Leads path e.value before v after →
    Leads (.element es.length :: path) (.list blank (es ++ e :: rest))
      (textBeforeElement blank es e ++ before) v (after ++ textAfterElement e rest)
  | member {path : List Step} {before after key : Text} {v : Written} (blank : Space)
    (ms : List (Member Written)) (m : Member Written) (rest : List (Member Written)) :
    m.key.decode = some key → Leads path m.value before v after →
    Leads (.member key :: path) (.object blank (ms ++ m :: rest))
      (textBeforeMember blank ms m ++ before) v (after ++ textAfterMember m rest)

theorem separated_append_cons (first : Bool) (ts us : List Text) (t : Text) :
    separated first (ts ++ t :: us) =
      separated first ts ++ (lead (first && ts.isEmpty) ++ (t ++ separated false us)) := by
  induction ts generalizing first with
  | nil => simp [separated_cons]
  | cons u ts ih => simp [separated_cons, ih]

theorem Leads.text_eq {path : List Step} {w v : Written} {before after : Text}
    (h : Leads path w before v after) : w.text = before ++ (v.text ++ after) := by
  induction h with
  | here w => simp
  | element blank es e rest _ ih =>
    rw [Written.text_list, List.map_append, List.map_cons, separated_append_cons, Element.text, ih]
    simp [textBeforeElement, textAfterElement]
  | member blank ms m rest _ _ ih =>
    rw [Written.text_object, List.map_append, List.map_cons, separated_append_cons, Member.text,
      Element.text, ← Member.value, ih]
    simp [textBeforeMember, textAfterMember]

theorem Leads.append {path path' : List Step} {w v u : Written} {before after before' after' : Text}
    (h : Leads path w before v after) (h' : Leads path' v before' u after') :
    Leads (path ++ path') w (before ++ before') u (after' ++ after) := by
  induction h with
  | here w => simpa using h'
  | element blank es e rest _ ih =>
    rw [List.append_assoc, ← List.append_assoc after']
    exact .element blank es e rest (ih h')
  | member blank ms m rest hk _ ih =>
    rw [List.append_assoc, ← List.append_assoc after']
    exact .member blank ms m rest hk (ih h')

/-- What is read last before a value that is inside another one. -/
theorem Leads.exists_mark {path : List Step} {w v : Written} {before after : Text}
    (h : Leads path w before v after) (hp : path ≠ []) :
    ∃ (front : Text) (mark : Char) (blank : Space), before = front ++ mark :: blank.val ∧
      mark ∈ ['[', ',', ':'] := by
  induction h with
  | here w => exact absurd rfl hp
  | @element path before after v blank es e rest hl ih =>
    cases path with
    | nil =>
      cases hl
      cases es with
      | nil =>
        refine ⟨[], '[', blank.append e.before, ?_, by simp⟩
        simp [textBeforeElement, lead]
      | cons e' es =>
        refine ⟨'[' :: (blank.val ++ separated true ((e' :: es).map Element.text)), ',', e.before,
          ?_, by simp⟩
        simp [textBeforeElement, lead]
    | cons step path =>
      obtain ⟨front, mark, gap, rfl, hm⟩ := ih (List.cons_ne_nil _ _)
      exact ⟨_, mark, gap, (List.append_assoc ..).symm, hm⟩
  | @member path before after key v blank ms m rest hk hl ih =>
    cases path with
    | nil =>
      cases hl
      refine ⟨'{' :: (blank.val ++ (separated true (ms.map Member.text) ++ (lead ms.isEmpty ++
        (m.before.val ++ (m.key.text ++ m.between.val))))), ':', m.element.before, ?_, by simp⟩
      simp [textBeforeMember]
    | cons step path =>
      obtain ⟨front, mark, gap, rfl, hm⟩ := ih (List.cons_ne_nil _ _)
      exact ⟨_, mark, gap, (List.append_assoc ..).symm, hm⟩

/-! ### The names of collections -/

/-- The paths to the name of a collection in a dump. The dump is a list or a listing, and the
collection an object or a list of its parts. -/
def namePaths (index : Nat) : List (List Step) :=
  [[.element index, .member CollectionParts.nameKey], [.element index, .element 0],
    [.member dataKey, .element index, .member CollectionParts.nameKey],
    [.member dataKey, .element index, .element 0]]

theorem exists_leads_of_valuesAt {key : Text} {ms : List (Member Written)} {v : Written}
    (h : valuesAt key ms = [v]) (blank : Space) :
    ∃ before after, Leads [.member key] (.object blank ms) before v after := by
  have hv : v ∈ valuesAt key ms := by simp [h]
  obtain ⟨m, hm, rfl⟩ := List.mem_map.1 hv
  obtain ⟨hm, hk⟩ := List.mem_filter.1 hm
  obtain ⟨xs, ys, rfl⟩ := List.append_of_mem hm
  exact ⟨_, _, .member blank xs m ys (by simpa using hk) (.here _)⟩

theorem exists_leads_of_map_value {es : List (Element Written)} {xs ys : List Written} {v : Written}
    (h : es.map Element.value = xs ++ v :: ys) (blank : Space) :
    ∃ before after, Leads [.element xs.length] (.list blank es) before v after := by
  obtain ⟨as, bs, rfl, rfl, hb⟩ := List.map_eq_append_iff.1 h
  obtain ⟨e, bs, rfl, rfl, rfl⟩ := List.map_eq_cons_iff.1 hb
  rw [List.length_map]
  exact ⟨_, _, .element blank as e bs (.here _)⟩

theorem Describes.exists_leads_name {ignored : Written → Prop} {w : Written} {d : Description}
    (h : Describes ignored w d) :
    ∃ path ∈ [[Step.member CollectionParts.nameKey], [.element 0]], ∃ before l after,
      Leads path w before (.string l) after ∧ l.decode = some d.name := by
  cases h with
  | @object blank ms l d _ hn hl _ _ =>
    obtain ⟨before, after, leads⟩ := exists_leads_of_valuesAt hn blank
    exact ⟨_, by simp, before, l, after, leads, hl⟩
  | @list blank es l _ _ d he _ hl _ _ =>
    obtain ⟨before, after, leads⟩ :=
      exists_leads_of_map_value (he.trans (List.nil_append _).symm) blank
    exact ⟨_, by simp, before, l, after, leads, hl⟩

theorem CollectionArray.exists_leads {w v : Written} {xs ys : List Written}
    (h : CollectionArray w (xs ++ v :: ys)) :
    ∃ path ∈ [[Step.element xs.length], [.member dataKey, .element xs.length]],
      ∃ before after, Leads path w before v after := by
  generalize he : xs ++ v :: ys = elements at h
  cases h with
  | list =>
    obtain ⟨before, after, leads⟩ := exists_leads_of_map_value he.symm _
    exact ⟨_, by simp, before, after, leads⟩
  | @listing blank inner ms es _ hd =>
    obtain ⟨_, _, outer⟩ := exists_leads_of_valuesAt hd blank
    obtain ⟨_, _, leads⟩ := exists_leads_of_map_value he.symm inner
    exact ⟨_, by simp, _, _, outer.append leads⟩

/-- One of the paths leads to the name of every collection of a dump. -/
theorem IsDump.exists_leads_name {w : Written} {good rest : List Collection} {c : Collection}
    (h : IsDump w (good ++ c :: rest)) :
    ∃ path ∈ namePaths good.length, ∃ before l after,
      Leads path w before (.string l) after ∧ l.decode = some c.name := by
  obtain ⟨elements, array, described⟩ := h
  have front := List.forall₂_take_append _ _ _ described
  have back := List.forall₂_drop_append _ _ _ described
  obtain ⟨v, vs, ⟨d, hd, rfl⟩, _, hv⟩ := List.forall₂_cons_right_iff.1 back
  rw [← List.take_append_drop good.length elements, hv] at array
  obtain ⟨path, hp, _, _, outer⟩ := array.exists_leads
  obtain ⟨path', hp', _, l, _, inner, hl⟩ := hd.exists_leads_name
  rw [front.length_eq] at hp
  refine ⟨path ++ path', ?_, _, l, _, outer.append inner, hl⟩
  simp only [List.mem_cons, List.not_mem_nil, or_false] at hp hp'
  rcases hp with rfl | rfl <;> rcases hp' with rfl | rfl <;> simp [namePaths]

end CollectionTypes.Json
