import CollectionTypes.Proofs.TomlLines

/-!
# The tables of a dump

The statements of a dump fall into sections, one for each collection and one for each of its
dictionaries. One after another they add tables to the document's own. The relations say what
such tables hold, whatever the places of their keys and values are.
-/

namespace CollectionTypes

/-- Of pairs with distinct keys, none before another has its key. -/
theorem fst_not_mem_of_nodup {α β : Type} {xs ys : List (α × β)} {x : α × β}
    (h : ((xs ++ x :: ys).map Prod.fst).Nodup) : x.1 ∉ xs.map Prod.fst := by
  intro hm
  rw [List.map_append, List.nodup_append] at h
  exact h.2.2 _ hm _ (List.mem_map_of_mem List.mem_cons_self) rfl

theorem exists_of_forall₂_append {α β : Type} {R : α → β → Prop} {as bs : List α} {cs : List β}
    (h : List.Forall₂ R (as ++ bs) cs) :
    ∃ left right, cs = left ++ right ∧ List.Forall₂ R as left ∧ List.Forall₂ R bs right := by
  induction as generalizing cs with
  | nil => exact ⟨[], cs, rfl, .nil, h⟩
  | cons a as ih =>
    obtain ⟨c, rest, hc, hrest, rfl⟩ := List.forall₂_cons_left_iff.1 h
    obtain ⟨left, right, rfl, hl, hr⟩ := ih hrest
    exact ⟨c :: left, right, rfl, .cons hc hl, hr⟩

theorem map_eq_of_forall₂ {α β γ : Type} {R : α → β → Prop} {f : α → γ} {g : β → γ} {as : List α}
    {bs : List β} (h : List.Forall₂ R as bs) (same : ∀ a b, R a b → g b = f a) :
    bs.map g = as.map f := by
  induction h with
  | nil => rfl
  | @cons a b as bs hab _ ih => rw [List.map_cons, List.map_cons, same a b hab, ih]

namespace Toml

/-! ### Sections -/

/-- A header with the lines below it. -/
inductive WrittenSection where
  | element (name : Literal)
  | part (part : Part) (definitions : List WrittenDefinition)

/-- An assignment of a signature to a key. -/
def Assigns (d : WrittenDefinition) (m : WrittenMember) : Prop :=
  ∃ w, IsMember m d.key.text w ∧ Gives d.signature w

namespace WrittenSection

def lines : WrittenSection → List WrittenLine
  | element l => [.element, .name l]
  | part p ds => .part p :: ds.map .definition

/-- What the lines of a section make, whatever their places. -/
inductive Makes : WrittenSection → Section → Prop
  | element {l : Literal} {m : WrittenMember} {keyExtent extent : Extent} :
    IsMember m CollectionParts.nameKey (.scalar l.text) →
    Makes (.element l) ⟨⟨true, ⟨[], ⟨collectionsKey, keyExtent⟩⟩, extent⟩, [m]⟩
  | part {p : Part} {ds : List WrittenDefinition} {ms : List WrittenMember}
    {parentExtent keyExtent extent : Extent} :
    List.Forall₂ Assigns ds ms →
    Makes (.part p ds)
      ⟨⟨false, ⟨[⟨collectionsKey, parentExtent⟩], ⟨p.key, keyExtent⟩⟩, extent⟩, ms⟩

end WrittenSection

namespace WrittenCollection

/-- The dictionaries that are there. -/
def parts (w : WrittenCollection) : List (Part × List WrittenDefinition) :=
  (w.fields.map fun ds => (Part.fields, ds)).toList ++
    (w.computedFields.map fun ds => (Part.computedFields, ds)).toList

def sections (w : WrittenCollection) : List WrittenSection :=
  .element w.name :: w.parts.map fun p => .part p.1 p.2

theorem flatMap_sections (w : WrittenCollection) :
    w.sections.flatMap WrittenSection.lines = w.lines := by
  have part (p : Part) (ds : Option (List WrittenDefinition)) :
      ((ds.map fun ds => (p, ds)).toList.map fun p => WrittenSection.part p.1 p.2).flatMap
        WrittenSection.lines = partLines p ds := by
    cases ds with
    | none => rfl
    | some ds => exact List.append_nil _
  rw [sections, List.flatMap_cons, parts, List.map_append, List.flatMap_append, part, part, lines,
    List.append_assoc]
  rfl

end WrittenCollection

theorem ofStatements_assignments (ms : List WrittenMember) (ss : List Statement) :
    Document.ofStatements (ms.map .assignment ++ ss) =
      ⟨ms ++ (Document.ofStatements ss).assignments, (Document.ofStatements ss).sections⟩ := by
  induction ms with
  | nil => rfl
  | cons m ms ih =>
    rw [List.map_cons, List.cons_append, Document.ofStatements, ih]
    rfl

theorem exists_assignments {ds : List WrittenDefinition} {ss : List Statement}
    (h : List.Forall₂ WrittenLine.Yields (ds.map .definition) ss) :
    ∃ ms, ss = ms.map .assignment ∧ List.Forall₂ Assigns ds ms := by
  induction ds generalizing ss with
  | nil =>
    rw [List.forall₂_nil_left_iff.1 h]
    exact ⟨[], rfl, .nil⟩
  | cons d ds ih =>
    obtain ⟨s, rest, hs, hrest, rfl⟩ := List.forall₂_cons_left_iff.1 h
    obtain ⟨ms, rfl, hms⟩ := ih hrest
    cases hs with
    | definition member gives => exact ⟨_ :: ms, rfl, .cons ⟨_, member, gives⟩ hms⟩

theorem exists_section {w : WrittenSection} {ss : List Statement}
    (h : List.Forall₂ WrittenLine.Yields w.lines ss) :
    ∃ s, w.Makes s ∧ ss = .header s.header :: s.assignments.map .assignment := by
  cases w with
  | element l =>
    obtain ⟨_, _, first, more, rfl⟩ := List.forall₂_cons_left_iff.1 h
    obtain ⟨_, _, second, none, rfl⟩ := List.forall₂_cons_left_iff.1 more
    obtain rfl := List.forall₂_nil_left_iff.1 none
    cases first with
    | element =>
      cases second with
      | name member => exact ⟨_, .element member, rfl⟩
  | part p ds =>
    obtain ⟨_, _, first, more, rfl⟩ := List.forall₂_cons_left_iff.1 h
    obtain ⟨ms, rfl, hms⟩ := exists_assignments more
    cases first with
    | part => exact ⟨_, .part hms, rfl⟩

theorem exists_sections {written : List WrittenSection} {ss : List Statement}
    (h : List.Forall₂ WrittenLine.Yields (written.flatMap WrittenSection.lines) ss) :
    ∃ sections, Document.ofStatements ss = ⟨[], sections⟩ ∧
      List.Forall₂ WrittenSection.Makes written sections := by
  induction written generalizing ss with
  | nil =>
    rw [List.forall₂_nil_left_iff.1 h]
    exact ⟨[], rfl, .nil⟩
  | cons w written ih =>
    rw [List.flatMap_cons] at h
    obtain ⟨first, more, rfl, hfirst, hmore⟩ := exists_of_forall₂_append h
    obtain ⟨s, hs, rfl⟩ := exists_section hfirst
    obtain ⟨sections, he, hsections⟩ := ih hmore
    refine ⟨s :: sections, ?_, .cons hs hsections⟩
    rw [List.cons_append, Document.ofStatements, ofStatements_assignments, he, List.append_nil]

/-! ### Members -/

/-- The names of the entries of a table. -/
def Table.names (t : Table) : List Text := t.entries.map fun e => e.1.name

theorem Table.get?_eq_none {t : Table} {name : Text} (h : name ∉ t.names) : t.get? name = none := by
  rw [Table.get?, Option.map_eq_none_iff, List.find?_eq_none]
  intro e he hn
  apply h
  rw [← of_decide_eq_true hn]
  exact List.mem_map_of_mem he

theorem path_key {key name : Text} (h : keyName? key = some name) (extent : Extent) :
    WrittenPath.path ⟨[], ⟨key, extent⟩⟩ = .ok ⟨[], ⟨name, extent⟩⟩ := by
  unfold WrittenPath.path Lexeme.key
  simp only [List.mapM_nil, h]
  rfl

theorem path_inside {parent key : Text} {parentName name : Text}
    (hp : keyName? parent = some parentName) (h : keyName? key = some name)
    (parentExtent extent : Extent) :
    WrittenPath.path ⟨[⟨parent, parentExtent⟩], ⟨key, extent⟩⟩ =
      .ok ⟨[⟨parentName, parentExtent⟩], ⟨name, extent⟩⟩ := by
  unfold WrittenPath.path Lexeme.key
  simp only [List.mapM_cons, List.mapM_nil, hp, h]
  rfl

/-- A member under a new name becomes the last entry. -/
theorem exists_fill_member {t : Table} {m : WrittenMember} {key name : Text} {w : Written}
    {v : Value} (hm : IsMember m key w) (hk : keyName? key = some name) (hv : w.value = .ok v)
    (kind : t.kind ≠ .dotted) (new : name ∉ t.names) (ms : List WrittenMember) :
    ∃ keyExtent extent, fill t (m :: ms) = fill (t.add ⟨name, keyExtent⟩ extent v) ms := by
  obtain ⟨keyExtent, extent, rfl⟩ := hm
  have assigned : t.assign ⟨[], ⟨name, keyExtent⟩⟩ extent v =
      .ok (t.add ⟨name, keyExtent⟩ extent v) := by
    have undotted : (t.kind == .dotted) = false := by simpa using kind
    simp [Table.assign, Table.update, Table.define, undotted, Table.get?_eq_none new]
  refine ⟨keyExtent, extent, ?_⟩
  rw [fill, path_key hk, hv]
  show (t.assign ⟨[], ⟨name, keyExtent⟩⟩ extent v).bind (fun t' => fill t' ms) = _
  rw [assigned]
  rfl

/-- The table of one member. -/
theorem exists_fill_single {kind : TableKind} {m : WrittenMember} {key name : Text} {w : Written}
    {v : Value} (hm : IsMember m key w) (hk : keyName? key = some name) (hv : w.value = .ok v)
    (hkind : kind ≠ .dotted) :
    ∃ keyExtent extent,
      fill (.empty kind) [m] = .ok ⟨kind, [(⟨name, keyExtent⟩, extent, v)]⟩ := by
  have new : name ∉ (Table.empty kind).names := List.not_mem_nil
  obtain ⟨keyExtent, extent, filled⟩ := exists_fill_member hm hk hv hkind new []
  refine ⟨keyExtent, extent, ?_⟩
  rw [filled, fill]
  rfl

/-! ### Values -/

abbrev Entry := Key × Extent × Value

/-- A value from which a signature is read. -/
inductive IsSignature (s : Text) : Value → Prop
  | text : IsSignature s (.string s)
  | table {key : Key} {extent : Extent} :
    key.name = signatureKey → IsSignature s (.table .inline [(key, extent, .string s)])

/-- An entry for the definition of a field. -/
def Defines (d : Text × Text) (e : Entry) : Prop := e.1.name = d.1 ∧ IsSignature d.2 e.2.2

/-- An entry for a dictionary. -/
def HoldsPart (p : Part × Signatures) (e : Entry) : Prop :=
  e.1.name = p.1.key ∧
    ∃ entries, e.2.2 = .table .header entries ∧ List.Forall₂ Defines p.2.entries entries

/-- The name of a collection and its dictionaries, as far as they are written. -/
structure Outline where
  name : Text
  parts : List (Part × Signatures)

/-- A table for a collection. -/
inductive HoldsOutline (o : Outline) : Extent × Value → Prop
  | intro {key : Key} {extent nameExtent : Extent} {entries : List Entry} :
    key.name = CollectionParts.nameKey → List.Forall₂ HoldsPart o.parts entries →
    HoldsOutline o (extent, .table .header ((key, nameExtent, .string o.name) :: entries))

/-- The table of a document with these collections. -/
inductive Holds : List Outline → Table → Prop
  | empty : Holds [] (.empty .header)
  | array {os : List Outline} {key : Key} {extent : Extent} {elements : List (Extent × Value)} :
    key.name = collectionsKey → List.Forall₂ HoldsOutline os elements →
    Holds os ⟨.header, [(key, extent, .arrayOfTables elements)]⟩

theorem value_literal (l : Literal) : (Written.scalar l.text).value = .ok (.string l.decode) := by
  rw [Written.value, scalar?_literal]
  rfl

theorem exists_value {l : Literal} {w : Written} (h : Gives l w) :
    ∃ v, w.value = .ok v ∧ IsSignature l.decode v := by
  cases h with
  | text => exact ⟨_, value_literal l, .text⟩
  | table member =>
    have word : keyName? signatureKey = some signatureKey := rfl
    obtain ⟨keyExtent, extent, filled⟩ :=
      exists_fill_single member word (value_literal l) (show TableKind.inline ≠ .dotted by decide)
    refine ⟨.table .inline [(⟨signatureKey, keyExtent⟩, extent, .string l.decode)], ?_, .table rfl⟩
    rw [Written.value, filled]
    rfl

theorem names_of_defines (kind : TableKind) {ds : List (Text × Text)} {entries : List Entry}
    (h : List.Forall₂ Defines ds entries) : Table.names ⟨kind, entries⟩ = ds.map Prod.fst :=
  map_eq_of_forall₂ h fun _ _ he => he.1

theorem names_of_holdsPart (kind : TableKind) {parts : List (Part × Signatures)}
    {entries : List Entry} (h : List.Forall₂ HoldsPart parts entries) :
    Table.names ⟨kind, entries⟩ = parts.map fun p => p.1.key :=
  map_eq_of_forall₂ h fun _ _ he => he.1

/-- Definitions with new and distinct keys become entries in their order. -/
theorem exists_fill_definitions {ds : List WrittenDefinition} {ms : List WrittenMember}
    {done : List (Text × Text)} {entries : List Entry} (h : List.Forall₂ Assigns ds ms)
    (hd : List.Forall₂ Defines done entries)
    (keys : ((done ++ ds.map WrittenDefinition.decode).map Prod.fst).Nodup) :
    ∃ entries', fill ⟨.header, entries⟩ ms = .ok ⟨.header, entries'⟩ ∧
      List.Forall₂ Defines (done ++ ds.map WrittenDefinition.decode) entries' := by
  -- What is filled already grows by one definition a step, so it is left open.
  induction h generalizing done entries with
  | nil =>
    rw [List.map_nil, List.append_nil]
    exact ⟨entries, by rw [fill], hd⟩
  | @cons d m ds ms hm _ ih =>
    obtain ⟨w, member, gives⟩ := hm
    obtain ⟨v, hv, signature⟩ := exists_value gives
    have new : d.key.decode ∉ Table.names ⟨.header, entries⟩ := by
      rw [names_of_defines .header hd]
      exact fst_not_mem_of_nodup keys
    obtain ⟨keyExtent, extent, filled⟩ :=
      exists_fill_member member (keyName?_literal d.key) hv (by simp) new ms
    have next : done ++ (d :: ds).map WrittenDefinition.decode =
        (done ++ [d.decode]) ++ ds.map WrittenDefinition.decode := by
      rw [List.map_cons, List.append_assoc, List.singleton_append]
    rw [next] at keys ⊢
    rw [filled]
    apply ih _ keys
    exact List.rel_append hd (.cons ⟨rfl, signature⟩ .nil)

/-! ### Adding a section -/

theorem get?_single (kind : TableKind) (key : Key) (extent : Extent) (v : Value) :
    Table.get? ⟨kind, [(key, extent, v)]⟩ key.name = some (extent, v) := by
  simp [Table.get?]

theorem replace_single (kind : TableKind) (key : Key) (extent : Extent) (v v' : Value) :
    Table.replace ⟨kind, [(key, extent, v)]⟩ key.name v' = ⟨kind, [(key, extent, v')]⟩ := by
  simp [Table.replace]

theorem keyName?_collectionsKey : keyName? collectionsKey = some collectionsKey := rfl

theorem Part.keyName?_key (p : Part) : keyName? p.key = some p.key := by
  cases p with
  | fields => rfl
  | computedFields => rfl

/-- A collection is appended to those that are there. -/
theorem exists_append {os : List Outline} {o : Outline} {root table : Table} {key : Key}
    {extent : Extent} (hr : Holds os root) (hk : key.name = collectionsKey)
    (ho : HoldsOutline o (extent, table.value)) :
    ∃ root', Table.append key extent table root = .ok root' ∧ Holds (os ++ [o]) root' := by
  cases hr with
  | empty => exact ⟨_, rfl, .array hk (.cons ho .nil)⟩
  | @array _ key' extent' elements hk' he =>
    unfold Table.append
    rw [hk, ← hk', get?_single]
    dsimp only
    rw [replace_single]
    exact ⟨_, rfl, .array hk' (List.rel_append he (.cons ho .nil))⟩

theorem exists_addTo_element {l : Literal} {s : Section} {os : List Outline} {root : Table}
    (hs : (WrittenSection.element l).Makes s) (hr : Holds os root) :
    ∃ root', s.addTo root = .ok root' ∧ Holds (os ++ [⟨l.decode, []⟩]) root' := by
  cases hs with
  | @element _ m keyExtent extent member =>
    have word : keyName? CollectionParts.nameKey = some CollectionParts.nameKey := rfl
    obtain ⟨nameExtent, valueExtent, filled⟩ :=
      exists_fill_single member word (value_literal l) (show TableKind.header ≠ .dotted by decide)
    unfold Section.addTo
    dsimp only
    rw [path_key keyName?_collectionsKey, filled]
    exact exists_append hr rfl (.intro rfl .nil)

theorem Part.key_ne_name (p : Part) : p.key ≠ CollectionParts.nameKey := by
  cases p with
  | fields => decide
  | computedFields => decide

theorem Part.key_injective : Function.Injective Part.key := by
  intro p q h
  cases p with
  | fields =>
    cases q with
    | fields => rfl
    | computedFields => exact absurd h (by decide)
  | computedFields =>
    cases q with
    | fields => exact absurd h (by decide)
    | computedFields => rfl

/-- A dictionary becomes the last entry of its collection. -/
theorem exists_define {o : Outline} {p : Part} {d : Signatures} {ds : List WrittenDefinition}
    {ms : List WrittenMember} {t : Table} {elementExtent : Extent}
    (ho : HoldsOutline o (elementExtent, t.value))
    (hd : ds.map WrittenDefinition.decode = d.entries)
    (hms : List.Forall₂ Assigns ds ms) (new : p ∉ o.parts.map Prod.fst)
    (keyExtent extent : Extent) :
    ∃ t', Table.defineTable ⟨p.key, keyExtent⟩ extent ms t = .ok t' ∧
      HoldsOutline ⟨o.name, o.parts ++ [(p, d)]⟩ (elementExtent, t'.value) := by
  obtain ⟨kind, entries⟩ := t
  cases ho with
  | @intro nameKey _ nameExtent entries hn he =>
    have absent : Table.get? ⟨.header, (nameKey, nameExtent, .string o.name) :: entries⟩ p.key =
        none := by
      have names : Table.names ⟨.header, (nameKey, nameExtent, .string o.name) :: entries⟩ =
          nameKey.name :: o.parts.map fun p => p.1.key :=
        congrArg (nameKey.name :: ·) (names_of_holdsPart .header he)
      apply Table.get?_eq_none
      rw [names, List.mem_cons, not_or]
      constructor
      · rw [hn]
        exact p.key_ne_name
      · intro hm
        obtain ⟨q, hq, he⟩ := List.mem_map.1 hm
        rw [← Part.key_injective he] at new
        exact new (List.mem_map_of_mem hq)
    have keys : (([] ++ ds.map WrittenDefinition.decode).map Prod.fst).Nodup := by
      rw [List.nil_append, hd]
      exact d.nodup
    obtain ⟨filled, hf, defined⟩ := exists_fill_definitions hms .nil keys
    rw [List.nil_append, hd] at defined
    have empty : Table.empty .header = ⟨.header, []⟩ := rfl
    unfold Table.defineTable
    rw [absent]
    dsimp only
    rw [empty, hf]
    exact ⟨_, rfl, .intro hn (List.rel_append he (.cons ⟨rfl, filled, rfl, defined⟩ .nil))⟩

/-- A change on the way through an array is one of its last table. -/
theorem update_array {change : Table → Except Defect Table} {key k : Key} {extent e : Extent}
    {elements : List (Extent × Value)} {t t' : Table} (hk : k.name = key.name)
    (hc : change t = .ok t') :
    Table.update false change [k]
        ⟨.header, [(key, extent, .arrayOfTables (elements ++ [(e, t.value)]))]⟩ =
      .ok ⟨.header, [(key, extent, .arrayOfTables (elements ++ [(e, t'.value)]))]⟩ := by
  have last : (elements ++ [(e, t.value)]).getLast? = some (e, .table t.kind t.entries) :=
    List.getLast?_concat
  rw [Table.update, hk, get?_single]
  dsimp only
  rw [last]
  dsimp only
  rw [Table.update, hc, List.dropLast_concat]
  exact congrArg Except.ok (replace_single _ _ _ _ _)

theorem exists_addTo_part {o : Outline} {p : Part} {d : Signatures} {ds : List WrittenDefinition}
    {s : Section} {os : List Outline} {root : Table} (hs : (WrittenSection.part p ds).Makes s)
    (hd : ds.map WrittenDefinition.decode = d.entries) (hr : Holds (os ++ [o]) root)
    (new : p ∉ o.parts.map Prod.fst) :
    ∃ root', s.addTo root = .ok root' ∧
      Holds (os ++ [⟨o.name, o.parts ++ [(p, d)]⟩]) root' := by
  -- The path of the header leads into the table of the last collection.
  cases hs with
  | @part _ _ ms parentExtent keyExtent extent hms =>
    generalize hall : os ++ [o] = all at hr
    cases hr with
    | empty => simp at hall
    | @array _ key rootExtent elements hk he =>
      subst hall
      obtain ⟨before, last, rfl, hbefore, hlast⟩ := exists_of_forall₂_append he
      obtain ⟨⟨elementExtent, v⟩, none, ho, hn, rfl⟩ := List.forall₂_cons_left_iff.1 hlast
      obtain rfl := List.forall₂_nil_left_iff.1 hn
      obtain ⟨t, rfl⟩ : ∃ t : Table, v = t.value := by
        cases ho with
        | @intro _ _ _ entries => exact ⟨⟨.header, _ :: entries⟩, rfl⟩
      obtain ⟨t', ht, ho'⟩ := exists_define ho hd hms new keyExtent extent
      unfold Section.addTo
      dsimp only
      rw [path_inside keyName?_collectionsKey p.keyName?_key]
      exact ⟨_, update_array hk.symm ht, .array hk (List.rel_append hbefore (.cons ho' .nil))⟩

/-! ### Adding collections -/

/-- The dictionaries of a collection that are there. -/
def partsOf (c : Collection) : List (Part × Signatures) :=
  (c.fields.map fun d => (Part.fields, d)).toList ++
    (c.computedFields.map fun d => (Part.computedFields, d)).toList

def outlineOf (c : Collection) : Outline := ⟨c.name, partsOf c⟩

/-- The definitions written for a dictionary are its entries. -/
def IsPart (w : Part × List WrittenDefinition) (p : Part × Signatures) : Prop :=
  w.1 = p.1 ∧ w.2.map WrittenDefinition.decode = p.2.entries

theorem nodup_partsOf (c : Collection) : ((partsOf c).map Prod.fst).Nodup := by
  unfold partsOf
  cases c.fields with
  | none => cases c.computedFields <;> simp
  | some fields => cases c.computedFields <;> simp

theorem WrittenCollection.IsOf.parts {w : WrittenCollection} {c : Collection} (h : w.IsOf c) :
    List.Forall₂ IsPart w.parts (partsOf c) := by
  have part (p : Part) {ds : Option (List WrittenDefinition)} {d : Option Signatures}
      (h : ds.map (List.map WrittenDefinition.decode) = d.map Dictionary.entries) :
      List.Forall₂ IsPart (ds.map fun ds => (p, ds)).toList (d.map fun d => (p, d)).toList := by
    cases ds with
    | none =>
      obtain rfl := Option.map_eq_none_iff.1 h.symm
      exact .nil
    | some ds =>
      obtain ⟨d, rfl, hd⟩ := Option.map_eq_some_iff.1 h.symm
      exact .cons ⟨rfl, hd.symm⟩ .nil
  exact List.rel_append (part .fields h.fields) (part .computedFields h.computedFields)

theorem exists_add_parts {written : List (Part × List WrittenDefinition)}
    {parts : List (Part × Signatures)} {sections : List Section} {os : List Outline} {o : Outline}
    {root : Table} (h : List.Forall₂ IsPart written parts)
    (hs : List.Forall₂ WrittenSection.Makes (written.map fun p => .part p.1 p.2) sections)
    (keys : ((o.parts ++ parts).map Prod.fst).Nodup) (hr : Holds (os ++ [o]) root) :
    ∃ root', sections.foldlM Section.addTo root = .ok root' ∧
      Holds (os ++ [⟨o.name, o.parts ++ parts⟩]) root' := by
  induction h generalizing o sections root with
  | nil =>
    rw [List.forall₂_nil_left_iff.1 hs, List.append_nil]
    exact ⟨root, rfl, hr⟩
  | @cons w p written parts hp _ ih =>
    -- The table that the first section leaves is the one of an outline with one part more.
    obtain ⟨s, rest, first, more, rfl⟩ := List.forall₂_cons_left_iff.1 hs
    have new := fst_not_mem_of_nodup keys
    have next : o.parts ++ p :: parts = (o.parts ++ [p]) ++ parts := by
      rw [List.append_assoc, List.singleton_append]
    dsimp only at first
    rw [hp.1] at first
    obtain ⟨root', added, hr'⟩ := exists_addTo_part first hp.2 hr new
    rw [next] at keys ⊢
    obtain ⟨last, run, hl⟩ := ih more keys hr'
    refine ⟨last, ?_, hl⟩
    rw [List.foldlM_cons, added]
    exact run

theorem exists_add_collection {w : WrittenCollection} {c : Collection} {sections : List Section}
    {os : List Outline} {root : Table} (h : w.IsOf c)
    (hs : List.Forall₂ WrittenSection.Makes w.sections sections) (hr : Holds os root) :
    ∃ root', sections.foldlM Section.addTo root = .ok root' ∧
      Holds (os ++ [outlineOf c]) root' := by
  obtain ⟨s, rest, first, more, rfl⟩ := List.forall₂_cons_left_iff.1 hs
  obtain ⟨root', added, hr'⟩ := exists_addTo_element first hr
  rw [h.name] at hr'
  have keys : ((([] : List (Part × Signatures)) ++ partsOf c).map Prod.fst).Nodup := nodup_partsOf c
  obtain ⟨last, run, hl⟩ := exists_add_parts h.parts more keys hr'
  refine ⟨last, ?_, hl⟩
  rw [List.foldlM_cons, added]
  exact run

theorem exists_add_collections {ws : List WrittenCollection} {cs : List Collection}
    {sections : List Section} {os : List Outline} {root : Table}
    (h : List.Forall₂ WrittenCollection.IsOf ws cs)
    (hs : List.Forall₂ WrittenSection.Makes (ws.flatMap WrittenCollection.sections) sections)
    (hr : Holds os root) :
    ∃ root', sections.foldlM Section.addTo root = .ok root' ∧
      Holds (os ++ cs.map outlineOf) root' := by
  induction h generalizing os sections root with
  | nil =>
    rw [List.forall₂_nil_left_iff.1 hs, List.map_nil, List.append_nil]
    exact ⟨root, rfl, hr⟩
  | @cons w c ws cs hc _ ih =>
    rw [List.flatMap_cons] at hs
    obtain ⟨first, more, rfl, hfirst, hmore⟩ := exists_of_forall₂_append hs
    obtain ⟨root', added, hr'⟩ := exists_add_collection hc hfirst hr
    obtain ⟨last, run, hl⟩ := ih hmore hr'
    rw [List.append_assoc, List.singleton_append] at hl
    refine ⟨last, ?_, hl⟩
    rw [List.foldlM_append, added]
    exact run

/-- The table of a dump holds the collections that are written, in their order. -/
theorem exists_tableOf_dump {ws : List WrittenCollection} {cs : List Collection} {text : Text}
    (hd : IsDump ws text) (h : List.Forall₂ WrittenCollection.IsOf ws cs) :
    ∃ t, tableOf text = .ok t ∧ Holds (cs.map outlineOf) t := by
  obtain ⟨ss, taken, lines⟩ := exists_statements?_dump hd
  have sections : (ws.flatMap WrittenCollection.sections).flatMap WrittenSection.lines =
      ws.flatMap WrittenCollection.lines := by
    rw [List.flatMap_assoc]
    exact List.flatMap_congr fun w _ => w.flatMap_sections
  rw [← sections] at lines
  obtain ⟨sections, document, makes⟩ := exists_sections lines
  obtain ⟨t, run, ht⟩ := exists_add_collections h makes .empty
  refine ⟨t, ?_, ht⟩
  unfold tableOf
  rw [taken]
  show (Document.ofStatements ss).table = .ok t
  rw [document]
  unfold Document.table
  rw [fill]
  exact run

end Toml
end CollectionTypes
