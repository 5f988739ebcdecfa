import CollectionTypes.Proofs.Occurrences
import CollectionTypes.Proofs.ValidNames
import Mathlib.Data.List.Nodup
import Mathlib.Order.Lattice.Nat

/-!
# The check of collection names

The check accepts a list of collections if every name is acceptable and none stands twice in it. Of
any other list it reports the first collection that offends: an unacceptable name with the first
reason that applies, or else a name that was used before. The place that is shown with it is a
quoted occurrence of the name in the source, counted from the left: the first one for an
unacceptable name, and for a repeated one the occurrence whose number is that of the collections
that had it before.
-/

namespace CollectionTypes

/-! ### Acceptable names -/

namespace Text

/-- An ASCII letter. -/
def IsLetter (c : Char) : Prop := ('a' ≤ c ∧ c ≤ 'z') ∨ ('A' ≤ c ∧ c ≤ 'Z')

/-- An ASCII digit. -/
def IsDecimal (c : Char) : Prop := '0' ≤ c ∧ c ≤ '9'

/-- A letter, `_` or `$`, and after it letters, digits, `_` and `$`. -/
def IdentifierShape (name : Text) : Prop :=
  ∃ c cs, name = c :: cs ∧ (IsLetter c ∨ c = '_' ∨ c = '$') ∧
    ∀ d ∈ cs, IsLetter d ∨ IsDecimal d ∨ d = '_' ∨ d = '$'

structure Acceptable (name : Text) : Prop where
  ne_nil : name ≠ []
  shape : IdentifierShape name
  not_reserved : name ∉ reservedTypeNames

theorem isAlpha_iff {c : Char} : c.isAlpha = true ↔ IsLetter c := by
  have ranges : c.isAlpha =
      (decide ('A' ≤ c ∧ c ≤ 'Z') || (decide ('a' ≤ c) && decide (c ≤ 'z'))) := rfl
  simp only [ranges, IsLetter, Bool.or_eq_true, Bool.and_eq_true, decide_eq_true_eq]
  exact or_comm

theorem isDigit_iff {c : Char} : c.isDigit = true ↔ IsDecimal c := by
  simp only [Char.isDigit, IsDecimal, Char.le_def, Bool.and_eq_true, decide_eq_true_eq, ge_iff_le]

theorem isIdentifier_iff {name : Text} : isIdentifier name = true ↔ IdentifierShape name := by
  cases name with
  | nil => simp [isIdentifier, IdentifierShape]
  | cons c cs =>
    simp only [isIdentifier, isNameStart, isNamePart, Char.isAlphanum, Bool.and_eq_true,
      Bool.or_eq_true, List.all_eq_true, beq_iff_eq, isAlpha_iff, isDigit_iff, or_assoc]
    constructor
    · rintro ⟨start, parts⟩
      exact ⟨c, cs, rfl, start, parts⟩
    · rintro ⟨d, ds, he, start, parts⟩
      obtain ⟨rfl, rfl⟩ := List.cons.inj he
      exact ⟨start, parts⟩

theorem isReservedTypeName_iff {name : Text} :
    isReservedTypeName name = true ↔ name ∈ reservedTypeNames := by
  simp [isReservedTypeName]

theorem usable_iff_acceptable {name : Text} : Usable name ↔ Acceptable name := by
  rw [Usable, isIdentifier_iff, ← Bool.not_eq_true, isReservedTypeName_iff]
  constructor
  · rintro ⟨shape, not_reserved⟩
    refine ⟨?_, shape, not_reserved⟩
    rintro rfl
    obtain ⟨c, cs, hn, -⟩ := shape
    exact absurd hn (List.cons_ne_nil c cs).symm
  · rintro ⟨-, shape, not_reserved⟩
    exact ⟨shape, not_reserved⟩

end Text

/-- The first reason that applies against a name. -/
inductive NameDefect.FirstReason (name : Text) : NameDefect → Prop
  | empty (h : name = []) : FirstReason name .empty
  | notIdentifier (ne : name ≠ []) (h : ¬ Text.IdentifierShape name) :
      FirstReason name .notIdentifier
  | reserved (ne : name ≠ []) (shape : Text.IdentifierShape name)
      (h : name ∈ Text.reservedTypeNames) : FirstReason name .reserved

theorem NameDefect.ofName?_eq_some_iff {name : Text} {defect : NameDefect} :
    ofName? name = some defect ↔ FirstReason name defect := by
  constructor
  · intro h
    unfold ofName? at h
    split_ifs at h with empty shape reserved
    · obtain rfl := Option.some.inj h
      exact .empty (List.isEmpty_iff.1 empty)
    · obtain rfl := Option.some.inj h
      refine .notIdentifier (mt List.isEmpty_iff.2 empty) ?_
      rw [← Text.isIdentifier_iff]
      simpa using shape
    · obtain rfl := Option.some.inj h
      refine .reserved (mt List.isEmpty_iff.2 empty) ?_ (Text.isReservedTypeName_iff.1 reserved)
      rw [← Text.isIdentifier_iff]
      simpa using shape
  · rintro (h | ⟨ne, h⟩ | ⟨ne, shape, h⟩)
    · rw [h]
      rfl
    · rw [← Text.isIdentifier_iff] at h
      simp [ofName?, ne, h]
    · rw [← Text.isIdentifier_iff] at shape
      rw [← Text.isReservedTypeName_iff] at h
      simp [ofName?, ne, shape, h]

theorem NameDefect.FirstReason.not_usable {name : Text} {defect : NameDefect}
    (h : FirstReason name defect) : ¬ Text.Usable name := by
  intro usable
  have none := ofName?_eq_none_iff.2 usable
  rw [ofName?_eq_some_iff.2 h] at none
  exact Option.some_ne_none defect none

/-! ### Collections that offend -/

namespace Collection

theorem eq_take_append_cons {collections : List Collection} {i : Nat} {c : Collection}
    (h : collections[i]? = some c) :
    collections = collections.take i ++ c :: collections.drop (i + 1) := by
  obtain ⟨hi, rfl⟩ := List.getElem?_eq_some_iff.1 h
  rw [← List.drop_eq_getElem_cons hi, List.take_append_drop]

/-- The collection with this number has an unacceptable name, or the name of an earlier one. -/
def OffendsAt (collections : List Collection) (i : Nat) : Prop :=
  ∃ c, collections[i]? = some c ∧
    (¬ Text.Acceptable c.name ∨ ∃ j d, j < i ∧ collections[j]? = some d ∧ d.name = c.name)

theorem OffendsAt.of_take {collections : List Collection} {n i : Nat}
    (h : OffendsAt (collections.take n) i) : OffendsAt collections i ∧ i < n := by
  obtain ⟨c, hc, bad⟩ := h
  rw [List.getElem?_take] at hc
  split_ifs at hc with hi
  refine ⟨⟨c, hc, bad.imp_right ?_⟩, hi⟩
  rintro ⟨j, d, hj, hd, hn⟩
  rw [List.getElem?_take, if_pos (hj.trans hi)] at hd
  exact ⟨j, d, hj, hd, hn⟩

theorem validNames_iff_forall_not_offendsAt {collections : List Collection} :
    ValidNames collections ↔ ∀ i, ¬ OffendsAt collections i := by
  constructor
  · rintro ⟨usable, nodup⟩ i ⟨c, hc, bad | ⟨j, d, hj, hd, hn⟩⟩
    · exact bad (Text.usable_iff_acceptable.1 (usable c (List.mem_of_getElem? hc)))
    · rw [List.nodup_iff_getElem?_ne_getElem?] at nodup
      obtain ⟨hi, -⟩ := List.getElem?_eq_some_iff.1 hc
      refine nodup j i hj (by rwa [List.length_map]) ?_
      rw [List.getElem?_map, List.getElem?_map, hc, hd, Option.map_some, Option.map_some, hn]
  · intro good
    constructor
    · intro c hc
      obtain ⟨i, hi⟩ := List.mem_iff_getElem?.1 hc
      rw [Text.usable_iff_acceptable]
      by_contra bad
      exact good i ⟨c, hi, .inl bad⟩
    · rw [List.nodup_iff_getElem?_ne_getElem?]
      intro j i hj hi same
      rw [List.length_map] at hi
      have hi' := List.getElem?_eq_getElem hi
      have hj' := List.getElem?_eq_getElem (hj.trans hi)
      rw [List.getElem?_map, List.getElem?_map, hi', hj', Option.map_some, Option.map_some] at same
      exact good i ⟨_, hi', .inr ⟨j, _, hj, hj', Option.some.inj same⟩⟩

/-- The collections before the first one that offends are valid. -/
theorem validNames_take_of_isLeast {collections : List Collection} {i : Nat}
    (h : IsLeast {j | OffendsAt collections j} i) : ValidNames (collections.take i) := by
  rw [validNames_iff_forall_not_offendsAt]
  intro j hj
  obtain ⟨offends, hlt⟩ := hj.of_take
  exact absurd (h.2 offends) (Nat.not_le.2 hlt)

theorem exists_isLeast_offendsAt {collections : List Collection} (h : ¬ ValidNames collections) :
    ∃ i, IsLeast {j | OffendsAt collections j} i := by
  rw [validNames_iff_forall_not_offendsAt, not_forall] at h
  obtain ⟨i, hi⟩ := h
  exact ⟨_, isLeast_csInf ⟨i, not_not.1 hi⟩⟩

end Collection

/-! ### The fault that is reported -/

namespace NameFault

/-- How many occurrences of the name are passed over. -/
def earlier : NameFault → Nat
  | invalid _ _ => 0
  | duplicate _ earlier => earlier

/-- What is wrong with a collection of this name behind collections with names `before`. -/
inductive Explains (before : List Text) (name : Text) : NameFault → Prop
  | invalid {defect : NameDefect} (reason : NameDefect.FirstReason name defect) :
      Explains before name (.invalid name defect)
  | duplicate (acceptable : Text.Acceptable name) (mem : name ∈ before) :
      Explains before name (.duplicate name (before.count name))

theorem Explains.name_eq {before : List Text} {name : Text} {fault : NameFault}
    (h : fault.Explains before name) : fault.name = name := by
  cases h <;> rfl

theorem Explains.earlier_eq {before : List Text} {name : Text} {fault : NameFault}
    (h : fault.Explains before name) (usable : ∀ n ∈ before, Text.Usable n) :
    fault.earlier = before.count name := by
  cases h with
  | invalid reason =>
    have fresh : name ∉ before := fun hm => reason.not_usable (usable name hm)
    rw [List.count_eq_zero_of_not_mem fresh, earlier]
  | duplicate => rfl

theorem exists_explains {collections : List Collection} {i : Nat} {c : Collection}
    (offends : Collection.OffendsAt collections i) (hc : collections[i]? = some c) :
    ∃ fault : NameFault,
      fault.Explains ((collections.take i).map Collection.name) c.name := by
  obtain ⟨c', hc', bad⟩ := offends
  obtain rfl := Option.some.inj (hc.symm.trans hc')
  by_cases acceptable : Text.Acceptable c.name
  · obtain ⟨j, d, hj, hd, hn⟩ := bad.resolve_left (not_not_intro acceptable)
    have taken : (collections.take i)[j]? = some d := by rw [List.getElem?_take, if_pos hj, hd]
    exact ⟨_, .duplicate acceptable (List.mem_map.2 ⟨d, List.mem_of_getElem? taken, hn⟩)⟩
  · rw [← Text.usable_iff_acceptable, Text.Usable, ← NameDefect.ofName?_eq_none_iff] at acceptable
    obtain ⟨defect, hd⟩ := Option.ne_none_iff_exists'.1 acceptable
    exact ⟨_, .invalid (NameDefect.ofName?_eq_some_iff.1 hd)⟩

theorem firstAfter?_cons_of_usable {before : List Text} {c : Collection} {cs : List Collection}
    (hu : Text.Usable c.name) (hc : c.name ∉ before) :
    firstAfter? before (c :: cs) = firstAfter? (before ++ [c.name]) cs := by
  rw [firstAfter?, NameDefect.ofName?_eq_none_iff.2 hu]
  exact if_neg fun h => hc (List.count_pos_iff.1 h)

theorem firstAfter?_append {before : List Text} {good : List Collection}
    (h : firstAfter? before good = none) (cs : List Collection) :
    firstAfter? before (good ++ cs) = firstAfter? (before ++ good.map Collection.name) cs := by
  induction good generalizing before with
  | nil => rw [List.nil_append, List.map_nil, List.append_nil]
  | cons c good ih =>
    obtain ⟨valid, fresh⟩ := firstAfter?_eq_none_iff.1 h
    have usable := valid.usable c List.mem_cons_self
    have new := fresh c List.mem_cons_self
    rw [firstAfter?_cons_of_usable usable new] at h
    rw [List.cons_append, firstAfter?_cons_of_usable usable new, ih h, List.map_cons,
      List.append_assoc, List.singleton_append]

theorem firstAfter?_cons_of_explains {before : List Text} {c : Collection} {fault : NameFault}
    (h : fault.Explains before c.name) (cs : List Collection) :
    firstAfter? before (c :: cs) = some fault := by
  cases h with
  | invalid reason => rw [firstAfter?, NameDefect.ofName?_eq_some_iff.2 reason]
  | duplicate acceptable mem =>
    rw [firstAfter?, NameDefect.ofName?_eq_none_iff.2 (Text.usable_iff_acceptable.2 acceptable)]
    exact if_pos (List.count_pos_iff.2 mem)

theorem first?_append_cons {good : List Collection} {c : Collection} {fault : NameFault}
    (valid : ValidNames good) (h : fault.Explains (good.map Collection.name) c.name)
    (rest : List Collection) : first? (good ++ c :: rest) = some fault := by
  rw [first?, firstAfter?_append (first?_eq_none_iff.2 valid), List.nil_append,
    firstAfter?_cons_of_explains h]

/-- The fault that is found is that of the first collection that offends. -/
theorem first?_of_isLeast {collections : List Collection} {i : Nat} {c : Collection}
    {fault : NameFault} (least : IsLeast {j | Collection.OffendsAt collections j} i)
    (hc : collections[i]? = some c)
    (h : fault.Explains ((collections.take i).map Collection.name) c.name) :
    first? collections = some fault := by
  rw [Collection.eq_take_append_cons hc]
  exact first?_append_cons (Collection.validNames_take_of_isLeast least) h _

theorem first?_eq_some_iff {collections : List Collection} {fault : NameFault} :
    first? collections = some fault ↔
      ∃ i c, IsLeast {j | Collection.OffendsAt collections j} i ∧ collections[i]? = some c ∧
        fault.Explains ((collections.take i).map Collection.name) c.name := by
  constructor
  · intro h
    have refused : ¬ ValidNames collections := by
      rw [← first?_eq_none_iff, h]
      exact Option.some_ne_none fault
    obtain ⟨i, least⟩ := Collection.exists_isLeast_offendsAt refused
    obtain ⟨c, hc, -⟩ := least.1
    obtain ⟨fault', explains⟩ := exists_explains least.1 hc
    obtain rfl := Option.some.inj (h.symm.trans (first?_of_isLeast least hc explains))
    exact ⟨i, c, least, hc, explains⟩
  · rintro ⟨i, c, least, hc, explains⟩
    exact first?_of_isLeast least hc explains

/-- The list at its first fault. -/
theorem exists_of_first? {cs : List Collection} {fault : NameFault} (h : first? cs = some fault) :
    ∃ good c rest, cs = good ++ c :: rest ∧ ValidNames good ∧ ¬ ValidNames (good ++ [c]) ∧
      fault.name = c.name ∧ fault.earlier = (good.map Collection.name).count c.name := by
  obtain ⟨i, c, least, hc, explains⟩ := first?_eq_some_iff.1 h
  have good := Collection.validNames_take_of_isLeast least
  have refused : ¬ ValidNames (cs.take i ++ [c]) := by
    rw [← first?_eq_none_iff, first?_append_cons good explains]
    exact Option.some_ne_none fault
  exact ⟨_, c, _, Collection.eq_take_append_cons hc, good, refused, explains.name_eq,
    explains.earlier_eq (List.forall_mem_map.2 good.usable)⟩

end NameFault

/-! ### The place that is shown -/

theorem NameFault.span?_eq (fault : NameFault) (text : Text) :
    fault.span? text = Text.quotedSpan? fault.name text fault.earlier := by
  cases fault <;> rfl

theorem span?_name (source : Source) (fault : NameFault) :
    LoadError.span? (.name source fault) = fault.span? source.text := rfl

/-- The place of the quoted name with number `n`, from zero and from the left, if there are so many.
A place is a piece of the text, and this piece is the name. -/
structure Text.IsQuotedPlace (text name : Text) (n : Nat) (place : Option Span) : Prop where
  numbered : ∃ starts, Text.Matches (Text.inDoubleQuotes name) 0 text starts ∧
    place = starts[n]?.map fun start => ⟨start + 1, Text.byteLength name⟩
  covers : ∀ span, place = some span → ∃ before after, text = before ++ (name ++ after) ∧
    span = ⟨Text.byteLength before, Text.byteLength name⟩

theorem Text.isQuotedPlace_quotedSpan? (text name : Text) (n : Nat) :
    IsQuotedPlace text name n (quotedSpan? name text n) := by
  constructor
  · exact ⟨_, (matches_iff (inDoubleQuotes_ne_nil name)).2 rfl, rfl⟩
  · intro span h
    obtain ⟨start, hs, rfl⟩ := Option.map_eq_some_iff.1 h
    obtain ⟨p, rest, rfl, rfl⟩ := exists_append_of_mem_occurrences (List.mem_of_getElem? hs)
    refine ⟨p ++ ['"'], '"' :: rest, by simp, ?_⟩
    have size : '"'.utf8Size = 1 := by decide
    simp [size]

/-- The check accepts exactly the lists of acceptable and distinct names. Any other list it refuses
because of the first collection that offends. -/
theorem Collection.validated_outcome (source : Source) (collections : List Collection) :
    ((∃ accepted, validated source collections = .ok accepted) ↔
        (∀ c ∈ collections, Text.Acceptable c.name) ∧ (collections.map name).Nodup) ∧
      ∀ e, validated source collections = .error e ↔
        ∃ i c fault, IsLeast {j | OffendsAt collections j} i ∧ collections[i]? = some c ∧
          fault.Explains ((collections.take i).map name) c.name ∧ e = .name source fault ∧
          Text.IsQuotedPlace source.text c.name fault.earlier e.span? := by
  constructor
  · have valid : ValidNames collections ↔
        (∀ c ∈ collections, Text.Acceptable c.name) ∧ (collections.map name).Nodup := by
      simp only [← Text.usable_iff_acceptable]
      exact ⟨fun h => ⟨h.usable, h.nodup⟩, fun h => ⟨h.1, h.2⟩⟩
    simp only [validated_eq_ok_iff, exists_eq_left, valid]
  · intro e
    have place (fault : NameFault) : Text.IsQuotedPlace source.text fault.name fault.earlier
        (LoadError.span? (.name source fault)) := by
      rw [span?_name, fault.span?_eq]
      exact Text.isQuotedPlace_quotedSpan? source.text fault.name fault.earlier
    rw [validated_eq_error_iff]
    constructor
    · rintro ⟨fault, hf, rfl⟩
      obtain ⟨i, c, least, hc, explains⟩ := NameFault.first?_eq_some_iff.1 hf
      exact ⟨i, c, fault, least, hc, explains, rfl, explains.name_eq ▸ place fault⟩
    · rintro ⟨i, c, fault, least, hc, explains, rfl, -⟩
      exact ⟨fault, NameFault.first?_eq_some_iff.2 ⟨i, c, least, hc, explains⟩, rfl⟩

end CollectionTypes
