import CollectionTypes.Dump.Load
import CollectionTypes.Proofs.JsonCollections
import CollectionTypes.Proofs.Trimming
import CollectionTypes.Proofs.ValidNames

/-!
# Dumps in JSON

A dump in JSON loads exactly if it is one written value between blanks that describes collections
with valid names, and it loads as the collections that it describes, in order. One direction is for
any ignored values, the other for values that a reader of bounded depth can take.
-/

namespace CollectionTypes.Json

/-! ### Lists of collections -/

theorem sound_takeCollections (depth : Nat) :
    Sound (takeCollections depth) (ListOf (IsDescribed anything)) := by
  intro t cs rest h
  unfold takeCollections at h
  split at h
  next => simp [atNext] at h
  next c ds hd =>
    obtain ⟨a, rfl⟩ := exists_space_of_skipSpace hd
    split at h
    next hl =>
      split at h
      next => simp [atNext] at h
      next depth =>
        obtain ⟨w, hw, hcs⟩ := exists_list_of_enclosed (sound_takeCollection depth) h
        exact ⟨a, w, by rw [hl, hw], hcs⟩
    next => exact absurd h mismatched_ne_ok

theorem accepts_takeCollections {bound depth : Nat} {es : List (Element Written)}
    {ds : List Description}
    (h : List.Forall₂ (Describes (Plain bound)) (es.map Element.value) ds)
    (hd : bound + 4 ≤ depth) (blank : Space) :
    Accepts (takeCollections depth) (.list blank es) (ds.map Description.collection) := by
  obtain ⟨depth, rfl⟩ := Nat.exists_eq_add_of_le hd
  have accepted : List.Forall₂ (fun e c => Accepts (takeCollection (bound + 3 + depth)) e.value c)
      es (ds.map Description.collection) := by
    rw [List.forall₂_map_right_iff]
    apply (List.forall₂_map_left_iff.1 h).imp
    intro e d hd
    exact hd.accepted (Nat.le_add_right _ _)
  intro a t _
  rw [show bound + 4 + depth = (bound + 3 + depth) + 1 by omega, text_list_append,
    takeCollections, skipSpace_append_cons a (by decide)]
  exact enclosed_takeElements accepted blank t

/-! ### Listings -/

theorem takeListingMember_data (depth : Nat) :
    takeListingMember depth none dataKey = takeAfterColon (takeCollections depth) some := by
  funext t
  rfl

theorem takeListingMember_other (depth : Nat) {key : Text} (hk : key ≠ dataKey)
    (gathered : Option (List Collection)) :
    takeListingMember depth gathered key = skipAfterColon gathered := by
  funext t
  simp only [takeListingMember, hk, if_false]
  rfl

/-- Reading a member of a listing fills its only slot or skips the value. -/
inductive TakesData (gathered : Option (List Collection)) (key : Text) (w : Written) :
    Option (List Collection) → Prop
  | data {cs : List Collection} : key = dataKey → gathered = none →
    ListOf (IsDescribed anything) w cs → TakesData gathered key w (some cs)
  | other : key ≠ dataKey → TakesData gathered key w gathered

theorem soundMember_takeListingMember (depth : Nat) :
    SoundMember (takeListingMember depth) TakesData := by
  intro gathered key t gathered' rest h
  by_cases hk : key = dataKey
  · subst hk
    cases gathered with
    | some cs => simp [takeListingMember] at h
    | none =>
      rw [takeListingMember_data] at h
      obtain ⟨between, a, w, cs, rfl, hw, rfl⟩ :=
        exists_value_of_takeAfterColon (sound_takeCollections depth) h
      exact ⟨between, a, w, rfl, .data rfl rfl hw⟩
  · rw [takeListingMember_other depth hk] at h
    obtain ⟨rfl, between, a, w, rfl⟩ := exists_value_of_skipAfterColon h
    exact ⟨between, a, w, rfl, .other hk⟩

theorem Chain.fills_data {gathered gathered' : Option (List Collection)}
    {ms : List (Member Written)} (h : Chain TakesData gathered ms gathered') :
    Fills (ListOf (IsDescribed anything)) gathered (valuesAt dataKey ms) gathered' := by
  apply h.fills id
  · intro gathered w gathered' h
    cases h with
    | data _ hg hw => exact ⟨hg, _, hw, rfl⟩
    | other hk => exact absurd rfl hk
  · intro gathered k w gathered' hk h
    cases h with
    | data he => exact absurd he hk
    | other => rfl

/-- Members with one value for the data are taken, whatever stands beside it. -/
theorem chain_of_fills_data {depth : Nat} {gathered gathered' : Option (List Collection)}
    {ms : List (Member Written)} (keys : TextKeys ms)
    (h : Fills (Accepts (takeCollections depth)) gathered (valuesAt dataKey ms) gathered') :
    Chain (AcceptsMember (takeListingMember depth)) gathered ms gathered' := by
  induction ms generalizing gathered with
  | nil =>
    rw [valuesAt_nil, fills_nil_iff] at h
    rw [h]
    exact .nil gathered
  | cons m ms ih =>
    obtain ⟨⟨key, hk⟩, keys⟩ := List.forall_mem_cons.1 keys
    by_cases he : key = dataKey
    · subst he
      rw [valuesAt_cons_of_eq hk, fills_cons_iff] at h
      obtain ⟨rfl, hv, cs, hcs, rfl⟩ := h
      have step : AcceptsMember (takeListingMember depth) none dataKey m.value (some cs) := by
        intro between a t ht
        rw [takeListingMember_data]
        exact hcs.takeAfterColon some between a ht
      refine .cons hk step (ih keys ?_)
      rw [hv]
      exact .keep (some cs)
    · rw [valuesAt_cons_of_ne (by rw [hk]; simpa using he)] at h
      refine .cons hk ?_ (ih keys h)
      intro between a t ht
      rw [takeListingMember_other depth he]
      exact skipAfterColon_value gathered between a m.value ht

/-- A value whose list of collections describes these collections. -/
def IsDump (w : Written) (cs : List Collection) : Prop :=
  ∃ elements, CollectionArray w elements ∧
    List.Forall₂ (IsDescribed anything) elements cs

theorem ListOf.isDump {w : Written} {cs : List Collection}
    (h : ListOf (IsDescribed anything) w cs) : IsDump w cs := by
  obtain ⟨blank, es, rfl, hes⟩ := h
  exact ⟨_, .list, List.forall₂_map_left_iff.2 hes⟩

theorem Chain.isDump {ms : List (Member Written)} {cs : List Collection}
    (h : Chain TakesData none ms (some cs)) (blank : Space) : IsDump (.object blank ms) cs := by
  have hfills := h.fills_data
  cases hv : valuesAt dataKey ms with
  | nil =>
    rw [hv, fills_nil_iff] at hfills
    exact absurd hfills (by simp)
  | cons w ws =>
    rw [hv, fills_cons_iff] at hfills
    obtain ⟨_, rfl, cs', ⟨inner, es, rfl, hes⟩, he⟩ := hfills
    obtain rfl := Option.some.inj he
    exact ⟨_, .listing h.keys hv, List.forall₂_map_left_iff.2 hes⟩

theorem sound_takeListing (depth : Nat) :
    Sound (takeListing depth) fun w cs => IsDump w cs ∧ ∃ blank ms, w = .object blank ms := by
  intro t cs rest h
  unfold takeListing at h
  split at h
  next => simp [atNext] at h
  next c ds hd =>
    obtain ⟨a, rfl⟩ := exists_space_of_skipSpace hd
    split at h
    next ho =>
      split at h
      next => simp [atNext] at h
      next depth =>
        obtain ⟨u, hu, hr⟩ := ok_of_enclosed h
        unfold takeListingMembers at hu
        split at hu
        next => simp at hu
        next cs' r hm =>
          obtain ⟨rfl, rfl⟩ := Prod.mk.inj (Except.ok.inj hu)
          obtain ⟨b, ms, v, rfl, rfl, hms⟩ :=
            exists_members_of_takeMembers (soundMember_takeListingMember depth) hm
          refine ⟨a, .object b ms, ?_, hms.isDump b, b, ms, rfl⟩
          obtain rfl : v = rest := (Prod.mk.inj hr).1
          rw [text_object_append, ho]
        next => simp at hu
    next => exact absurd h mismatched_ne_ok

theorem accepts_takeListing {bound depth : Nat} {ms : List (Member Written)} {inner : Space}
    {es : List (Element Written)} {ds : List Description}
    (keys : TextKeys ms) (hv : valuesAt dataKey ms = [.list inner es])
    (h : List.Forall₂ (Describes (Plain bound)) (es.map Element.value) ds)
    (hd : bound + 5 ≤ depth) (blank : Space) :
    Accepts (takeListing depth) (.object blank ms) (ds.map Description.collection) := by
  obtain ⟨depth, rfl⟩ := Nat.exists_eq_add_of_le hd
  have hfills : Fills (Accepts (takeCollections (bound + 4 + depth))) none (valuesAt dataKey ms)
      (some (ds.map Description.collection)) := by
    rw [hv]
    exact .fill (accepts_takeCollections h (Nat.le_add_right _ _) inner)
  intro a t _
  rw [show bound + 5 + depth = (bound + 4 + depth) + 1 by omega, text_object_append,
    takeListing, skipSpace_append_cons a (by decide)]
  simp only [if_true, takeListingMembers]
  rw [takeMembers_separated (chain_of_fills_data keys hfills) true blank t]
  exact enclosed_ok (closeObject_closing t)

/-! ### Dumps -/

theorem ok_of_whole {α : Type} {taken : Taken α} {x : α} (h : whole taken = .ok x) :
    ∃ a : Space, taken = .ok (x, a.val) := by
  unfold whole at h
  split at h
  next => simp at h
  next y rest =>
    split at h
    next hs =>
      obtain rfl := Except.ok.inj h
      obtain ⟨a, rfl⟩ := exists_space_of_skipSpace hs
      exact ⟨a, by rw [List.append_nil]⟩
    next => simp [atNext] at h

theorem whole_space {α : Type} (x : α) (a : Space) : whole (.ok (x, a.val)) = .ok x := by
  have h := skipSpace_append a []
  rw [List.append_nil] at h
  rw [whole, h]
  rfl

theorem isBlank_of_isSpace {c : Char} (h : isSpace c = true) : Text.isBlank c = true := by
  simp only [isSpace, Bool.or_eq_true, beq_iff_eq] at h
  rcases h with ((rfl | rfl) | rfl) | rfl <;> decide

theorem trimStart_space_append (a : Space) {c : Char} (hc : Text.isBlank c = false) (t : Text) :
    Text.trimStart (a.val ++ c :: t) = c :: t := by
  have blank : Text.Blank a.val := by
    intro c hc
    exact isBlank_of_isSpace (List.all_eq_true.1 a.property c hc)
  rw [Text.trimStart_blank_append blank, Text.trimStart_cons hc]

theorem isList_list (a blank : Space) (es : List (Element Written)) (t : Text) :
    isList (a.val ++ ((Written.list blank es).text ++ t)) = true := by
  rw [text_list_append, isList, trimStart_space_append a (by decide)]
  rfl

theorem isList_object (a blank : Space) (ms : List (Member Written)) (t : Text) :
    isList (a.val ++ ((Written.object blank ms).text ++ t)) = false := by
  rw [text_object_append, isList, trimStart_space_append a (by decide)]
  rfl

/-- A dump that is read is one value between blanks, a list exactly if it starts as one. -/
theorem exists_dump_of_takeDump {source : Text} {cs : List Collection}
    (h : takeDump source = .ok cs) :
    ∃ (before after : Space) (w : Written), source = before.val ++ (w.text ++ after.val) ∧
      IsDump w cs ∧ (isList source = true ↔ ∃ blank es, w = .list blank es) := by
  unfold takeDump at h
  split at h
  next =>
    obtain ⟨after, ht⟩ := ok_of_whole h
    obtain ⟨before, w, rfl, hw⟩ := sound_takeCollections maxDepth ht
    have hd := hw.isDump
    obtain ⟨blank, es, rfl, _⟩ := hw
    refine ⟨before, after, _, rfl, hd, ?_⟩
    rw [isList_list]
    exact ⟨fun _ => ⟨blank, es, rfl⟩, fun _ => rfl⟩
  next =>
    obtain ⟨after, ht⟩ := ok_of_whole h
    obtain ⟨before, w, rfl, hd, blank, ms, rfl⟩ := sound_takeListing maxDepth ht
    refine ⟨before, after, _, rfl, hd, ?_⟩
    rw [isList_object]
    constructor
    · intro hf
      exact absurd hf (by decide)
    · rintro ⟨_, _, he⟩
      exact absurd he (by simp)

theorem takeDump_of_described {bound : Nat} (hb : bound + 5 ≤ maxDepth) (before after : Space)
    {w : Written} {elements : List Written} {ds : List Description}
    (hw : CollectionArray w elements)
    (hd : List.Forall₂ (Describes (Plain bound)) elements ds) :
    takeDump (before.val ++ (w.text ++ after.val)) = .ok (ds.map Description.collection) := by
  have ends : endsNumber after.val = true := by
    have h := endsNumber_space_append after (t := []) rfl
    rwa [List.append_nil] at h
  unfold takeDump
  cases hw with
  | @list blank es =>
    have accepted := accepts_takeCollections hd (Nat.le_trans (by omega) hb) blank
    rw [isList_list, if_pos rfl, accepted before ends, whole_space]
  | @listing blank inner ms es keys hv =>
    have accepted := accepts_takeListing keys hv hd hb blank
    rw [isList_object, if_neg (by decide), accepted before ends, whole_space]

theorem describedBy_json_eq_ok_iff {source : Source} {cs : List Collection} :
    DumpFormat.json.describedBy source = .ok cs ↔ takeDump source.text = .ok cs := by
  simp only [DumpFormat.describedBy, collectionsOf]
  cases takeDump source.text with
  | error e => simp [Except.mapError]
  | ok ds => simp [Except.mapError]

/-- Every list of descriptions with valid names can be written so that it loads. -/
theorem ofDump_writtenAll (filename : Text) {ds : List Description}
    (hv : ValidNames (ds.map Description.collection)) :
    Collection.ofDump .json ⟨filename, (Description.writtenAll ds).text⟩ =
      .ok (ds.map Description.collection) := by
  have described := forall₂_writtenAll (Plain 0) ds
  have taken :=
    takeDump_of_described (by decide) .none .none (collectionArray_writtenAll ds) described
  rw [Space.val_none, List.nil_append, List.append_nil] at taken
  rw [Collection.ofDump_eq_ok_iff, describedBy_json_eq_ok_iff]
  exact ⟨taken, hv⟩

/-- A dump of described collections with valid names loads as these collections, in order. Ignored
members may have any values, in a definition those nested at most 100 deep with 64-bit numbers. -/
theorem ofDump_of_described (filename : Text) (before after : Space) {w : Written}
    {elements : List Written} {ds : List Description}
    (hw : CollectionArray w elements)
    (hd : List.Forall₂ (Describes (Plain 100)) elements ds)
    (hv : ValidNames (ds.map Description.collection)) :
    Collection.ofDump .json ⟨filename, before.val ++ (w.text ++ after.val)⟩ =
      .ok (ds.map Description.collection) := by
  rw [Collection.ofDump_eq_ok_iff, describedBy_json_eq_ok_iff]
  exact ⟨takeDump_of_described (by decide) before after hw hd, hv⟩

theorem ofDump_of_described_listing :
    let d : Description := ⟨"User", some [("a", "Int"), ("a", "unknown")], none⟩
    let number : Numeral := ⟨true, ⟨⟨['1'], by decide⟩, by decide⟩, none, none⟩
    let second : Written := .object .none [textMember "index" (.number number)]
    let fields : Written :=
      .object .none [textMember "a" (.string (.ofText "Int")), textMember "a" second]
    let user : Written := .object .none [textMember CollectionParts.fieldsKey fields,
      textMember CollectionParts.nameKey (.string (.ofText "User"))]
    let listing : Written := .object .none [textMember "after" .null,
      textMember dataKey (.list .none [textElement user])]
    CollectionArray listing [user] ∧ List.Forall₂ (Describes (Plain 100)) [user] [d] ∧
      ValidNames ([d].map Description.collection) ∧
      listing.text = "\x7b\"after\":null,\"data\":[\x7b\"fields\":".toList ++
        "\x7b\"a\":\"Int\",\"a\":\x7b\"index\":-1\x7d\x7d,\"name\":\"User\"\x7d]\x7d".toList ∧
      Collection.ofDump .json ⟨"dump.json", "\n".toList ++ (listing.text ++ " ".toList)⟩ =
        .ok ([d].map Description.collection) := by
  intro d number second fields user listing
  have key (k : Text) (w : Written) : (textMember k w).key.decode = some k :=
    Literal.decode_ofText k
  have two (k l : Text) (v w : Written) : TextKeys [textMember k v, textMember l w] :=
    textKeys_cons (key k v) (textKeys_cons (key l w) textKeys_nil)
  have array : CollectionArray listing [user] := by
    have data : valuesAt dataKey [textMember "after" .null,
        textMember dataKey (.list .none [textElement user])] =
          [.list .none [textElement user]] := by
      rw [valuesAt_textMember, if_neg (by decide), valuesAt_textMember, if_pos rfl]
      rfl
    exact .listing (two _ _ _ _) data
  have integer : Plain 100 (.number number) := .number ⟨rfl, rfl, by decide⟩
  have ignores : Ignores (Plain 100) [textMember "index" (.number number)] :=
    ⟨textKeys_cons (key _ _) textKeys_nil, List.forall_mem_singleton.2 fun _ => integer⟩
  have absent : valuesAt signatureKey [textMember "index" (.number number)] = [] := by
    rw [valuesAt_textMember, if_neg (by decide)]
    rfl
  have defined : Defined (Plain 100) fields d.fields :=
    .object (.cons ⟨key _ _, .text (Literal.decode_ofText _)⟩
      (.cons ⟨key _ _, .absent ignores absent⟩ .nil))
  have described : Describes (Plain 100) user d := by
    have name : valuesAt CollectionParts.nameKey [textMember CollectionParts.fieldsKey fields,
        textMember CollectionParts.nameKey (.string (.ofText "User"))] =
          [.string (.ofText "User")] := by
      rw [valuesAt_textMember, if_neg (by decide), valuesAt_textMember, if_pos rfl]
      rfl
    apply Describes.object (two _ _ _ _) name (Literal.decode_ofText _)
    · rw [valuesAt_textMember, if_pos rfl, valuesAt_textMember, if_neg (by decide)]
      exact .present defined
    · rw [valuesAt_textMember, if_neg (by decide), valuesAt_textMember, if_neg (by decide)]
      exact .absent
  have names : ValidNames ([d].map Description.collection) := ⟨by decide, by decide⟩
  exact ⟨array, .cons described .nil, names, by decide +kernel,
    ofDump_of_described "dump.json" ⟨['\n'], rfl⟩ ⟨[' '], rfl⟩ array (.cons described .nil) names⟩

/-- A collection has the name and the definitions of a description, of definitions with one key the
last one. -/
structure Follows (c : Collection) (d : Description) : Prop where
  name : c.name = d.name
  fields : Option.Rel HoldsLast d.fields c.fields
  computedFields : Option.Rel HoldsLast d.computedFields c.computedFields

theorem rel_holdsLast_map (definitions : Option (List (Text × Text))) :
    Option.Rel HoldsLast definitions (definitions.map Dictionary.ofList) := by
  cases definitions with
  | none => exact .none
  | some ds => exact .some (holdsLast_ofList ds)

theorem Description.follows (d : Description) : Follows d.collection d :=
  ⟨rfl, rel_holdsLast_map d.fields, rel_holdsLast_map d.computedFields⟩

/-- A text that loads is one value between blanks, and the collections are readings of the elements
of its list of collections, with valid names. -/
theorem exists_described_of_ofDump {source : Source} {cs : List Collection}
    (h : Collection.ofDump .json source = .ok cs) :
    ∃ (before after : Space) (w : Written) (elements : List Written),
      source.text = before.val ++ (w.text ++ after.val) ∧
      ((Text.trimStart source.text).head? = some '[' ↔ ∃ blank es, w = .list blank es) ∧
      CollectionArray w elements ∧ elements.length = cs.length ∧
      List.Forall₂ (fun e c => ∃ d, Describes anything e d ∧ Follows c d) elements cs ∧
      ValidNames cs := by
  rw [Collection.ofDump_eq_ok_iff, describedBy_json_eq_ok_iff] at h
  obtain ⟨hdump, hv⟩ := h
  obtain ⟨before, after, w, ht, ⟨elements, ha, he⟩, hl⟩ := exists_dump_of_takeDump hdump
  refine ⟨before, after, w, elements, ht, ?_, ha, he.length_eq, he.imp ?_, hv⟩
  · rw [← hl, isList, decide_eq_true_eq]
  · rintro e c ⟨d, hd, rfl⟩
    exact ⟨d, hd, d.follows⟩

theorem exists_described_of_ofDump_list :
    let source : Source := ⟨"dump.json",
      " [[\"User\",\x7b\"a\":\"Int\",\"a\":\x7b\"index\":1.5\x7d\x7d]]\n"⟩
    let cs : List Collection := [⟨"User", some (.ofList [("a", "unknown")]), none⟩]
    Collection.ofDump .json source = .ok cs ∧
      ∃ (before after : Space) (w : Written) (elements : List Written),
        source.text = before.val ++ (w.text ++ after.val) ∧
        ((Text.trimStart source.text).head? = some '[' ↔ ∃ blank es, w = .list blank es) ∧
        CollectionArray w elements ∧ elements.length = cs.length ∧
        List.Forall₂ (fun e c => ∃ d, Describes anything e d ∧ Follows c d) elements cs ∧
        ValidNames cs := by
  intro source cs
  have h : Collection.ofDump .json source = .ok cs := by decide +kernel
  exact ⟨h, exists_described_of_ofDump h⟩

end CollectionTypes.Json
