import CollectionTypes.Document
import CollectionTypes.Proofs.JsonLoading
import CollectionTypes.Proofs.TomlTables

/-!
# Dumps in TOML

What a written dump describes is read off the table that it becomes: the collections, in order, with
the dictionaries that are there. So a dump in TOML and one in JSON that are written from the same
collections lead to the same generated document.
-/

namespace CollectionTypes

/-! ### Dictionaries -/

namespace Dictionary

variable {κ α : Type} [DecidableEq κ]

theorem put_of_not_mem {k : κ} {es : List (κ × α)} (h : k ∉ es.map Prod.fst) (v : α) :
    put k v es = es ++ [(k, v)] := by
  induction es with
  | nil => rfl
  | cons e es ih =>
    rw [List.map_cons, List.mem_cons, not_or] at h
    rw [put, if_neg (Ne.symm h.1), ih h.2, List.cons_append]

/-- Definitions with new and distinct keys follow the entries that are there. -/
theorem entries_foldl_insert {es : List (κ × α)} {d : Dictionary κ α}
    (h : ((d.entries ++ es).map Prod.fst).Nodup) :
    (es.foldl (fun d e => d.insert e.1 e.2) d).entries = d.entries ++ es := by
  induction es generalizing d with
  | nil => exact (List.append_nil _).symm
  | cons e es ih =>
    have inserted : (d.insert e.1 e.2).entries = d.entries ++ [e] :=
      put_of_not_mem (fst_not_mem_of_nodup h) e.2
    have next : d.entries ++ e :: es = (d.insert e.1 e.2).entries ++ es := by
      rw [inserted, List.append_assoc, List.singleton_append]
    rw [next] at h ⊢
    exact ih h

theorem ofList_entries (d : Dictionary κ α) : ofList d.entries = d := by
  have entries : (ofList d.entries).entries = d.entries := entries_foldl_insert d.nodup
  obtain ⟨es, nodup⟩ := d
  generalize ofList es = d at entries ⊢
  obtain ⟨es', nodup'⟩ := d
  obtain rfl : es' = es := entries
  rfl

end Dictionary

namespace Toml

/-! ### Definitions -/

theorem signature_of_isSignature {s : Text} {v : Value} (h : IsSignature s v) (extent : Extent) :
    signature extent v = .ok s := by
  cases h with
  | text => rfl
  | @table key e hk =>
    have found : Value.signature? extent (.table .inline [(key, e, .string s)]) = some s := by
      simp [Value.signature?, Value.members?, hk]
    unfold signature
    rw [found]
    rfl

theorem signatures_of_defines {ds : List (Text × Text)} {entries : List Entry}
    (h : List.Forall₂ Defines ds entries) (d : Signatures) :
    entries.foldlM
        (fun gathered (key, e, v) => (signature e v).map (gathered.insert key.name)) d =
      .ok (ds.foldl (fun d e => d.insert e.1 e.2) d) := by
  induction h generalizing d with
  | nil => rfl
  | @cons x e ds entries hd _ ih =>
    obtain ⟨key, extent, v⟩ := e
    obtain ⟨hk, hs⟩ := hd
    rw [List.foldlM_cons, List.foldl_cons, ← ih]
    dsimp only at hk hs ⊢
    rw [signature_of_isSignature hs, hk]
    rfl

theorem signatures_of_holdsPart {p : Part × Signatures} {e : Entry} (h : HoldsPart p e) :
    signatures e.2.1 e.2.2 = .ok p.2 := by
  obtain ⟨_, entries, hv, hd⟩ := h
  have members : e.2.2.members? e.2.1 = some entries := by rw [hv]; rfl
  unfold signatures
  rw [members]
  dsimp only
  rw [signatures_of_defines hd]
  exact congrArg Except.ok p.2.ofList_entries

/-! ### Collections -/

namespace CollectionParts

/-- The parts with one more dictionary. -/
def withPart (parts : CollectionParts) : Part × Signatures → CollectionParts
  | (.fields, d) => { parts with fields := some d }
  | (.computedFields, d) => { parts with computedFields := some d }

theorem take_part {p : Part × Signatures} {e : Entry} (h : HoldsPart p e)
    (parts : CollectionParts) : parts.take e = .ok (parts.withPart p) := by
  have read := signatures_of_holdsPart h
  obtain ⟨hk, _⟩ := h
  obtain ⟨key, extent, v⟩ := e
  obtain ⟨p, d⟩ := p
  dsimp only at hk read
  unfold take
  dsimp only
  cases p with
  | fields =>
    have other : key.name ≠ nameKey := by
      rw [hk]
      exact Part.fields.key_ne_name
    rw [if_neg other, if_pos (by rw [hk]; rfl), read]
    rfl
  | computedFields =>
    have other : key.name ≠ nameKey := by
      rw [hk]
      exact Part.computedFields.key_ne_name
    have another : key.name ≠ fieldsKey := by
      rw [hk]
      decide
    rw [if_neg other, if_neg another, if_pos (by rw [hk]; rfl), read]
    rfl

theorem foldlM_take {ps : List (Part × Signatures)} {entries : List Entry}
    (h : List.Forall₂ HoldsPart ps entries) (parts : CollectionParts) :
    entries.foldlM take parts = .ok (ps.foldl withPart parts) := by
  induction h generalizing parts with
  | nil => rfl
  | cons hp _ ih =>
    rw [List.foldlM_cons, List.foldl_cons, ← ih, take_part hp]
    rfl

end CollectionParts

theorem foldl_partsOf (c : Collection) :
    (partsOf c).foldl CollectionParts.withPart ⟨some c.name, none, none⟩ =
      ⟨some c.name, c.fields, c.computedFields⟩ := by
  obtain ⟨name, fields, computedFields⟩ := c
  cases fields with
  | none => cases computedFields <;> rfl
  | some fields => cases computedFields <;> rfl

theorem collection_of_holds {c : Collection} {e : Extent × Value}
    (h : HoldsOutline (outlineOf c) e) : collection e.1 e.2 = .ok c := by
  cases h with
  | @intro key extent nameExtent entries hk hp =>
    have named : CollectionParts.take .none (key, nameExtent, .string (outlineOf c).name) =
        .ok ⟨some c.name, none, none⟩ := by
      unfold CollectionParts.take
      dsimp only
      rw [if_pos hk]
      rfl
    have taken : List.foldlM CollectionParts.take .none
        ((key, nameExtent, .string (outlineOf c).name) :: entries) =
          .ok ⟨some c.name, c.fields, c.computedFields⟩ := by
      rw [List.foldlM_cons, named, ← foldl_partsOf]
      exact CollectionParts.foldlM_take hp _
    show collectionOfMembers extent
      ((key, nameExtent, .string (outlineOf c).name) :: entries) = .ok c
    unfold collectionOfMembers
    rw [taken]

theorem mapM_of_holds {cs : List Collection} {elements : List (Extent × Value)}
    (h : List.Forall₂ HoldsOutline (cs.map outlineOf) elements) :
    elements.mapM (fun (e, v) => collection e v) = .ok cs := by
  rw [List.forall₂_map_left_iff] at h
  induction h with
  | nil => rfl
  | @cons c e cs elements hc _ ih =>
    have read := collection_of_holds hc
    rw [List.mapM_cons, ih]
    dsimp only
    rw [read]
    rfl

theorem dump_of_holds {cs : List Collection} {t : Table} (h : Holds (cs.map outlineOf) t) :
    dump t = .ok cs := by
  generalize ho : cs.map outlineOf = os at h
  cases h with
  | empty =>
    rw [List.map_eq_nil_iff.1 ho]
    rfl
  | @array _ key extent elements hk he =>
    rw [← ho] at he
    unfold dump
    rw [List.foldlM_cons]
    dsimp only
    rw [if_pos hk]
    have read : collections extent (.arrayOfTables elements) = .ok cs := mapM_of_holds he
    rw [read]
    rfl

/-- The collections that are written are read back, in their order. -/
theorem collectionsOf_dump {ws : List WrittenCollection} {cs : List Collection} {text : Text}
    (hd : IsDump ws text) (h : List.Forall₂ WrittenCollection.IsOf ws cs) :
    collectionsOf text = .ok cs := by
  obtain ⟨t, table, holds⟩ := exists_tableOf_dump hd h
  unfold collectionsOf decodeTable
  rw [table]
  dsimp only
  rw [dump_of_holds holds]
  rfl

theorem describedBy_toml_dump {ws : List WrittenCollection} {cs : List Collection} {source : Source}
    (hd : IsDump ws source.text) (h : List.Forall₂ WrittenCollection.IsOf ws cs) :
    DumpFormat.toml.describedBy source = .ok cs := by
  unfold DumpFormat.describedBy
  dsimp only
  rw [collectionsOf_dump hd h]
  rfl

/-- Every list of collections can be written. -/
theorem exists_isDump (cs : List Collection) :
    ∃ ws text, IsDump ws text ∧ List.Forall₂ WrittenCollection.IsOf ws cs := by
  refine ⟨cs.map WrittenCollection.ofCollection, _, isDump_ofLines _, ?_⟩
  rw [List.forall₂_map_left_iff, List.forall₂_same]
  intro c _
  exact WrittenCollection.isOf_ofCollection c

end Toml

/-! ### Both formats -/

/-- A dump in JSON of these collections: their descriptions are written between any blanks and with
any ignored members. -/
def Json.IsDumpOf (cs : List Collection) (text : Text) : Prop :=
  ∃ (before after : Space) (w : Written) (elements : List Written) (ds : List Description),
    text = before.val ++ (w.text ++ after.val) ∧ CollectionArray w elements ∧
      List.Forall₂ (Describes (Plain 100)) elements ds ∧ ds.map Description.collection = cs

theorem Json.IsDumpOf.describedBy {cs : List Collection} {source : Source}
    (h : IsDumpOf cs source.text) : DumpFormat.json.describedBy source = .ok cs := by
  obtain ⟨before, after, w, elements, ds, text, array, described, rfl⟩ := h
  rw [describedBy_json_eq_ok_iff, text]
  exact takeDump_of_described (by decide) before after array described

theorem Json.isDumpOf_writtenAll (ds : List Description) :
    IsDumpOf (ds.map Description.collection) (Description.writtenAll ds).text := by
  refine ⟨.none, .none, _, _, ds, ?_, collectionArray_writtenAll ds, ?_, rfl⟩
  · rw [Space.val_none, List.nil_append, List.append_nil]
  · exact forall₂_writtenAll (Plain 100) ds

def Json.Description.ofCollection (c : Collection) : Description where
  name := c.name
  fields := c.fields.map Dictionary.entries
  computedFields := c.computedFields.map Dictionary.entries

theorem Json.Description.collection_ofCollection (c : Collection) :
    (ofCollection c).collection = c := by
  have entries (d : Option Signatures) : (d.map Dictionary.entries).map Dictionary.ofList = d := by
    cases d with
    | none => rfl
    | some d => exact congrArg some d.ofList_entries
  obtain ⟨name, fields, computedFields⟩ := c
  simp only [ofCollection, collection, entries]

theorem Json.exists_isDumpOf (cs : List Collection) : ∃ text, IsDumpOf cs text := by
  have described : (cs.map Description.ofCollection).map Description.collection = cs := by
    rw [List.map_map]
    exact List.map_id'' Description.collection_ofCollection cs
  have written := isDumpOf_writtenAll (cs.map Description.ofCollection)
  rw [described] at written
  exact ⟨_, written⟩

/-- Collections with valid names can be written in both formats. A written dump in TOML loads as
these collections, with the same order of collections and definitions and the same dictionaries,
empty or absent. A dump of them in JSON loads as the same, so that both lead to one document. -/
theorem ofDump_of_written {cs : List Collection} (hv : ValidNames cs) :
    (∃ ws text, Toml.IsDump ws text ∧ List.Forall₂ Toml.WrittenCollection.IsOf ws cs) ∧
      (∃ text, Json.IsDumpOf cs text) ∧
      ∀ (ws : List Toml.WrittenCollection) (source : Source), Toml.IsDump ws source.text →
        List.Forall₂ Toml.WrittenCollection.IsOf ws cs →
        Collection.ofDump .toml source = .ok cs ∧
          ∀ json : Source, Json.IsDumpOf cs json.text →
            Collection.ofDump .json json = Collection.ofDump .toml source ∧
              ∀ output : OutputSettings,
                (Collection.ofDump .json json).map (generatedText · output) =
                  (Collection.ofDump .toml source).map (generatedText · output) := by
  refine ⟨Toml.exists_isDump cs, Json.exists_isDumpOf cs, ?_⟩
  intro ws source hd hw
  have loaded : Collection.ofDump .toml source = .ok cs := by
    rw [Collection.ofDump_eq_ok_iff]
    exact ⟨Toml.describedBy_toml_dump hd hw, hv⟩
  refine ⟨loaded, ?_⟩
  intro json hj
  have same : Collection.ofDump .json json = Collection.ofDump .toml source := by
    rw [loaded, Collection.ofDump_eq_ok_iff]
    exact ⟨hj.describedBy, hv⟩
  refine ⟨same, ?_⟩
  intro output
  rw [same]

theorem ofDump_of_written_users :
    let definition : Toml.WrittenDefinition := ⟨.ofText "a\"b", .ofText "Int", true⟩
    let ws : List Toml.WrittenCollection :=
      [⟨.ofText "User", some [definition], some []⟩, ⟨.ofText "Post", none, none⟩]
    let ds : List Json.Description :=
      [⟨"User", some [("a\"b", "Int")], some []⟩, ⟨"Post", none, none⟩]
    let cs : List Collection := ds.map Json.Description.collection
    let source : Source := ⟨"dump.toml",
      "[[collections]]\nname = \"User\"\n\n[collections.fields]\n".toList ++
        "\"a\\\"b\" = \x7b signature = \"Int\" \x7d\n[collections.computed_fields]\n\n".toList ++
          "[[collections]]\nname = \"Post\"".toList⟩
    let json : Source := ⟨"dump.json", (Json.Description.writtenAll ds).text⟩
    ValidNames cs ∧ Toml.IsDump ws source.text ∧ List.Forall₂ Toml.WrittenCollection.IsOf ws cs ∧
      Json.IsDumpOf cs json.text ∧ Collection.ofDump .toml source = .ok cs ∧
        Collection.ofDump .json json = Collection.ofDump .toml source := by
  intro definition ws ds cs source json
  have names : ValidNames cs := ⟨by decide +kernel, by decide +kernel⟩
  have dump : Toml.IsDump ws source.text := by
    unfold Toml.IsDump
    decide +kernel
  have written : List.Forall₂ Toml.WrittenCollection.IsOf ws cs :=
    .cons ⟨by decide +kernel, by decide +kernel, by decide +kernel⟩
      (.cons ⟨by decide +kernel, rfl, rfl⟩ .nil)
  have described : Json.IsDumpOf cs json.text := Json.isDumpOf_writtenAll ds
  obtain ⟨loaded, same⟩ := (ofDump_of_written names).2.2 ws source dump written
  exact ⟨names, dump, written, described, loaded, (same json described).1⟩

end CollectionTypes
