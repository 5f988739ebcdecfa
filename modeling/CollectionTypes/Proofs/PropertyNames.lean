import CollectionTypes.Proofs.DocumentNames

/-!
# Names of properties

An object type has a property for each field, under the name that the dump gives it. The keys of a
dictionary are distinct, so the types of new documents declare no property twice, and neither does
the mapping interface, because the names of collections are checked. The type of documents takes its
properties from two dictionaries that are never compared: a computed field that is called like a
field is declared a second time.
-/

namespace CollectionTypes

open TypeScript

namespace TypeScript

/-- The names of these properties, in order. -/
def propertyNames (fields : List Field) : List Text := fields.map Field.name

theorem propertyNames_append (xs ys : List Field) :
    propertyNames (xs ++ ys) = propertyNames xs ++ propertyNames ys :=
  List.map_append

end TypeScript

@[simp] theorem propertyNames_renderFields (mode : Mode) (signatures : Signatures) :
    propertyNames (renderFields mode signatures) = signatures.keys := by
  rw [propertyNames, renderFields, List.map_map]
  rfl

namespace Collection

def fieldNames (c : Collection) : List Text := (c.fields.getD ∅).keys

def computedFieldNames (c : Collection) : List Text := (c.computedFields.getD ∅).keys

theorem nodup_fieldNames (c : Collection) : c.fieldNames.Nodup := (c.fields.getD ∅).nodup

theorem nodup_computedFieldNames (c : Collection) : c.computedFieldNames.Nodup :=
  (c.computedFields.getD ∅).nodup

end Collection

/-! ### The types of a collection -/

namespace DeclarationSet

/-- The properties that the object types of a collection declare. -/
structure DeclaresFieldsOf (set : DeclarationSet) (c : Collection) : Prop where
  main : propertyNames set.main.fields = c.fieldNames ++ c.computedFieldNames
  create : propertyNames set.create.fields = c.fieldNames
  faunaCreate : propertyNames set.faunaCreate.fields = c.fieldNames

theorem declaresFieldsOf_ofCollection (c : Collection) : (ofCollection c).DeclaresFieldsOf c where
  main := by
    show propertyNames (renderFields .main _ ++ renderFields .main _) = _
    rw [propertyNames_append, propertyNames_renderFields, propertyNames_renderFields]
    rfl
  create := propertyNames_renderFields .create _
  faunaCreate := propertyNames_renderFields .faunaCreate _

namespace DeclaresFieldsOf

variable {set : DeclarationSet} {c : Collection} (h : set.DeclaresFieldsOf c)

include h

theorem nodup_create : (propertyNames set.create.fields).Nodup := by
  rw [h.create]
  exact c.nodup_fieldNames

theorem nodup_faunaCreate : (propertyNames set.faunaCreate.fields).Nodup := by
  rw [h.faunaCreate]
  exact c.nodup_fieldNames

/-- A property counts once as a field and once as a computed field. -/
theorem count_main (n : Text) :
    (propertyNames set.main.fields).count n =
      (if n ∈ c.fieldNames then 1 else 0) + if n ∈ c.computedFieldNames then 1 else 0 := by
  rw [h.main, List.count_append, c.nodup_fieldNames.count, c.nodup_computedFieldNames.count]

theorem nodup_main_iff :
    (propertyNames set.main.fields).Nodup ↔ ∀ n ∈ c.fieldNames, n ∉ c.computedFieldNames := by
  rw [h.main, List.nodup_append']
  constructor
  · rintro ⟨_, _, apart⟩ n hf hc
    exact apart hf hc
  · intro apart
    exact ⟨c.nodup_fieldNames, c.nodup_computedFieldNames, fun n hf hc => apart n hf hc⟩

end DeclaresFieldsOf
end DeclarationSet

/-! ### Loaded collections -/

theorem Document.forall₂_declaresFieldsOf (collections : List Collection)
    (mappingInterface : Text) :
    List.Forall₂ DeclarationSet.DeclaresFieldsOf
      (ofCollections collections mappingInterface).sets (Collection.listed collections) := by
  rw [sets_ofCollections, List.forall₂_map_left_iff, List.forall₂_same]
  intro c _
  exact DeclarationSet.declaresFieldsOf_ofCollection c

theorem Document.nodup_mapping {collections : List Collection} (h : ValidNames collections)
    (mappingInterface : Text) :
    (propertyNames (ofCollections collections mappingInterface).mapping.fields).Nodup := by
  rw [mappingFields_ofCollections, propertyNames, List.map_map]
  exact nodup_generated h

/-- For loaded collections the types of new documents and the mapping interface declare no property
twice. The type of documents declares the fields and then the computed fields, and so declares a
property twice exactly for each name that a field and a computed field have in common. -/
theorem propertyNames_of_ofDump {format : DumpFormat} {source : Source}
    {collections : List Collection} (h : Collection.ofDump format source = .ok collections)
    (mappingInterface : Text) :
    let document := Document.ofCollections collections mappingInterface
    (propertyNames document.mapping.fields).Nodup ∧
      List.Forall₂
        (fun set c => set.DeclaresFieldsOf c ∧
          (propertyNames set.create.fields).Nodup ∧
          (propertyNames set.faunaCreate.fields).Nodup ∧
          ((propertyNames set.main.fields).Nodup ↔
            ∀ n ∈ c.fieldNames, n ∉ c.computedFieldNames) ∧
          ∀ n, (propertyNames set.main.fields).count n =
            (if n ∈ c.fieldNames then 1 else 0) + if n ∈ c.computedFieldNames then 1 else 0)
        document.sets (Collection.listed collections) := by
  have valid : ValidNames collections := (Collection.ofDump_eq_ok_iff.1 h).2
  intro document
  constructor
  · exact Document.nodup_mapping valid mappingInterface
  · apply (Document.forall₂_declaresFieldsOf collections mappingInterface).imp
    intro set c declares
    exact ⟨declares, declares.nodup_create, declares.nodup_faunaCreate, declares.nodup_main_iff,
      declares.count_main⟩

/-- Two collections with computed fields, of which that of the second is called like a field. -/
theorem propertyNames_of_ofDump_title :
    let source : Source := ⟨"schema",
      "[\x7b\"name\":\"User\",\"fields\":\x7b\"name\":\"String\"\x7d,".toList ++
        "\"computed_fields\":\x7b\"age\":\"Int\"\x7d\x7d,".toList ++
        "\x7b\"name\":\"Post\",\"fields\":\x7b\"title\":\"String\"\x7d,".toList ++
          "\"computed_fields\":\x7b\"title\":\"Int\"\x7d\x7d]".toList⟩
    let user := ((Collection.new "User").field "name" "String").computedField "age" "Int"
    let post := ((Collection.new "Post").field "title" "String").computedField "title" "Int"
    let userTypes := DeclarationSet.ofCollection user
    let postTypes := DeclarationSet.ofCollection post
    let document := Document.ofCollections [user, post] "Types"
    Collection.ofDump .json source = .ok [user, post] ∧
      document.sets = [userTypes, postTypes] ∧
      (propertyNames document.mapping.fields).Nodup ∧
      (propertyNames userTypes.main.fields).Nodup ∧
      ¬ (propertyNames postTypes.main.fields).Nodup ∧
      (propertyNames postTypes.create.fields).Nodup := by
  intro source user post userTypes postTypes document
  have h : Collection.ofDump .json source = .ok [user, post] := by decide +kernel
  obtain ⟨mapping, types⟩ := propertyNames_of_ofDump h "Types"
  obtain ⟨ofUser, others⟩ := List.forall₂_cons.1 types
  obtain ⟨ofPost, _⟩ := List.forall₂_cons.1 others
  obtain ⟨_, _, _, userMain, _⟩ := ofUser
  obtain ⟨_, postCreate, _, postMain, _⟩ := ofPost
  refine ⟨h, rfl, mapping, userMain.2 (by decide), ?_, postCreate⟩
  intro distinct
  exact absurd (postMain.1 distinct) (by decide)

/-- Loading a dump does not keep the properties of the types distinct. -/
theorem not_forall_ofDump_nodup_propertyNames :
    ¬ ∀ (format : DumpFormat) (source : Source) (collections : List Collection)
        (mappingInterface : Text), Collection.ofDump format source = .ok collections →
      let document := Document.ofCollections collections mappingInterface
      (∀ set ∈ document.sets, ∀ type ∈ [set.main, set.create, set.faunaCreate],
        (propertyNames type.fields).Nodup) ∧
      (propertyNames document.mapping.fields).Nodup := by
  intro h
  let user := ((Collection.new "User").field "age" "Int").computedField "age" "String"
  have loaded : Collection.ofDump .json ⟨"schema",
      "[\x7b\"name\":\"User\",\"fields\":\x7b\"age\":\"Int\"\x7d,".toList ++
        "\"computed_fields\":\x7b\"age\":\"String\"\x7d\x7d]".toList⟩ = .ok [user] := by
    decide +kernel
  have distinct := (h .json _ _ "Types" loaded).1 (.ofCollection user) List.mem_cons_self
    (DeclarationSet.ofCollection user).main List.mem_cons_self
  exact absurd distinct (by decide)

end CollectionTypes
