import CollectionTypes.Proofs.JsonPlaces
import CollectionTypes.Proofs.LanguageReading
import CollectionTypes.Proofs.NameChecks

/-!
# Where a refused name is shown

When a dump is refused because of a name, the error may carry a span, which is found by counting
quoted occurrences of the name in the whole text. `FaultyName` is the place where the dump itself
has the name. The span is that place if `FaultyName.IsFound` holds: the name is written without
escapes, and the quoted name stands in front of it as often as there are collections of that name
before. A field, a signature or an ignored value may break this.
-/

namespace CollectionTypes

open Json

/-! ### The name in the dump -/

/-- Where a dump has the name of its first collection that may not be called so. -/
structure FaultyName (text : Text) where
  before : Space
  dump : Written
  after : Space
  good : List Collection
  collection : Collection
  rest : List Collection
  path : List Step
  front : Text
  literal : Literal
  back : Text
  text_eq : text = before.val ++ (dump.text ++ after.val)
  isDump : IsDump dump (good ++ collection :: rest)
  valid : ValidNames good
  not_valid : ¬ ValidNames (good ++ [collection])
  path_mem : path ∈ namePaths good.length
  leads : Leads path dump front (.string literal) back
  decode : literal.decode = some collection.name

namespace FaultyName

variable {text : Text} (p : FaultyName text)

def name : Text := p.collection.name

/-- The byte offset of the opening quote. -/
def start : Nat := Text.byteLength (p.before.val ++ p.front)

/-- The content of the string, without its quotes. -/
def span : Span := ⟨p.start + 1, Text.byteLength p.literal.body⟩

def occurrences : List Nat := Text.occurrences (Text.inDoubleQuotes p.name) text

/-- How many collections before have the name. -/
def earlier : Nat := (p.good.map Collection.name).count p.name

/-- The name is written as it is, and its quoted form stands as often in front of it as there are
collections of that name before. A name that is no identifier can have a quoted form that runs into
it from the left, and then it is not found either. -/
structure IsFound : Prop where
  body : p.literal.body = p.name
  count : (p.occurrences.filter (· < p.start)).length = p.earlier
  apart : Text.isIdentifier p.name = true ∨
    ∀ start ∈ p.occurrences, start < p.start →
      start + Text.byteLength (Text.inDoubleQuotes p.name) ≤ p.start

theorem text_eq_append :
    text = (p.before.val ++ p.front) ++
      (Text.inDoubleQuotes p.literal.body ++ (p.back ++ p.after.val)) := by
  have h := p.text_eq
  rw [p.leads.text_eq] at h
  simpa [Literal.text, Text.inDoubleQuotes] using h

theorem path_ne_nil : p.path ≠ [] := by
  intro h
  have := p.path_mem
  rw [h] at this
  simp [namePaths] at this

/-- What stands right in front of the string continues no identifier. -/
theorem exists_mark : ∃ (front : Text) (mark : Char) (blank : Text),
    p.before.val ++ p.front = front ++ mark :: blank ∧
      ∀ c ∈ mark :: blank, Text.isNamePart c = false := by
  obtain ⟨front, mark, blank, hf, hm⟩ := p.leads.exists_mark p.path_ne_nil
  refine ⟨p.before.val ++ front, mark, blank.val, by rw [hf, List.append_assoc], ?_⟩
  rw [List.forall_mem_cons]
  constructor
  · simp only [List.mem_cons, List.not_mem_nil, or_false] at hm
    rcases hm with rfl | rfl | rfl <;> decide
  · intro c hc
    have hb := isBlank_of_isSpace (List.all_eq_true.1 blank.property c hc)
    rw [Bool.eq_false_iff]
    intro hn
    rw [Language.isBlank_of_isNamePart hn] at hb
    exact absurd hb (by decide)

/-- No quoted identifier runs into the string. -/
theorem apart_of_isIdentifier (hb : p.literal.body = p.name) (hi : Text.isIdentifier p.name = true)
    {start : Nat} (h : start ∈ p.occurrences) (hlt : start < p.start) :
    start + Text.byteLength (Text.inDoubleQuotes p.name) ≤ p.start := by
  have parts := Language.isNamePart_of_isIdentifier hi
  have ht := p.text_eq_append
  rw [hb] at ht
  by_contra hlong
  obtain ⟨r, hr⟩ := Text.exists_eq_append_of_overlap ht
    (fun hq => absurd (parts _ hq) (by decide)) h hlt hlong
  obtain ⟨front, mark, blank, hf, hm⟩ := p.exists_mark
  -- the last character in front of the string would be the last one of the name
  rcases List.eq_nil_or_concat' p.name with hn | ⟨name, d, hn⟩
  · rw [hn] at hi
    exact absurd hi (by decide)
  · have last : (front ++ mark :: blank).getLast? = some d := by
      rw [← hf, hr, hn, ← List.cons_append, ← List.append_assoc, List.getLast?_concat]
    rw [List.getLast?_append_cons] at last
    have hd := hm d (List.mem_of_getLast? last)
    rw [parts d (by rw [hn]; simp)] at hd
    exact absurd hd (by decide)

/-- When the span of a fault about the name is that of the name. -/
theorem isFound_iff :
    Text.quotedSpan? p.name text p.earlier = some p.span ↔ p.IsFound := by
  rw [span, start, Text.quotedSpan?_eq_some_iff p.text_eq_append]
  constructor
  · rintro ⟨body, count, apart⟩
    exact ⟨body, count, Or.inr apart⟩
  · rintro ⟨body, count, hi | apart⟩
    · exact ⟨body, count, fun _ h => p.apart_of_isIdentifier body hi h⟩
    · exact ⟨body, count, apart⟩

end FaultyName

/-! ### Refused dumps -/

/-- A dump is refused because of a name if it describes collections, and these have a fault. -/
theorem ofDump_json_eq_name_iff {source : Source} {fault : NameFault} :
    Collection.ofDump .json source = .error (.name source fault) ↔
      ∃ cs, DumpFormat.json.describedBy source = .ok cs ∧ NameFault.first? cs = some fault := by
  unfold Collection.ofDump DumpFormat.describedBy
  cases collectionsOf source.text with
  | error failure => simp [Except.mapError]
  | ok cs => simp [Except.mapError, Collection.validated_eq_error_iff]

theorem exists_faultyName {source : Source} {fault : NameFault}
    (h : Collection.ofDump .json source = .error (.name source fault)) :
    ∃ p : FaultyName source.text,
      DumpFormat.json.describedBy source = .ok (p.good ++ p.collection :: p.rest) ∧
        fault.name = p.name ∧ fault.earlier = p.earlier := by
  obtain ⟨cs, described, hf⟩ := ofDump_json_eq_name_iff.1 h
  obtain ⟨good, c, rest, rfl, valid, not_valid, hn, he⟩ := NameFault.exists_of_first? hf
  obtain ⟨before, after, dump, text_eq, isDump, -⟩ :=
    exists_dump_of_takeDump (describedBy_json_eq_ok_iff.1 described)
  obtain ⟨path, path_mem, front, literal, back, leads, decode⟩ := isDump.exists_leads_name
  let p : FaultyName source.text :=
    { before, dump, after, good, collection := c, rest, path, front, literal, back, text_eq, isDump,
      valid, not_valid, path_mem, leads, decode }
  exact ⟨p, described, hn, he⟩

/-- When the span that comes with a refused name is that of the name. -/
theorem span_eq_iff_of_ofDump {source : Source} {fault : NameFault}
    (h : Collection.ofDump .json source = .error (.name source fault)) :
    ∃ p : FaultyName source.text,
      DumpFormat.json.describedBy source = .ok (p.good ++ p.collection :: p.rest) ∧
        fault.name = p.name ∧
        ((∀ span, LoadError.span? (.name source fault) = some span → span = p.span) ↔
          p.occurrences.length ≤ p.earlier ∨ p.IsFound) := by
  obtain ⟨p, described, hn, he⟩ := exists_faultyName h
  refine ⟨p, described, hn, ?_⟩
  have shown : LoadError.span? (.name source fault) =
      Text.quotedSpan? p.name source.text p.earlier := by
    rw [span?_name, fault.span?_eq, hn, he]
  have absent : Text.quotedSpan? p.name source.text p.earlier = none ↔
      p.occurrences.length ≤ p.earlier := by
    rw [Text.quotedSpan?, Option.map_eq_none_iff, List.getElem?_eq_none_iff]
    rfl
  rw [shown, ← absent, ← p.isFound_iff]
  cases Text.quotedSpan? p.name source.text p.earlier with
  | none => simp
  | some span => simp

theorem span_eq_iff_of_ofDump_reserved :
    let source : Source := ⟨"schema", "\x7b\"data\":[\x7b\"name\":\"string\"\x7d]\x7d"⟩
    let fault : NameFault := .invalid "string" .reserved
    Collection.ofDump .json source = .error (.name source fault) ∧
      ∃ p : FaultyName source.text,
        DumpFormat.json.describedBy source = .ok (p.good ++ p.collection :: p.rest) ∧
          fault.name = p.name ∧
          ((∀ span, LoadError.span? (.name source fault) = some span → span = p.span) ↔
            p.occurrences.length ≤ p.earlier ∨ p.IsFound) := by
  intro source fault
  have h : Collection.ofDump .json source = .error (.name source fault) := by decide +kernel
  exact ⟨h, span_eq_iff_of_ofDump h⟩

/-- Two collections of the same name, the first of which has a field of that name. -/
def namesakes : List Description :=
  [⟨"User", some [("User", "Int")], none⟩, ⟨"User", none, none⟩]

/-- The name of the second of them. -/
def secondNamesake : FaultyName (Description.writtenAll namesakes).text where
  before := .none
  dump := Description.writtenAll namesakes
  after := .none
  good := [Description.collection ⟨"User", some [("User", "Int")], none⟩]
  collection := Description.collection ⟨"User", none, none⟩
  rest := []
  path := [.element 1, .member CollectionParts.nameKey]
  front := _
  literal := .ofText "User"
  back := _
  text_eq := by simp
  isDump := by
    refine ⟨_, collectionArray_writtenAll namesakes, ?_⟩
    exact .cons ⟨_, Description.describes_written anything _, rfl⟩
      (.cons ⟨_, Description.describes_written anything _, rfl⟩ .nil)
  valid := NameFault.first?_eq_none_iff.1 (by decide)
  not_valid := fun h => absurd (NameFault.first?_eq_none_iff.2 h) (by decide)
  path_mem := by simp [namePaths]
  leads := .element .none [textElement (Description.written ⟨"User", some [("User", "Int")], none⟩)]
    (textElement (Description.written ⟨"User", none, none⟩)) []
    (.member .none [] (textMember CollectionParts.nameKey (.string (.ofText "User"))) _
      (Literal.decode_ofText _) (.here _))
  decode := Literal.decode_ofText "User"

/-- The key of a field is taken for the name of a collection. -/
theorem exists_misplaced_span :
    let source : Source := ⟨"schema", (Description.writtenAll namesakes).text⟩
    let fault : NameFault := .duplicate "User" 1
    source.text = ("[\x7b\"name\":\"User\",\"fields\":\x7b\"User\":\"Int\"\x7d," ++
        "\"computed_fields\":null\x7d,\x7b\"name\":\"User\",\"fields\":null," ++
        "\"computed_fields\":null\x7d]").toList ∧
      Collection.ofDump .json source = .error (.name source fault) ∧
      DumpFormat.json.describedBy source =
        .ok (secondNamesake.good ++ secondNamesake.collection :: secondNamesake.rest) ∧
      fault.name = secondNamesake.name ∧
      LoadError.span? (.name source fault) = some ⟨27, 4⟩ ∧ secondNamesake.span = ⟨73, 4⟩ := by
  intro source fault
  refine ⟨?text, ?refused, ?described, rfl, ?shown, ?place⟩
  case text => decide +kernel
  case refused => decide +kernel
  case described => decide +kernel
  case shown => decide +kernel
  case place => decide +kernel

end CollectionTypes
