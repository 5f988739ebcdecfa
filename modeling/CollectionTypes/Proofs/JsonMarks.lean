import CollectionTypes.Dump.Load
import CollectionTypes.Proofs.LayoutLines

/-!
# The place that a message about malformed JSON points at

A failure has a line and a column, and the column counts the bytes of the line that are read. The
mark of a message is looked for by characters. So it is the byte that was read last as long as the
characters in front of it on its line have one byte each, and otherwise it is further right, perhaps
on a later line or at the end of the text. The main statement says this of every dump that is
refused for its text.
-/

namespace CollectionTypes

/-! ### Lines -/

namespace Text

/-- The byte offset at which a line starts. Lines count from one. -/
def lineStart (t : Text) (line : Nat) : Nat :=
  byteLength (ofLines ((List.splitOn '\n' t).take (line - 1)))

theorem utf8Size_newline : Char.utf8Size '\n' = 1 := rfl

theorem oneLine_cons_iff {c : Char} {t : Text} : OneLine (c :: t) ↔ c ≠ '\n' ∧ OneLine t := by
  rw [OneLine, List.mem_cons, not_or, ne_comm]
  rfl

@[simp] theorem ofLines_nil : ofLines [] = [] := rfl

theorem ofLines_cons (line : Text) (lines : List Text) (t : Text) :
    ofLines (line :: lines) ++ t = line ++ '\n' :: (ofLines lines ++ t) := by
  simp [ofLines]

/-- A line of a text, with the lines above it and what follows it. -/
structure IsLine (t : Text) (above : List Text) (line after : Text) : Prop where
  text : t = ofLines above ++ (line ++ after)
  above : ∀ l ∈ above, OneLine l
  line : OneLine line
  after : after = [] ∨ ∃ rest, after = '\n' :: rest

theorem OneLine.isLine {line after : Text} (h : OneLine line)
    (ha : after = [] ∨ ∃ rest, after = '\n' :: rest) : IsLine (line ++ after) [] line after :=
  ⟨rfl, by simp, h, ha⟩

namespace IsLine

variable {t line after : Text} {above : List Text} (h : IsLine t above line after)
include h

theorem cons {first : Text} (hf : OneLine first) :
    IsLine (first ++ '\n' :: t) (first :: above) line after where
  text := by rw [ofLines_cons, h.text]
  above := List.forall_mem_cons.2 ⟨hf, h.above⟩
  line := h.line
  after := h.after

theorem exists_splitOn : ∃ below, List.splitOn '\n' t = above ++ line :: below := by
  obtain ⟨rfl, above_, line_, after_⟩ := h
  induction above with
  | nil =>
    rcases after_ with rfl | ⟨rest, rfl⟩
    · exact ⟨[], by simpa using List.splitOn_eq_singleton line_⟩
    · exact ⟨_, List.splitOn_append_cons_self_of_not_mem line_ rest⟩
  | cons l ls ih =>
    obtain ⟨hl, hls⟩ := List.forall_mem_cons.1 above_
    obtain ⟨below, hb⟩ := ih hls
    rw [ofLines_cons, List.splitOn_append_cons_self_of_not_mem hl, hb]
    exact ⟨below, rfl⟩

theorem getElem?_splitOn : (List.splitOn '\n' t)[above.length]? = some line := by
  obtain ⟨below, hb⟩ := h.exists_splitOn
  rw [hb]
  simp

theorem lineStart_eq : lineStart t (1 + above.length) = byteLength (ofLines above) := by
  obtain ⟨below, hb⟩ := h.exists_splitOn
  rw [lineStart, hb, Nat.add_sub_cancel_left, List.take_left]

end IsLine

theorem length_le_byteLength (t : Text) : t.length ≤ byteLength t := by
  induction t with
  | nil => exact Nat.le_refl _
  | cons c cs ih =>
    have := c.utf8Size_pos
    rw [List.length_cons, byteLength_cons]
    omega

theorem byteLength_eq_length_iff {t : Text} :
    byteLength t = t.length ↔ ∀ c ∈ t, c.utf8Size = 1 := by
  induction t with
  | nil => simp
  | cons c cs ih =>
    have := c.utf8Size_pos
    have := length_le_byteLength cs
    rw [List.forall_mem_cons, ← ih, List.length_cons, byteLength_cons]
    omega

end Text

namespace Json

open Text

namespace Position

/-! ### From a byte to a line and a column -/

section Line

variable {line : Text} (oneLine : OneLine line)
include oneLine

theorem advance_within (number column : Nat) {index : Nat} (h : index ≤ byteLength line)
    (after : Text) : advance number column index (line ++ after) = ⟨number, column + index⟩ := by
  induction line generalizing column index with
  | nil =>
    obtain rfl := Nat.le_zero.1 h
    cases after with
    | nil => rfl
    | cons c cs => rw [List.nil_append, advance, if_pos c.utf8Size_pos]
  | cons c cs ih =>
    obtain ⟨hc, hcs⟩ := oneLine_cons_iff.1 oneLine
    rw [byteLength_cons] at h
    rw [List.cons_append, advance]
    split_ifs with inside
    · rfl
    · rw [ih hcs _ (by omega)]
      congr 1
      omega

theorem advance_line (number column index : Nat) (after : Text) :
    advance number column (byteLength line + (index + 1)) (line ++ '\n' :: after) =
      advance (number + 1) 0 index after := by
  induction line generalizing column with
  | nil =>
    have step : 0 + (index + 1) - 1 = index := by omega
    rw [List.nil_append, byteLength_nil, advance, utf8Size_newline, if_neg (by omega), if_pos rfl,
      step]
  | cons c cs ih =>
    obtain ⟨hc, hcs⟩ := oneLine_cons_iff.1 oneLine
    have step : c.utf8Size + byteLength cs + (index + 1) - c.utf8Size =
        byteLength cs + (index + 1) := by omega
    rw [List.cons_append, byteLength_cons, advance, if_neg (by omega), if_neg hc, step]
    exact ih hcs _

end Line

/-- A byte of a text is on one of its lines, and the column counts the bytes of that line. -/
theorem exists_line_of_advance (number : Nat) {index : Nat} {t : Text} (h : index ≤ byteLength t) :
    ∃ above line after, IsLine t above line after ∧
      ∃ column, column ≤ byteLength line ∧
        advance number 0 index t = ⟨number + above.length, column⟩ := by
  by_cases more : '\n' ∈ t
  case neg =>
    have line : IsLine t [] t [] := by simpa using OneLine.isLine more (Or.inl rfl)
    refine ⟨[], t, [], line, index, h, ?_⟩
    simpa using advance_within more number 0 h []
  case pos =>
    obtain ⟨first, rest, ht, hf⟩ := List.eq_append_cons_of_mem more
    have shorter : rest.length < t.length := by
      rw [ht, List.length_append, List.length_cons]
      omega
    rw [ht] at h ⊢
    by_cases inside : index ≤ byteLength first
    · refine ⟨[], first, '\n' :: rest, OneLine.isLine hf (Or.inr ⟨rest, rfl⟩), index, inside, ?_⟩
      simpa using advance_within hf number 0 inside ('\n' :: rest)
    · obtain ⟨index, rfl⟩ : ∃ i, index = byteLength first + (i + 1) :=
        ⟨index - byteLength first - 1, by omega⟩
      rw [byteLength_append, byteLength_cons, utf8Size_newline] at h
      have below : index ≤ byteLength rest := by omega
      obtain ⟨above, line, after, hl, column, hc, ha⟩ := exists_line_of_advance (number + 1) below
      refine ⟨first :: above, line, after, hl.cons hf, column, hc, ?_⟩
      rw [advance_line hf, ha, List.length_cons]
      congr 1
      omega
termination_by t.length

/-! ### From a line and a column to a mark -/

/-- Nothing above the line of a position is marked. -/
theorem markFrom_line {line : Text} (oneLine : OneLine line) {number : Nat} {p : Position}
    (h : number < p.line) (column : Nat) (after : Text) :
    markFrom number column p (line ++ '\n' :: after) =
      byteLength line + 1 + markFrom (number + 1) 0 p after := by
  induction line generalizing column with
  | nil =>
    rw [List.nil_append, markFrom, if_neg (by omega), if_pos rfl, byteLength_nil, utf8Size_newline,
      Nat.zero_add]
  | cons c cs ih =>
    obtain ⟨hc, hcs⟩ := oneLine_cons_iff.1 oneLine
    rw [List.cons_append, markFrom, if_neg (by omega), if_neg hc, ih hcs, byteLength_cons]
    omega

theorem markFrom_ofLines {above : List Text} (h : ∀ l ∈ above, OneLine l) {number : Nat}
    {p : Position} (hn : number + above.length ≤ p.line) (t : Text) :
    markFrom number 0 p (ofLines above ++ t) =
      byteLength (ofLines above) + markFrom (number + above.length) 0 p t := by
  induction above generalizing number with
  | nil => simp
  | cons l ls ih =>
    obtain ⟨hl, hls⟩ := List.forall_mem_cons.1 h
    rw [List.length_cons] at hn ⊢
    have split : ofLines (l :: ls) = l ++ '\n' :: ofLines ls := by
      simpa using ofLines_cons l ls []
    have next : number + 1 + ls.length = number + (ls.length + 1) := by omega
    rw [ofLines_cons, markFrom_line hl (by omega), ih hls (by omega), split, byteLength_append,
      byteLength_cons, utf8Size_newline, next]
    omega

section Line

variable {line : Text} (oneLine : OneLine line)
include oneLine

/-- On its line a position is marked at the character whose number is its column. -/
theorem markFrom_within (number start column : Nat) (h : column - 1 - start ≤ line.length)
    (after : Text) :
    markFrom number start ⟨number, column⟩ (line ++ after) =
      byteLength (line.take (column - 1 - start)) := by
  induction line generalizing start with
  | nil =>
    rw [List.length_nil] at h
    rw [List.nil_append, List.take_nil]
    cases after with
    | nil => rfl
    | cons c cs => rw [markFrom, if_pos ⟨Nat.le_refl _, by simp only; omega⟩, byteLength_nil]
  | cons c cs ih =>
    obtain ⟨hc, hcs⟩ := oneLine_cons_iff.1 oneLine
    rw [List.length_cons] at h
    rw [List.cons_append, markFrom]
    split_ifs with found
    · have none : column - 1 - start = 0 := by
        have := found.2
        simp only at this
        omega
      rw [none, List.take_zero, byteLength_nil]
    · have more : column - 1 - start = column - 1 - (start + 1) + 1 := by
        simp only at found
        omega
      rw [ih hcs _ (by omega), more, List.take_succ_cons, byteLength_cons]

/-- A line with too few characters is passed over. -/
theorem le_markFrom (number start column : Nat) (h : line.length ≤ column - 1 - start)
    (after : Text) :
    byteLength line ≤ markFrom number start ⟨number, column⟩ (line ++ after) := by
  induction line generalizing start with
  | nil => exact Nat.zero_le _
  | cons c cs ih =>
    obtain ⟨hc, hcs⟩ := oneLine_cons_iff.1 oneLine
    rw [List.length_cons] at h
    rw [List.cons_append, markFrom, if_neg (by simp only; omega), if_neg hc, byteLength_cons]
    have rest := ih hcs (start + 1) (by omega)
    omega

end Line

/-- The byte that was read last before a position, or where its line starts if none of it was. -/
def lastByte (t : Text) (p : Position) : Nat := lineStart t p.line + (p.column - 1)

theorem mark_eq {t line after : Text} {above : List Text} (h : IsLine t above line after)
    (column : Nat) :
    mark t ⟨1 + above.length, column⟩ = lineStart t (1 + above.length) +
      markFrom (1 + above.length) 0 ⟨1 + above.length, column⟩ (line ++ after) := by
  rw [h.lineStart_eq, mark, h.text, markFrom_ofLines h.above (Nat.le_refl _)]

/-- A mark is the byte read last if the characters in front of that have one byte each, and
otherwise it is further right. -/
theorem mark_eq_lastByte_iff {t line after : Text} {above : List Text}
    (h : IsLine t above line after) {column : Nat} (hc : column ≤ byteLength line) :
    lastByte t ⟨1 + above.length, column⟩ ≤ mark t ⟨1 + above.length, column⟩ ∧
      (mark t ⟨1 + above.length, column⟩ = lastByte t ⟨1 + above.length, column⟩ ↔
        ∀ c ∈ line.take (column - 1), c.utf8Size = 1) := by
  rw [mark_eq h, lastByte, Nat.add_le_add_iff_left, Nat.add_left_cancel_iff,
    ← byteLength_eq_length_iff]
  dsimp only
  rcases Nat.lt_or_ge line.length (column - 1) with short | fits
  · -- the line has so many bytes, but not so many characters
    have passed := le_markFrom h.line (1 + above.length) 0 column (Nat.le_of_lt short) after
    rw [List.take_of_length_le (Nat.le_of_lt short)]
    omega
  · have found := markFrom_within h.line (1 + above.length) 0 column fits after
    have characters : (line.take (column - 1)).length = column - 1 := List.length_take_of_le fits
    have bytes := length_le_byteLength (line.take (column - 1))
    rw [Nat.sub_zero] at found
    rw [found]
    omega

end Position

/-! ### Refused dumps -/

theorem Failure.exists_position (text : Text) (fault : Fault) :
    ∃ index, index ≤ byteLength text ∧
      (Failure.ofFault text fault).position = Position.ofByte text index := by
  cases fault with
  | located problem place => exact ⟨place.index text, Nat.min_le_left _ _, rfl⟩
  | pending mismatch rest => exact ⟨Place.index text ⟨rest, 0⟩, Nat.min_le_left _ _, rfl⟩

end Json

theorem exists_fault_of_ofDump {source shown : Source} {failure : Json.Failure}
    (h : Collection.ofDump .json source = .error (.json shown failure)) :
    shown = source ∧ ∃ fault, failure = Json.Failure.ofFault source.text fault := by
  unfold Collection.ofDump DumpFormat.describedBy Json.collectionsOf at h
  cases taken : Json.takeDump source.text with
  | error fault =>
    simp only [taken, Except.mapError, Except.error.injEq, LoadError.json.injEq] at h
    exact ⟨h.1.symm, fault, h.2.symm⟩
  | ok cs =>
    simp only [taken, Except.mapError, Collection.validated] at h
    split at h <;> simp at h

/-- The message about a dump that is refused for its text has an empty span. It is at the byte that
was read last exactly if the characters in front of that on its line have one byte each. -/
theorem span_json_eq_lastByte_iff {source shown : Source} {failure : Json.Failure}
    (h : Collection.ofDump .json source = .error (.json shown failure)) :
    shown = source ∧ 1 ≤ failure.position.line ∧ ∃ line offset,
      (List.splitOn '\n' source.text)[failure.position.line - 1]? = some line ∧
        failure.position.column ≤ Text.byteLength line ∧
        LoadError.span? (.json shown failure) = some ⟨offset, 0⟩ ∧
        Json.Position.lastByte source.text failure.position ≤ offset ∧
        (offset = Json.Position.lastByte source.text failure.position ↔
          ∀ c ∈ line.take (failure.position.column - 1), c.utf8Size = 1) := by
  obtain ⟨rfl, fault, rfl⟩ := exists_fault_of_ofDump h
  obtain ⟨index, hi, position⟩ := Json.Failure.exists_position shown.text fault
  obtain ⟨above, line, after, place, column, hc, there⟩ :=
    Json.Position.exists_line_of_advance 1 hi
  rw [Json.Position.ofByte, there] at position
  obtain ⟨right, iff⟩ := Json.Position.mark_eq_lastByte_iff place hc
  rw [position]
  refine ⟨rfl, Nat.le_add_right 1 _, line, _, ?_, hc, ?_, right, iff⟩
  · rw [Nat.add_sub_cancel_left]
    exact place.getElem?_splitOn
  · rw [LoadError.span?, position]

/-- A collection that is none, on the third line behind a name with an umlaut. -/
theorem span_json_eq_lastByte_iff_umlaut :
    let source : Source := ⟨"schema", "[\x7b\"name\":\n\"Ämter\"\x7d,\n \"Übung\"]"⟩
    let failure : Json.Failure := ⟨.mismatch (.type (.string "Übung") .collection), ⟨3, 9⟩⟩
    Collection.ofDump .json source = .error (.json source failure) ∧
      (source = source ∧ 1 ≤ failure.position.line ∧ ∃ line offset,
        (List.splitOn '\n' source.text)[failure.position.line - 1]? = some line ∧
          failure.position.column ≤ Text.byteLength line ∧
          LoadError.span? (.json source failure) = some ⟨offset, 0⟩ ∧
          Json.Position.lastByte source.text failure.position ≤ offset ∧
          (offset = Json.Position.lastByte source.text failure.position ↔
            ∀ c ∈ line.take (failure.position.column - 1), c.utf8Size = 1)) := by
  intro source failure
  have h : Collection.ofDump .json source = .error (.json source failure) := by decide +kernel
  exact ⟨h, span_json_eq_lastByte_iff h⟩

/-- An element of the first line is wrong, and the message points behind the last line. -/
theorem exists_misplaced_mark :
    let source : Source := ⟨"schema", "[\"ééé\",\n\"x\"]"⟩
    let failure : Json.Failure := ⟨.mismatch (.type (.string "ééé") .collection), ⟨1, 9⟩⟩
    Collection.ofDump .json source = .error (.json source failure) ∧
      Json.Position.lastByte source.text failure.position = 8 ∧
      LoadError.span? (.json source failure) = some ⟨Text.byteLength source.text, 0⟩ := by
  intro source failure
  refine ⟨?refused, ?read, ?shown⟩
  case refused => decide +kernel
  case read => decide +kernel
  case shown => decide +kernel

end CollectionTypes
