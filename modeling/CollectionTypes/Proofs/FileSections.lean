import CollectionTypes.Proofs.BuilderRuns
import Mathlib.Data.List.Chain

/-!
# The sections of a source file

Whatever the order of the calls that build a source file, its text is the texts of its sections with
a blank line between two of them, and each section is made of the texts of its elements, written on
their own. So if the elements of the body have no blank line at their ends and no two in a row, the
same holds of the file.
-/

namespace CollectionTypes

/-! ### Blank lines -/

namespace Text

/-- The lines of a text, each of which ends with a break. What follows the last break is no line. -/
def lines (t : Text) : List Text := (List.splitOn '\n' t).dropLast

@[simp] theorem lines_nil : lines [] = [] := rfl

theorem lines_append_break (t u : Text) :
    lines (t ++ '\n' :: u) = List.splitOn '\n' t ++ lines u := by
  have split : List.splitOn '\n' (t ++ '\n' :: u) =
      List.splitOn '\n' t ++ List.splitOn '\n' u := by
    simp only [List.splitOn_eq_splitOnP]
    exact List.splitOnP_append_cons t u (by decide)
  rw [lines, split, List.dropLast_append_of_ne_nil (List.splitOn_ne_nil '\n' u), lines]

theorem Complete.lines_append {t : Text} (h : Complete t) (u : Text) :
    lines (t ++ u) = lines t ++ lines u := by
  rcases h with rfl | h
  · rfl
  · obtain ⟨s, rfl⟩ := List.getLast?_eq_some_iff.1 h
    rw [List.append_assoc, List.singleton_append, lines_append_break, lines_append_break, lines_nil,
      List.append_nil]

theorem Complete.lines_ne_nil {t : Text} (h : Complete t) (hne : t ≠ []) : lines t ≠ [] := by
  rcases h with rfl | h
  · exact absurd rfl hne
  · obtain ⟨s, rfl⟩ := List.getLast?_eq_some_iff.1 h
    rw [lines_append_break, lines_nil, List.append_nil]
    exact List.splitOn_ne_nil '\n' s

theorem lines_flatten {ts : List Text} (h : ∀ t ∈ ts, Complete t) :
    lines ts.flatten = ts.flatMap lines := by
  induction ts with
  | nil => rfl
  | cons t ts ih =>
    rw [List.flatten_cons, (h t List.mem_cons_self).lines_append,
      ih fun s hs => h s (List.mem_cons_of_mem t hs), List.flatMap_cons]

theorem OneLine.lines_append_break {t : Text} (h : OneLine t) : lines (t ++ ['\n']) = [t] := by
  rw [Text.lines_append_break, lines_nil, List.append_nil]
  have single : ∀ s ∈ [t], '\n' ∉ s := by
    intro s hs
    rw [List.mem_singleton.1 hs]
    exact h
  simpa using List.splitOn_intercalate '\n' single (List.cons_ne_nil t [])

/-- No blank line comes first or last, and no two come in a row. -/
structure WellSpaced (t : Text) : Prop where
  first : (lines t).head? ≠ some []
  last : (lines t).getLast? ≠ some []
  between : (lines t).IsChain fun l m => l ≠ [] ∨ m ≠ []

instance : DecidablePred WellSpaced := fun t =>
  decidable_of_iff
    ((lines t).head? ≠ some [] ∧ (lines t).getLast? ≠ some [] ∧
      (lines t).IsChain fun l m => l ≠ [] ∨ m ≠ [])
    ⟨fun ⟨first, last, between⟩ => ⟨first, last, between⟩,
      fun h => ⟨h.first, h.last, h.between⟩⟩

theorem wellSpaced_of_lines_ne_nil {t : Text} (h : ∀ l ∈ lines t, l ≠ []) : WellSpaced t where
  first he := h [] (List.mem_of_head? he) rfl
  last he := h [] (List.mem_of_getLast? he) rfl
  between := by
    rw [List.isChain_iff_getElem]
    intro i hi
    exact Or.inl (h _ (List.getElem_mem _))

theorem wellSpaced_nil : WellSpaced [] :=
  wellSpaced_of_lines_ne_nil fun _ hl => absurd hl List.not_mem_nil

/-- A text of lines, at least one, that has other texts above and below it. -/
structure IsBlock (t : Text) : Prop where
  complete : Complete t
  ne_nil : t ≠ []
  wellSpaced : WellSpaced t

theorem IsBlock.append_blank {t u : Text} (ht : IsBlock t) (hu : IsBlock u) :
    IsBlock (t ++ ['\n'] ++ u) := by
  have cut : lines (t ++ ['\n'] ++ u) = lines t ++ [] :: lines u := by
    rw [List.append_assoc, ht.complete.lines_append, List.singleton_append]
    exact congrArg (lines t ++ ·) (lines_append_break [] u)
  have above := ht.complete.lines_ne_nil ht.ne_nil
  have below := hu.complete.lines_ne_nil hu.ne_nil
  refine ⟨(ht.complete.append (complete_append_break [])).append hu.complete, by simp, ?_, ?_, ?_⟩
  · rw [cut, List.head?_append_of_ne_nil _ above]
    exact ht.wellSpaced.first
  · rw [cut, List.getLast?_append_of_ne_nil _ (List.cons_ne_nil _ _),
      List.getLast?_cons_of_ne_nil below]
    exact hu.wellSpaced.last
  · -- Only the added line is blank at the seam: `t` ends and `u` begins with a filled one.
    rw [cut, List.isChain_append, List.isChain_cons]
    refine ⟨ht.wellSpaced.between, ⟨?_, hu.wellSpaced.between⟩, ?_⟩
    · intro m hm
      right
      rintro rfl
      exact hu.wellSpaced.first hm
    · intro l hl m _
      left
      rintro rfl
      exact ht.wellSpaced.last hl

theorem isBlock_joined {ts : List Text} (h : ∀ t ∈ ts, IsBlock t) (hne : ts ≠ []) :
    IsBlock (joined ['\n'] ts) := by
  induction ts with
  | nil => exact absurd rfl hne
  | cons t ts ih =>
    cases ts with
    | nil => exact h t List.mem_cons_self
    | cons u us =>
      have rest := ih (fun s hs => h s (List.mem_cons_of_mem t hs)) (List.cons_ne_nil u us)
      exact (h t List.mem_cons_self).append_blank rest

theorem oneLine_joined {separator : Text} {ts : List Text} (hs : OneLine separator)
    (h : ∀ t ∈ ts, OneLine t) : OneLine (joined separator ts) := by
  rw [joined_eq_intercalate]
  intro hn
  rcases mem_of_mem_intercalate hn with hn | ⟨t, ht, hn⟩
  · exact hs hn
  · exact h t ht hn

end Text

namespace TypeScript

/-! ### Texts of sections -/

/-- What an element is written as on its own, at level zero. -/
def elementText (indent : Indent) (element : List Fragment) : Text :=
  ((Builder.start indent).emit element).text

theorem elementText_eq_renderAll (indent : Indent) (element : List Fragment) :
    elementText indent element = Line.renderAll indent (Fragment.linesOfAll 0 element) := by
  rw [elementText, Builder.emit_eq_appendLines]
  rfl

theorem complete_elementText (indent : Indent) (element : List Fragment) :
    Text.Complete (elementText indent element) := by
  rw [elementText_eq_renderAll]
  exact Line.complete_renderAll indent _

/-- The texts of the elements one after another, in a spaced section with a blank line between
neighbours. -/
def Section.text (indent : Indent) (s : Section) : Text :=
  if s.spaced then Text.joined ['\n'] (s.elements.map (elementText indent))
  else (s.elements.map (elementText indent)).flatten

theorem Section.text_eq_renderAll (indent : Indent) (s : Section) :
    s.text indent = Line.renderAll indent s.lines := by
  have elements : s.elements.map (elementText indent) =
      (s.elements.map (Fragment.linesOfAll 0)).map (Line.renderAll indent) := by
    rw [List.map_map]
    exact List.map_congr_left fun e _ => elementText_eq_renderAll indent e
  unfold Section.text Section.lines Line.renderAll
  rw [elements, flatMap_intercalate, Text.joined_eq_intercalate]
  cases s.spaced with
  | true => rfl
  | false => exact (nil_intercalate _).symm

namespace SourceFile

/-- The text of a file is the texts of its sections that have elements, with a blank line between
neighbours. -/
theorem render_eq_joined (indent : Indent) (file : SourceFile) :
    file.render indent = Text.joined ['\n']
      ((file.sections.filter fun s => !s.elements.isEmpty).map (Section.text indent)) := by
  have start : (Builder.start indent).level = 0 := rfl
  have texts : Section.text indent = Line.renderAll indent ∘ Section.lines :=
    funext (Section.text_eq_renderAll indent)
  rw [render, emitSections_eq_appendLines start, Builder.appendLines_text,
    Text.joined_eq_intercalate, texts, ← List.map_map]
  exact flatMap_intercalate ..

/-! ### Calls -/

/-- A call that adds something to a file. -/
inductive Call where
  | addHeader (line : Text)
  | addImport (i : Import)
  | add (element : List Fragment)
  | addAll (elements : List (List Fragment))
  | addExport (e : Export)

namespace Call

def on (file : SourceFile) : Call → SourceFile
  | addHeader line => file.addHeader line
  | addImport i => file.addImport i
  | add element => file.add element
  | addAll elements => file.addAll elements
  | addExport e => file.addExport e

def headers : Call → List Text
  | addHeader line => [line]
  | _ => []

def imports : Call → List Import
  | addImport i => [i]
  | _ => []

def elements : Call → List (List Fragment)
  | add element => [element]
  | addAll elements => elements
  | _ => []

/-- The export of a call, if it names something. -/
def exports : Call → List Export
  | addExport e => if e.names.isEmpty then [] else [e]
  | _ => []

/-- The sections that these calls fill. Only the order of the calls to one of them matters to it. -/
def sections (calls : List Call) : List Section :=
  [⟨false, (calls.flatMap headers).map headerFragments⟩,
    ⟨false, (calls.flatMap imports).map Import.fragments⟩,
    ⟨true, calls.flatMap elements⟩,
    ⟨false, (calls.flatMap exports).map Export.fragments⟩]

end Call

/-- The file that these calls make of an empty one. -/
def build (calls : List Call) : SourceFile := calls.foldl Call.on empty

/-- A part of a file to which every call adds something of its own. -/
theorem part_build {α : Type} {part : SourceFile → List α} {added : Call → List α}
    (none : part empty = []) (step : ∀ file c, part (Call.on file c) = part file ++ added c)
    (calls : List Call) : part (build calls) = calls.flatMap added := by
  have run (file : SourceFile) :
      part (calls.foldl Call.on file) = part file ++ calls.flatMap added := by
    induction calls generalizing file with
    | nil => simp
    | cons c calls ih => rw [List.foldl_cons, ih, step, List.flatMap_cons, List.append_assoc]
  rw [build, run, none, List.nil_append]

section AddExport

variable (file : SourceFile) (e : Export)

theorem addExport_header : (file.addExport e).header = file.header := by
  unfold addExport
  split <;> rfl

theorem addExport_imports : (file.addExport e).imports = file.imports := by
  unfold addExport
  split <;> rfl

theorem addExport_body : (file.addExport e).body = file.body := by
  unfold addExport
  split <;> rfl

theorem addExport_exports :
    (file.addExport e).exports = file.exports ++ if e.names.isEmpty then [] else [e] := by
  unfold addExport Export.isEmpty
  split
  next h =>
    rw [h]
    rfl
  next h =>
    rw [Bool.not_eq_false] at h
    rw [h]
    exact (List.append_nil file.exports).symm

end AddExport

theorem header_build (calls : List Call) : (build calls).header = calls.flatMap Call.headers := by
  apply part_build rfl
  intro file c
  cases c with
  | addHeader line => rfl
  | addExport e => exact (addExport_header file e).trans (List.append_nil _).symm
  | _ => exact (List.append_nil file.header).symm

theorem imports_build (calls : List Call) : (build calls).imports = calls.flatMap Call.imports := by
  apply part_build rfl
  intro file c
  cases c with
  | addImport i => rfl
  | addExport e => exact (addExport_imports file e).trans (List.append_nil _).symm
  | _ => exact (List.append_nil file.imports).symm

theorem body_build (calls : List Call) : (build calls).body = calls.flatMap Call.elements := by
  apply part_build rfl
  intro file c
  cases c with
  | add element => rfl
  | addAll elements => rfl
  | addExport e => exact (addExport_body file e).trans (List.append_nil _).symm
  | _ => exact (List.append_nil file.body).symm

theorem exports_build (calls : List Call) : (build calls).exports = calls.flatMap Call.exports := by
  apply part_build rfl
  intro file c
  cases c with
  | addExport e => exact addExport_exports file e
  | _ => exact (List.append_nil file.exports).symm

theorem sections_build (calls : List Call) : (build calls).sections = Call.sections calls := by
  rw [SourceFile.sections, header_build, imports_build, body_build, exports_build, Call.sections]

end SourceFile

/-! ### Spacing -/

/-- An element that is a single line, which is not blank. -/
def IsSingleLine (element : List Fragment) : Prop :=
  ∃ line, element = [.line line] ∧ Text.OneLine line ∧ line ≠ []

theorem IsSingleLine.elementText_eq {element : List Fragment} (h : IsSingleLine element)
    (indent : Indent) :
    ∃ line, elementText indent element = line ++ ['\n'] ∧ Text.OneLine line ∧ line ≠ [] := by
  obtain ⟨line, rfl, oneLine, hne⟩ := h
  exact ⟨line, rfl, oneLine, hne⟩

theorem isSingleLine_headerFragments {line : Text} (h : Text.OneLine line) :
    IsSingleLine (SourceFile.headerFragments line) :=
  ⟨"// " ++ line, rfl, Text.oneLine_append_iff.2 ⟨by decide, h⟩, by simp⟩

theorem isSingleLine_import {i : Import} (source : Text.OneLine i.source)
    (names : ∀ n ∈ i.names, Text.OneLine n) : IsSingleLine i.fragments := by
  have list : Text.OneLine (Text.joined ", " i.names) := Text.oneLine_joined (by decide) names
  have mark : Text.OneLine (typeOnlyMark i.typeOnly) := by
    cases i.typeOnly <;> decide
  unfold Import.fragments
  split
  all_goals
    refine ⟨_, rfl, ?_, by simp⟩
    simp only [Text.oneLine_append_iff, source, list, mark, and_true]
    decide

theorem isSingleLine_export {e : Export} (h : e.names.isEmpty = false)
    (names : ∀ n ∈ e.names, Text.OneLine n) : IsSingleLine e.fragments := by
  have list : Text.OneLine (Text.joined ", " e.names) := Text.oneLine_joined (by decide) names
  have mark : Text.OneLine (typeOnlyMark e.typeOnly) := by
    cases e.typeOnly <;> decide
  unfold Export.fragments Export.isEmpty
  rw [h, if_neg Bool.false_ne_true]
  refine ⟨_, rfl, ?_, by simp⟩
  simp only [Text.oneLine_append_iff, list, mark, and_true]
  decide

section Sections

variable {indent : Indent} {elements : List (List Fragment)} (hne : elements ≠ [])

include hne

/-- One line after another, none of them blank. -/
theorem isBlock_lines (h : ∀ e ∈ elements, IsSingleLine e) :
    Text.IsBlock (Section.text indent ⟨false, elements⟩) := by
  have complete : ∀ t ∈ elements.map (elementText indent), Text.Complete t := by
    intro t ht
    obtain ⟨e, _, rfl⟩ := List.mem_map.1 ht
    exact complete_elementText indent e
  constructor
  case complete =>
    rw [Section.text_eq_renderAll]
    exact Line.complete_renderAll indent _
  case ne_nil =>
    obtain ⟨e, es, rfl⟩ := List.exists_cons_of_ne_nil hne
    obtain ⟨line, text, _, _⟩ := (h e List.mem_cons_self).elementText_eq indent
    simp [Section.text, text]
  case wellSpaced =>
    apply Text.wellSpaced_of_lines_ne_nil
    intro l hl
    rw [Section.text, if_neg Bool.false_ne_true, Text.lines_flatten complete,
      List.flatMap_map] at hl
    obtain ⟨e, he, hl⟩ := List.mem_flatMap.1 hl
    obtain ⟨line, text, oneLine, filled⟩ := (h e he).elementText_eq indent
    rw [text, oneLine.lines_append_break, List.mem_singleton] at hl
    rwa [hl]

/-- Blocks with a blank line between neighbours. -/
theorem isBlock_spaced (h : ∀ e ∈ elements,
    elementText indent e ≠ [] ∧ Text.WellSpaced (elementText indent e)) :
    Text.IsBlock (Section.text indent ⟨true, elements⟩) := by
  rw [Section.text, if_pos rfl]
  apply Text.isBlock_joined
  · intro t ht
    obtain ⟨e, he, rfl⟩ := List.mem_map.1 ht
    exact ⟨complete_elementText indent e, (h e he).1, (h e he).2⟩
  · simpa using hne

end Sections

namespace SourceFile

namespace Call

/-- The texts that a call puts into a header line, an import or an export. -/
def texts : Call → List Text
  | addHeader line => [line]
  | addImport i => i.source :: i.names
  | addExport e => e.names
  | _ => []

variable {c : Call} (h : ∀ t ∈ c.texts, Text.OneLine t)

include h

theorem isSingleLine_of_mem_headers {line : Text} (hl : line ∈ c.headers) :
    IsSingleLine (headerFragments line) := by
  cases c with
  | addHeader text =>
    obtain rfl := List.mem_singleton.1 hl
    exact isSingleLine_headerFragments (h line (List.mem_singleton_self line))
  | _ => exact absurd hl List.not_mem_nil

theorem isSingleLine_of_mem_imports {i : Import} (hi : i ∈ c.imports) :
    IsSingleLine i.fragments := by
  cases c with
  | addImport j =>
    obtain rfl := List.mem_singleton.1 hi
    exact isSingleLine_import (h i.source List.mem_cons_self)
      fun n hn => h n (List.mem_cons_of_mem i.source hn)
  | _ => exact absurd hi List.not_mem_nil

theorem isSingleLine_of_mem_exports {e : Export} (he : e ∈ c.exports) :
    IsSingleLine e.fragments := by
  cases c with
  | addExport f =>
    by_cases hf : f.names.isEmpty
    case pos =>
      rw [exports, if_pos hf] at he
      exact absurd he List.not_mem_nil
    case neg =>
      rw [exports, if_neg hf] at he
      obtain rfl := List.mem_singleton.1 he
      exact isSingleLine_export (Bool.eq_false_iff.2 hf) h
  | _ => exact absurd he List.not_mem_nil

end Call

/-- A section that calls fill line by line. -/
theorem isBlock_added {α : Type} {indent : Indent} {calls : List Call} {added : Call → List α}
    {fragments : α → List Fragment} (hne : (calls.flatMap added).map fragments ≠ [])
    (h : ∀ c ∈ calls, ∀ a ∈ added c, IsSingleLine (fragments a)) :
    Text.IsBlock (Section.text indent ⟨false, (calls.flatMap added).map fragments⟩) := by
  apply isBlock_lines hne
  intro e he
  obtain ⟨a, ha, rfl⟩ := List.mem_map.1 he
  obtain ⟨c, hc, ha⟩ := List.mem_flatMap.1 ha
  exact h c hc a ha

/-- Every section that has elements is a block. -/
theorem isBlock_section {indent : Indent} {calls : List Call}
    (oneLine : ∀ c ∈ calls, ∀ t ∈ c.texts, Text.OneLine t)
    (body : ∀ e ∈ calls.flatMap Call.elements,
      elementText indent e ≠ [] ∧ Text.WellSpaced (elementText indent e))
    {s : Section} (hs : s ∈ Call.sections calls) (hne : s.elements ≠ []) :
    Text.IsBlock (s.text indent) := by
  simp only [Call.sections, List.mem_cons, List.not_mem_nil, or_false] at hs
  rcases hs with rfl | rfl | rfl | rfl
  · apply isBlock_added hne
    intro c hc line hl
    exact Call.isSingleLine_of_mem_headers (oneLine c hc) hl
  · apply isBlock_added hne
    intro c hc i hi
    exact Call.isSingleLine_of_mem_imports (oneLine c hc) hi
  · exact isBlock_spaced hne body
  · apply isBlock_added hne
    intro c hc e he
    exact Call.isSingleLine_of_mem_exports (oneLine c hc) he

/-- The text of a file is that of its sections, with a blank line between neighbours; a section
takes what the calls to it add, in their order, and is left out if that is nothing. If the elements
of the body are well spaced and no other text has a line break, the file is well spaced. -/
theorem render_build (indent : Indent) (calls : List Call) :
    (build calls).render indent = Text.joined ['\n']
      (((Call.sections calls).filter fun s => !s.elements.isEmpty).map (Section.text indent)) ∧
    ((∀ c ∈ calls, ∀ t ∈ c.texts, Text.OneLine t) →
      (∀ e ∈ calls.flatMap Call.elements,
        elementText indent e ≠ [] ∧ Text.WellSpaced (elementText indent e)) →
      Text.WellSpaced ((build calls).render indent)) := by
  have text : (build calls).render indent = Text.joined ['\n']
      (((Call.sections calls).filter fun s => !s.elements.isEmpty).map (Section.text indent)) := by
    rw [render_eq_joined, sections_build]
  refine ⟨text, ?_⟩
  intro oneLine body
  rw [text]
  have blocks : ∀ t ∈ ((Call.sections calls).filter fun s => !s.elements.isEmpty).map
      (Section.text indent), Text.IsBlock t := by
    intro t ht
    obtain ⟨s, hs, rfl⟩ := List.mem_map.1 ht
    obtain ⟨hs, filled⟩ := List.mem_filter.1 hs
    exact isBlock_section oneLine body hs (by simpa using filled)
  generalize ((Call.sections calls).filter fun s => !s.elements.isEmpty).map
    (Section.text indent) = texts at blocks
  cases texts with
  | nil => exact Text.wellSpaced_nil
  | cons t ts => exact (Text.isBlock_joined blocks (List.cons_ne_nil t ts)).wellSpaced

/-- The calls in no order, with an export that names nothing and a blank line inside a block. -/
theorem render_build_unordered :
    let calls : List Call :=
      [.addExport ⟨["A", "B"], true⟩, .add [.line "type A = string;"], .addExport ⟨[], false⟩,
        .addHeader "generated",
        .addAll [[.block "type B = \x7b" [.line "x: A;", .blank, .line "y: A;"] (some "\x7d;")],
          [.doc "none"]],
        .addImport ⟨"fauna", [], false⟩]
    (∀ c ∈ calls, ∀ t ∈ c.texts, Text.OneLine t) ∧
      (∀ e ∈ calls.flatMap Call.elements,
        elementText .tab e ≠ [] ∧ Text.WellSpaced (elementText .tab e)) ∧
      Text.WellSpaced ((build calls).render .tab) ∧
      (build calls).render .tab =
        "// generated\n\nimport \"fauna\";\n\ntype A = string;\n\n".toList ++
          "type B = \x7b\n\tx: A;\n\n\ty: A;\n\x7d;\n\n/** none */\n\n".toList ++
          "export type \x7b A, B \x7d;\n".toList := by
  intro calls
  have oneLine : ∀ c ∈ calls, ∀ t ∈ c.texts, Text.OneLine t := by decide
  have body : ∀ e ∈ calls.flatMap Call.elements,
      elementText .tab e ≠ [] ∧ Text.WellSpaced (elementText .tab e) := by
    decide
  obtain ⟨_, spaced⟩ := render_build .tab calls
  exact ⟨oneLine, body, spaced oneLine body, by decide⟩

end SourceFile
end TypeScript
end CollectionTypes
