import CollectionTypes.Command.Listing
import CollectionTypes.Proofs.Joining
import CollectionTypes.TypeScript.SourceFile
import Mathlib.Data.List.Basic

/-!
# Source files line by line

Applying fragments to a builder adds their lines to its text and leaves its level as it was. A
source file is therefore written as one list of lines: those of its sections, with a blank line
between two of them. Cutting the written text at its line breaks gives this list back as long as no
line has a break of its own.
-/

namespace CollectionTypes

/-! ### Lines as text -/

/-- The line without its break. -/
def Line.text (indent : Indent) : Line → Text
  | code level text => indent.lead level ++ text
  | blank => []

theorem Line.renderAll_eq_ofLines (indent : Indent) (lines : List Line) :
    renderAll indent lines = Text.ofLines (lines.map (text indent)) := by
  rw [renderAll, Text.ofLines, List.flatMap_map]
  apply List.flatMap_congr
  intro line _
  cases line with
  | code level text => rfl
  | blank => rfl

theorem Line.renderAll_append (indent : Indent) (xs ys : List Line) :
    renderAll indent (xs ++ ys) = renderAll indent xs ++ renderAll indent ys :=
  List.flatMap_append

theorem Text.ofLines_eq_intercalate (ts : List Text) :
    ofLines ts = ['\n'].intercalate (ts ++ [[]]) := by
  rw [intercalate_append_singleton, List.append_nil, ofLines]

/-- A text without a line break. -/
def Text.OneLine (t : Text) : Prop := '\n' ∉ t

instance : DecidablePred Text.OneLine := fun t => inferInstanceAs (Decidable ('\n' ∉ t))

theorem Text.oneLine_append_iff {t u : Text} : OneLine (t ++ u) ↔ OneLine t ∧ OneLine u := by
  simp only [OneLine, List.mem_append, not_or]

/-- Every line ends with a break, so an empty text follows the last one. -/
theorem Text.splitOn_ofLines {ts : List Text} (h : ∀ t ∈ ts, '\n' ∉ t) :
    List.splitOn '\n' (ofLines ts) = ts ++ [[]] := by
  rw [ofLines_eq_intercalate]
  apply List.splitOn_intercalate
  · intro t ht
    rcases List.mem_append.1 ht with ht | ht
    · exact h t ht
    · rw [List.mem_singleton.1 ht]
      exact List.not_mem_nil
  · simp

/-! ### Fragments -/

namespace Builder

/-- The builder after these lines. -/
def appendLines (b : Builder) (lines : List Line) : Builder :=
  b.append (Line.renderAll b.indent lines)

@[simp] theorem appendLines_level (b : Builder) (lines : List Line) :
    (b.appendLines lines).level = b.level := rfl

@[simp] theorem appendLines_text (b : Builder) (lines : List Line) :
    (b.appendLines lines).text = b.text ++ Line.renderAll b.indent lines := rfl

theorem appendLines_nil (b : Builder) : b.appendLines [] = b := by
  simp [appendLines, append, Line.renderAll]

theorem appendLines_appendLines (b : Builder) (xs ys : List Line) :
    (b.appendLines xs).appendLines ys = b.appendLines (xs ++ ys) := by
  simp [appendLines, append, Line.renderAll_append]

theorem pushLine_eq_appendLines (b : Builder) (t : Text) :
    b.pushLine t = b.appendLines [.code b.level t] := by
  simp [pushLine, appendLines, Line.renderAll, Line.render]

theorem pushDoc_eq_appendLines (b : Builder) (t : Text) :
    b.pushDoc t = b.appendLines [.code b.level ("/** " ++ t ++ " */")] :=
  b.pushLine_eq_appendLines (Fragment.docComment t)

theorem pushBlank_eq_appendLines (b : Builder) : b.pushBlank = b.appendLines [.blank] := by
  simp [pushBlank, appendLines, Line.renderAll, Line.render]

theorem pushDedent_appendLines_pushIndent (b : Builder) (lines : List Line) :
    (b.pushIndent.appendLines lines).pushDedent = b.appendLines lines := by
  simp [pushIndent, pushDedent, appendLines, append]

mutual

theorem apply_eq_appendLines (b : Builder) :
    ∀ f : Fragment, b.apply f = b.appendLines (Fragment.lines b.level f)
  | .line t => b.pushLine_eq_appendLines t
  | .blank => b.pushBlank_eq_appendLines
  | .doc t => b.pushDoc_eq_appendLines t
  | .block header body close => by
    have body_lines := emit_eq_appendLines (b.pushLine header).pushIndent body
    cases close with
    | none =>
      rw [apply, body_lines, pushDedent_appendLines_pushIndent, pushLine_eq_appendLines,
        appendLines_appendLines, Fragment.lines]
      simp [pushIndent]
    | some t =>
      rw [apply, body_lines, pushDedent_appendLines_pushIndent, pushLine_eq_appendLines,
        pushLine_eq_appendLines, appendLines_appendLines, appendLines_appendLines,
        Fragment.lines]
      simp [pushIndent]

/-- What applying fragments does: it adds their lines at the current level. -/
theorem emit_eq_appendLines (b : Builder) :
    ∀ fs : List Fragment, b.emit fs = b.appendLines (Fragment.linesOfAll b.level fs)
  | [] => b.appendLines_nil.symm
  | f :: fs => by
    rw [emit, apply_eq_appendLines b f, emit_eq_appendLines _ fs, appendLines_level,
      appendLines_appendLines, Fragment.linesOfAll]

end

end Builder

theorem Fragment.linesOfAll_append (level : Nat) (fs gs : List Fragment) :
    linesOfAll level (fs ++ gs) = linesOfAll level fs ++ linesOfAll level gs := by
  induction fs with
  | nil => rfl
  | cons f fs ih => rw [List.cons_append, linesOfAll, ih, linesOfAll, List.append_assoc]

theorem Fragment.linesOfAll_map_line (level : Nat) (ts : List Text) :
    linesOfAll level (ts.map Fragment.line) = ts.map (Line.code level) := by
  induction ts with
  | nil => rfl
  | cons t ts ih =>
    rw [List.map_cons, linesOfAll, ih, lines]
    rfl

/-! ### Sections -/

namespace TypeScript

/-- The lines of the elements, with a blank line between those of a spaced section. -/
def Section.lines (s : Section) : List Line :=
  (if s.spaced then [Line.blank] else []).intercalate (s.elements.map (Fragment.linesOfAll 0))

namespace SourceFile

def lines (file : SourceFile) : List Line :=
  [Line.blank].intercalate ((file.sections.filter fun s => !s.elements.isEmpty).map Section.lines)

theorem emitElements_eq_appendLines {b : Builder} (spaced : Bool) {es : List (List Fragment)}
    (h : b.level = 0) : emitElements spaced b es = b.appendLines (Section.lines ⟨spaced, es⟩) := by
  induction es generalizing b with
  | nil => exact b.appendLines_nil.symm
  | cons e es ih =>
    cases es with
    | nil => simp [emitElements, Section.lines, Builder.emit_eq_appendLines, h]
    | cons e' es =>
      rw [emitElements, Builder.emit_eq_appendLines, h]
      cases spaced with
      | false =>
        rw [ih (by simpa using h)]
        simp [Section.lines, Builder.appendLines_appendLines]
      | true =>
        rw [Builder.pushBlank_eq_appendLines, ih (by simpa using h)]
        simp [Section.lines, Builder.appendLines_appendLines, List.intercalate_cons_cons]

theorem emitSections_eq_appendLines {b : Builder} {ss : List Section} (h : b.level = 0) :
    emitSections b ss = b.appendLines ([Line.blank].intercalate (ss.map Section.lines)) := by
  induction ss generalizing b with
  | nil => exact b.appendLines_nil.symm
  | cons s ss ih =>
    cases ss with
    | nil => simpa [emitSections] using emitElements_eq_appendLines s.spaced h
    | cons s' ss =>
      rw [emitSections, emitElements_eq_appendLines s.spaced h,
        Builder.pushBlank_eq_appendLines, ih (by simpa using h)]
      simp [Builder.appendLines_appendLines, List.intercalate_cons_cons]

theorem render_eq_ofLines (indent : Indent) (file : SourceFile) :
    file.render indent = Text.ofLines (file.lines.map (Line.text indent)) := by
  have start : (Builder.start indent).level = 0 := rfl
  rw [render, emitSections_eq_appendLines start, Builder.appendLines_text,
    Line.renderAll_eq_ofLines]
  rfl

end SourceFile
end TypeScript
end CollectionTypes
