import CollectionTypes.Proofs.LayoutLines

/-!
# Runs of a code builder

Fragments are flattened to lines that carry their depth, and a builder writes each of them at its
own level plus that depth. So applying fragments leaves the level as it was. A run of builder steps
only ever appends complete lines, and its level is decided by the steps that indent and dedent
alone.
-/

namespace CollectionTypes

/-! ### Texts of complete lines -/

/-- A text in which every line ends with a break. -/
def Text.Complete (t : Text) : Prop := t = [] ∨ t.getLast? = some '\n'

namespace Text

theorem complete_nil : Complete [] := Or.inl rfl

theorem complete_append_break (t : Text) : Complete (t ++ ['\n']) :=
  Or.inr List.getLast?_concat

theorem Complete.append {t u : Text} (ht : Complete t) (hu : Complete u) : Complete (t ++ u) := by
  rcases hu with rfl | hu
  · rwa [List.append_nil]
  · right
    rw [List.getLast?_append, hu]
    rfl

theorem complete_flatMap {α : Type} {f : α → Text} {xs : List α} (h : ∀ x ∈ xs, Complete (f x)) :
    Complete (xs.flatMap f) := by
  induction xs with
  | nil => exact complete_nil
  | cons x xs ih =>
    rw [List.flatMap_cons]
    exact (h x List.mem_cons_self).append (ih fun y hy => h y (List.mem_cons_of_mem x hy))

end Text

/-! ### Lines by their depth -/

namespace Line

/-- The line as a builder at this level writes it: the level of the line is its depth from there. -/
def renderFrom (indent : Indent) (level : Nat) : Line → Text
  | code depth text => (List.replicate (level + depth) indent.unit).flatten ++ text ++ ['\n']
  | blank => ['\n']

/-- The line with its level counted from further out. -/
def raised (levels : Nat) : Line → Line
  | code level text => code (levels + level) text
  | blank => blank

theorem render_raised (indent : Indent) (level : Nat) (line : Line) :
    (line.raised level).render indent = line.renderFrom indent level := by
  cases line <;> rfl

theorem raised_add (m n : Nat) : raised (m + n) = raised m ∘ raised n := by
  funext line
  cases line with
  | code level text => exact congrArg (code · text) (Nat.add_assoc m n level)
  | blank => rfl

theorem complete_renderAll (indent : Indent) (lines : List Line) :
    Text.Complete (renderAll indent lines) := by
  apply Text.complete_flatMap
  intro line _
  cases line with
  | code level text => exact Text.complete_append_break _
  | blank => exact Text.complete_append_break []

end Line

namespace Fragment

mutual

theorem lines_eq_map_raised (level : Nat) :
    ∀ f : Fragment, lines level f = (lines 0 f).map (Line.raised level)
  | .line _ => rfl
  | .blank => rfl
  | .doc _ => rfl
  | .block header body close => by
    -- The body of the block is flattened from level one on both sides.
    have deeper : linesOfAll (level + 1) body =
        (linesOfAll 1 body).map (Line.raised level) := by
      rw [linesOfAll_eq_map_raised (level + 1) body, linesOfAll_eq_map_raised 1 body,
        Line.raised_add, List.map_map]
    rw [lines, lines, deeper, List.map_cons, List.map_append]
    cases close <;> rfl

theorem linesOfAll_eq_map_raised (level : Nat) :
    ∀ fs : List Fragment, linesOfAll level fs = (linesOfAll 0 fs).map (Line.raised level)
  | [] => rfl
  | f :: fs => by
    rw [linesOfAll, linesOfAll, lines_eq_map_raised level f, linesOfAll_eq_map_raised level fs,
      List.map_append]

end

end Fragment

theorem Line.renderAll_map_raised (indent : Indent) (level : Nat) (lines : List Line) :
    renderAll indent (lines.map (raised level)) = lines.flatMap (renderFrom indent level) := by
  rw [renderAll, List.flatMap_map]
  exact congrArg (lines.flatMap ·) (funext (render_raised indent level))

/-! ### Steps -/

namespace Builder

/-- The builder with these lines added, whose depths count from its level. -/
def addLines (b : Builder) (lines : List Line) : Builder :=
  b.append (lines.flatMap (Line.renderFrom b.indent b.level))

theorem appendLines_map_raised (b : Builder) (lines : List Line) :
    b.appendLines (lines.map (Line.raised b.level)) = b.addLines lines := by
  rw [appendLines, Line.renderAll_map_raised, addLines]

theorem apply_eq_addLines (b : Builder) (f : Fragment) :
    b.apply f = b.addLines (Fragment.lines 0 f) := by
  rw [apply_eq_appendLines, Fragment.lines_eq_map_raised, appendLines_map_raised]

theorem emit_eq_addLines (b : Builder) (fs : List Fragment) :
    b.emit fs = b.addLines (Fragment.linesOfAll 0 fs) := by
  rw [emit_eq_appendLines, Fragment.linesOfAll_eq_map_raised, appendLines_map_raised]

/-- What can be done to a builder. -/
inductive Step where
  | line (text : Text)
  | blank
  | doc (text : Text)
  | indent
  | dedent
  | apply (fragment : Fragment)
  | emit (fragments : List Fragment)

/-- A change of the level. -/
inductive Shift where
  | inward
  | outward
deriving DecidableEq, Repr

/-- The level after a change. There is none below zero. -/
def Shift.move : Nat → Shift → Nat
  | level, inward => level + 1
  | 0, outward => 0
  | level + 1, outward => level

namespace Step

def on (b : Builder) : Step → Builder
  | line text => b.pushLine text
  | blank => b.pushBlank
  | doc text => b.pushDoc text
  | indent => b.pushIndent
  | dedent => b.pushDedent
  | apply fragment => b.apply fragment
  | emit fragments => b.emit fragments

/-- The lines that a step adds, by their depth from the level of the builder. -/
def lines : Step → List Line
  | line text => [.code 0 text]
  | blank => [.blank]
  | doc text => [.code 0 ("/** " ++ text ++ " */")]
  | indent => []
  | dedent => []
  | apply fragment => Fragment.lines 0 fragment
  | emit fragments => Fragment.linesOfAll 0 fragments

/-- How a step changes the level, if it is one that does. -/
def shift? : Step → Option Shift
  | indent => some .inward
  | dedent => some .outward
  | _ => none

/-- The level after these steps. -/
def walk (level : Nat) (steps : List Step) : Nat := (steps.filterMap shift?).foldl Shift.move level

theorem walk_cons (level : Nat) (s : Step) (steps : List Step) :
    walk level (s :: steps) = walk (walk level [s]) steps := by
  cases s <;> rfl

/-- A step adds its lines at the level before it. -/
theorem on_eq (b : Builder) (s : Step) :
    s.on b = { b.addLines s.lines with level := walk b.level [s] } := by
  have one (line : Line) : b.appendLines [line.raised b.level] = b.addLines [line] :=
    b.appendLines_map_raised [line]
  have none : b.addLines [] = b := by
    simp [addLines, append]
  cases s with
  | line text => exact (b.pushLine_eq_appendLines text).trans (one (.code 0 text))
  | blank => exact b.pushBlank_eq_appendLines.trans (one .blank)
  | doc text =>
    exact (b.pushDoc_eq_appendLines text).trans (one (.code 0 ("/** " ++ text ++ " */")))
  | indent =>
    rw [lines, none]
    rfl
  | dedent =>
    rw [lines, none]
    cases h : b.level with
    | zero => simp [on, pushDedent, walk, shift?, Shift.move, h]
    | succ level => simp [on, pushDedent, walk, shift?, Shift.move, h]
  | apply fragment => exact b.apply_eq_addLines fragment
  | emit fragments => exact b.emit_eq_addLines fragments

theorem level_on (b : Builder) (s : Step) : (s.on b).level = walk b.level [s] := by
  rw [on_eq]

theorem indent_on (b : Builder) (s : Step) : (s.on b).indent = b.indent := by
  rw [on_eq]
  rfl

theorem text_on (b : Builder) (s : Step) :
    (s.on b).text = b.text ++ s.lines.flatMap (Line.renderFrom b.indent b.level) := by
  rw [on_eq]
  rfl

/-- The lines that steps add from this level on. -/
def runLines (level : Nat) : List Step → List Line
  | [] => []
  | s :: steps => s.lines.map (Line.raised level) ++ runLines (walk level [s]) steps

end Step

/-! ### Runs -/

def run (b : Builder) (steps : List Step) : Builder := steps.foldl Step.on b

theorem run_cons (b : Builder) (s : Step) (steps : List Step) :
    b.run (s :: steps) = (s.on b).run steps := rfl

theorem run_append (b : Builder) (xs ys : List Step) :
    b.run (xs ++ ys) = (b.run xs).run ys :=
  List.foldl_append

/-- The level of a run depends on its changes of the level alone. -/
theorem level_run (b : Builder) (steps : List Step) :
    (b.run steps).level = Step.walk b.level steps := by
  induction steps generalizing b with
  | nil => rfl
  | cons s steps ih =>
    rw [run_cons, ih, Step.level_on]
    exact (Step.walk_cons b.level s steps).symm

/-- A run adds the lines of its steps. -/
theorem text_run (b : Builder) (steps : List Step) :
    (b.run steps).text = b.text ++ Line.renderAll b.indent (Step.runLines b.level steps) := by
  induction steps generalizing b with
  | nil => exact (List.append_nil b.text).symm
  | cons s steps ih =>
    rw [run_cons, ih, Step.text_on, Step.indent_on, Step.level_on, Step.runLines,
      Line.renderAll_append, Line.renderAll_map_raised, List.append_assoc]

theorem isPrefix_text_run (b : Builder) (steps : List Step) : b.text <+: (b.run steps).text := by
  rw [text_run]
  exact List.prefix_append _ _

theorem complete_text_run {b : Builder} (h : Text.Complete b.text) (steps : List Step) :
    Text.Complete (b.run steps).text := by
  rw [text_run]
  exact h.append (Line.complete_renderAll _ _)

/-- Applying fragments adds their lines, each at the level of the builder plus its depth, and leaves
the rest of the builder as it was. A new builder holds, after any steps, the lines of these steps at
the levels they are at. More steps keep this text as the beginning of theirs, it consists of
complete lines, and the level is where the steps that indent and dedent lead, without the others. -/
theorem run_appends_lines :
    (∀ (b : Builder) (f : Fragment),
      b.apply f = { b with
        text := b.text ++ (Fragment.lines 0 f).flatMap (Line.renderFrom b.indent b.level) }) ∧
    (∀ (b : Builder) (fs : List Fragment),
      b.emit fs = { b with
        text := b.text ++ (Fragment.linesOfAll 0 fs).flatMap (Line.renderFrom b.indent b.level) }) ∧
    ∀ (indent : Indent) (steps more : List Step),
      let b := (start indent).run steps
      b.text = Line.renderAll indent (Step.runLines 0 steps) ∧
      b.text <+: ((start indent).run (steps ++ more)).text ∧
      (b.text = [] ∨ b.text.getLast? = some '\n') ∧
      b.level = (steps.filterMap Step.shift?).foldl Shift.move 0 := by
  refine ⟨apply_eq_addLines, emit_eq_addLines, ?_⟩
  intro indent steps more b
  refine ⟨text_run (start indent) steps, ?_, ?_, level_run (start indent) steps⟩
  · rw [run_append]
    exact isPrefix_text_run b more
  · exact complete_text_run Text.complete_nil steps

/-- A block without a closing line, inside another one, does not shift what follows. -/
example :
    ((start .tab).run
      [.dedent, .indent, .emit [.block "a" [.block "b" [.line "c"] none, .blank] (some "d")],
        .dedent, .dedent, .line "e"]).text = "\ta\n\t\tb\n\t\t\tc\n\n\td\ne\n".toList := by
  decide

end Builder
end CollectionTypes
