import CollectionTypes.Text.Basic

/-!
# Bracket nesting

`{` and `<` open a level and `}` and `>` close one, whichever opened it. Separators count at depth
zero only. Text need not be balanced: the depth is an integer and may become negative, and a
separator below depth zero does not count either.

`pieces` cuts a text at the separators that count. The pieces and the separators between them make
up the text, so a piece of a text that was cut is shorter than it (`length_lt_of_mem_pieces`).
-/

namespace CollectionTypes.Nesting

/-- The change of depth at a character. Depths have no bound here, while the program counts in 32
bits. The two are the same for texts with fewer than 2 ^ 31 open brackets, and as few closing
ones. -/
def step (c : Char) : Int :=
  if c = '{' ∨ c = '<' then 1 else if c = '}' ∨ c = '>' then -1 else 0

/-- The depth after a text that starts at depth `d`, without a bound. It stands for a count in 32
bits of the brackets of texts with fewer than 2 ^ 31 open ones. -/
def depth (d : Int) : Text → Int
  | [] => d
  | c :: cs => depth (d + step c) cs

def consFirst (c : Char) : List Text → List Text
  | [] => [[c]]
  | p :: ps => (c :: p) :: ps

/-- The texts between the separators at depth zero, for a text that starts at depth `d`. A bracket
never separates. -/
def pieces (separator : Char) (d : Int) : Text → List Text
  | [] => [[]]
  | c :: cs =>
    if c = separator ∧ d = 0 ∧ step c = 0 then [] :: pieces separator d cs
    else consFirst c (pieces separator (d + step c) cs)

theorem pieces_ne_nil (separator : Char) (d : Int) (t : Text) : pieces separator d t ≠ [] := by
  cases t with
  | nil => simp [pieces]
  | cons c cs =>
    rw [pieces]
    split
    · simp
    · cases pieces separator (d + step c) cs <;> simp [consFirst]

theorem length_flatten_pieces (separator : Char) (d : Int) (t : Text) :
    (pieces separator d t).flatten.length + (pieces separator d t).length = t.length + 1 := by
  induction t generalizing d with
  | nil => simp [pieces]
  | cons c cs ih =>
    rw [pieces]
    split
    · have h := ih d
      simp only [List.flatten_cons, List.nil_append, List.length_cons]
      omega
    · have h := ih (d + step c)
      have hne := pieces_ne_nil separator (d + step c) cs
      cases hp : pieces separator (d + step c) cs with
      | nil => exact absurd hp hne
      | cons p ps =>
        rw [hp] at h
        simp only [consFirst, List.flatten_cons, List.length_append, List.length_cons] at h ⊢
        omega

theorem length_le_length_flatten {p : Text} {ps : List Text} (h : p ∈ ps) :
    p.length ≤ ps.flatten.length := by
  induction ps with
  | nil => simp at h
  | cons q qs ih =>
    rcases List.mem_cons.1 h with rfl | h
    · simp
    · have := ih h
      simp only [List.flatten_cons, List.length_append]
      omega

theorem length_le_of_mem_pieces {separator : Char} {d : Int} {t p : Text}
    (h : p ∈ pieces separator d t) : p.length ≤ t.length := by
  have hs := length_flatten_pieces separator d t
  have hp := length_le_length_flatten h
  have hpos := List.length_pos_iff.2 (pieces_ne_nil separator d t)
  omega

theorem length_lt_of_mem_pieces {separator : Char} {d : Int} {t p : Text}
    (h : p ∈ pieces separator d t) (cut : 1 < (pieces separator d t).length) :
    p.length < t.length := by
  have hs := length_flatten_pieces separator d t
  have hp := length_le_length_flatten h
  omega

def hasTopLevel (separator : Char) (t : Text) : Bool := 1 < (pieces separator 0 t).length

/-- The trimmed texts between the separators at depth zero. -/
def splitTopLevel (separator : Char) (t : Text) : List Text :=
  (pieces separator 0 t).map Text.trim

/-- Whether a text inside a bracket never closes it. The number of brackets open at a time has no
bound here, and stands for a count in 32 bits as long as fewer than 2 ^ 31 are open. -/
def staysInside : Nat → Text → Bool
  | _, [] => true
  | d, c :: cs =>
    if c = '{' ∨ c = '<' then staysInside (d + 1) cs
    else if c = '}' ∨ c = '>' then
      match d with
      | 0 => false
      | d + 1 => staysInside d cs
    else staysInside d cs

/-- The inside of a text that consists of `opening` and its inside and a final `>`, where the
inside never closes the bracket that `opening` ends with. -/
def unwrap? (opening t : Text) : Option Text :=
  (Text.after? opening t).bind fun rest =>
    (Text.before? '>' rest).bind fun inner =>
      if staysInside 0 inner then some inner else none

theorem eq_append_of_unwrap? {opening t inner : Text} (h : unwrap? opening t = some inner) :
    t = opening ++ inner ++ ['>'] ∧ staysInside 0 inner = true := by
  simp only [unwrap?, Option.bind_eq_some_iff, Option.ite_none_right_eq_some,
    Option.some.injEq] at h
  obtain ⟨rest, h₁, inner', h₂, hs, rfl⟩ := h
  rw [Text.after?_eq_some_iff] at h₁
  rw [Text.before?_eq_some_iff] at h₂
  exact ⟨by rw [h₁, h₂, List.append_assoc], hs⟩

end CollectionTypes.Nesting
