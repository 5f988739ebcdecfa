import CollectionTypes.Json.Failure

/-!
# Blanks and literal words
-/

namespace CollectionTypes.Json

def isSpace (c : Char) : Bool := c == ' ' || c == '\t' || c == '\n' || c == '\r'

def skipSpace (t : Text) : Text := t.dropWhile isSpace

theorem length_skipSpace_le (t : Text) : (skipSpace t).length ≤ t.length :=
  Text.length_dropWhile_le isSpace t

theorem length_lt_of_skipSpace {t cs : Text} {c : Char} (h : skipSpace t = c :: cs) :
    cs.length < t.length := by
  have := length_skipSpace_le t
  rw [h, List.length_cons] at this
  omega

/-- Skips the letters of a literal word. -/
def skipLetters : (letters t : Text) → Except Fault Text
  | [], t => .ok t
  | _ :: _, [] => atHere .endInValue []
  | l :: ls, c :: cs => if l = c then skipLetters ls cs else atNext .identExpected (c :: cs)

theorem skipLetters_eq_ok_iff {letters t rest : Text} :
    skipLetters letters t = .ok rest ↔ t = letters ++ rest := by
  induction letters generalizing t with
  | nil => simp [skipLetters]
  | cons l ls ih =>
    cases t with
    | nil => simp [skipLetters, atHere]
    | cons c cs =>
      by_cases h : l = c
      · subst h
        simp [skipLetters, ih]
      · have h' : ¬ c = l := fun e => h e.symm
        simp [skipLetters, atNext, h, h']

/-- What a literal word has after its first letter. -/
def nullLetters : Text := "ull"

def trueLetters : Text := "rue"

def falseLetters : Text := "alse"

end CollectionTypes.Json
