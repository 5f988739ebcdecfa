/-!
# Text

Everything read or written is a list of Unicode characters, so that scanners recurse on it and
their laws are proved by induction. This file has the cutting and trimming used throughout: what
is left after a known beginning or before a known last character, the cut at the first occurrence
of a character, and trimming of `White_Space`.
-/

namespace CollectionTypes

abbrev Text := List Char

instance : Coe String Text := ⟨String.toList⟩

namespace Text

/-- The characters with the Unicode property `White_Space`. -/
def isBlank (c : Char) : Bool :=
  let n := c.toNat
  (9 ≤ n && n ≤ 13) || n == 0x20 || n == 0x85 || n == 0xA0 || n == 0x1680 ||
    (0x2000 ≤ n && n ≤ 0x200A) || n == 0x2028 || n == 0x2029 || n == 0x202F || n == 0x205F ||
    n == 0x3000

def trimStart (t : Text) : Text := t.dropWhile isBlank

def trimEnd (t : Text) : Text := (t.reverse.dropWhile isBlank).reverse

def trim (t : Text) : Text := trimEnd (trimStart t)

theorem length_dropWhile_le (p : Char → Bool) (t : Text) : (t.dropWhile p).length ≤ t.length := by
  induction t with
  | nil => simp
  | cons c cs ih =>
    by_cases h : p c
    · simp only [List.dropWhile_cons, h, if_true, List.length_cons]
      omega
    · simp [h]

theorem length_trimEnd_le (t : Text) : (trimEnd t).length ≤ t.length := by
  have h := length_dropWhile_le isBlank t.reverse
  simpa [trimEnd] using h

theorem length_trim_le (t : Text) : (trim t).length ≤ t.length :=
  Nat.le_trans (length_trimEnd_le _) (length_dropWhile_le isBlank t)

/-- What follows `start` in a text that begins with it. -/
def after? : (start t : Text) → Option Text
  | [], t => some t
  | _ :: _, [] => none
  | s :: ss, c :: cs => if s = c then after? ss cs else none

theorem after?_eq_some_iff {start t rest : Text} :
    after? start t = some rest ↔ t = start ++ rest := by
  induction start generalizing t with
  | nil => simp [after?]
  | cons s ss ih =>
    cases t with
    | nil => simp [after?]
    | cons c cs =>
      by_cases h : s = c
      · subst h
        simp [after?, ih]
      · have h' : ¬ c = s := fun e => h e.symm
        simp [after?, h, h']

/-- What precedes `last` in a text that ends with it. -/
def before? (last : Char) (t : Text) : Option Text :=
  if t.getLast? = some last then some t.dropLast else none

theorem before?_eq_some_iff {last : Char} {t rest : Text} :
    before? last t = some rest ↔ t = rest ++ [last] := by
  unfold before?
  constructor
  · intro h
    split at h
    next hl =>
      obtain rfl := Option.some.inj h
      obtain ⟨ys, rfl⟩ := List.getLast?_eq_some_iff.1 hl
      simp
    next => simp at h
  · rintro rfl
    simp

/-- The texts around the first `c`, without it. -/
def cutAt? (c : Char) : Text → Option (Text × Text)
  | [] => none
  | x :: xs => if x = c then some ([], xs) else (cutAt? c xs).map fun (a, b) => (x :: a, b)

theorem eq_append_of_cutAt? {c : Char} {t a b : Text} (h : cutAt? c t = some (a, b)) :
    t = a ++ c :: b ∧ c ∉ a := by
  induction t generalizing a b with
  | nil => simp [cutAt?] at h
  | cons x xs ih =>
    by_cases hx : x = c
    · simp only [cutAt?, hx, if_true, Option.some.injEq, Prod.mk.injEq] at h
      obtain ⟨rfl, rfl⟩ := h
      simp [hx]
    · simp only [cutAt?, hx, if_false, Option.map_eq_some_iff, Prod.exists, Prod.mk.injEq] at h
      obtain ⟨a', b', h', rfl, rfl⟩ := h
      obtain ⟨rfl, hc⟩ := ih h'
      have hcx : ¬ c = x := fun e => hx e.symm
      simp [hc, hcx]

/-- The texts one after another with `separator` between neighbours. -/
def joined (separator : Text) : List Text → Text
  | [] => []
  | [t] => t
  | t :: u :: rest => t ++ separator ++ joined separator (u :: rest)

/-- A natural number in decimal digits. -/
def ofNat (n : Nat) : Text := (toString n).toList

end Text
end CollectionTypes
