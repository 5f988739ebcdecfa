import CollectionTypes.Text.Escape
import Mathlib.Tactic.SplitIfs

/-!
# Written digits and escapes

The strings of both dump formats are written with hexadecimal digits, escapes and characters that
stand for themselves. The digits and the table of escapes are given without regard to how they are
read; the readers take them for what they stand for.
-/

namespace CollectionTypes

/-! ### Hexadecimal digits -/

structure HexDigit where
  value : Fin 16
  upper : Bool
deriving DecidableEq

namespace HexDigit

def char (d : HexDigit) : Char :=
  if d.upper then (Nat.digitChar d.value).toUpper else Nat.digitChar d.value

/-- The last digit of a number, in lower case. -/
def lastOf (n : Nat) : HexDigit := ⟨⟨n % 16, Nat.mod_lt n (by decide)⟩, false⟩

end HexDigit

theorem Text.hexDigit?_char (d : HexDigit) : Text.hexDigit? d.char = some d.value.val := by
  obtain ⟨value, upper⟩ := d
  revert value upper
  decide

theorem Text.toNat_lt_of_hexDigit? {c : Char} {n : Nat} (h : Text.hexDigit? c = some n) :
    c.toNat < 128 := by
  have bound {last : Char} (hl : last.toNat < 128) (hc : c ≤ last) : c.toNat < 128 := by
    rw [Char.le_def, UInt32.le_iff_toNat_le] at hc
    exact Nat.lt_of_le_of_lt hc hl
  unfold Text.hexDigit? at h
  split_ifs at h with h₁ h₂ h₃
  · exact bound (by decide) h₁.2
  · exact bound (by decide) h₂.2
  · exact bound (by decide) h₃.2

theorem exists_hexDigit {c : Char} {n : Nat} (h : Text.hexDigit? c = some n) :
    ∃ d : HexDigit, d.char = c ∧ d.value.val = n := by
  have table : ∀ k < 128, Text.hexDigit? (Char.ofNat k) = none ∨
      ∃ value : Fin 16, ∃ upper : Bool, (HexDigit.mk value upper).char = Char.ofNat k := by
    decide +kernel
  have hc := table c.toNat (Text.toNat_lt_of_hexDigit? h)
  rw [Char.ofNat_toNat] at hc
  rcases hc with hn | ⟨value, upper, rfl⟩
  · rw [hn] at h
    exact absurd h (by simp)
  · rw [Text.hexDigit?_char] at h
    exact ⟨⟨value, upper⟩, rfl, Option.some.inj h⟩

/-! ### Letters after a backslash -/

/-- The letters that both formats have, and what they stand for. -/
def sharedEscapes : List (Char × Char) :=
  [('"', '"'), ('\\', '\\'), ('b', '\x08'), ('f', '\x0c'), ('n', '\n'), ('r', '\r'), ('t', '\t')]

/-- A letter after a backslash and what it stands for, in a format with one letter of its own. -/
abbrev ShortEscape (own : Char × Char) := { e : Char × Char // e ∈ own :: sharedEscapes }

theorem Text.simpleEscape?_eq_some_iff {own : Char × Char}
    (h : own.1 ∉ sharedEscapes.map Prod.fst) {c d : Char} :
    simpleEscape? own c = some d ↔ (c, d) ∈ own :: sharedEscapes := by
  have fresh (d : Char) : (own.1, d) ∉ sharedEscapes := by
    intro hd
    exact h (List.mem_map.2 ⟨_, hd, rfl⟩)
  unfold Text.simpleEscape?
  split_ifs with ho
  · subst ho
    simp [fresh, Prod.ext_iff, eq_comm]
  all_goals simp_all [sharedEscapes, Prod.ext_iff, eq_comm]

/-! ### Characters that stand for themselves -/

/-- A character that stands for itself in a string. -/
abbrev PlainChar (isControl : Char → Bool) :=
  { c : Char // c ≠ '"' ∧ c ≠ '\\' ∧ isControl c = false }

theorem toNat_lt_of_not_plain {isControl : Char → Bool}
    (control : ∀ c, isControl c = true → c.toNat < 128) {c : Char}
    (h : ¬ (c ≠ '"' ∧ c ≠ '\\' ∧ isControl c = false)) : c.toNat < 128 := by
  by_cases hq : c = '"'
  · rw [hq]
    decide
  by_cases hb : c = '\\'
  · rw [hb]
    decide
  exact control c (by simpa [hq, hb] using h)

end CollectionTypes
