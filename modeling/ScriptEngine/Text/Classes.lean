/-!
# Classes of characters

Names are made of the letters and the numbers of Unicode, of whatever version, and blanks are its white
space. A class that is fixed is a table of ranges of code points.
-/

namespace ScriptEngine

/-- The letters and the numbers of Unicode. They differ from version to version, but not in ASCII. -/
class Alphabet where
  isAlphabetic : Char → Bool
  isNumeric : Char → Bool
  isAlphabetic_of_lt {c : Char} : c.toNat < 128 → isAlphabetic c = c.isAlpha
  isNumeric_of_lt {c : Char} : c.toNat < 128 → isNumeric c = c.isDigit

theorem Alphabet.isAlphabetic_of_isAlpha [Alphabet] {c : Char} (h : c.isAlpha = true) : isAlphabetic c = true := by
  rw [isAlphabetic_of_lt, h]
  delta Char.isAlpha Char.isUpper Char.isLower at h
  simp [UInt32.le_iff_toNat_le] at h
  omega

theorem Alphabet.isAlphabetic_eq_false [Alphabet] {c : Char} (h : c.toNat < 128) (ha : c.isAlpha = false) :
    isAlphabetic c = false :=
  (isAlphabetic_of_lt h).trans ha

theorem Alphabet.ne_of_isAlphabetic [Alphabet] {c d : Char} (hc : isAlphabetic c = true) (h : d.toNat < 128)
    (hd : d.isAlpha = false) : c ≠ d := by
  rintro rfl
  rw [isAlphabetic_eq_false h hd] at hc
  cases hc

namespace Text

/-- Whether one of the ranges, both ends included, holds the code point of `c`. -/
def covers (ranges : List (Nat × Nat)) (c : Char) : Bool :=
  ranges.any fun r => r.1 ≤ c.toNat && c.toNat ≤ r.2

/-! ## Blanks -/

/-- Ranges of the characters with the property `White_Space` of Unicode. -/
def blankRanges : List (Nat × Nat) :=
  [(0x9, 0xD), (0x20, 0x20), (0x85, 0x85), (0xA0, 0xA0), (0x1680, 0x1680), (0x2000, 0x200A),
    (0x2028, 0x2029), (0x202F, 0x202F), (0x205F, 0x205F), (0x3000, 0x3000)]

/-- Whether `c` is white space. -/
def isBlank (c : Char) : Bool := covers blankRanges c

/-- A text without the blanks at its end. -/
def trimEnd (cs : List Char) : List Char := (cs.reverse.dropWhile isBlank).reverse

end Text

end ScriptEngine
