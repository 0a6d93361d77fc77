import SignatureLine.Text.Basic

/-!
# White space

The Unicode property `White_Space`, and trimming by it. Wider than `Text.isBlank`, which knows the
space and the tab only.
-/

namespace SignatureLine.Text

/-- The characters with the property `White_Space`, as inclusive ranges of code points. -/
def whitespaceRanges : List (Nat × Nat) :=
  [(0x09, 0x0D), (0x20, 0x20), (0x85, 0x85), (0xA0, 0xA0), (0x1680, 0x1680), (0x2000, 0x200A),
    (0x2028, 0x2029), (0x202F, 0x202F), (0x205F, 0x205F), (0x3000, 0x3000)]

def inRanges (ranges : List (Nat × Nat)) (n : Nat) : Bool :=
  ranges.any fun r => r.1 ≤ n && n ≤ r.2

/-- Whether a character has the property `White_Space`. -/
def isWhitespace (c : Char) : Bool :=
  inRanges whitespaceRanges c.toNat

def trim (s : Text) : Text :=
  trimBoth isWhitespace s

theorem isWhitespace_of_isBlank {c : Char} (h : isBlank c = true) : isWhitespace c = true := by
  rcases (by simpa [isBlank] using h : c = ' ' ∨ c = '\t') with rfl | rfl <;> decide

end SignatureLine.Text
