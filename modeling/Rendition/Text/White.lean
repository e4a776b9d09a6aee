import Rendition.Text.Fields

/-!
# White space

The characters with the Unicode property White_Space.  The separators U+001C to
U+001F, the zero-width space U+200B and the byte order mark U+FEFF do not have it.
-/

namespace Rendition.Text

/-- The ranges of code points with the property, in order. -/
def whiteRanges : List (Nat × Nat) :=
  [(0x09, 0x0D), (0x20, 0x20), (0x85, 0x85), (0xA0, 0xA0), (0x1680, 0x1680),
    (0x2000, 0x200A), (0x2028, 0x2029), (0x202F, 0x202F), (0x205F, 0x205F),
    (0x3000, 0x3000)]

-- The ranges are in order and do not touch.
example : whiteRanges.Pairwise fun a b => a.2 < b.1 := by decide

def isWhite (c : Char) : Bool :=
  whiteRanges.any fun (low, high) => low ≤ c.toNat && c.toNat ≤ high

/-- Every character that the core library calls white space is white. -/
theorem isWhite_of_isWhitespace {c : Char} (h : c.isWhitespace = true) : isWhite c = true := by
  simp only [Char.isWhitespace, Bool.or_eq_true, decide_eq_true_eq] at h
  rcases h with ((rfl | rfl) | rfl) | rfl <;> decide

/-- The text without white space at its ends. -/
def trimWhite (text : List Char) : List Char :=
  strip isWhite text

/-- The pieces between runs of white space. -/
def whiteWords (text : List Char) : List (List Char) :=
  words isWhite text

end Rendition.Text
