/-!
# Blank characters

The characters that only separate others, in any script. Those that the core library counts as blank
are among them (`isBlank_of_isWhitespace`).
-/

set_option autoImplicit false
set_option relaxedAutoImplicit false

namespace TypedPacket.Blank

/-- The ranges of the blank characters, in increasing order. -/
def ranges : List (Nat × Nat) :=
  [(0x9, 0xD), (0x20, 0x20), (0x85, 0x85), (0xA0, 0xA0), (0x1680, 0x1680), (0x2000, 0x200A),
    (0x2028, 0x2029), (0x202F, 0x202F), (0x205F, 0x205F), (0x3000, 0x3000)]

def isBlank (c : Char) : Bool := ranges.any fun range => range.1 ≤ c.toNat && c.toNat ≤ range.2

theorem isBlank_of_isWhitespace {c : Char} (h : c.isWhitespace) : isBlank c := by
  have cases : c = ' ' ∨ c = '\t' ∨ c = '\r' ∨ c = '\n' := by
    simpa [Char.isWhitespace, or_assoc] using h
  rcases cases with rfl | rfl | rfl | rfl <;> decide

/-- What is left without the blanks at the end. -/
def trimEnd (words : List Char) : List Char := (words.reverse.dropWhile isBlank).reverse

/-- What is left without the blanks at both ends. -/
def trim (words : List Char) : List Char := trimEnd (words.dropWhile isBlank)

end TypedPacket.Blank
