/-
# MethodSignature.Text.Blank -- white space, inline and line-breaking

Blank characters are the white space of every script together with the four
information separators U+001C to U+001F.  Two of them, carriage return and line
feed, break a line.  All others, among them the vertical tab, next line (U+0085)
and the line separator (U+2028), are *inline*: they stand between the tokens of
one line.
-/
import MethodSignature.Text

namespace MethodSignature.Text

set_option autoImplicit false

/-- Blank characters, as closed ranges in increasing order. -/
def blankRanges : List (Nat × Nat) :=
  [(0x9, 0xd), (0x1c, 0x20), (0x85, 0x85), (0xa0, 0xa0), (0x1680, 0x1680), (0x2000, 0x200a),
   (0x2028, 0x2029), (0x202f, 0x202f), (0x205f, 0x205f), (0x3000, 0x3000)]

def isBlank (c : Char) : Bool := inRanges blankRanges c

/-- Carriage return or line feed. -/
def isLineBreak (c : Char) : Bool := c == '\r' || c == '\n'

/-- A blank that does not end a line. -/
def isInlineBlank (c : Char) : Bool := isBlank c && !isLineBreak c

theorem isBlank_of_isLineBreak {c : Char} (h : isLineBreak c = true) : isBlank c = true := by
  simp only [isLineBreak, Bool.or_eq_true, beq_iff_eq] at h
  rcases h with rfl | rfl <;> decide

theorem isBlank_iff (c : Char) :
    isBlank c = true ↔ isInlineBlank c = true ∨ isLineBreak c = true := by
  cases hl : isLineBreak c with
  | false => simp [isInlineBlank, hl]
  | true => simp [isBlank_of_isLineBreak hl]

/-- The white space of the core library is blank. -/
theorem isBlank_of_isWhitespace {c : Char} (h : c.isWhitespace = true) : isBlank c = true := by
  simp only [Char.isWhitespace, Bool.or_eq_true, decide_eq_true_eq] at h
  rcases h with ((rfl | rfl) | rfl) | rfl <;> decide

end MethodSignature.Text
