/-
# MethodSignature.Text -- text as a list of characters

Every scanner of this library works on the characters still ahead of it, and
every offset, length and slice counts characters.  A text is therefore its list
of characters; a `String` appears only where a message is written.

The classes of this module are the ones the signature language itself is made
of, and they know ASCII alone.  The classes that follow a Unicode property
(`isBlank`, `isWord`, `isDigit`, `isPrintable`) have a module each.
-/
namespace MethodSignature

set_option autoImplicit false

abbrev Text := List Char

namespace Text

abbrev backslash : Char := '\x5c'

abbrev apostrophe : Char := '\x27'

abbrev doubleQuote : Char := '\x22'

/-- A letter a type name, or a part of it after `::`, may begin with. -/
def isLetter (c : Char) : Bool := c.isAlpha

/-- A character of a variable name or a label. -/
def isNameChar (c : Char) : Bool := c.isAlphanum || c == '_'

/-- A character that may follow the sigil of a variable. -/
def isNameStart (c : Char) : Bool := c.isAlpha || c == '_'

/-- A character of a type name after its first letter: a name character or a
hyphen. -/
def isTypeChar (c : Char) : Bool := isNameChar c || c == '-'

/-- A sigil: scalar, array or hash. -/
def isSigil (c : Char) : Bool := c == '$' || c == '@' || c == '%'

/-- The name characters by code point: capital and small letters, digits and `_`. -/
theorem isNameChar_iff {c : Char} :
    isNameChar c = true ↔
      (0x41 ≤ c.toNat ∧ c.toNat ≤ 0x5a) ∨ (0x61 ≤ c.toNat ∧ c.toNat ≤ 0x7a) ∨
        (0x30 ≤ c.toNat ∧ c.toNat ≤ 0x39) ∨ c.toNat = 0x5f := by
  have underscore : c = '_' ↔ c.toNat = 0x5f := by
    constructor
    · rintro rfl
      rfl
    · intro same
      exact Char.ext (UInt32.toNat_inj.1 same)
  show ((decide (c.val ≥ 'A'.val ∧ c.val ≤ 'Z'.val) ||
      (decide (c.val ≥ 'a'.val) && decide (c.val ≤ 'z'.val))) ||
      (decide (c.val ≥ '0'.val) && decide (c.val ≤ '9'.val)) || c == '_') = true ↔ _
  rw [Bool.or_eq_true, Bool.or_eq_true, Bool.or_eq_true, decide_eq_true_eq, Bool.and_eq_true,
    Bool.and_eq_true, decide_eq_true_eq, decide_eq_true_eq, decide_eq_true_eq, decide_eq_true_eq,
    beq_iff_eq, underscore, or_assoc, or_assoc]
  exact Iff.rfl

theorem toNat_lt_of_isNameChar {c : Char} (h : isNameChar c = true) : c.toNat < 0x80 := by
  rw [isNameChar_iff] at h
  omega

/-- Whether the code point of `c` lies in one of the closed ranges. -/
def inRanges (ranges : List (Nat × Nat)) (c : Char) : Bool :=
  ranges.any fun range => range.1 ≤ c.toNat && c.toNat ≤ range.2

/-- Cuts `text` behind its longest beginning made of characters of a class. -/
def cut (inClass : Char → Bool) (text : Text) : Text × Text :=
  (text.takeWhile inClass, text.dropWhile inClass)

theorem cut_append (inClass : Char → Bool) (text : Text) :
    (cut inClass text).1 ++ (cut inClass text).2 = text :=
  List.takeWhile_append_dropWhile

end Text

end MethodSignature
