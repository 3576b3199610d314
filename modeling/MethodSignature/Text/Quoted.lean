/-
# MethodSignature.Text.Quoted -- text shown inside a message

Messages show a piece of input between quotes.  The quote is the apostrophe,
unless the text holds an apostrophe and no double quote; then it is the double
quote.  Inside, a backslash and the chosen quote are written behind a backslash;
tab, line feed and carriage return by their letters; any other character that is
not printable by its code point in lower-case hexadecimal, behind `x` in two
digits, `u` in four or `U` in eight.  Everything else stands for itself.
-/
import MethodSignature.Text.Printable

namespace MethodSignature.Text

set_option autoImplicit false

/-- The last `width` hexadecimal digits of `n`, the lowest one last. -/
def hex : Nat → Nat → Text
  | 0, _ => []
  | width + 1, n => hex width (n / 16) ++ [Nat.digitChar (n % 16)]

theorem length_hex (width n : Nat) : (hex width n).length = width := by
  induction width generalizing n with
  | zero => rfl
  | succ width ih => simp [hex, ih]

/-- The quote that surrounds `text` in a message. -/
def quoteFor (text : Text) : Char :=
  if text.contains apostrophe && !text.contains doubleQuote then doubleQuote else apostrophe

/-- A character that is not printable, by its code point. -/
def codePoint (c : Char) : Text :=
  if c.toNat < 0x100 then backslash :: 'x' :: hex 2 c.toNat
  else if c.toNat < 0x10000 then backslash :: 'u' :: hex 4 c.toNat
  else backslash :: 'U' :: hex 8 c.toNat

/-- One character between quotes `quote`. -/
def shown (quote c : Char) : Text :=
  if c = backslash ∨ c = quote then [backslash, c]
  else if c = '\t' then [backslash, 't']
  else if c = '\n' then [backslash, 'n']
  else if c = '\r' then [backslash, 'r']
  else if isPrintable c then [c]
  else codePoint c

def quoted (text : Text) : String :=
  let quote := quoteFor text
  String.ofList (quote :: text.flatMap (shown quote) ++ [quote])

end MethodSignature.Text
