/-
# MethodSignature.Datum.Integer -- integers written as text

A plain integer is an optional minus and digits that do not begin with a zero, or a
zero alone.  It has at most 4300 characters; a longer one is *oversized* whatever
follows it.

Other text is read as the plain integer that is left when it has been tidied
(`Integer.tidy?`): white space around it goes, a plus goes and a minus is set aside,
and of what follows, which must begin with a digit,

* leading zeros go, with any underscores among them, but one zero stays before a point
  and at the end;
* a point and zeros behind it go;
* underscores go that stand one by one inside the number.

What follows leading zeros is read in its own right and may have a minus of its own.
-/
import MethodSignature.Text.Blank

namespace MethodSignature.Integer

set_option autoImplicit false

open Text

/-- What a text says of an integer. -/
inductive Parsed
  | value (value : Int)
  | oversized
  | unreadable
  deriving DecidableEq, Repr

/-- The number of characters a plain integer may have. -/
def maxLength : Nat := 4300

/-- The value of a run of decimal digits. -/
def ofDigits (digits : Text) : Nat :=
  digits.foldl (fun value c => value * 10 + (c.toNat - 0x30)) 0

/-- A plain integer without its sign, which takes `signLength` characters. -/
def unsigned (signLength : Nat) : Text → Parsed
  | ['0'] => .value 0
  | '0' :: _ => .unreadable
  | text =>
      let (digits, rest) := cut Char.isDigit text
      if digits.isEmpty then .unreadable
      else if maxLength < signLength + digits.length then .oversized
      else if rest.isEmpty then .value (ofDigits digits)
      else .unreadable

def plain : Text → Parsed
  | '-' :: rest =>
      match unsigned 1 rest with
      | .value value => .value (-value)
      | other => other
  | text => unsigned 0 text

/-! ## Tidying -/

/-- Blanks but for the information separators. -/
def isWhiteSpace (c : Char) : Bool := isBlank c && !(0x1c ≤ c.toNat && c.toNat ≤ 0x1f)

def trim (text : Text) : Text :=
  ((text.dropWhile isWhiteSpace).reverse.dropWhile isWhiteSpace).reverse

/-- What is left behind leading zeros, the last of them or an underscore being
`previous`. -/
def dropZerosFrom (previous : Char) : Text → Text
  | [] => [previous]
  | c :: rest =>
      if c = '0' ∨ c = '_' then dropZerosFrom c rest
      else if c = '.' then previous :: c :: rest
      else c :: rest

/-- A text that begins with a digit, less its leading zeros. -/
def dropZeros? : Text → Option Text
  | [] => none
  | c :: rest =>
      if c = '0' then some (dropZerosFrom c rest)
      else if c.isDigit then some (c :: rest)
      else none

/-- The text before a point that only zeros follow, one of them at least. -/
def dropFraction (text : Text) : Text :=
  match cut (fun c => c != '.') text with
  | (whole, _ :: '0' :: zeros) => if zeros.all (fun c => c == '0') then whole else text
  | _ => text

/-- Whether two underscores stand side by side. -/
def hasDoubleUnderscore : Text → Bool
  | '_' :: '_' :: _ => true
  | _ :: rest => hasDoubleUnderscore rest
  | [] => false

/-- The text less its underscores, if they stand one by one inside it. -/
def dropUnderscores (text : Text) : Text :=
  if text.head? = some '_' ∨ text.getLast? = some '_' ∨ hasDoubleUnderscore text then text
  else text.filter fun c => c != '_'

def tidyUnsigned? (text : Text) : Option Text :=
  (dropZeros? text).map fun text => dropUnderscores (dropFraction text)

/-- The plain integer a text may stand for. -/
def tidy? (text : Text) : Option Text :=
  match trim text with
  | '-' :: rest => (tidyUnsigned? rest).map fun text => '-' :: text
  | '+' :: rest => tidyUnsigned? rest
  | text => tidyUnsigned? text

/-- The integer a text stands for.  Only a text that is plain from the beginning can
be oversized. -/
def read (text : Text) : Parsed :=
  match plain text with
  | .unreadable =>
      match (tidy? text).map plain with
      | some (.value value) => .value value
      | _ => .unreadable
  | parsed => parsed

end MethodSignature.Integer
