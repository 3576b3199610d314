/-
# MethodSignature.Datum.Json -- data in JSON

Data is written without blanks, the fields of an object in their order.  A text is
written as itself, but for the quote, the backslash and the controls below U+0020:
these stand behind a backslash, by a letter where they have one and else by their
code point in four lower-case hexadecimal digits.  A decimal is written as its mantissa
and exponent.

`Datum.ofJson?` reads JSON in any layout.  A number with a point or an exponent is a
decimal, every other one an integer; a zero in front of further digits makes it no number.
Behind a backslash a character may be given by one code unit or by the two of a surrogate
pair, and a control below U+0020 must be given behind one.
-/
import MethodSignature.Datum
import MethodSignature.Datum.Integer
import MethodSignature.Text.Quoted

namespace MethodSignature.Datum

set_option autoImplicit false

open Text

/-! ## Writing -/

/-- The letter that stands for a control behind a backslash. -/
def controlLetter? : Char → Option Char
  | '\x08' => some 'b'
  | '\x0c' => some 'f'
  | '\n' => some 'n'
  | '\r' => some 'r'
  | '\t' => some 't'
  | _ => none

def jsonChar (c : Char) : Text :=
  if c = doubleQuote ∨ c = backslash then [backslash, c]
  else
    match controlLetter? c with
    | some letter => [backslash, letter]
    | none => if c.toNat < 0x20 then backslash :: 'u' :: hex 4 c.toNat else [c]

def jsonText (text : Text) : Text :=
  doubleQuote :: text.flatMap jsonChar ++ [doubleQuote]

def jsonInt : Int → Text
  | .ofNat n => Nat.toDigits 10 n
  | .negSucc n => '-' :: Nat.toDigits 10 (n + 1)

mutual

def toJson : Datum → Text
  | .null => ['n', 'u', 'l', 'l']
  | .bool true => ['t', 'r', 'u', 'e']
  | .bool false => ['f', 'a', 'l', 's', 'e']
  | .integer value => jsonInt value
  | .decimal mantissa exponent => jsonInt mantissa ++ 'e' :: jsonInt exponent
  | .string text => jsonText text
  | .array [] => ['[', ']']
  | .array (item :: items) => '[' :: toJson item ++ jsonItems items
  | .object [] => ['{', '}']
  | .object ((key, value) :: fields) =>
      '{' :: jsonText key.toList ++ ':' :: toJson value ++ jsonFields fields

/-- The items behind the first, and the closing bracket. -/
def jsonItems : List Datum → Text
  | [] => [']']
  | item :: items => ',' :: toJson item ++ jsonItems items

/-- The fields behind the first, and the closing brace. -/
def jsonFields : List (String × Datum) → Text
  | [] => ['}']
  | (key, value) :: fields =>
      ',' :: jsonText key.toList ++ ':' :: toJson value ++ jsonFields fields

end

/-! ## Reading texts -/

def hexValue? (c : Char) : Option Nat :=
  if c.isDigit then some (c.toNat - 0x30)
  else if 'a' ≤ c ∧ c ≤ 'f' then some (c.toNat - 0x57)
  else if 'A' ≤ c ∧ c ≤ 'F' then some (c.toNat - 0x37)
  else none

/-- The code unit four hexadecimal digits stand for. -/
def codeUnit? : Text → Option (Nat × Text)
  | a :: b :: c :: d :: rest => do
      let a ← hexValue? a
      let b ← hexValue? b
      let c ← hexValue? c
      let d ← hexValue? d
      return (((a * 16 + b) * 16 + c) * 16 + d, rest)
  | _ => none

/-- The character that begins with the code unit `first`: itself, or the first of a
surrogate pair. -/
def ofCodeUnit? (first : Nat) (rest : Text) : Option (Char × Text) :=
  if first < 0xd800 ∨ 0xe000 ≤ first then some (Char.ofNat first, rest)
  else
    match rest with
    | '\x5c' :: 'u' :: rest =>
        (codeUnit? rest).bind fun (second, rest) =>
          if first < 0xdc00 ∧ 0xdc00 ≤ second ∧ second < 0xe000 then
            some (Char.ofNat (0x10000 + (first - 0xd800) * 0x400 + (second - 0xdc00)), rest)
          else none
    | _ => none

/-- The character a letter behind a backslash stands for. -/
def ofLetter? : Char → Option Char
  | 'b' => some '\x08'
  | 'f' => some '\x0c'
  | 'n' => some '\n'
  | 'r' => some '\r'
  | 't' => some '\t'
  | '\x22' => some doubleQuote
  | '\x5c' => some backslash
  | '/' => some '/'
  | _ => none

/-- One character of a text, and the rest. -/
def readChar? : Text → Option (Char × Text)
  | '\x5c' :: 'u' :: rest => (codeUnit? rest).bind fun (first, rest) => ofCodeUnit? first rest
  | '\x5c' :: letter :: rest => (ofLetter? letter).map fun c => (c, rest)
  | c :: rest => if c.toNat < 0x20 then none else some (c, rest)
  | [] => none

/-- A text of at most `fuel` characters up to its closing quote, and the rest. -/
def readText? : Nat → Text → Option (Text × Text)
  | 0, _ => none
  | fuel + 1, text =>
      match text with
      | '\x22' :: rest => some ([], rest)
      | text => do
          let (first, rest) ← readChar? text
          let (more, rest) ← readText? fuel rest
          return (first :: more, rest)

/-! ## Reading numbers -/

/-- A run of digits and the rest. -/
def readDigits? (text : Text) : Option (Text × Text) :=
  match cut Char.isDigit text with
  | ([], _) => none
  | found => some found

/-- The digits in front of a point, where a zero stands alone. -/
def readWhole? (text : Text) : Option (Text × Text) :=
  match readDigits? text with
  | some ('0' :: _ :: _, _) => none
  | found => found

/-- A sign, which may be a plus only where `plus` allows it, and the rest. -/
def readSign (plus : Bool) : Text → Int × Text
  | '-' :: rest => (-1, rest)
  | '+' :: rest => if plus then (1, rest) else (1, '+' :: rest)
  | text => (1, text)

/-- The digits behind a point, if there is one. -/
def readFraction? : Text → Option (Option Text × Text)
  | '.' :: rest => (readDigits? rest).map fun (digits, rest) => (some digits, rest)
  | text => some (none, text)

/-- The exponent, if there is one. -/
def readExponent? : Text → Option (Option Int × Text)
  | [] => some (none, [])
  | mark :: rest =>
      if mark = 'e' ∨ mark = 'E' then
        let (sign, rest) := readSign true rest
        (readDigits? rest).map fun (digits, rest) =>
          (some (sign * Integer.ofDigits digits), rest)
      else some (none, mark :: rest)

/-- The number these parts make up. -/
def number (sign : Int) (whole : Text) : Option Text → Option Int → Datum
  | none, none => .integer (sign * Integer.ofDigits whole)
  | fraction, exponent =>
      let fraction := fraction.getD []
      .decimal (sign * Integer.ofDigits (whole ++ fraction)) (exponent.getD 0 - fraction.length)

def readNumber? (text : Text) : Option (Datum × Text) := do
  let (sign, rest) := readSign false text
  let (whole, rest) ← readWhole? rest
  let (fraction, rest) ← readFraction? rest
  let (exponent, rest) ← readExponent? rest
  return (number sign whole fraction exponent, rest)

/-! ## Reading values -/

/-- Blanks that may stand between the parts of JSON. -/
def isJsonBlank (c : Char) : Bool := c == ' ' || c == '\t' || c == '\n' || c == '\r'

def skipBlanks (text : Text) : Text := text.dropWhile isJsonBlank

mutual

/-- A value and the rest.  Each level of nesting and each further item takes one of
`fuel`, and a character at least. -/
def read? : Nat → Text → Option (Datum × Text)
  | 0, _ => none
  | fuel + 1, text =>
      match skipBlanks text with
      | 'n' :: 'u' :: 'l' :: 'l' :: rest => some (.null, rest)
      | 't' :: 'r' :: 'u' :: 'e' :: rest => some (.bool true, rest)
      | 'f' :: 'a' :: 'l' :: 's' :: 'e' :: rest => some (.bool false, rest)
      | '\x22' :: rest => (readText? rest.length rest).map fun (text, rest) => (.string text, rest)
      | '[' :: rest =>
          match skipBlanks rest with
          | ']' :: rest => some (.array [], rest)
          | rest => do
              let (item, rest) ← read? fuel rest
              let (items, rest) ← readItems? fuel rest
              return (.array (item :: items), rest)
      | '{' :: rest =>
          match skipBlanks rest with
          | '}' :: rest => some (.object [], rest)
          | rest => do
              let (field, rest) ← readField? fuel rest
              let (fields, rest) ← readFields? fuel rest
              return (.object (field :: fields), rest)
      | text => readNumber? text

def readItems? : Nat → Text → Option (List Datum × Text)
  | 0, _ => none
  | fuel + 1, text =>
      match skipBlanks text with
      | ']' :: rest => some ([], rest)
      | ',' :: rest => do
          let (item, rest) ← read? fuel rest
          let (items, rest) ← readItems? fuel rest
          return (item :: items, rest)
      | _ => none

def readField? : Nat → Text → Option ((String × Datum) × Text)
  | 0, _ => none
  | fuel + 1, text =>
      match skipBlanks text with
      | '\x22' :: rest => do
          let (key, rest) ← readText? rest.length rest
          match skipBlanks rest with
          | ':' :: rest =>
              let (value, rest) ← read? fuel rest
              return ((String.ofList key, value), rest)
          | _ => none
      | _ => none

def readFields? : Nat → Text → Option (List (String × Datum) × Text)
  | 0, _ => none
  | fuel + 1, text =>
      match skipBlanks text with
      | '}' :: rest => some ([], rest)
      | ',' :: rest => do
          let (field, rest) ← readField? fuel rest
          let (fields, rest) ← readFields? fuel rest
          return (field :: fields, rest)
      | _ => none

end

/-- The data a JSON text stands for. -/
def ofJson? (text : Text) : Option Datum :=
  match read? (text.length + 1) text with
  | some (datum, rest) => if (skipBlanks rest).isEmpty then some datum else none
  | none => none

end MethodSignature.Datum
