/-
# MethodSignature.Token.Kind -- the kinds of token

A signature is written with eight symbols, one keyword, type constraints and
variables.  Line breaks are tokens too, because they can separate parameters, and
so is the end of the input.
-/
import MethodSignature.Text

namespace MethodSignature.Token

set_option autoImplicit false

inductive Kind
  | openParen
  | closeParen
  | comma
  | colon
  | equals
  | pipe
  | bang
  | question
  | newline
  | whereKeyword
  | typeName
  | variableName
  | endOfInput
  deriving DecidableEq, Repr

namespace Kind

/-- The symbol a character is, if it is one. -/
def ofSymbol? : Char → Option Kind
  | '(' => some .openParen
  | ')' => some .closeParen
  | ',' => some .comma
  | ':' => some .colon
  | '=' => some .equals
  | '|' => some .pipe
  | '!' => some .bang
  | '?' => some .question
  | _ => none

/-- How a message names a token of this kind. -/
def description : Kind → String
  | .openParen => "'('"
  | .closeParen => "')'"
  | .comma => "','"
  | .colon => "':'"
  | .equals => "'='"
  | .pipe => "'|'"
  | .bang => "'!'"
  | .question => "'?'"
  | .newline => "newline"
  | .whereKeyword => "'where'"
  | .typeName => "type constraint"
  | .variableName => "variable"
  | .endOfInput => "end of input"

end Kind

end MethodSignature.Token
