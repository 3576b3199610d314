/-
# MethodSignature.Declaration -- reading one parameter

    parameter : [ type ( '|' type )* ]
                [ ':' [ label '(' ] ] variable [ ')' ]
                [ '?' | '!' ]
                [ '=' value ]
                ( 'where' block )*
    value     : number | quote | variable

A declaration is the parameter read and the offset it begins at.  Where neither a
type, a colon nor a variable stands, no parameter begins.  Values and blocks are not
made of tokens: behind `=` and `where` the text itself is scanned, any blanks first.
-/
import MethodSignature.Literal.Block
import MethodSignature.Literal.Number
import MethodSignature.Literal.Quote
import MethodSignature.Parameter
import MethodSignature.Reading

namespace MethodSignature

set_option autoImplicit false

structure Declaration where
  offset : Nat
  parameter : Parameter
  deriving DecidableEq, Repr

namespace Declaration

open Reading Text

/-- A further type behind a pipe. -/
def alternative? : Reading (Option Text) := do
  match ← accept .pipe with
  | none => return none
  | some _ =>
      let token ← expect .typeName
      return some ('|' :: token.literal)

/-- A type constraint, with alternatives joined to it. -/
def typeConstraint? : Reading (Option Text) := do
  match ← accept .typeName with
  | none => return none
  | some token =>
      let alternatives ← many alternative?
      return some (token.literal ++ alternatives.flatten)

/-- A colon makes a parameter named, and a name with a parenthesis behind the
colon is its label. -/
def style : Reading Parameter.Style := do
  match ← accept .colon with
  | none => return .positional
  | some _ =>
      match ← accept .typeName with
      | none => return .named none
      | some token =>
          if token.literal.all isNameChar then
            let _ ← expect .openParen
            return .named (some token.literal)
          else throw (.fault ⟨token.offset, .labelMissing token.literal⟩)

/-- The variable, and the parenthesis that closes a label. -/
def variableName (style : Parameter.Style) : Reading Text := do
  let token ← expect .variableName
  match style.label? with
  | none => return token.literal
  | some _ =>
      let _ ← expect .closeParen
      return token.literal

/-- Whether the parameter is required, by its mark or else by its style. -/
def requirement (style : Parameter.Style) : Reading Bool := do
  match ← accept .question with
  | some _ => return false
  | none =>
      match ← accept .bang with
      | some _ => return true
      | none => return style.required

/-- A number, a quote or a variable. -/
def value : Reading Text := do
  scan blanks
  match ← scan Number.scan with
  | some number => return number
  | none =>
      match ← scan Quote.scan with
      | some quote => return quote
      | none =>
          match ← accept .variableName with
          | some token => return token.literal
          | none => fail .defaultValue

def defaultValue? : Reading (Option Text) := do
  match ← accept .equals with
  | none => return none
  | some _ =>
      let text ← value
      return some text

/-- The block behind `where`. -/
def block : Reading Text := do
  scan blanks
  let lexer ← get
  let cursor := lexer.cursor
  if cursor.atEnd then throw (.fault ⟨cursor.offset, .inputEnded .whereBlock⟩)
  else
    match ← scan Block.scan with
    | some block => return block
    | none =>
        let preview := cursor.peek Cursor.previewLength
        throw (.fault ⟨cursor.offset, .whereBlockMissing preview⟩)

def constraint? : Reading (Option Text) := do
  match ← accept .whereKeyword with
  | none => return none
  | some _ =>
      let text ← block
      return some text

/-- All of a parameter from its variable on. -/
def readRest (offset : Nat) (typeConstraint : Option Text) (style : Parameter.Style) :
    Reading Declaration := do
  let name ← variableName style
  let required ← requirement style
  let defaultValue ← defaultValue?
  let constraints ← many constraint?
  return {
    offset := offset
    parameter := {
      style := style
      typeConstraint := typeConstraint
      variableName := name
      required := required
      defaultValue := defaultValue
      constraints := constraints } }

/-- The parameter that begins here, if one does. -/
def read? : Reading (Option Declaration) := do
  let first ← Lexer.peek 0
  let typeConstraint ← typeConstraint?
  let style ← style
  if typeConstraint.isSome || style.isNamed then
    let declaration ← readRest first.offset typeConstraint style
    return some declaration
  else if ← sees .variableName then
    let declaration ← readRest first.offset typeConstraint style
    return some declaration
  else return none

end Declaration

namespace Parameter

/-- Reads a single parameter, which must be there. -/
def read : Reading Parameter := do
  match ← Declaration.read? with
  | some declaration => return declaration.parameter
  | none => Reading.fail .parameter

/-- The parameter at a cursor, and the text behind it. -/
def parse (cursor : Cursor) : Except Failure (Parameter × Text) := read.parse cursor

end Parameter

end MethodSignature
