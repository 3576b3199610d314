/-
# MethodSignature.Signature.Reading -- reading a signature

    signature : '(' [ parameter ':' ] [ parameter ( separator parameter )* ] ')'
    separator : ',' | line ends

Line ends may surround a comma, follow the opening parenthesis and the invocant's
colon, and precede the closing parenthesis.  Whether the first parameter is the
invocant shows only behind it, by its colon.  Two rules go beyond the grammar: the
invocant is positional, required and without a default, and no required positional
parameter follows an optional one.  Each parameter is checked before the text behind
it is read.
-/
import MethodSignature.Declaration
import MethodSignature.Signature

namespace MethodSignature.Signature

set_option autoImplicit false

open MethodSignature.Reading

/-- What keeps a parameter from being the invocant. -/
def invocantCause? (parameter : Parameter) : Option Cause :=
  if parameter.isNamed then some (.namedInvocant parameter.variableName)
  else if !parameter.required || parameter.defaultValue.isSome then
    some (.optionalInvocant parameter.variableName)
  else none

/-- What keeps a parameter from following one that is optional and positional. -/
def orderCause? (optionalSeen : Bool) (parameter : Parameter) : Option Cause :=
  if parameter.isPositional && parameter.required && optionalSeen then
    some (.requiredAfterOptional parameter.variableName)
  else none

/-- Refuses a declaration there is a cause against. -/
def require (declaration : Declaration) : Option Cause → Reading Unit
  | none => return ()
  | some cause => throw (.fault ⟨declaration.offset, cause⟩)

/-- A separator, if there is one, and whether it holds a comma. -/
def separator? : Reading (Option Bool) := do
  let newline ← accept .newline
  match ← accept .comma with
  | some _ =>
      skipNewline
      return some true
  | none => return if newline.isSome then some false else none

/-- A declaration and all that follow it, at most `fuel` of them. -/
def readParams : Nat → Bool → Declaration → Reading (List Parameter)
  | 0, _, _ => return []
  | fuel + 1, optionalSeen, declaration => do
      let parameter := declaration.parameter
      require declaration (orderCause? optionalSeen parameter)
      match ← separator? with
      | none => return [parameter]
      | some comma =>
          match ← Declaration.read? with
          | some next =>
              let optional := parameter.isPositional && !parameter.required
              let rest ← readParams fuel (optionalSeen || optional) next
              return parameter :: rest
          | none =>
              if comma then fail .parameterAfterSeparator
              else if ← sees .closeParen then return [parameter]
              else fail .parameterAfterSeparator

/-- The parameters that begin with `first`. -/
def readFrom (first : Option Declaration) : Reading (List Parameter) := do
  match first with
  | none => return []
  | some declaration =>
      let lexer ← get
      readParams (lexer.remaining.length + 1) false declaration

/-- Whether the declaration just read is the invocant, whose colon is then taken. -/
def endsInvocant (declaration : Declaration) : Reading Bool := do
  if ← sees .colon then
    require declaration (invocantCause? declaration.parameter)
    let _ ← Lexer.take
    skipNewline
    return true
  else return false

/-- The closing parenthesis, and the signature it completes. -/
def finish (invocant : Option Parameter) (params : List Parameter) : Reading Signature := do
  let _ ← expect .closeParen
  return assemble invocant params

def read : Reading Signature := do
  let _ ← expect .openParen
  skipNewline
  match ← Declaration.read? with
  | none => finish none []
  | some first =>
      if ← endsInvocant first then
        let next ← Declaration.read?
        let params ← readFrom next
        finish (some first.parameter) params
      else
        let params ← readFrom (some first)
        finish none params

/-- The signature at a cursor, and the text behind it. -/
def parse (cursor : Cursor) : Except Failure (Signature × Text) := read.parse cursor

end MethodSignature.Signature
