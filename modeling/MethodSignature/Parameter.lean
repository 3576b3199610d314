/-
# MethodSignature.Parameter -- one parameter of a method

A parameter is passed by position or by name.  A named parameter may carry a label
of its own; without one, callers use the name of the variable less its sigil
(`Parameter.callLabel?`).  Types, defaults and constraints are kept as written.

`Parameter.render` writes a parameter in canonical form: single blanks, and a mark
only where a parameter departs from its style, `?` for an optional positional one
and `!` for a required named one.
-/
import MethodSignature.Text

namespace MethodSignature

set_option autoImplicit false

namespace Parameter

/-- How callers pass a parameter. -/
inductive Style
  | positional
  | named (label : Option Text)
  deriving DecidableEq, Repr

namespace Style

def isNamed : Style → Bool
  | .positional => false
  | .named _ => true

def label? : Style → Option Text
  | .positional => none
  | .named label => label

/-- Whether a parameter without a mark is required. -/
def required (style : Style) : Bool := !style.isNamed

end Style

end Parameter

/-- A parameter.  The variable carries its sigil; constraints are `where` blocks
with their braces, in the order written. -/
structure Parameter where
  style : Parameter.Style
  typeConstraint : Option Text
  variableName : Text
  required : Bool
  defaultValue : Option Text
  constraints : List Text
  deriving DecidableEq, Repr

namespace Parameter

def isNamed (parameter : Parameter) : Bool := parameter.style.isNamed

def isPositional (parameter : Parameter) : Bool := !parameter.isNamed

/-- The keyword callers use; a positional parameter has none. -/
def callLabel? (parameter : Parameter) : Option Text :=
  match parameter.style with
  | .positional => none
  | .named (some label) => some label
  | .named none => some parameter.variableName.tail

/-! ## Canonical form -/

/-- A type and a blank; an absent or empty type is not written. -/
def renderType : Option Text → Text
  | none | some [] => []
  | some constraint => constraint ++ [' ']

def renderVariable (parameter : Parameter) : Text :=
  match parameter.style with
  | .positional => parameter.variableName
  | .named none => ':' :: parameter.variableName
  | .named (some label) => ':' :: label ++ '(' :: parameter.variableName ++ [')']

def renderMark (parameter : Parameter) : Text :=
  if parameter.required = parameter.style.required then []
  else if parameter.required then ['!']
  else ['?']

def renderDefault : Option Text → Text
  | none => []
  | some value => [' ', '=', ' '] ++ value

def renderConstraint (block : Text) : Text := [' ', 'w', 'h', 'e', 'r', 'e', ' '] ++ block

def render (parameter : Parameter) : Text :=
  renderType parameter.typeConstraint ++ parameter.renderVariable ++ parameter.renderMark
    ++ renderDefault parameter.defaultValue ++ parameter.constraints.flatMap renderConstraint

end Parameter

end MethodSignature
