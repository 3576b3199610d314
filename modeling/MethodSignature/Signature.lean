/-
# MethodSignature.Signature -- the parameters of a method

A signature has an optional invocant and parameters in the order written.  It also
states how many positional parameters are required and which labels are.
`Signature.assemble` computes both; a signature built in another way may state
anything.

`Signature.render` writes the canonical form: parameters separated by a comma and a
blank, the invocant followed by a colon.
-/
import MethodSignature.Parameter

namespace MethodSignature

set_option autoImplicit false

structure Signature where
  invocant : Option Parameter
  params : List Parameter
  requiredPositionalCount : Int
  requiredNamedLabels : List Text
  deriving DecidableEq, Repr

namespace Signature

/-- The signature of these parameters, with its requirements counted. -/
def assemble (invocant : Option Parameter) (params : List Parameter) : Signature where
  invocant := invocant
  params := params
  requiredPositionalCount := params.countP fun p => p.required && p.isPositional
  requiredNamedLabels := (params.filter Parameter.required).filterMap Parameter.callLabel?

def positionalParams (signature : Signature) : List Parameter :=
  signature.params.filter Parameter.isPositional

def namedParams (signature : Signature) : List Parameter :=
  signature.params.filter Parameter.isNamed

/-- The first named parameter that callers give by `label`. -/
def namedParam? (signature : Signature) (label : Text) : Option Parameter :=
  signature.namedParams.find? fun p => p.callLabel? = some label

/-- Parameters separated by a comma and a blank. -/
def renderParams : List Parameter → Text
  | [] => []
  | [p] => p.render
  | p :: rest => p.render ++ [',', ' '] ++ renderParams rest

def renderInvocant (signature : Signature) : Text :=
  match signature.invocant with
  | none => []
  | some invocant =>
      invocant.render ++ [':'] ++ if signature.params.isEmpty then [] else [' ']

def render (signature : Signature) : Text :=
  ['('] ++ signature.renderInvocant ++ renderParams signature.params ++ [')']

end Signature

end MethodSignature
