/-
# MethodSignature.Builder -- what is built from a parsed signature

Callers choose what parameters and signatures are built as: plain records, the
models of this library, or models derived from them.  A record holds exactly what it
was given, so a record of a parameter has a label only if the parameter is named.
A model of one style makes a parameter of that style of whatever it is given: the
positional one drops a label, the named one has none to take from a positional
parameter.

What a signature model says of the parameters it is given is for the library of models to say.
-/
import MethodSignature.Parameter.Data
import MethodSignature.Signature

namespace MethodSignature

set_option autoImplicit false

/-- What a built value is. -/
inductive Form
  | record
  | model
  | derived
  deriving DecidableEq, Repr

namespace Form

def isModel : Form → Bool
  | .record => false
  | .model | .derived => true

end Form

inductive ParameterBuilder
  | record
  | positional (derived : Bool)
  | named (derived : Bool)
  /-- Something that builds nothing. -/
  | unusable
  deriving DecidableEq, Repr

inductive SignatureBuilder
  | record
  | model (derived : Bool)
  /-- Something that builds nothing. -/
  | unusable
  deriving DecidableEq, Repr

structure BuiltParameter where
  form : Form
  parameter : Parameter
  deriving DecidableEq, Repr

/-- The parameter as an argument of a model. -/
def BuiltParameter.argument (built : BuiltParameter) : Argument :=
  if built.form.isModel then .instance built.parameter.style.modelName else .record

structure BuiltSignature where
  form : Form
  invocant : Option BuiltParameter
  params : List BuiltParameter
  requiredPositionalCount : Int
  requiredNamedLabels : List Text
  deriving DecidableEq, Repr

namespace ParameterBuilder

def modelForm (derived : Bool) : Form := if derived then .derived else .model

def build (builder : ParameterBuilder) (parameter : Parameter) : BuiltParameter :=
  match builder with
  | .positional derived => ⟨modelForm derived, { parameter with style := .positional }⟩
  | .named derived =>
      ⟨modelForm derived, { parameter with style := .named parameter.style.label? }⟩
  | .record | .unusable => ⟨.record, parameter⟩

end ParameterBuilder

namespace BuiltSignature

/-- The signature model a built value is, if it is one. -/
def toSignature? (built : BuiltSignature) : Option Signature :=
  if built.form.isModel then
    some {
      invocant := built.invocant.map BuiltParameter.parameter
      params := built.params.map BuiltParameter.parameter
      requiredPositionalCount := built.requiredPositionalCount
      requiredNamedLabels := built.requiredNamedLabels }
  else none

end BuiltSignature

/-- The builders for a signature and its two kinds of parameter. -/
structure Builders where
  signature : SignatureBuilder
  positional : ParameterBuilder
  named : ParameterBuilder
  deriving DecidableEq, Repr

namespace Builders

/-- The models of this library throughout. -/
def models : Builders := ⟨.model false, .positional false, .named false⟩

/-- Records throughout. -/
def records : Builders := ⟨.record, .record, .record⟩

def buildParameter (builders : Builders) (parameter : Parameter) : BuiltParameter :=
  (if parameter.isNamed then builders.named else builders.positional).build parameter

section Library

variable (library : Library)

/-- The issues of parameters numbered from `index`. -/
def checkParams : Nat → List BuiltParameter → List Issue
  | _, [] => []
  | index, parameter :: rest =>
      ((library.accept Parameter.shape parameter.argument).under (.index index)).issues
        ++ checkParams (index + 1) rest

/-- All that keeps a signature model from taking these parameters. -/
def issues (invocant : Option BuiltParameter) (params : List BuiltParameter) : List Issue :=
  let ofInvocant : Checked Unit :=
    match invocant with
    | none => .valid ()
    | some parameter => library.accept Parameter.shape parameter.argument
  (ofInvocant.under (.name "invocant")).issues
    ++ ((Checked.invalid (checkParams library 0 params) : Checked Unit).under
      (.name "params")).issues

end Library

def form : SignatureBuilder → Form
  | .model derived => ParameterBuilder.modelForm derived
  | .record | .unusable => .record

def buildSignature (builders : Builders) (library : Library) (signature : Signature) :
    Checked BuiltSignature :=
  let form := form builders.signature
  let invocant := signature.invocant.map builders.buildParameter
  let params := signature.params.map builders.buildParameter
  match form.isModel, issues library invocant params with
  | true, issue :: rest => .invalid (issue :: rest)
  | _, _ =>
      .valid {
        form := form
        invocant := invocant
        params := params
        requiredPositionalCount := signature.requiredPositionalCount
        requiredNamedLabels := signature.requiredNamedLabels }

end Builders

end MethodSignature
