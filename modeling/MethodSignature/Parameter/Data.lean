/-
# MethodSignature.Parameter.Data -- parameters as models

There is one model for each of the two styles.  They have the same fields in the same order,
but that only a named parameter has a label, and a parameter for which nothing else is said is
required if it is positional and optional if it is named.  Only the variable has no default.
The field `kind` says which model it is: where one model is asked for it may be absent, and
where either will do it decides.
-/
import MethodSignature.Model.Lax
import MethodSignature.Parameter

namespace MethodSignature.Parameter

set_option autoImplicit false

/-! ## The models -/

/-- The fields of the model whose `kind` is the word. -/
def fieldsOf (word : String) (label : List (Field Shape)) (required : Bool) : List (Field Shape) :=
  [⟨"kind", .word word, some (.text word.toList)⟩,
   ⟨"type_constraint", .optional .text, some .none⟩,
   ⟨"variable_name", .text, none⟩]
  ++ label ++
  [⟨"required", .truth, some (.truth required)⟩,
   ⟨"default_value", .optional .text, some .none⟩,
   ⟨"constraints", .tuple .text, some (.tuple [])⟩]

def labelField : Field Shape := ⟨"label", .optional .text, some .none⟩

def positionalModel : Shape := .model "PositionalParameter" (fieldsOf "positional" [] true)

def namedModel : Shape := .model "NamedParameter" (fieldsOf "named" [labelField] false)

/-- A parameter of either style. -/
def shape : Shape := .union "kind" [positionalModel, namedModel]

namespace Style

/-- The word for a style. -/
def word : Style → String
  | .positional => "positional"
  | .named _ => "named"

def modelName : Style → String
  | .positional => "PositionalParameter"
  | .named _ => "NamedParameter"

/-- The model of the parameters of a style. -/
def model : Style → Shape
  | .positional => positionalModel
  | .named _ => namedModel

/-- The label as a field, which only a named parameter has. -/
def labelValue : Style → List (String × Value)
  | .positional => []
  | .named label => [("label", .ofOption .text label)]

end Style

/-! ## Instances -/

/-- The parameter as an instance of the model of its style. -/
def toValue (parameter : Parameter) : Value :=
  .model parameter.style.modelName <|
    [("kind", .text parameter.style.word.toList),
     ("type_constraint", .ofOption .text parameter.typeConstraint),
     ("variable_name", .text parameter.variableName)]
    ++ parameter.style.labelValue ++
    [("required", .truth parameter.required),
     ("default_value", .ofOption .text parameter.defaultValue),
     ("constraints", .tuple (parameter.constraints.map .text))]

/-- The style of an instance with these fields. -/
def styleOf? (model : String) (fields : List (String × Value)) : Option Style := do
  if model = "PositionalParameter" then return .positional
  else if model = "NamedParameter" then
    let label ← fields.lookup "label"
    return .named (← label.asOptional? Value.asText?)
  else none

/-- The parameter that an instance stands for. -/
def ofValue? : Value → Option Parameter
  | .model name fields => do
      let style ← styleOf? name fields
      let typeConstraint ← (← fields.lookup "type_constraint").asOptional? Value.asText?
      let variableName ← (← fields.lookup "variable_name").asText?
      let required ← (← fields.lookup "required").asTruth?
      let defaultValue ← (← fields.lookup "default_value").asOptional? Value.asText?
      let constraints ← (← fields.lookup "constraints").asTuple? Value.asText?
      return { style, typeConstraint, variableName, required, defaultValue, constraints }
  | _ => none

/-! ## By a library -/

/-- What data says of a parameter, where this model or union of models is asked for. -/
def ofShape (shape : Shape) (datum : Datum) (library : Library := .lax) : Checked Parameter :=
  (library.validate shape datum).filterMap ofValue?

def positionalOfDatum : Datum → Checked Parameter := ofShape positionalModel

def namedOfDatum : Datum → Checked Parameter := ofShape namedModel

def ofDatum : Datum → Checked Parameter := ofShape shape

def toJson (parameter : Parameter) (library : Library := .lax) : Text :=
  library.dumpJson parameter.toValue

end MethodSignature.Parameter
