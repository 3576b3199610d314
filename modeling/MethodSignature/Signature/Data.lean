/-
# MethodSignature.Signature.Data -- signatures as models

The model of signatures has four fields, all of them with a default.  What the last two state is
not compared with the parameters.
-/
import MethodSignature.Parameter.Data
import MethodSignature.Signature

namespace MethodSignature.Signature

set_option autoImplicit false

def model : Shape :=
  .model "Signature"
    [⟨"invocant", .optional Parameter.shape, some .none⟩,
     ⟨"params", .tuple Parameter.shape, some (.tuple [])⟩,
     ⟨"required_positional_count", .integer, some (.integer 0)⟩,
     ⟨"required_named_labels", .tuple .text, some (.tuple [])⟩]

/-- The signature as an instance of the model. -/
def toValue (signature : Signature) : Value :=
  .model "Signature"
    [("invocant", .ofOption Parameter.toValue signature.invocant),
     ("params", .tuple (signature.params.map Parameter.toValue)),
     ("required_positional_count", .integer signature.requiredPositionalCount),
     ("required_named_labels", .tuple (signature.requiredNamedLabels.map .text))]

/-- The signature that an instance stands for. -/
def ofValue? : Value → Option Signature
  | .model _ fields => do
      let invocant ← (← fields.lookup "invocant").asOptional? Parameter.ofValue?
      let params ← (← fields.lookup "params").asTuple? Parameter.ofValue?
      let count ← (← fields.lookup "required_positional_count").asInteger?
      let labels ← (← fields.lookup "required_named_labels").asTuple? Value.asText?
      return ⟨invocant, params, count, labels⟩
  | _ => none

/-! ## By a library -/

def ofDatum (datum : Datum) (library : Library := .lax) : Checked Signature :=
  (library.validate model datum).filterMap ofValue?

def toJson (signature : Signature) (library : Library := .lax) : Text :=
  library.dumpJson signature.toValue

/-- The signature a JSON text stands for; none where it is no JSON. -/
def ofJson? (text : Text) (library : Library := .lax) : Option (Checked Signature) :=
  (library.validateJson model text).map (·.filterMap ofValue?)

end MethodSignature.Signature
