/-
# MethodSignature.Datum -- plain data

Signatures are exchanged as plain data: null, truth values, numbers, texts, arrays
and objects.  A number is an integer, or a decimal `mantissa * 10 ^ exponent` where it
is written with a point or an exponent.
-/
import MethodSignature.Text

namespace MethodSignature

set_option autoImplicit false

inductive Datum
  | null
  | bool (value : Bool)
  | integer (value : Int)
  | decimal (mantissa exponent : Int)
  | string (text : Text)
  | array (items : List Datum)
  | object (fields : List (String × Datum))
  deriving Repr, Inhabited

namespace Datum

def ofOption {α : Type} (encode : α → Datum) : Option α → Datum
  | none => .null
  | some value => encode value

/-- The word for a kind of data that is not text. -/
def typeName : Datum → String
  | .null => "NoneType"
  | .bool _ => "bool"
  | .integer _ => "int"
  | .decimal _ _ => "float"
  | .string _ => "str"
  | .array _ => "list"
  | .object _ => "dict"

end Datum

end MethodSignature
