/-
# MethodSignature.Model.Lax -- a library of models

`Library.lax` checks data field by field (`Shape.check`).  Fields that a model does not have are
passed over.  Where one of several models is asked for, the tag alone says which, and the issues
stand below the tag.

Some kinds of data are taken for others: 0 and 1 and a few words for truth values,
truth values and written integers for integers.  A decimal stands for its nearest
binary64 number, and is taken for an integer where that number is one and lies
strictly between -2 ^ 63 and 2 ^ 63.  Integers of more than 64 bits are never taken
for truth values, and integers of any size for themselves.
-/
import MethodSignature.Binary64
import MethodSignature.Datum.Integer
import MethodSignature.Datum.Json
import MethodSignature.Model

namespace MethodSignature

set_option autoImplicit false

namespace Datum

variable {α : Type}

/-! ## Kinds of data -/

def asText : Datum → Checked Text
  | .string text => .valid text
  | _ => .issue .notText

/-- The items of an array, the first of them numbered `index`. -/
def asItems (check : Datum → Checked α) : Nat → List Datum → Checked (List α)
  | _, [] => .valid []
  | index, item :: items =>
      (((check item).under (.index index)).both (asItems check (index + 1) items)).map
        fun (first, rest) => first :: rest

def asList (check : Datum → Checked α) : Datum → Checked (List α)
  | .array items => asItems check 0 items
  | _ => .issue .notArray

/-- The words for yes, in lower case. -/
def yesWords : List Text :=
  [['1'], ['t'], ['y'], ['o', 'n'], ['y', 'e', 's'], ['t', 'r', 'u', 'e']]

/-- The words for no, in lower case. -/
def noWords : List Text :=
  [['0'], ['f'], ['n'], ['n', 'o'], ['o', 'f', 'f'], ['f', 'a', 'l', 's', 'e']]

/-- The truth value an integer stands for. -/
def truthOfInt? (n : Int) : Option Bool :=
  if n = 0 then some false else if n = 1 then some true else none

/-- The truth value a word stands for, in any case. -/
def truthOfText? (text : Text) : Option Bool :=
  let word := text.map Char.toLower
  if yesWords.contains word then some true
  else if noWords.contains word then some false
  else none

/-- One more than the greatest integer of 64 bits. -/
def wordBound : Int := Nat.pow 2 63

/-- The integer a decimal is taken for. -/
def integerOfDecimal (mantissa exponent : Int) : Checked Int :=
  match Binary64.ofDecimal? mantissa exponent with
  | none => .issue .notFinite
  | some number =>
      match number.toInt? with
      | none => .issue .fractionalInteger
      | some n => if -wordBound < n ∧ n < wordBound then .valid n else .issue .oversizedInteger

/-- A truth value that has been looked for in something that can stand for one. -/
def foundTruth : Option Bool → Checked Bool
  | some value => .valid value
  | none => .issue .unreadableTruth

def asTruth : Datum → Checked Bool
  | .bool value => .valid value
  | .integer n =>
      if -wordBound ≤ n ∧ n < wordBound then foundTruth (truthOfInt? n) else .issue .notTruth
  | .decimal mantissa exponent =>
      match integerOfDecimal mantissa exponent with
      | .valid n => foundTruth (truthOfInt? n)
      | .invalid _ => .issue .notTruth
  | .string text => foundTruth (truthOfText? text)
  | _ => .issue .notTruth

def asInteger : Datum → Checked Int
  | .integer n => .valid n
  | .bool value => .valid (if value then 1 else 0)
  | .decimal mantissa exponent => integerOfDecimal mantissa exponent
  | .string text =>
      match Integer.read text with
      | .value n => .valid n
      | .oversized => .issue .oversizedInteger
      | .unreadable => .issue .unreadableInteger
  | _ => .issue .notInteger

/-! ## Fields of an object -/

/-- The value of a field, or of its default when the field is absent. -/
def fieldOr (fields : List (String × Datum)) (name : String) (fallback : Checked α)
    (check : Datum → Checked α) : Checked α :=
  match fields.lookup name with
  | none => fallback.under (.name name)
  | some datum => (check datum).under (.name name)

end Datum

open Datum

/-! ## Values as data -/

mutual

/-- The data of a value: the fields of a model in their order, all of them. -/
def Value.toDatum : Value → Datum
  | .none => .null
  | .truth held => .bool held
  | .integer held => .integer held
  | .text held => .string held
  | .tuple items => .array (Value.toItems items)
  | .model _ fields => .object (Value.toFields fields)

def Value.toItems : List Value → List Datum
  | [] => []
  | item :: items => item.toDatum :: Value.toItems items

def Value.toFields : List (String × Value) → List (String × Datum)
  | [] => []
  | (name, value) :: fields => (name, value.toDatum) :: Value.toFields fields

end

/-! ## Data as values -/

/-- Text that must be a given word. -/
def checkWord (word : String) : Datum → Checked Value
  | .string text => if text = word.toList then .valid (.text text) else .issue .notTheLiteral
  | _ => .issue .notTheLiteral

mutual

/-- The value that data stands for where a shape is asked for. -/
def Shape.check : Shape → Datum → Checked Value
  | .text => fun datum => (asText datum).map .text
  | .truth => fun datum => (asTruth datum).map .truth
  | .integer => fun datum => (asInteger datum).map .integer
  | .word given => checkWord given
  | .optional shape => fun
    | .null => .valid .none
    | datum => shape.check datum
  | .tuple shape => fun datum => (asList shape.check datum).map .tuple
  | .model name fields => fun
    | .object entries => (Shape.checkFields fields entries).map (.model name)
    | _ => .issue .notModel
  | .union tag variants => fun
    | .object entries =>
        match entries.lookup tag with
        | none => .issue .tagMissing
        | some (.string found) => Shape.checkVariants variants tag found entries
        | some _ => .issue .tagInvalid
    | _ => .issue .notAttributes

/-- The fields of a model, in their order. -/
def Shape.checkFields :
    List (Field Shape) → List (String × Datum) → Checked (List (String × Value))
  | [] => fun _ => .valid []
  | ⟨name, shape, fallback⟩ :: fields => fun entries =>
      let absent : Checked Value :=
        match fallback with
        | some value => .valid value
        | none => .issue .missing
      ((fieldOr entries name absent shape.check).both (Shape.checkFields fields entries)).map
        fun (value, more) => (name, value) :: more

/-- The first model whose tag the text is. -/
def Shape.checkVariants :
    List Shape → String → Text → List (String × Datum) → Checked Value
  | [] => fun _ _ _ => .issue .tagInvalid
  | shape :: variants => fun tag found entries =>
      match shape.tagWord? tag with
      | some given =>
          if found = given.toList then (shape.check (.object entries)).under (.name given)
          else Shape.checkVariants variants tag found entries
      | none => Shape.checkVariants variants tag found entries

end

/-- Instances are taken as they are; a record does not say which model it is for. -/
def Argument.check : Argument → Checked Unit
  | .instance _ => .valid ()
  | .record => .issue .tagMissing

def Library.lax : Library where
  dump := Value.toDatum
  validate := Shape.check
  write := Datum.toJson
  read := Datum.ofJson?
  accept := fun _ argument => argument.check

end MethodSignature
