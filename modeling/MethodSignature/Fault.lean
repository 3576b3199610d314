/-
# MethodSignature.Fault -- what is wrong with a text, and where

A scanner or the parser stops at the first fault.  A fault is a cause and the
offset it was found at.  Causes carry the pieces of text their wording needs, so
two faults are equal exactly when they are reported alike.

Scanners see only the text ahead of them and place a fault relative to its
beginning; `Fault.shift` moves it to its place in the whole input.
-/
import MethodSignature.Token.Kind

namespace MethodSignature

set_option autoImplicit false

/-- What the grammar asks for at some place. -/
inductive Expectation
  | token (kind : Token.Kind)
  | parameter
  | parameterAfterSeparator
  | defaultValue
  | whereBlock
  deriving DecidableEq, Repr

inductive Cause
  /-- No token begins with the text shown. -/
  | unrecognized (preview : Text)
  /-- The text shown begins an array destructuring. -/
  | destructuring (preview : Text)
  /-- The text shown begins a hash destructuring or a block that no `where` introduces. -/
  | bareBlock (preview : Text)
  /-- A token was taken where the input has none left. -/
  | inputExhausted
  /-- The input ends where the grammar asks for more. -/
  | inputEnded (expected : Expectation)
  /-- A token other than the expected one. -/
  | unexpected (expected : Expectation) (found : Text)
  /-- A comma or closing bracket of a type constraint outside its brackets. -/
  | strayInType (symbol : Char) (constraint : Text)
  /-- No type name where a type constraint has to go on with one. -/
  | typeNameMissing (constraint found : Text)
  /-- A type constraint ends inside `depth` brackets. -/
  | openTypeBrackets (constraint : Text) (depth : Nat)
  /-- A quote is never closed; `depth` is zero for delimiters that do not nest. -/
  | openQuote (preview : Text) (closer : Char) (depth : Nat)
  /-- A block is never closed. -/
  | openBlock (preview : Text) (depth : Nat)
  /-- A quote with an operator that default values may not use. -/
  | rejectedOperator (operator : Text)
  /-- No block behind `where`. -/
  | whereBlockMissing (found : Text)
  /-- A type constraint that is not a plain name stands where a label is due. -/
  | labelMissing (found : Text)
  | namedInvocant (name : Text)
  | optionalInvocant (name : Text)
  | requiredAfterOptional (name : Text)
  deriving DecidableEq, Repr

structure Fault where
  offset : Nat
  cause : Cause
  deriving DecidableEq, Repr

namespace Fault

/-- The same fault, seen from `distance` characters further back. -/
def shift (distance : Nat) (fault : Fault) : Fault :=
  { fault with offset := distance + fault.offset }

@[simp] theorem shift_offset (distance : Nat) (fault : Fault) :
    (fault.shift distance).offset = distance + fault.offset := rfl

@[simp] theorem shift_cause (distance : Nat) (fault : Fault) :
    (fault.shift distance).cause = fault.cause := rfl

theorem shift_shift (m n : Nat) (fault : Fault) :
    (fault.shift n).shift m = fault.shift (m + n) := by
  simp [shift, Nat.add_assoc]

end Fault

end MethodSignature
