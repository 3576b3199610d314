/-
# MethodSignature.Cursor.Step -- everything one can do at a cursor

A step looks ahead, takes a number of characters, or scans for a literal or the
rest of a type constraint.  It answers with a text, with a truth value, or with
nothing where a literal does not start.
-/
import MethodSignature.Literal.Block
import MethodSignature.Literal.Number
import MethodSignature.Literal.Quote
import MethodSignature.Transcript
import MethodSignature.TypeConstraint

namespace MethodSignature.Cursor

set_option autoImplicit false

inductive Step
  | peek (length : Int)
  | charAt (index : Int)
  | consume (length : Int)
  | preview (length : Int)
  | remaining
  | atEnd
  | source
  | number
  | quote
  | block
  | typeConstraint (leading : Text)
  deriving DecidableEq, Repr

inductive Answer
  | text (text : Text)
  | truth (value : Bool)
  | absent
  deriving DecidableEq, Repr

def Answer.ofOption : Option Text → Answer
  | some found => .text found
  | none => .absent

def Step.perform : Step → Action Answer
  | .peek length => fun cursor => .ok (.text (cursor.peek length)) cursor
  | .charAt index => fun cursor => .ok (.text (cursor.charAt? index).toList) cursor
  | .consume length => .text <$> Cursor.consume length
  | .preview length => fun cursor => .ok (.text (cursor.peek length)) cursor
  | .remaining => fun cursor => .ok (.text cursor.rest) cursor
  | .atEnd => fun cursor => .ok (.truth cursor.atEnd) cursor
  | .source => fun cursor => .ok (.text cursor.source) cursor
  | .number => .ofOption <$> Cursor.scan Number.scan
  | .quote => .ofOption <$> Cursor.scan Quote.scan
  | .block => .ofOption <$> Cursor.scan Block.scan
  | .typeConstraint leading => .text <$> Cursor.scan (TypeConstraint.extend leading)

/-- The answer of every step, each with the cursor after it. -/
def run (cursor : Cursor) (steps : List Step) : List (Except Failure Answer × Cursor) :=
  transcript (steps.map Step.perform) cursor

end MethodSignature.Cursor
