/-
# MethodSignature.Report -- how a fault is worded and classed

A report is what a caller sees of a fault: its category, its offset, the reason in
words, the depth of what was left open, and the operator that was rejected.
Categories form a tree with `signature` at the root; `Category.lineage` lists a
category and those above it.
-/
import MethodSignature.Fault
import MethodSignature.Text.Quoted

namespace MethodSignature

set_option autoImplicit false

inductive Category
  | signature
  | lexical
  | unsupported
  | inputEnd
  | unbalanced
  | rejectedOperator
  | grammar
  | semantic
  deriving DecidableEq, Repr

namespace Category

/-- The categories above this one, the nearest first. -/
def above : Category → List Category
  | .signature => []
  | .unsupported => [.lexical, .signature]
  | .semantic => [.grammar, .signature]
  | _ => [.signature]

def lineage (category : Category) : List Category := category :: category.above

end Category

def Expectation.description : Expectation → String
  | .token kind => kind.description
  | .parameter => "parameter"
  | .parameterAfterSeparator => "parameter after separator"
  | .defaultValue => "default value after '='"
  | .whereBlock => "code block after 'where'"

namespace Cause

open Text

def category : Cause → Category
  | .unrecognized _ => .lexical
  | .destructuring _ | .bareBlock _ => .unsupported
  | .inputExhausted | .inputEnded _ => .inputEnd
  | .openTypeBrackets _ _ | .openQuote _ _ _ | .openBlock _ _ => .unbalanced
  | .rejectedOperator _ => .rejectedOperator
  | .unexpected _ _ | .strayInType _ _ | .typeNameMissing _ _ | .whereBlockMissing _
  | .labelMissing _ => .grammar
  | .namedInvocant _ | .optionalInvocant _ | .requiredAfterOptional _ => .semantic

def depth? : Cause → Option Nat
  | .openTypeBrackets _ depth | .openQuote _ _ depth | .openBlock _ depth => some depth
  | _ => none

def operator? : Cause → Option Text
  | .rejectedOperator operator => some operator
  | _ => none

/-- The reason given for rejecting an operator. -/
def rejection (operator : Text) : String := s!"Rejected quote-like operator: {quoted operator}"

def reason : Cause → String
  | .unrecognized preview => s!"Error parsing signature at {quoted preview}"
  | .destructuring preview =>
      s!"Destructuring patterns are not supported: {quoted preview}"
  | .bareBlock preview =>
      s!"Hash destructuring and bare code blocks are not supported: {quoted preview}"
  | .inputExhausted => "Unexpected end of input"
  | .inputEnded expected => s!"Unexpected end of input, expected {expected.description}"
  | .unexpected expected found => s!"Expected {expected.description}, found {quoted found}"
  | .strayInType symbol constraint =>
      s!"Unexpected {quoted [symbol]} in type constraint after {quoted constraint}"
  | .typeNameMissing constraint found =>
      s!"Type name expected after {quoted constraint} in type constraint, found {quoted found}"
  | .openTypeBrackets constraint _ =>
      s!"Unbalanced brackets in type constraint {quoted constraint}"
  | .openQuote preview closer _ =>
      s!"Unbalanced quoting in {quoted preview}: missing closing {quoted [closer]}"
  | .openBlock preview depth => s!"Unbalanced code block {quoted preview} ({depth} unclosed)"
  | .rejectedOperator operator => rejection operator
  | .whereBlockMissing found => s!"Code block expected after 'where', found {quoted found}"
  | .labelMissing found => s!"Label required, type constraint found: {quoted found}"
  | .namedInvocant name => s!"Invocant {quoted name} cannot be named"
  | .optionalInvocant name => s!"Invocant {quoted name} cannot be optional"
  | .requiredAfterOptional name =>
      s!"Invalid: Required positional param {quoted name} found after optional one"

end Cause

/-- A fault as its reader sees it.  Reports of one's own making may lie at any
offset. -/
structure Report where
  category : Category
  offset : Int
  reason : String
  depth? : Option Int
  operator? : Option Text
  deriving DecidableEq, Repr

namespace Report

def ofFault (fault : Fault) : Report where
  category := fault.cause.category
  offset := fault.offset
  reason := fault.cause.reason
  depth? := fault.cause.depth?.map Int.ofNat
  operator? := fault.cause.operator?

/-- A report of a category.  For a rejected operator `text` is the operator, for
any other category the reason; the depth counts where something is left open. -/
def make (category : Category) (text : Text) (offset depth : Int) : Report where
  category := category
  offset := offset
  reason := if category = .rejectedOperator then Cause.rejection text else String.ofList text
  depth? := if category = .unbalanced then some depth else none
  operator? := if category = .rejectedOperator then some text else none

def message (report : Report) : String := s!"Offset {report.offset}: {report.reason}"

end Report

end MethodSignature
