/-
# MethodSignature.Failure -- how reading can fail

Most failures are faults of the text.  The others are misuses of the reading
position: a position outside the input, taking more than is left, or scanning raw
text while tokens read ahead of it are waiting.
-/
import MethodSignature.Report

namespace MethodSignature

set_option autoImplicit false

inductive Failure
  | fault (fault : Fault)
  /-- A position outside an input of `length` characters. -/
  | outside (offset : Int) (length : Nat)
  /-- Taking `length` characters where `left` remain. -/
  | overrun (length : Int) (offset left : Nat)
  /-- A raw scan while `count` tokens wait. -/
  | buffered (count : Nat)
  deriving DecidableEq, Repr

def Failure.message : Failure → String
  | .fault found => (Report.ofFault found).message
  | .outside offset length => s!"Offset {offset} is outside the input (length {length})"
  | .overrun length offset left =>
      s!"Cannot consume {length} characters at offset {offset} (only {left} remain)"
  | .buffered count => s!"Raw scan requested with {count} token(s) buffered"

end MethodSignature
