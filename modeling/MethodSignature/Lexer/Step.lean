/-
# MethodSignature.Lexer.Step -- everything one can do with a lexer

A step looks at a token, takes the current one, asks for the remaining text, or does
a step at the cursor itself.
-/
import MethodSignature.Cursor.Step
import MethodSignature.Lexer

namespace MethodSignature.Lexer

set_option autoImplicit false

inductive Step
  | token (ahead : Nat)
  | take
  | remaining
  | raw (step : Cursor.Step)
  deriving DecidableEq, Repr

inductive Answer
  | token (token : Token)
  | plain (answer : Cursor.Answer)
  deriving DecidableEq, Repr

def Step.perform : Step → Reading Answer
  | .token ahead => .token <$> Lexer.peek ahead
  | .take => .token <$> Lexer.take
  | .remaining => fun lexer => .ok (.plain (.text lexer.remaining)) lexer
  | .raw step => .plain <$> Lexer.raw step.perform

/-- The answer of every step, each with the lexer after it. -/
def run (lexer : Lexer) (steps : List Step) : List (Except Failure Answer × Lexer) :=
  transcript (steps.map Step.perform) lexer

end MethodSignature.Lexer
