/-
# MethodSignature.Reading -- steps of reading by grammar

Reading by grammar looks at one token at a time.  `expect` and `accept` take a token
of a given kind or leave the current one alone; `fail` says what the current token
should have been.  `many` repeats a step until it answers nothing; as each step that
answers takes some text, the text left bounds the number of steps.
-/
import MethodSignature.Lexer

namespace MethodSignature.Reading

set_option autoImplicit false

open Text

variable {α : Type}

/-- Whether the current token is of a kind. -/
def sees (kind : Token.Kind) : Reading Bool := do
  let token ← Lexer.peek 0
  return token.kind = kind

/-- Refuses the current token, which is not what is expected. -/
def fail (expected : Expectation) : Reading α := do
  let token ← Lexer.peek 0
  if token.kind = .endOfInput then throw (.fault ⟨token.offset, .inputEnded expected⟩)
  else throw (.fault ⟨token.offset, .unexpected expected token.literal⟩)

/-- Takes a token of a kind and refuses any other. -/
def expect (kind : Token.Kind) : Reading Token := do
  if ← sees kind then Lexer.take else fail (.token kind)

/-- Takes a token of a kind, if it is the current one. -/
def accept (kind : Token.Kind) : Reading (Option Token) := do
  if ← sees kind then
    let token ← Lexer.take
    return some token
  else return none

/-- Takes a run of line ends, if there is one. -/
def skipNewline : Reading Unit := do
  let _ ← accept .newline
  return ()

/-- Blanks, line breaks among them. -/
def blanks (text : Text) : Scan Unit :=
  let (taken, rest) := cut isBlank text
  ⟨taken, rest, .ok ()⟩

/-- Runs a scanner on the text at the cursor. -/
def scan (scanner : Text → Scan α) : Reading α := Lexer.raw (Cursor.scan scanner)

/-- The answers of a step, until it gives none or has run `fuel` times. -/
def manyFrom (step : Reading (Option α)) : Nat → Reading (List α)
  | 0 => return []
  | fuel + 1 => do
      match ← step with
      | none => return []
      | some value =>
          let more ← manyFrom step fuel
          return value :: more

def many (step : Reading (Option α)) : Reading (List α) := do
  let lexer ← get
  manyFrom step (lexer.remaining.length + 1)

/-- What a reading makes of the text at a cursor, and the text it leaves. -/
def parse (reading : Reading α) (cursor : Cursor) : Except Failure (α × Text) :=
  match reading (.ofCursor cursor) with
  | .ok value lexer => .ok (value, lexer.remaining)
  | .error failure _ => .error failure

end MethodSignature.Reading
