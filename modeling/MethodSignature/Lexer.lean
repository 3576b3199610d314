/-
# MethodSignature.Lexer -- tokens on demand

A lexer is a cursor and the tokens already read ahead of it, in order.  Looking
ahead reads as many tokens as it needs and keeps them; taking a token hands out the
first.  The text not yet handed out is the texts of the waiting tokens and the rest
of the cursor (`Lexer.remaining`).

Text that is not made of tokens is scanned at the cursor itself (`Lexer.raw`), which
is possible only while no token waits: a waiting token has already taken the text.
-/
import MethodSignature.Token

namespace MethodSignature

set_option autoImplicit false

structure Lexer where
  pending : List Token
  cursor : Cursor
  deriving DecidableEq, Repr

/-- A result of `α`, or a failure, with the lexer where either leaves it. -/
abbrev Reading (α : Type) := EStateM Failure Lexer α

namespace Lexer

variable {α : Type}

def ofCursor (cursor : Cursor) : Lexer := ⟨[], cursor⟩

/-- All text not yet handed out. -/
def remaining (lexer : Lexer) : Text := lexer.pending.flatMap Token.written ++ lexer.cursor.rest

/-- Reads one token at the cursor and lets it wait behind the others. -/
def buffer : Reading Token := fun lexer =>
  let start := lexer.cursor.offset
  let outcome := Token.scan lexer.cursor.rest
  let cursor := lexer.cursor.advance outcome.taken outcome.rest
  match outcome.result with
  | .ok (kind, literal) =>
      let token := ⟨kind, literal, outcome.taken, start⟩
      .ok token ⟨lexer.pending ++ [token], cursor⟩
  | .error fault => .error (.fault (fault.shift start)) { lexer with cursor := cursor }

/-- Reads one token and up to `more` behind it, none past the end of the input,
and answers with the last. -/
def pull : Nat → Reading Token
  | 0 => buffer
  | more + 1 => do
      let token ← buffer
      if token.kind = .endOfInput then return token else pull more

/-- The token `ahead` places behind the current one.  The end of the input stands
at all places beyond it. -/
def peek (ahead : Nat) : Reading Token := do
  let lexer ← get
  match lexer.pending[ahead]? with
  | some token => return token
  | none =>
      match lexer.pending.getLast? with
      | none => pull ahead
      | some last =>
          if last.kind = .endOfInput then return last
          else pull (ahead - lexer.pending.length)

/-- Hands out the current token.  The end of the input cannot be taken. -/
def take : Reading Token := do
  let token ← peek 0
  if token.kind = .endOfInput then throw (.fault ⟨token.offset, .inputExhausted⟩)
  else
    modify fun lexer => { lexer with pending := lexer.pending.tail }
    return token

/-- Acts on the cursor itself, while no token waits. -/
def raw (action : Cursor.Action α) : Reading α := fun lexer =>
  if lexer.pending.isEmpty then
    match action lexer.cursor with
    | .ok value cursor => .ok value { lexer with cursor := cursor }
    | .error failure cursor => .error failure { lexer with cursor := cursor }
  else .error (.buffered lexer.pending.length) lexer

/-- All tokens up to the end of the input, at most `fuel` of them. -/
def tokensFrom : Nat → Reading (List Token)
  | 0 => return []
  | fuel + 1 => do
      let token ← peek 0
      if token.kind = .endOfInput then return [token]
      else
        let _ ← take
        let tokens ← tokensFrom fuel
        return token :: tokens

/-- The tokens of a whole text, the end of the input last. -/
def tokenize (source : Text) : Except Failure (List Token) :=
  match tokensFrom (source.length + 1) (ofCursor (.start source)) with
  | .ok tokens _ => .ok tokens
  | .error failure _ => .error failure

end Lexer

end MethodSignature
