/-
# MethodSignature.Request -- parsing on request

A request names the text to parse, the offset to start at and the builders of the
result.  It is checked in this order before anything is read: the input is a text,
the offset lies in it, every builder builds something, and the signature model is
combined with parameter models of the proper styles.

A request leaves a trace: one line when parsing begins and one when it has ended
well.
-/
import MethodSignature.Builder
import MethodSignature.Signature.Reading

namespace MethodSignature

set_option autoImplicit false

structure Request where
  input : Datum
  offset : Int
  builders : Builders
  deriving Repr

namespace Request

/-- One of the three builders of a request. -/
inductive Role
  | signature
  | positional
  | named
  deriving DecidableEq, Repr

def Role.name : Role → String
  | .signature => "signature_factory"
  | .positional => "positional_factory"
  | .named => "named_factory"

/-- The model a builder of this role builds, as messages name it. -/
def Role.model : Role → String
  | .signature => "Signature"
  | .positional => "PositionalParameter"
  | .named => "NamedParameter"

/-- What is wrong with a request itself. -/
inductive Error
  | inputNotText (typeName : String)
  | offsetOutside (offset : Int) (length : Nat)
  | unusable (role : Role)
  /-- A parameter builder that the signature model cannot be combined with. -/
  | mismatched (role : Role)
  deriving DecidableEq, Repr

def Error.message : Error → String
  | .inputNotText typeName => s!"'input' must be a string, got {typeName}"
  | .offsetOutside offset length => s!"'offset' {offset} is outside the input (length {length})"
  | .unusable role => s!"'{role.name}' must be callable"
  | .mismatched role =>
      s!"'{role.name}' must be a {role.model} subclass unless 'signature_factory' is replaced too"

end Request

/-- Why a request has no result. -/
inductive Refusal
  | request (error : Request.Error)
  | reading (failure : Failure)
  | invalid (issues : List Issue)
  deriving DecidableEq, Repr

namespace Request

variable {α β : Type}

/-- A request for the models of this library, from the beginning of a text. -/
def ofText (input : Text) : Request := ⟨.string input, 0, .models⟩

def isPositional : ParameterBuilder → Bool
  | .positional _ => true
  | _ => false

def isNamed : ParameterBuilder → Bool
  | .named _ => true
  | _ => false

def checkBuilders (builders : Builders) : Except Error Unit :=
  if builders.signature = .unusable then .error (.unusable .signature)
  else if builders.positional = .unusable then .error (.unusable .positional)
  else if builders.named = .unusable then .error (.unusable .named)
  else if builders.signature ≠ .model false then .ok ()
  else if !isPositional builders.positional then .error (.mismatched .positional)
  else if !isNamed builders.named then .error (.mismatched .named)
  else .ok ()

/-- The cursor a request starts at. -/
def check (request : Request) : Except Error Cursor :=
  match request.input with
  | .string input =>
      match Cursor.place input request.offset with
      | .error _ => .error (.offsetOutside request.offset input.length)
      | .ok cursor => (checkBuilders request.builders).map fun _ => cursor
  | datum => .error (.inputNotText datum.typeName)

/-- The result of a request, with the text left over, and its trace. -/
structure Outcome (α : Type) where
  result : Except Refusal (α × Text)
  trace : List String

/-- What is built of a value that has been read. -/
def built (build : α → Checked β) : Except Failure (α × Text) → Except Refusal (β × Text)
  | .error failure => .error (.reading failure)
  | .ok (value, rest) =>
      match build value with
      | .valid value => .ok (value, rest)
      | .invalid issues => .error (.invalid issues)

/-- Parses with `parse` and builds with `build` what it gives, a `noun` in the
trace. -/
def run (noun : String) (parse : Cursor → Except Failure (α × Text)) (build : α → Checked β)
    (request : Request) : Outcome β :=
  match request.check with
  | .error error => ⟨.error (.request error), []⟩
  | .ok cursor =>
      let begun := s!"Parsing {noun} at offset {cursor.offset}: {Text.quoted cursor.rest}"
      match built build (parse cursor) with
      | .error refusal => ⟨.error refusal, [begun]⟩
      | .ok (value, rest) =>
          ⟨.ok (value, rest), [begun, s!"Parsed {noun}, {rest.length} character(s) remaining"]⟩

def parseSignature (request : Request) (library : Library := .lax) : Outcome BuiltSignature :=
  request.run "signature" Signature.parse (request.builders.buildSignature library)

def parseParameter (request : Request) : Outcome BuiltParameter :=
  request.run "parameter" Parameter.parse fun p => .valid (request.builders.buildParameter p)

end Request

/-- The parameter at an offset of a text, and the text behind it. -/
def Parameter.parseAt (input : Text) (offset : Int) : Except Refusal (Parameter × Text) :=
  match (⟨.string input, offset, .models⟩ : Request).check with
  | .error error => .error (.request error)
  | .ok cursor => Request.built .valid (parse cursor)

namespace Signature

/-- The signature at an offset of a text, and the text behind it. -/
def parseAt (input : Text) (offset : Int) : Except Refusal (Signature × Text) :=
  match (⟨.string input, offset, .models⟩ : Request).check with
  | .error error => .error (.request error)
  | .ok cursor => Request.built .valid (parse cursor)

/-- Up to `limit` signatures one behind the other, each with the offset behind it.
The chain ends with the first refusal, which it includes, or with the text. -/
def chain : Nat → Text → Int → List (Except Refusal (Signature × Nat))
  | 0, _, _ => []
  | limit + 1, input, offset =>
      match parseAt input offset with
      | .error refusal => [.error refusal]
      | .ok (signature, rest) =>
          let next := input.length - rest.length
          .ok (signature, next) :: if rest.isEmpty then [] else chain limit input next

end Signature

end MethodSignature
