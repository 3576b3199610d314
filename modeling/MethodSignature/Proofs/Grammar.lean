/-
# MethodSignature.Proofs.Grammar -- derivations of a signature

    signature : '(' NL? [ parameter ':' NL? ] [ parameter ( separator parameter )* NL? ] ')'
    separator : NL | NL? ',' NL?
    parameter : [ type ( '|' type )* ] subject [ '?' | '!' ] [ '=' value ] ( 'where' block )*
    subject   : variable | ':' variable | ':' label '(' variable ')'

A derivation is a tree of this grammar that keeps every character: each token with the
inline blanks around it, each value and block with the blanks before it, and `NL` as a
whole run of line ends.  Trees carry the proofs that their parts have the forms they
must have, so any tree is a derivation; `text` is what it derives and `value` what it
means.

A tree is made of pieces that follow one another (`pieces`).  Where a piece ends is for
the text behind it to say: `InContext` states that each piece is read as it stands.
-/
import MethodSignature.Literal.Block
import MethodSignature.Literal.Number
import MethodSignature.Literal.Quote
import MethodSignature.Proofs.Token
import MethodSignature.Signature

namespace MethodSignature.Grammar

set_option autoImplicit false

open Text

/-! ## Pieces -/

/-- A text of some form, with blanks around it. -/
structure Spaced (isLead : Text → Prop) (form : Text → Prop) where
  before : Text
  literal : Text
  behind : Text
  lead : isLead before
  inline : IsInline behind
  shape : form literal

def Spaced.text {isLead form : Text → Prop} (spaced : Spaced isLead form) : Text :=
  spaced.before ++ (spaced.literal ++ spaced.behind)

/-- A token with the inline blanks around it. -/
abbrev Lexeme (kind : Token.Kind) := Spaced IsInline (Token.Form kind)

/-- A number, a quote or a variable, taken whole. -/
def IsValue (text : Text) : Prop :=
  Number.scan text = .present text [] ∨ Quote.scan text = .present text [] ∨ Token.IsVariable text

/-- A block that is read whole from its own text. -/
def IsBlock (text : Text) : Prop := Block.scan text = .present text []

/-- A default value and the blanks behind the equals sign. -/
abbrev Value := Spaced IsBlanks IsValue

/-- A block and the blanks behind `where`. -/
abbrev CodeBlock := Spaced IsBlanks IsBlock

/-- A run of line ends. -/
abbrev LineEnds := { text : Text // Layout.IsLineEnds text }

inductive Piece
  | token (kind : Token.Kind) (lexeme : Lexeme kind)
  | lineEnds (run : LineEnds)
  | value (spaced : Value)
  | block (spaced : CodeBlock)

def Piece.text : Piece → Text
  | .token _ lexeme => lexeme.text
  | .lineEnds run => run.val
  | .value spaced => spaced.text
  | .block spaced => spaced.text

/-- A value is read before `following`, as the first of a number, a quote and a
variable that begins there. -/
def ValueFits (literal following : Text) : Prop :=
  let text := literal ++ following
  Number.scan text = .present literal following ∨
  (Number.scan text = .absent text ∧ Quote.scan text = .present literal following) ∨
  (Number.scan text = .absent text ∧ Quote.scan text = .absent text ∧
    Token.ReadsAs .variableName literal following)

/-- The piece is read as it stands before `following`. -/
def Piece.Fits : Piece → Text → Prop
  | .token kind lexeme, following =>
      Token.ReadsAs kind lexeme.literal (lexeme.behind ++ following)
  | .lineEnds run, following =>
      ∃ taken, Layout.lineEnds? (run.val ++ following) = some (taken, trim following)
  | .value spaced, following => ValueFits spaced.literal (spaced.behind ++ following)
  | .block spaced, following =>
      Block.scan (spaced.literal ++ (spaced.behind ++ following)) =
        .present spaced.literal (spaced.behind ++ following)

def textOf (pieces : List Piece) : Text := pieces.flatMap Piece.text

/-- Each piece is read as it stands before those that follow it and `rest`. -/
def InContext : List Piece → Text → Prop
  | [], _ => True
  | piece :: pieces, rest => piece.Fits (textOf pieces ++ rest) ∧ InContext pieces rest

@[simp] theorem textOf_nil : textOf [] = [] := rfl

@[simp] theorem textOf_cons (piece : Piece) (pieces : List Piece) :
    textOf (piece :: pieces) = piece.text ++ textOf pieces := by
  simp [textOf]

@[simp] theorem textOf_append (pieces more : List Piece) :
    textOf (pieces ++ more) = textOf pieces ++ textOf more := by
  simp [textOf]

theorem inContext_append {pieces more : List Piece} {rest : Text} :
    InContext (pieces ++ more) rest ↔
      InContext pieces (textOf more ++ rest) ∧ InContext more rest := by
  induction pieces with
  | nil => simp [InContext]
  | cons piece pieces ih =>
      rw [List.cons_append, InContext, InContext, ih, textOf_append, List.append_assoc, and_assoc]

/-! ## Trees -/

structure Alternative where
  pipe : Lexeme .pipe
  member : Lexeme .typeName

/-- One type constraint or more, with pipes between them. -/
structure Alternation where
  first : Lexeme .typeName
  more : List Alternative

/-- The variable, and how callers pass it.  A label is a plain name. -/
inductive Subject
  | positional (name : Lexeme .variableName)
  | named (colon : Lexeme .colon) (name : Lexeme .variableName)
  | labelled (colon : Lexeme .colon) (label : Lexeme .typeName)
      (plain : label.literal.all isNameChar = true) (opening : Lexeme .openParen)
      (name : Lexeme .variableName) (closing : Lexeme .closeParen)

inductive Mark
  | optional (sign : Lexeme .question)
  | required (sign : Lexeme .bang)

structure Default where
  equals : Lexeme .equals
  value : Value

structure Constraint where
  keyword : Lexeme .whereKeyword
  block : CodeBlock

structure Param where
  alternation : Option Alternation
  subject : Subject
  mark : Option Mark
  default : Option Default
  constraints : List Constraint

inductive Separator
  | lineEnds (run : LineEnds)
  | comma (before : Option LineEnds) (sign : Lexeme .comma) (behind : Option LineEnds)

structure Params where
  first : Param
  more : List (Separator × Param)
  trailing : Option LineEnds

structure Invocant where
  param : Param
  colon : Lexeme .colon
  layout : Option LineEnds

structure Tree where
  opening : Lexeme .openParen
  layout : Option LineEnds
  invocant : Option Invocant
  params : Option Params
  closing : Lexeme .closeParen

/-! ## What a tree derives -/

def Alternative.pieces (alternative : Alternative) : List Piece :=
  [.token .pipe alternative.pipe, .token .typeName alternative.member]

def Alternation.pieces (alternation : Alternation) : List Piece :=
  .token .typeName alternation.first :: alternation.more.flatMap Alternative.pieces

def Subject.pieces : Subject → List Piece
  | .positional name => [.token .variableName name]
  | .named colon name => [.token .colon colon, .token .variableName name]
  | .labelled colon label _ opening name closing =>
      [.token .colon colon, .token .typeName label, .token .openParen opening,
        .token .variableName name, .token .closeParen closing]

def Mark.pieces : Mark → List Piece
  | .optional sign => [.token .question sign]
  | .required sign => [.token .bang sign]

def Default.pieces (default : Default) : List Piece :=
  [.token .equals default.equals, .value default.value]

def Constraint.pieces (constraint : Constraint) : List Piece :=
  [.token .whereKeyword constraint.keyword, .block constraint.block]

/-- The pieces of a part that may be absent. -/
def optional {α : Type} (pieces : α → List Piece) : Option α → List Piece
  | none => []
  | some part => pieces part

/-- All of a parameter from its variable on, less what names it. -/
def Param.tail (param : Param) : List Piece :=
  optional Mark.pieces param.mark ++ (optional Default.pieces param.default ++
    param.constraints.flatMap Constraint.pieces)

def Param.pieces (param : Param) : List Piece :=
  optional Alternation.pieces param.alternation ++ (param.subject.pieces ++ param.tail)

def layoutPieces : Option LineEnds → List Piece := optional fun run => [.lineEnds run]

@[simp] theorem layoutPieces_none : layoutPieces none = [] := rfl

def Separator.pieces : Separator → List Piece
  | .lineEnds run => [.lineEnds run]
  | .comma before sign behind =>
      layoutPieces before ++ (.token .comma sign :: layoutPieces behind)

/-- Parameters that follow one, each behind its separator. -/
def followingPieces (more : List (Separator × Param)) : List Piece :=
  more.flatMap fun (separator, param) => separator.pieces ++ param.pieces

def Params.pieces (params : Params) : List Piece :=
  params.first.pieces ++ (followingPieces params.more ++ layoutPieces params.trailing)

def Invocant.pieces (invocant : Invocant) : List Piece :=
  invocant.param.pieces ++ (.token .colon invocant.colon :: layoutPieces invocant.layout)

def Tree.pieces (tree : Tree) : List Piece :=
  .token .openParen tree.opening :: (layoutPieces tree.layout ++
    (optional Invocant.pieces tree.invocant ++
      (optional Params.pieces tree.params ++ [.token .closeParen tree.closing])))

def Tree.text (tree : Tree) : Text := textOf tree.pieces

/-! ## Every part leaves ink -/

theorem Lexeme.ink_pos {kind : Token.Kind} (lexeme : Lexeme kind) : 0 < ink lexeme.text := by
  obtain ⟨c, rest, same, solid, -⟩ := lexeme.shape.head
  have counted : 0 < ink (c :: rest) := by
    simp only [ink, List.countP_pos_iff]
    exact ⟨c, by simp, by simp [isInlineBlank, solid]⟩
  simp only [Spaced.text, same, ink_append]
  omega

theorem ink_token_pos {kind : Token.Kind} (lexeme : Lexeme kind) (pieces : List Piece) :
    0 < ink (textOf (.token kind lexeme :: pieces)) := by
  have := Lexeme.ink_pos lexeme
  simp only [textOf_cons, Piece.text, ink_append]
  omega

theorem Param.ink_pos (param : Param) : 0 < ink (textOf param.pieces) := by
  have subject : 0 < ink (textOf param.subject.pieces) := by
    cases param.subject <;> exact ink_token_pos _ _
  simp only [Param.pieces, textOf_append, ink_append]
  omega

/-! ## What a tree means -/

def Alternation.value (alternation : Alternation) : Text :=
  alternation.first.literal ++ alternation.more.flatMap fun alternative =>
    '|' :: alternative.member.literal

def Subject.style : Subject → Parameter.Style
  | .positional _ => .positional
  | .named _ _ => .named none
  | .labelled _ label _ _ _ _ => .named (some label.literal)

def Subject.variableName : Subject → Text
  | .positional name | .named _ name | .labelled _ _ _ _ name _ => name.literal

/-- Whether a parameter of a style is required: by its mark, or else by its style. -/
def required (style : Parameter.Style) : Option Mark → Bool
  | some (.optional _) => false
  | some (.required _) => true
  | none =>
      match style with
      | .positional => true
      | .named _ => false

theorem required_none (style : Parameter.Style) : required style none = style.required := by
  cases style <;> rfl

def Param.value (param : Param) : Parameter where
  style := param.subject.style
  typeConstraint := param.alternation.map Alternation.value
  variableName := param.subject.variableName
  required := required param.subject.style param.mark
  defaultValue := param.default.map fun default => default.value.literal
  constraints := param.constraints.map fun constraint => constraint.block.literal

def Params.values (params : Params) : List Parameter :=
  params.first.value :: params.more.map fun (_, param) => param.value

def Tree.invocantValue (tree : Tree) : Option Parameter :=
  tree.invocant.map fun invocant => invocant.param.value

def Tree.paramValues (tree : Tree) : List Parameter := (tree.params.map Params.values).getD []

def Tree.value (tree : Tree) : Signature := .assemble tree.invocantValue tree.paramValues

end MethodSignature.Grammar
