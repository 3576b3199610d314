/-
# MethodSignature.Proofs.RoundTrip -- rewriting a signature in canonical form keeps it

A signature that has been parsed and written again is parsed to itself.  Its parts are
read back in any case; the question is where its blocks end, since a block is now
followed by another text.

Canonical form does little to the text behind a block.  It drops and adds blanks, drops
marks that say nothing, and puts commas for line ends.  Each of these leaves the text
milder: it completes no quote that the text before left open.  So the new text behind
each block is milder than the old, which is proved from the end of the signature
backwards (`constraints_milder`, `param_milder`, `following_milder`), and a block ends
where it did.

Comments do not survive, and a comment may hold a quote.  A text without `#` has none.
-/
import MethodSignature.Proofs.Canonical

namespace MethodSignature

set_option autoImplicit false

open Text

namespace Grammar

/-! ## The text behind a block grows milder -/

theorem endsSolid_block {block : Text} (h : IsBlock block) : EndsSolid block :=
  ⟨'}', (Block.braces_of_scan h).2, by decide, by decide⟩

section Milder

variable {old new : Text}

/-- Blanks around a solid text may go. -/
theorem milder_spaced {isLead form : Text → Prop} (spaced : Spaced isLead form)
    (blank : IsBlanks spaced.before) (solid : EndsSolid spaced.literal)
    (h : Block.Milder old new) :
    Block.Milder (spaced.text ++ old) (spaced.literal ++ new) := by
  rw [Spaced.text, List.append_assoc, List.append_assoc]
  exact ((h.drop_blanks spaced.inline.isBlanks).append solid).drop_blanks blank

theorem milder_token {kind : Token.Kind} (lexeme : Lexeme kind) (h : Block.Milder old new) :
    Block.Milder (lexeme.text ++ old) (lexeme.literal ++ new) :=
  milder_spaced lexeme lexeme.lead.isBlanks (isSolid_form lexeme.shape).endsSolid h

theorem milder_symbol (c : Char) {kind : Token.Kind} (lexeme : Lexeme kind)
    (symbol : Token.Kind.ofSymbol? c = some kind) (h : Block.Milder old new) :
    Block.Milder (lexeme.text ++ old) (c :: new) := by
  have kept := milder_token lexeme h
  rw [lexeme.shape.eq_symbol symbol] at kept
  exact kept

/-- Each block is read before the canonical text as it was read, and the text from there
on is milder. -/
theorem constraints_milder {constraints : List Constraint} (h : Block.Milder old new)
    (inContext : InContext (constraints.flatMap Constraint.pieces) old) :
    let blocks := constraints.map fun constraint => constraint.block.literal
    Parameter.BlocksRead blocks new ∧
      Block.Milder (textOf (constraints.flatMap Constraint.pieces) ++ old)
        (blocks.flatMap Parameter.renderConstraint ++ new) := by
  induction constraints with
  | nil => exact ⟨trivial, h⟩
  | cons constraint constraints ih =>
      rw [List.flatMap_cons] at inContext
      obtain ⟨-, blockFits, others⟩ := inContext
      -- the blocks behind this one come first: their text is part of what follows it
      obtain ⟨read, milder⟩ := ih others
      obtain ⟨keyword, block⟩ := constraint
      have blockRead := Block.scan_of_milder (milder.drop_blanks block.inline.isBlanks) blockFits
      have blockMilder := milder_spaced block block.lead (endsSolid_block block.shape) milder
      have keywordMilder := (milder_token keyword blockMilder.add_blank).add_blank
      rw [keyword.shape.eq_whereName] at keywordMilder
      refine ⟨⟨blockRead, read⟩, ?_⟩
      simpa [Constraint.pieces, Piece.text, Parameter.renderConstraint, Token.whereName] using
        keywordMilder

theorem default_milder (default : Option Default) (h : Block.Milder old new) :
    Block.Milder (textOf (optional Default.pieces default) ++ old)
      (Parameter.renderDefault (default.map fun default => default.value.literal) ++ new) := by
  cases default with
  | none => exact h
  | some default =>
      obtain ⟨equals, value⟩ := default
      have valueMilder := milder_spaced value value.lead value.shape.isSolid.endsSolid h
      have equalsMilder := (milder_symbol '=' equals rfl valueMilder.add_blank).add_blank
      simpa [optional, Default.pieces, Piece.text, Parameter.renderDefault] using equalsMilder

/-- The text goes on with a character that delimits no quote. -/
def Settles (text : Text) : Prop :=
  ∃ blanks c body, text = blanks ++ c :: body ∧ IsBlanks blanks ∧ isBlank c = false ∧
    Block.isDelimiter c = false

theorem settles_renderDefault (value : Option Text) {text : Text} (settles : Settles text) :
    Settles (Parameter.renderDefault value ++ text) := by
  cases value with
  | none => exact settles
  | some value => exact ⟨[' '], '=', ' ' :: value ++ text, rfl, rfl, by decide, by decide⟩

theorem settles_renderConstraints (blocks : List Text) {text : Text} (settles : Settles text) :
    Settles (blocks.flatMap Parameter.renderConstraint ++ text) := by
  cases blocks with
  | nil => exact settles
  | cons block blocks => exact ⟨[' '], 'w', _, rfl, rfl, by decide, by decide⟩

theorem settles_renderBehind (params : List Parameter) :
    Settles (Signature.renderBehind params) := by
  cases params <;> exact ⟨[], _, _, rfl, rfl, by decide, by decide⟩

/-- A mark that says nothing may go: what it ended does not delimit. -/
theorem milder_drop_mark (mark : Char) {kind : Token.Kind} (sign : Lexeme kind)
    (symbol : Token.Kind.ofSymbol? mark = some kind) (plain : mark ≠ backslash)
    (noCloser : mark ∉ Block.closers) (flat : Delimiter.nests mark = false)
    (settles : Settles new) (h : Block.Milder old new) : Block.Milder (sign.text ++ old) new := by
  obtain ⟨blanks, c, body, whole, blank, solid, noDelimiter⟩ := settles
  have isMark := sign.shape.eq_symbol symbol
  have behind := (h.drop_blanks sign.inline.isBlanks).quieter
  have dropped := (behind.drop_mark plain noCloser flat).milder whole blank solid noDelimiter
  have before := dropped.drop_blanks sign.lead.isBlanks
  simpa [Spaced.text, isMark] using before

theorem mark_milder (param : Param) (settles : Settles new) (h : Block.Milder old new) :
    Block.Milder (textOf (optional Mark.pieces param.mark) ++ old)
      (param.value.renderMark ++ new) := by
  obtain ⟨alternation, subject, mark, default, constraints⟩ := param
  unfold Parameter.renderMark
  -- a mark that agrees with the style is not written again
  cases mark with
  | none => simpa [optional, Param.value, required_none] using h
  | some mark =>
      cases mark with
      | optional sign =>
          have dropped := milder_drop_mark '?' sign rfl (by decide) (by decide) (by decide) settles h
          have kept := milder_symbol '?' sign rfl h
          split
          · simpa [optional, Mark.pieces, Piece.text] using dropped
          · simpa [optional, Mark.pieces, Piece.text, Param.value, required] using kept
      | required sign =>
          have dropped := milder_drop_mark '!' sign rfl (by decide) (by decide) (by decide) settles h
          have kept := milder_symbol '!' sign rfl h
          split
          · simpa [optional, Mark.pieces, Piece.text] using dropped
          · simpa [optional, Mark.pieces, Piece.text, Param.value, required] using kept

theorem subject_milder (param : Param) (h : Block.Milder old new) :
    Block.Milder (textOf param.subject.pieces ++ old) (param.value.renderVariable ++ new) := by
  obtain ⟨alternation, subject, mark, default, constraints⟩ := param
  cases subject with
  | positional name =>
      have whole := milder_token name h
      simpa [Subject.pieces, Piece.text, Param.value, Parameter.renderVariable, Subject.style,
        Subject.variableName] using whole
  | named colon name =>
      have whole := milder_symbol ':' colon rfl (milder_token name h)
      simpa [Subject.pieces, Piece.text, Param.value, Parameter.renderVariable, Subject.style,
        Subject.variableName] using whole
  | labelled colon label plain opening name closing =>
      have fromName := milder_token name (milder_symbol ')' closing rfl h)
      have fromLabel := milder_token label (milder_symbol '(' opening rfl fromName)
      have whole := milder_symbol ':' colon rfl fromLabel
      simpa [Subject.pieces, Piece.text, Param.value, Parameter.renderVariable, Subject.style,
        Subject.variableName] using whole

theorem alternatives_milder (more : List Alternative) (h : Block.Milder old new) :
    Block.Milder (textOf (more.flatMap Alternative.pieces) ++ old)
      ((more.flatMap fun alternative => '|' :: alternative.member.literal) ++ new) := by
  induction more with
  | nil => exact h
  | cons alternative more ih =>
      have whole := milder_symbol '|' alternative.pipe rfl (milder_token alternative.member ih)
      simpa [Alternative.pieces, Piece.text] using whole

theorem alternation_milder (alternation : Option Alternation) (h : Block.Milder old new) :
    Block.Milder (textOf (optional Alternation.pieces alternation) ++ old)
      (Parameter.renderType (alternation.map Alternation.value) ++ new) := by
  cases alternation with
  | none => exact h
  | some alternation =>
      obtain ⟨first, more⟩ := alternation
      obtain ⟨c, rest, same, -⟩ := first.shape.head
      have rendered : Parameter.renderType (some (Alternation.value ⟨first, more⟩)) =
          Alternation.value ⟨first, more⟩ ++ [' '] := by
        simp [Alternation.value, same, Parameter.renderType]
      have whole := milder_token first (alternatives_milder more h.add_blank)
      rw [Option.map_some, rendered]
      simpa [optional, Alternation.pieces, Piece.text, Alternation.value] using whole

theorem Param.inContext_constraints {param : Param} {following : Text}
    (inContext : InContext param.pieces following) :
    InContext (param.constraints.flatMap Constraint.pieces) following := by
  obtain ⟨-, behindType⟩ := inContext_append.1 inContext
  obtain ⟨-, tail⟩ := inContext_append.1 behindType
  obtain ⟨-, behindMark⟩ := inContext_append.1 tail
  exact (inContext_append.1 behindMark).2

/-- **One parameter**: its blocks are read before the canonical text, and the text from its
first character on is milder. -/
theorem param_milder {param : Param} (h : Block.Milder old new) (settles : Settles new)
    (inContext : InContext param.pieces old) :
    Parameter.BlocksRead param.value.constraints new ∧
      Block.Milder (textOf param.pieces ++ old) (param.value.render ++ new) := by
  obtain ⟨read, fromConstraints⟩ := constraints_milder h (Param.inContext_constraints inContext)
  have fromDefault := default_milder param.default fromConstraints
  have settled := settles_renderDefault param.value.defaultValue
    (settles_renderConstraints param.value.constraints settles)
  have fromMark := mark_milder param settled fromDefault
  have fromSubject := subject_milder param fromMark
  have whole := alternation_milder param.alternation fromSubject
  refine ⟨read, ?_⟩
  simpa [Param.pieces, Param.tail, Parameter.render, Param.value] using whole

end Milder

/-! ## Signatures -/

theorem isBlanks_lineEnd {text : Text} (h : Layout.IsLineEnd text) (noComment : '#' ∉ text) :
    IsBlanks text := by
  cases h with
  | @mk blanks comment lineBreak inline isComment isLineBreak =>
      have none : comment = [] := by
        rcases isComment with none | ⟨words, rfl, -⟩
        · exact none
        · simp at noComment
      subst none
      have broken : IsBlanks lineBreak := by
        rcases isLineBreak with rfl | rfl | rfl <;> rfl
      rw [List.append_nil]
      exact inline.isBlanks.append broken

/-- Line ends without a comment are blanks. -/
theorem isBlanks_lineEnds {text : Text} (h : Layout.IsLineEnds text) (noComment : '#' ∉ text) :
    IsBlanks text := by
  induction h with
  | last isLineEnd inline =>
      rw [List.mem_append, not_or] at noComment
      exact (isBlanks_lineEnd isLineEnd noComment.1).append inline.isBlanks
  | more isLineEnd _ ih =>
      rw [List.mem_append, not_or] at noComment
      exact (isBlanks_lineEnd isLineEnd noComment.1).append (ih noComment.2)

theorem layout_milder (layout : Option LineEnds) {old new : Text}
    (noComment : '#' ∉ textOf (layoutPieces layout)) (h : Block.Milder old new) :
    Block.Milder (textOf (layoutPieces layout) ++ old) new := by
  cases layout with
  | none => exact h
  | some run =>
      simp only [layoutPieces, optional, textOf_cons, Piece.text, textOf_nil, List.append_nil]
        at noComment ⊢
      exact h.drop_blanks (isBlanks_lineEnds run.property noComment)

/-- A comma may stand for line ends, since it delimits nothing. -/
theorem separator_milder {separator : Separator} {old new : Text}
    (noComment : '#' ∉ textOf separator.pieces) (h : Block.Milder old new) :
    Block.Milder (textOf separator.pieces ++ old) (',' :: ' ' :: new) := by
  cases separator with
  | lineEnds run =>
      have inert : [',', ' '].all Block.isInert = true := by decide
      have settled : isBlank ',' = false ∧ Block.isDelimiter ',' = false := by decide
      have added := (h.quieter.add_inert inert).milder (rfl : _ = [] ++ ',' :: ' ' :: new) rfl
        settled.1 settled.2
      exact layout_milder (some run) noComment added
  | comma before sign behind =>
      simp only [Separator.pieces, textOf_append, textOf_cons, List.mem_append, not_or,
        List.append_assoc] at noComment ⊢
      have whole := milder_symbol ',' sign rfl (layout_milder behind noComment.2.2 h.add_blank)
      exact layout_milder before noComment.1 whole

/-- **The parameters that follow one**, from the last one backwards. -/
theorem following_milder {more : List (Separator × Param)} {old : Text}
    (h : Block.Milder old [')']) (noComment : '#' ∉ textOf (followingPieces more))
    (inContext : InContext (followingPieces more) old) :
    let params := more.map fun (_, param) => param.value
    Signature.ParamsRead params ∧
      Block.Milder (textOf (followingPieces more) ++ old) (Signature.renderBehind params) := by
  induction more with
  | nil => exact ⟨trivial, h⟩
  | cons next more ih =>
      obtain ⟨separator, param⟩ := next
      have whole : followingPieces ((separator, param) :: more) =
          separator.pieces ++ (param.pieces ++ followingPieces more) := by
        simp [followingPieces]
      rw [whole] at noComment inContext ⊢
      simp only [textOf_append, List.mem_append, not_or] at noComment
      obtain ⟨-, behind⟩ := inContext_append.1 inContext
      obtain ⟨fits, others⟩ := inContext_append.1 behind
      obtain ⟨read, milder⟩ := ih noComment.2.2 others
      obtain ⟨blocksRead, fromParam⟩ := param_milder milder (settles_renderBehind _) fits
      refine ⟨⟨blocksRead, read⟩, ?_⟩
      have fromSeparator := separator_milder noComment.1 fromParam
      simpa [Signature.renderBehind] using fromSeparator

theorem params_milder {part : Option Params} {old : Text} (h : Block.Milder old [')'])
    (noComment : '#' ∉ textOf (optional Params.pieces part))
    (inContext : InContext (optional Params.pieces part) old) :
    let params := (part.map Params.values).getD []
    Signature.ParamsRead params ∧
      Block.Milder (textOf (optional Params.pieces part) ++ old)
        (Signature.renderParams params ++ [')']) := by
  cases part with
  | none => exact ⟨trivial, h⟩
  | some params =>
      obtain ⟨first, more, trailing⟩ := params
      simp only [optional, Params.pieces, textOf_append, List.mem_append, not_or] at noComment
      obtain ⟨fits, behind⟩ := inContext_append.1 inContext
      obtain ⟨others, -⟩ := inContext_append.1 behind
      have fromTrailing := layout_milder trailing noComment.2.2 h
      obtain ⟨read, fromMore⟩ := following_milder fromTrailing noComment.2.1 others
      rw [textOf_append, List.append_assoc] at fits
      obtain ⟨blocksRead, fromFirst⟩ := param_milder fromMore (settles_renderBehind _) fits
      refine ⟨⟨blocksRead, read⟩, ?_⟩
      simp only [Option.map_some, Option.getD_some, Params.values, Signature.renderParams_closed]
      simpa [optional, Params.pieces] using fromFirst

theorem milder_renderBody {params : List Parameter} {old : Text}
    (h : Block.Milder old (Signature.renderParams params ++ [')'])) :
    Block.Milder old (Signature.renderBody params) := by
  rw [renderBody_eq]
  split
  · exact h
  · exact h.add_blank

/-- The blocks of the invocant; nothing before it is a block. -/
theorem invocant_blocksRead {part : Option Invocant} {params : List Parameter} {old : Text}
    (h : Block.Milder old (Signature.renderParams params ++ [')']))
    (noComment : '#' ∉ textOf (optional Invocant.pieces part))
    (inContext : InContext (optional Invocant.pieces part) old) :
    ∀ invocant ∈ part.map fun invocant => invocant.param.value,
      Parameter.BlocksRead invocant.constraints (':' :: Signature.renderBody params) := by
  intro parameter member
  obtain ⟨⟨param, colon, lines⟩, rfl, rfl⟩ := Option.map_eq_some_iff.1 member
  simp only [optional, Invocant.pieces, textOf_append, textOf_cons, List.mem_append, not_or]
    at noComment
  obtain ⟨fits, -⟩ := inContext_append.1 inContext
  rw [textOf_cons, List.append_assoc] at fits
  have fromColon := milder_symbol ':' colon rfl
    (layout_milder lines noComment.2.2 (milder_renderBody h))
  exact (constraints_milder fromColon (Param.inContext_constraints fits)).1

/-- **Each block of a signature without comments** is read before the canonical text as it
was read before the text behind it. -/
theorem blocksRead_value {tree : Tree} {rest : Text} (noComment : '#' ∉ tree.text)
    (inContext : InContext tree.pieces rest) : tree.value.BlocksRead := by
  obtain ⟨opening, layout, invocant, params, closing⟩ := tree
  simp only [Tree.text, Tree.pieces, textOf_cons, textOf_append, List.mem_append, not_or]
    at noComment
  obtain ⟨-, -, inInvocant, inParams, -⟩ := noComment
  obtain ⟨-, inside⟩ := inContext_append.1 inContext.2
  obtain ⟨invocantFits, body⟩ := inContext_append.1 inside
  obtain ⟨paramsFit, -⟩ := inContext_append.1 body
  have closed : Block.Milder (textOf [.token .closeParen closing] ++ rest) [')'] := by
    have ended := milder_symbol ')' closing rfl (Block.milder_nil rest)
    simpa [Piece.text] using ended
  obtain ⟨read, fromParams⟩ := params_milder closed inParams paramsFit
  rw [textOf_append, List.append_assoc] at invocantFits
  exact ⟨invocant_blocksRead fromParams inInvocant invocantFits, read⟩

/-- **Writing a parsed signature and parsing it again** gives the same signature and leaves
nothing, for every text without comments. -/
theorem parseAt_render_of_parseAt {input rest : Text} {signature : Signature}
    (noComment : '#' ∉ input) (h : Signature.parseAt input 0 = .ok (signature, rest)) :
    Signature.parseAt signature.render 0 = .ok (signature, []) := by
  obtain ⟨before, text, rfl, -, parsed⟩ := parseAt_eq_ok_iff.1 h
  obtain ⟨tree, whole, inContext, -, admissible, rfl⟩ := parse_sound parsed
  simp only at whole
  subst whole
  have inTree : '#' ∉ tree.text := by
    intro member
    exact noComment (by simp [member])
  exact parseAt_render_of_blocksRead ((Tree.wellFormed admissible).mono fun _ => IsWholeBlock.whole)
    (blocksRead_value inTree inContext)

/-- A block that leaves a quote open, a mark that says nothing, and a line end for a comma. -/
theorem parseAt_render_of_parseAt_open_quote :
    ∃ signature rest,
      '#' ∉ "(A | B $x ! where\n\x7b ' \x7d\n:$y = .5) z".toList ∧
      Signature.parseAt "(A | B $x ! where\n\x7b ' \x7d\n:$y = .5) z".toList 0 =
        .ok (signature, rest) ∧
      signature.render = "(A|B $x where \x7b ' \x7d, :$y = .5)".toList ∧
      Signature.parseAt signature.render 0 = .ok (signature, []) := by
  let first : Parameter :=
    ⟨.positional, some "A|B".toList, "$x".toList, true, none, ["\x7b ' \x7d".toList]⟩
  let second : Parameter := ⟨.named none, none, "$y".toList, false, some ".5".toList, []⟩
  have noComment : '#' ∉ "(A | B $x ! where\n\x7b ' \x7d\n:$y = .5) z".toList := by decide
  have parsed : Signature.parseAt "(A | B $x ! where\n\x7b ' \x7d\n:$y = .5) z".toList 0 =
      .ok (⟨none, [first, second], 1, []⟩, ['z']) := eq_ok_of_toOption (by decide +kernel)
  exact ⟨_, _, noComment, parsed, by decide +kernel, parseAt_render_of_parseAt noComment parsed⟩

end Grammar

end MethodSignature
