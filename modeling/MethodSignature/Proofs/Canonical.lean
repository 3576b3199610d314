/-
# MethodSignature.Proofs.Canonical -- the canonical form is a derivation

What `render` writes of a well-formed value derives that value: each part of a parameter
has a tree with this text and this meaning (`exists_subject`, `exists_default`,
`exists_constraints`), and so have parameters and signatures (`exists_param`,
`exists_tree`).

All pieces but one kind are read as they stand in any canonical text, since each is
followed by a character that ends it.  A block is the exception: what stands behind it
may decide where it ends.  `Signature.BlocksRead` says that each block of a signature is
read before the canonical text that follows it.  A signature with this property is read
back (`parseAt_render_of_blocksRead`).
-/
import MethodSignature.Proofs.Completeness.Signature
import MethodSignature.Proofs.WellFormed

namespace MethodSignature

set_option autoImplicit false

open Text

/-! ## Blocks before canonical text -/

/-- Each block is read before those that follow it and `following`. -/
def Parameter.BlocksRead : List Text → Text → Prop
  | [], _ => True
  | block :: blocks, following =>
      let behind := blocks.flatMap renderConstraint ++ following
      Block.scan (block ++ behind) = .present block behind ∧ BlocksRead blocks following

namespace Signature

/-- What is written behind a parameter that `rest` follow. -/
def renderBehind : List Parameter → Text
  | [] => [')']
  | parameter :: rest => ',' :: ' ' :: (parameter.render ++ renderBehind rest)

/-- What is written behind the colon of the invocant. -/
def renderBody : List Parameter → Text
  | [] => [')']
  | parameter :: rest => ' ' :: (parameter.render ++ renderBehind rest)

def ParamsRead : List Parameter → Prop
  | [] => True
  | parameter :: rest =>
      Parameter.BlocksRead parameter.constraints (renderBehind rest) ∧ ParamsRead rest

/-- Each block is read before the canonical text behind it. -/
structure BlocksRead (signature : Signature) : Prop where
  invocant : ∀ invocant ∈ signature.invocant,
    Parameter.BlocksRead invocant.constraints (':' :: renderBody signature.params)
  params : ParamsRead signature.params

theorem renderParams_closed (parameter : Parameter) (rest : List Parameter) :
    renderParams (parameter :: rest) ++ [')'] = parameter.render ++ renderBehind rest := by
  induction rest generalizing parameter with
  | nil => rfl
  | cons next rest ih =>
      rw [renderParams, List.append_assoc, ih, renderBehind]
      · simp
      · simp

end Signature

namespace Grammar

/-! ## What ends a piece -/

/-- The characters that canonical text has behind a variable or a value. -/
def enders : List Char := [' ', '?', '!', ')', ',', ':']

/-- The text begins with a character that ends what stands before it. -/
def Ended (text : Text) : Prop := ∃ c rest, text = c :: rest ∧ c ∈ enders

theorem Ended.stops {text : Text} (h : Ended text) {isChar : Char → Bool}
    (none : enders.any isChar = false) : Stops isChar text := by
  obtain ⟨c, rest, rfl, member⟩ := h
  rw [stops_cons]
  simpa using List.any_eq_false.1 none c member

theorem Ended.append {text following : Text} (h : Ended following)
    (head : ∀ c ∈ text.head?, c ∈ enders) : Ended (text ++ following) := by
  cases text with
  | nil => exact h
  | cons c rest => exact ⟨c, rest ++ following, rfl, head c rfl⟩

theorem nameStops_of_head (c : Char) (noTypeChar : isTypeChar c = false)
    (noColon : (c == ':') = false) (rest : Text) : TypeConstraint.NameStops (c :: rest) := by
  apply TypeConstraint.nameStops_of_stops
  · rw [stops_cons]
    exact noTypeChar
  · rw [stops_cons]
    exact noColon

/-! ## The parts of a parameter -/

theorem exists_alternation {constraint : Option Text}
    (isType : ∀ text ∈ constraint, Token.IsType text) :
    ∃ alternation : Option Alternation, alternation.map Alternation.value = constraint ∧
      textOf (optional Alternation.pieces alternation) = Parameter.renderType constraint ∧
      ∀ following, InContext (optional Alternation.pieces alternation) following := by
  cases constraint with
  | none => exact ⟨none, rfl, rfl, fun _ => trivial⟩
  | some text =>
      have typed := isType text rfl
      obtain ⟨c, rest, rfl, -⟩ := (Token.Form.typeName typed).head
      refine ⟨some ⟨⟨[], c :: rest, [' '], rfl, rfl, .typeName typed⟩, []⟩, ?_, ?_, ?_⟩
      · simp [Alternation.value]
      · simp [optional, Alternation.pieces, Piece.text, Spaced.text, Parameter.renderType]
      · intro following
        refine ⟨Token.readsAs_typeName typed (nameStops_of_head ' ' rfl rfl _) ?_, trivial⟩
        rw [List.cons_append, stops_cons]
        rfl

theorem exists_subject {parameter : Parameter} (isVariable : Token.IsVariable parameter.variableName)
    (isLabel : ∀ label ∈ parameter.style.label?, Parameter.IsLabel label) :
    ∃ subject : Subject, subject.style = parameter.style ∧
      subject.variableName = parameter.variableName ∧
      textOf subject.pieces = parameter.renderVariable ∧
      ∀ following, Ended following → InContext subject.pieces following := by
  obtain ⟨style, typeConstraint, name, required, defaultValue, constraints⟩ := parameter
  let variableName : Lexeme .variableName := ⟨[], name, [], rfl, rfl, .variableName isVariable⟩
  let colon : Lexeme .colon := ⟨[], [':'], [], rfl, rfl, .symbol rfl⟩
  have reads : ∀ following, Ended following → Token.ReadsAs .variableName name following := by
    intro following ended
    exact Token.readsAs_variableName isVariable (ended.stops (by decide))
  cases style with
  | positional =>
      refine ⟨.positional variableName, rfl, rfl, ?_, ?_⟩
      · simp [Subject.pieces, Piece.text, Spaced.text, variableName, Parameter.renderVariable]
      · intro following ended
        exact ⟨reads following ended, trivial⟩
  | named label =>
      cases label with
      | none =>
          refine ⟨.named colon variableName, rfl, rfl, ?_, ?_⟩
          · simp [Subject.pieces, Piece.text, Spaced.text, variableName, colon,
              Parameter.renderVariable]
          · intro following ended
            exact ⟨Token.readsAs_symbol rfl _, reads following ended, trivial⟩
      | some label =>
          obtain ⟨isType, plain⟩ := Parameter.isLabel_iff.1 (isLabel label rfl)
          refine ⟨.labelled colon ⟨[], label, [], rfl, rfl, .typeName isType⟩ plain
            ⟨[], ['('], [], rfl, rfl, .symbol rfl⟩ variableName
            ⟨[], [')'], [], rfl, rfl, .symbol rfl⟩, rfl, rfl, ?_, ?_⟩
          · simp [Subject.pieces, Piece.text, Spaced.text, variableName, colon,
              Parameter.renderVariable]
          · intro following ended
            refine ⟨Token.readsAs_symbol rfl _, ?_, Token.readsAs_symbol rfl _,
              reads _ ⟨')', following, rfl, by decide⟩, Token.readsAs_symbol rfl _, trivial⟩
            refine Token.readsAs_typeName isType (nameStops_of_head '(' rfl rfl _) ?_
            simp only [textOf_cons, Piece.text, Spaced.text, List.nil_append, List.cons_append,
              stops_cons]
            rfl

theorem exists_mark (parameter : Parameter) :
    ∃ mark : Option Mark, required parameter.style mark = parameter.required ∧
      textOf (optional Mark.pieces mark) = parameter.renderMark ∧
      ∀ following, InContext (optional Mark.pieces mark) following := by
  unfold Parameter.renderMark
  by_cases usual : parameter.required = parameter.style.required
  · rw [if_pos usual]
    exact ⟨none, (required_none _).trans usual.symm, rfl, fun _ => trivial⟩
  · rw [if_neg usual]
    by_cases isRequired : parameter.required = true
    · rw [if_pos isRequired]
      exact ⟨some (.required ⟨[], ['!'], [], rfl, rfl, .symbol rfl⟩), isRequired.symm, rfl,
        fun _ => ⟨Token.readsAs_symbol rfl _, trivial⟩⟩
    · rw [if_neg isRequired]
      rw [Bool.not_eq_true] at isRequired
      exact ⟨some (.optional ⟨[], ['?'], [], rfl, rfl, .symbol rfl⟩), isRequired.symm, rfl,
        fun _ => ⟨Token.readsAs_symbol rfl _, trivial⟩⟩

theorem exists_default {value : Option Text} (isValue : ∀ text ∈ value, IsValue text) :
    ∃ default : Option Default, (default.map fun default => default.value.literal) = value ∧
      textOf (optional Default.pieces default) = Parameter.renderDefault value ∧
      ∀ following, Ended following → InContext (optional Default.pieces default) following := by
  cases value with
  | none => exact ⟨none, rfl, rfl, fun _ _ => trivial⟩
  | some text =>
      refine ⟨some ⟨⟨[' '], ['='], [], rfl, rfl, .symbol rfl⟩,
        ⟨[' '], text, [], rfl, rfl, isValue text rfl⟩⟩, rfl, ?_, ?_⟩
      · simp [optional, Default.pieces, Piece.text, Spaced.text, Parameter.renderDefault]
      · intro following ended
        have fits := valueFits_of_isValue (isValue text rfl) (ended.stops (by decide))
          (ended.stops (by decide))
        exact ⟨Token.readsAs_symbol rfl _, fits, trivial⟩

theorem exists_constraints {blocks : List Text} (isBlock : ∀ block ∈ blocks, IsBlock block) :
    ∃ constraints : List Constraint,
      (constraints.map fun constraint => constraint.block.literal) = blocks ∧
      textOf (constraints.flatMap Constraint.pieces) =
        blocks.flatMap Parameter.renderConstraint ∧
      ∀ following, Parameter.BlocksRead blocks following →
        InContext (constraints.flatMap Constraint.pieces) following := by
  induction blocks with
  | nil => exact ⟨[], rfl, rfl, fun _ _ => trivial⟩
  | cons block blocks ih =>
      obtain ⟨constraints, values, text, inContext⟩ :=
        ih fun other member => isBlock other (List.mem_cons_of_mem _ member)
      refine ⟨⟨⟨[' '], Token.whereName, [], rfl, rfl, .whereKeyword⟩,
        ⟨[' '], block, [], rfl, rfl, isBlock block (by simp)⟩⟩ :: constraints, ?_, ?_, ?_⟩
      · rw [List.map_cons, values]
      · simp [Constraint.pieces, Piece.text, Spaced.text, Parameter.renderConstraint,
          Token.whereName, text]
      · rintro following ⟨read, others⟩
        refine ⟨Token.readsAs_whereKeyword (nameStops_of_head ' ' rfl rfl _), ?_,
          inContext following others⟩
        show Block.scan (block ++ (textOf (constraints.flatMap Constraint.pieces) ++ following)) =
          .present block (textOf (constraints.flatMap Constraint.pieces) ++ following)
        rw [text]
        exact read

/-! ## Parameters -/

theorem ended_renderMark (parameter : Parameter) {following : Text} (ended : Ended following) :
    Ended (parameter.renderMark ++ following) := by
  refine ended.append ?_
  unfold Parameter.renderMark
  split
  · simp
  · split <;> simp [enders]

theorem ended_renderDefault (value : Option Text) {following : Text} (ended : Ended following) :
    Ended (Parameter.renderDefault value ++ following) := by
  refine ended.append ?_
  cases value <;> simp [Parameter.renderDefault, enders]

theorem ended_renderConstraints (blocks : List Text) {following : Text} (ended : Ended following) :
    Ended (blocks.flatMap Parameter.renderConstraint ++ following) := by
  refine ended.append ?_
  cases blocks <;> simp [Parameter.renderConstraint, enders]

/-- **A well-formed parameter** has a derivation with its canonical text. -/
theorem exists_param {parameter : Parameter} (wellFormed : parameter.WellFormed IsBlock) :
    ∃ param : Param, param.value = parameter ∧ textOf param.pieces = parameter.render ∧
      ∀ following, Ended following → Parameter.BlocksRead parameter.constraints following →
        InContext param.pieces following := by
  obtain ⟨isVariable, isType, isLabel, isValue, isBlock⟩ := wellFormed
  obtain ⟨alternation, typeValue, typeText, typeFits⟩ := exists_alternation isType
  obtain ⟨subject, style, name, subjectText, subjectFits⟩ := exists_subject isVariable isLabel
  obtain ⟨mark, marked, markText, markFits⟩ := exists_mark parameter
  obtain ⟨default, defaultValue, defaultText, defaultFits⟩ := exists_default isValue
  obtain ⟨constraints, blocks, blocksText, blocksFit⟩ := exists_constraints isBlock
  refine ⟨⟨alternation, subject, mark, default, constraints⟩, ?_, ?_, ?_⟩
  · obtain ⟨style', typeConstraint, variableName, required', value, constraints'⟩ := parameter
    simp only [Param.value, typeValue, style, name, marked, defaultValue, blocks]
  · simp [Param.pieces, Param.tail, typeText, subjectText, markText, defaultText, blocksText,
      Parameter.render]
  · intro following ended read
    have beforeBlocks := ended_renderConstraints parameter.constraints ended
    have beforeDefault := ended_renderDefault parameter.defaultValue beforeBlocks
    have beforeMark := ended_renderMark parameter beforeDefault
    rw [← blocksText] at beforeBlocks
    rw [← blocksText, ← defaultText] at beforeDefault
    rw [← blocksText, ← defaultText, ← markText] at beforeMark
    refine inContext_append.2 ⟨typeFits _, inContext_append.2 ⟨subjectFits _ ?_, ?_⟩⟩
    · simpa [Param.tail] using beforeMark
    · exact inContext_append.2 ⟨markFits _, inContext_append.2 ⟨defaultFits _ beforeBlocks,
        blocksFit following read⟩⟩

theorem ended_renderBehind (params : List Parameter) : Ended (Signature.renderBehind params) := by
  cases params <;> exact ⟨_, _, rfl, by decide⟩

/-- Parameters that follow one, with a comma and a blank before each. -/
theorem exists_following {params : List Parameter}
    (wellFormed : ∀ parameter ∈ params, parameter.WellFormed IsBlock) :
    ∃ more : List (Separator × Param), (more.map fun (_, param) => param.value) = params ∧
      textOf (followingPieces more) ++ [')'] = Signature.renderBehind params ∧
      (Signature.ParamsRead params → InContext (followingPieces more) [')']) := by
  induction params with
  | nil => exact ⟨[], rfl, rfl, fun _ => trivial⟩
  | cons parameter params ih =>
      obtain ⟨more, values, text, inContext⟩ :=
        ih fun other member => wellFormed other (List.mem_cons_of_mem _ member)
      obtain ⟨param, value, paramText, paramFits⟩ := exists_param (wellFormed parameter (by simp))
      let comma : Separator := .comma none ⟨[], [','], [' '], rfl, rfl, .symbol rfl⟩ none
      have whole : followingPieces ((comma, param) :: more) =
          comma.pieces ++ (param.pieces ++ followingPieces more) := by
        simp [followingPieces]
      refine ⟨(comma, param) :: more, ?_, ?_, ?_⟩
      · simp only [List.map_cons, values, value]
      · rw [whole, textOf_append, textOf_append, paramText, List.append_assoc, List.append_assoc,
          text]
        rfl
      · rintro ⟨read, others⟩
        rw [whole]
        refine inContext_append.2 ⟨⟨Token.readsAs_symbol rfl _, trivial⟩, inContext_append.2 ⟨?_,
          inContext others⟩⟩
        rw [text]
        exact paramFits _ (ended_renderBehind params) read

theorem exists_params {params : List Parameter}
    (wellFormed : ∀ parameter ∈ params, parameter.WellFormed IsBlock) :
    ∃ part : Option Params, (part.map Params.values).getD [] = params ∧
      textOf (optional Params.pieces part) = Signature.renderParams params ∧
      (Signature.ParamsRead params → InContext (optional Params.pieces part) [')']) := by
  cases params with
  | nil => exact ⟨none, rfl, rfl, fun _ => trivial⟩
  | cons parameter params =>
      obtain ⟨param, value, text, fits⟩ := exists_param (wellFormed parameter (by simp))
      obtain ⟨more, values, moreText, inContext⟩ :=
        exists_following fun other member => wellFormed other (List.mem_cons_of_mem _ member)
      have pieces : Params.pieces ⟨param, more, none⟩ = param.pieces ++ followingPieces more := by
        simp [Params.pieces]
      refine ⟨some ⟨param, more, none⟩, ?_, ?_, ?_⟩
      · simp only [Option.map_some, Option.getD_some, Params.values, value, values]
      · have closed : textOf (Params.pieces ⟨param, more, none⟩) ++ [')'] =
            Signature.renderParams (parameter :: params) ++ [')'] := by
          rw [pieces, textOf_append, List.append_assoc, moreText, text,
            Signature.renderParams_closed]
        exact List.append_cancel_right closed
      · rintro ⟨read, others⟩
        rw [optional, pieces]
        refine inContext_append.2 ⟨?_, inContext others⟩
        rw [moreText]
        exact fits _ (ended_renderBehind params) read

/-! ## Signatures -/

theorem renderBody_eq (params : List Parameter) :
    Signature.renderBody params =
      (if params.isEmpty then [] else [' ']) ++ (Signature.renderParams params ++ [')']) := by
  cases params with
  | nil => rfl
  | cons parameter params =>
      rw [Signature.renderParams_closed]
      rfl

theorem exists_invocant {signature : Signature}
    (wellFormed : ∀ invocant ∈ signature.invocant, invocant.WellFormed IsBlock)
    (read : ∀ invocant ∈ signature.invocant,
      Parameter.BlocksRead invocant.constraints (':' :: Signature.renderBody signature.params)) :
    ∃ part : Option Invocant, (part.map fun invocant => invocant.param.value) = signature.invocant ∧
      textOf (optional Invocant.pieces part) = signature.renderInvocant ∧
      InContext (optional Invocant.pieces part) (Signature.renderParams signature.params ++ [')']) := by
  obtain ⟨invocant, params, count, labels⟩ := signature
  cases invocant with
  | none => exact ⟨none, rfl, rfl, trivial⟩
  | some invocant =>
      obtain ⟨param, value, text, fits⟩ := exists_param (wellFormed invocant rfl)
      have inline : IsInline (if params.isEmpty then [] else [' ']) := by
        split <;> rfl
      let colon : Lexeme .colon := ⟨[], [':'], _, rfl, inline, .symbol rfl⟩
      refine ⟨some ⟨param, colon, none⟩, ?_, ?_, ?_⟩
      · rw [Option.map_some, value]
      · simp [optional, Invocant.pieces, Piece.text, Spaced.text, colon, text,
          Signature.renderInvocant]
      · refine inContext_append.2 ⟨fits _ ⟨':', _, rfl, by decide⟩ ?_,
          Token.readsAs_symbol rfl _, trivial⟩
        have behind := read invocant rfl
        rw [renderBody_eq] at behind
        simpa [Piece.text, Spaced.text, colon] using behind

/-- **A well-formed signature** whose blocks are read has a derivation with its canonical
text. -/
theorem exists_tree {signature : Signature} (wellFormed : signature.WellFormed IsBlock)
    (read : signature.BlocksRead) :
    ∃ tree : Tree, tree.value = signature ∧ tree.text = signature.render ∧
      InContext tree.pieces [] ∧ Admissible tree := by
  have ofInvocant : ∀ invocant ∈ signature.invocant, invocant.WellFormed IsBlock := by
    intro invocant member
    exact wellFormed.everyParam invocant (List.mem_append_left _ (Option.mem_toList.2 member))
  have ofParams : ∀ parameter ∈ signature.params, parameter.WellFormed IsBlock := by
    intro parameter member
    exact wellFormed.everyParam parameter (List.mem_append_right _ member)
  obtain ⟨invocant, invocantValue, invocantText, invocantFits⟩ :=
    exists_invocant ofInvocant read.invocant
  obtain ⟨params, values, paramsText, paramsFit⟩ := exists_params ofParams
  refine ⟨⟨⟨[], ['('], [], rfl, rfl, .symbol rfl⟩, none, invocant, params,
    ⟨[], [')'], [], rfl, rfl, .symbol rfl⟩⟩, ?_, ?_, ?_, ?_, ?_⟩
  · rw [Tree.value, Tree.invocantValue, Tree.paramValues, invocantValue, values,
      wellFormed.assemble_eq]
  · simp [Tree.text, Tree.pieces, Piece.text, Spaced.text, invocantText, paramsText,
      Signature.render]
  · refine ⟨Token.readsAs_symbol rfl _, inContext_append.2 ⟨trivial, inContext_append.2 ⟨?_,
      inContext_append.2 ⟨?_, Token.readsAs_symbol rfl _, trivial⟩⟩⟩⟩
    · simpa [paramsText, Piece.text, Spaced.text] using invocantFits
    · exact paramsFit read.params
  · intro parameter member
    rw [Tree.invocantValue, invocantValue] at member
    exact Signature.invocantCause?_eq_none_iff.2 (wellFormed.invocant parameter member)
  · rw [Tree.paramValues, values]
    exact Signature.ordered_false_iff.2 wellFormed.order

/-- What is written of a well-formed signature is read back, as far as its blocks are. -/
theorem parseAt_render_of_blocksRead {signature : Signature}
    (wellFormed : signature.WellFormed IsBlock) (read : signature.BlocksRead) :
    Signature.parseAt signature.render 0 = .ok (signature, []) := by
  obtain ⟨tree, value, text, inContext, admissible⟩ := exists_tree wellFormed read
  have parsed := parse_of_tree inContext (stops_nil _) admissible []
  rw [value, text, List.append_nil] at parsed
  exact parseAt_eq_ok_iff.2 ⟨[], signature.render, rfl, rfl, parsed⟩

/-- A block that is read whole whatever follows it. -/
def IsSelfContained (block : Text) : Prop :=
  ∀ following, Block.scan (block ++ following) = .present block following

theorem blocksRead_of_isSelfContained {blocks : List Text}
    (h : ∀ block ∈ blocks, IsSelfContained block) (following : Text) :
    Parameter.BlocksRead blocks following := by
  induction blocks with
  | nil => trivial
  | cons block blocks ih =>
      exact ⟨h block (by simp) _, ih fun other member => h other (List.mem_cons_of_mem _ member)⟩

theorem paramsRead_of_isSelfContained {params : List Parameter}
    (h : ∀ parameter ∈ params, parameter.WellFormed IsSelfContained) :
    Signature.ParamsRead params := by
  induction params with
  | nil => trivial
  | cons parameter params ih =>
      exact ⟨blocksRead_of_isSelfContained (h parameter (by simp)).constraints _,
        ih fun other member => h other (List.mem_cons_of_mem _ member)⟩

/-- **Canonical text is read back**: a well-formed signature whose blocks are read whole
whatever follows them is what parsing gives of its canonical form, and nothing is left. -/
theorem parseAt_render_of_wellFormed {signature : Signature}
    (wellFormed : signature.WellFormed IsSelfContained) :
    Signature.parseAt signature.render 0 = .ok (signature, []) := by
  have whole : ∀ block, IsSelfContained block → IsBlock block := by
    intro block selfContained
    have alone := selfContained []
    rwa [List.append_nil] at alone
  refine parseAt_render_of_blocksRead (wellFormed.mono whole) ⟨?_, ?_⟩
  · intro invocant member
    have inside : invocant ∈ signature.everyParam :=
      List.mem_append_left _ (Option.mem_toList.2 member)
    exact blocksRead_of_isSelfContained (wellFormed.everyParam invocant inside).constraints _
  · refine paramsRead_of_isSelfContained ?_
    intro parameter member
    exact wellFormed.everyParam parameter (List.mem_append_right _ member)

/-- An invocant, an optional parameter, and a block that holds a quoted brace. -/
theorem parseAt_render_of_wellFormed_quoted_brace :
    ∃ signature : Signature, signature.WellFormed IsSelfContained ∧
      signature.render =
        "($self: Int|Str $x?, :label($y)! = -3 where \x7b'\x7d'\x7d)".toList ∧
      Signature.parseAt signature.render 0 = .ok (signature, []) := by
  let invocant : Parameter := ⟨.positional, none, "$self".toList, true, none, []⟩
  let first : Parameter := ⟨.positional, some "Int|Str".toList, "$x".toList, false, none, []⟩
  let second : Parameter := ⟨.named (some "label".toList), none, "$y".toList, true,
    some "-3".toList, ["\x7b'\x7d'\x7d".toList]⟩
  have isInvocant : invocant.WellFormed IsSelfContained :=
    ⟨⟨'$', 's', ['e', 'l', 'f'], rfl, rfl, rfl, rfl⟩, by simp [invocant],
      by simp [invocant, Parameter.Style.label?], by simp [invocant], by simp [invocant]⟩
  have isFirst : first.WellFormed IsSelfContained := by
    have isType : Token.IsType "Int|Str".toList := by
      have isInt : TypeConstraint.IsName "Int".toList := .part ⟨rfl, rfl⟩
      have isStr : TypeConstraint.IsName "Str".toList := .part ⟨rfl, rfl⟩
      refine ⟨.alternative (.single (.name isInt)) (.name isStr), ?_⟩
      intro tail _
      simp [Token.whereName]
    exact ⟨⟨'$', 'x', [], rfl, rfl, rfl, rfl⟩, by simpa [first] using isType,
      by simp [first, Parameter.Style.label?], by simp [first], by simp [first]⟩
  have isSecond : second.WellFormed IsSelfContained := by
    refine ⟨⟨'$', 'y', [], rfl, rfl, rfl, rfl⟩, by simp [second], ?_, ?_, ?_⟩
    · rintro label ⟨⟩
      exact ⟨⟨'l', ['a', 'b', 'e', 'l'], rfl, rfl, rfl⟩, by decide⟩
    · rintro value ⟨⟩
      exact .inl (Number.scan_eq_present_iff.2 (by decide +kernel))
    · intro block member
      obtain rfl := List.mem_singleton.1 member
      exact fun _ => rfl
  have wellFormed : (⟨some invocant, [first, second], 0, ["label".toList]⟩ : Signature).WellFormed
      IsSelfContained := by
    refine ⟨?_, ?_, ?_, rfl, rfl⟩
    · simpa [Signature.everyParam] using ⟨isInvocant, isFirst, isSecond⟩
    · rintro parameter ⟨⟩
      exact ⟨rfl, rfl, rfl⟩
    · refine List.pairwise_cons.2 ⟨?_, List.pairwise_singleton _ _⟩
      intro later member _ _ positional
      obtain rfl := List.mem_singleton.1 member
      cases positional
  exact ⟨_, wellFormed, by decide +kernel, parseAt_render_of_wellFormed wellFormed⟩

end Grammar

end MethodSignature
