/-
# MethodSignature.Proofs.Context -- the text behind a piece may change

Where a piece ends is for the text behind it to say.  `Parts old new` says that a variable
or a value that ends before `old` ends before `new`, and `Curbs old new` that a type
constraint and the keyword do so as well.

Two changes of the text behind are of this kind.  It may be cut off anywhere
(`InContext.truncate`), blocks included: a shorter text completes fewer quotes.  And more
text may be added to it (`InContext.extend`), once it holds a character that ends both a
name and a number (`isDecisive`).  Blocks are then to be read whole whatever follows them.

A parameter that is read alone is so read before any text that goes on with neither a name
nor a number (`Param.extend`), and a signature before any text at all (`Tree.extend`).
-/
import MethodSignature.Proofs.Canonical

namespace MethodSignature.Grammar

set_option autoImplicit false

open Text

/-! ## Texts that go on no further -/

/-- A variable or a value that ends before `old` ends before `new`. -/
structure Parts (old new : Text) : Prop where
  names : Stops isNameChar old → Stops isNameChar new
  modifiers : Stops Quote.isPatternModifier old → Stops Quote.isPatternModifier new
  numerals : ∀ front, front.all Number.isNumeralChar = true → front <+: new → front <+: old

/-- So does a type constraint, and the keyword. -/
structure Curbs (old new : Text) : Prop extends Parts old new where
  types : TypeConstraint.NameStops old → TypeConstraint.NameStops new
  symbols : Stops TypeConstraint.isSymbol old → Stops TypeConstraint.isSymbol new

theorem curbs_truncate (text rest : Text) : Curbs (text ++ rest) text := by
  have sameHead : ∀ {inClass : Char → Bool}, Stops inClass (text ++ rest) → Stops inClass text := by
    intro inClass stops
    cases text with
    | nil => exact stops_nil _
    | cons c text => simpa using stops
  refine ⟨⟨sameHead, sameHead, ?_⟩, ?_, sameHead⟩
  · intro front _ inText
    exact inText.trans (List.prefix_append text rest)
  · intro ends
    obtain ⟨stops, colons⟩ := TypeConstraint.nameStops_iff.1 ends
    refine TypeConstraint.nameStops_iff.2 ⟨sameHead stops, ?_⟩
    rintro c more rfl
    exact colons c (more ++ rest) rfl

/-- A character that ends a name and a number, whatever stands behind it. -/
def isDecisive (c : Char) : Bool := c != ':' && !Number.isNumeralChar c

/-- Somewhere in the text a name or a number that begins it has ended. -/
def Decisive (text : Text) : Prop := text.any isDecisive = true

theorem decisive_append_left {text : Text} (h : Decisive text) (more : Text) :
    Decisive (text ++ more) := by
  unfold Decisive at h ⊢
  rw [List.any_append, h, Bool.true_or]

theorem decisive_append_right {more : Text} (h : Decisive more) (text : Text) :
    Decisive (text ++ more) := by
  unfold Decisive at h ⊢
  rw [List.any_append, h, Bool.or_true]

theorem curbs_extend {text : Text} (decisive : Decisive text) (more : Text) :
    Curbs text (text ++ more) := by
  obtain ⟨d, member, decides⟩ := List.any_eq_true.1 decisive
  simp only [isDecisive, Bool.and_eq_true, bne_iff_ne, Bool.not_eq_true'] at decides
  obtain ⟨noColon, noNumeral⟩ := decides
  have sameHead : ∀ {inClass : Char → Bool}, Stops inClass text → Stops inClass (text ++ more) := by
    intro inClass stops
    cases text with
    | nil => cases member
    | cons c text => simpa using stops
  refine ⟨⟨sameHead, sameHead, ?_⟩, ?_, sameHead⟩
  · intro front numeral inMore
    rcases List.prefix_or_prefix_of_prefix inMore (List.prefix_append text more) with
      inside | ⟨behind, rfl⟩
    · exact inside
    · have := List.all_eq_true.1 numeral d (List.mem_append_left _ member)
      simp [noNumeral] at this
  · intro ends
    obtain ⟨stops, colons⟩ := TypeConstraint.nameStops_iff.1 ends
    refine TypeConstraint.nameStops_iff.2 ⟨sameHead stops, ?_⟩
    intro c rest whole
    -- the text is not made of colons alone, so it holds what follows two of them
    match text, member with
    | [a], member => simp_all
    | [a, b], member => simp_all
    | a :: b :: c' :: text, member =>
        simp only [List.cons_append, List.cons.injEq] at whole
        obtain ⟨rfl, rfl, rfl, -⟩ := whole
        exact colons c' text rfl

/-- The text goes on with neither a name nor a number. -/
structure Parted (text : Text) : Prop where
  names : Stops isNameChar text
  numerals : Stops Number.isNumeralChar text

theorem parts_append {more : Text} (parted : Parted more) (text : Text) :
    Parts text (text ++ more) where
  names := fun stops => stops_append stops fun _ => parted.names
  modifiers := fun stops => stops_append stops fun _ => noModifier_of_noName parted.names
  numerals := by
    intro front numeral inMore
    rcases List.prefix_or_prefix_of_prefix inMore (List.prefix_append text more) with
      inside | ⟨behind, rfl⟩
    · exact inside
    · obtain ⟨rest, whole⟩ := inMore
      rw [List.append_assoc, List.append_cancel_left_eq] at whole
      cases behind with
      | nil => simp
      | cons c behind =>
          have stops := parted.numerals
          simp only [← whole, List.cons_append, stops_cons] at stops
          simp [stops] at numeral

/-! ## Pieces before other text -/

theorem readsAs_of_curbs {kind : Token.Kind} {literal old new : Text}
    (h : Token.ReadsAs kind literal old) (curbs : Curbs old new) :
    Token.ReadsAs kind literal new :=
  h.of_following curbs.types curbs.symbols curbs.names

theorem readsAs_of_parts {literal old new : Text}
    (h : Token.ReadsAs .variableName literal old) (parts : Parts old new) :
    Token.ReadsAs .variableName literal new :=
  Token.readsAs_variableName h.form.isVariable
    (parts.names (Token.stops_of_readsAs_variableName h))

theorem valueFits_of_parts {literal old new : Text} (h : ValueFits literal old)
    (parts : Parts old new) : ValueFits literal new := by
  rcases h with number | ⟨-, quote⟩ | ⟨-, -, reads⟩
  · have read := Number.scan_eq_present_iff.1 number
    exact .inl (Number.scan_eq_present_iff.2 (Number.read?_local read parts.numerals))
  · have isQuote := Quote.isQuote_of_scan quote
    refine .inr (.inl ⟨noNumber_of_quote isQuote new, Quote.scan_append_of_isQuote isQuote ?_⟩)
    intro more pattern
    exact parts.modifiers (Quote.stops_of_scan quote pattern)
  · obtain ⟨noNumber, noQuote⟩ := scans_of_isVariable reads.form.isVariable new
    exact .inr (.inr ⟨noNumber, noQuote, readsAs_of_parts reads parts⟩)

theorem Piece.fits_truncate {piece : Piece} {text rest : Text} (h : piece.Fits (text ++ rest)) :
    piece.Fits text := by
  cases piece with
  | token kind lexeme =>
      simp only [Piece.Fits, ← List.append_assoc] at h ⊢
      exact readsAs_of_curbs h (curbs_truncate (lexeme.behind ++ text) rest)
  | lineEnds run =>
      have noEnd := (Layout.lineEnds?_append_iff run.property).1 h
      exact (Layout.lineEnds?_append_iff run.property).2 (Layout.lineEnd?_truncate noEnd)
  | value spaced =>
      simp only [Piece.Fits, ← List.append_assoc] at h ⊢
      exact valueFits_of_parts h (curbs_truncate (spaced.behind ++ text) rest).toParts
  | block spaced =>
      simp only [Piece.Fits, ← List.append_assoc] at h
      rw [List.append_assoc spaced.literal] at h
      exact Block.scan_of_milder (Block.milder_truncate (spaced.behind ++ text) rest) h

/-- **The text behind may be cut off**: each piece is read as it stands before less text. -/
theorem InContext.truncate {pieces : List Piece} {text rest : Text}
    (h : InContext pieces (text ++ rest)) : InContext pieces text := by
  induction pieces with
  | nil => trivial
  | cons piece pieces ih =>
      obtain ⟨fits, others⟩ := h
      rw [← List.append_assoc] at fits
      exact ⟨Piece.fits_truncate fits, ih others⟩

/-! ## More text behind -/

theorem Spaced.lineEnd?_text {isLead form : Text → Prop} (spaced : Spaced isLead form)
    (blank : IsBlanks spaced.before)
    (head : ∃ c rest, spaced.literal = c :: rest ∧ isBlank c = false ∧ c ≠ '#') {old : Text}
    (h : Layout.lineEnd? (spaced.text ++ old) = none) (new : Text) :
    Layout.lineEnd? (spaced.text ++ new) = none := by
  obtain ⟨c, rest, same, solid, noComment⟩ := head
  simp only [Spaced.text, same, List.append_assoc, List.cons_append] at h ⊢
  exact Layout.lineEnd?_blanks blank solid noComment h _

/-- Whether a line ends at a piece shows in the piece itself. -/
theorem Piece.lineEnd?_text (piece : Piece) {old : Text}
    (h : Layout.lineEnd? (piece.text ++ old) = none) (new : Text) :
    Layout.lineEnd? (piece.text ++ new) = none := by
  cases piece with
  | token kind lexeme => exact lexeme.lineEnd?_text lexeme.lead.isBlanks lexeme.shape.head h new
  | lineEnds run => exact absurd h (run.property.lineEnd?_ne_none old)
  | value spaced => exact spaced.lineEnd?_text spaced.lead spaced.shape.head h new
  | block spaced =>
      obtain ⟨inside, body, -, opened, -⟩ := Block.scan_eq_present_iff.1 spaced.shape
      exact spaced.lineEnd?_text spaced.lead ⟨'{', inside, opened, by decide, by decide⟩ h new

/-- The blocks among the pieces are read whole whatever follows them. -/
def BlocksWhole (pieces : List Piece) : Prop :=
  ∀ spaced, .block spaced ∈ pieces → IsSelfContained spaced.literal

theorem Piece.fits_extend {piece : Piece} {text : Text} (h : piece.Fits text)
    (decisive : Decisive text) (whole : BlocksWhole [piece]) {more : Text}
    (noEnd : Layout.lineEnd? text = none → Layout.lineEnd? (text ++ more) = none) :
    piece.Fits (text ++ more) := by
  cases piece with
  | token kind lexeme =>
      simp only [Piece.Fits, ← List.append_assoc] at h ⊢
      exact readsAs_of_curbs h (curbs_extend (decisive_append_right decisive _) more)
  | lineEnds run =>
      have ended := (Layout.lineEnds?_append_iff run.property).1 h
      exact (Layout.lineEnds?_append_iff run.property).2 (noEnd ended)
  | value spaced =>
      simp only [Piece.Fits, ← List.append_assoc] at h ⊢
      exact valueFits_of_parts h (curbs_extend (decisive_append_right decisive _) more).toParts
  | block spaced => exact whole spaced (by simp) _

/-- **More text may follow** pieces that end every name and number before them. -/
theorem InContext.extend {front behind : List Piece} (h : InContext front (textOf behind))
    (decisive : Decisive (textOf behind)) (whole : BlocksWhole front) (more : Text) :
    InContext front (textOf behind ++ more) := by
  induction front with
  | nil => trivial
  | cons piece front ih =>
      obtain ⟨fits, others⟩ := h
      have wholeOthers : BlocksWhole front := fun spaced member =>
        whole spaced (List.mem_cons_of_mem _ member)
      refine ⟨?_, ih others wholeOthers⟩
      rw [← List.append_assoc]
      refine Piece.fits_extend fits (decisive_append_right decisive _) ?_ ?_
      · intro spaced member
        exact whole spaced (List.mem_cons.2 (.inl (List.mem_singleton.1 member)))
      · -- whether a line ends there is for the piece that follows to say
        rw [← textOf_append]
        cases following : front ++ behind with
        | nil => simp [List.append_eq_nil_iff.1 following, Decisive] at decisive
        | cons next pieces =>
            intro ended
            simp only [textOf_cons, List.append_assoc] at ended ⊢
            exact next.lineEnd?_text ended _

/-! ## Parameters -/

theorem fits_symbol (c : Char) {kind : Token.Kind} (symbol : Token.Kind.ofSymbol? c = some kind)
    (lexeme : Lexeme kind) (following : Text) : (Piece.token kind lexeme).Fits following := by
  show Token.ReadsAs kind lexeme.literal (lexeme.behind ++ following)
  rw [lexeme.shape.eq_symbol symbol]
  exact Token.readsAs_symbol symbol _

theorem decisive_symbol (c : Char) {kind : Token.Kind} (symbol : Token.Kind.ofSymbol? c = some kind)
    (decides : isDecisive c = true) (lexeme : Lexeme kind) : Decisive lexeme.text := by
  rw [Spaced.text, lexeme.shape.eq_symbol symbol]
  apply decisive_append_right
  apply decisive_append_left
  simp [Decisive, decides]

theorem decisive_variable (name : Lexeme .variableName) : Decisive name.text := by
  obtain ⟨sigil, first, rest, same, sigiled, -⟩ := name.shape.isVariable
  rw [Spaced.text, same]
  apply decisive_append_right
  have decides : isDecisive sigil = true := by
    rcases Token.isSigil_cases sigiled with rfl | rfl | rfl <;> decide
  simp [Decisive, decides]

theorem decisive_block (block : CodeBlock) : Decisive block.text := by
  obtain ⟨inside, body, -, opened, -⟩ := Block.scan_eq_present_iff.1 block.shape
  rw [Spaced.text, opened]
  apply decisive_append_right
  have decides : isDecisive '{' = true := by decide
  simp [Decisive, decides]

section Parted

variable {text following : Text}

theorem fits_variable {name : Lexeme .variableName} (h : (Piece.token .variableName name).Fits text)
    (parted : Parted following) : (Piece.token .variableName name).Fits (text ++ following) := by
  simp only [Piece.Fits, ← List.append_assoc] at h ⊢
  exact readsAs_of_parts h (parts_append parted _)

theorem fits_value {value : Value} (h : (Piece.value value).Fits text) (parted : Parted following) :
    (Piece.value value).Fits (text ++ following) := by
  simp only [Piece.Fits, ← List.append_assoc] at h ⊢
  exact valueFits_of_parts h (parts_append parted _)

end Parted

theorem Param.mem_constraints {param : Param} {spaced : CodeBlock}
    (h : .block spaced ∈ param.pieces) : spaced.literal ∈ param.value.constraints := by
  obtain ⟨alternation, subject, mark, default, constraints⟩ := param
  simp only [Param.pieces, Param.tail, List.mem_append, List.mem_flatMap] at h
  rcases h with inType | inSubject | inMark | inDefault | ⟨constraint, member, inside⟩
  · cases alternation <;> simp [optional, Alternation.pieces, Alternative.pieces] at inType
  · cases subject <;> simp [Subject.pieces] at inSubject
  · rcases mark with _ | _ | _ <;> simp [optional, Mark.pieces] at inMark
  · cases default <;> simp [optional, Default.pieces] at inDefault
  · simp only [Constraint.pieces, List.mem_cons, List.not_mem_nil, or_false, reduceCtorEq,
      Piece.block.injEq, false_or] at inside
    rw [inside]
    exact List.mem_map.2 ⟨constraint, member, rfl⟩

theorem constraints_extend {constraints : List Constraint}
    (h : InContext (constraints.flatMap Constraint.pieces) [])
    (whole : ∀ constraint ∈ constraints, IsSelfContained constraint.block.literal)
    (following : Text) : InContext (constraints.flatMap Constraint.pieces) following := by
  induction constraints with
  | nil => trivial
  | cons constraint constraints ih =>
      obtain ⟨keyword, block⟩ := constraint
      rw [List.flatMap_cons] at h ⊢
      obtain ⟨keywordFits, -, others⟩ := h
      let behind := .block block :: constraints.flatMap Constraint.pieces
      have keywordFits' : InContext [.token .whereKeyword keyword] (textOf behind) :=
        ⟨by simpa [behind] using keywordFits, trivial⟩
      have decisive : Decisive (textOf behind) := by
        rw [textOf_cons]
        exact decisive_append_left (decisive_block block) _
      have extended := keywordFits'.extend decisive (by simp [BlocksWhole]) following
      exact ⟨extended.1, whole ⟨keyword, block⟩ (by simp) _,
        ih others fun other member => whole other (List.mem_cons_of_mem _ member)⟩

/-- What stands before the core of a subject. -/
theorem Subject.exists_lead (subject : Subject) :
    ∃ lead, subject.pieces = lead ++ subject.core ∧ BlocksWhole lead := by
  cases subject with
  | positional name => exact ⟨[], rfl, by simp [BlocksWhole]⟩
  | named colon name => exact ⟨[.token .colon colon], rfl, by simp [BlocksWhole]⟩
  | labelled colon label plain opening name closing =>
      exact ⟨[.token .colon colon, .token .typeName label, .token .openParen opening], rfl,
        by simp [BlocksWhole]⟩

theorem decisive_core (subject : Subject) : Decisive (textOf subject.core) := by
  cases subject <;> exact decisive_append_left (decisive_variable _) _

theorem core_extend {subject : Subject} {text following : Text} (h : InContext subject.core text)
    (parted : Parted following) : InContext subject.core (text ++ following) := by
  cases subject with
  | positional name | named colon name =>
      have nameFits := fits_variable h.1 parted
      exact ⟨nameFits, trivial⟩
  | labelled colon label plain opening name closing =>
      have nameFits := fits_variable h.1 parted
      rw [List.append_assoc] at nameFits
      exact ⟨nameFits, fits_symbol ')' rfl closing _, trivial⟩

theorem tail_extend {param : Param} {following : Text} (h : InContext param.tail [])
    (parted : Parted following)
    (whole : ∀ block ∈ param.value.constraints, IsSelfContained block) :
    InContext param.tail following := by
  obtain ⟨-, behindMark⟩ := inContext_append.1 h
  obtain ⟨defaulted, constrained⟩ := inContext_append.1 behindMark
  refine inContext_append.2 ⟨?_, inContext_append.2 ⟨?_, constraints_extend constrained ?_ following⟩⟩
  · rcases param.mark with _ | sign | sign
    · trivial
    · exact ⟨fits_symbol '?' rfl sign _, trivial⟩
    · exact ⟨fits_symbol '!' rfl sign _, trivial⟩
  · cases default : param.default with
    | none => trivial
    | some part =>
        simp only [default, optional, Default.pieces, List.append_nil] at defaulted ⊢
        have valueFits := fits_value defaulted.2.1 parted
        exact ⟨fits_symbol '=' rfl part.equals _, valueFits, trivial⟩
  · intro constraint member
    exact whole _ (List.mem_map.2 ⟨constraint, member, rfl⟩)

/-- **A parameter that is read alone** is so read before any text that goes on with neither
a name nor a number. -/
theorem Param.extend {param : Param} {following : Text} (h : InContext param.pieces [])
    (parted : Parted following)
    (whole : ∀ block ∈ param.value.constraints, IsSelfContained block) :
    InContext param.pieces following := by
  obtain ⟨lead, split, noBlock⟩ := param.subject.exists_lead
  have parts : param.pieces = (optional Alternation.pieces param.alternation ++ lead) ++
      (param.subject.core ++ param.tail) := by
    simp [Param.pieces, split]
  have wholeFront : BlocksWhole (optional Alternation.pieces param.alternation ++ lead) := by
    intro spaced member
    exact whole _ (Param.mem_constraints (by rw [parts]; exact List.mem_append_left _ member))
  rw [parts] at h ⊢
  obtain ⟨front, behind⟩ := inContext_append.1 h
  obtain ⟨core, tail⟩ := inContext_append.1 behind
  rw [List.append_nil] at front core
  have decisive : Decisive (textOf (param.subject.core ++ param.tail)) := by
    rw [textOf_append]
    exact decisive_append_left (decisive_core param.subject) _
  exact inContext_append.2 ⟨front.extend decisive wholeFront following,
    inContext_append.2 ⟨core_extend core parted, tail_extend tail parted whole⟩⟩

/-! ## Signatures -/

theorem Tree.mem_constraints {tree : Tree} {spaced : CodeBlock} (h : .block spaced ∈ tree.pieces) :
    ∃ parameter ∈ tree.value.everyParam, spaced.literal ∈ parameter.constraints := by
  obtain ⟨opening, layout, invocant, params, closing⟩ := tree
  have noLayout : ∀ {layout : Option LineEnds}, .block spaced ∉ layoutPieces layout := by
    intro layout
    cases layout <;> simp [layoutPieces, optional]
  have noSeparator : ∀ {separator : Separator}, .block spaced ∉ separator.pieces := by
    intro separator
    cases separator <;> simp [Separator.pieces, noLayout]
  simp only [Tree.pieces, List.mem_cons, List.mem_append, reduceCtorEq, noLayout, false_or,
    List.not_mem_nil, or_false] at h
  rcases h with inInvocant | inParams
  · cases invocant with
    | none => simp [optional] at inInvocant
    | some invocant =>
        simp only [optional, Invocant.pieces, List.mem_append, List.mem_cons, reduceCtorEq,
          noLayout, or_false] at inInvocant
        refine ⟨invocant.param.value, ?_, Param.mem_constraints inInvocant⟩
        simp [Signature.everyParam, Tree.value, Tree.invocantValue, Signature.assemble]
  · cases params with
    | none => simp [optional] at inParams
    | some params =>
        simp only [optional, Params.pieces, followingPieces, List.mem_append, List.mem_flatMap,
          noLayout, or_false] at inParams
        rcases inParams with inFirst | ⟨⟨separator, param⟩, member, inPieces⟩
        · refine ⟨params.first.value, ?_, Param.mem_constraints inFirst⟩
          simp [Signature.everyParam, Tree.value, Tree.paramValues, Signature.assemble,
            Params.values]
        · simp only [noSeparator, false_or] at inPieces
          refine ⟨param.value, ?_, Param.mem_constraints inPieces⟩
          simp only [Signature.everyParam, Tree.value, Tree.paramValues, Signature.assemble,
            Params.values, Option.map_some, Option.getD_some, List.mem_append, List.mem_cons,
            List.mem_map]
          exact .inr (.inr ⟨(separator, param), member, rfl⟩)

/-- **A signature that is read alone** is so read before any text at all: its closing
parenthesis ends all that stands before it. -/
theorem Tree.extend {tree : Tree} (h : InContext tree.pieces [])
    (whole : ∀ parameter ∈ tree.value.everyParam,
      ∀ block ∈ parameter.constraints, IsSelfContained block) (following : Text) :
    InContext tree.pieces following := by
  have split : ∃ front, tree.pieces = front ++ [.token .closeParen tree.closing] :=
    ⟨.token .openParen tree.opening :: (layoutPieces tree.layout ++
      (optional Invocant.pieces tree.invocant ++ optional Params.pieces tree.params)),
      by simp [Tree.pieces]⟩
  obtain ⟨front, parts⟩ := split
  have wholeFront : BlocksWhole front := by
    intro spaced member
    have inTree : .block spaced ∈ tree.pieces := by
      rw [parts]
      exact List.mem_append_left _ member
    obtain ⟨parameter, isParam, isBlock⟩ := Tree.mem_constraints inTree
    exact whole parameter isParam _ isBlock
  rw [parts] at h ⊢
  obtain ⟨inFront, -⟩ := inContext_append.1 h
  rw [List.append_nil] at inFront
  have decisive : Decisive (textOf [.token .closeParen tree.closing]) := by
    rw [textOf_cons]
    exact decisive_append_left (decisive_symbol ')' rfl (by decide) tree.closing) _
  exact inContext_append.2 ⟨inFront.extend decisive wholeFront following,
    fits_symbol ')' rfl tree.closing _, trivial⟩

end MethodSignature.Grammar
