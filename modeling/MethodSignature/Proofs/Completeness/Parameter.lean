/-
# MethodSignature.Proofs.Completeness.Parameter -- what is written of a parameter is read

Where a lexer faces the pieces of a part and each is read as it stands, reading that part
takes those pieces and answers what the part means (`Reads`).  Whether a part that may be
absent is there shows by the kind of the next token (`Avoids`).
-/
import MethodSignature.Declaration
import MethodSignature.Proofs.Block
import MethodSignature.Proofs.Lexer
import MethodSignature.Proofs.Value

namespace MethodSignature.Grammar

set_option autoImplicit false

open Text

variable {α τ : Type}

/-- Before the pieces, reading takes them, answers `value` and stands before what
follows. -/
def Reads (reading : Reading α) (pieces : List Piece) (value : α) (following : Text) : Prop :=
  ∀ ⦃lexer : Lexer⦄, lexer.Faces (textOf pieces ++ following) →
    ∃ after, reading lexer = .ok value after ∧ after.Faces following

/-- The next token is of none of the kinds. -/
def Avoids (text : Text) (kinds : List Token.Kind) : Prop :=
  ∃ kind, Token.kind? text = some kind ∧ kind ∉ kinds

theorem Avoids.mono {text : Text} {kinds fewer : List Token.Kind} (h : Avoids text kinds)
    (subset : fewer ⊆ kinds) : Avoids text fewer := by
  obtain ⟨kind, shown, outside⟩ := h
  exact ⟨kind, shown, fun member => outside (subset member)⟩

/-! ## Tokens -/

section Tokens

variable {kind : Token.Kind} {lexeme : Lexeme kind} {pieces : List Piece} {following : Text}
  {lexer : Lexer}

theorem kind?_token (inContext : InContext (.token kind lexeme :: pieces) following) :
    Token.kind? (textOf (.token kind lexeme :: pieces) ++ following) = some kind := by
  have known := Token.kind?_of_readsAs lexeme.lead lexeme.shape inContext.1
  simpa [Piece.text, Spaced.text] using known

theorem avoids_token (inContext : InContext (.token kind lexeme :: pieces) following)
    {kinds : List Token.Kind} (outside : kind ∉ kinds) :
    Avoids (textOf (.token kind lexeme :: pieces) ++ following) kinds :=
  ⟨kind, kind?_token inContext, outside⟩

/-- What is left behind a token, up to inline blanks. -/
theorem faces_literal (faces : lexer.Faces (textOf (.token kind lexeme :: pieces) ++ following)) :
    lexer.Faces (lexeme.literal ++ (lexeme.behind ++ (textOf pieces ++ following))) := by
  refine faces.congr ?_
  simp only [textOf_cons, Piece.text, Spaced.text, List.append_assoc]
  exact trim_append lexeme.lead _

theorem accept_token (inContext : InContext (.token kind lexeme :: pieces) following)
    (faces : lexer.Faces (textOf (.token kind lexeme :: pieces) ++ following)) :
    ∃ token next, Reading.accept kind lexer = .ok (some token) ⟨[], next⟩ ∧
      token.literal = lexeme.literal ∧ next.rest = trim (textOf pieces ++ following) := by
  obtain ⟨token, next, accepted, literal, rest⟩ :=
    accept_of_readsAs (faces_literal faces) lexeme.shape inContext.1
  exact ⟨token, next, accepted, literal, by rw [rest, trim_append lexeme.inline]⟩

theorem expect_token (inContext : InContext (.token kind lexeme :: pieces) following)
    (faces : lexer.Faces (textOf (.token kind lexeme :: pieces) ++ following)) :
    ∃ token next, Reading.expect kind lexer = .ok token ⟨[], next⟩ ∧
      token.literal = lexeme.literal ∧ next.rest = trim (textOf pieces ++ following) := by
  obtain ⟨token, next, expected, literal, rest⟩ :=
    expect_of_readsAs (faces_literal faces) lexeme.shape inContext.1
  exact ⟨token, next, expected, literal, by rw [rest, trim_append lexeme.inline]⟩

theorem faces_of_trim {cursor : Cursor} {text : Text} (rest : cursor.rest = trim text) :
    Lexer.Faces ⟨[], cursor⟩ text :=
  faces_of_rest (by rw [rest, trim_trim])

end Tokens

theorem accept_of_avoids (kind : Token.Kind) {lexer : Lexer} {text : Text} {kinds : List Token.Kind}
    (avoids : Avoids text kinds) (member : kind ∈ kinds) (faces : lexer.Faces text) :
    ∃ after, Reading.accept kind lexer = .ok none after ∧ after.Faces text := by
  obtain ⟨shown, isShown, outside⟩ := avoids
  exact accept_of_kind?_ne faces isShown fun same => outside (same ▸ member)

/-! ## Parts that may be absent, and repeated parts -/

/-- Each part begins with a token of one kind. -/
def Begins (pieces : τ → List Piece) (kind : Token.Kind) : Prop :=
  ∀ part, ∃ lexeme more, pieces part = .token kind lexeme :: more

theorem avoids_optional {pieces : τ → List Piece} {kind : Token.Kind} (begins : Begins pieces kind)
    {kinds : List Token.Kind} (outside : kind ∉ kinds) {part : Option τ} {following : Text}
    (inContext : InContext (optional pieces part) following) (avoids : Avoids following kinds) :
    Avoids (textOf (optional pieces part) ++ following) kinds := by
  cases part with
  | none => exact avoids
  | some part =>
      obtain ⟨lexeme, more, same⟩ := begins part
      simp only [optional, same] at inContext ⊢
      exact avoids_token inContext outside

theorem avoids_flatMap {pieces : τ → List Piece} {kind : Token.Kind} (begins : Begins pieces kind)
    {kinds : List Token.Kind} (outside : kind ∉ kinds) {parts : List τ} {following : Text}
    (inContext : InContext (parts.flatMap pieces) following) (avoids : Avoids following kinds) :
    Avoids (textOf (parts.flatMap pieces) ++ following) kinds := by
  cases parts with
  | nil => exact avoids
  | cons part parts =>
      obtain ⟨lexeme, more, same⟩ := begins part
      simp only [List.flatMap_cons, same, List.cons_append] at inContext ⊢
      exact avoids_token inContext outside

/-- A step that takes one part at a time, and stops behind the last, takes them all. -/
theorem manyFrom_reads {step : Reading (Option α)} {pieces : τ → List Piece} {value : τ → α}
    {following : Text}
    (reads : ∀ part following, InContext (pieces part) following →
      Reads step (pieces part) (some (value part)) following)
    (stops : Reads step [] none following) {parts : List τ} {fuel : Nat}
    (enough : parts.length < fuel) (inContext : InContext (parts.flatMap pieces) following) :
    Reads (Reading.manyFrom step fuel) (parts.flatMap pieces) (parts.map value) following := by
  induction parts generalizing fuel with
  | nil =>
      intro lexer faces
      obtain ⟨fuel, rfl⟩ : ∃ less, fuel = less + 1 := ⟨fuel - 1, by simp at enough; omega⟩
      obtain ⟨after, stepped, faces'⟩ := stops faces
      exact ⟨after, Reading.bind_eq_ok_iff.2 ⟨none, after, stepped, rfl⟩, faces'⟩
  | cons part parts ih =>
      intro lexer faces
      obtain ⟨fuel, rfl⟩ : ∃ less, fuel = less + 1 := ⟨fuel - 1, by simp at enough; omega⟩
      rw [List.flatMap_cons] at inContext faces
      obtain ⟨first, others⟩ := inContext_append.1 inContext
      rw [textOf_append, List.append_assoc] at faces
      obtain ⟨between, stepped, faces'⟩ := reads part _ first faces
      obtain ⟨after, rest, faces''⟩ := ih (Nat.lt_of_succ_lt_succ enough) others faces'
      refine ⟨after, Reading.bind_eq_ok_iff.2 ⟨some (value part), between, stepped, ?_⟩, faces''⟩
      exact Reading.bind_eq_ok_iff.2 ⟨parts.map value, after, rest, rfl⟩

/-- Each part leaves ink, so the text bounds their number. -/
theorem length_le_ink {pieces : τ → List Piece} (inked : ∀ part, 0 < ink (textOf (pieces part)))
    (parts : List τ) : parts.length ≤ ink (textOf (parts.flatMap pieces)) := by
  induction parts with
  | nil => simp
  | cons part parts ih =>
      have := inked part
      simp only [List.flatMap_cons, textOf_append, ink_append, List.length_cons]
      omega

theorem many_reads {step : Reading (Option α)} {pieces : τ → List Piece} {value : τ → α}
    {following : Text}
    (reads : ∀ part following, InContext (pieces part) following →
      Reads step (pieces part) (some (value part)) following)
    (stops : Reads step [] none following) (inked : ∀ part, 0 < ink (textOf (pieces part)))
    {parts : List τ} (inContext : InContext (parts.flatMap pieces) following) :
    Reads (Reading.many step) (parts.flatMap pieces) (parts.map value) following := by
  intro lexer faces
  have enough : parts.length < lexer.remaining.length + 1 := by
    have bound := length_le_ink inked parts
    have inside := faces.ink_le
    rw [ink_append] at inside
    omega
  exact manyFrom_reads reads stops enough inContext faces

theorem begins_ink {pieces : τ → List Piece} {kind : Token.Kind} (begins : Begins pieces kind)
    (part : τ) : 0 < ink (textOf (pieces part)) := by
  obtain ⟨lexeme, more, same⟩ := begins part
  rw [same]
  exact ink_token_pos lexeme more

/-! ## The parts of a parameter -/

theorem begins_alternative : Begins Alternative.pieces .pipe :=
  fun alternative => ⟨alternative.pipe, _, rfl⟩

theorem begins_default : Begins Default.pieces .equals := fun default => ⟨default.equals, _, rfl⟩

theorem begins_constraint : Begins Constraint.pieces .whereKeyword :=
  fun constraint => ⟨constraint.keyword, _, rfl⟩

/-- A step that begins by accepting a token answers nothing where there is none. -/
theorem reads_none {kind : Token.Kind} {rest : Token → Reading (Option α)} {following : Text}
    {kinds : List Token.Kind} (avoids : Avoids following kinds) (member : kind ∈ kinds) :
    Reads (do
      match ← Reading.accept kind with
      | none => return none
      | some token => rest token) [] none following := by
  intro lexer faces
  obtain ⟨after, accepted, faces'⟩ := accept_of_avoids kind avoids member faces
  exact ⟨after, Reading.bind_ok accepted rfl, faces'⟩

theorem alternative?_reads (alternative : Alternative) (following : Text)
    (inContext : InContext alternative.pieces following) :
    Reads Declaration.alternative? alternative.pieces (some ('|' :: alternative.member.literal))
      following := by
  intro lexer faces
  obtain ⟨sign, next, accepted, -, rest⟩ := accept_token inContext faces
  obtain ⟨token, next', expected, literal, rest'⟩ := expect_token inContext.2 (faces_of_trim rest)
  refine ⟨⟨[], next'⟩, Reading.bind_ok accepted (Reading.bind_ok expected ?_), faces_of_trim rest'⟩
  rw [literal]
  rfl

theorem typeConstraint?_reads {alternation : Option Alternation} {following : Text}
    (inContext : InContext (optional Alternation.pieces alternation) following)
    (avoids : Avoids following [.typeName, .pipe]) :
    Reads Declaration.typeConstraint? (optional Alternation.pieces alternation)
      (alternation.map Alternation.value) following := by
  cases alternation with
  | none => exact reads_none avoids (by simp)
  | some alternation =>
      intro lexer faces
      obtain ⟨token, next, accepted, literal, rest⟩ := accept_token inContext faces
      have stops : Reads Declaration.alternative? [] none following := reads_none avoids (by simp)
      obtain ⟨after, repeated, faces'⟩ := many_reads alternative?_reads stops
        (begins_ink begins_alternative) inContext.2 (faces_of_trim rest)
      refine ⟨after, Reading.bind_ok accepted (Reading.bind_ok repeated ?_), faces'⟩
      refine Reading.pure_eq_ok_iff.2 ⟨?_, rfl⟩
      simp [Alternation.value, literal, List.flatMap]

/-- What stands behind the lead of a subject. -/
def Subject.core : Subject → List Piece
  | .positional name | .named _ name => [.token .variableName name]
  | .labelled _ _ _ _ name closing => [.token .variableName name, .token .closeParen closing]

theorem Subject.inContext_core {subject : Subject} {following : Text}
    (inContext : InContext subject.pieces following) : InContext subject.core following := by
  cases subject with
  | positional name => exact inContext
  | named colon name => exact inContext.2
  | labelled colon label plain opening name closing => exact inContext.2.2.2

theorem style_reads {subject : Subject} {following : Text}
    (inContext : InContext subject.pieces following) {lexer : Lexer}
    (faces : lexer.Faces (textOf subject.pieces ++ following)) :
    ∃ after, Declaration.style lexer = .ok subject.style after ∧
      after.Faces (textOf subject.core ++ following) := by
  cases subject with
  | positional name =>
      have avoids : Avoids _ [Token.Kind.colon] := avoids_token inContext (by decide)
      obtain ⟨after, accepted, faces'⟩ := accept_of_avoids .colon avoids (by simp) faces
      exact ⟨after, Reading.bind_ok accepted rfl, faces'⟩
  | named colon name =>
      obtain ⟨token, next, accepted, -, rest⟩ := accept_token inContext faces
      have avoids : Avoids _ [Token.Kind.typeName] := avoids_token inContext.2 (by decide)
      obtain ⟨after, accepted', faces'⟩ := accept_of_avoids .typeName avoids (by simp)
        (faces_of_trim rest)
      exact ⟨after, Reading.bind_ok accepted (Reading.bind_ok accepted' rfl), faces'⟩
  | labelled colon label plain opening name closing =>
      obtain ⟨token, next, accepted, -, rest⟩ := accept_token inContext faces
      obtain ⟨token', next', accepted', literal, rest'⟩ :=
        accept_token inContext.2 (faces_of_trim rest)
      obtain ⟨token'', next'', expected, -, rest''⟩ :=
        expect_token inContext.2.2 (faces_of_trim rest')
      refine ⟨⟨[], next''⟩, Reading.bind_ok accepted (Reading.bind_ok accepted' ?_),
        faces_of_trim rest''⟩
      rw [← literal] at plain
      simp only [plain, if_true]
      exact Reading.bind_ok expected (by rw [literal]; rfl)

theorem variableName_reads {subject : Subject} {following : Text}
    (inContext : InContext subject.core following) :
    Reads (Declaration.variableName subject.style) subject.core subject.variableName following := by
  intro lexer faces
  cases subject with
  | positional name =>
      obtain ⟨token, next, expected, literal, rest⟩ := expect_token inContext faces
      exact ⟨⟨[], next⟩, Reading.bind_ok expected (by rw [literal]; rfl), faces_of_trim rest⟩
  | named colon name =>
      obtain ⟨token, next, expected, literal, rest⟩ := expect_token inContext faces
      exact ⟨⟨[], next⟩, Reading.bind_ok expected (by rw [literal]; rfl), faces_of_trim rest⟩
  | labelled colon label plain opening name closing =>
      obtain ⟨token, next, expected, literal, rest⟩ := expect_token inContext faces
      obtain ⟨token', next', expected', -, rest'⟩ := expect_token inContext.2 (faces_of_trim rest)
      refine ⟨⟨[], next'⟩, Reading.bind_ok expected (Reading.bind_ok expected' ?_),
        faces_of_trim rest'⟩
      rw [literal]
      rfl

theorem requirement_reads (style : Parameter.Style) {mark : Option Mark} {following : Text}
    (inContext : InContext (optional Mark.pieces mark) following)
    (avoids : Avoids following [.question, .bang]) :
    Reads (Declaration.requirement style) (optional Mark.pieces mark) (required style mark)
      following := by
  intro lexer faces
  cases mark with
  | none =>
      obtain ⟨between, accepted, faces'⟩ := accept_of_avoids .question avoids (by simp) faces
      obtain ⟨after, accepted', faces''⟩ := accept_of_avoids .bang avoids (by simp) faces'
      rw [required_none]
      exact ⟨after, Reading.bind_ok accepted (Reading.bind_ok accepted' rfl), faces''⟩
  | some mark =>
      cases mark with
      | optional sign =>
          obtain ⟨token, next, accepted, -, rest⟩ := accept_token inContext faces
          exact ⟨⟨[], next⟩, Reading.bind_ok accepted rfl, faces_of_trim rest⟩
      | required sign =>
          have notOptional : Avoids _ [Token.Kind.question] := avoids_token inContext (by decide)
          obtain ⟨between, accepted, faces'⟩ := accept_of_avoids .question notOptional (by simp) faces
          obtain ⟨token, next, accepted', -, rest⟩ := accept_token inContext faces'
          exact ⟨⟨[], next⟩, Reading.bind_ok accepted (Reading.bind_ok accepted' rfl),
            faces_of_trim rest⟩

/-! ## Values and blocks -/

theorem blanks_reads {before body : Text} (blank : IsBlanks before) (stops : Stops isBlank body)
    {cursor : Cursor} (rest : cursor.rest = trim (before ++ body)) :
    ∃ taken, Reading.scan Reading.blanks ⟨[], cursor⟩ = .ok () ⟨[], cursor.advance taken body⟩ := by
  refine ⟨(cut isBlank cursor.rest).1, scan_eq_ok_iff.2 ⟨_, body, ?_, rfl⟩⟩
  have left := cut_isBlank_trim blank stops
  rw [← rest] at left
  simp only [Reading.blanks, left]

theorem value_reads {value : Value} {following : Text}
    (inContext : InContext [.value value] following) {cursor : Cursor}
    (rest : cursor.rest = trim (textOf [.value value] ++ following)) :
    ∃ after, Declaration.value ⟨[], cursor⟩ = .ok value.literal after ∧ after.Faces following := by
  obtain ⟨before, literal, behind, blank, inline, isValue⟩ := value
  have fits : ValueFits literal (behind ++ following) := by simpa [Piece.Fits] using inContext.1
  have whole : textOf [.value ⟨before, literal, behind, blank, inline, isValue⟩] ++ following =
      before ++ (literal ++ (behind ++ following)) := by simp [Piece.text, Spaced.text]
  rw [whole] at rest
  obtain ⟨taken, blanked⟩ := blanks_reads blank (isValue.isSolid.stops _) rest
  have behindFaces : ∀ cursor : Cursor, cursor.rest = behind ++ following →
      Lexer.Faces ⟨[], cursor⟩ following := by
    intro cursor place
    exact faces_of_rest (by rw [place, trim_append inline])
  rcases fits with number | ⟨noNumber, quote⟩ | ⟨noNumber, noQuote, reads⟩
  · refine ⟨_, Reading.bind_ok blanked (Reading.bind_ok
      (scan_eq_ok_iff.2 ⟨_, _, number, rfl⟩) rfl), behindFaces _ rfl⟩
  · refine ⟨_, Reading.bind_ok blanked (Reading.bind_ok (scan_eq_ok_iff.2 ⟨_, _, noNumber, rfl⟩)
      (Reading.bind_ok (scan_eq_ok_iff.2 ⟨_, _, quote, rfl⟩) rfl)), behindFaces _ rfl⟩
  · have faces : Lexer.Faces ⟨[], ((cursor.advance taken (literal ++ (behind ++ following))).advance []
        (literal ++ (behind ++ following))).advance [] (literal ++ (behind ++ following))⟩
        (literal ++ (behind ++ following)) := faces_of_rest rfl
    obtain ⟨token, next, accepted, isLiteral, rest'⟩ :=
      accept_of_readsAs faces reads.form reads
    refine ⟨⟨[], next⟩, Reading.bind_ok blanked (Reading.bind_ok
      (scan_eq_ok_iff.2 ⟨_, _, noNumber, rfl⟩) (Reading.bind_ok
        (scan_eq_ok_iff.2 ⟨_, _, noQuote, rfl⟩) (Reading.bind_ok accepted ?_))), ?_⟩
    · exact Reading.pure_eq_ok_iff.2 ⟨isLiteral, rfl⟩
    · exact faces_of_rest (by rw [rest', trim_trim, trim_append inline])

theorem block_reads {block : CodeBlock} {following : Text}
    (inContext : InContext [.block block] following) {cursor : Cursor}
    (rest : cursor.rest = trim (textOf [.block block] ++ following)) :
    ∃ after, Declaration.block ⟨[], cursor⟩ = .ok block.literal after ∧ after.Faces following := by
  obtain ⟨before, literal, behind, blank, inline, isBlock⟩ := block
  have found : Block.scan (literal ++ (behind ++ following)) =
      .present literal (behind ++ following) := by simpa [Piece.Fits] using inContext.1
  have whole : textOf [.block ⟨before, literal, behind, blank, inline, isBlock⟩] ++ following =
      before ++ (literal ++ (behind ++ following)) := by simp [Piece.text, Spaced.text]
  rw [whole] at rest
  obtain ⟨inside, body, opened, rfl, -⟩ := Block.scan_eq_present_iff.1 found
  have stops : Stops isBlank ('{' :: inside ++ (behind ++ following)) := by
    rw [List.cons_append, stops_cons]
    decide
  obtain ⟨taken, blanked⟩ := blanks_reads blank stops rest
  have next : Lexer.Faces ⟨[], (cursor.advance taken ('{' :: inside ++ (behind ++ following))).advance
      ('{' :: inside) (behind ++ following)⟩ following := faces_of_rest (trim_append inline following)
  refine ⟨_, Reading.bind_ok blanked (Reading.bind_ok rfl ?_), next⟩
  exact Reading.bind_ok (scan_eq_ok_iff.2 ⟨_, _, found, rfl⟩) rfl

theorem defaultValue?_reads {default : Option Default} {following : Text}
    (inContext : InContext (optional Default.pieces default) following)
    (avoids : Avoids following [.equals]) :
    Reads Declaration.defaultValue? (optional Default.pieces default)
      (default.map fun default => default.value.literal) following := by
  cases default with
  | none => exact reads_none avoids (by simp)
  | some default =>
      intro lexer faces
      obtain ⟨token, next, accepted, -, rest⟩ := accept_token inContext faces
      obtain ⟨after, scanned, faces'⟩ := value_reads inContext.2 rest
      exact ⟨after, Reading.bind_ok accepted (Reading.bind_ok scanned rfl), faces'⟩

theorem constraint?_reads (constraint : Constraint) (following : Text)
    (inContext : InContext constraint.pieces following) :
    Reads Declaration.constraint? constraint.pieces (some constraint.block.literal) following := by
  intro lexer faces
  obtain ⟨token, next, accepted, -, rest⟩ := accept_token inContext faces
  obtain ⟨after, scanned, faces'⟩ := block_reads inContext.2 rest
  exact ⟨after, Reading.bind_ok accepted (Reading.bind_ok scanned rfl), faces'⟩

/-! ## Whole parameters -/

/-- The tokens that go on with a parameter. -/
def continuing : List Token.Kind := [.question, .bang, .equals, .whereKeyword]

/-- The tokens a parameter begins with. -/
def beginning : List Token.Kind := [.typeName, .colon, .variableName]

theorem readRest_reads {param : Param} {following : Text}
    (inContext : InContext (param.subject.core ++ param.tail) following)
    (avoids : Avoids following continuing) {lexer : Lexer} (offset : Nat)
    (faces : lexer.Faces (textOf (param.subject.core ++ param.tail) ++ following)) :
    ∃ after, Declaration.readRest offset (param.alternation.map Alternation.value)
        param.subject.style lexer = .ok ⟨offset, param.value⟩ after ∧ after.Faces following := by
  obtain ⟨alternation, subject, mark, default, constraints⟩ := param
  simp only [Param.tail] at inContext faces
  obtain ⟨named, inContext⟩ := inContext_append.1 inContext
  obtain ⟨marked, inContext⟩ := inContext_append.1 inContext
  obtain ⟨defaulted, constrained⟩ := inContext_append.1 inContext
  simp only [textOf_append, List.append_assoc] at faces named marked defaulted
  -- what follows each part does not go on with it
  have beforeConstraints : Avoids _ [.question, .bang, .equals] :=
    avoids_flatMap begins_constraint (by decide) constrained (avoids.mono (by decide))
  have beforeDefault : Avoids _ [.question, .bang] :=
    avoids_optional begins_default (by decide) defaulted (beforeConstraints.mono (by decide))
  obtain ⟨lexer₁, nameRead, faces₁⟩ := variableName_reads named faces
  obtain ⟨lexer₂, markRead, faces₂⟩ := requirement_reads subject.style marked beforeDefault faces₁
  obtain ⟨lexer₃, defaultRead, faces₃⟩ :=
    defaultValue?_reads defaulted (beforeConstraints.mono (by decide)) faces₂
  have stops : Reads Declaration.constraint? [] none following := reads_none avoids (by decide)
  obtain ⟨lexer₄, constraintsRead, faces₄⟩ :=
    many_reads constraint?_reads stops (begins_ink begins_constraint) constrained faces₃
  exact ⟨lexer₄, Reading.bind_ok nameRead (Reading.bind_ok markRead
    (Reading.bind_ok defaultRead (Reading.bind_ok constraintsRead rfl))), faces₄⟩

theorem avoids_subject {subject : Subject} {following : Text}
    (inContext : InContext subject.pieces following) :
    Avoids (textOf subject.pieces ++ following) [.typeName, .pipe] := by
  cases subject <;> exact avoids_token inContext (by decide)

theorem peek_of_kind? {lexer : Lexer} {text : Text} {kind : Token.Kind} (faces : lexer.Faces text)
    (shown : Token.kind? text = some kind) :
    ∃ token after, Lexer.peek 0 lexer = .ok token after ∧ after.Faces text := by
  obtain ⟨cursor, token, next, stands, place, shows, -⟩ := faces.shows shown
  exact ⟨token, _, (peek_eq_ok_iff stands).2 ⟨next, shows, rfl⟩, cursor, .looked shows, place⟩

/-- **Reading a parameter** that is written takes it. -/
theorem read?_reads {param : Param} {following : Text} (inContext : InContext param.pieces following)
    (avoids : Avoids following continuing) {lexer : Lexer}
    (faces : lexer.Faces (textOf param.pieces ++ following)) :
    ∃ declaration after, Declaration.read? lexer = .ok (some declaration) after ∧
      declaration.parameter = param.value ∧ after.Faces following := by
  have split := inContext
  simp only [Param.pieces] at split faces
  obtain ⟨typed, split⟩ := inContext_append.1 split
  obtain ⟨styled, tail⟩ := inContext_append.1 split
  rw [textOf_append, List.append_assoc] at faces
  have core : InContext (param.subject.core ++ param.tail) following :=
    inContext_append.2 ⟨Subject.inContext_core styled, tail⟩
  have beforeSubject : Avoids (textOf (param.subject.pieces ++ param.tail) ++ following)
      [.typeName, .pipe] := by
    rw [textOf_append, List.append_assoc]
    exact avoids_subject styled
  obtain ⟨kind, shown⟩ : ∃ kind, Token.kind? (textOf (optional Alternation.pieces param.alternation) ++
      (textOf (param.subject.pieces ++ param.tail) ++ following)) = some kind := by
    cases h : param.alternation with
    | none =>
        obtain ⟨kind, shown, -⟩ := beforeSubject
        exact ⟨kind, shown⟩
    | some alternation =>
        rw [h] at typed
        exact ⟨_, kind?_token typed⟩
  obtain ⟨first, lexer₁, peeked, faces₁⟩ := peek_of_kind? faces shown
  obtain ⟨lexer₂, typeRead, faces₂⟩ := typeConstraint?_reads typed beforeSubject faces₁
  rw [textOf_append, List.append_assoc] at faces₂
  obtain ⟨lexer₃, styleRead, faces₃⟩ := style_reads styled faces₂
  rw [← List.append_assoc, ← textOf_append] at faces₃
  by_cases certain : ((param.alternation.map Alternation.value).isSome ||
      param.subject.style.isNamed) = true
  · obtain ⟨after, restRead, faces₄⟩ := readRest_reads core avoids first.offset faces₃
    refine ⟨⟨first.offset, param.value⟩, after, Reading.bind_ok peeked (Reading.bind_ok typeRead
      (Reading.bind_ok styleRead ?_)), rfl, faces₄⟩
    rw [if_pos certain]
    exact Reading.bind_ok restRead rfl
  · -- a bare variable: it is the next token
    obtain ⟨name, positional⟩ : ∃ name, param.subject = .positional name := by
      cases h : param.subject with
      | positional name => exact ⟨name, rfl⟩
      | named colon name => simp [h, Subject.style, Parameter.Style.isNamed] at certain
      | labelled => simp [h, Subject.style, Parameter.Style.isNamed] at certain
    have isVariable : Token.kind? (textOf (param.subject.core ++ param.tail) ++ following) =
        some .variableName := by
      rw [positional] at core ⊢
      exact kind?_token core
    obtain ⟨lexer₄, seen, faces₄⟩ := sees_of_kind? .variableName faces₃ isVariable
    obtain ⟨after, restRead, faces₅⟩ := readRest_reads core avoids first.offset faces₄
    refine ⟨⟨first.offset, param.value⟩, after, Reading.bind_ok peeked (Reading.bind_ok typeRead
      (Reading.bind_ok styleRead ?_)), rfl, faces₅⟩
    rw [if_neg certain]
    exact Reading.bind_ok seen (Reading.bind_ok restRead rfl)

/-- Where no token begins a parameter, none is read. -/
theorem read?_none {text : Text} (avoids : Avoids text beginning) {lexer : Lexer}
    (faces : lexer.Faces text) :
    ∃ after, Declaration.read? lexer = .ok none after ∧ after.Faces text := by
  obtain ⟨kind, shown, outside⟩ := avoids
  have avoids : Avoids text beginning := ⟨kind, shown, outside⟩
  obtain ⟨first, lexer₁, peeked, faces₁⟩ := peek_of_kind? faces shown
  obtain ⟨lexer₂, noType, faces₂⟩ := accept_of_avoids .typeName avoids (by decide) faces₁
  obtain ⟨lexer₃, noColon, faces₃⟩ := accept_of_avoids .colon avoids (by decide) faces₂
  obtain ⟨lexer₄, seen, faces₄⟩ := sees_of_kind? .variableName faces₃ shown
  have unseen : decide (kind = .variableName) = false := by
    rw [decide_eq_false_iff_not]
    rintro rfl
    exact outside (by decide)
  rw [unseen] at seen
  exact ⟨lexer₄, Reading.bind_ok peeked (Reading.bind_ok (Reading.bind_ok noType rfl)
    (Reading.bind_ok (Reading.bind_ok noColon rfl) (Reading.bind_ok seen rfl))), faces₄⟩

/-- A parameter that is written is parsed, and what follows it is left, as far as inline
blanks do not matter. -/
theorem Param.parse_of_inContext {param : Param} {following : Text}
    (inContext : InContext param.pieces following) (avoids : Avoids following continuing)
    (before : Text) :
    ∃ rest, Parameter.parse ⟨before, textOf param.pieces ++ following⟩ = .ok (param.value, rest) ∧
      trim rest = trim following := by
  have faces : (Lexer.ofCursor ⟨before, textOf param.pieces ++ following⟩).Faces
      (textOf param.pieces ++ following) := faces_of_rest rfl
  obtain ⟨declaration, after, read, same, cursor, stands, place⟩ :=
    read?_reads inContext avoids faces
  have answered : Parameter.read (.ofCursor ⟨before, textOf param.pieces ++ following⟩) =
      .ok declaration.parameter after := Reading.bind_ok read rfl
  refine ⟨cursor.rest, ?_, place⟩
  rw [Parameter.parse, Reading.parse, answered, ← same, ← stands.remaining]

end MethodSignature.Grammar
