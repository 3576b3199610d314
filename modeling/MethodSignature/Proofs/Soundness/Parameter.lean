/-
# MethodSignature.Proofs.Soundness.Parameter -- what is read of a parameter was written

Reading a part of a parameter takes the text of a part of the grammar, nothing else,
and answers what that part means (`Derives`).  Tokens give their lexemes, raw scans
their values and blocks, and repetition gives lists; `read?_derives` puts the parts of
a parameter together.
-/
import MethodSignature.Declaration
import MethodSignature.Proofs.Block
import MethodSignature.Proofs.Lexer
import MethodSignature.Proofs.Value

namespace MethodSignature.Grammar

set_option autoImplicit false

open Text

variable {α τ : Type}

/-! ## Text that pieces cover -/

/-- A token takes the inline blanks behind it, so none are left; any other literal takes
none.  A variable is a token, as a default value too. -/
def Piece.Leaves : Piece → Text → Prop
  | .token _ _, rest | .lineEnds _, rest => Stops isInlineBlank rest
  | .value spaced, rest =>
      (Token.IsVariable spaced.literal → Stops isInlineBlank rest) ∧
        (¬ Token.IsVariable spaced.literal → spaced.behind = [])
  | .block spaced, _ => spaced.behind = []

/-- The text begins with the pieces, each read as it stands, and goes on with `rest`, the
last piece having taken the blanks it takes. -/
structure Covers (pieces : List Piece) (text rest : Text) : Prop where
  whole : text = textOf pieces ++ rest
  inContext : InContext pieces rest
  leaves : ∀ piece ∈ pieces.getLast?, piece.Leaves rest

theorem covers_nil (text : Text) : Covers [] text text := ⟨rfl, trivial, nofun⟩

theorem Covers.append {pieces more : List Piece} {text between rest : Text}
    (h : Covers pieces text between) (h' : Covers more between rest) :
    Covers (pieces ++ more) text rest := by
  obtain ⟨rfl, inContext', leaves'⟩ := h'
  refine ⟨?_, inContext_append.2 ⟨h.inContext, inContext'⟩, ?_⟩
  · rw [h.whole, textOf_append, List.append_assoc]
  · cases last : more.getLast? with
    | none =>
        rw [List.getLast?_eq_none_iff] at last
        subst last
        simpa using h.leaves
    | some piece =>
        rw [List.getLast?_append, last]
        simpa [last] using leaves'

theorem Covers.cons {piece : Piece} {pieces : List Piece} {text between rest : Text}
    (h : Covers [piece] text between) (h' : Covers pieces between rest) :
    Covers (piece :: pieces) text rest :=
  h.append h'

theorem Covers.length_eq {pieces : List Piece} {text rest : Text} (h : Covers pieces text rest) :
    (textOf pieces).length + rest.length = text.length := by
  rw [h.whole, List.length_append]

/-- Reading answers what some part means, and takes the text of that part. -/
def Derives (reading : Reading α) (pieces : τ → List Piece) (value : τ → α) : Prop :=
  ∀ ⦃lexer after : Lexer⦄ ⦃cursor : Cursor⦄ ⦃answer : α⦄, lexer.At cursor →
    reading lexer = .ok answer after →
      ∃ part next, after.At next ∧ Covers (pieces part) cursor.rest next.rest ∧ answer = value part

/-! ## Tokens -/

section Tokens

variable {lexer after : Lexer} {cursor next : Cursor} {token : Token} {kind : Token.Kind}

theorem exists_lexeme (shows : cursor.Shows token next) (isKind : token.kind = kind)
    (notNewline : kind ≠ .newline) (notEnd : kind ≠ .endOfInput) :
    ∃ lexeme : Lexeme kind, lexeme.literal = token.literal ∧
      Covers [.token kind lexeme] cursor.rest next.rest := by
  have scanned := shows.scanned
  rw [isKind] at scanned
  rcases Token.scan_sound scanned with ⟨newline, -⟩ | ⟨ended, -⟩ | ⟨form, before, behind,
    inlineBefore, inlineBehind, whole, reads, stops⟩
  · exact absurd newline notNewline
  · exact absurd ended notEnd
  · refine ⟨⟨before, token.literal, behind, inlineBefore, inlineBehind, form⟩, rfl, ?_,
      ⟨?_, trivial⟩, ?_⟩
    · simp [whole, Piece.text, Spaced.text]
    · simpa [Piece.Fits] using reads
    · simpa [Piece.Leaves] using stops

theorem exists_lineEnds (shows : cursor.Shows token next) (isNewline : token.kind = .newline) :
    ∃ run : LineEnds, Covers [.lineEnds run] cursor.rest next.rest := by
  have scanned := shows.scanned
  rw [isNewline] at scanned
  rcases Token.scan_sound scanned with ⟨-, found⟩ | ⟨ended, -⟩ | ⟨form, -⟩
  · obtain ⟨isLineEnds, stops⟩ := Layout.isLineEnds_of_lineEnds? found
    have whole := shows.whole
    refine ⟨⟨token.written, isLineEnds⟩, ?_, ⟨?_, trivial⟩, ?_⟩
    · simpa [Piece.text] using whole
    · rw [whole] at found
      refine ⟨token.written, ?_⟩
      simpa [trim_of_stops stops] using found
    · simpa [Piece.Leaves] using stops
  · cases ended
  · exact absurd rfl form.kind_ne.1

theorem accept_some_sound (stands : lexer.At cursor) (notNewline : kind ≠ .newline)
    (h : Reading.accept kind lexer = .ok (some token) after) :
    ∃ (lexeme : Lexeme kind) (next : Cursor), lexeme.literal = token.literal ∧
      Covers [.token kind lexeme] cursor.rest next.rest ∧ after = ⟨[], next⟩ := by
  obtain ⟨next, shows, isKind, notEnd, rfl⟩ := (accept_eq_some_iff stands).1 h
  obtain ⟨lexeme, literal, covers⟩ := exists_lexeme shows isKind notNewline notEnd
  exact ⟨lexeme, next, literal, covers, rfl⟩

theorem accept_none_sound (stands : lexer.At cursor)
    (h : Reading.accept kind lexer = .ok none after) : after.At cursor := by
  obtain ⟨token, next, shows, -, rfl⟩ := (accept_eq_none_iff stands).1 h
  exact .looked shows

theorem expect_sound (stands : lexer.At cursor) (notNewline : kind ≠ .newline)
    (h : Reading.expect kind lexer = .ok token after) :
    ∃ (lexeme : Lexeme kind) (next : Cursor), lexeme.literal = token.literal ∧
      Covers [.token kind lexeme] cursor.rest next.rest ∧ after = ⟨[], next⟩ := by
  obtain ⟨next, shows, isKind, notEnd, rfl⟩ := (expect_eq_ok_iff stands).1 h
  obtain ⟨lexeme, literal, covers⟩ := exists_lexeme shows isKind notNewline notEnd
  exact ⟨lexeme, next, literal, covers, rfl⟩

end Tokens

/-- Repeated reading derives a list of what one reading derives. -/
theorem manyFrom_derives {step : Reading (Option α)} {pieces : τ → List Piece} {value : τ → α}
    (derives : Derives step (optional pieces) (Option.map value)) (fuel : Nat) :
    Derives (Reading.manyFrom step fuel) (fun parts => parts.flatMap pieces) (List.map value) := by
  induction fuel with
  | zero =>
      intro lexer after cursor answer stands h
      obtain ⟨rfl, rfl⟩ := Reading.pure_eq_ok_iff.1 h
      exact ⟨[], cursor, stands, covers_nil _, rfl⟩
  | succ fuel ih =>
      intro lexer after cursor answer stands h
      rw [Reading.manyFrom] at h
      obtain ⟨first, between, stepped, rest⟩ := Reading.bind_eq_ok_iff.1 h
      obtain ⟨part, next, stands', covers, rfl⟩ := derives stands stepped
      cases part with
      | none =>
          obtain ⟨rfl, rfl⟩ := Reading.pure_eq_ok_iff.1 rest
          exact ⟨[], next, stands', covers, rfl⟩
      | some part =>
          obtain ⟨more, between', repeated, answered⟩ := Reading.bind_eq_ok_iff.1 rest
          obtain ⟨rfl, rfl⟩ := Reading.pure_eq_ok_iff.1 answered
          obtain ⟨parts, next', stands'', covers', rfl⟩ := ih stands' repeated
          exact ⟨part :: parts, next', stands'', covers.append covers', rfl⟩

theorem many_derives {step : Reading (Option α)} {pieces : τ → List Piece} {value : τ → α}
    (derives : Derives step (optional pieces) (Option.map value)) :
    Derives (Reading.many step) (fun parts => parts.flatMap pieces) (List.map value) := by
  intro lexer after cursor answer stands h
  exact manyFrom_derives derives (lexer.remaining.length + 1) stands h

/-! ## Raw scans -/

theorem blanks_sound {cursor : Cursor} {after : Lexer} {answer : Unit}
    (h : Reading.scan Reading.blanks ⟨[], cursor⟩ = .ok answer after) :
    ∃ gap body, IsBlanks gap ∧ Stops isBlank body ∧ cursor.rest = gap ++ body ∧
      after = ⟨[], cursor.advance gap body⟩ := by
  obtain ⟨gap, body, found, rfl⟩ := scan_eq_ok_iff.1 h
  simp only [Reading.blanks, Scan.mk.injEq] at found
  obtain ⟨taken, left, -⟩ := found
  have split : cut isBlank cursor.rest = (gap, body) := Prod.ext taken left
  obtain ⟨whole, blank, stops⟩ := cut_eq_iff.1 split
  exact ⟨gap, body, blank, stops, whole, rfl⟩

/-- Behind blanks, a variable has no blanks of its own in front. -/
theorem accept_variable_sound {cursor : Cursor} {after : Lexer} {token : Token}
    (stops : Stops isBlank cursor.rest)
    (h : Reading.accept .variableName ⟨[], cursor⟩ = .ok (some token) after) :
    ∃ behind next, IsInline behind ∧ cursor.rest = token.literal ++ (behind ++ next.rest) ∧
      Token.IsVariable token.literal ∧
      Token.ReadsAs .variableName token.literal (behind ++ next.rest) ∧
      Stops isInlineBlank next.rest ∧ after = ⟨[], next⟩ := by
  obtain ⟨⟨before, name, behind, lead, inline, form⟩, next, rfl, ⟨whole, ⟨fits, -⟩, leaves⟩, rfl⟩ :=
    accept_some_sound (.fresh cursor) (by decide) h
  simp only [textOf_cons, textOf_nil, Piece.text, Spaced.text, List.append_nil,
    List.append_assoc] at whole
  simp only [Piece.Fits, textOf_nil, List.nil_append] at fits
  cases before with
  | nil => exact ⟨behind, next, inline, whole, form.isVariable, fits, leaves _ rfl, rfl⟩
  | cons b more =>
      have blank := List.all_eq_true.1 lead.isBlanks b (by simp)
      simp [whole, blank] at stops

theorem value_sound {cursor : Cursor} {after : Lexer} {text : Text}
    (h : Declaration.value ⟨[], cursor⟩ = .ok text after) :
    ∃ (value : Value) (next : Cursor), after.At next ∧
      Covers [.value value] cursor.rest next.rest ∧ text = value.literal := by
  obtain ⟨answer, between, blanked, rest⟩ := Reading.bind_eq_ok_iff.1 h
  obtain ⟨gap, body, blank, stops, whole, rfl⟩ := blanks_sound blanked
  -- a value that the text behind the blanks begins with makes the piece
  have made : ∀ (literal behind following : Text), IsInline behind →
      body = literal ++ (behind ++ following) → IsValue literal →
      ValueFits literal (behind ++ following) →
      (Token.IsVariable literal → Stops isInlineBlank following) →
      (¬ Token.IsVariable literal → behind = []) →
      ∃ value : Value, Covers [.value value] cursor.rest following ∧ literal = value.literal := by
    intro literal behind following inline parts isValue fits stops bare
    refine ⟨⟨gap, literal, behind, blank, inline, isValue⟩, ⟨?_, ⟨?_, trivial⟩, ?_⟩, rfl⟩
    · rw [whole, parts]
      simp [Piece.text, Spaced.text]
    · simpa [Piece.Fits] using fits
    · rintro piece ⟨⟩
      exact ⟨stops, bare⟩
  obtain ⟨number, between, numbered, rest⟩ := Reading.bind_eq_ok_iff.1 rest
  obtain ⟨taken, left, found, rfl⟩ := scan_eq_ok_iff.1 numbered
  change Number.scan body = _ at found
  rcases (decides_number body).cases_ok found with ⟨rfl, noNumber, rfl⟩ | ⟨rfl, isNumber⟩
  · obtain ⟨quote, between, quoted, rest⟩ := Reading.bind_eq_ok_iff.1 rest
    obtain ⟨taken', left', found', rfl⟩ := scan_eq_ok_iff.1 quoted
    change Quote.scan left = _ at found'
    rcases (decides_quote left).cases_ok found' with ⟨rfl, noQuote, rfl⟩ | ⟨rfl, isQuote⟩
    · obtain ⟨accepted, between, looked, answered⟩ := Reading.bind_eq_ok_iff.1 rest
      cases accepted with
      | none => exact absurd answered fail_ne_ok
      | some token =>
          obtain ⟨behind, next, inline, parts, isVariable, reads, stops', rfl⟩ :=
            accept_variable_sound stops looked
          obtain ⟨rfl, rfl⟩ := Reading.pure_eq_ok_iff.1 answered
          change left' = _ at parts
          rw [parts] at noNumber noQuote
          obtain ⟨value, covered, same⟩ := made _ _ _ inline parts (.inr (.inr isVariable))
            (.inr (.inr ⟨noNumber, noQuote, reads⟩)) (fun _ => stops')
            fun noVariable => absurd isVariable noVariable
          exact ⟨value, next, .fresh next, covered, same⟩
    · obtain ⟨rfl, rfl⟩ := Reading.pure_eq_ok_iff.1 rest
      have parts : taken' ++ left' = left := by
        simpa [Scan.Covers, isQuote, Scan.present] using Quote.covers_scan left
      have noVariable : ¬ Token.IsVariable taken' := by
        intro isVariable
        have absent := (scans_of_isVariable isVariable left').2
        rw [parts, isQuote] at absent
        cases absent
      obtain ⟨value, covered, same⟩ := made _ [] _ isInline_nil parts.symm
        (.inr (.inl (quote_self isQuote)))
        (.inr (.inl ⟨by simpa [parts] using noNumber, by simpa [parts] using isQuote⟩))
        (fun isVariable => absurd isVariable noVariable) fun _ => rfl
      exact ⟨value, _, .fresh _, covered, same⟩
  · obtain ⟨rfl, rfl⟩ := Reading.pure_eq_ok_iff.1 rest
    have parts : taken ++ left = body := by
      simpa [Scan.Covers, isNumber, Scan.present] using Number.covers_scan body
    have noVariable : ¬ Token.IsVariable taken := by
      intro isVariable
      have absent := (scans_of_isVariable isVariable left).1
      rw [parts, isNumber] at absent
      cases absent
    obtain ⟨value, covered, same⟩ := made _ [] _ isInline_nil parts.symm
      (.inl (number_self isNumber)) (.inl (by simpa [parts] using isNumber))
      (fun isVariable => absurd isVariable noVariable) fun _ => rfl
    exact ⟨value, _, .fresh _, covered, same⟩

theorem block_sound {cursor : Cursor} {after : Lexer} {text : Text}
    (h : Declaration.block ⟨[], cursor⟩ = .ok text after) :
    ∃ (block : CodeBlock) (next : Cursor), after.At next ∧
      Covers [.block block] cursor.rest next.rest ∧ text = block.literal := by
  obtain ⟨answer, between, blanked, rest⟩ := Reading.bind_eq_ok_iff.1 h
  obtain ⟨gap, body, blank, stops, whole, rfl⟩ := blanks_sound blanked
  obtain ⟨lexer, between, got, rest⟩ := Reading.bind_eq_ok_iff.1 rest
  cases got
  simp only at rest
  split at rest
  · cases rest
  · obtain ⟨found, between, scanned, rest⟩ := Reading.bind_eq_ok_iff.1 rest
    obtain ⟨taken, left, found', rfl⟩ := scan_eq_ok_iff.1 scanned
    change Block.scan body = _ at found'
    rcases (decides_block body).cases_ok found' with ⟨rfl, -, -⟩ | ⟨rfl, isBlock⟩
    · cases rest
    · obtain ⟨rfl, rfl⟩ := Reading.pure_eq_ok_iff.1 rest
      have parts : taken ++ left = body := by
        simpa [Scan.Covers, isBlock, Scan.present] using Block.covers_scan body
      have alone : IsBlock taken := Block.scan_self isBlock
      refine ⟨⟨gap, taken, [], blank, isInline_nil, alone⟩, _, .fresh _,
        ⟨?_, ⟨?_, trivial⟩, ?_⟩, rfl⟩
      · simp [whole, ← parts, Piece.text, Spaced.text, Cursor.advance]
      · simpa [Piece.Fits, Cursor.advance, parts] using isBlock
      · rintro piece ⟨⟩
        rfl

/-! ## The parts of a parameter -/

theorem alternative?_derives :
    Derives Declaration.alternative? (optional Alternative.pieces)
      (Option.map fun alternative => '|' :: alternative.member.literal) := by
  intro lexer after cursor answer stands h
  obtain ⟨accepted, between, looked, rest⟩ := Reading.bind_eq_ok_iff.1 h
  cases accepted with
  | none =>
      obtain ⟨rfl, rfl⟩ := Reading.pure_eq_ok_iff.1 rest
      exact ⟨none, cursor, accept_none_sound stands looked, covers_nil _, rfl⟩
  | some sign =>
      obtain ⟨pipe, next, -, covers, rfl⟩ := accept_some_sound stands (by decide) looked
      obtain ⟨token, between', expected, answered⟩ := Reading.bind_eq_ok_iff.1 rest
      obtain ⟨member, next', literal, covers', rfl⟩ :=
        expect_sound (.fresh next) (by decide) expected
      obtain ⟨rfl, rfl⟩ := Reading.pure_eq_ok_iff.1 answered
      exact ⟨some ⟨pipe, member⟩, next', .fresh next', covers.cons covers', by simp [literal]⟩

theorem typeConstraint?_derives :
    Derives Declaration.typeConstraint? (optional Alternation.pieces)
      (Option.map Alternation.value) := by
  intro lexer after cursor answer stands h
  obtain ⟨accepted, between, looked, rest⟩ := Reading.bind_eq_ok_iff.1 h
  cases accepted with
  | none =>
      obtain ⟨rfl, rfl⟩ := Reading.pure_eq_ok_iff.1 rest
      exact ⟨none, cursor, accept_none_sound stands looked, covers_nil _, rfl⟩
  | some token =>
      obtain ⟨first, next, literal, covers, rfl⟩ := accept_some_sound stands (by decide) looked
      obtain ⟨found, between', repeated, answered⟩ := Reading.bind_eq_ok_iff.1 rest
      obtain ⟨more, next', stands', covers', rfl⟩ :=
        many_derives alternative?_derives (.fresh next) repeated
      obtain ⟨rfl, rfl⟩ := Reading.pure_eq_ok_iff.1 answered
      refine ⟨some ⟨first, more⟩, next', stands', covers.cons covers', ?_⟩
      simp [Alternation.value, literal, List.flatMap]

/-- What stands before the variable, by the style it gives the parameter. -/
inductive Lead : Parameter.Style → List Piece → Prop
  | positional : Lead .positional []
  | named (colon : Lexeme .colon) : Lead (.named none) [.token .colon colon]
  | labelled (colon : Lexeme .colon) (label : Lexeme .typeName) (opening : Lexeme .openParen) :
      label.literal.all isNameChar = true →
      Lead (.named (some label.literal))
        [.token .colon colon, .token .typeName label, .token .openParen opening]

theorem style_sound {lexer after : Lexer} {cursor : Cursor} {style : Parameter.Style}
    (stands : lexer.At cursor) (h : Declaration.style lexer = .ok style after) :
    ∃ pieces next, Lead style pieces ∧ after.At next ∧ Covers pieces cursor.rest next.rest := by
  obtain ⟨accepted, between, looked, rest⟩ := Reading.bind_eq_ok_iff.1 h
  cases accepted with
  | none =>
      obtain ⟨rfl, rfl⟩ := Reading.pure_eq_ok_iff.1 rest
      exact ⟨[], cursor, .positional, accept_none_sound stands looked, covers_nil _⟩
  | some sign =>
      obtain ⟨colon, next, -, covers, rfl⟩ := accept_some_sound stands (by decide) looked
      obtain ⟨accepted', between', looked', rest'⟩ := Reading.bind_eq_ok_iff.1 rest
      cases accepted' with
      | none =>
          obtain ⟨rfl, rfl⟩ := Reading.pure_eq_ok_iff.1 rest'
          exact ⟨_, next, .named colon, accept_none_sound (.fresh next) looked', covers⟩
      | some token =>
          obtain ⟨label, next', literal, covers', rfl⟩ :=
            accept_some_sound (.fresh next) (by decide) looked'
          simp only at rest'
          split at rest'
          · rename_i plain
            obtain ⟨parenthesis, between'', expected, answered⟩ := Reading.bind_eq_ok_iff.1 rest'
            obtain ⟨opening, next'', -, covers'', rfl⟩ :=
              expect_sound (.fresh next') (by decide) expected
            obtain ⟨rfl, rfl⟩ := Reading.pure_eq_ok_iff.1 answered
            rw [← literal] at plain ⊢
            exact ⟨_, next'', .labelled colon label opening plain, .fresh next'',
              covers.cons (covers'.cons covers'')⟩
          · cases rest'

/-- What stands before the variable and the variable make a subject. -/
theorem variableName_sound {style : Parameter.Style} {pieces : List Piece} (lead : Lead style pieces)
    {lexer after : Lexer} {cursor next : Cursor} {name : Text} (stands : lexer.At next)
    (covers : Covers pieces cursor.rest next.rest)
    (h : Declaration.variableName style lexer = .ok name after) :
    ∃ (subject : Subject) (next' : Cursor), after.At next' ∧
      Covers subject.pieces cursor.rest next'.rest ∧
      style = subject.style ∧ name = subject.variableName := by
  obtain ⟨token, between, expected, rest⟩ := Reading.bind_eq_ok_iff.1 h
  obtain ⟨variableName, next', literal, covers', rfl⟩ := expect_sound stands (by decide) expected
  cases lead with
  | positional =>
      obtain ⟨rfl, rfl⟩ := Reading.pure_eq_ok_iff.1 rest
      exact ⟨.positional variableName, next', .fresh next', covers.append covers', rfl, literal.symm⟩
  | named colon =>
      obtain ⟨rfl, rfl⟩ := Reading.pure_eq_ok_iff.1 rest
      exact ⟨.named colon variableName, next', .fresh next', covers.append covers', rfl, literal.symm⟩
  | labelled colon label opening plain =>
      obtain ⟨parenthesis, between', expected', answered⟩ := Reading.bind_eq_ok_iff.1 rest
      obtain ⟨closing, next'', -, covers'', rfl⟩ :=
        expect_sound (.fresh next') (by decide) expected'
      obtain ⟨rfl, rfl⟩ := Reading.pure_eq_ok_iff.1 answered
      exact ⟨.labelled colon label plain opening variableName closing, next'', .fresh next'',
        covers.append (covers'.cons covers''), rfl, literal.symm⟩

theorem requirement_derives (style : Parameter.Style) :
    Derives (Declaration.requirement style) (optional Mark.pieces) (required style) := by
  intro lexer after cursor answer stands h
  obtain ⟨accepted, between, looked, rest⟩ := Reading.bind_eq_ok_iff.1 h
  cases accepted with
  | some token =>
      obtain ⟨sign, next, -, covers, rfl⟩ := accept_some_sound stands (by decide) looked
      obtain ⟨rfl, rfl⟩ := Reading.pure_eq_ok_iff.1 rest
      exact ⟨some (.optional sign), next, .fresh next, covers, rfl⟩
  | none =>
      have stands' := accept_none_sound stands looked
      obtain ⟨accepted', between', looked', rest'⟩ := Reading.bind_eq_ok_iff.1 rest
      cases accepted' with
      | some token =>
          obtain ⟨sign, next, -, covers, rfl⟩ := accept_some_sound stands' (by decide) looked'
          obtain ⟨rfl, rfl⟩ := Reading.pure_eq_ok_iff.1 rest'
          exact ⟨some (.required sign), next, .fresh next, covers, rfl⟩
      | none =>
          obtain ⟨rfl, rfl⟩ := Reading.pure_eq_ok_iff.1 rest'
          exact ⟨none, cursor, accept_none_sound stands' looked', covers_nil _,
            (required_none style).symm⟩

theorem defaultValue?_derives :
    Derives Declaration.defaultValue? (optional Default.pieces)
      (Option.map fun default => default.value.literal) := by
  intro lexer after cursor answer stands h
  obtain ⟨accepted, between, looked, rest⟩ := Reading.bind_eq_ok_iff.1 h
  cases accepted with
  | none =>
      obtain ⟨rfl, rfl⟩ := Reading.pure_eq_ok_iff.1 rest
      exact ⟨none, cursor, accept_none_sound stands looked, covers_nil _, rfl⟩
  | some token =>
      obtain ⟨equals, next, -, covers, rfl⟩ := accept_some_sound stands (by decide) looked
      obtain ⟨text, between', scanned, answered⟩ := Reading.bind_eq_ok_iff.1 rest
      obtain ⟨value, next', stands', covers', rfl⟩ := value_sound scanned
      obtain ⟨rfl, rfl⟩ := Reading.pure_eq_ok_iff.1 answered
      exact ⟨some ⟨equals, value⟩, next', stands', covers.cons covers', rfl⟩

theorem constraint?_derives :
    Derives Declaration.constraint? (optional Constraint.pieces)
      (Option.map fun constraint => constraint.block.literal) := by
  intro lexer after cursor answer stands h
  obtain ⟨accepted, between, looked, rest⟩ := Reading.bind_eq_ok_iff.1 h
  cases accepted with
  | none =>
      obtain ⟨rfl, rfl⟩ := Reading.pure_eq_ok_iff.1 rest
      exact ⟨none, cursor, accept_none_sound stands looked, covers_nil _, rfl⟩
  | some token =>
      obtain ⟨keyword, next, -, covers, rfl⟩ := accept_some_sound stands (by decide) looked
      obtain ⟨text, between', scanned, answered⟩ := Reading.bind_eq_ok_iff.1 rest
      obtain ⟨block, next', stands', covers', rfl⟩ := block_sound scanned
      obtain ⟨rfl, rfl⟩ := Reading.pure_eq_ok_iff.1 answered
      exact ⟨some ⟨keyword, block⟩, next', stands', covers.cons covers', rfl⟩

/-! ## Whole parameters -/

theorem readRest_sound {alternation : Option Alternation} {style : Parameter.Style}
    {lead : List Piece} (isLead : Lead style lead) {lexer after : Lexer}
    {cursor between next : Cursor} {offset : Nat} {declaration : Declaration}
    (stands : lexer.At next)
    (typed : Covers (optional Alternation.pieces alternation) cursor.rest between.rest)
    (led : Covers lead between.rest next.rest)
    (h : Declaration.readRest offset (alternation.map Alternation.value) style lexer =
      .ok declaration after) :
    ∃ (param : Param) (next' : Cursor), after.At next' ∧
      Covers param.pieces cursor.rest next'.rest ∧ declaration.parameter = param.value := by
  obtain ⟨name, lexer₁, named, rest⟩ := Reading.bind_eq_ok_iff.1 h
  obtain ⟨subject, next₁, stands₁, covers₁, rfl, rfl⟩ := variableName_sound isLead stands led named
  obtain ⟨isRequired, lexer₂, marked, rest⟩ := Reading.bind_eq_ok_iff.1 rest
  obtain ⟨mark, next₂, stands₂, covers₂, rfl⟩ := requirement_derives subject.style stands₁ marked
  obtain ⟨found, lexer₃, defaulted, rest⟩ := Reading.bind_eq_ok_iff.1 rest
  obtain ⟨default, next₃, stands₃, covers₃, rfl⟩ := defaultValue?_derives stands₂ defaulted
  obtain ⟨blocks, lexer₄, constrained, answered⟩ := Reading.bind_eq_ok_iff.1 rest
  obtain ⟨constraints, next₄, stands₄, covers₄, rfl⟩ :=
    many_derives constraint?_derives stands₃ constrained
  obtain ⟨rfl, rfl⟩ := Reading.pure_eq_ok_iff.1 answered
  refine ⟨⟨alternation, subject, mark, default, constraints⟩, next₄, stands₄, ?_, rfl⟩
  exact typed.append (covers₁.append (covers₂.append (covers₃.append covers₄)))

/-- **Reading a parameter**: either nothing is taken, or the text of a parameter of the
grammar is, and the declaration holds its value. -/
theorem read?_sound {lexer after : Lexer} {cursor : Cursor} {answer : Option Declaration}
    (stands : lexer.At cursor) (h : Declaration.read? lexer = .ok answer after) :
    ∃ (part : Option Param) (next : Cursor), after.At next ∧
      Covers (optional Param.pieces part) cursor.rest next.rest ∧
      answer.map Declaration.parameter = part.map Param.value := by
  obtain ⟨first, lexer₁, peeked, rest⟩ := Reading.bind_eq_ok_iff.1 h
  obtain ⟨shown, shows, rfl⟩ := (peek_eq_ok_iff stands).1 peeked
  obtain ⟨found, lexer₂, typed, rest⟩ := Reading.bind_eq_ok_iff.1 rest
  obtain ⟨alternation, next₁, stands₁, covers₁, rfl⟩ := typeConstraint?_derives (.looked shows) typed
  obtain ⟨style, lexer₃, styled, rest⟩ := Reading.bind_eq_ok_iff.1 rest
  obtain ⟨lead, next₂, isLead, stands₂, covers₂⟩ := style_sound stands₁ styled
  have declared : ∀ {lexer : Lexer}, lexer.At next₂ →
      (do
        let declaration ← Declaration.readRest first.offset (alternation.map Alternation.value) style
        return some declaration : Reading (Option Declaration)) lexer = .ok answer after →
      ∃ (part : Option Param) (next : Cursor), after.At next ∧
        Covers (optional Param.pieces part) cursor.rest next.rest ∧
        answer.map Declaration.parameter = part.map Param.value := by
    intro lexer stands₃ read
    obtain ⟨declaration, lexer₄, readRest, answered⟩ := Reading.bind_eq_ok_iff.1 read
    obtain ⟨rfl, rfl⟩ := Reading.pure_eq_ok_iff.1 answered
    obtain ⟨param, next, stands₄, covers, same⟩ :=
      readRest_sound isLead stands₃ covers₁ covers₂ readRest
    exact ⟨some param, next, stands₄, covers, congrArg some same⟩
  split at rest
  · exact declared stands₂ rest
  · rename_i bare
    obtain ⟨seen, lexer₄, looked, rest⟩ := Reading.bind_eq_ok_iff.1 rest
    obtain ⟨token, next, shows', rfl, rfl⟩ := (sees_eq_ok_iff stands₂).1 looked
    split at rest
    · exact declared (.looked shows') rest
    · obtain ⟨rfl, rfl⟩ := Reading.pure_eq_ok_iff.1 rest
      -- there was neither a type nor a colon, so nothing has been taken
      cases alternation with
      | some alternation => simp at bare
      | none =>
          cases isLead with
          | positional => exact ⟨none, next₂, .looked shows', covers₁.append covers₂, rfl⟩
          | named colon => simp [Parameter.Style.isNamed] at bare
          | labelled colon label opening plain => simp [Parameter.Style.isNamed] at bare

/-- What is read of a parameter at a cursor is a derivation. -/
theorem Param.parse_sound {cursor : Cursor} {parameter : Parameter} {rest : Text}
    (h : Parameter.parse cursor = .ok (parameter, rest)) :
    ∃ param : Param, Covers param.pieces cursor.rest rest ∧ parameter = param.value := by
  unfold Parameter.parse Reading.parse at h
  split at h
  · rename_i found lexer read
    cases h
    obtain ⟨answer, between, declared, answered⟩ := Reading.bind_eq_ok_iff.1 read
    obtain ⟨part, next, stands, covers, same⟩ := read?_sound (.fresh cursor) declared
    cases answer with
    | none => exact absurd answered fail_ne_ok
    | some declaration =>
        obtain ⟨rfl, rfl⟩ := Reading.pure_eq_ok_iff.1 answered
        cases part with
        | none => cases same
        | some param =>
            rw [stands.remaining]
            exact ⟨param, covers, by simpa using same⟩
  · cases h

end MethodSignature.Grammar
