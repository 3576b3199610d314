/-
# MethodSignature.Proofs.Composition -- a signature from the texts of its parameters

Texts that are each parsed as one parameter make a signature, whatever layout and separators
stand between them: its parameters are those of the texts (`parseAt_compose`).  If a rule
beyond the grammar is broken, the fault lies at the first character of the first text that
breaks it.

A parameter is read up to the end of its text when it is parsed alone, and up to a separator, a
colon or the parenthesis here.  All of these begin with a character that goes on with neither
a name nor a number (`Parted`), so each parameter is read as it stands (`Tree.inContext`).
-/
import MethodSignature.Proofs.Context
import MethodSignature.Proofs.Refusal

namespace MethodSignature

set_option autoImplicit false

open Text

namespace Grammar

/-! ## What stands behind a parameter -/

theorem parted_cons {c : Char} (parts : Parted [c]) (rest : Text) : Parted (c :: rest) :=
  ⟨by simpa using parts.names, by simpa using parts.numerals⟩

theorem parted_of_isBlank {c : Char} (blank : isBlank c = true) (rest : Text) :
    Parted (c :: rest) := by
  refine ⟨?_, ?_⟩
  · rw [stops_cons]
    exact isNameChar_of_isBlank blank
  · rw [stops_cons, ← Bool.not_eq_true]
    intro numeral
    have solid := isSolid_of_isNumeralChar numeral
    simp [isSolid, blank] at solid

theorem parted_symbol {kind : Token.Kind} (lexeme : Lexeme kind) (c : Char)
    (symbol : Token.Kind.ofSymbol? c = some kind) (parts : Parted [c]) (following : Text) :
    Parted (lexeme.text ++ following) := by
  obtain ⟨before, literal, behind, lead, inline, shape⟩ := lexeme
  obtain rfl := shape.eq_symbol symbol
  cases before with
  | nil => exact parted_cons parts _
  | cons b more => exact parted_of_isBlank (List.all_eq_true.1 lead.isBlanks b (by simp)) _

theorem parted_lineEnds (run : LineEnds) (following : Text) : Parted (run.val ++ following) := by
  obtain ⟨lineEnd, rest, whole, isLineEnd, -⟩ := Layout.isLineEnds_iff.1 run.property
  rw [whole, List.append_assoc]
  cases isLineEnd with
  | @mk blanks comment lineBreak inline isComment isLineBreak =>
      cases blanks with
      | cons b more => exact parted_of_isBlank (List.all_eq_true.1 inline.isBlanks b (by simp)) _
      | nil =>
          rcases isComment with rfl | ⟨words, rfl, -⟩
          · rcases isLineBreak with rfl | rfl | rfl <;> exact parted_of_isBlank (by decide) _
          · have hash : Parted ['#'] := ⟨by decide, by decide⟩
            exact parted_cons hash _

/-- What may stand behind a parameter: text that goes on with neither a name nor a number, and
in which no line ends before something solid. -/
structure Halts (text : Text) : Prop extends Parted text where
  noEnd : Layout.lineEnd? text = none

theorem lineEnd?_lexeme {kind : Token.Kind} (lexeme : Lexeme kind) (following : Text) :
    Layout.lineEnd? (lexeme.text ++ following) = none := by
  obtain ⟨before, literal, behind, lead, inline, shape⟩ := lexeme
  obtain ⟨c, rest, rfl, solid, noComment⟩ := shape.head
  simp only [Spaced.text, List.append_assoc, List.cons_append]
  rw [Layout.lineEnd?_append_blanks lead, Layout.lineEnd?_cons solid noComment]
  rfl

theorem halts_symbol {kind : Token.Kind} (lexeme : Lexeme kind) (c : Char)
    (symbol : Token.Kind.ofSymbol? c = some kind) (parts : Parted [c]) (following : Text) :
    Halts (lexeme.text ++ following) :=
  ⟨parted_symbol lexeme c symbol parts following, lineEnd?_lexeme lexeme following⟩

theorem Param.exists_token (param : Param) :
    ∃ kind lexeme pieces, param.pieces = .token kind lexeme :: pieces := by
  obtain ⟨alternation, subject, mark, default, constraints⟩ := param
  cases alternation with
  | some alternation => exact ⟨_, alternation.first, _, rfl⟩
  | none => cases subject <;> exact ⟨_, _, _, rfl⟩

theorem Param.lineEnd?_pieces (param : Param) (following : Text) :
    Layout.lineEnd? (textOf param.pieces ++ following) = none := by
  obtain ⟨kind, lexeme, pieces, split⟩ := param.exists_token
  rw [split, textOf_cons, List.append_assoc]
  exact lineEnd?_lexeme lexeme _

/-! ## Trees of parameters that are read alone -/

section Layouts

variable {following : Text}

theorem layout_inContext (layout : Option LineEnds) (noEnd : Layout.lineEnd? following = none) :
    InContext (layoutPieces layout) following := by
  cases layout with
  | none => trivial
  | some run => exact ⟨(Layout.lineEnds?_append_iff run.property).2 noEnd, trivial⟩

theorem parted_layout (layout : Option LineEnds) (parted : Parted following) :
    Parted (textOf (layoutPieces layout) ++ following) := by
  cases layout with
  | none => exact parted
  | some run =>
      have behind := parted_lineEnds run following
      simpa [layoutPieces, optional, Piece.text] using behind

theorem separator_inContext (separator : Separator) (noEnd : Layout.lineEnd? following = none) :
    InContext separator.pieces following := by
  cases separator with
  | lineEnds run => exact layout_inContext (some run) noEnd
  | comma before sign behind =>
      refine inContext_append.2 ⟨layout_inContext before ?_, fits_symbol ',' rfl sign _,
        layout_inContext behind noEnd⟩
      rw [textOf_cons, List.append_assoc]
      exact lineEnd?_lexeme sign _

theorem parted_separator (separator : Separator) (following : Text) :
    Parted (textOf separator.pieces ++ following) := by
  cases separator with
  | lineEnds run =>
      have behind := parted_lineEnds run following
      simpa [Separator.pieces, Piece.text] using behind
  | comma before sign behind =>
      have comma := parted_symbol sign ',' rfl ⟨by decide, by decide⟩
      rw [Separator.pieces, textOf_append, textOf_cons, List.append_assoc, List.append_assoc]
      exact parted_layout before (comma _)

end Layouts

/-- The parameter is read as it stands with no text behind, and its blocks with any. -/
structure Param.Alone (param : Param) : Prop where
  inContext : InContext param.pieces []
  whole : ∀ block ∈ param.value.constraints, IsSelfContained block

theorem Param.Alone.before {param : Param} (h : param.Alone) {following : Text}
    (parted : Parted following) : InContext param.pieces following :=
  Param.extend h.inContext parted h.whole

/-- Parameters behind separators, before a text they cannot go on with. -/
theorem following_inContext {more : List (Separator × Param)} (alone : ∀ next ∈ more, next.2.Alone)
    (trailing : Option LineEnds) {following : Text} (halts : Halts following) :
    InContext (followingPieces more ++ layoutPieces trailing) following ∧
      Parted (textOf (followingPieces more ++ layoutPieces trailing) ++ following) := by
  induction more with
  | nil => exact ⟨layout_inContext trailing halts.noEnd, parted_layout trailing halts.toParted⟩
  | cons next more ih =>
      obtain ⟨separator, param⟩ := next
      obtain ⟨moreFits, parted⟩ := ih fun next member => alone next (List.mem_cons_of_mem _ member)
      have paramFits := (alone (separator, param) (by simp)).before parted
      have separatorFits : InContext separator.pieces (textOf (param.pieces ++
          (followingPieces more ++ layoutPieces trailing)) ++ following) := by
        rw [textOf_append, List.append_assoc]
        exact separator_inContext separator (param.lineEnd?_pieces _)
      have split : followingPieces ((separator, param) :: more) ++ layoutPieces trailing =
          separator.pieces ++ (param.pieces ++ (followingPieces more ++ layoutPieces trailing)) := by
        simp [followingPieces]
      rw [split]
      refine ⟨inContext_append.2 ⟨separatorFits, inContext_append.2 ⟨paramFits, moreFits⟩⟩, ?_⟩
      rw [textOf_append, List.append_assoc]
      exact parted_separator separator _

theorem Params.inContext {params : Params} (first : params.first.Alone)
    (more : ∀ next ∈ params.more, next.2.Alone) {following : Text} (halts : Halts following) :
    InContext params.pieces following := by
  obtain ⟨moreFits, parted⟩ := following_inContext more params.trailing halts
  exact inContext_append.2 ⟨first.before parted, moreFits⟩

theorem Params.lineEnd?_pieces (params : Params) (following : Text) :
    Layout.lineEnd? (textOf params.pieces ++ following) = none := by
  rw [Params.pieces, textOf_append, List.append_assoc]
  exact params.first.lineEnd?_pieces _

/-- **A derivation is read as it stands** before any text, if each of its parameters is read
alone. -/
theorem Tree.inContext {tree : Tree} (invocant : ∀ i ∈ tree.invocant, i.param.Alone)
    (params : ∀ p ∈ tree.params, p.first.Alone ∧ ∀ next ∈ p.more, next.2.Alone) (rest : Text) :
    InContext tree.pieces rest := by
  obtain ⟨opening, layout, first, found, closing⟩ := tree
  simp only at invocant params
  have closes : Halts (textOf [.token .closeParen closing] ++ rest) := by
    rw [textOf_cons, List.append_assoc]
    exact halts_symbol closing ')' rfl ⟨by decide, by decide⟩ _
  -- the parameters, and behind what precedes them no line ends
  have body : InContext (optional Params.pieces found ++ [.token .closeParen closing]) rest ∧
      Layout.lineEnd? (textOf (optional Params.pieces found ++ [.token .closeParen closing]) ++
        rest) = none := by
    have closingFits : InContext [.token .closeParen closing] rest :=
      ⟨fits_symbol ')' rfl closing _, trivial⟩
    cases found with
    | none => exact ⟨closingFits, closes.noEnd⟩
    | some found =>
        obtain ⟨firstAlone, moreAlone⟩ := params found rfl
        refine ⟨inContext_append.2 ⟨Params.inContext firstAlone moreAlone closes, closingFits⟩, ?_⟩
        rw [optional, textOf_append, List.append_assoc]
        exact found.lineEnd?_pieces _
  have inside : InContext (optional Invocant.pieces first ++ (optional Params.pieces found ++
      [.token .closeParen closing])) rest ∧
      Layout.lineEnd? (textOf (optional Invocant.pieces first ++ (optional Params.pieces found ++
        [.token .closeParen closing])) ++ rest) = none := by
    cases first with
    | none => exact body
    | some first =>
        obtain ⟨param, colon, behind⟩ := first
        have colonFits : InContext (.token .colon colon :: layoutPieces behind)
            (textOf (optional Params.pieces found ++ [.token .closeParen closing]) ++ rest) :=
          ⟨fits_symbol ':' rfl colon _, layout_inContext behind body.2⟩
        have paramFits := (invocant _ rfl).before
          (parted_symbol colon ':' rfl ⟨by decide, by decide⟩ (textOf (layoutPieces behind) ++
            (textOf (optional Params.pieces found ++ [.token .closeParen closing]) ++ rest)))
        rw [optional, Invocant.pieces]
        refine ⟨?_, ?_⟩
        · rw [List.append_assoc]
          refine inContext_append.2 ⟨?_, inContext_append.2 ⟨colonFits, body.1⟩⟩
          simpa [Piece.text] using paramFits
        · rw [List.append_assoc, textOf_append, List.append_assoc]
          exact param.lineEnd?_pieces _
  refine ⟨fits_symbol '(' rfl opening _, inContext_append.2 ⟨layout_inContext layout inside.2,
    inside.1⟩⟩

end Grammar

/-! ## Texts that make a signature -/

/-- A text that is parsed as a parameter, all of it.  Its blocks are read whole whatever
follows them. -/
structure Entry where
  text : Text
  parameter : Parameter
  parsed : Parameter.parseAt text 0 = .ok (parameter, [])
  whole : ∀ block ∈ parameter.constraints, Grammar.IsSelfContained block

/-- Inline blanks, or line ends with their comments. -/
abbrev Gap := { text : Text // Layout.IsLayout text }

/-- Line ends, or a comma with layout on either side. -/
def IsSeparator (text : Text) : Prop :=
  Layout.IsLineEnds text ∨ ∃ before behind, text = before ++ ',' :: behind ∧
    Layout.IsLayout before ∧ Layout.IsLayout behind

/-- What stands between two parameters. -/
abbrev Joint := { text : Text // IsSeparator text }

/-- Texts in parentheses: an invocant with its colon, if there is one, and any number of
parameters. -/
structure Composition where
  opening : Gap
  invocant : Option (Entry × Gap)
  entries : Option (Entry × List (Joint × Entry))
  closing : Gap

/-- How many blanks the text begins with. -/
def Entry.indent (entry : Entry) : Nat := (entry.text.takeWhile isBlank).length

/-- Texts behind a first one. -/
def joined (more : List (Joint × Entry)) : Text :=
  more.flatMap fun (joint, entry) => joint.val ++ entry.text

namespace Composition

/-- All up to the first parameter that is not the invocant. -/
def head (composition : Composition) : Text :=
  '(' :: composition.opening.val ++
    match composition.invocant with
    | none => []
    | some (entry, gap) => entry.text ++ ':' :: gap.val

def body (composition : Composition) : Text :=
  match composition.entries with
  | none => []
  | some (first, more) => first.text ++ joined more

def text (composition : Composition) : Text :=
  composition.head ++ composition.body ++ composition.closing.val ++ [')']

def invocantParameter (composition : Composition) : Option Parameter :=
  composition.invocant.map fun (entry, _) => entry.parameter

def params (composition : Composition) : List Parameter :=
  match composition.entries with
  | none => []
  | some (first, more) => first.parameter :: more.map fun (_, entry) => entry.parameter

/-- The invocant may be one, and no required positional parameter follows an optional one. -/
structure Admitted (composition : Composition) : Prop where
  invocant : ∀ parameter ∈ composition.invocantParameter, parameter.IsInvocant
  order : composition.params.Pairwise Parameter.MayPrecede

/-- The place of the first text that breaks a rule: where its first character stands that is
not blank. -/
inductive Offends (composition : Composition) : Nat → Prop
  | invocant {entry : Entry} {gap : Gap} : composition.invocant = some (entry, gap) →
      ¬ entry.parameter.IsInvocant →
      Offends composition (('(' :: composition.opening.val).length + entry.indent)
  | order {first offender : Entry} {front back : List (Joint × Entry)} {joint : Joint} :
      (∀ parameter ∈ composition.invocantParameter, parameter.IsInvocant) →
      composition.entries = some (first, front ++ (joint, offender) :: back) →
      (first.parameter :: front.map fun (_, entry) => entry.parameter).Pairwise
        Parameter.MayPrecede →
      (∃ earlier ∈ first.parameter :: front.map fun (_, entry) => entry.parameter,
        ¬ earlier.MayPrecede offender.parameter) →
      Offends composition
        ((composition.head ++ first.text ++ joined front ++ joint.val).length + offender.indent)

/-- Parsing fails against a rule beyond the grammar, at the first text that breaks one. -/
def Refused (composition : Composition) : Prop :=
  ∃ place cause, composition.Offends place ∧ cause.category = .semantic ∧
    Signature.parseAt composition.text 0 = .error (.reading (.fault ⟨place, cause⟩))

end Composition

/-! ## The derivation of a composition -/

namespace Grammar

/-- What is parsed as a parameter derives from one. -/
theorem exists_paramOf (entry : Entry) :
    ∃ param : Param, textOf param.pieces = entry.text ∧ param.value = entry.parameter ∧
      param.Alone := by
  obtain ⟨before, text, whole, place, parsed⟩ := Param.parseAt_eq_ok_iff.1 entry.parsed
  obtain rfl : before = [] := List.eq_nil_of_length_eq_zero (by omega)
  obtain ⟨param, covers, same⟩ := Param.parse_sound parsed
  refine ⟨param, ?_, same.symm, covers.inContext, ?_⟩
  · have whole' : text = textOf param.pieces ++ [] := covers.whole
    rw [whole, List.nil_append, whole', List.append_nil]
  · rw [← same]
    exact entry.whole

noncomputable def paramOf (entry : Entry) : Param := Classical.choose (exists_paramOf entry)

theorem textOf_paramOf (entry : Entry) : textOf (paramOf entry).pieces = entry.text :=
  (Classical.choose_spec (exists_paramOf entry)).1

theorem value_paramOf (entry : Entry) : (paramOf entry).value = entry.parameter :=
  (Classical.choose_spec (exists_paramOf entry)).2.1

theorem alone_paramOf (entry : Entry) : (paramOf entry).Alone :=
  (Classical.choose_spec (exists_paramOf entry)).2.2

/-- A layout is inline blanks or a run of line ends; the other of the two is empty. -/
theorem exists_parts {text : Text} (h : Layout.IsLayout text) :
    ∃ (run : Option LineEnds) (blanks : Text), IsInline blanks ∧
      textOf (layoutPieces run) ++ blanks = text ∧ blanks ++ textOf (layoutPieces run) = text := by
  rcases h with inline | isRun
  · exact ⟨none, text, inline, rfl, List.append_nil text⟩
  · exact ⟨some ⟨text, isRun⟩, [], isInline_nil, by simp [layoutPieces, optional, Piece.text],
      by simp [layoutPieces, optional, Piece.text]⟩

/-- A symbol and the layout behind it. -/
theorem exists_symbol {c : Char} {kind : Token.Kind} (symbol : Token.Kind.ofSymbol? c = some kind)
    (gap : Gap) : ∃ (lexeme : Lexeme kind) (layout : Option LineEnds),
      textOf (.token kind lexeme :: layoutPieces layout) = c :: gap.val := by
  obtain ⟨run, blanks, inline, -, whole⟩ := exists_parts gap.property
  refine ⟨⟨[], [c], blanks, isInline_nil, inline, .symbol symbol⟩, run, ?_⟩
  simp [Piece.text, Spaced.text, whole]

theorem exists_separator (joint : Joint) :
    ∃ separator : Separator, textOf separator.pieces = joint.val := by
  obtain ⟨text, isRun | ⟨before, behind, rfl, isBefore, isBehind⟩⟩ := joint
  · exact ⟨.lineEnds ⟨text, isRun⟩, by simp [Separator.pieces, Piece.text]⟩
  · obtain ⟨run, blanks, inline, rfl, -⟩ := exists_parts isBefore
    obtain ⟨run', blanks', inline', -, rfl⟩ := exists_parts isBehind
    refine ⟨.comma run ⟨blanks, [','], blanks', inline, inline', .symbol rfl⟩ run', ?_⟩
    simp [Separator.pieces, Piece.text, Spaced.text]

noncomputable def separatorOf (joint : Joint) : Separator :=
  Classical.choose (exists_separator joint)

theorem textOf_separatorOf (joint : Joint) : textOf (separatorOf joint).pieces = joint.val :=
  Classical.choose_spec (exists_separator joint)

noncomputable def moreOf (more : List (Joint × Entry)) : List (Separator × Param) :=
  more.map fun (joint, entry) => (separatorOf joint, paramOf entry)

theorem textOf_moreOf (more : List (Joint × Entry)) :
    textOf (followingPieces (moreOf more)) = joined more := by
  induction more with
  | nil => rfl
  | cons next more ih =>
      simp only [moreOf, joined, followingPieces, List.map_cons, List.flatMap_cons, textOf_append,
        textOf_separatorOf, textOf_paramOf] at ih ⊢
      rw [ih]

theorem values_moreOf (more : List (Joint × Entry)) :
    (moreOf more).map (fun (_, param) => param.value) =
      more.map fun (_, entry) => entry.parameter := by
  simp [moreOf, Function.comp_def, value_paramOf]

/-- The tree derives the composition.  Where no parameter stands, the layout before the closing
parenthesis is part of the layout before it. -/
structure Composes (composition : Composition) (tree : Tree) : Prop where
  text : tree.text = composition.text
  invocant : tree.invocant.map Invocant.param =
    composition.invocant.map fun (entry, _) => paramOf entry
  noParams : composition.entries = none → tree.params = none
  params : ∀ first more, composition.entries = some (first, more) →
    ∃ trailing, tree.params = some ⟨paramOf first, moreOf more, trailing⟩ ∧
      textOf (layoutPieces trailing) ++ tree.closing.text = composition.closing.val ++ [')']
  opening : composition.invocant ≠ none →
    textOf (.token .openParen tree.opening :: layoutPieces tree.layout) =
      '(' :: composition.opening.val

/-- The opening parenthesis and the invocant. -/
theorem exists_front (opening : Gap) (invocant : Option (Entry × Gap)) :
    ∃ (parenthesis : Lexeme .openParen) (layout : Option LineEnds) (part : Option Invocant),
      textOf (.token .openParen parenthesis :: layoutPieces layout) = '(' :: opening.val ∧
      textOf (optional Invocant.pieces part) = (match invocant with
        | none => []
        | some (entry, gap) => entry.text ++ ':' :: gap.val) ∧
      part.map Invocant.param = invocant.map fun (entry, _) => paramOf entry := by
  obtain ⟨parenthesis, layout, opened⟩ := exists_symbol (c := '(') rfl opening
  cases invocant with
  | none => exact ⟨parenthesis, layout, none, opened, rfl, rfl⟩
  | some invocant =>
      obtain ⟨entry, gap⟩ := invocant
      obtain ⟨colon, behind, written⟩ := exists_symbol (c := ':') rfl gap
      refine ⟨parenthesis, layout, some ⟨paramOf entry, colon, behind⟩, opened, ?_, rfl⟩
      rw [optional, Invocant.pieces, textOf_append, textOf_paramOf, written]

theorem Tree.text_eq (tree : Tree) :
    tree.text = textOf (.token .openParen tree.opening :: layoutPieces tree.layout) ++
      (textOf (optional Invocant.pieces tree.invocant) ++
        (textOf (optional Params.pieces tree.params) ++ tree.closing.text)) := by
  simp [Tree.text, Tree.pieces, Piece.text]

theorem exists_composes (composition : Composition) : ∃ tree, Composes composition tree := by
  obtain ⟨opening, invocant, entries, closing⟩ := composition
  cases entries with
  | some entries =>
      obtain ⟨first, more⟩ := entries
      obtain ⟨parenthesis, layout, part, opened, written, same⟩ := exists_front opening invocant
      obtain ⟨trailing, blanks, inline, whole, -⟩ := exists_parts closing.property
      have closed : textOf (layoutPieces trailing) ++ (blanks ++ ([')'] ++ [])) =
          closing.val ++ [')'] := by
        rw [← List.append_assoc, whole, List.append_nil]
      refine ⟨⟨parenthesis, layout, part, some ⟨paramOf first, moreOf more, trailing⟩,
        ⟨blanks, [')'], [], inline, isInline_nil, .symbol rfl⟩⟩, ?_, same, nofun, ?_, fun _ => opened⟩
      · rw [Tree.text_eq, opened, written, optional, Params.pieces, textOf_append, textOf_append,
          textOf_paramOf, textOf_moreOf, List.append_assoc, List.append_assoc, Spaced.text, closed]
        simp [Composition.text, Composition.head, Composition.body]
      · rintro _ _ ⟨⟩
        exact ⟨trailing, rfl, closed⟩
  | none =>
      let closingParen : Lexeme .closeParen := ⟨[], [')'], [], isInline_nil, isInline_nil, .symbol rfl⟩
      cases invocant with
      | none =>
          obtain ⟨parenthesis, layout, part, opened, written, same⟩ :=
            exists_front ⟨opening.val ++ closing.val, opening.property.append closing.property⟩ none
          refine ⟨⟨parenthesis, layout, part, none, closingParen⟩, ?_, same, fun _ => rfl, ?_,
            fun absent => absurd rfl absent⟩
          · rw [Tree.text_eq, opened, written]
            simp [Composition.text, Composition.head, Composition.body, optional, Spaced.text,
              closingParen]
          · rintro _ _ ⟨⟩
      | some invocant =>
          obtain ⟨entry, gap⟩ := invocant
          obtain ⟨parenthesis, layout, part, opened, written, same⟩ := exists_front opening
            (some (entry, ⟨gap.val ++ closing.val, gap.property.append closing.property⟩))
          refine ⟨⟨parenthesis, layout, part, none, closingParen⟩, ?_, same, fun _ => rfl, ?_,
            fun _ => opened⟩
          · rw [Tree.text_eq, opened, written]
            simp [Composition.text, Composition.head, Composition.body, optional, Spaced.text,
              closingParen]
          · rintro _ _ ⟨⟩

section Composes

variable {composition : Composition} {tree : Tree}

theorem Composes.inContext (h : Composes composition tree) (rest : Text) :
    InContext tree.pieces rest := by
  refine Tree.inContext ?_ ?_ rest
  · intro invocant member
    have same := h.invocant
    rw [Option.mem_def.1 member, Option.map_some, eq_comm, Option.map_eq_some_iff] at same
    obtain ⟨⟨entry, gap⟩, -, isParam⟩ := same
    rw [← isParam]
    exact alone_paramOf entry
  · intro params member
    cases entries : composition.entries with
    | none =>
        rw [h.noParams entries] at member
        cases member
    | some found =>
        obtain ⟨first, more⟩ := found
        obtain ⟨trailing, isParams, -⟩ := h.params first more entries
        rw [isParams] at member
        cases member
        refine ⟨alone_paramOf first, ?_⟩
        intro next member
        obtain ⟨⟨joint, entry⟩, -, rfl⟩ := List.mem_map.1 member
        exact alone_paramOf entry

theorem Composes.invocantValue (h : Composes composition tree) :
    tree.invocantValue = composition.invocantParameter := by
  have same := congrArg (Option.map Param.value) h.invocant
  simpa [Tree.invocantValue, Composition.invocantParameter, Function.comp_def, value_paramOf]
    using same

theorem Composes.paramValues (h : Composes composition tree) :
    tree.paramValues = composition.params := by
  rw [Tree.paramValues, Composition.params]
  cases entries : composition.entries with
  | none =>
      rw [h.noParams entries]
      rfl
  | some found =>
      obtain ⟨first, more⟩ := found
      obtain ⟨trailing, isParams, -⟩ := h.params first more entries
      rw [isParams]
      simp [Params.values, value_paramOf, values_moreOf]

theorem Composes.allowed (h : Composes composition tree)
    (allowed : ∀ parameter ∈ composition.invocantParameter, parameter.IsInvocant) :
    ∀ parameter ∈ tree.invocantValue, Signature.invocantCause? parameter = none := by
  rw [h.invocantValue]
  intro parameter member
  exact Signature.invocantCause?_eq_none_iff.2 (allowed parameter member)

theorem Composes.admissible (h : Composes composition tree) (admitted : composition.Admitted) :
    Admissible tree := by
  refine ⟨h.allowed admitted.invocant, ?_⟩
  rw [h.paramValues]
  exact Signature.ordered_false_iff.2 admitted.order

end Composes

/-! ## Refusals -/

/-- The first character that is not blank stands behind the indent. -/
theorem length_indent (entry : Entry) (behind : Text) :
    entry.indent + (trim (entry.text ++ behind)).length = (entry.text ++ behind).length := by
  obtain ⟨kind, lexeme, pieces, split⟩ := (paramOf entry).exists_token
  obtain ⟨c, rest, literal, solid, -⟩ := lexeme.shape.head
  obtain ⟨more, whole⟩ : ∃ more, entry.text = lexeme.before ++ c :: more := by
    rw [← textOf_paramOf, split, textOf_cons, Piece.text, Spaced.text, literal]
    exact ⟨rest ++ (lexeme.behind ++ textOf pieces), by simp⟩
  have blank : IsBlanks lexeme.before := lexeme.lead.isBlanks
  have indented : (cut isBlank entry.text).1 = lexeme.before := by
    rw [whole, cut_append_of_all blank (by simpa using solid)]
  have stops : Stops isInlineBlank (c :: more ++ behind) := by simp [isInlineBlank, solid]
  have length : entry.indent = lexeme.before.length := congrArg List.length indented
  rw [length, whole, List.append_assoc, trim_append lexeme.lead, trim_of_stops stops]
  simp only [List.length_append]

/-- A list that fails a test has a shortest beginning that does. -/
theorem exists_first_failure {α : Type} (holds : List α → Prop) {list : List α} (empty : holds [])
    (fails : ¬ holds list) :
    ∃ front x back, list = front ++ x :: back ∧ holds front ∧ ¬ holds (front ++ [x]) := by
  induction list generalizing holds with
  | nil => exact absurd empty fails
  | cons x list ih =>
      by_cases first : holds [x]
      · obtain ⟨front, y, back, rfl, kept, broken⟩ :=
          ih (fun list => holds (x :: list)) first fails
        exact ⟨x :: front, y, back, rfl, kept, broken⟩
      · exact ⟨[], x, list, rfl, empty, first⟩

section Refused

variable {composition : Composition} {tree : Tree}

/-- The fault lies where the text begins that reading is refused at. -/
theorem refused_of_refusedAt {behind : Text} {place : Nat}
    (h : RefusedAt composition.text behind (Signature.read (.ofCursor ⟨[], composition.text⟩)))
    (offends : composition.Offends place)
    (offset : place + (trim behind).length = composition.text.length) : composition.Refused := by
  obtain ⟨⟨found, cause⟩, after, failed, category, offset'⟩ := h
  have same : found = place := by
    simp only at offset'
    omega
  subst same
  have checked : (⟨.string composition.text, 0, .models⟩ : Request).check =
      .ok ⟨[], composition.text⟩ := check_eq_ok_iff.2 ⟨rfl, rfl⟩
  refine ⟨found, cause, offends, category, ?_⟩
  rw [Signature.parseAt, checked]
  simp only [Signature.parse, Reading.parse, failed, Request.built]

theorem stands_start (text : Text) : Reading.Stands text 0 (.ofCursor ⟨[], text⟩) :=
  ⟨_, .fresh _, rfl, Nat.le_refl 0⟩

theorem Composes.faces (h : Composes composition tree) :
    (Lexer.ofCursor ⟨[], composition.text⟩).Faces (tree.text ++ []) := by
  rw [List.append_nil, h.text]
  exact faces_of_rest rfl

theorem Composes.refused_invocant (h : Composes composition tree) {entry : Entry} {gap : Gap}
    (isInvocant : composition.invocant = some (entry, gap))
    (refused : ¬ entry.parameter.IsInvocant) : composition.Refused := by
  have same := h.invocant
  rw [isInvocant, Option.map_some, Option.map_eq_some_iff] at same
  obtain ⟨invocant, found, isParam⟩ := same
  have isRefused : Signature.invocantCause? invocant.param.value ≠ none := by
    rw [isParam, value_paramOf, ne_eq, Signature.invocantCause?_eq_none_iff]
    exact refused
  have read := read_refused_invocant found isRefused (h.inContext []) (stands_start _) h.faces
  refine refused_of_refusedAt read (.invocant isInvocant refused) ?_
  -- the invocant stands right behind the opening parenthesis and its layout
  have opening := h.opening (by simp [isInvocant])
  obtain ⟨behind, inside⟩ : ∃ behind, textOf tree.inside = entry.text ++ behind := by
    rw [Tree.inside, found, optional, Invocant.pieces, isParam, List.append_assoc, textOf_append,
      textOf_paramOf]
    exact ⟨_, rfl⟩
  have whole : composition.text = '(' :: composition.opening.val ++ (entry.text ++ behind) := by
    rw [← h.text, Tree.text, Tree.pieces_eq, ← List.cons_append, textOf_append, opening, inside]
  have indent := length_indent entry behind
  rw [List.append_nil, inside, whole, List.length_append]
  omega

/-- The first parameter out of order, by what may precede what. -/
theorem exists_offender {first : Entry} {more : List (Joint × Entry)}
    (refused : ¬ (first.parameter :: more.map fun (_, entry) => entry.parameter).Pairwise
      Parameter.MayPrecede) :
    ∃ front joint offender back, more = front ++ (joint, offender) :: back ∧
      (first.parameter :: front.map fun (_, entry) => entry.parameter).Pairwise
        Parameter.MayPrecede ∧
      ∃ earlier ∈ first.parameter :: front.map fun (_, entry) => entry.parameter,
        ¬ earlier.MayPrecede offender.parameter := by
  obtain ⟨front, ⟨joint, offender⟩, back, rfl, ordered, broken⟩ := exists_first_failure
    (fun more : List (Joint × Entry) => (first.parameter :: more.map fun (_, entry) =>
      entry.parameter).Pairwise Parameter.MayPrecede) (by simp) refused
  refine ⟨front, joint, offender, back, rfl, ordered, ?_⟩
  rw [List.map_append, ← List.cons_append, List.pairwise_append] at broken
  apply Classical.byContradiction
  intro nobody
  refine broken ⟨ordered, by simp, ?_⟩
  intro earlier member later isOffender
  obtain rfl := List.mem_singleton.1 isOffender
  exact Classical.byContradiction fun mayNot => nobody ⟨earlier, member, mayNot⟩

theorem Composes.refused_order (h : Composes composition tree)
    (allowed : ∀ parameter ∈ composition.invocantParameter, parameter.IsInvocant)
    (refused : ¬ composition.params.Pairwise Parameter.MayPrecede) : composition.Refused := by
  obtain ⟨⟨first, more⟩, entries⟩ : ∃ found, composition.entries = some found := by
    cases entries : composition.entries with
    | none => simp [Composition.params, entries] at refused
    | some found => exact ⟨found, rfl⟩
  simp only [Composition.params, entries] at refused
  obtain ⟨front, joint, offender, back, rfl, ordered, earlier, member, mayNot⟩ :=
    exists_offender refused
  obtain ⟨trailing, isParams, closed⟩ := h.params _ _ entries
  have disorder : OutOfOrder ⟨paramOf first, moreOf (front ++ (joint, offender) :: back), trailing⟩
      (moreOf front) (separatorOf joint) (paramOf offender) (moreOf back) := by
    refine ⟨by simp [moreOf], ?_, ?_⟩
    · rw [Signature.ordered_false_iff, value_paramOf, values_moreOf]
      exact ordered
    · rw [Signature.ordered_false_iff, value_paramOf, value_paramOf, values_moreOf,
        List.pairwise_append]
      rintro ⟨-, -, mayPrecede⟩
      exact mayNot (mayPrecede earlier member _ (by simp))
  have read := read_refused_order isParams disorder (h.allowed allowed) (h.inContext [])
    (stands_start _) h.faces
  refine refused_of_refusedAt read (.order allowed entries ordered ⟨earlier, member, mayNot⟩) ?_
  -- what stands behind the offender, in the derivation and in the composition
  have behind : behindText (moreOf back) trailing (tree.closing.text ++ []) =
      joined back ++ (composition.closing.val ++ [')']) := by
    rw [behindText, textOf_append, textOf_moreOf, List.append_nil, List.append_assoc, closed]
  have whole : composition.text = (composition.head ++ first.text ++ joined front ++ joint.val) ++
      (offender.text ++ (joined back ++ (composition.closing.val ++ [')']))) := by
    simp [Composition.text, Composition.body, entries, joined]
  have indent := length_indent offender (joined back ++ (composition.closing.val ++ [')']))
  have length := congrArg List.length whole
  rw [List.length_append] at length
  rw [textOf_paramOf, behind]
  omega

end Refused

/-- **Texts of parameters make a signature.**  If the rules beyond the grammar hold of them, the
signature is of just their parameters, and nothing is left over.  If not, parsing is refused at
the first character, blanks aside, of the first text that breaks a rule. -/
theorem parseAt_compose (composition : Composition) :
    (composition.Admitted → ∃ signature, Signature.parseAt composition.text 0 =
        .ok (signature, []) ∧
      signature.IsOf composition.invocantParameter composition.params) ∧
    (¬ composition.Admitted → composition.Refused) := by
  obtain ⟨tree, composes⟩ := exists_composes composition
  constructor
  · intro admitted
    have parsed := parse_of_tree (composes.inContext []) (stops_nil _)
      (composes.admissible admitted) []
    rw [List.append_nil, composes.text, Tree.value, composes.invocantValue,
      composes.paramValues] at parsed
    exact ⟨_, parseAt_eq_ok_iff.2 ⟨[], composition.text, rfl, rfl, parsed⟩,
      Signature.isOf_assemble _ _⟩
  · intro refused
    by_cases allowed : ∀ parameter ∈ composition.invocantParameter, parameter.IsInvocant
    · exact composes.refused_order allowed fun order => refused ⟨allowed, order⟩
    · obtain ⟨parameter, member, notAllowed⟩ : ∃ parameter ∈ composition.invocantParameter,
          ¬ parameter.IsInvocant := by
        simpa using allowed
      obtain ⟨⟨entry, gap⟩, isInvocant, rfl⟩ := Option.map_eq_some_iff.1 member
      exact composes.refused_invocant isInvocant notAllowed

theorem selfContained_quoted_brace :
    ∀ block ∈ ["\x7b'\x7d'\x7d".toList], IsSelfContained block := by
  intro block member
  obtain rfl := List.mem_singleton.1 member
  exact fun _ => rfl

/-- An invocant before a comment, an optional parameter, and a block that holds a quoted
brace.  A required parameter in the last place is refused, a named one is not. -/
theorem parseAt_compose_quoted_brace :
    ∃ named required : Composition,
      named.text = "($s: # it's\n $x? ,\n :$y where \x7b'\x7d'\x7d )".toList ∧ named.Admitted ∧
      (∃ signature, Signature.parseAt named.text 0 = .ok (signature, []) ∧
        signature.IsOf named.invocantParameter named.params) ∧
      required.text = "($s: # it's\n $x? ,\n $y where \x7b'\x7d'\x7d )".toList ∧
      ¬ required.Admitted ∧ required.Refused := by
  let self : Entry := ⟨"$s".toList, ⟨.positional, none, "$s".toList, true, none, []⟩,
    eq_ok_of_toOption (by decide +kernel), by simp⟩
  let first : Entry := ⟨"$x? ".toList, ⟨.positional, none, "$x".toList, false, none, []⟩,
    eq_ok_of_toOption (by decide +kernel), by simp⟩
  let byName : Entry := ⟨" :$y where \x7b'\x7d'\x7d".toList,
    ⟨.named none, none, "$y".toList, false, none, ["\x7b'\x7d'\x7d".toList]⟩,
    eq_ok_of_toOption (by decide +kernel), selfContained_quoted_brace⟩
  let byPlace : Entry := ⟨" $y where \x7b'\x7d'\x7d".toList,
    ⟨.positional, none, "$y".toList, true, none, ["\x7b'\x7d'\x7d".toList]⟩,
    eq_ok_of_toOption (by decide +kernel), selfContained_quoted_brace⟩
  let comment : Gap := ⟨([' '] ++ "# it's".toList ++ ['\n']) ++ [' '],
    .inr (.last (.mk rfl (.inr ⟨" it's".toList, by decide, by decide⟩) (.inr (.inr rfl))) rfl)⟩
  let comma : Joint := ⟨[] ++ ',' :: (([] ++ [] ++ ['\n']) ++ []), .inr ⟨_, _, rfl, .inl rfl,
    .inr (.last (.mk rfl (.inl rfl) (.inr (.inr rfl))) rfl)⟩⟩
  let closing : Gap := ⟨[' '], .inl rfl⟩
  let compose (last : Entry) : Composition :=
    ⟨⟨[], .inl rfl⟩, some (self, comment), some (first, [(comma, last)]), closing⟩
  have admitted : (compose byName).Admitted := by
    refine ⟨?_, ?_⟩
    · rintro _ ⟨⟩
      exact ⟨rfl, rfl, rfl⟩
    · simp [compose, Composition.params, Parameter.MayPrecede, byName, Parameter.isPositional,
        Parameter.isNamed, Parameter.Style.isNamed]
  have refused : ¬ (compose byPlace).Admitted := by
    rintro ⟨-, order⟩
    simp [compose, Composition.params, Parameter.MayPrecede, first, byPlace, Parameter.isPositional,
      Parameter.isNamed, Parameter.Style.isNamed] at order
  exact ⟨compose byName, compose byPlace, by decide +kernel, admitted,
    (parseAt_compose (compose byName)).1 admitted, by decide +kernel, refused,
    (parseAt_compose (compose byPlace)).2 refused⟩

end Grammar

end MethodSignature
