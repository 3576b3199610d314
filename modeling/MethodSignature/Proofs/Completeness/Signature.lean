/-
# MethodSignature.Proofs.Completeness.Signature -- a signature that is written is read

Any derivation whose pieces are read as they stand, and which keeps the two rules beyond
the grammar, is parsed: the answer is its value, and what follows it is left
(`parse_of_tree`).  Together with soundness this says exactly what parsing does
(`parse_eq_ok_iff`).
-/
import MethodSignature.Proofs.Completeness.Parameter
import MethodSignature.Proofs.Soundness.Signature

namespace MethodSignature.Grammar

set_option autoImplicit false

open Text

/-! ## Line ends and separators -/

section LineEnds

variable {run : LineEnds} {pieces : List Piece} {following : Text} {lexer : Lexer}

theorem kind?_lineEnds (inContext : InContext (.lineEnds run :: pieces) following) :
    Token.kind? (textOf (.lineEnds run :: pieces) ++ following) = some .newline := by
  obtain ⟨taken, found⟩ := inContext.1
  rw [textOf_cons, List.append_assoc]
  exact Token.kind?_of_lineEnds? found

theorem accept_lineEnds (inContext : InContext (.lineEnds run :: pieces) following)
    (faces : lexer.Faces (textOf (.lineEnds run :: pieces) ++ following)) :
    ∃ token next, Reading.accept .newline lexer = .ok (some token) ⟨[], next⟩ ∧
      next.rest = trim (textOf pieces ++ following) := by
  obtain ⟨taken, found⟩ := inContext.1
  rw [textOf_cons, List.append_assoc] at faces
  exact accept_of_lineEnds? faces found

end LineEnds

theorem avoids_layout {layout : Option LineEnds} {following : Text} {kinds : List Token.Kind}
    (inContext : InContext (layoutPieces layout) following) (outside : .newline ∉ kinds)
    (avoids : Avoids following kinds) : Avoids (textOf (layoutPieces layout) ++ following) kinds := by
  cases layout with
  | none => exact avoids
  | some run => exact ⟨.newline, kind?_lineEnds inContext, outside⟩

/-- The line ends that may stand somewhere, taken or found missing. -/
theorem accept_newline_reads {layout : Option LineEnds} {following : Text}
    (inContext : InContext (layoutPieces layout) following)
    (avoids : Avoids following [.newline]) {lexer : Lexer}
    (faces : lexer.Faces (textOf (layoutPieces layout) ++ following)) :
    ∃ token after, Reading.accept .newline lexer = .ok token after ∧
      token.isSome = layout.isSome ∧ after.Faces following := by
  cases layout with
  | none =>
      obtain ⟨after, accepted, faces'⟩ := accept_of_avoids .newline avoids (by simp) faces
      exact ⟨none, after, accepted, rfl, faces'⟩
  | some run =>
      obtain ⟨token, next, accepted, rest⟩ := accept_lineEnds inContext faces
      exact ⟨some token, _, accepted, rfl, faces_of_trim rest⟩

theorem skipNewline_reads {layout : Option LineEnds} {following : Text}
    (inContext : InContext (layoutPieces layout) following)
    (avoids : Avoids following [.newline]) :
    Reads Reading.skipNewline (layoutPieces layout) () following := by
  intro lexer faces
  obtain ⟨token, after, accepted, -, faces'⟩ := accept_newline_reads inContext avoids faces
  exact ⟨after, Reading.bind_ok accepted rfl, faces'⟩

def Separator.hasComma : Separator → Bool
  | .lineEnds _ => false
  | .comma _ _ _ => true

theorem separator?_reads (separator : Separator) {following : Text}
    (inContext : InContext separator.pieces following)
    (avoids : Avoids following [.newline, .comma]) :
    Reads Signature.separator? separator.pieces (some separator.hasComma) following := by
  intro lexer faces
  cases separator with
  | lineEnds run =>
      obtain ⟨token, next, accepted, rest⟩ := accept_lineEnds inContext faces
      obtain ⟨after, noComma, faces'⟩ :=
        accept_of_avoids .comma avoids (by simp) (faces_of_trim rest)
      exact ⟨after, Reading.bind_ok accepted (Reading.bind_ok noComma rfl), faces'⟩
  | comma before sign behind =>
      simp only [Separator.pieces] at inContext faces
      obtain ⟨first, others⟩ := inContext_append.1 inContext
      rw [textOf_append, List.append_assoc] at faces
      have beforeComma : Avoids _ [Token.Kind.newline] := avoids_token others (by decide)
      obtain ⟨token, lexer₁, newlineRead, -, faces₁⟩ := accept_newline_reads first beforeComma faces
      obtain ⟨token', next, commaRead, -, rest⟩ := accept_token others faces₁
      obtain ⟨after, skipped, faces₂⟩ :=
        skipNewline_reads others.2 (avoids.mono (by decide)) (faces_of_trim rest)
      exact ⟨after, Reading.bind_ok newlineRead (Reading.bind_ok commaRead
        (Reading.bind_ok skipped rfl)), faces₂⟩

theorem separator?_none {following : Text} (avoids : Avoids following [.newline, .comma]) :
    Reads Signature.separator? [] none following := by
  intro lexer faces
  obtain ⟨lexer₁, noNewline, faces₁⟩ := accept_of_avoids .newline avoids (by simp) faces
  obtain ⟨after, noComma, faces₂⟩ := accept_of_avoids .comma avoids (by simp) faces₁
  exact ⟨after, Reading.bind_ok noNewline (Reading.bind_ok noComma rfl), faces₂⟩

/-! ## Parameters -/

theorem avoids_param {param : Param} {following : Text}
    (inContext : InContext param.pieces following) {kinds : List Token.Kind}
    (outside : ∀ kind ∈ beginning, kind ∉ kinds) :
    Avoids (textOf param.pieces ++ following) kinds := by
  obtain ⟨alternation, subject, mark, default, constraints⟩ := param
  cases alternation with
  | some alternation => exact avoids_token inContext (outside _ (by decide))
  | none => cases subject <;> exact avoids_token inContext (outside _ (by decide))

/-- What follows a parameter does not go on with it. -/
theorem avoids_following {more : List (Separator × Param)} {trailing : Option LineEnds}
    {following : Text} {kinds : List Token.Kind} (noNewline : .newline ∉ kinds)
    (noComma : .comma ∉ kinds) (avoids : Avoids following kinds)
    (inContext : InContext (followingPieces more ++ layoutPieces trailing) following) :
    Avoids (textOf (followingPieces more ++ layoutPieces trailing) ++ following) kinds := by
  cases more with
  | nil => exact avoids_layout inContext noNewline avoids
  | cons next more =>
      obtain ⟨separator, param⟩ := next
      cases separator with
      | lineEnds run => exact ⟨.newline, kind?_lineEnds inContext, noNewline⟩
      | comma before sign behind =>
          cases before with
          | none => exact avoids_token inContext noComma
          | some run => exact ⟨.newline, kind?_lineEnds inContext, noNewline⟩

theorem closes_avoids {following : Text} (closes : Token.kind? following = some .closeParen)
    {kinds : List Token.Kind} (outside : .closeParen ∉ kinds) : Avoids following kinds :=
  ⟨.closeParen, closes, outside⟩

theorem require_none {declaration : Declaration} {cause : Option Cause} (none : cause = none)
    (lexer : Lexer) : Signature.require declaration cause lexer = .ok () lexer := by
  rw [none]
  rfl

theorem readParams_reads {trailing : Option LineEnds} {following : Text}
    (closes : Token.kind? following = some .closeParen) {more : List (Separator × Param)}
    {fuel : Nat} (enough : more.length < fuel) {optionalSeen : Bool} {declaration : Declaration}
    (ordered : Signature.Ordered optionalSeen
      (declaration.parameter :: more.map fun (_, param) => param.value))
    (inContext : InContext (followingPieces more ++ layoutPieces trailing) following) :
    Reads (Signature.readParams fuel optionalSeen declaration)
      (followingPieces more ++ layoutPieces trailing)
      (declaration.parameter :: more.map fun (_, param) => param.value) following := by
  induction more generalizing fuel optionalSeen declaration with
  | nil =>
      intro lexer faces
      obtain ⟨fuel, rfl⟩ : ∃ less, fuel = less + 1 := ⟨fuel - 1, by simp at enough; omega⟩
      obtain ⟨allowed, -⟩ := ordered
      cases trailing with
      | none =>
          obtain ⟨after, none, faces'⟩ := separator?_none (closes_avoids closes (by decide)) faces
          exact ⟨after, Reading.bind_ok (require_none allowed lexer) (Reading.bind_ok none rfl), faces'⟩
      | some run =>
          obtain ⟨lexer₁, separatorRead, faces₁⟩ :=
            separator?_reads (.lineEnds run) inContext (closes_avoids closes (by decide)) faces
          obtain ⟨lexer₂, noParam, faces₂⟩ := read?_none (closes_avoids closes (by decide)) faces₁
          obtain ⟨after, seen, faces₃⟩ := sees_of_kind? .closeParen faces₂ closes
          exact ⟨after, Reading.bind_ok (require_none allowed lexer) (Reading.bind_ok separatorRead
            (Reading.bind_ok noParam (Reading.bind_ok seen rfl))), faces₃⟩
  | cons next more ih =>
      intro lexer faces
      obtain ⟨separator, param⟩ := next
      obtain ⟨fuel, rfl⟩ : ∃ less, fuel = less + 1 := ⟨fuel - 1, by simp at enough; omega⟩
      obtain ⟨allowed, ordered⟩ := ordered
      simp only [followingPieces, List.flatMap_cons, List.append_assoc] at inContext faces
      obtain ⟨separatorFits, inContext⟩ := inContext_append.1 inContext
      obtain ⟨paramFits, moreFits⟩ := inContext_append.1 inContext
      rw [textOf_append, List.append_assoc, textOf_append, List.append_assoc] at faces
      rw [textOf_append, List.append_assoc] at separatorFits
      obtain ⟨lexer₁, separatorRead, faces₁⟩ :=
        separator?_reads separator separatorFits (avoids_param paramFits (by decide)) faces
      have ends : Avoids _ continuing := avoids_following (by decide) (by decide)
        (closes_avoids closes (by decide)) moreFits
      obtain ⟨declaration', lexer₂, paramRead, same, faces₂⟩ := read?_reads paramFits ends faces₁
      simp only [List.map_cons, ← same] at ordered ⊢
      obtain ⟨after, moreRead, faces₃⟩ := ih (Nat.lt_of_succ_lt_succ enough) ordered moreFits faces₂
      exact ⟨after, Reading.bind_ok (require_none allowed lexer) (Reading.bind_ok separatorRead
        (Reading.bind_ok paramRead (Reading.bind_ok moreRead rfl))), faces₃⟩

/-- There are no more parameters than characters. -/
theorem length_more_lt {more : List (Separator × Param)} {trailing : Option LineEnds}
    {following : Text} {lexer : Lexer}
    (faces : lexer.Faces (textOf (followingPieces more ++ layoutPieces trailing) ++ following)) :
    more.length < lexer.remaining.length + 1 := by
  have inked : ∀ next : Separator × Param, 0 < ink (textOf (next.1.pieces ++ next.2.pieces)) := by
    intro next
    have := next.2.ink_pos
    rw [textOf_append, ink_append]
    omega
  have bound := length_le_ink inked more
  have inside := faces.ink_le
  rw [textOf_append, List.append_assoc, ink_append] at inside
  simp only [followingPieces] at inside
  omega

/-- The parameters of a signature, from the first one on. -/
theorem readFrom_reads {param : Param} {more : List (Separator × Param)}
    {trailing : Option LineEnds} {following : Text}
    (closes : Token.kind? following = some .closeParen) {declaration : Declaration}
    (same : declaration.parameter = param.value)
    (ordered : Signature.Ordered false (Params.values ⟨param, more, trailing⟩))
    (inContext : InContext (followingPieces more ++ layoutPieces trailing) following) :
    Reads (Signature.readFrom (some declaration)) (followingPieces more ++ layoutPieces trailing)
      (Params.values ⟨param, more, trailing⟩) following := by
  intro lexer faces
  have enough := length_more_lt faces
  simp only [Params.values, ← same] at ordered ⊢
  obtain ⟨after, read, faces'⟩ := readParams_reads closes enough ordered inContext faces
  exact ⟨after, Reading.bind_ok rfl read, faces'⟩

/-! ## Signatures -/

theorem take_token {kind : Token.Kind} {lexeme : Lexeme kind} {pieces : List Piece}
    {following : Text} {lexer : Lexer}
    (inContext : InContext (.token kind lexeme :: pieces) following)
    (faces : lexer.Faces (textOf (.token kind lexeme :: pieces) ++ following)) :
    ∃ token next, Lexer.take lexer = .ok token ⟨[], next⟩ ∧
      next.rest = trim (textOf pieces ++ following) := by
  obtain ⟨cursor, token, next, stands, shows, rfl, -, rest⟩ :=
    (faces_literal faces).shows_of_readsAs lexeme.shape inContext.1
  have more : token.kind ≠ .endOfInput := lexeme.shape.kind_ne.2
  rw [trim_append lexeme.inline] at rest
  exact ⟨token, next, (take_eq_ok_iff stands).2 ⟨next, shows, more, rfl⟩, rest⟩

/-- The colon behind the invocant shows that it is one. -/
theorem endsInvocant_true {declaration : Declaration} {colon : Lexeme .colon}
    {layout : Option LineEnds} {following : Text}
    (allowed : Signature.invocantCause? declaration.parameter = none)
    (inContext : InContext (.token .colon colon :: layoutPieces layout) following)
    (avoids : Avoids following [.newline]) :
    Reads (Signature.endsInvocant declaration) (.token .colon colon :: layoutPieces layout) true
      following := by
  intro lexer faces
  obtain ⟨lexer₁, seen, faces₁⟩ := sees_of_kind? .colon faces (kind?_token inContext)
  obtain ⟨token, next, taken, rest⟩ := take_token inContext faces₁
  obtain ⟨after, skipped, faces₂⟩ := skipNewline_reads inContext.2 avoids (faces_of_trim rest)
  refine ⟨after, Reading.bind_ok seen ?_, faces₂⟩
  exact Reading.bind_ok (require_none allowed lexer₁) (Reading.bind_ok taken
    (Reading.bind_ok skipped rfl))

theorem endsInvocant_false (declaration : Declaration) {following : Text}
    (avoids : Avoids following [.colon]) :
    Reads (Signature.endsInvocant declaration) [] false following := by
  intro lexer faces
  obtain ⟨kind, shown, outside⟩ := avoids
  obtain ⟨after, seen, faces'⟩ := sees_of_kind? .colon faces shown
  have unseen : decide (kind = .colon) = false := by
    rw [decide_eq_false_iff_not]
    rintro rfl
    exact outside (by simp)
  rw [unseen] at seen
  exact ⟨after, Reading.bind_ok seen rfl, faces'⟩

/-- Reading takes the pieces, answers `value` and stands right before `rest`, all blanks in
between taken. -/
def Ends (reading : Reading Signature) (pieces : List Piece) (value : Signature) (rest : Text) :
    Prop :=
  ∀ ⦃lexer : Lexer⦄, lexer.Faces (textOf pieces ++ rest) →
    ∃ next : Cursor, reading lexer = .ok value ⟨[], next⟩ ∧ next.rest = trim rest

theorem finish_ends {closing : Lexeme .closeParen} {rest : Text}
    (inContext : InContext [.token .closeParen closing] rest) (invocant : Option Parameter)
    (params : List Parameter) :
    Ends (Signature.finish invocant params) [.token .closeParen closing]
      (.assemble invocant params) rest := by
  intro lexer faces
  obtain ⟨token, next, expected, -, behind⟩ := expect_token inContext faces
  exact ⟨next, Reading.bind_ok expected rfl, behind⟩

/-- The parameters behind the first one and the closing parenthesis, as pieces. -/
def Params.ending (params : Params) (closing : Lexeme .closeParen) : List Piece :=
  (followingPieces params.more ++ layoutPieces params.trailing) ++ [.token .closeParen closing]

theorem avoids_ending {params : Params} {closing : Lexeme .closeParen} {rest : Text}
    (inContext : InContext (params.ending closing) rest) {kinds : List Token.Kind}
    (outside : ∀ kind ∈ [Token.Kind.newline, .comma, .closeParen], kind ∉ kinds) :
    Avoids (textOf (params.ending closing) ++ rest) kinds := by
  obtain ⟨following, closed⟩ := inContext_append.1 inContext
  rw [Params.ending, textOf_append, List.append_assoc]
  exact avoids_following (outside _ (by decide)) (outside _ (by decide))
    (closes_avoids (kind?_token closed) (outside _ (by decide))) following

theorem readFrom_ends {params : Params} {closing : Lexeme .closeParen} {rest : Text}
    (inContext : InContext (params.ending closing) rest) {declaration : Declaration}
    (same : declaration.parameter = params.first.value)
    (ordered : Signature.Ordered false params.values) (invocant : Option Parameter) :
    Ends (do
        let found ← Signature.readFrom (some declaration)
        Signature.finish invocant found)
      (params.ending closing) (.assemble invocant params.values) rest := by
  intro lexer faces
  obtain ⟨following, closed⟩ := inContext_append.1 inContext
  rw [Params.ending, textOf_append, List.append_assoc] at faces
  obtain ⟨lexer₁, read, faces₁⟩ :=
    readFrom_reads (kind?_token closed) same ordered following faces
  obtain ⟨next, finished, behind⟩ := finish_ends closed invocant params.values faces₁
  exact ⟨next, Reading.bind_ok read finished, behind⟩

/-- What stands behind the invocant. -/
def Tree.body (tree : Tree) : List Piece :=
  optional Params.pieces tree.params ++ [.token .closeParen tree.closing]

theorem Params.pieces_closing (params : Params) (closing : Lexeme .closeParen) :
    params.pieces ++ [.token .closeParen closing] =
      params.first.pieces ++ params.ending closing := by
  simp only [Params.pieces, Params.ending, List.append_assoc]

theorem avoids_body {tree : Tree} {rest : Text} (inContext : InContext tree.body rest) :
    Avoids (textOf tree.body ++ rest) [.newline] := by
  obtain ⟨opening, layout, invocant, params, closing⟩ := tree
  cases params with
  | none => exact avoids_token inContext (by decide)
  | some params =>
      simp only [Tree.body, optional, Params.pieces_closing] at inContext ⊢
      obtain ⟨first, -⟩ := inContext_append.1 inContext
      rw [textOf_append, List.append_assoc]
      exact avoids_param first (by decide)

/-- The parameters behind an invocant. -/
theorem body_ends {tree : Tree} {rest : Text} (inContext : InContext tree.body rest)
    (ordered : Signature.Ordered false tree.paramValues) (invocant : Option Parameter) :
    Ends (do
        let first ← Declaration.read?
        let found ← Signature.readFrom first
        Signature.finish invocant found)
      tree.body (.assemble invocant tree.paramValues) rest := by
  intro lexer faces
  obtain ⟨opening, layout, before, params, closing⟩ := tree
  cases params with
  | none =>
      have avoids : Avoids _ beginning := avoids_token inContext (by decide)
      obtain ⟨lexer₁, noParam, faces₁⟩ := read?_none avoids faces
      obtain ⟨next, finished, behind⟩ := finish_ends inContext invocant [] faces₁
      exact ⟨next, Reading.bind_ok noParam (Reading.bind_ok rfl finished), behind⟩
  | some params =>
      simp only [Tree.body, optional, Params.pieces_closing] at inContext faces
      obtain ⟨first, ending⟩ := inContext_append.1 inContext
      rw [textOf_append, List.append_assoc] at faces
      obtain ⟨declaration, lexer₁, read, same, faces₁⟩ :=
        read?_reads first (avoids_ending ending (by decide)) faces
      obtain ⟨next, finished, behind⟩ := readFrom_ends ending same ordered invocant faces₁
      exact ⟨next, Reading.bind_ok read finished, behind⟩

/-- What stands behind the opening parenthesis and its line ends. -/
def Tree.inside (tree : Tree) : List Piece := optional Invocant.pieces tree.invocant ++ tree.body

theorem Tree.pieces_eq (tree : Tree) :
    tree.pieces = .token .openParen tree.opening :: (layoutPieces tree.layout ++ tree.inside) := rfl

theorem avoids_inside {tree : Tree} {rest : Text} (inContext : InContext tree.inside rest) :
    Avoids (textOf tree.inside ++ rest) [.newline] := by
  obtain ⟨opening, layout, invocant, params, closing⟩ := tree
  cases invocant with
  | none => exact avoids_body inContext
  | some invocant =>
      simp only [Tree.inside, optional, Invocant.pieces, List.append_assoc] at inContext ⊢
      obtain ⟨first, -⟩ := inContext_append.1 inContext
      rw [textOf_append, List.append_assoc]
      exact avoids_param first (by decide)

/-- Reading a signature behind its opening parenthesis and the line ends there. -/
def readInside : Reading Signature := do
  match ← Declaration.read? with
  | none => Signature.finish none []
  | some first =>
      if ← Signature.endsInvocant first then
        let next ← Declaration.read?
        let params ← Signature.readFrom next
        Signature.finish (some first.parameter) params
      else
        let params ← Signature.readFrom (some first)
        Signature.finish none params

theorem read_eq : Signature.read = (do
    let _ ← Reading.expect .openParen
    Reading.skipNewline
    readInside) := rfl

/-- With an invocant: it shows by its colon, and the parameters follow. -/
theorem readInside_of_invocant {tree : Tree} {invocant : Invocant}
    (isInvocant : tree.invocant = some invocant) {rest : Text}
    (inContext : InContext tree.inside rest) (admissible : Admissible tree) :
    Ends readInside tree.inside tree.value rest := by
  intro lexer faces
  obtain ⟨allowed, ordered⟩ := admissible
  obtain ⟨opening, lines, found, params, closing⟩ := tree
  simp only at isInvocant
  subst isInvocant
  simp only [Tree.inside, optional, Invocant.pieces, List.append_assoc] at inContext faces
  obtain ⟨first, inContext⟩ := inContext_append.1 inContext
  obtain ⟨colon, body⟩ := inContext_append.1 inContext
  rw [textOf_append, List.append_assoc] at faces
  have atColon : Avoids _ continuing := avoids_token inContext (by decide)
  obtain ⟨declaration, lexer₁, read, same, faces₁⟩ := read?_reads first atColon faces
  have isAllowed : Signature.invocantCause? declaration.parameter = none := by
    rw [same]
    exact allowed _ rfl
  rw [textOf_append, List.append_assoc] at faces₁
  obtain ⟨lexer₂, ends, faces₂⟩ := endsInvocant_true isAllowed colon (avoids_body body) faces₁
  obtain ⟨next, finished, place⟩ := body_ends body ordered (some declaration.parameter) faces₂
  refine ⟨next, Reading.bind_ok read (Reading.bind_ok ends ?_), place⟩
  rw [same] at finished ⊢
  exact finished

theorem readInside_of_none {tree : Tree} (noInvocant : tree.invocant = none) {rest : Text}
    (inContext : InContext tree.inside rest) (admissible : Admissible tree) :
    Ends readInside tree.inside tree.value rest := by
  intro lexer faces
  obtain ⟨-, ordered⟩ := admissible
  obtain ⟨opening, lines, invocant, params, closing⟩ := tree
  simp only at noInvocant
  subst noInvocant
  cases params with
  | none =>
      have avoids : Avoids _ beginning := avoids_token inContext (by decide)
      obtain ⟨lexer₁, noParam, faces₁⟩ := read?_none avoids faces
      obtain ⟨next, finished, place⟩ := finish_ends inContext none [] faces₁
      exact ⟨next, Reading.bind_ok noParam finished, place⟩
  | some params =>
      simp only [Tree.inside, Tree.body, optional, List.nil_append, Params.pieces_closing]
        at inContext faces
      obtain ⟨first, ending⟩ := inContext_append.1 inContext
      rw [textOf_append, List.append_assoc] at faces
      obtain ⟨declaration, lexer₁, read, same, faces₁⟩ :=
        read?_reads first (avoids_ending ending (by decide)) faces
      obtain ⟨lexer₂, noColon, faces₂⟩ :=
        endsInvocant_false declaration (avoids_ending ending (by decide)) faces₁
      obtain ⟨next, finished, place⟩ := readFrom_ends ending same ordered none faces₂
      exact ⟨next, Reading.bind_ok read (Reading.bind_ok noColon finished), place⟩

/-- **Reading a signature** that is written takes it. -/
theorem read_ends {tree : Tree} {rest : Text} (inContext : InContext tree.pieces rest)
    (admissible : Admissible tree) : Ends Signature.read tree.pieces tree.value rest := by
  intro lexer faces
  rw [Tree.pieces_eq] at inContext faces
  obtain ⟨token, next, opened, -, behind⟩ := expect_token inContext faces
  obtain ⟨layout, inside⟩ := inContext_append.1 inContext.2
  rw [textOf_append, List.append_assoc] at behind
  obtain ⟨lexer₁, skipped, faces₁⟩ :=
    skipNewline_reads layout (avoids_inside inside) (faces_of_trim behind)
  have ends : Ends readInside tree.inside tree.value rest := by
    cases h : tree.invocant with
    | none => exact readInside_of_none h inside admissible
    | some invocant => exact readInside_of_invocant h inside admissible
  obtain ⟨next', read, place⟩ := ends faces₁
  rw [read_eq]
  exact ⟨next', Reading.bind_ok opened (Reading.bind_ok skipped read), place⟩

/-- A signature that is written is parsed, and what follows it is left. -/
theorem parse_of_tree {tree : Tree} {rest : Text} (inContext : InContext tree.pieces rest)
    (stops : Stops isInlineBlank rest) (admissible : Admissible tree) (before : Text) :
    Signature.parse ⟨before, tree.text ++ rest⟩ = .ok (tree.value, rest) := by
  have faces : (Lexer.ofCursor ⟨before, tree.text ++ rest⟩).Faces (textOf tree.pieces ++ rest) :=
    faces_of_rest rfl
  obtain ⟨next, read, place⟩ := read_ends inContext admissible faces
  rw [Signature.parse, Reading.parse, read, ← trim_of_stops stops, ← place]
  rfl

/-- **Parsing, exactly**: a signature is parsed just where a derivation is read as it stands,
and the answer is its value. -/
theorem parse_eq_ok_iff {cursor : Cursor} {signature : Signature} {rest : Text} :
    Signature.parse cursor = .ok (signature, rest) ↔
      ∃ tree : Tree, cursor.rest = tree.text ++ rest ∧ InContext tree.pieces rest ∧
        Stops isInlineBlank rest ∧ Admissible tree ∧ signature = tree.value := by
  constructor
  · exact parse_sound
  · rintro ⟨tree, whole, inContext, stops, admissible, rfl⟩
    obtain ⟨before, text⟩ := cursor
    simp only at whole
    rw [whole]
    exact parse_of_tree inContext stops admissible before

theorem admissible_iff {tree : Tree} :
    Admissible tree ↔ (∀ invocant ∈ tree.invocantValue, invocant.IsInvocant) ∧
      tree.paramValues.Pairwise Parameter.MayPrecede := by
  constructor
  · rintro ⟨allowed, ordered⟩
    exact ⟨fun invocant member => Signature.invocantCause?_eq_none_iff.1 (allowed invocant member),
      Signature.ordered_false_iff.1 ordered⟩
  · rintro ⟨allowed, ordered⟩
    exact ⟨fun invocant member => Signature.invocantCause?_eq_none_iff.2 (allowed invocant member),
      Signature.ordered_false_iff.2 ordered⟩

/-- **What parsing accepts**: a signature is parsed at an offset just where a derivation begins
there, its pieces read as they stand, and keeps the rules beyond the grammar.  The answer is of
the invocant and the parameters of that derivation, and all that is not of it is left over. -/
theorem parseAt_eq_ok_iff_exists_tree {input rest : Text} {offset : Int} {signature : Signature} :
    Signature.parseAt input offset = .ok (signature, rest) ↔
      ∃ (before : Text) (tree : Tree), input = before ++ (tree.text ++ rest) ∧
        offset = before.length ∧ InContext tree.pieces rest ∧ Stops isInlineBlank rest ∧
        (∀ invocant ∈ tree.invocantValue, invocant.IsInvocant) ∧
        tree.paramValues.Pairwise Parameter.MayPrecede ∧
        signature.IsOf tree.invocantValue tree.paramValues := by
  rw [parseAt_eq_ok_iff]
  constructor
  · rintro ⟨before, text, whole, place, parsed⟩
    obtain ⟨tree, same, inContext, stops, admissible, value⟩ := parse_eq_ok_iff.1 parsed
    obtain ⟨allowed, ordered⟩ := admissible_iff.1 admissible
    simp only at same
    exact ⟨before, tree, by rw [whole, same], place, inContext, stops, allowed, ordered,
      Signature.isOf_iff.2 value⟩
  · rintro ⟨before, tree, whole, place, inContext, stops, allowed, ordered, isOf⟩
    exact ⟨before, tree.text ++ rest, whole, place, parse_eq_ok_iff.2 ⟨tree, rfl, inContext, stops,
      admissible_iff.2 ⟨allowed, ordered⟩, isOf.eq_assemble⟩⟩

end MethodSignature.Grammar
