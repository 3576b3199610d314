/-
# MethodSignature.Proofs.Refusal -- where the rules beyond the grammar refuse

A derivation that breaks one of the two rules beyond the grammar is refused, and the fault lies
at the first character of the parameter that breaks it: at the invocant, if that may not be
one (`Tree.read_refused_invocant`), or at the first parameter that may not follow those before
it (`Tree.read_refused_order`).

A declaration lies where its first token does, blanks in front of it included.  None are left
there: before a parameter stands a parenthesis, a comma, a colon or a run of line ends, and each
of these takes the blanks behind it (`Placed`).
-/
import MethodSignature.Proofs.Completeness.Signature
import MethodSignature.Proofs.Safety

namespace MethodSignature

set_option autoImplicit false

open Text

variable {α β : Type}

/-! ## Steps that end well, and one that does not -/

theorem Reading.bind_of_ok {reading : Reading α} {lexer between : Lexer} {value : α}
    (h : reading lexer = .ok value between) (next : α → Reading β) :
    (reading >>= next) lexer = next value between := by
  show EStateM.bind reading next lexer = next value between
  rw [EStateM.bind, h]

theorem Reading.Safe.ok {source : Text} {base : Nat} {before : Lexer → Prop} {reading : Reading α}
    {after : α → Lexer → Prop} (h : Safe source base before reading after) {lexer lexer' : Lexer}
    (holds : before lexer) {value : α} (answered : reading lexer = .ok value lexer') :
    after value lexer' := by
  have safe := h lexer holds
  rwa [answered] at safe

/-- Reading stops with a fault against a rule beyond the grammar.  It lies where `text`
begins, blanks aside, with which the source ends. -/
def RefusedAt (source text : Text) (result : EStateM.Result Failure Lexer α) : Prop :=
  ∃ fault after, result = .error (.fault fault) after ∧ fault.cause.category = .semantic ∧
    fault.offset + (trim text).length = source.length

theorem RefusedAt.bind {source text : Text} {reading : Reading α} {lexer : Lexer}
    (h : RefusedAt source text (reading lexer)) (next : α → Reading β) :
    RefusedAt source text ((reading >>= next) lexer) := by
  obtain ⟨fault, after, failed, category, place⟩ := h
  refine ⟨fault, after, ?_, category, place⟩
  show EStateM.bind reading next lexer = .error (.fault fault) after
  rw [EStateM.bind, failed]

theorem refusedAt_require {source text : Text} {declaration : Declaration} {cause : Cause}
    (category : cause.category = .semantic)
    (place : declaration.offset + (trim text).length = source.length) (lexer : Lexer) :
    RefusedAt source text (Signature.require declaration (some cause) lexer) :=
  ⟨_, lexer, rfl, category, place⟩

/-! ## Places -/

/-- A declaration lies where reading it began. -/
theorem Declaration.offset_of_read? {lexer after : Lexer} {cursor : Cursor}
    {declaration : Declaration} (stands : lexer.At cursor)
    (h : Declaration.read? lexer = .ok (some declaration) after) :
    declaration.offset = cursor.offset := by
  obtain ⟨first, lexer₁, peeked, rest⟩ := Reading.bind_eq_ok_iff.1 h
  obtain ⟨next, shows, rfl⟩ := (peek_eq_ok_iff stands).1 peeked
  obtain ⟨typeConstraint, lexer₂, -, rest⟩ := Reading.bind_eq_ok_iff.1 rest
  obtain ⟨style, lexer₃, -, rest⟩ := Reading.bind_eq_ok_iff.1 rest
  have ofRest : ∀ {lexer : Lexer}, (do
      let declaration ← readRest first.offset typeConstraint style
      return some declaration : Reading (Option Declaration)) lexer = .ok (some declaration) after →
      declaration.offset = cursor.offset := by
    intro lexer read
    obtain ⟨found, lexer₄, read, answered⟩ := Reading.bind_eq_ok_iff.1 read
    obtain ⟨name, lexer₅, -, read⟩ := Reading.bind_eq_ok_iff.1 read
    obtain ⟨required, lexer₆, -, read⟩ := Reading.bind_eq_ok_iff.1 read
    obtain ⟨value, lexer₇, -, read⟩ := Reading.bind_eq_ok_iff.1 read
    obtain ⟨constraints, lexer₈, -, read⟩ := Reading.bind_eq_ok_iff.1 read
    obtain ⟨rfl, -⟩ := Reading.pure_eq_ok_iff.1 read
    obtain ⟨same, -⟩ := Reading.pure_eq_ok_iff.1 answered
    cases same
    exact shows.offset
  split at rest
  · exact ofRest rest
  · obtain ⟨seen, lexer₄, -, rest⟩ := Reading.bind_eq_ok_iff.1 rest
    split at rest
    · exact ofRest rest
    · cases (Reading.pure_eq_ok_iff.1 rest).1

namespace Grammar

/-- The lexer stands in the source before a text, and no inline blank is left in between. -/
structure Placed (source text : Text) (lexer : Lexer) : Prop where
  stands : Reading.Stands source 0 lexer
  faces : lexer.Faces text
  sharp : Stops isInlineBlank lexer.remaining

theorem Placed.exists_cursor {source text : Text} {lexer : Lexer} (h : Placed source text lexer) :
    ∃ cursor, lexer.At cursor ∧ cursor.offset + (trim text).length = source.length := by
  obtain ⟨cursor, stands, within⟩ := h.stands
  obtain ⟨cursor', stands', place⟩ := h.faces
  have sharp := h.sharp
  rw [← stands'.remaining] at place
  rw [trim_of_stops sharp, stands.remaining] at place
  refine ⟨cursor, stands, ?_⟩
  rw [← place, ← within.same, Cursor.source, Cursor.offset, List.length_append]

theorem read?_placed {source : Text} {param : Param} {following : Text} {lexer : Lexer}
    (placed : Placed source (textOf param.pieces ++ following) lexer)
    (inContext : InContext param.pieces following) (avoids : Avoids following continuing) :
    ∃ declaration after, Declaration.read? lexer = .ok (some declaration) after ∧
      declaration.parameter = param.value ∧
      declaration.offset + (trim (textOf param.pieces ++ following)).length = source.length ∧
      Reading.Stands source 0 after ∧ after.Faces following := by
  obtain ⟨cursor, stands, place⟩ := placed.exists_cursor
  obtain ⟨declaration, after, read, same, faces⟩ := read?_reads inContext avoids placed.faces
  have found := Declaration.safe_read?.ok placed.stands read
  refine ⟨declaration, after, read, same, ?_, found.2, faces⟩
  rw [Declaration.offset_of_read? stands read]
  exact place

/-- A separator takes the blanks behind it. -/
theorem stops_of_separates {comma : Bool} {pieces : List Piece} {text rest : Text}
    (separates : Separates (some comma) pieces) (covers : Covers pieces text rest) :
    Stops isInlineBlank rest := by
  cases separates with
  | lineEnds run => exact covers.leaves _ rfl
  | comma before sign behind =>
      cases behind with
      | none => exact covers.leaves (.token .comma sign) (by simp [Separator.pieces])
      | some run =>
          exact covers.leaves (.lineEnds run) (by simp [Separator.pieces, layoutPieces, optional])

theorem separator?_placed {source : Text} {separator : Separator} {following : Text} {lexer : Lexer}
    (inContext : InContext separator.pieces following)
    (avoids : Avoids following [.newline, .comma]) (stands : Reading.Stands source 0 lexer)
    (faces : lexer.Faces (textOf separator.pieces ++ following)) :
    ∃ after, Signature.separator? lexer = .ok (some separator.hasComma) after ∧
      Placed source following after := by
  obtain ⟨after, read, faces'⟩ := separator?_reads separator inContext avoids faces
  refine ⟨after, read, Signature.keeps_separator?.ok stands read, faces', ?_⟩
  obtain ⟨cursor, stands, -⟩ := stands
  obtain ⟨pieces, next, separates, stands', covers⟩ := separator?_sound stands read
  rw [stands'.remaining]
  exact stops_of_separates separates covers

/-! ## Parameters out of order -/

/-- All that stands behind a parameter up to the closing parenthesis. -/
def behindText (more : List (Separator × Param)) (trailing : Option LineEnds) (following : Text) :
    Text :=
  textOf (followingPieces more ++ layoutPieces trailing) ++ following

section Order

variable {source following : Text} {trailing : Option LineEnds} {lexer : Lexer}

/-- One step of reading parameters: the declaration at hand is allowed, and the next one is
read. -/
theorem readParams_step (closes : Token.kind? following = some .closeParen) {optionalSeen : Bool}
    {declaration : Declaration}
    (allowed : Signature.orderCause? optionalSeen declaration.parameter = none)
    {separator : Separator} {param : Param} {more : List (Separator × Param)}
    (inContext : InContext (followingPieces ((separator, param) :: more) ++ layoutPieces trailing)
      following) (stands : Reading.Stands source 0 lexer)
    (faces : lexer.Faces (behindText ((separator, param) :: more) trailing following)) :
    ∃ next after, next.parameter = param.value ∧
      next.offset + (trim (textOf param.pieces ++ behindText more trailing following)).length =
        source.length ∧
      InContext (followingPieces more ++ layoutPieces trailing) following ∧
      Reading.Stands source 0 after ∧ after.Faces (behindText more trailing following) ∧
      ∀ fuel, Signature.readParams (fuel + 1) optionalSeen declaration lexer = (do
        let rest ← Signature.readParams fuel (optionalSeen ||
          (declaration.parameter.isPositional && !declaration.parameter.required)) next
        return declaration.parameter :: rest : Reading (List Parameter)) after := by
  simp only [behindText, followingPieces, List.flatMap_cons, List.append_assoc] at inContext faces ⊢
  obtain ⟨separatorFits, inContext⟩ := inContext_append.1 inContext
  obtain ⟨paramFits, moreFits⟩ := inContext_append.1 inContext
  rw [textOf_append, List.append_assoc, textOf_append, List.append_assoc] at faces
  rw [textOf_append, List.append_assoc] at separatorFits
  obtain ⟨lexer₁, separated, placed⟩ := separator?_placed separatorFits
    (avoids_param paramFits (by decide)) stands faces
  have ends : Avoids _ continuing := avoids_following (by decide) (by decide)
    (closes_avoids closes (by decide)) moreFits
  obtain ⟨next, after, read, same, place, stands', faces'⟩ := read?_placed placed paramFits ends
  refine ⟨next, after, same, place, moreFits, stands', faces', ?_⟩
  intro fuel
  rw [Signature.readParams, Reading.bind_of_ok (require_none allowed lexer),
    Reading.bind_of_ok separated]
  exact Reading.bind_of_ok read _

/-- **The first parameter out of order** is refused, where it begins. -/
theorem readParams_refused (closes : Token.kind? following = some .closeParen)
    {front back : List (Separator × Param)} {separator : Separator} {offender : Param}
    {optionalSeen : Bool} {declaration : Declaration} {fuel : Nat} (enough : front.length + 1 < fuel)
    (ordered : Signature.Ordered optionalSeen
      (declaration.parameter :: front.map fun (_, param) => param.value))
    (refused : ¬ Signature.Ordered optionalSeen
      (declaration.parameter :: (front.map fun (_, param) => param.value) ++ [offender.value]))
    (inContext : InContext (followingPieces (front ++ (separator, offender) :: back) ++
      layoutPieces trailing) following) (stands : Reading.Stands source 0 lexer)
    (faces : lexer.Faces (behindText (front ++ (separator, offender) :: back) trailing following)) :
    RefusedAt source (textOf offender.pieces ++ behindText back trailing following)
      (Signature.readParams fuel optionalSeen declaration lexer) := by
  induction front generalizing fuel optionalSeen declaration lexer with
  | nil =>
      obtain ⟨fuel, rfl⟩ : ∃ less, fuel = less + 2 := ⟨fuel - 2, by simp at enough; omega⟩
      obtain ⟨allowed, -⟩ := ordered
      obtain ⟨next, after, same, place, -, -, -, step⟩ :=
        readParams_step closes allowed inContext stands faces
      simp only [List.map_nil, List.cons_append, List.nil_append, Signature.Ordered, allowed,
        true_and, and_true, ← same] at refused
      obtain ⟨cause, isCause⟩ := Option.ne_none_iff_exists'.1 refused
      rw [step, Signature.readParams, isCause]
      exact ((refusedAt_require (Signature.category_of_orderCause? isCause) place after).bind _).bind _
  | cons first front ih =>
      obtain ⟨separator', param⟩ := first
      obtain ⟨fuel, rfl⟩ : ∃ less, fuel = less + 1 := ⟨fuel - 1, by simp at enough; omega⟩
      obtain ⟨allowed, ordered⟩ := ordered
      obtain ⟨next, after, same, -, moreFits, stands', faces', step⟩ :=
        readParams_step closes allowed inContext stands faces
      simp only [List.map_cons, List.cons_append, Signature.Ordered, allowed, true_and, ← same]
        at refused ordered
      rw [step]
      exact (ih (Nat.lt_of_succ_lt_succ enough) ordered refused moreFits stands' faces').bind _

/-- The offender is the first parameter that may not follow those before it. -/
structure OutOfOrder (params : Params) (front : List (Separator × Param)) (separator : Separator)
    (offender : Param) (back : List (Separator × Param)) : Prop where
  split : params.more = front ++ (separator, offender) :: back
  ordered : Signature.Ordered false (params.first.value :: front.map fun (_, param) => param.value)
  refused : ¬ Signature.Ordered false
    (params.first.value :: (front.map fun (_, param) => param.value) ++ [offender.value])

variable {params : Params} {front back : List (Separator × Param)} {separator : Separator}
  {offender : Param} {closing : Lexeme .closeParen} {rest : Text}

theorem readFrom_refused (disorder : OutOfOrder params front separator offender back)
    {declaration : Declaration} (same : declaration.parameter = params.first.value)
    (inContext : InContext (params.ending closing) rest) (stands : Reading.Stands source 0 lexer)
    (faces : lexer.Faces (textOf (params.ending closing) ++ rest)) :
    RefusedAt source
      (textOf offender.pieces ++ behindText back params.trailing (closing.text ++ rest))
      (Signature.readFrom (some declaration) lexer) := by
  obtain ⟨split, ordered, refused⟩ := disorder
  rw [← same] at ordered refused
  obtain ⟨inContext, closed⟩ := inContext_append.1 inContext
  have closes := kind?_token closed
  simp only [Params.ending, textOf_append, textOf_cons, textOf_nil, Piece.text, List.append_nil,
    List.append_assoc] at faces inContext closes
  have faces' : lexer.Faces (behindText params.more params.trailing (closing.text ++ rest)) := by
    simpa [behindText] using faces
  have enough := length_more_lt faces'
  rw [split] at inContext faces' enough
  rw [List.length_append, List.length_cons] at enough
  exact readParams_refused closes (by omega) ordered refused inContext stands faces'

end Order

/-! ## Signatures -/

section Signatures

variable {source rest : Text} {tree : Tree} {lexer : Lexer}

theorem Tree.inContext_inside (inContext : InContext tree.pieces rest) :
    InContext tree.inside rest := by
  rw [Tree.pieces_eq] at inContext
  exact (inContext_append.1 inContext.2).2

/-- Behind the opening parenthesis and the line ends there, no blank is left. -/
theorem read_placed (inContext : InContext tree.pieces rest) (stands : Reading.Stands source 0 lexer)
    (faces : lexer.Faces (tree.text ++ rest)) :
    ∃ after, Placed source (textOf tree.inside ++ rest) after ∧
      Signature.read lexer = readInside after := by
  rw [Tree.text, Tree.pieces_eq] at faces
  rw [Tree.pieces_eq] at inContext
  obtain ⟨token, next, opened, -, behind⟩ := expect_token inContext faces
  obtain ⟨layout, inside⟩ := inContext_append.1 inContext.2
  rw [textOf_append, List.append_assoc] at behind
  obtain ⟨after, skipped, faces'⟩ :=
    skipNewline_reads layout (avoids_inside inside) (faces_of_trim behind)
  have stands₁ := Reading.keeps_expect.ok stands opened
  have stands₂ := Reading.keeps_skipNewline.ok stands₁ skipped
  refine ⟨after, ⟨stands₂, faces', ?_⟩, ?_⟩
  · obtain ⟨cursor, stands, -⟩ := stands
    obtain ⟨opening, next', -, covers, same⟩ := expect_sound stands (by decide) opened
    cases same
    obtain ⟨run, last, stands', covers', -⟩ := skipNewline_derives (.fresh next) skipped
    have leaves := (covers.cons covers').leaves
    rw [stands'.remaining]
    cases run with
    | none => exact leaves _ rfl
    | some run => exact leaves _ rfl
  · rw [read_eq, Reading.bind_of_ok opened]
    exact Reading.bind_of_ok skipped _

theorem endsInvocant_refused {declaration : Declaration} {text : Text}
    (refused : Signature.invocantCause? declaration.parameter ≠ none)
    (place : declaration.offset + (trim text).length = source.length) {colon : Lexeme .colon}
    {pieces : List Piece} (inContext : InContext (.token .colon colon :: pieces) rest)
    (faces : lexer.Faces (textOf (.token .colon colon :: pieces) ++ rest)) :
    RefusedAt source text (Signature.endsInvocant declaration lexer) := by
  obtain ⟨cause, isCause⟩ := Option.ne_none_iff_exists'.1 refused
  obtain ⟨after, seen, -⟩ := sees_of_kind? .colon faces (kind?_token inContext)
  have require := refusedAt_require (Signature.category_of_invocantCause? isCause) place after
  rw [Signature.endsInvocant, Reading.bind_of_ok seen, isCause]
  exact require.bind _

/-- **An invocant that may not be one** is refused, where it begins. -/
theorem read_refused_invocant {invocant : Invocant} (isInvocant : tree.invocant = some invocant)
    (refused : Signature.invocantCause? invocant.param.value ≠ none)
    (inContext : InContext tree.pieces rest) (stands : Reading.Stands source 0 lexer)
    (faces : lexer.Faces (tree.text ++ rest)) :
    RefusedAt source (textOf tree.inside ++ rest) (Signature.read lexer) := by
  obtain ⟨after, placed, same⟩ := read_placed inContext stands faces
  have inside := Tree.inContext_inside inContext
  have parts : tree.inside = invocant.param.pieces ++
      (.token .colon invocant.colon :: (layoutPieces invocant.layout ++ tree.body)) := by
    simp [Tree.inside, isInvocant, optional, Invocant.pieces]
  rw [parts] at inside
  rw [parts, textOf_append, List.append_assoc] at placed ⊢
  obtain ⟨first, colon⟩ := inContext_append.1 inside
  obtain ⟨declaration, lexer₁, read, isParam, place, -, faces₁⟩ :=
    read?_placed placed first (avoids_token colon (by decide))
  rw [← isParam] at refused
  rw [same, readInside, Reading.bind_of_ok read]
  exact (endsInvocant_refused refused place colon faces₁).bind _

/-- **A parameter out of order** is refused, where it begins. -/
theorem read_refused_order {params : Params} {front back : List (Separator × Param)}
    {separator : Separator} {offender : Param} (isParams : tree.params = some params)
    (disorder : OutOfOrder params front separator offender back)
    (allowed : ∀ parameter ∈ tree.invocantValue, Signature.invocantCause? parameter = none)
    (inContext : InContext tree.pieces rest) (stands : Reading.Stands source 0 lexer)
    (faces : lexer.Faces (tree.text ++ rest)) :
    RefusedAt source
      (textOf offender.pieces ++ behindText back params.trailing (tree.closing.text ++ rest))
      (Signature.read lexer) := by
  obtain ⟨lexer₁, placed, same⟩ := read_placed inContext stands faces
  obtain ⟨stands₁, faces₁, -⟩ := placed
  have inside := Tree.inContext_inside inContext
  have body : tree.body = params.first.pieces ++ params.ending tree.closing := by
    rw [Tree.body, isParams, optional, Params.pieces_closing]
  rw [same, readInside]
  cases isInvocant : tree.invocant with
  | none =>
      have parts : tree.inside = params.first.pieces ++ params.ending tree.closing := by
        rw [Tree.inside, isInvocant, body]
        rfl
      rw [parts] at inside faces₁
      rw [textOf_append, List.append_assoc] at faces₁
      obtain ⟨first, ending⟩ := inContext_append.1 inside
      obtain ⟨declaration, lexer₂, read, isFirst, faces₂⟩ :=
        read?_reads first (avoids_ending ending (by decide)) faces₁
      obtain ⟨between, stands₂⟩ := Declaration.safe_read?.ok stands₁ read
      obtain ⟨lexer₃, noColon, faces₃⟩ :=
        endsInvocant_false declaration (avoids_ending ending (by decide)) faces₂
      have stands₃ := (Signature.keeps_endsInvocant between).ok stands₂ noColon
      rw [Reading.bind_of_ok read]
      show RefusedAt _ _ ((Signature.endsInvocant declaration >>= _) lexer₂)
      rw [Reading.bind_of_ok noColon]
      exact (readFrom_refused disorder isFirst ending stands₃ faces₃).bind _
  | some invocant =>
      have parts : tree.inside = invocant.param.pieces ++ ((.token .colon invocant.colon ::
          layoutPieces invocant.layout) ++ tree.body) := by
        simp [Tree.inside, isInvocant, optional, Invocant.pieces]
      rw [parts] at inside faces₁
      rw [textOf_append, List.append_assoc] at faces₁
      obtain ⟨first, colon⟩ := inContext_append.1 inside
      obtain ⟨declaration, lexer₂, read, isFirst, faces₂⟩ :=
        read?_reads first (avoids_token colon (by decide)) faces₁
      obtain ⟨between, stands₂⟩ := Declaration.safe_read?.ok stands₁ read
      have isAllowed : Signature.invocantCause? declaration.parameter = none := by
        rw [isFirst]
        exact allowed _ (by simp [Tree.invocantValue, isInvocant])
      obtain ⟨colon, bodyFits⟩ := inContext_append.1 colon
      rw [textOf_append, List.append_assoc] at faces₂
      obtain ⟨lexer₃, ends, faces₃⟩ := endsInvocant_true isAllowed colon (avoids_body bodyFits) faces₂
      have stands₃ := (Signature.keeps_endsInvocant between).ok stands₂ ends
      rw [body] at bodyFits faces₃
      rw [textOf_append, List.append_assoc] at faces₃
      obtain ⟨param, ending⟩ := inContext_append.1 bodyFits
      obtain ⟨declaration', lexer₄, read', isParam, faces₄⟩ :=
        read?_reads param (avoids_ending ending (by decide)) faces₃
      have stands₄ := (Declaration.safe_read?.ok stands₃ read').2
      rw [Reading.bind_of_ok read]
      show RefusedAt _ _ ((Signature.endsInvocant declaration >>= _) lexer₂)
      rw [Reading.bind_of_ok ends]
      show RefusedAt _ _ ((Declaration.read? >>= _) lexer₃)
      rw [Reading.bind_of_ok read']
      exact (readFrom_refused disorder isParam ending stands₄ faces₄).bind _

end Signatures

end Grammar

end MethodSignature
