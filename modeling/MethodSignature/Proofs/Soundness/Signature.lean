/-
# MethodSignature.Proofs.Soundness.Signature -- a signature that is read was written

Each text that is read as a signature has a derivation in the grammar, and the answer is
the value of that derivation: every character taken belongs to it, and nothing else is in
the answer (`parse_sound`).  The two rules beyond the grammar hold of the derivation as
well (`Admissible`).

A request with the models of this library reads just what parsing at an offset does, whatever
library of models keeps the rules (`parseSignature_models`).
-/
import MethodSignature.Proofs.Consistency
import MethodSignature.Proofs.Model
import MethodSignature.Proofs.Soundness.Parameter
import MethodSignature.Request

namespace MethodSignature

set_option autoImplicit false

open Text

namespace Grammar

/-- The rules beyond the grammar: the invocant may be one, and the order of the
parameters is allowed. -/
structure Admissible (tree : Tree) : Prop where
  invocant : ∀ parameter ∈ tree.invocantValue, Signature.invocantCause? parameter = none
  ordered : Signature.Ordered false tree.paramValues

/-! ## Separators -/

theorem skipNewline_derives : Derives Reading.skipNewline layoutPieces fun _ => () := by
  intro lexer after cursor answer stands h
  obtain ⟨accepted, between, looked, answered⟩ := Reading.bind_eq_ok_iff.1 h
  obtain ⟨-, rfl⟩ := Reading.pure_eq_ok_iff.1 answered
  cases accepted with
  | none => exact ⟨none, cursor, accept_none_sound stands looked, covers_nil _, rfl⟩
  | some token =>
      obtain ⟨next, shows, isNewline, -, rfl⟩ := (accept_eq_some_iff stands).1 looked
      obtain ⟨run, covers⟩ := exists_lineEnds shows isNewline
      exact ⟨some run, next, .fresh next, covers, rfl⟩

/-- What was taken of a separator, by the answer. -/
inductive Separates : Option Bool → List Piece → Prop
  | nothing : Separates none []
  | lineEnds (run : LineEnds) : Separates (some false) [.lineEnds run]
  | comma (before : Option LineEnds) (sign : Lexeme .comma) (behind : Option LineEnds) :
      Separates (some true) (Separator.comma before sign behind).pieces

theorem Separates.exists_separator {comma : Bool} {pieces : List Piece}
    (h : Separates (some comma) pieces) : ∃ separator : Separator, pieces = separator.pieces := by
  cases h with
  | lineEnds run => exact ⟨.lineEnds run, rfl⟩
  | comma before sign behind => exact ⟨.comma before sign behind, rfl⟩

theorem separator?_sound {lexer after : Lexer} {cursor : Cursor} {answer : Option Bool}
    (stands : lexer.At cursor) (h : Signature.separator? lexer = .ok answer after) :
    ∃ pieces next, Separates answer pieces ∧ after.At next ∧
      Covers pieces cursor.rest next.rest := by
  obtain ⟨newline, lexer₁, looked, rest⟩ := Reading.bind_eq_ok_iff.1 h
  obtain ⟨before, next₁, stands₁, covers₁, isNewline⟩ :
      ∃ (before : Option LineEnds) (next : Cursor), lexer₁.At next ∧
        Covers (layoutPieces before) cursor.rest next.rest ∧ newline.isSome = before.isSome := by
    cases newline with
    | none => exact ⟨none, cursor, accept_none_sound stands looked, covers_nil _, rfl⟩
    | some token =>
        obtain ⟨next, shows, isNewline, -, rfl⟩ := (accept_eq_some_iff stands).1 looked
        obtain ⟨run, covers⟩ := exists_lineEnds shows isNewline
        exact ⟨some run, next, .fresh next, covers, rfl⟩
  obtain ⟨accepted, lexer₂, looked', rest⟩ := Reading.bind_eq_ok_iff.1 rest
  cases accepted with
  | some token =>
      obtain ⟨sign, next₂, -, covers₂, rfl⟩ := accept_some_sound stands₁ (by decide) looked'
      obtain ⟨skipped, lexer₃, skips, answered⟩ := Reading.bind_eq_ok_iff.1 rest
      obtain ⟨behind, next₃, stands₃, covers₃, -⟩ := skipNewline_derives (.fresh next₂) skips
      obtain ⟨rfl, rfl⟩ := Reading.pure_eq_ok_iff.1 answered
      exact ⟨_, next₃, .comma before sign behind, stands₃, covers₁.append (covers₂.cons covers₃)⟩
  | none =>
      obtain ⟨rfl, rfl⟩ := Reading.pure_eq_ok_iff.1 rest
      have stands₂ := accept_none_sound stands₁ looked'
      cases before with
      | none =>
          simp only [isNewline, Option.isSome_none, Bool.false_eq_true, if_false]
          exact ⟨_, next₁, .nothing, stands₂, covers₁⟩
      | some run =>
          simp only [isNewline, Option.isSome_some, if_true]
          exact ⟨_, next₁, .lineEnds run, stands₂, covers₁⟩

/-! ## Parameters -/

theorem require_sound {lexer after : Lexer} {declaration : Declaration} {cause : Option Cause}
    {answer : Unit} (h : Signature.require declaration cause lexer = .ok answer after) :
    cause = none ∧ after = lexer := by
  cases cause with
  | none => exact ⟨rfl, (Reading.pure_eq_ok_iff.1 h).2.symm⟩
  | some cause => cases h

theorem readParams_sound {fuel : Nat} {optionalSeen : Bool} {declaration : Declaration}
    {lexer after : Lexer} {cursor : Cursor} {params : List Parameter} (stands : lexer.At cursor)
    (enough : cursor.rest.length < fuel)
    (h : Signature.readParams fuel optionalSeen declaration lexer = .ok params after) :
    ∃ (more : List (Separator × Param)) (trailing : Option LineEnds) (next : Cursor),
      after.At next ∧
      Covers (followingPieces more ++ layoutPieces trailing) cursor.rest next.rest ∧
      params = declaration.parameter :: more.map (fun (_, param) => param.value) ∧
      Signature.Ordered optionalSeen params := by
  induction fuel generalizing optionalSeen declaration lexer cursor params with
  | zero => omega
  | succ fuel ih =>
      rw [Signature.readParams] at h
      obtain ⟨checked, lexer₁, required, rest⟩ := Reading.bind_eq_ok_iff.1 h
      obtain ⟨allowed, rfl⟩ := require_sound required
      obtain ⟨answer, lexer₂, separated, rest⟩ := Reading.bind_eq_ok_iff.1 rest
      obtain ⟨pieces, next₁, separates, stands₁, covers₁⟩ := separator?_sound stands separated
      cases answer with
      | none =>
          obtain ⟨rfl, rfl⟩ := Reading.pure_eq_ok_iff.1 rest
          cases separates
          exact ⟨[], none, next₁, stands₁, covers₁, rfl, allowed, trivial⟩
      | some comma =>
          obtain ⟨found, lexer₃, read, rest⟩ := Reading.bind_eq_ok_iff.1 rest
          obtain ⟨part, next₂, stands₂, covers₂, same⟩ := read?_sound stands₁ read
          cases found with
          | some following =>
              obtain ⟨others, lexer₄, continued, answered⟩ := Reading.bind_eq_ok_iff.1 rest
              obtain ⟨rfl, rfl⟩ := Reading.pure_eq_ok_iff.1 answered
              cases part with
              | none => cases same
              | some param =>
                  have shorter := covers₁.length_eq
                  have shorter' := covers₂.length_eq
                  have positive := Nat.lt_of_lt_of_le param.ink_pos (ink_le_length _)
                  simp only [optional] at shorter'
                  obtain ⟨more, trailing, next₃, stands₃, covers₃, rfl, ordered⟩ :=
                    ih stands₂ (by omega) continued
                  have value : following.parameter = param.value := by simpa using same
                  obtain ⟨separator, rfl⟩ := separates.exists_separator
                  refine ⟨(separator, param) :: more, trailing, next₃, stands₃, ?_, by simp [value],
                    allowed, ordered⟩
                  simpa [followingPieces, optional] using covers₁.append (covers₂.append covers₃)
          | none =>
              cases part with
              | some param => cases same
              | none =>
                  simp only at rest
                  split at rest
                  · exact absurd rest fail_ne_ok
                  · rename_i noComma
                    obtain ⟨seen, lexer₄, looked, rest⟩ := Reading.bind_eq_ok_iff.1 rest
                    obtain ⟨token, next, shows, rfl, rfl⟩ := (sees_eq_ok_iff stands₂).1 looked
                    split at rest
                    · obtain ⟨rfl, rfl⟩ := Reading.pure_eq_ok_iff.1 rest
                      cases separates with
                      | lineEnds run =>
                          exact ⟨[], some run, next₂, .looked shows, covers₁.append covers₂, rfl,
                            allowed, trivial⟩
                      | comma => simp at noComma
                    · exact absurd rest fail_ne_ok

theorem readFrom_sound {found : Option Declaration} {part : Option Param}
    (same : found.map Declaration.parameter = part.map Param.value) {lexer after : Lexer}
    {cursor next : Cursor} {params : List Parameter} (stands : lexer.At next)
    (covers : Covers (optional Param.pieces part) cursor.rest next.rest)
    (h : Signature.readFrom found lexer = .ok params after) :
    ∃ (tree : Option Params) (next' : Cursor), after.At next' ∧
      Covers (optional Params.pieces tree) cursor.rest next'.rest ∧
      params = (tree.map Params.values).getD [] ∧ Signature.Ordered false params := by
  cases found with
  | none =>
      obtain ⟨rfl, rfl⟩ := Reading.pure_eq_ok_iff.1 h
      cases part with
      | some param => cases same
      | none => exact ⟨none, next, stands, covers, rfl, trivial⟩
  | some declaration =>
      cases part with
      | none => cases same
      | some param =>
          obtain ⟨got, lexer₁, gotten, read⟩ := Reading.bind_eq_ok_iff.1 h
          cases gotten
          have enough : next.rest.length < lexer.remaining.length + 1 := by
            rw [stands.remaining]
            omega
          obtain ⟨more, trailing, next', stands', covers', rfl, ordered⟩ :=
            readParams_sound stands enough read
          have value : declaration.parameter = param.value := by simpa using same
          refine ⟨some ⟨param, more, trailing⟩, next', stands', covers.append covers', ?_, ordered⟩
          simp [Params.values, value]

/-! ## Signatures -/

theorem endsInvocant_sound {declaration : Declaration} {lexer after : Lexer} {cursor : Cursor}
    {answer : Bool} (stands : lexer.At cursor)
    (h : Signature.endsInvocant declaration lexer = .ok answer after) :
    (answer = false ∧ after.At cursor) ∨
      (answer = true ∧ Signature.invocantCause? declaration.parameter = none ∧
        ∃ (colon : Lexeme .colon) (layout : Option LineEnds) (next : Cursor), after.At next ∧
          Covers (.token .colon colon :: layoutPieces layout) cursor.rest next.rest) := by
  obtain ⟨seen, lexer₁, looked, rest⟩ := Reading.bind_eq_ok_iff.1 h
  obtain ⟨token, next, shows, rfl, rfl⟩ := (sees_eq_ok_iff stands).1 looked
  split at rest
  · rename_i isColon
    obtain ⟨checked, lexer₂, required, rest⟩ := Reading.bind_eq_ok_iff.1 rest
    obtain ⟨allowed, rfl⟩ := require_sound required
    obtain ⟨taken, lexer₃, took, rest⟩ := Reading.bind_eq_ok_iff.1 rest
    obtain ⟨next', shows', -, rfl⟩ := (take_eq_ok_iff (.looked shows)).1 took
    obtain ⟨rfl, rfl⟩ := shows.unique shows'
    obtain ⟨colon, -, covers⟩ :=
      exists_lexeme shows (of_decide_eq_true isColon) (by decide) (by decide)
    obtain ⟨skipped, lexer₄, skips, answered⟩ := Reading.bind_eq_ok_iff.1 rest
    obtain ⟨layout, next'', stands', covers', -⟩ := skipNewline_derives (.fresh next) skips
    obtain ⟨rfl, rfl⟩ := Reading.pure_eq_ok_iff.1 answered
    exact .inr ⟨rfl, allowed, colon, layout, next'', stands', covers.cons covers'⟩
  · obtain ⟨rfl, rfl⟩ := Reading.pure_eq_ok_iff.1 rest
    exact .inl ⟨rfl, .looked shows⟩

theorem finish_sound {invocant : Option Parameter} {params : List Parameter} {lexer after : Lexer}
    {cursor : Cursor} {signature : Signature} (stands : lexer.At cursor)
    (h : Signature.finish invocant params lexer = .ok signature after) :
    ∃ (closing : Lexeme .closeParen) (next : Cursor),
      Covers [.token .closeParen closing] cursor.rest next.rest ∧
      after = ⟨[], next⟩ ∧ Stops isInlineBlank next.rest ∧
      signature = .assemble invocant params := by
  obtain ⟨token, lexer₁, expected, answered⟩ := Reading.bind_eq_ok_iff.1 h
  obtain ⟨closing, next, -, covers, rfl⟩ := expect_sound stands (by decide) expected
  obtain ⟨rfl, rfl⟩ := Reading.pure_eq_ok_iff.1 answered
  exact ⟨closing, next, covers, rfl, covers.leaves _ rfl, rfl⟩

/-- All readings of a signature end alike: with the parameters behind the invocant, and
the closing parenthesis. -/
theorem readFrom_finish_sound {opening : Lexeme .openParen} {layout : Option LineEnds}
    {invocant : Option Invocant} {found : Option Declaration} {part : Option Param}
    {lexer lexer' after : Lexer} {cursor cursor' between : Cursor} {params : List Parameter}
    {signature : Signature}
    (opened : Covers (.token .openParen opening :: (layoutPieces layout ++
      optional Invocant.pieces invocant)) cursor.rest cursor'.rest)
    (allowed : ∀ i ∈ invocant, Signature.invocantCause? i.param.value = none)
    (same : found.map Declaration.parameter = part.map Param.value) (stands : lexer.At between)
    (covers : Covers (optional Param.pieces part) cursor'.rest between.rest)
    (readFrom : Signature.readFrom found lexer = .ok params lexer')
    (finish : Signature.finish (invocant.map fun i => i.param.value) params lexer' =
      .ok signature after) :
    ∃ (tree : Tree) (next : Cursor), after = ⟨[], next⟩ ∧ Covers tree.pieces cursor.rest next.rest ∧
      Stops isInlineBlank next.rest ∧ Admissible tree ∧ signature = tree.value := by
  obtain ⟨tree, next, stands', covers', rfl, ordered⟩ := readFrom_sound same stands covers readFrom
  obtain ⟨closing, next', covers'', rfl, stops, rfl⟩ := finish_sound stands' finish
  refine ⟨⟨opening, layout, invocant, tree, closing⟩, next', rfl, ?_, stops, ⟨?_, ordered⟩, rfl⟩
  · have whole := opened.append (covers'.append covers'')
    simpa [Tree.pieces] using whole
  · intro parameter member
    simp only [Tree.invocantValue, Option.mem_def, Option.map_eq_some_iff] at member
    obtain ⟨i, isInvocant, rfl⟩ := member
    exact allowed i isInvocant

theorem read_sound {cursor : Cursor} {after : Lexer} {signature : Signature}
    (h : Signature.read (.ofCursor cursor) = .ok signature after) :
    ∃ (tree : Tree) (next : Cursor), after = ⟨[], next⟩ ∧ Covers tree.pieces cursor.rest next.rest ∧
      Stops isInlineBlank next.rest ∧ Admissible tree ∧ signature = tree.value := by
  obtain ⟨token, lexer₁, expected, rest⟩ := Reading.bind_eq_ok_iff.1 h
  obtain ⟨opening, next₁, -, covers₁, rfl⟩ := expect_sound (.fresh cursor) (by decide) expected
  obtain ⟨skipped, lexer₂, skips, rest⟩ := Reading.bind_eq_ok_iff.1 rest
  obtain ⟨layout, next₂, stands₂, covers₂, -⟩ := skipNewline_derives (.fresh next₁) skips
  have opened : Covers (.token .openParen opening :: (layoutPieces layout ++ [])) cursor.rest
      next₂.rest := by
    simpa using covers₁.cons covers₂
  obtain ⟨found, lexer₃, read, rest⟩ := Reading.bind_eq_ok_iff.1 rest
  obtain ⟨part, next₃, stands₃, covers₃, same⟩ := read?_sound stands₂ read
  have noInvocant : ∀ i ∈ (none : Option Invocant), Signature.invocantCause? i.param.value = none := by
    simp
  cases found with
  | none =>
      have readNothing : Signature.readFrom none lexer₃ = .ok [] lexer₃ := rfl
      exact readFrom_finish_sound opened noInvocant same stands₃ covers₃ readNothing rest
  | some declaration =>
      cases part with
      | none => cases same
      | some param =>
          have value : declaration.parameter = param.value := by simpa using same
          obtain ⟨isInvocant, lexer₄, ends, rest⟩ := Reading.bind_eq_ok_iff.1 rest
          rcases endsInvocant_sound stands₃ ends with ⟨rfl, stands₄⟩ | ⟨rfl, allowed, colon, behind,
            next₄, stands₄, covers₄⟩
          · obtain ⟨params, lexer₅, readFrom, finish⟩ := Reading.bind_eq_ok_iff.1 rest
            exact readFrom_finish_sound opened noInvocant same stands₄ covers₃ readFrom finish
          · obtain ⟨found', lexer₅, read', rest⟩ := Reading.bind_eq_ok_iff.1 rest
            obtain ⟨part', next₅, stands₅, covers₅, same'⟩ := read?_sound stands₄ read'
            obtain ⟨params, lexer₆, readFrom, finish⟩ := Reading.bind_eq_ok_iff.1 rest
            let invocant : Invocant := ⟨param, colon, behind⟩
            have opened' : Covers (.token .openParen opening :: (layoutPieces layout ++
                optional Invocant.pieces (some invocant))) cursor.rest next₄.rest := by
              rw [List.append_nil] at opened
              exact opened.append (covers₃.append covers₄)
            have allowed' : ∀ i ∈ some invocant, Signature.invocantCause? i.param.value = none := by
              rintro i ⟨⟩
              rwa [← value]
            rw [value] at finish
            exact readFrom_finish_sound opened' allowed' same' stands₅ covers₅ readFrom finish

/-- What is read of a signature at a cursor is a derivation. -/
theorem parse_sound {cursor : Cursor} {signature : Signature} {rest : Text}
    (h : Signature.parse cursor = .ok (signature, rest)) :
    ∃ tree : Tree, cursor.rest = tree.text ++ rest ∧ InContext tree.pieces rest ∧
      Stops isInlineBlank rest ∧ Admissible tree ∧ signature = tree.value := by
  unfold Signature.parse Reading.parse at h
  split at h
  · rename_i found lexer read
    obtain ⟨tree, next, rfl, covers, stops, admissible, rfl⟩ := read_sound read
    cases h
    exact ⟨tree, covers.whole, covers.inContext, stops, admissible, rfl⟩
  · cases h

/-! ## Requests -/

/-- A request checks its offset and splits the input there. -/
theorem check_eq_ok_iff {input : Text} {offset : Int} {cursor : Cursor} :
    (⟨.string input, offset, .models⟩ : Request).check = .ok cursor ↔
      input = cursor.before ++ cursor.rest ∧ offset = cursor.before.length := by
  constructor
  · intro h
    by_cases inside : 0 ≤ offset ∧ offset ≤ input.length
    · have placed : Cursor.place input offset =
          .ok ⟨input.take offset.toNat, input.drop offset.toNat⟩ := by
        rw [Cursor.place, if_pos inside]
      simp only [Request.check, placed] at h
      cases h
      refine ⟨(List.take_append_drop ..).symm, ?_⟩
      simp only [List.length_take]
      omega
    · have refused : Cursor.place input offset = .error (.outside offset input.length) := by
        rw [Cursor.place, if_neg inside]
      simp only [Request.check, refused] at h
      cases h
  · rintro ⟨rfl, rfl⟩
    simp only [Request.check, Cursor.place_append]
    rfl

theorem built_valid_eq_ok_iff {α : Type} {parsed : Except Failure (α × Text)} {found : α × Text} :
    Request.built .valid parsed = .ok found ↔ parsed = .ok found := by
  cases parsed with
  | error failure => simp [Request.built]
  | ok found' => simp [Request.built, Prod.ext_iff]

/-- Parsing at an offset splits the input there and reads the rest. -/
theorem run_eq_ok_iff {α : Type} {parse : Cursor → Except Failure (α × Text)} {input : Text}
    {offset : Int} {found : α × Text} :
    (match (⟨.string input, offset, .models⟩ : Request).check with
      | .error error => .error (.request error)
      | .ok cursor => Request.built .valid (parse cursor) : Except Refusal (α × Text)) =
        .ok found ↔
      ∃ before text, input = before ++ text ∧ offset = before.length ∧
        parse ⟨before, text⟩ = .ok found := by
  constructor
  · intro h
    split at h
    · cases h
    · rename_i cursor checked
      obtain ⟨whole, place⟩ := check_eq_ok_iff.1 checked
      exact ⟨cursor.before, cursor.rest, whole, place, built_valid_eq_ok_iff.1 h⟩
  · rintro ⟨before, text, rfl, rfl, parsed⟩
    have checked : (⟨.string (before ++ text), before.length, .models⟩ : Request).check =
        .ok ⟨before, text⟩ := check_eq_ok_iff.2 ⟨rfl, rfl⟩
    rw [checked]
    exact built_valid_eq_ok_iff.2 parsed

theorem parseAt_eq_ok_iff {input rest : Text} {offset : Int} {signature : Signature} :
    Signature.parseAt input offset = .ok (signature, rest) ↔
      ∃ before text, input = before ++ text ∧ offset = before.length ∧
        Signature.parse ⟨before, text⟩ = .ok (signature, rest) :=
  run_eq_ok_iff

theorem Param.parseAt_eq_ok_iff {input rest : Text} {offset : Int} {parameter : Parameter} :
    Parameter.parseAt input offset = .ok (parameter, rest) ↔
      ∃ before text, input = before ++ text ∧ offset = before.length ∧
        Parameter.parse ⟨before, text⟩ = .ok (parameter, rest) :=
  run_eq_ok_iff

/-! ## The models -/

theorem buildParameter_models (parameter : Parameter) :
    Builders.models.buildParameter parameter = ⟨.model, parameter⟩ := by
  obtain ⟨style, typeConstraint, variableName, required, defaultValue, constraints⟩ := parameter
  cases style <;> rfl

variable {library : Library}

/-- A parameter built as a model is one that the signature model takes. -/
theorem accept_model (rules : library.Rules) (parameter : Parameter) :
    library.accept Parameter.shape (⟨.model, parameter⟩ : BuiltParameter).argument = .valid () := by
  obtain ⟨style, typeConstraint, variableName, required, defaultValue, constraints⟩ := parameter
  cases style with
  | positional => exact rules.accept_instance List.mem_cons_self
  | named label => exact rules.accept_instance (List.mem_cons_of_mem _ List.mem_cons_self)

theorem checkParams_models (rules : library.Rules) (index : Nat) (params : List Parameter) :
    Builders.checkParams library index (params.map Builders.models.buildParameter) = [] := by
  induction params generalizing index with
  | nil => rfl
  | cons parameter params ih =>
      rw [List.map_cons, Builders.checkParams, ih, buildParameter_models, accept_model rules]
      rfl

/-- The models take every signature, and keep it as it is. -/
theorem buildSignature_models (rules : library.Rules) (signature : Signature) :
    ∃ built, Builders.models.buildSignature library signature = .valid built ∧
      built.toSignature? = some signature := by
  obtain ⟨invocant, params, count, labels⟩ := signature
  have same : ∀ list : List Parameter, (list.map Builders.models.buildParameter).map
      BuiltParameter.parameter = list := by
    intro list
    simp [Function.comp_def, buildParameter_models]
  have accepted : Builders.issues library (invocant.map Builders.models.buildParameter)
      (params.map Builders.models.buildParameter) = [] := by
    simp only [Builders.issues, checkParams_models rules]
    cases invocant with
    | none => rfl
    | some parameter =>
        simp only [Option.map_some, buildParameter_models, accept_model rules]
        rfl
  refine ⟨⟨.model, invocant.map Builders.models.buildParameter,
    params.map Builders.models.buildParameter, count, labels⟩, ?_, ?_⟩
  · simp only [Builders.buildSignature, accepted]
    rfl
  · simp only [BuiltSignature.toSignature?, same]
    cases invocant with
    | none => rfl
    | some parameter => simp [buildParameter_models, Form.isModel]

/-- **A request with the models** answers as parsing at its offset does, refusals included. -/
theorem parseSignature_models (rules : library.Rules) (input : Text) (offset : Int) :
    (((⟨.string input, offset, .models⟩ : Request).parseSignature library).result.map
      fun (built, rest) => (built.toSignature?, rest)) =
      (Signature.parseAt input offset).map fun (signature, rest) => (some signature, rest) := by
  rw [Signature.parseAt, Request.parseSignature, Request.run]
  cases (⟨.string input, offset, .models⟩ : Request).check with
  | error error => rfl
  | ok cursor =>
      cases h : Signature.parse cursor with
      | error failure => simp [h, Request.built, Except.map]
      | ok found =>
          obtain ⟨signature, rest⟩ := found
          obtain ⟨built, valid, same⟩ := buildSignature_models rules signature
          simp [h, Request.built, valid, same, Except.map]

theorem parseParameter_models (input : Text) (offset : Int) :
    ((⟨.string input, offset, .models⟩ : Request).parseParameter.result.map fun (built, rest) =>
      (built.parameter, rest)) = Parameter.parseAt input offset := by
  rw [Parameter.parseAt, Request.parseParameter, Request.run]
  cases (⟨.string input, offset, .models⟩ : Request).check with
  | error error => rfl
  | ok cursor =>
      cases h : Parameter.parse cursor with
      | error failure => simp [h, Request.built, Except.map]
      | ok found => simp [h, Request.built, buildParameter_models, Except.map]

end Grammar

end MethodSignature
