/-
# MethodSignature.Proofs.Relocation -- the text before the start

Parsing may start anywhere in a text.  What stands before the start is not looked at: it
enters only as the number of its characters, which all offsets count.  So a text parsed
behind any other gives what it gives alone, with the same text left over, and a fault is the
same fault further on (`outcomes_relocated`).

`Relocates` is a relation between two readings: one runs in a source, the other in a source
that has `lead` in front.  They end alike, and what the second answers and leaves is what the
first does, moved behind `lead`.  Most answers name no place and do not change (`Steady`);
tokens and declarations carry their offset and are shifted.
-/
import MethodSignature.Proofs.Safety

namespace MethodSignature

set_option autoImplicit false

open Text

variable {α β : Type}

/-! ## What moves -/

def Token.shift (distance : Nat) (token : Token) : Token :=
  { token with offset := distance + token.offset }

def Declaration.shift (distance : Nat) (declaration : Declaration) : Declaration :=
  { declaration with offset := distance + declaration.offset }

/-- The same failure, in a source that is longer by `distance` in front. -/
def Failure.shift (distance : Nat) : Failure → Failure
  | .fault found => .fault (found.shift distance)
  | .outside offset length => .outside (distance + offset) (distance + length)
  | .overrun length offset left => .overrun length (distance + offset) left
  | .buffered count => .buffered count

/-- The same cursor, in a source that has `lead` in front. -/
def Cursor.precededBy (lead : Text) (cursor : Cursor) : Cursor :=
  ⟨lead ++ cursor.before, cursor.rest⟩

/-- The same lexer, over a source that has `lead` in front. -/
def Lexer.precededBy (lead : Text) (lexer : Lexer) : Lexer :=
  ⟨lexer.pending.map (Token.shift lead.length), lexer.cursor.precededBy lead⟩

section Moved

variable (lead : Text)

theorem Cursor.offset_precededBy (cursor : Cursor) :
    (cursor.precededBy lead).offset = lead.length + cursor.offset :=
  List.length_append

theorem Cursor.advance_precededBy (cursor : Cursor) (taken rest : Text) :
    (cursor.precededBy lead).advance taken rest = (cursor.advance taken rest).precededBy lead := by
  simp [Cursor.advance, Cursor.precededBy]

/-- The text not yet handed out is the same. -/
theorem Lexer.remaining_precededBy (lexer : Lexer) :
    (lexer.precededBy lead).remaining = lexer.remaining := by
  have written : ∀ token : Token, (token.shift lead.length).written = token.written :=
    fun _ => rfl
  simp [Lexer.remaining, Lexer.precededBy, Cursor.precededBy, List.flatMap_map, written]

theorem Fault.shift_precededBy (cursor : Cursor) (fault : Fault) :
    fault.shift (cursor.precededBy lead).offset = (fault.shift cursor.offset).shift lead.length := by
  rw [Cursor.offset_precededBy, shift_shift]

end Moved

/-! ## Readings in two sources -/

namespace Reading

variable {lead : Text}

/-- The ending of a reading, moved behind `lead`. -/
def relocate (lead : Text) (move : α → α) :
    EStateM.Result Failure Lexer α → EStateM.Result Failure Lexer α
  | .ok value lexer => .ok (move value) (lexer.precededBy lead)
  | .error failure lexer => .error (failure.shift lead.length) (lexer.precededBy lead)

/-- Behind `lead`, `there` ends as `here` does without it. -/
def Relocates (lead : Text) (move : α → α) (here there : Reading α) : Prop :=
  ∀ lexer : Lexer, there (lexer.precededBy lead) = relocate lead move (here lexer)

/-- What the reading answers does not depend on the text in front. -/
def Steady (lead : Text) (reading : Reading α) : Prop := Relocates lead id reading reading

section Rules

theorem Relocates.pure {move : α → α} {value moved : α} (h : moved = move value) :
    Relocates lead move (pure value) (pure moved) := by
  intro lexer
  rw [h]
  rfl

theorem Relocates.bind {move : α → α} {move' : β → β} {here there : Reading α}
    {next next' : α → Reading β} (h : Relocates lead move here there)
    (h' : ∀ value, Relocates lead move' (next value) (next' (move value))) :
    Relocates lead move' (here >>= next) (there >>= next') := by
  intro lexer
  show EStateM.bind there next' (lexer.precededBy lead) =
    relocate lead move' (EStateM.bind here next lexer)
  unfold EStateM.bind
  rw [h lexer]
  cases here lexer with
  | ok value between => exact h' value between
  | error failure between => rfl

theorem Relocates.ite {move : α → α} {condition : Prop} [Decidable condition]
    {here there here' there' : Reading α} (yes : Relocates lead move here there)
    (no : Relocates lead move here' there') :
    Relocates lead move (if condition then here else here')
      (if condition then there else there') := by
  by_cases holds : condition
  · simpa only [if_pos holds] using yes
  · simpa only [if_neg holds] using no

theorem steady_pure {value : α} : Steady lead (Pure.pure value : Reading α) := .pure rfl

theorem relocates_get : Relocates lead (Lexer.precededBy lead) get get := fun _ => rfl

theorem relocates_throw {move : α → α} {here there : Failure}
    (h : there = here.shift lead.length) :
    Relocates lead move (throw here : Reading α) (throw there) := by
  intro lexer
  rw [h]
  rfl

end Rules

/-! ## Tokens -/

section Steps

variable {kind : Token.Kind}

theorem relocates_buffer :
    Relocates lead (Token.shift lead.length) Lexer.buffer Lexer.buffer := by
  intro lexer
  unfold Lexer.buffer
  have scanned : (lexer.precededBy lead).cursor.rest = lexer.cursor.rest := rfl
  simp only [scanned]
  have moved := fun taken rest => Cursor.advance_precededBy lead lexer.cursor taken rest
  cases (Token.scan lexer.cursor.rest).result with
  | ok found =>
      simp [relocate, Lexer.precededBy, moved, Token.shift, Cursor.offset_precededBy]
  | error fault =>
      simp [relocate, Lexer.precededBy, moved, Failure.shift, Fault.shift_precededBy]

theorem relocates_pull (more : Nat) :
    Relocates lead (Token.shift lead.length) (Lexer.pull more) (Lexer.pull more) := by
  induction more with
  | zero => exact relocates_buffer
  | succ more ih =>
      refine relocates_buffer.bind fun token => ?_
      refine .ite ?_ ?_
      · exact .pure rfl
      · exact ih

theorem relocates_peek (ahead : Nat) :
    Relocates lead (Token.shift lead.length) (Lexer.peek ahead) (Lexer.peek ahead) := by
  refine relocates_get.bind fun lexer => ?_
  have pending : (lexer.precededBy lead).pending =
      lexer.pending.map (Token.shift lead.length) := rfl
  simp only [pending, List.getElem?_map, List.getLast?_map, List.length_map]
  cases lexer.pending[ahead]? with
  | some token => exact .pure rfl
  | none =>
      cases lexer.pending.getLast? with
      | none => exact relocates_pull ahead
      | some last =>
          refine .ite ?_ ?_
          · exact .pure rfl
          · exact relocates_pull _

theorem relocates_take :
    Relocates lead (Token.shift lead.length) Lexer.take Lexer.take := by
  refine (relocates_peek 0).bind fun token => ?_
  refine .ite ?_ ?_
  · exact relocates_throw rfl
  · intro lexer
    show EStateM.Result.ok (token.shift lead.length) _ = EStateM.Result.ok _ _
    simp [Lexer.precededBy, List.map_tail]

theorem steady_sees : Steady lead (sees kind) :=
  (relocates_peek 0).bind fun _ => .pure rfl

theorem relocates_fail {move : α → α} {expected : Expectation} :
    Relocates lead move (fail expected : Reading α) (fail expected) := by
  refine (relocates_peek 0).bind fun token => ?_
  refine .ite ?_ ?_
  · exact relocates_throw rfl
  · exact relocates_throw rfl

theorem relocates_expect :
    Relocates lead (Token.shift lead.length) (expect kind) (expect kind) := by
  refine steady_sees.bind fun seen => ?_
  cases seen with
  | true => exact relocates_take
  | false => exact relocates_fail

theorem relocates_accept :
    Relocates lead (Option.map (Token.shift lead.length)) (accept kind) (accept kind) := by
  refine steady_sees.bind fun seen => ?_
  cases seen with
  | true => exact relocates_take.bind fun _ => .pure rfl
  | false => exact .pure rfl

theorem steady_skipNewline : Steady lead skipNewline :=
  relocates_accept.bind fun _ => steady_pure

/-- A raw scan sees the text ahead alone. -/
theorem steady_scan (scanner : Text → Scan α) : Steady lead (scan scanner) := by
  intro lexer
  show Lexer.raw (Cursor.scan scanner) (lexer.precededBy lead) =
    relocate lead id (Lexer.raw (Cursor.scan scanner) lexer)
  obtain ⟨pending, cursor⟩ := lexer
  cases pending with
  | cons token pending =>
      simp [Lexer.raw, Lexer.precededBy, relocate, Failure.shift]
  | nil =>
      have moved := fun taken rest => Cursor.advance_precededBy lead cursor taken rest
      have rest : (cursor.precededBy lead).rest = cursor.rest := rfl
      simp only [Lexer.raw, Lexer.precededBy, List.map_nil, List.isEmpty_nil, if_true, Cursor.scan,
        rest, moved]
      cases (scanner cursor.rest).result with
      | ok value => rfl
      | error fault =>
          simp [relocate, Failure.shift, Fault.shift_precededBy, Lexer.precededBy]

theorem steady_manyFrom {step : Reading (Option α)} (h : Steady lead step) (fuel : Nat) :
    Steady lead (manyFrom step fuel) := by
  induction fuel with
  | zero => exact steady_pure
  | succ fuel ih =>
      refine h.bind fun answer => ?_
      cases answer with
      | none => exact steady_pure
      | some value => exact ih.bind fun _ => steady_pure

theorem steady_many {step : Reading (Option α)} (h : Steady lead step) :
    Steady lead (many step) := by
  refine relocates_get.bind fun lexer => ?_
  simp only [Lexer.remaining_precededBy]
  exact steady_manyFrom h _

end Steps

end Reading

/-! ## Parameters -/

namespace Declaration

open Reading

variable {lead : Text}

theorem steady_alternative? : Steady lead alternative? := by
  refine relocates_accept.bind fun accepted => ?_
  cases accepted with
  | none => exact steady_pure
  | some pipe => exact relocates_expect.bind fun _ => steady_pure

theorem steady_typeConstraint? : Steady lead typeConstraint? := by
  refine relocates_accept.bind fun accepted => ?_
  cases accepted with
  | none => exact steady_pure
  | some token => exact (steady_many steady_alternative?).bind fun _ => steady_pure

theorem steady_style : Steady lead style := by
  refine relocates_accept.bind fun accepted => ?_
  cases accepted with
  | none => exact steady_pure
  | some colon =>
      refine relocates_accept.bind fun label => ?_
      cases label with
      | none => exact steady_pure
      | some token =>
          refine .ite ?_ ?_
          · exact relocates_expect.bind fun _ => steady_pure
          · exact relocates_throw rfl

theorem steady_variableName (style : Parameter.Style) : Steady lead (variableName style) := by
  refine relocates_expect.bind fun token => ?_
  cases style.label? with
  | none => exact steady_pure
  | some label => exact relocates_expect.bind fun _ => steady_pure

theorem relocates_requirement (style : Parameter.Style) : Steady lead (requirement style) := by
  refine relocates_accept.bind fun question => ?_
  cases question with
  | some token => exact steady_pure
  | none =>
      refine relocates_accept.bind fun bang => ?_
      cases bang with
      | some token => exact steady_pure
      | none => exact steady_pure

theorem steady_value : Steady lead value := by
  refine (steady_scan blanks).bind fun _ => (steady_scan Number.scan).bind fun number => ?_
  cases number with
  | some number => exact steady_pure
  | none =>
      refine (steady_scan Quote.scan).bind fun quote => ?_
      cases quote with
      | some quote => exact steady_pure
      | none =>
          refine relocates_accept.bind fun accepted => ?_
          cases accepted with
          | some token => exact steady_pure
          | none => exact relocates_fail

theorem steady_defaultValue? : Steady lead defaultValue? := by
  refine relocates_accept.bind fun accepted => ?_
  cases accepted with
  | none => exact steady_pure
  | some equals => exact steady_value.bind fun _ => steady_pure

theorem steady_block : Steady lead block := by
  refine (steady_scan blanks).bind fun _ => relocates_get.bind fun lexer => ?_
  have place : (lexer.precededBy lead).cursor.offset = lead.length + lexer.cursor.offset :=
    Cursor.offset_precededBy lead lexer.cursor
  refine .ite ?_ ?_
  · refine relocates_throw ?_
    rw [place]
    rfl
  · refine (steady_scan Block.scan).bind fun block => ?_
    cases block with
    | some block => exact steady_pure
    | none =>
        have ahead : (0 : Int) ≤ Cursor.previewLength := by decide
        refine relocates_throw ?_
        rw [place, Cursor.peek_of_nonneg _ ahead, Cursor.peek_of_nonneg _ ahead]
        rfl

theorem steady_constraint? : Steady lead constraint? := by
  refine relocates_accept.bind fun accepted => ?_
  cases accepted with
  | none => exact steady_pure
  | some keyword => exact steady_block.bind fun _ => steady_pure

theorem relocates_readRest (offset : Nat) (typeConstraint : Option Text)
    (style : Parameter.Style) :
    Relocates lead (Declaration.shift lead.length) (readRest offset typeConstraint style)
      (readRest (lead.length + offset) typeConstraint style) := by
  refine (steady_variableName style).bind fun name => (relocates_requirement style).bind fun required =>
    steady_defaultValue?.bind fun value => (steady_many steady_constraint?).bind fun constraints => ?_
  exact .pure rfl

theorem relocates_read? :
    Relocates lead (Option.map (Declaration.shift lead.length)) read? read? := by
  refine (relocates_peek 0).bind fun first => steady_typeConstraint?.bind fun typeConstraint =>
    steady_style.bind fun style => ?_
  have rest : Relocates lead (Option.map (Declaration.shift lead.length))
      (do
        let declaration ← readRest first.offset typeConstraint style
        return some declaration)
      (do
        let declaration ← readRest (lead.length + first.offset) typeConstraint style
        return some declaration) :=
    (relocates_readRest first.offset typeConstraint style).bind fun _ => .pure rfl
  refine .ite ?_ ?_
  · exact rest
  · refine steady_sees.bind fun seen => ?_
    cases seen with
    | true => exact rest
    | false => exact .pure rfl

end Declaration

theorem Parameter.steady_read {lead : Text} : Reading.Steady lead Parameter.read := by
  refine Declaration.relocates_read?.bind fun found => ?_
  cases found with
  | some declaration => exact Reading.steady_pure
  | none => exact Reading.relocates_fail

/-! ## Signatures -/

namespace Signature

open Reading

variable {lead : Text}

theorem relocates_require (declaration : Declaration) (cause? : Option Cause) :
    Relocates lead id (require declaration cause?)
      (require (declaration.shift lead.length) cause?) := by
  cases cause? with
  | none => exact steady_pure
  | some cause => exact relocates_throw rfl

theorem steady_separator? : Steady lead separator? := by
  refine relocates_accept.bind fun newline => relocates_accept.bind fun comma => ?_
  cases comma with
  | some token => exact steady_skipNewline.bind fun _ => steady_pure
  | none =>
      cases newline with
      | some token => exact steady_pure
      | none => exact steady_pure

theorem relocates_readParams (fuel : Nat) (optionalSeen : Bool) (declaration : Declaration) :
    Relocates lead id (readParams fuel optionalSeen declaration)
      (readParams fuel optionalSeen (declaration.shift lead.length)) := by
  induction fuel generalizing optionalSeen declaration with
  | zero => exact steady_pure
  | succ fuel ih =>
      refine (relocates_require declaration _).bind fun _ => steady_separator?.bind fun separator => ?_
      cases separator with
      | none => exact steady_pure
      | some comma =>
          refine Declaration.relocates_read?.bind fun next => ?_
          cases next with
          | some next => exact (ih _ next).bind fun _ => steady_pure
          | none =>
              cases comma with
              | true => exact relocates_fail
              | false =>
                  refine steady_sees.bind fun closing => ?_
                  cases closing with
                  | true => exact steady_pure
                  | false => exact relocates_fail

theorem relocates_readFrom (first : Option Declaration) :
    Relocates lead id (readFrom first)
      (readFrom (first.map (Declaration.shift lead.length))) := by
  cases first with
  | none => exact steady_pure
  | some declaration =>
      refine relocates_get.bind fun lexer => ?_
      simp only [Lexer.remaining_precededBy]
      exact relocates_readParams _ false declaration

theorem relocates_endsInvocant (declaration : Declaration) :
    Relocates lead id (endsInvocant declaration)
      (endsInvocant (declaration.shift lead.length)) := by
  refine steady_sees.bind fun colon => ?_
  cases colon with
  | true =>
      exact (relocates_require declaration _).bind fun _ => relocates_take.bind fun _ =>
        steady_skipNewline.bind fun _ => steady_pure
  | false => exact steady_pure

theorem steady_finish (invocant : Option Parameter) (params : List Parameter) :
    Steady lead (finish invocant params) :=
  relocates_expect.bind fun _ => steady_pure

theorem steady_read : Steady lead read := by
  refine relocates_expect.bind fun _ => steady_skipNewline.bind fun _ =>
    Declaration.relocates_read?.bind fun first => ?_
  cases first with
  | none => exact steady_finish none []
  | some first =>
      refine (relocates_endsInvocant first).bind fun isInvocant => ?_
      cases isInvocant with
      | true =>
          exact Declaration.relocates_read?.bind fun next => (relocates_readFrom next).bind fun params =>
            steady_finish _ params
      | false =>
          exact (relocates_readFrom (some first)).bind fun params => steady_finish none params

end Signature

/-! ## Requests -/

/-- What a steady reading parses at a cursor, it parses behind any text. -/
theorem Reading.Steady.parse {lead : Text} {reading : Reading α} (h : Steady lead reading)
    (cursor : Cursor) :
    reading.parse (cursor.precededBy lead) =
      (reading.parse cursor).mapError (Failure.shift lead.length) := by
  have moved : reading (.ofCursor (cursor.precededBy lead)) =
      relocate lead id (reading (.ofCursor cursor)) := h (.ofCursor cursor)
  unfold Reading.parse
  rw [moved]
  cases reading (.ofCursor cursor) with
  | ok value lexer => simp [relocate, Lexer.remaining_precededBy, Except.mapError]
  | error failure lexer => rfl

/-- The same refusal, for a request that starts `distance` characters further on. -/
def Refusal.shift (distance : Nat) : Refusal → Refusal
  | .reading failure => .reading (failure.shift distance)
  | refusal => refusal

namespace Request

/-- A request for the text behind `lead` is refused or answered as one for the text alone,
whatever it builds. -/
theorem run_relocated {noun : String} {reading : Reading α} {build : α → Checked β}
    (lead text : Text) (builders : Builders) (steady : Reading.Steady lead reading) :
    ((⟨.string (lead ++ text), lead.length, builders⟩ : Request).run noun reading.parse
        build).result =
      ((⟨.string text, 0, builders⟩ : Request).run noun reading.parse build).result.mapError
        (Refusal.shift lead.length) := by
  have placed : Cursor.place (lead ++ text) lead.length = .ok ⟨lead, text⟩ :=
    Cursor.place_append lead text
  have placed' : Cursor.place text 0 = .ok ⟨[], text⟩ := Cursor.place_append [] text
  have moved := steady.parse ⟨[], text⟩
  simp only [Cursor.precededBy, List.append_nil] at moved
  unfold Request.run check
  simp only [placed, placed']
  cases checkBuilders builders with
  | error error => rfl
  | ok usable =>
      simp only [Except.map, moved]
      cases reading.parse ⟨[], text⟩ with
      | error failure => rfl
      | ok found =>
          obtain ⟨value, rest⟩ := found
          simp only [Except.mapError, built]
          cases build value with
          | valid value => rfl
          | invalid issues => rfl

/-- Two outcomes are the same answer, or faults reported alike with the second `distance`
further on. -/
inductive Alike (distance : Nat) : Except Refusal (α × Text) → Except Refusal (α × Text) → Prop
  | answer (found : α × Text) : Alike distance (.ok found) (.ok found)
  | fault {fault fault' : Fault}
      (reported : Report.ofFault fault' =
        { Report.ofFault fault with offset := (Report.ofFault fault).offset + distance }) :
      Alike distance (.error (.reading (.fault fault))) (.error (.reading (.fault fault')))

/-- A report shows of a shift only the offset. -/
theorem ofFault_shift (distance : Nat) (fault : Fault) :
    Report.ofFault (fault.shift distance) =
      { Report.ofFault fault with offset := (Report.ofFault fault).offset + distance } := by
  have offset : ((distance + fault.offset : Nat) : Int) = fault.offset + distance := by omega
  simp [Report.ofFault, offset]

/-- An outcome that is an answer or a located fault is like itself, moved. -/
theorem Outcome.Located.alike {outcome : Outcome α} {input : Text} {offset : Nat}
    (h : outcome.Located input offset) (distance : Nat) :
    Alike distance outcome.result (outcome.result.mapError (Refusal.shift distance)) := by
  unfold Located at h
  cases found : outcome.result with
  | ok answer => exact .answer answer
  | error refusal =>
      rw [found] at h
      obtain ⟨fault, rfl, -⟩ := h
      exact .fault (ofFault_shift distance fault)

/-- **The text before the start does not matter.**  A text parsed behind `lead` gives the
signature it gives alone and leaves the same text, or is refused by a fault of the same
category, with the same reason, depth and operator, `lead.length` characters further on.  The
same is so of a parameter. -/
theorem outcomes_relocated {library : Library} (rules : library.Rules) (lead text : Text) :
    Alike lead.length ((ofText text).parseSignature library).result
        ((⟨.string (lead ++ text), lead.length, .models⟩ : Request).parseSignature
          library).result ∧
      Alike lead.length (ofText text).parseParameter.result
        (⟨.string (lead ++ text), lead.length, .models⟩ : Request).parseParameter.result := by
  have builds : ∀ signature, ∃ built,
      Builders.models.buildSignature library signature = .valid built := by
    intro signature
    obtain ⟨built, valid, -⟩ := Grammar.buildSignature_models rules signature
    exact ⟨built, valid⟩
  constructor
  · have located : ((ofText text).parseSignature library).Located text 0 :=
      run_located (Nat.zero_le _) rfl Signature.keeps_read builds
    have moved : ((⟨.string (lead ++ text), lead.length, .models⟩ : Request).parseSignature
        library).result =
        ((ofText text).parseSignature library).result.mapError (Refusal.shift lead.length) :=
      run_relocated lead text .models Signature.steady_read
    rw [moved]
    exact located.alike lead.length
  · have located : (ofText text).parseParameter.Located text 0 :=
      run_located (Nat.zero_le _) rfl Parameter.keeps_read fun _ => ⟨_, rfl⟩
    have moved : (⟨.string (lead ++ text), lead.length, .models⟩ : Request).parseParameter.result =
        (ofText text).parseParameter.result.mapError (Refusal.shift lead.length) :=
      run_relocated lead text .models Parameter.steady_read
    rw [moved]
    exact located.alike lead.length

/-- Two brackets of a quote are open, six characters into the text; what is quoted before it is
not looked at. -/
theorem outcomes_relocated_open_quote :
    (ofText "($x = q(a(b".toList).parseSignature.result =
        .error (.reading (.fault ⟨6, .openQuote "q(a(b".toList ')' 2⟩)) ∧
      Alike "don't".toList.length (ofText "($x = q(a(b".toList).parseSignature.result
        (⟨.string ("don't".toList ++ "($x = q(a(b".toList), "don't".toList.length, .models⟩ :
          Request).parseSignature.result :=
  ⟨by decide +kernel,
    (outcomes_relocated Library.lax_rules "don't".toList "($x = q(a(b".toList).1⟩

end Request

end MethodSignature
