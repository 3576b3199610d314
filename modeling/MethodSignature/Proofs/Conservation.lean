/-
# MethodSignature.Proofs.Conservation -- a lexer loses no text

A lexer is used in steps, in any order: looking ahead, taking tokens, asking for the text that
remains, and scanning at its cursor.  After every step, the text handed out so far and the text
that remains make up the source from the start on (`run_conserves`).  What has been handed out
is what the tokens taken were written as and what the raw steps have moved over.

Steps that fail conserve the text as well: a failure that stops a lookahead leaves the tokens
before it waiting, the end of the input cannot be taken, and a raw scan that is refused or
fails moves nothing.  The one exception is a malformed type constraint, of which what has been
read is gone (`Failure.isOfType`).

A step is understood by two facts: how far its cursor has gone (`Cursor.Goes`), and that what
remained before is what it hands out and what remains after (`Lexer.Hands`).
-/
import MethodSignature.Lexer.Step
import MethodSignature.Proofs.Lexer

namespace MethodSignature

set_option autoImplicit false

variable {α β : Type}

/-! ## Actions one after the other -/

theorem Reading.bind_eq_error_iff {reading : Reading α} {next : α → Reading β}
    {lexer after : Lexer} {failure : Failure} :
    (reading >>= next) lexer = .error failure after ↔
      reading lexer = .error failure after ∨
        ∃ first between, reading lexer = .ok first between ∧
          next first between = .error failure after := by
  show EStateM.bind reading next lexer = .error failure after ↔ _
  unfold EStateM.bind
  cases reading lexer with
  | error failure' between => simp
  | ok first between =>
      constructor
      · intro failed
        exact .inr ⟨first, between, rfl, failed⟩
      · rintro (⟨⟨⟩⟩ | ⟨_, _, ⟨⟩, failed⟩)
        exact failed

section Map

variable {ε σ : Type} {action : EStateM ε σ α} {f : α → β} {state next : σ}

theorem map_eq_ok_iff {value : β} :
    (f <$> action) state = .ok value next ↔
      ∃ found, action state = .ok found next ∧ f found = value := by
  show EStateM.map f action state = .ok value next ↔ _
  unfold EStateM.map
  cases action state with
  | error failure after => simp
  | ok found after =>
      simp only [EStateM.Result.ok.injEq]
      constructor
      · rintro ⟨same, rfl⟩
        exact ⟨found, ⟨rfl, rfl⟩, same⟩
      · rintro ⟨_, ⟨rfl, rfl⟩, same⟩
        exact ⟨same, rfl⟩

theorem map_eq_error_iff {failure : ε} :
    (f <$> action) state = .error failure next ↔ action state = .error failure next := by
  show EStateM.map f action state = .error failure next ↔ _
  unfold EStateM.map
  cases action state with
  | error failure' after => simp
  | ok found after => simp

end Map

/-! ## Failures and the text taken -/

/-- The cause lies inside a type constraint. -/
def Cause.isOfType : Cause → Bool
  | .strayInType _ _ | .typeNameMissing _ _ | .openTypeBrackets _ _ => true
  | _ => false

/-- The failure is a fault inside a type constraint. -/
def Failure.isOfType : Failure → Bool
  | .fault found => found.cause.isOfType
  | _ => false

namespace Scan

/-- The scan can fail only inside a type constraint. -/
def FailsInType (scan : Scan α) : Prop :=
  ∀ fault, scan.result = .error fault → fault.cause.isOfType = true

theorem FailsInType.after {scan : Scan α} (h : scan.FailsInType) (lead : Text) :
    (scan.after lead).FailsInType := by
  intro fault failed
  obtain ⟨taken, rest, result⟩ := scan
  cases result with
  | ok value => cases failed
  | error found =>
      cases failed
      exact h found rfl

theorem FailsInType.map {scan : Scan α} (h : scan.FailsInType) (f : α → β) :
    (scan.map f).FailsInType := by
  intro fault failed
  obtain ⟨taken, rest, result⟩ := scan
  cases result with
  | ok value => cases failed
  | error found =>
      cases failed
      exact h _ rfl

/-- Where the scan fails, it has taken nothing, unless it fails inside a type constraint. -/
def Spares (scan : Scan α) : Prop :=
  ∀ fault, scan.result = .error fault → fault.cause.isOfType = true ∨ scan.taken = []

theorem FailsInType.spares {scan : Scan α} (h : scan.FailsInType) : scan.Spares :=
  fun fault failed => .inl (h fault failed)

theorem spares_ok {taken rest : Text} {value : α} : (⟨taken, rest, .ok value⟩ : Scan α).Spares :=
  nofun

theorem spares_fail {text : Text} {cause : Cause} : (fail text cause : Scan α).Spares :=
  fun _ _ => .inr rfl

end Scan

theorem TypeConstraint.failsInType_extend (leading text : Text) :
    (extend leading text).FailsInType := by
  have finished : ∀ constraint depth text, (finish constraint depth text).FailsInType := by
    intro constraint depth text
    unfold finish
    split
    · exact nofun
    · rintro fault ⟨⟩
      rfl
  have extended : ∀ fuel constraint depth text,
      (extendFrom fuel constraint depth text).FailsInType := by
    intro fuel constraint depth text
    fun_induction extendFrom fuel constraint depth text with
    | case1 => exact finished _ _ _
    | case2 => exact finished _ _ _
    | case3 => exact finished _ _ _
    | case4 => rintro fault ⟨⟩; rfl
    | case5 fuel constraint rest depth _ ih => exact ih.after _
    | case6 => rintro fault ⟨⟩; rfl
    | case7 => rintro fault ⟨⟩; rfl
    | case8 fuel constraint depth symbol rest _ _ _ name rest' _ depth' ih => exact ih.after _
  exact extended _ _ _ _

theorem Token.failsInType_lexeme? {text : Text} {scan : Scan (Kind × Text)}
    (h : lexeme? text = some scan) : scan.FailsInType := by
  unfold lexeme? at h
  split at h
  · cases h
  · split at h
    · cases h
      exact nofun
    · split at h
      · split at h
        · cases h
          exact nofun
        · cases h
          exact ((TypeConstraint.failsInType_extend _ _).after _).map _
      · rw [Option.map_eq_some_iff] at h
        obtain ⟨_, _, rfl⟩ := h
        exact nofun

theorem Token.failsInType_withBlanks {scan : Scan α} (h : scan.FailsInType) :
    (withBlanks scan).FailsInType := by
  unfold withBlanks
  split
  · exact nofun
  · exact h

/-- Where no token begins, nothing is taken. -/
theorem Token.spares_scan (text : Text) : (scan text).Spares := by
  unfold scan
  split
  · exact Scan.spares_ok
  · split
    · exact Scan.spares_ok
    · simp only
      split
      · rename_i found
        exact ((failsInType_withBlanks (failsInType_lexeme? found)).after _).spares
      · exact fun _ _ => .inr rfl

theorem Number.spares_scan (text : Text) : (scan text).Spares := by
  unfold scan
  cases read? text with
  | none => exact Scan.spares_ok
  | some found => exact Scan.spares_ok

theorem Quote.spares_scan (text : Text) : (scan text).Spares := by
  have delimited : ∀ text lead delimiter body isModifier,
      (delimited text lead delimiter body isModifier).Spares := by
    intro text lead delimiter body isModifier
    unfold Quote.delimited
    split
    · exact Scan.spares_ok
    · exact Scan.spares_fail
  unfold scan
  split
  · exact Scan.spares_ok
  · exact Scan.spares_fail
  · split
    · exact delimited _ _ _ _ _
    · exact Scan.spares_fail
  · split
    · exact delimited _ _ _ _ _
    · exact Scan.spares_fail

theorem Block.spares_scan (text : Text) : (scan text).Spares := by
  unfold scan
  split
  · split
    · exact Scan.spares_ok
    · exact Scan.spares_fail
  · exact Scan.spares_ok

/-! ## Cursors -/

namespace Cursor

/-- The cursor has gone from `old` to `new`, over `taken`. -/
structure Goes (old new : Cursor) (taken : Text) : Prop where
  before : new.before = old.before ++ taken
  rest : old.rest = taken ++ new.rest

/-- The source between two offsets. -/
def slice (source : Text) (start stop : Nat) : Text := (source.take stop).drop start

section Goes

variable {old middle new : Cursor} {taken more : Text}

theorem goes_refl (cursor : Cursor) : cursor.Goes cursor [] :=
  ⟨(List.append_nil _).symm, rfl⟩

theorem goes_advance {rest : Text} (covers : taken ++ rest = old.rest) :
    old.Goes (old.advance taken rest) taken :=
  ⟨rfl, covers.symm⟩

theorem goes_of_scanned {scanner : Text → Scan α} (covers : ∀ text, (scanner text).Covers text)
    {rest : Text} {result : Except Fault α} (scanned : scanner old.rest = ⟨taken, rest, result⟩) :
    old.Goes (old.advance taken rest) taken := by
  have whole := covers old.rest
  rw [scanned] at whole
  exact goes_advance whole

theorem Goes.trans (h : old.Goes middle taken) (h' : middle.Goes new more) :
    old.Goes new (taken ++ more) := by
  refine ⟨?_, ?_⟩
  · rw [h'.before, h.before, List.append_assoc]
  · rw [h.rest, h'.rest, List.append_assoc]

theorem Goes.source_eq (h : old.Goes new taken) : new.source = old.source := by
  rw [source, source, h.before, h.rest, List.append_assoc]

theorem Goes.offset_le (h : old.Goes new taken) : old.offset ≤ new.offset := by
  show old.before.length ≤ new.before.length
  rw [h.before, List.length_append]
  omega

/-- What a cursor has gone over is the source between its offsets. -/
theorem Goes.slice_eq (h : old.Goes new taken) :
    slice new.source old.offset new.offset = taken := by
  have upTo : new.source.take new.offset = old.before ++ taken := by
    rw [source, offset, List.take_left, h.before]
  rw [slice, upTo]
  exact List.drop_left

end Goes

/-- The cursor goes on, and where the action fails it stays, unless the failure lies inside a
type constraint. -/
structure Orderly (action : Action α) : Prop where
  ok : ∀ {cursor next value}, action cursor = .ok value next → ∃ taken, cursor.Goes next taken
  error : ∀ {cursor next failure}, action cursor = .error failure next →
    (∃ taken, cursor.Goes next taken) ∧ (failure.isOfType = true ∨ next = cursor)

theorem orderly_scan {scanner : Text → Scan α} (covers : ∀ text, (scanner text).Covers text)
    (spares : ∀ text, (scanner text).Spares) : Orderly (scan scanner) := by
  constructor
  · intro cursor next value h
    obtain ⟨taken, rest, scanned, rfl⟩ := scan_eq_ok_iff.1 h
    exact ⟨taken, goes_of_scanned covers scanned⟩
  · intro cursor next failure h
    obtain ⟨taken, rest, fault, scanned, rfl, rfl⟩ := scan_eq_error_iff.1 h
    have goes := goes_of_scanned covers scanned
    have spared := spares cursor.rest fault
    rw [scanned] at spared
    refine ⟨⟨taken, goes⟩, ?_⟩
    rcases spared rfl with ofType | none
    · exact .inl ofType
    · right
      obtain rfl : taken = [] := none
      have stays : cursor.rest = rest := goes.rest
      simp [advance, ← stays]

theorem orderly_consume (length : Int) : Orderly (consume length) := by
  constructor
  · intro cursor next value h
    simp only [consume] at h
    split at h
    · cases h
      exact ⟨_, goes_advance (List.take_append_drop ..)⟩
    · cases h
  · intro cursor next failure h
    simp only [consume] at h
    split at h
    · cases h
    · cases h
      exact ⟨⟨[], goes_refl cursor⟩, .inr rfl⟩

theorem Orderly.map {action : Action α} (h : Orderly action) (f : α → β) :
    Orderly (f <$> action) := by
  constructor
  · intro cursor next value mapped
    obtain ⟨found, performed, -⟩ := map_eq_ok_iff.1 mapped
    exact h.ok performed
  · intro cursor next failure mapped
    exact h.error (map_eq_error_iff.1 mapped)

theorem orderly_perform (step : Step) : Orderly step.perform := by
  have looks : ∀ answer : Cursor → Answer,
      Orderly fun cursor => .ok (answer cursor) cursor := by
    intro answer
    constructor
    · rintro cursor next value ⟨⟩
      exact ⟨[], goes_refl cursor⟩
    · exact nofun
  cases step with
  | peek length => exact looks _
  | charAt index => exact looks _
  | consume length => exact (orderly_consume length).map _
  | preview length => exact looks _
  | remaining => exact looks _
  | atEnd => exact looks _
  | source => exact looks _
  | number => exact (orderly_scan Number.covers_scan Number.spares_scan).map _
  | quote => exact (orderly_scan Quote.covers_scan Quote.spares_scan).map _
  | block => exact (orderly_scan Block.covers_scan Block.spares_scan).map _
  | typeConstraint leading =>
      exact (orderly_scan (TypeConstraint.covers_extend leading)
        fun text => (TypeConstraint.failsInType_extend leading text).spares).map _

end Cursor

/-! ## Lexers -/

namespace Lexer

/-- From `old` to `new` the lexer has handed out `handed`, and its cursor has not gone back. -/
structure Hands (old new : Lexer) (handed : Text) : Prop where
  remaining : old.remaining = handed ++ new.remaining
  goes : ∃ taken, old.cursor.Goes new.cursor taken

theorem hands_refl (lexer : Lexer) : lexer.Hands lexer [] :=
  ⟨rfl, [], Cursor.goes_refl lexer.cursor⟩

theorem Hands.trans {old middle new : Lexer} {handed more : Text} (h : old.Hands middle handed)
    (h' : middle.Hands new more) : old.Hands new (handed ++ more) := by
  obtain ⟨remaining, taken, goes⟩ := h
  obtain ⟨remaining', taken', goes'⟩ := h'
  refine ⟨?_, taken ++ taken', goes.trans goes'⟩
  rw [remaining, remaining', List.append_assoc]

/-- The reading hands out what `handed` says of its answer, and nothing where it fails outside
a type constraint. -/
structure HandsOut (reading : Reading α) (handed : α → Text) : Prop where
  ok : ∀ {lexer next value}, reading lexer = .ok value next → lexer.Hands next (handed value)
  error : ∀ {lexer next failure}, reading lexer = .error failure next → failure.isOfType = false →
    lexer.Hands next []

/-- A reading that hands out nothing may come before another. -/
theorem HandsOut.bind {reading : Reading α} {next : α → Reading β} {handed : β → Text}
    (h : HandsOut reading fun _ => []) (h' : ∀ value, HandsOut (next value) handed) :
    HandsOut (reading >>= next) handed := by
  constructor
  · intro lexer after value bound
    obtain ⟨first, between, found, found'⟩ := Reading.bind_eq_ok_iff.1 bound
    exact (h.ok found).trans ((h' first).ok found')
  · intro lexer after failure bound outside
    rcases Reading.bind_eq_error_iff.1 bound with failed | ⟨first, between, found, failed⟩
    · exact h.error failed outside
    · exact (h.ok found).trans ((h' first).error failed outside)

theorem handsOut_pure (value : α) : HandsOut (pure value : Reading α) fun _ => [] := by
  constructor
  · rintro lexer next value ⟨⟩
    exact hands_refl lexer
  · exact nofun

theorem handsOut_get : HandsOut (get : Reading Lexer) fun _ => [] := by
  constructor
  · rintro lexer next value ⟨⟩
    exact hands_refl lexer
  · exact nofun

/-- A token that is read ahead waits with the text it was written as. -/
theorem handsOut_buffer : HandsOut buffer fun _ => [] := by
  constructor
  · rintro ⟨pending, cursor⟩ next value h
    have covers := Token.covers_scan cursor.rest
    simp only [buffer] at h
    split at h
    · cases h
      refine ⟨?_, _, Cursor.goes_advance covers⟩
      simp only [remaining, List.flatMap_append, List.flatMap_singleton, List.append_assoc,
        List.nil_append, Cursor.advance]
      rw [covers]
    · cases h
  · rintro ⟨pending, cursor⟩ next failure h outside
    have covers := Token.covers_scan cursor.rest
    simp only [buffer] at h
    split at h
    · cases h
    · rename_i fault failed
      cases h
      refine ⟨?_, _, Cursor.goes_advance covers⟩
      rcases Token.spares_scan cursor.rest fault failed with ofType | none
      · have both : true = false := ofType.symm.trans outside
        cases both
      · rw [Scan.Covers, none, List.nil_append] at covers
        simp only [remaining, List.nil_append, Cursor.advance, covers]

theorem handsOut_pull (more : Nat) : HandsOut (pull more) fun _ => [] := by
  induction more with
  | zero => exact handsOut_buffer
  | succ more ih =>
      refine handsOut_buffer.bind fun token => ?_
      split
      · exact handsOut_pure token
      · exact ih

theorem handsOut_peek (ahead : Nat) : HandsOut (peek ahead) fun _ => [] := by
  refine handsOut_get.bind fun lexer => ?_
  cases lexer.pending[ahead]? with
  | some token => exact handsOut_pure token
  | none =>
      cases lexer.pending.getLast? with
      | none => exact handsOut_pull ahead
      | some last =>
          show HandsOut (ite (last.kind = .endOfInput) _ _) _
          split
          · exact handsOut_pure last
          · exact handsOut_pull _

/-- The token looked at waits in front. -/
theorem pending_of_peek {lexer next : Lexer} {token : Token} (h : peek 0 lexer = .ok token next) :
    ∃ waiting, next.pending = token :: waiting := by
  obtain ⟨pending, cursor⟩ := lexer
  cases pending with
  | cons first waiting =>
      cases h
      exact ⟨waiting, rfl⟩
  | nil =>
      obtain ⟨next, -, rfl⟩ := (peek_eq_ok_iff (.fresh cursor)).1 h
      exact ⟨[], rfl⟩

theorem handsOut_take : HandsOut take Token.written := by
  constructor
  · intro lexer next token h
    obtain ⟨first, between, peeked, taken⟩ := Reading.bind_eq_ok_iff.1 h
    have looks := (handsOut_peek 0).ok peeked
    split at taken
    · cases taken
    · cases taken
      obtain ⟨waiting, front⟩ := pending_of_peek peeked
      refine ⟨?_, looks.goes⟩
      show lexer.remaining = token.written ++ remaining ⟨between.pending.tail, between.cursor⟩
      rw [looks.remaining, remaining, remaining, front]
      simp
  · intro lexer next failure h outside
    rcases Reading.bind_eq_error_iff.1 h with failed | ⟨first, between, peeked, failed⟩
    · exact (handsOut_peek 0).error failed outside
    · split at failed
      · cases failed
        exact (handsOut_peek 0).ok peeked
      · cases failed

/-! ## Steps and runs -/

/-- The text that a step, answered so, has handed out of the source: what a token taken was
written as, and what a raw step has moved over from the lexer `old` to `new`. -/
def Step.handed (source : Text) (old : Lexer) : Step → Except Failure Answer → Lexer → Text
  | .take, .ok (.token taken), _ => taken.written
  | .raw _, .ok _, new => Cursor.slice source old.cursor.offset new.cursor.offset
  | _, _, _ => []

/-- The text that steps, answered one after the other from the lexer `old` on, have handed
out. -/
def handedOut (source : Text) (old : Lexer) :
    List Step → List (Except Failure Answer × Lexer) → Text
  | step :: steps, (answer, new) :: entries =>
      step.handed source old answer new ++ handedOut source new steps entries
  | _, _ => []

/-- A step at a lexer, how it is answered, and the lexer after it. -/
inductive Performs (lexer : Lexer) (step : Step) : Except Failure Answer → Lexer → Prop
  | answered {value : Answer} {next : Lexer} :
      step.perform lexer = .ok value next → Performs lexer step (.ok value) next
  | failed {failure : Failure} {next : Lexer} :
      step.perform lexer = .error failure next → Performs lexer step (.error failure) next

theorem Performs.run_cons {lexer next : Lexer} {step : Step} {answer : Except Failure Answer}
    (h : lexer.Performs step answer next) (steps : List Step) :
    lexer.run (step :: steps) = (answer, next) :: next.run steps := by
  cases h with
  | answered performed => simp only [run, List.map_cons, transcript, performed]
  | failed performed => simp only [run, List.map_cons, transcript, performed]

theorem exists_performs (lexer : Lexer) (step : Step) :
    ∃ answer next, lexer.Performs step answer next := by
  cases performed : step.perform lexer with
  | ok value next => exact ⟨.ok value, next, .answered performed⟩
  | error failure next => exact ⟨.error failure, next, .failed performed⟩

/-- A raw step hands out what it moves over. -/
theorem hands_of_raw {step : Cursor.Step} {lexer next : Lexer} {answer : Cursor.Answer}
    (h : raw step.perform lexer = .ok answer next) :
    lexer.Hands next (Cursor.slice next.cursor.source lexer.cursor.offset next.cursor.offset) := by
  obtain ⟨pending, cursor⟩ := lexer
  cases pending with
  | cons token waiting => cases h
  | nil =>
      simp only [raw, List.isEmpty_nil, if_true] at h
      split at h
      · rename_i found
        cases h
        obtain ⟨taken, goes⟩ := (Cursor.orderly_perform step).ok found
        rw [goes.slice_eq]
        exact ⟨goes.rest, taken, goes⟩
      · cases h

/-- A raw step that is refused or fails hands out nothing. -/
theorem hands_of_raw_failed {step : Cursor.Step} {lexer next : Lexer} {failure : Failure}
    (h : raw step.perform lexer = .error failure next) (outside : failure.isOfType = false) :
    lexer.Hands next [] := by
  obtain ⟨pending, cursor⟩ := lexer
  cases pending with
  | cons token waiting =>
      cases h
      exact hands_refl _
  | nil =>
      simp only [raw, List.isEmpty_nil, if_true] at h
      split at h
      · cases h
      · rename_i found
        cases h
        obtain rfl := ((Cursor.orderly_perform step).error found).2.resolve_left (ne_true_of_eq_false outside)
        exact hands_refl _

/-- The step, answered so, has failed inside a type constraint. -/
def failsInType : Except Failure Answer → Bool
  | .ok _ => false
  | .error failure => failure.isOfType

/-- **One step** hands out what is gone of the text that remained. -/
theorem Performs.hands {lexer next : Lexer} {step : Step} {answer : Except Failure Answer}
    (h : lexer.Performs step answer next)
    (outside : failsInType answer = false) :
    lexer.Hands next (step.handed next.cursor.source lexer answer next) := by
  cases h with
  | answered performed =>
      cases step with
      | token ahead =>
          obtain ⟨token, peeked, rfl⟩ := map_eq_ok_iff.1 performed
          exact (handsOut_peek ahead).ok peeked
      | take =>
          obtain ⟨token, taken, rfl⟩ := map_eq_ok_iff.1 performed
          exact handsOut_take.ok taken
      | remaining =>
          cases performed
          exact hands_refl lexer
      | raw step =>
          obtain ⟨answer, acted, rfl⟩ := map_eq_ok_iff.1 performed
          exact hands_of_raw acted
  | @failed failure _ performed =>
      change failure.isOfType = false at outside
      cases step with
      | token ahead => exact (handsOut_peek ahead).error (map_eq_error_iff.1 performed) outside
      | take => exact handsOut_take.error (map_eq_error_iff.1 performed) outside
      | remaining => cases performed
      | raw step => exact hands_of_raw_failed (map_eq_error_iff.1 performed) outside

/-- No step of the run has failed inside a type constraint. -/
def SparesTypes (entries : List (Except Failure Answer × Lexer)) : Prop :=
  ∀ entry ∈ entries, failsInType entry.1 = false

/-- A run from any lexer hands out what is gone of the text that remained at its start. -/
theorem run_hands {source : Text} {steps : List Step} {lexer : Lexer}
    (same : lexer.cursor.source = source) (spares : SparesTypes (lexer.run steps)) :
    (∀ n answer after, (lexer.run steps)[n]? = some (answer, after) →
      handedOut source lexer steps ((lexer.run steps).take (n + 1)) ++ after.remaining =
        lexer.remaining) ∧
    List.Pairwise (· ≤ ·)
      (lexer.cursor.offset :: (lexer.run steps).map fun entry => entry.2.cursor.offset) := by
  induction steps generalizing lexer with
  | nil => exact ⟨nofun, List.pairwise_singleton ..⟩
  | cons step steps ih =>
      obtain ⟨answer, next, performs⟩ := lexer.exists_performs step
      rw [performs.run_cons] at spares ⊢
      obtain ⟨remaining, taken, goes⟩ := performs.hands (spares (answer, next) (List.mem_cons_self ..))
      have same' : next.cursor.source = source := goes.source_eq.trans same
      rw [same'] at remaining
      obtain ⟨conserved, ordered⟩ := ih same' fun entry member =>
        spares entry (List.mem_cons_of_mem _ member)
      constructor
      · intro n answer' after found
        rw [List.take_succ_cons, handedOut, List.append_assoc, remaining]
        congr 1
        cases n with
        | zero =>
            cases found
            simp [handedOut]
        | succ n => exact conserved n answer' after found
      · refine List.pairwise_cons.2 ⟨?_, ordered⟩
        intro offset member
        rcases List.mem_cons.1 member with rfl | later
        · exact goes.offset_le
        · exact Nat.le_trans goes.offset_le ((List.pairwise_cons.1 ordered).1 offset later)

/-- **No text is lost.**  From an offset of a source, a lexer does any steps in any order, none
of which fails inside a type constraint.  After every step, the text handed out so far and the
text that remains make up the source from the offset on.  The cursor never goes back. -/
theorem run_conserves {source : Text} {offset : Int} {cursor : Cursor}
    (placed : Cursor.place source offset = .ok cursor) {steps : List Step}
    (spares : SparesTypes ((ofCursor cursor).run steps)) :
    (∀ n answer after, ((ofCursor cursor).run steps)[n]? = some (answer, after) →
      handedOut source (ofCursor cursor) steps (((ofCursor cursor).run steps).take (n + 1)) ++
        after.remaining = source.drop offset.toNat) ∧
    List.Pairwise (· ≤ ·)
      (cursor.offset :: ((ofCursor cursor).run steps).map fun entry => entry.2.cursor.offset) := by
  unfold Cursor.place at placed
  split at placed
  · cases placed
    exact run_hands (List.take_append_drop ..) spares
  · cases placed

/-- Raw steps are refused while a token waits and fail on an open quote, and a lookahead fails
behind tokens that then still wait. -/
theorem run_conserves_failed_lookahead :
    let source := "> ($x = q(b | [c".toList
    let cursor : Cursor := ⟨"> ".toList, "($x = q(b | [c".toList⟩
    let steps : List Step := [.token 1, .raw (.consume 1), .take, .take, .take, .raw .quote,
      .raw (.consume 2), .token 3, .take]
    let entries := (ofCursor cursor).run steps
    Cursor.place source 2 = .ok cursor ∧ SparesTypes entries ∧
      entries.map (fun entry => entry.1.toOption.isSome) =
        [true, false, true, true, true, false, true, false, true] ∧
      handedOut source (ofCursor cursor) steps entries = "($x = q(b ".toList ∧
      handedOut source (ofCursor cursor) steps entries ++ "| [c".toList = source.drop 2 := by
  intro source cursor steps entries
  have placed : Cursor.place source 2 = .ok cursor := by rfl
  have spares : SparesTypes entries := by
    unfold SparesTypes
    decide +kernel
  have last : entries[8]?.map (fun entry => entry.2.remaining) = some "| [c".toList := by
    decide +kernel
  obtain ⟨⟨answer, after⟩, found, remaining⟩ := Option.map_eq_some_iff.1 last
  have conserved := (run_conserves placed spares).1 8 answer after found
  have whole : entries.take 9 = entries := List.take_of_length_le (by decide +kernel)
  simp only at remaining
  rw [whole, remaining] at conserved
  exact ⟨placed, spares, by decide +kernel, by decide +kernel, conserved⟩

end Lexer

end MethodSignature
