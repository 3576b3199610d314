/-
# MethodSignature.Proofs.Safety -- every refusal is a located fault

`Safe` is a triple.  Reading from a lexer of which `before` holds either answers, and then
`after` holds of the answer and of the lexer left; or it fails with a fault of the source that
lies no earlier than where reading began.  No other failure is possible: nothing is taken that
is not there, and no raw scan meets a token that waits.

Two assertions carry this through the grammar.  `Stands` lets one token wait; `Rests` lets
none, and is what a raw scan asks for.  Taking a token leaves the lexer at rest, so the text
behind `=` and `where` can be scanned.
-/
import Mathlib.Control.Monad.Basic
import MethodSignature.Proofs.Located
import MethodSignature.Proofs.Soundness.Signature

namespace MethodSignature

set_option autoImplicit false

open Text

/-- An offset of the source, not before `base`. -/
def Between (source : Text) (base offset : Nat) : Prop := base ≤ offset ∧ offset ≤ source.length

/-- A fault of the source, not before `base`. -/
structure Fault.Past (source : Text) (base : Nat) (fault : Fault) : Prop extends
    Fault.In source fault where
  past : base ≤ fault.offset

/-- A cursor in the source, not before `base`. -/
structure Cursor.Within (source : Text) (base : Nat) (cursor : Cursor) : Prop where
  same : cursor.source = source
  past : base ≤ cursor.offset

section Within

variable {source : Text} {base : Nat} {cursor next : Cursor} {token : Token}

theorem Cursor.Within.between (h : cursor.Within source base) :
    Between source base cursor.offset := by
  refine ⟨h.past, ?_⟩
  rw [← h.same, Cursor.source, List.length_append, Cursor.offset]
  omega

theorem Cursor.Within.advance (h : cursor.Within source base) {taken rest : Text}
    (covers : taken ++ rest = cursor.rest) : (cursor.advance taken rest).Within source base := by
  refine ⟨(source_advance covers).trans h.same, ?_⟩
  rw [offset_advance]
  exact Nat.le_add_right_of_le h.past

theorem Cursor.Within.shown (h : cursor.Within source base) (shows : cursor.Shows token next) :
    next.Within source base := by
  have moved : next = cursor.advance token.written next.rest := by
    obtain ⟨before, rest⟩ := next
    rw [Cursor.advance, ← shows.before]
  rw [moved]
  exact h.advance shows.whole.symm

/-- A fault of the text at a cursor is one of the source. -/
theorem Cursor.Within.fault (h : cursor.Within source base) {fault : Fault}
    (inside : fault.In cursor.rest) : (fault.shift cursor.offset).Past source base := by
  refine ⟨?_, Nat.le_add_right_of_le h.past⟩
  rw [← h.same]
  exact inside.shift cursor.before

theorem Cursor.Within.fault_here (h : cursor.Within source base) {cause : Cause}
    (describes : cause.Describes cursor.rest) :
    (⟨cursor.offset, cause⟩ : Fault).Past source base :=
  h.fault (Fault.in_zero describes)

/-- At the end of the input, only blanks and a comment are left. -/
theorem Cursor.Shows.isSpent (h : cursor.Shows token next) (ended : token.kind = .endOfInput) :
    IsSpent cursor.rest := by
  rcases Token.scan_sound h.scanned with ⟨newline, -⟩ | ⟨-, isFinal⟩ | ⟨form, -⟩
  · rw [ended] at newline
    cases newline
  · exact isSpent_of_isFinal isFinal
  · exact absurd ended form.kind_ne.2

end Within

/-! ## The triple -/

namespace Reading

variable {α β : Type} {source : Text} {base : Nat}

/-- Reading from where `before` holds ends where `after` does, or with a fault of the source. -/
def Safe (source : Text) (base : Nat) (before : Lexer → Prop) (reading : Reading α)
    (after : α → Lexer → Prop) : Prop :=
  ∀ lexer, before lexer →
    match reading lexer with
    | .ok value lexer' => after value lexer'
    | .error failure _ => ∃ fault, failure = .fault fault ∧ fault.Past source base

section Rules

variable {before : Lexer → Prop} {reading : Reading α} {after : α → Lexer → Prop}

theorem Safe.pure {value : α} (h : ∀ lexer, before lexer → after value lexer) :
    Safe source base before (pure value : Reading α) after :=
  h

theorem Safe.bind {next : α → Reading β} {last : β → Lexer → Prop}
    (h : Safe source base before reading after)
    (h' : ∀ value, Safe source base (after value) (next value) last) :
    Safe source base before (reading >>= next) last := by
  intro lexer holds
  have first := h lexer holds
  show match EStateM.bind reading next lexer with
    | .ok value lexer' => last value lexer'
    | .error failure _ => ∃ fault, failure = .fault fault ∧ fault.Past source base
  unfold EStateM.bind
  cases found : reading lexer with
  | ok value between =>
      rw [found] at first
      exact h' value between first
  | error failure between =>
      rw [found] at first
      exact first

theorem Safe.weaken (h : Safe source base before reading after) {after' : α → Lexer → Prop}
    (weaker : ∀ value lexer, after value lexer → after' value lexer) :
    Safe source base before reading after' := by
  intro lexer holds
  have safe := h lexer holds
  cases found : reading lexer with
  | ok value between =>
      rw [found] at safe
      exact weaker value between safe
  | error failure between =>
      rw [found] at safe
      exact safe

theorem Safe.strengthen (h : Safe source base before reading after) {before' : Lexer → Prop}
    (stronger : ∀ lexer, before' lexer → before lexer) : Safe source base before' reading after :=
  fun lexer holds => h lexer (stronger lexer holds)

/-- A fact that does not depend on the lexer may be assumed. -/
theorem Safe.assume {fact : Prop} (known : ∀ lexer, before lexer → fact)
    (h : fact → Safe source base before reading after) : Safe source base before reading after :=
  fun lexer holds => h (known lexer holds) lexer holds

theorem safe_get : Safe source base before (get : Reading Lexer)
    fun found lexer => found = lexer ∧ before lexer :=
  fun _ holds => ⟨rfl, holds⟩

theorem safe_throw {fault : Fault} (h : ∀ lexer, before lexer → fault.Past source base) :
    Safe source base before (throw (.fault fault) : Reading α) after :=
  fun lexer holds => ⟨fault, rfl, h lexer holds⟩

end Rules

/-! ## Tokens -/

/-- The lexer stands in the source, with a token waiting or none. -/
def Stands (source : Text) (base : Nat) (lexer : Lexer) : Prop :=
  ∃ cursor, lexer.At cursor ∧ cursor.Within source base

/-- No token waits. -/
def Rests (source : Text) (base : Nat) (lexer : Lexer) : Prop :=
  ∃ cursor, lexer = ⟨[], cursor⟩ ∧ cursor.Within source base

theorem Rests.stands {lexer : Lexer} (h : Rests source base lexer) : Stands source base lexer := by
  obtain ⟨cursor, rfl, within⟩ := h
  exact ⟨cursor, .fresh cursor, within⟩

/-- The token has been looked at, and waits. -/
def Waits (source : Text) (base : Nat) (token : Token) (lexer : Lexer) : Prop :=
  ∃ cursor next : Cursor, cursor.Within source base ∧ cursor.Shows token next ∧
    lexer = ⟨[token], next⟩

theorem Waits.stands {token : Token} {lexer : Lexer} (h : Waits source base token lexer) :
    Stands source base lexer := by
  obtain ⟨cursor, next, within, shows, rfl⟩ := h
  exact ⟨cursor, .looked shows, within⟩

/-- A fault at a token that waits. -/
theorem Waits.fault {token : Token} {lexer : Lexer} (h : Waits source base token lexer)
    {cause : Cause} (describes : ∀ cursor next : Cursor, cursor.Shows token next →
      cause.Describes cursor.rest) : (⟨token.offset, cause⟩ : Fault).Past source base := by
  obtain ⟨cursor, next, within, shows, rfl⟩ := h
  rw [shows.offset]
  exact within.fault_here (describes cursor next shows)

/-- A token taken, and the lexer behind it. -/
def Took (source : Text) (base : Nat) (token : Token) (lexer : Lexer) : Prop :=
  Between source base token.offset ∧ Rests source base lexer

section Steps

variable {kind : Token.Kind}

/-- Looking at the next token fails as the scan of it does. -/
theorem exists_fault_of_peek {lexer after : Lexer} {cursor : Cursor} {failure : Failure}
    (stands : lexer.At cursor) (failed : Lexer.peek 0 lexer = .error failure after) :
    ∃ fault, (Token.scan cursor.rest).result = .error fault ∧
      failure = .fault (fault.shift cursor.offset) := by
  cases stands with
  | looked shows => cases failed
  | fresh =>
      change Lexer.buffer ⟨[], cursor⟩ = .error failure after at failed
      unfold Lexer.buffer at failed
      simp only at failed
      split at failed
      · cases failed
      · rename_i fault found
        cases failed
        exact ⟨fault, found, rfl⟩

theorem safe_peek : Safe source base (Stands source base) (Lexer.peek 0) (Waits source base) := by
  intro lexer stands
  obtain ⟨cursor, stands, within⟩ := stands
  cases looked : Lexer.peek 0 lexer with
  | ok token after =>
      obtain ⟨next, shows, rfl⟩ := (peek_eq_ok_iff stands).1 looked
      exact ⟨cursor, next, within, shows, rfl⟩
  | error failure after =>
      obtain ⟨fault, found, rfl⟩ := exists_fault_of_peek stands looked
      exact ⟨_, rfl, within.fault ((Token.sound_scan cursor.rest).faults fault found)⟩

theorem safe_sees : Safe source base (Stands source base) (sees kind)
    fun _ => Stands source base :=
  safe_peek.bind fun _ => .pure fun _ waits => waits.stands

theorem safe_fail {expected : Expectation} {after : α → Lexer → Prop} :
    Safe source base (Stands source base) (fail expected : Reading α) after := by
  refine safe_peek.bind fun token => ?_
  split
  · rename_i ended
    exact safe_throw fun lexer waits => waits.fault fun cursor next shows => shows.isSpent ended
  · exact safe_throw fun lexer waits => waits.fault fun _ _ _ => trivial

theorem safe_take : Safe source base (Stands source base) Lexer.take (Took source base) := by
  refine safe_peek.bind fun token => ?_
  split
  · rename_i ended
    exact safe_throw fun lexer waits => waits.fault fun cursor next shows => shows.isSpent ended
  · rintro lexer ⟨cursor, next, within, shows, rfl⟩
    show Took source base token ⟨[], next⟩
    refine ⟨?_, next, rfl, within.shown shows⟩
    rw [shows.offset]
    exact within.between

theorem safe_expect : Safe source base (Stands source base) (expect kind) (Took source base) := by
  refine safe_sees.bind fun seen => ?_
  split
  · exact safe_take
  · exact safe_fail

/-- The token accepted, if one is; else one waits. -/
def Accepted (source : Text) (base : Nat) : Option Token → Lexer → Prop
  | none => Stands source base
  | some token => Took source base token

theorem safe_accept :
    Safe source base (Stands source base) (accept kind) (Accepted source base) := by
  refine safe_sees.bind fun seen => ?_
  split
  · exact safe_take.bind fun token => .pure fun _ took => took
  · exact .pure fun _ stands => stands

/-- Reading that takes a lexer that stands to one that stands. -/
def Keeps (source : Text) (base : Nat) (reading : Reading α) : Prop :=
  Safe source base (Stands source base) reading fun _ => Stands source base

theorem Accepted.stands {accepted : Option Token} {lexer : Lexer}
    (h : Accepted source base accepted lexer) : Stands source base lexer := by
  cases accepted with
  | none => exact h
  | some token => exact h.2.stands

theorem keeps_pure {value : α} : Keeps source base (pure value : Reading α) :=
  .pure fun _ stands => stands

theorem keeps_accept : Keeps source base (accept kind) :=
  safe_accept.weaken fun _ _ accepted => accepted.stands

theorem keeps_expect : Keeps source base (expect kind) :=
  safe_expect.weaken fun _ _ took => took.2.stands

theorem keeps_skipNewline : Keeps source base skipNewline :=
  keeps_accept.bind fun _ => keeps_pure

theorem safe_scan {scanner : Text → Scan α} (sound : ∀ text, (scanner text).Sound text) :
    Safe source base (Rests source base) (scan scanner) fun _ => Rests source base := by
  rintro lexer ⟨cursor, rfl, within⟩
  have covers := within.advance (sound cursor.rest).covers
  show match Lexer.raw (Cursor.scan scanner) ⟨[], cursor⟩ with
    | .ok _ lexer => Rests source base lexer
    | .error failure _ => ∃ fault, failure = .fault fault ∧ fault.Past source base
  rw [Lexer.raw, if_pos (by rfl), Cursor.scan]
  cases found : (scanner cursor.rest).result with
  | ok value => exact ⟨_, rfl, covers⟩
  | error fault => exact ⟨_, rfl, within.fault ((sound cursor.rest).faults fault found)⟩

theorem keeps_manyFrom {step : Reading (Option α)} (h : Keeps source base step) (fuel : Nat) :
    Keeps source base (manyFrom step fuel) := by
  induction fuel with
  | zero => exact keeps_pure
  | succ fuel ih =>
      refine h.bind fun answer => ?_
      cases answer with
      | none => exact keeps_pure
      | some value => exact ih.bind fun _ => keeps_pure

theorem keeps_many {step : Reading (Option α)} (h : Keeps source base step) :
    Keeps source base (many step) := by
  refine safe_get.bind fun lexer => ?_
  exact (keeps_manyFrom h _).strengthen fun _ got => got.2

/-- Reading that a raw scan may begin, from a lexer at rest. -/
theorem Keeps.of_rests {reading : Reading α} (h : Keeps source base reading) :
    Safe source base (Rests source base) reading fun _ => Stands source base :=
  h.strengthen fun _ rests => rests.stands

end Steps

end Reading

/-! ## Parameters -/

namespace Declaration

open Reading

variable {source : Text} {base : Nat}

theorem keeps_alternative? : Keeps source base alternative? := by
  refine keeps_accept.bind fun accepted => ?_
  cases accepted with
  | none => exact keeps_pure
  | some pipe => exact keeps_expect.bind fun _ => keeps_pure

theorem keeps_typeConstraint? : Keeps source base typeConstraint? := by
  refine keeps_accept.bind fun accepted => ?_
  cases accepted with
  | none => exact keeps_pure
  | some token => exact (keeps_many keeps_alternative?).bind fun _ => keeps_pure

theorem keeps_style : Keeps source base style := by
  refine keeps_accept.bind fun accepted => ?_
  cases accepted with
  | none => exact keeps_pure
  | some colon =>
      refine safe_accept.bind fun label => ?_
      cases label with
      | none => exact keeps_pure
      | some token =>
          refine Safe.assume (fun _ took => took.1) fun between => ?_
          show Safe _ _ _ (ite _ _ _) _
          split
          · exact (keeps_expect.strengthen fun _ took => took.2.stands).bind fun _ => keeps_pure
          · exact safe_throw fun _ _ => ⟨⟨between.2, trivial⟩, between.1⟩

theorem keeps_variableName (style : Parameter.Style) :
    Keeps source base (variableName style) := by
  refine keeps_expect.bind fun token => ?_
  cases style.label? with
  | none => exact keeps_pure
  | some label => exact keeps_expect.bind fun _ => keeps_pure

theorem keeps_requirement (style : Parameter.Style) : Keeps source base (requirement style) := by
  refine keeps_accept.bind fun question => ?_
  cases question with
  | some token => exact keeps_pure
  | none =>
      refine keeps_accept.bind fun bang => ?_
      cases bang with
      | some token => exact keeps_pure
      | none => exact keeps_pure

theorem safe_value :
    Safe source base (Rests source base) value fun _ => Stands source base := by
  refine (safe_scan sound_blanks).bind fun _ => ?_
  refine (safe_scan Number.sound_scan).bind fun number => ?_
  cases number with
  | some number => exact keeps_pure.of_rests
  | none =>
      refine (safe_scan Quote.sound_scan).bind fun quote => ?_
      cases quote with
      | some quote => exact keeps_pure.of_rests
      | none =>
          refine keeps_accept.of_rests.bind fun accepted => ?_
          cases accepted with
          | some token => exact keeps_pure
          | none => exact safe_fail

theorem keeps_defaultValue? : Keeps source base defaultValue? := by
  refine safe_accept.bind fun accepted => ?_
  cases accepted with
  | none => exact keeps_pure
  | some equals =>
      exact (safe_value.strengthen fun _ took => took.2).bind fun _ => keeps_pure

theorem safe_block :
    Safe source base (Rests source base) block fun _ => Stands source base := by
  refine (safe_scan sound_blanks).bind fun _ => safe_get.bind fun lexer => ?_
  -- the cursor the lexer rested at is the place of both faults
  have within : ∀ found, lexer = found ∧ Rests source base found →
      lexer.cursor.Within source base := by
    rintro found ⟨rfl, cursor, rfl, within⟩
    exact within
  refine Safe.assume within fun within => ?_
  show Safe _ _ _ (ite _ _ _) _
  split
  · rename_i atEnd
    have spent : IsSpent lexer.cursor.rest := by
      rw [List.isEmpty_iff.1 atEnd]
      exact ⟨[], [], rfl, isInline_nil, .inl rfl⟩
    exact safe_throw fun _ _ => within.fault_here spent
  · refine ((safe_scan Block.sound_scan).strengthen fun _ got => got.2).bind fun block => ?_
    cases block with
    | some block => exact keeps_pure.of_rests
    | none => exact safe_throw fun _ _ => within.fault_here trivial

theorem keeps_constraint? : Keeps source base constraint? := by
  refine safe_accept.bind fun accepted => ?_
  cases accepted with
  | none => exact keeps_pure
  | some keyword =>
      exact (safe_block.strengthen fun _ took => took.2).bind fun _ => keeps_pure

/-- A declaration that has been read lies where reading began. -/
def Found (source : Text) (base : Nat) (declaration : Declaration) (lexer : Lexer) : Prop :=
  Between source base declaration.offset ∧ Stands source base lexer

theorem safe_readRest {offset : Nat} (between : Between source base offset)
    (typeConstraint : Option Text) (style : Parameter.Style) :
    Safe source base (Stands source base) (readRest offset typeConstraint style)
      (Found source base) := by
  refine (keeps_variableName style).bind fun name => (keeps_requirement style).bind fun required =>
    keeps_defaultValue?.bind fun value => (keeps_many keeps_constraint?).bind fun constraints => ?_
  exact .pure fun _ stands => ⟨between, stands⟩

/-- The declaration that begins here, if one does. -/
def MayFind (source : Text) (base : Nat) : Option Declaration → Lexer → Prop
  | none => Stands source base
  | some declaration => Found source base declaration

theorem safe_read? :
    Safe source base (Stands source base) read? (MayFind source base) := by
  refine safe_peek.bind fun first => ?_
  have between : ∀ lexer, Waits source base first lexer → Between source base first.offset := by
    rintro lexer ⟨cursor, next, within, shows, rfl⟩
    rw [shows.offset]
    exact within.between
  refine Safe.assume between fun between => ?_
  refine (keeps_typeConstraint?.strengthen fun _ waits => waits.stands).bind fun typeConstraint =>
    keeps_style.bind fun style => ?_
  have rest : Safe source base (Stands source base) (do
      let declaration ← readRest first.offset typeConstraint style
      return some declaration) (MayFind source base) :=
    (safe_readRest between typeConstraint style).bind fun _ => .pure fun _ found => found
  show Safe _ _ _ (ite _ _ _) _
  split
  · exact rest
  · refine safe_sees.bind fun seen => ?_
    split
    · exact rest
    · exact .pure fun _ stands => stands

end Declaration

theorem Parameter.keeps_read {source : Text} {base : Nat} :
    Reading.Keeps source base Parameter.read := by
  refine Declaration.safe_read?.bind fun found => ?_
  cases found with
  | some declaration => exact .pure fun _ found => found.2
  | none => exact Reading.safe_fail

/-! ## Signatures -/

namespace Signature

open Reading

variable {source : Text} {base : Nat}

/-- The rules beyond the grammar place their faults where the declaration begins. -/
theorem keeps_require {declaration : Declaration}
    (between : Between source base declaration.offset) {cause? : Option Cause}
    (semantic : ∀ cause ∈ cause?, cause.category = .semantic) :
    Keeps source base (require declaration cause?) := by
  cases cause? with
  | none => exact keeps_pure
  | some cause =>
      have describes : ∀ text, cause.Describes text := by
        have category := semantic cause rfl
        cases cause <;> first | exact fun _ => trivial | cases category
      exact safe_throw fun _ _ => ⟨⟨between.2, describes _⟩, between.1⟩

theorem category_of_invocantCause? {parameter : Parameter} {cause : Cause}
    (h : cause ∈ invocantCause? parameter) : cause.category = .semantic := by
  unfold invocantCause? at h
  split at h
  · cases h
    rfl
  · split at h
    · cases h
      rfl
    · cases h

theorem category_of_orderCause? {optionalSeen : Bool} {parameter : Parameter} {cause : Cause}
    (h : cause ∈ orderCause? optionalSeen parameter) : cause.category = .semantic := by
  unfold orderCause? at h
  split at h
  · cases h
    rfl
  · cases h

theorem keeps_separator? : Keeps source base separator? := by
  refine keeps_accept.bind fun newline => keeps_accept.bind fun comma => ?_
  cases comma with
  | some token => exact keeps_skipNewline.bind fun _ => keeps_pure
  | none => exact keeps_pure

theorem keeps_readParams {fuel : Nat} {optionalSeen : Bool} {declaration : Declaration}
    (between : Between source base declaration.offset) :
    Keeps source base (readParams fuel optionalSeen declaration) := by
  induction fuel generalizing optionalSeen declaration with
  | zero => exact keeps_pure
  | succ fuel ih =>
      refine (keeps_require between fun _ => category_of_orderCause?).bind fun _ =>
        keeps_separator?.bind fun separator => ?_
      cases separator with
      | none => exact keeps_pure
      | some comma =>
          refine Declaration.safe_read?.bind fun next => ?_
          cases next with
          | some next =>
              refine Safe.assume (fun _ found => found.1) fun between' => ?_
              exact ((ih between').strengthen fun _ found => found.2).bind fun _ => keeps_pure
          | none =>
              show Safe _ _ _ (ite _ _ _) _
              split
              · exact safe_fail
              · refine safe_sees.bind fun closing => ?_
                split
                · exact keeps_pure
                · exact safe_fail

theorem safe_readFrom {first : Option Declaration} :
    Safe source base (Declaration.MayFind source base first) (readFrom first)
      fun _ => Stands source base := by
  cases first with
  | none => exact keeps_pure
  | some declaration =>
      refine Safe.assume (fun _ found => found.1) fun between => safe_get.bind fun lexer => ?_
      exact (keeps_readParams between).strengthen fun _ got => got.2.2

theorem keeps_endsInvocant {declaration : Declaration}
    (between : Between source base declaration.offset) :
    Keeps source base (endsInvocant declaration) := by
  refine safe_sees.bind fun colon => ?_
  split
  · refine (keeps_require between fun _ => category_of_invocantCause?).bind fun _ =>
      safe_take.bind fun token => ?_
    exact (keeps_skipNewline.strengthen fun _ took => took.2.stands).bind fun _ => keeps_pure
  · exact keeps_pure

theorem keeps_finish {invocant : Option Parameter} {params : List Parameter} :
    Keeps source base (finish invocant params) :=
  keeps_expect.bind fun _ => keeps_pure

theorem keeps_read : Keeps source base read := by
  refine keeps_expect.bind fun _ => keeps_skipNewline.bind fun _ =>
    Declaration.safe_read?.bind fun first => ?_
  cases first with
  | none => exact keeps_finish
  | some first =>
      refine Safe.assume (fun _ found => found.1) fun between => ?_
      refine ((keeps_endsInvocant between).strengthen fun _ found => found.2).bind
        fun isInvocant => ?_
      split
      · exact Declaration.safe_read?.bind fun next => safe_readFrom.bind fun _ => keeps_finish
      · refine Safe.bind ?_ fun _ => keeps_finish
        exact safe_readFrom.strengthen fun _ stands => ⟨between, stands⟩

end Signature

/-! ## Requests -/

/-- A fault as a caller may rely on it: it lies in the input, not before the offset, and what
its category says of the input from there on is so. -/
structure Fault.Located (input : Text) (offset : Nat) (fault : Fault) : Prop extends
    Fault.Past input offset fault where
  inputEnd : fault.cause.category = .inputEnd → IsSpent (input.drop fault.offset)
  lexical : .lexical ∈ fault.cause.category.lineage → BeginsSolid (input.drop fault.offset)

theorem Fault.Past.located {input : Text} {offset : Nat} {fault : Fault}
    (h : fault.Past input offset) : fault.Located input offset := by
  have describes := h.describes
  obtain ⟨place, cause⟩ := fault
  refine ⟨h, ?_, ?_⟩
  · intro category
    cases cause <;> first | exact describes | cases category
  · intro category
    cases cause <;> first | exact describes | simp [Cause.category, Category.lineage,
      Category.above] at category

/-- Reading from a cursor fails only with a fault of the source. -/
theorem Reading.Keeps.parse {α : Type} {source : Text} {base : Nat} {reading : Reading α}
    (h : Keeps source base reading) {cursor : Cursor} (within : cursor.Within source base)
    {failure : Failure} (failed : reading.parse cursor = .error failure) :
    ∃ fault, failure = .fault fault ∧ fault.Past source base := by
  have safe := h (.ofCursor cursor) ⟨cursor, .fresh cursor, within⟩
  unfold Reading.parse at failed
  split at failed
  · cases failed
  · rename_i found
    cases failed
    rw [found] at safe
    exact safe

namespace Request

/-- The outcome is an answer, or a fault located in the input. -/
def Outcome.Located {α : Type} (input : Text) (offset : Nat) (outcome : Outcome α) : Prop :=
  match outcome.result with
  | .ok _ => True
  | .error refusal => ∃ fault, refusal = .reading (.fault fault) ∧ fault.Located input offset

theorem Outcome.Located.fault {α : Type} {input : Text} {offset : Nat} {outcome : Outcome α}
    (h : outcome.Located input offset) {fault : Fault}
    (refused : outcome.result = .error (.reading (.fault fault))) : fault.Located input offset := by
  unfold Located at h
  rw [refused] at h
  obtain ⟨found, same, located⟩ := h
  cases same
  exact located

/-- A request that is in order is located, if its reading is safe and all that is read can be
built. -/
theorem run_located {α β : Type} {noun : String} {reading : Reading α} {build : α → Checked β}
    {input : Text} {offset : Nat} {builders : Builders} (inside : offset ≤ input.length)
    (usable : checkBuilders builders = .ok ()) (safe : Reading.Keeps input offset reading)
    (builds : ∀ value, ∃ built, build value = .valid built) :
    ((⟨.string input, offset, builders⟩ : Request).run noun reading.parse build).Located
      input offset := by
  have place : (input.take offset).length = offset := List.length_take_of_le inside
  have placed : Cursor.place input offset = .ok ⟨input.take offset, input.drop offset⟩ := by
    have found := Cursor.place_append (input.take offset) (input.drop offset)
    rwa [List.take_append_drop, place] at found
  have checked : (⟨.string input, offset, builders⟩ : Request).check =
      .ok ⟨input.take offset, input.drop offset⟩ := by
    simp only [check, placed, usable]
    rfl
  have within : Cursor.Within input offset ⟨input.take offset, input.drop offset⟩ :=
    ⟨List.take_append_drop .., Nat.le_of_eq place.symm⟩
  simp only [run, checked]
  cases parsed : reading.parse ⟨input.take offset, input.drop offset⟩ with
  | ok found =>
      obtain ⟨value, rest⟩ := found
      obtain ⟨built, valid⟩ := builds value
      simp only [Request.built, valid]
      trivial
  | error failure =>
      obtain ⟨fault, rfl, past⟩ := safe.parse within parsed
      exact ⟨fault, rfl, past.located⟩

/-- **Every refusal is a located fault.**  A request at an offset of its input, for models or
for records throughout, with any library of models that keeps the rules, gives an answer or a fault of the text: none is refused for reading
past the input, for a raw scan over a token that waits, or for what it has built.  The fault
lies in the input from the offset on.  Where the input has ended, nothing but blanks and a
comment is left; where no token begins, a character stands that is neither blank nor begins a
comment; and what was left open is counted as `Cause.Describes` says. -/
theorem outcomes_located {library : Library} (rules : library.Rules) {input : Text}
    {offset : Nat} (inside : offset ≤ input.length) {builders : Builders}
    (usual : builders = .models ∨ builders = .records) :
    ((⟨.string input, offset, builders⟩ : Request).parseSignature library).Located input offset ∧
      (⟨.string input, offset, builders⟩ : Request).parseParameter.Located input offset := by
  have usable : checkBuilders builders = .ok () := by
    rcases usual with rfl | rfl <;> rfl
  have builds : ∀ signature, ∃ built, builders.buildSignature library signature = .valid built := by
    intro signature
    rcases usual with rfl | rfl
    · obtain ⟨built, valid, -⟩ := Grammar.buildSignature_models rules signature
      exact ⟨built, valid⟩
    · exact ⟨_, rfl⟩
  exact ⟨run_located inside usable Signature.keeps_read builds,
    run_located inside usable Parameter.keeps_read fun _ => ⟨_, rfl⟩⟩

/-- Two brackets of a quote are open, and the fault lies where the quote begins. -/
theorem outcomes_located_open_quote :
    (⟨.string "($x = q(a(b".toList, (0 : Nat), .models⟩ : Request).parseSignature.result =
        .error (.reading (.fault ⟨6, .openQuote "q(a(b".toList ')' 2⟩)) ∧
      (⟨6, .openQuote "q(a(b".toList ')' 2⟩ : Fault).Located "($x = q(a(b".toList 0 := by
  have refused : (⟨.string "($x = q(a(b".toList, (0 : Nat), .models⟩ :
      Request).parseSignature.result =
        .error (.reading (.fault ⟨6, .openQuote "q(a(b".toList ')' 2⟩)) := by
    decide +kernel
  exact ⟨refused, (outcomes_located Library.lax_rules (Nat.zero_le _) (.inl rfl)).1.fault refused⟩

end Request

end MethodSignature
