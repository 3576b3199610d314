/-
# MethodSignature.Proofs.Cursor -- what steps at a cursor can do

`Does` lists all that one step can do: a look leaves the cursor alone, `consume` takes as many
characters as it is asked for or is refused, a scan for a literal takes one whole or nothing, and
the scan of a type constraint takes what it reads, also where it fails.  Every step does one of
these (`does_outcome`).

Any steps in any order, failing ones among them, therefore leave the source as it is and
never move the cursor back or past the end, and what a step answers is what it moves over
(`run_disciplined`).
-/
import MethodSignature.Proofs.Block
import MethodSignature.Proofs.Conservation
import MethodSignature.Proofs.Quote
import MethodSignature.Proofs.Value

namespace MethodSignature

set_option autoImplicit false

/-! ## Literals are not empty -/

theorem Number.taken_ne_nil {text taken rest : Text} (h : scan text = .present taken rest) :
    taken ≠ [] :=
  (read?_eq_some_iff.1 (scan_eq_present_iff.1 h)).2.1.ne_nil

theorem Quote.taken_ne_nil {text taken rest : Text} (h : scan text = .present taken rest) :
    taken ≠ [] := by
  rintro rfl
  simpa using (isQuote_of_scan h).head

theorem Block.taken_ne_nil {text taken rest : Text} (h : scan text = .present taken rest) :
    taken ≠ [] := by
  rintro rfl
  cases (braces_of_scan h).1

namespace Cursor

/-! ## One step -/

namespace Step

/-- The step looks ahead and takes nothing. -/
def looks : Step → Bool
  | .peek _ | .charAt _ | .preview _ | .remaining | .atEnd | .source => true
  | .consume _ | .number | .quote | .block | .typeConstraint _ => false

/-- The step scans for a literal. -/
def extracts : Step → Bool
  | .number | .quote | .block => true
  | _ => false

/-- The step answers with the text it takes, if it takes any. -/
def takes : Step → Bool
  | .consume _ => true
  | step => step.extracts

theorem takes_of_extracts {step : Step} (h : step.extracts = true) : step.takes = true := by
  cases step with
  | number | quote | block => rfl
  | _ => cases h

theorem looks_of_takes {step : Step} (h : step.takes = true) : step.looks = false := by
  cases step with
  | consume | number | quote | block => rfl
  | _ => cases h

/-- The answer of a step, and the cursor it leaves. -/
def outcome (step : Step) (cursor : Cursor) : Except Failure Answer × Cursor :=
  match step.perform cursor with
  | .ok answer next => (.ok answer, next)
  | .error failure next => (.error failure, next)

section Outcome

variable {α : Type} {step : Step} {action : Action α} {f : α → Answer} {cursor next : Cursor}

theorem outcome_eq_ok (performs : step.perform = f <$> action) {value : α}
    (acted : action cursor = .ok value next) : step.outcome cursor = (.ok (f value), next) := by
  rw [outcome, performs, map_eq_ok_iff.2 ⟨value, acted, rfl⟩]

theorem outcome_eq_error (performs : step.perform = f <$> action) {failure : Failure}
    (acted : action cursor = .error failure next) :
    step.outcome cursor = (.error failure, next) := by
  rw [outcome, performs, map_eq_error_iff.2 acted]

end Outcome

end Step

/-- A step at `cursor` gives this answer and leaves that cursor. -/
inductive Does (cursor : Cursor) : Step → Except Failure Answer × Cursor → Prop
  | look {step : Step} {answer : Answer} : step.looks = true → Does cursor step (.ok answer, cursor)
  | consume {length : Int} {taken rest : Text} : cursor.rest = taken ++ rest →
      length = taken.length →
      Does cursor (.consume length) (.ok (.text taken), cursor.advance taken rest)
  | refuse {length : Int} : length < 0 ∨ cursor.rest.length < length →
      Does cursor (.consume length)
        (.error (.overrun length cursor.offset cursor.rest.length), cursor)
  | extract {step : Step} {taken rest : Text} : step.extracts = true →
      cursor.rest = taken ++ rest → taken ≠ [] →
      Does cursor step (.ok (.text taken), cursor.advance taken rest)
  | decline {step : Step} : step.extracts = true → Does cursor step (.ok .absent, cursor)
  | reject {step : Step} {fault : Fault} : step.extracts = true →
      Does cursor step (.error (.fault fault), cursor)
  | extend {leading taken rest : Text} : cursor.rest = taken ++ rest →
      Does cursor (.typeConstraint leading)
        (.ok (.text (leading ++ taken)), cursor.advance taken rest)
  | misextend {leading taken rest : Text} {fault : Fault} : cursor.rest = taken ++ rest →
      Does cursor (.typeConstraint leading)
        (.error (.fault fault), cursor.advance taken rest)

section Does

variable {cursor : Cursor}

theorem does_consume (length : Int) :
    Does cursor (.consume length) ((Step.consume length).outcome cursor) := by
  by_cases inside : 0 ≤ length ∧ length ≤ cursor.rest.length
  · have taken : Cursor.consume length cursor = .ok (cursor.rest.take length.toNat)
        (cursor.advance (cursor.rest.take length.toNat) (cursor.rest.drop length.toNat)) := by
      simp only [Cursor.consume, if_pos inside]
    rw [Step.outcome_eq_ok rfl taken]
    refine .consume (List.take_append_drop ..).symm ?_
    rw [List.length_take]
    omega
  · have refused : Cursor.consume length cursor =
        .error (.overrun length cursor.offset cursor.rest.length) cursor := by
      simp only [Cursor.consume, if_neg inside]
    rw [Step.outcome_eq_error rfl refused]
    exact .refuse (by omega)

/-- A scan that takes a literal whole or nothing. -/
theorem does_extraction {step : Step} {scanner : Text → Scan (Option Text)}
    (performs : step.perform = Answer.ofOption <$> scan scanner) (extracts : step.extracts = true)
    (covers : ∀ text, (scanner text).Covers text)
    (decides : ∀ text, Grammar.Decides text (scanner text))
    (nonempty : ∀ text taken rest, scanner text = .present taken rest → taken ≠ []) :
    Does cursor step (step.outcome cursor) := by
  cases scanned : scan scanner cursor with
  | ok found next =>
      rw [Step.outcome_eq_ok performs scanned]
      obtain ⟨taken, rest, read, rfl⟩ := scan_eq_ok_iff.1 scanned
      rcases (decides cursor.rest).cases_ok read with ⟨rfl, absent, rfl⟩ | ⟨rfl, present⟩
      · rw [absent] at read
        cases read
        rw [advance, List.append_nil]
        exact .decline extracts
      · have whole := covers cursor.rest
        rw [present] at whole
        exact .extract extracts whole.symm (nonempty _ _ _ present)
  | error failure next =>
      rw [Step.outcome_eq_error performs scanned]
      obtain ⟨taken, rest, fault, read, rfl, rfl⟩ := scan_eq_error_iff.1 scanned
      have decided := decides cursor.rest
      rw [read] at decided
      cases decided
      rw [advance, List.append_nil]
      exact .reject extracts

theorem does_typeConstraint (leading : Text) :
    Does cursor (.typeConstraint leading) ((Step.typeConstraint leading).outcome cursor) := by
  cases scanned : scan (TypeConstraint.extend leading) cursor with
  | ok found next =>
      rw [Step.outcome_eq_ok rfl scanned]
      obtain ⟨taken, rest, read, rfl⟩ := scan_eq_ok_iff.1 scanned
      obtain ⟨whole, rfl, -⟩ := TypeConstraint.extend_eq_ok_iff.1 read
      exact .extend whole
  | error failure next =>
      rw [Step.outcome_eq_error rfl scanned]
      obtain ⟨taken, rest, fault, read, rfl, rfl⟩ := scan_eq_error_iff.1 scanned
      have whole := TypeConstraint.covers_extend leading cursor.rest
      rw [read] at whole
      exact .misextend whole.symm

/-- **Every step does one of these.** -/
theorem does_outcome (step : Step) : Does cursor step (step.outcome cursor) := by
  cases step with
  | peek | charAt | preview | remaining | atEnd | source => exact .look rfl
  | consume length => exact does_consume length
  | number =>
      exact does_extraction rfl rfl Number.covers_scan Grammar.decides_number
        fun _ _ _ => Number.taken_ne_nil
  | quote =>
      exact does_extraction rfl rfl Quote.covers_scan Grammar.decides_quote
        fun _ _ _ => Quote.taken_ne_nil
  | block =>
      exact does_extraction rfl rfl Block.covers_scan Grammar.decides_block
        fun _ _ _ => Block.taken_ne_nil
  | typeConstraint leading => exact does_typeConstraint leading

end Does

/-! ## What every step keeps to -/

theorem length_source (cursor : Cursor) :
    cursor.source.length = cursor.offset + cursor.rest.length := by
  simp [offset, source]

section Does

variable {step : Step} {old new : Cursor} {answer : Except Failure Answer}

theorem Does.goes (h : Does old step (answer, new)) : ∃ taken, old.Goes new taken := by
  cases h with
  | look | refuse | decline | reject => exact ⟨[], goes_refl old⟩
  | consume whole | extract _ whole | extend whole | misextend whole =>
      exact ⟨_, goes_advance whole.symm⟩

theorem Does.look_eq (h : Does old step (answer, new)) (looks : step.looks = true) :
    new = old ∧ ∃ found, answer = .ok found := by
  cases h with
  | look => exact ⟨rfl, _, rfl⟩
  | consume | refuse | extend | misextend => cases looks
  | extract extracts | decline extracts | reject extracts =>
      rw [Step.looks_of_takes (Step.takes_of_extracts extracts)] at looks
      cases looks

/-- What is taken is the answer. -/
theorem Does.text_eq {text : Text} (h : Does old step (.ok (.text text), new))
    (takes : step.takes = true) : text = slice new.source old.offset new.offset := by
  cases h with
  | look looks =>
      rw [Step.looks_of_takes takes] at looks
      cases looks
  | consume whole | extract _ whole => exact (goes_advance whole.symm).slice_eq.symm
  | extend => cases takes

theorem Does.ne_nil {text : Text} (h : Does old step (.ok (.text text), new))
    (extracts : step.extracts = true) : text ≠ [] := by
  cases h with
  | look looks =>
      rw [Step.looks_of_takes (Step.takes_of_extracts extracts)] at looks
      cases looks
  | consume | extend => cases extracts
  | extract _ _ nonempty => exact nonempty

/-- Where no text is the answer the cursor stays. -/
theorem Does.stays (h : Does old step (answer, new)) (takes : step.takes = true)
    (nothing : ∀ text, answer ≠ .ok (.text text)) : new = old := by
  cases h with
  | look | refuse | decline | reject => rfl
  | consume | extract | extend => exact absurd rfl (nothing _)
  | misextend => cases takes

theorem Does.extended {leading : Text} {found : Answer}
    (h : Does old (.typeConstraint leading) (.ok found, new)) :
    found = .text (leading ++ slice new.source old.offset new.offset) := by
  cases h with
  | look looks => cases looks
  | extract extracts | decline extracts => cases extracts
  | extend whole => rw [(goes_advance whole.symm).slice_eq]

theorem Does.consumed {length : Int} {found : Answer}
    (h : Does old (.consume length) (.ok found, new)) :
    (new.offset : Int) = old.offset + length ∧ length ≤ old.rest.length ∧ 0 ≤ length := by
  cases h with
  | look looks => cases looks
  | extract extracts | decline extracts => cases extracts
  | consume whole asked =>
      rw [asked, offset_advance, whole, List.length_append]
      omega

theorem Does.refused {length : Int} {failure : Failure}
    (h : Does old (.consume length) (.error failure, new)) :
    length < 0 ∨ (old.rest.length : Int) < length := by
  cases h with
  | refuse outside => exact outside
  | reject extracts => cases extracts

/-- Any other step fails only with a fault of the text. -/
theorem Does.exists_fault {failure : Failure} (h : Does old step (.error failure, new))
    (other : ∀ length, step ≠ .consume length) : ∃ fault, failure = .fault fault := by
  cases h with
  | refuse => exact absurd rfl (other _)
  | reject | misextend => exact ⟨_, rfl⟩

end Does

/-- What a step keeps to that is done at `old` in a source, is answered so, and leaves `new`. -/
structure Disciplined (source : Text) (step : Step) (old : Cursor)
    (answer : Except Failure Answer) (new : Cursor) : Prop where
  source_eq : new.source = source
  forward : old.offset ≤ new.offset
  inside : new.offset ≤ source.length
  look_eq : step.looks = true → new = old ∧ ∃ found, answer = .ok found
  text_eq : step.takes = true → ∀ text, answer = .ok (.text text) →
    text = slice source old.offset new.offset
  ne_nil : step.extracts = true → ∀ text, answer = .ok (.text text) → text ≠ []
  stays : step.takes = true → (∀ text, answer ≠ .ok (.text text)) → new = old
  extended : ∀ leading, step = .typeConstraint leading → ∀ found, answer = .ok found →
    found = .text (leading ++ slice source old.offset new.offset)
  consumed : ∀ length, step = .consume length → ∀ found, answer = .ok found →
    (new.offset : Int) = old.offset + length
  refused_iff : ∀ length, step = .consume length →
    ((∃ failure, answer = .error failure) ↔
      length < 0 ∨ (source.length : Int) < old.offset + length)
  exists_fault : (∀ length, step ≠ .consume length) → ∀ failure, answer = .error failure →
    ∃ fault, failure = .fault fault

theorem Does.disciplined {step : Step} {old new : Cursor} {answer : Except Failure Answer}
    (h : Does old step (answer, new)) : Disciplined old.source step old answer new := by
  obtain ⟨taken, goes⟩ := h.goes
  have same : new.source = old.source := goes.source_eq
  have long := length_source old
  constructor
  case source_eq => exact same
  case forward => exact goes.offset_le
  case inside =>
    rw [← same, length_source new]
    omega
  case look_eq => exact h.look_eq
  case text_eq =>
    rintro takes text rfl
    rw [← same]
    exact h.text_eq takes
  case ne_nil =>
    rintro extracts text rfl
    exact h.ne_nil extracts
  case stays => exact h.stays
  case extended =>
    rintro leading rfl found rfl
    rw [← same]
    exact h.extended
  case consumed =>
    rintro length rfl found rfl
    exact h.consumed.1
  case refused_iff =>
    rintro length rfl
    cases answer with
    | ok found =>
        have consumed := h.consumed
        refine iff_of_false ?_ (by omega)
        rintro ⟨failure, ⟨⟩⟩
    | error failure =>
        have refused := h.refused
        exact iff_of_true ⟨failure, rfl⟩ (by omega)
  case exists_fault =>
    rintro other failure rfl
    exact h.exists_fault other

/-! ## Runs -/

theorem run_cons (cursor : Cursor) (step : Step) (steps : List Step) :
    cursor.run (step :: steps) = step.outcome cursor :: (step.outcome cursor).2.run steps := by
  simp only [run, List.map_cons, transcript, Step.outcome]
  cases step.perform cursor <;> rfl

/-- The cursors that a run goes through, the one it starts at first. -/
def visited (cursor : Cursor) (steps : List Step) : List Cursor :=
  cursor :: (cursor.run steps).map Prod.snd

theorem visited_cons (cursor : Cursor) (step : Step) (steps : List Step) :
    cursor.visited (step :: steps) = cursor :: (step.outcome cursor).2.visited steps := by
  rw [visited, run_cons, List.map_cons]
  rfl

/-- Each step of a run keeps the discipline, from the cursor that the steps before it leave. -/
theorem disciplined_run {cursor : Cursor} {steps : List Step} {n : Nat} {step : Step}
    {old new : Cursor} {answer : Except Failure Answer} (asked : steps[n]? = some step)
    (reached : (cursor.visited steps)[n]? = some old)
    (entered : (cursor.run steps)[n]? = some (answer, new)) :
    Disciplined cursor.source step old answer new := by
  induction steps generalizing cursor n with
  | nil => cases asked
  | cons first steps ih =>
      have does : Does cursor first (first.outcome cursor) := does_outcome first
      rw [run_cons] at entered
      rw [visited_cons] at reached
      cases n with
      | zero =>
          cases asked
          cases reached
          have same : step.outcome old = (answer, new) := Option.some.inj entered
          rw [same] at does
          exact does.disciplined
      | succ n =>
          have same : (first.outcome cursor).2.source = cursor.source :=
            does.disciplined.source_eq
          have kept := ih asked reached entered
          rwa [same] at kept

theorem pairwise_visited (cursor : Cursor) (steps : List Step) :
    ((cursor.visited steps).map offset).Pairwise (· ≤ ·) := by
  induction steps generalizing cursor with
  | nil => exact List.pairwise_singleton ..
  | cons step steps ih =>
      have does : Does cursor step (step.outcome cursor) := does_outcome step
      have forward := does.disciplined.forward
      have later := ih (step.outcome cursor).2
      rw [visited_cons, List.map_cons]
      refine List.pairwise_cons.2 ⟨?_, later⟩
      intro offset member
      rcases List.mem_cons.1 member with rfl | behind
      · exact forward
      · exact Nat.le_trans forward ((List.pairwise_cons.1 later).1 offset behind)

theorem place_eq_ok {source : Text} {start : Int} {cursor : Cursor}
    (placed : place source start = .ok cursor) :
    cursor.source = source ∧ (cursor.offset : Int) = start := by
  unfold place at placed
  split at placed
  · cases placed
    refine ⟨List.take_append_drop .., ?_⟩
    simp only [offset, List.length_take]
    omega
  · cases placed

/-- **Cursor discipline.**  From an offset of a source, any steps are done in any order, failing
ones among them.  Every step is answered and leaves the source as it is.  The cursor never goes
back or past the end.  Each step answers with what it takes, and takes nothing where it answers
with nothing or fails, the scan of a type constraint apart.  Only `consume` is ever misused, by a
length that is negative or too large. -/
theorem run_disciplined {source : Text} {start : Int} {cursor : Cursor}
    (placed : place source start = .ok cursor) (steps : List Step) :
    cursor.source = source ∧ (cursor.offset : Int) = start ∧
      (cursor.run steps).length = steps.length ∧
      ((cursor.visited steps).map offset).Pairwise (· ≤ ·) ∧
      ∀ n step old answer new, steps[n]? = some step → (cursor.visited steps)[n]? = some old →
        (cursor.run steps)[n]? = some (answer, new) →
          (cursor.visited steps)[n + 1]? = some new ∧ Disciplined source step old answer new := by
  obtain ⟨same, offset⟩ := place_eq_ok placed
  refine ⟨same, offset, ?_, pairwise_visited cursor steps, ?_⟩
  · rw [run, length_transcript, List.length_map]
  · intro n step old answer new asked reached entered
    refine ⟨?_, same ▸ disciplined_run asked reached entered⟩
    rw [visited, List.getElem?_cons_succ, List.getElem?_map, entered]
    rfl

/-- Steps that fail where they may not move the cursor, and a type constraint that fails behind
a bracket and a name it has taken. -/
theorem run_disciplined_failing :
    let source := "> -1 'it' [B,\x7b".toList
    let cursor : Cursor := ⟨['>', ' '], "-1 'it' [B,\x7b".toList⟩
    let steps : List Step := [.number, .consume (-1), .consume 1, .quote, .block, .consume 1,
      .typeConstraint ['A'], .consume 2, .block]
    place source 2 = .ok cursor ∧
      (cursor.visited steps).map offset = [2, 4, 4, 5, 9, 9, 10, 13, 13, 13] ∧
      ∃ answer, Disciplined source (.typeConstraint ['A']) ⟨"> -1 'it' ".toList, "[B,\x7b".toList⟩
        answer ⟨"> -1 'it' [B,".toList, ['\x7b']⟩ := by
  intro source cursor steps
  have placed : place source 2 = .ok cursor := by rfl
  refine ⟨placed, by decide +kernel, ?_⟩
  have reached : (cursor.visited steps)[6]? = some ⟨"> -1 'it' ".toList, "[B,\x7b".toList⟩ := by
    decide +kernel
  have left : ((cursor.run steps)[6]?).map Prod.snd = some ⟨"> -1 'it' [B,".toList, ['\x7b']⟩ := by
    decide +kernel
  obtain ⟨⟨answer, new⟩, entered, rfl⟩ := Option.map_eq_some_iff.1 left
  obtain ⟨-, -, -, -, kept⟩ := run_disciplined placed steps
  exact ⟨answer, (kept 6 _ _ _ _ rfl reached entered).2⟩

end Cursor

end MethodSignature
