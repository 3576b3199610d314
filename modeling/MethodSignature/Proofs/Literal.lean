/-
# MethodSignature.Proofs.Literal -- where a literal inside a block ends

`literalEnd?` speaks of a literal by its places in a text: it is read at a place of the block that
opens at another one, and answers with the place behind.  Whether it begins there depends on
the character before it and on the last one before it that is not blank (`contextAt`), which is
what a scan of the block remembers there (`Context.before_append`).

A literal takes two characters at least and never runs past the end, so the scan of a block goes
on behind it (`closeFrom_literalEnd?`).  As every step takes a character at least
(`closeFrom_step`), the scan never runs out of them (`closeFrom_eq_of_length_le`).
More text behind leaves a literal as it is, except that modifiers go on with one at the very end
(`literal?_append_following`).
-/
import MethodSignature.Proofs.Block

namespace MethodSignature.Block

set_option autoImplicit false

open Text

/-! ## What a scan remembers -/

/-- What stands before a place of a block: the last character so far, and the last that is not
blank. -/
def Context.before (block : Text) : Context where
  previous := block.getLast?.getD '{'
  solid := (block.reverse.find? fun c => !isBlank c).getD '{'

theorem Context.before_concat (block : Text) (c : Char) :
    before (block ++ [c]) = (before block).push c := by
  by_cases blank : isBlank c = true
  · simp [before, push, blank]
  · simp [before, push, blank]

/-- **What a scan remembers** behind some more of a block is what stands before that place. -/
theorem Context.before_append (block more : Text) :
    before (block ++ more) = (before block).after more := by
  induction more generalizing block with
  | nil => rw [List.append_nil]; rfl
  | cons c more ih =>
      rw [← List.singleton_append, ← List.append_assoc, ih, before_concat]
      rfl

/-- What stands before `place` in the block that opens at `start`. -/
def contextAt (text : Text) (start place : Nat) : Context :=
  .before ((text.take place).drop start)

theorem contextAt_append {text : Text} {start place : Nat} (inside : place ≤ text.length)
    (following : Text) :
    contextAt (text ++ following) start place = contextAt text start place := by
  rw [contextAt, List.take_append_of_le_length inside]
  rfl

theorem contextAt_add {text taken rest : Text} {start place : Nat} (after : start ≤ place)
    (inside : place ≤ text.length) (ahead : text.drop place = taken ++ rest) :
    contextAt text start (place + taken.length) = (contextAt text start place).after taken := by
  have long : start ≤ (text.take place).length := by
    rw [List.length_take]
    omega
  rw [contextAt, List.take_add, ahead, List.take_left, List.drop_append_of_le_length long,
    Context.before_append]
  rfl

theorem contextAt_succ {text : Text} {start : Nat} (opens : text[start]? = some '{') :
    contextAt text start (start + 1) = .opened := by
  obtain ⟨inside, brace⟩ := List.getElem?_eq_some_iff.1 opens
  have ahead : text.drop start = ['{'] ++ text.drop (start + 1) := by
    rw [← brace, List.drop_eq_getElem_cons inside]
    rfl
  have first := contextAt_add (Nat.le_refl start) (Nat.le_of_lt inside) ahead
  rw [List.length_singleton] at first
  rw [first, contextAt, List.drop_take_self]
  rfl

/-! ## The place behind a literal -/

/-- The place behind the closed literal that begins at `place` of the block opened at `start`. -/
def literalEnd? (text : Text) (start place : Nat) : Option Nat :=
  (literal? (contextAt text start place) (text.drop place)).map fun found =>
    place + found.1.length

/-- **More text behind** leaves a literal as it is, except that modifiers go on with one at the
very end. -/
theorem literal?_append_following {context : Context} {first : Char} {body taken rest : Text}
    (h : literal? context (first :: body) = some (taken, rest)) (following : Text) :
    ∃ more behind,
      literal? context (first :: body ++ following) = some (taken ++ more, behind) ∧
        (rest ≠ [] ∨ first = apostrophe ∨ first = doubleQuote → more = []) := by
  obtain ⟨core, tail, split, -, parts, again⟩ := literal?_core h
  obtain ⟨rfl, rfl⟩ := Prod.mk.inj parts
  have found := again (tail ++ following)
  rw [split, List.append_assoc, found, cut_append_following]
  by_cases ended : (cut (modifies first) tail).2 = []
  · have whole := cut_append (modifies first) tail
    rw [ended, List.append_nil] at whole
    rw [if_pos ended, whole, ← List.append_assoc]
    refine ⟨_, _, rfl, ?_⟩
    rintro (goesOn | quotes)
    · exact absurd ended goesOn
    · rw [modifies_of_string quotes]
      exact congrArg Prod.fst (cut_of_stops fun _ _ => rfl)
  · rw [if_neg ended]
    exact ⟨[], _, by rw [List.append_nil], fun _ => rfl⟩

/-- What stands in a text where a literal is found. -/
theorem exists_of_literalEnd? {text : Text} {start place stop : Nat}
    (h : literalEnd? text start place = some stop) :
    ∃ first body taken rest, text[place]? = some first ∧ text.drop place = first :: body ∧
      first :: body = taken ++ rest ∧
      literal? (contextAt text start place) (first :: body) = some (taken, rest) ∧
      stop = place + taken.length ∧ stop + rest.length = text.length := by
  obtain ⟨⟨taken, rest⟩, found, rfl⟩ := Option.map_eq_some_iff.1 h
  have whole := literal?_append found
  cases ahead : text.drop place with
  | nil =>
      rw [ahead] at found
      cases found
  | cons first body =>
      have stands : (text.drop place)[0]? = some first := by rw [ahead]; rfl
      rw [List.getElem?_drop, Nat.add_zero] at stands
      obtain ⟨inside, -⟩ := List.getElem?_eq_some_iff.1 stands
      have lengths := congrArg List.length whole
      rw [List.length_append, List.length_drop] at lengths
      rw [ahead] at found whole
      refine ⟨first, body, taken, rest, stands, rfl, whole.symm, found, rfl, ?_⟩
      show place + taken.length + rest.length = text.length
      omega

/-- **A literal advances** by two characters at least, and stays in the text. -/
theorem literalEnd?_bounds {text : Text} {start place stop : Nat}
    (h : literalEnd? text start place = some stop) : place + 2 ≤ stop ∧ stop ≤ text.length := by
  obtain ⟨first, body, taken, rest, -, -, -, found, rfl, whole⟩ := exists_of_literalEnd? h
  have long := literal?_length found
  omega

/-- More text behind moves the end of a literal back only where modifiers go on with it. -/
theorem literalEnd?_append {text : Text} {start place stop : Nat}
    (h : literalEnd? text start place = some stop) (following : Text) :
    ∃ later, literalEnd? (text ++ following) start place = some later ∧ stop ≤ later ∧
      (stop < text.length ∨ text[place]? = some apostrophe ∨ text[place]? = some doubleQuote →
        later = stop) := by
  obtain ⟨first, body, taken, rest, stands, ahead, -, found, rfl, whole⟩ :=
    exists_of_literalEnd? h
  have short : place ≤ text.length := by omega
  obtain ⟨more, behind, foundAgain, same⟩ := literal?_append_following found following
  refine ⟨place + (taken ++ more).length, ?_, ?_, ?_⟩
  · rw [literalEnd?, contextAt_append short, List.drop_append_of_le_length short, ahead, foundAgain]
    rfl
  · rw [List.length_append]
    omega
  · rw [stands, Option.some.injEq, Option.some.injEq]
    intro fixed
    rw [same (fixed.imp_left ?_), List.append_nil]
    rintro goesOn rfl
    exact absurd whole (Nat.ne_of_lt goesOn)

/-- A literal that does not close in a text does not close in what the text begins with. -/
theorem literalEnd?_take_eq_none {text : Text} {start place : Nat}
    (h : literalEnd? text start place = none) (size : Nat) :
    literalEnd? (text.take size) start place = none := by
  rw [Option.eq_none_iff_forall_ne_some]
  intro stop found
  obtain ⟨later, foundAgain, -⟩ := literalEnd?_append found (text.drop size)
  rw [List.take_append_drop, h] at foundAgain
  cases foundAgain

/-! ## The scan of a block goes on -/

/-- The scan of a block goes on behind a literal. -/
theorem closeFrom_literalEnd? {text : Text} {start place stop : Nat} (after : start ≤ place)
    (h : literalEnd? text start place = some stop) (steps inner : Nat) :
    closeFrom (steps + 1) (contextAt text start place) inner (text.drop place) =
      (closeFrom steps (contextAt text start stop) inner (text.drop stop)).after
        ((text.take stop).drop place) := by
  obtain ⟨first, body, taken, rest, -, ahead, split, found, rfl, whole⟩ :=
    exists_of_literalEnd? h
  have parts : text.drop place = taken ++ rest := ahead.trans split
  have passed : (text.take (place + taken.length)).drop place = taken := by
    rw [List.drop_take, Nat.add_sub_cancel_left, parts, List.take_left]
  have behind : text.drop (place + taken.length) = rest := by
    rw [← List.drop_drop, parts, List.drop_left]
  rw [passed, behind, contextAt_add after (by omega) parts, ahead]
  refine closeFrom_literal ?_ found
  rintro rfl
  rw [literal?_eq_none_of_opening? (opening?_backslash ..)] at found
  cases found

/-- **One step of a scan** ends it, or takes a character at least and goes on behind that. -/
theorem closeFrom_step (context : Context) (inner : Nat) (c : Char) (rest : Text) :
    (∃ found, ∀ fuel, closeFrom (fuel + 1) context inner (c :: rest) = found) ∨
      ∃ next nested taken tail, taken ++ tail = c :: rest ∧ taken ≠ [] ∧
        ∀ fuel, closeFrom (fuel + 1) context inner (c :: rest) =
          (closeFrom fuel next nested tail).after taken := by
  by_cases hides : c = backslash
  · subst hides
    cases rest with
    | nil => exact .inl ⟨.unclosed (inner + 1), fun fuel => by simp [closeFrom]⟩
    | cons escaped rest =>
        exact .inr ⟨_, _, [backslash, escaped], rest, rfl, List.cons_ne_nil _ _, fun _ =>
          closeFrom_escape escaped⟩
  · cases found : literal? context (c :: rest) with
    | some literal =>
        obtain ⟨taken, tail⟩ := literal
        exact .inr ⟨_, _, taken, tail, literal?_append found, literal?_ne_nil found,
          fun _ => closeFrom_literal hides found⟩
    | none =>
        by_cases opens : c = '{'
        · subst opens
          exact .inr ⟨_, _, ['{'], rest, rfl, List.cons_ne_nil _ _, fun _ => closeFrom_nested⟩
        · by_cases closes : c = '}'
          · subst closes
            cases inner with
            | zero => exact .inl ⟨_, fun _ => closeFrom_close⟩
            | succ inner =>
                exact .inr ⟨_, _, ['}'], rest, rfl, List.cons_ne_nil _ _, fun _ => closeFrom_unnested⟩
          · exact .inr ⟨_, _, [c], rest, rfl, List.cons_ne_nil _ _, fun _ =>
              closeFrom_plain hides opens closes found⟩

/-- **A scan does not run out of steps** where it has one for each character. -/
theorem closeFrom_eq_of_length_le {fuel more : Nat} {context : Context} {inner : Nat} {text : Text}
    (enough : text.length ≤ fuel) (enoughMore : text.length ≤ more) :
    closeFrom fuel context inner text = closeFrom more context inner text := by
  induction fuel generalizing more context inner text with
  | zero =>
      obtain rfl := List.eq_nil_of_length_eq_zero (Nat.le_zero.1 enough)
      cases more <;> rfl
  | succ fuel ih =>
      cases text with
      | nil => cases more <;> rfl
      | cons c rest =>
          obtain ⟨more, rfl⟩ : ∃ steps, more = steps + 1 :=
            Nat.exists_eq_add_one.2 (Nat.lt_of_lt_of_le (Nat.succ_pos rest.length) enoughMore)
          rcases closeFrom_step context inner c rest with
            ⟨found, ends⟩ | ⟨next, nested, taken, tail, whole, nonempty, goesOn⟩
          · rw [ends, ends]
          · have long := List.length_pos_iff.2 nonempty
            have lengths := congrArg List.length whole
            rw [List.length_append] at lengths
            have short : tail.length ≤ fuel := by omega
            have shortMore : tail.length ≤ more := by omega
            rw [goesOn, goesOn, ih short shortMore]

/-- **Literals are skipped forwards.**  In the block that opens at `start`, a literal found at a
place ends two characters further on at least and in the text, and the scan of the block goes on
from there.  More text behind keeps it, with the same end unless modifiers at the very end go on.
So a literal that does not close in a text closes in nothing the text begins with, and the scan of
the block comes to its end in a step for each character. -/
theorem literalEnd_spec {text : Text} {start place : Nat} (opens : text[start]? = some '{')
    (after : start ≤ place) :
    (∀ stop, literalEnd? text start place = some stop →
      place + 2 ≤ stop ∧ stop ≤ text.length ∧
      (∀ steps inner,
        closeFrom (steps + 1) (contextAt text start place) inner (text.drop place) =
          (closeFrom steps (contextAt text start stop) inner (text.drop stop)).after
            ((text.take stop).drop place)) ∧
      ∀ following, ∃ later, literalEnd? (text ++ following) start place = some later ∧
        stop ≤ later ∧
        (stop < text.length ∨ text[place]? = some apostrophe ∨ text[place]? = some doubleQuote →
          later = stop)) ∧
    (literalEnd? text start place = none →
      ∀ size, literalEnd? (text.take size) start place = none) ∧
    (∀ steps inner, text.length - place ≤ steps →
      closeFrom steps (contextAt text start place) inner (text.drop place) =
        closeFrom (text.length - place) (contextAt text start place) inner (text.drop place)) ∧
    closeFrom (text.length - (start + 1)) (contextAt text start (start + 1)) 0
      (text.drop (start + 1)) = close (text.drop (start + 1)) := by
  refine ⟨fun stop found => ?_, literalEnd?_take_eq_none, fun steps inner enough => ?_, ?_⟩
  · obtain ⟨forwards, within⟩ := literalEnd?_bounds found
    exact ⟨forwards, within, closeFrom_literalEnd? after found, literalEnd?_append found⟩
  · exact closeFrom_eq_of_length_le (by rwa [List.length_drop]) (Nat.le_of_eq List.length_drop)
  · rw [contextAt_succ opens, close, List.length_drop]

/-- A substitution at the very end of a text, which a modifier behind it goes on with. -/
theorem literalEnd_spec_modifiers :
    "\x7b s(a)(b)g".toList[0]? = some '{' ∧ literalEnd? "\x7b s(a)(b)g".toList 0 2 = some 10 ∧
      literalEnd? "\x7b s(a)(b)gi\x7d".toList 0 2 = some 11 ∧
      ∀ following, ∃ later,
        literalEnd? ("\x7b s(a)(b)g".toList ++ following) 0 2 = some later ∧ 10 ≤ later := by
  have opens : "\x7b s(a)(b)g".toList[0]? = some '{' := by decide +kernel
  have found : literalEnd? "\x7b s(a)(b)g".toList 0 2 = some 10 := by decide +kernel
  refine ⟨opens, found, by decide +kernel, fun following => ?_⟩
  obtain ⟨-, -, -, goesOn⟩ := (literalEnd_spec opens (Nat.zero_le 2)).1 10 found
  obtain ⟨later, foundAgain, behind, -⟩ := goesOn following
  exact ⟨later, foundAgain, behind⟩

end MethodSignature.Block
