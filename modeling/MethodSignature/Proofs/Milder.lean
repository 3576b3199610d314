/-
# MethodSignature.Proofs.Milder -- texts that complete fewer quotes

The scan of a block asks the text behind it one question: does it complete a quote
that the block leaves open?  `Milder old new` says that `new` completes no quote
that `old` leaves open.

It holds of any text and a beginning of it.  It is kept by putting the same text in
front of both, by adding or dropping blanks, by adding a comma and by dropping a
mark: all that writing a signature in canonical form does to the text behind a
block.
-/
import MethodSignature.Proofs.CodeLiteral

namespace MethodSignature.Block

set_option autoImplicit false

open Text

/-- `new` completes no quote that `old` leaves open. -/
def Quieter (old new : Text) : Prop :=
  ∀ ⦃operator delimiter inner⦄, isDelimiter delimiter = true →
    (Delimiter.nests delimiter = false → inner = 0) →
    Completes operator delimiter inner new → Completes operator delimiter inner old

/-- Nor does `new` complete a quote whose first part has just ended with a bracket. -/
structure Milder (old new : Text) : Prop where
  quieter : Quieter old new
  replaces : ∀ ⦃delimiter⦄, Delimiter.nests delimiter = true →
    (replacement? delimiter new).isSome = true → (replacement? delimiter old).isSome = true

/-- What a text completes, it completes with more text behind. -/
theorem milder_truncate (text rest : Text) : Milder (text ++ rest) text where
  quieter := by
    rintro operator delimiter inner - - ⟨first, behind, closed, replaced⟩
    obtain ⟨⟨second, tail⟩, found⟩ := Option.isSome_iff_exists.1 replaced
    have first' := Delimiter.closeFrom_local closed (behind ++ rest)
    rw [← List.append_assoc, Delimiter.closeFrom_append closed] at first'
    have second' := second?_local found (tail ++ rest)
    rw [← List.append_assoc, second?_append found] at second'
    exact ⟨first, behind ++ rest, first', by rw [second']; rfl⟩
  replaces := by
    intro delimiter _ found
    obtain ⟨⟨taken, tail⟩, replaced⟩ := Option.isSome_iff_exists.1 found
    have again := replacement?_local replaced (tail ++ rest)
    rw [← List.append_assoc, replacement?_append replaced] at again
    rw [again]
    rfl

/-- Nothing at all completes nothing. -/
theorem milder_nil (old : Text) : Milder old [] := milder_truncate [] old

/-! ## The same text in front -/

section Prepend

variable {old new : Text}

theorem Quieter.closes_append (h : Quieter old new) {text : Text} (plain : EndsPlain text)
    {delimiter : Char} {inner : Nat} (delimits : isDelimiter delimiter = true)
    (flat : Delimiter.nests delimiter = false → inner = 0)
    (completes : Completes .q delimiter inner (text ++ new)) :
    Completes .q delimiter inner (text ++ old) := by
  rw [completes_q_iff] at completes ⊢
  rcases Delimiter.walks delimiter (Delimiter.closer delimiter) inner plain with
    ⟨taken, rest, -, closed⟩ | ⟨left, bound, passes⟩
  · exact ⟨taken, rest ++ old, closed old⟩
  · obtain ⟨first, rest, closed⟩ := completes
    rw [passes] at closed
    obtain ⟨inside, found, -⟩ := Closing.after_eq_closed closed
    have flat' := Delimiter.left_eq_zero bound flat
    obtain ⟨first', rest', closed'⟩ :=
      completes_q_iff.1 (h delimits flat' (completes_q_iff.2 ⟨inside, rest, found⟩))
    exact ⟨text ++ first', rest', by rw [passes, closed']; rfl⟩

theorem Quieter.replaces_append (h : Quieter old new) {text : Text} (solid : EndsSolid text)
    {delimiter : Char} (nesting : Delimiter.nests delimiter = true)
    (found : (replacement? delimiter (text ++ new)).isSome = true) :
    (replacement? delimiter (text ++ old)).isSome = true := by
  obtain ⟨blanks, c, body, rfl, blank, notBlank, plain⟩ := solid.exists_solid
  rw [List.append_assoc, List.cons_append, replacement?_bracket_isSome_iff nesting blank notBlank]
    at found ⊢
  exact ⟨found.1, h.closes_append plain found.1 (fun _ => rfl) found.2⟩

/-- What is behind a text may only grow milder, and it stays so with that text in
front. -/
theorem Milder.append (h : Milder old new) {text : Text} (solid : EndsSolid text) :
    Milder (text ++ old) (text ++ new) where
  replaces := fun delimiter nesting found => h.quieter.replaces_append solid nesting found
  quieter := by
    intro operator delimiter inner delimits flat completes
    rcases Delimiter.walks delimiter (Delimiter.closer delimiter) inner solid.endsPlain with
      ⟨taken, rest, rfl, closed⟩ | ⟨left, bound, passes⟩
    · obtain ⟨first, tail, closed', replaced⟩ := completes
      rw [closed] at closed'
      cases closed'
      refine ⟨taken, rest ++ old, closed old, ?_⟩
      unfold second? at replaced ⊢
      split
      · rename_i twoPart
        rw [if_pos twoPart] at replaced
        by_cases nesting : Delimiter.nests delimiter = true
        · by_cases empty : rest = []
          · subst empty
            exact h.replaces nesting replaced
          · have rest := (endsSolid_append empty).1 solid
            exact h.quieter.replaces_append rest nesting replaced
        · rw [Bool.not_eq_true] at nesting
          rw [replacement?_isSome_iff nesting] at replaced ⊢
          exact h.quieter.closes_append solid.endsPlain.suffix delimits (fun _ => rfl) replaced
      · rfl
    · obtain ⟨first, rest, closed, replaced⟩ := completes
      rw [passes] at closed
      obtain ⟨inside, found, -⟩ := Closing.after_eq_closed closed
      have flat' := Delimiter.left_eq_zero bound flat
      obtain ⟨first', rest', closed', replaced'⟩ :=
        h.quieter delimits flat' ⟨inside, rest, found, replaced⟩
      exact ⟨text ++ first', rest', by rw [passes, closed']; rfl, replaced'⟩

end Prepend

/-! ## Characters that complete nothing -/

/-- The closing brackets. -/
def closers : List Char := [')', ']', '}', '>']

/-- A character that neither opens nor closes a quote. -/
def isInert (c : Char) : Bool := !isDelimiter c && !closers.contains c

theorem isInert_of_isBlank {c : Char} (h : isBlank c = true) : isInert c = true := by
  have noCloser : c ∉ closers := by
    intro closes
    simp only [closers, List.mem_cons, List.not_mem_nil, or_false] at closes
    rcases closes with rfl | rfl | rfl | rfl <;> revert h <;> decide
  simp [isInert, isDelimiter, Delimiter.isDelimiter, h, noCloser]

/-- A delimiter is closed by itself or by a closing bracket. -/
theorem ne_closer {c delimiter : Char} (notDelimiter : c ≠ delimiter) (noCloser : c ∉ closers) :
    c ≠ Delimiter.closer delimiter := by
  have cases : Delimiter.closer delimiter = delimiter ∨ Delimiter.closer delimiter ∈ closers := by
    unfold Delimiter.closer
    split <;> simp [closers]
  rintro rfl
  rcases cases with same | closes
  · exact notDelimiter same
  · exact noCloser closes

section Pass

variable {operator : QuoteOperator} {delimiter : Char} {inner : Nat} {text : Text}

/-- The search passes over a character that is neither delimiter nor backslash. -/
theorem completes_cons_iff {c : Char} (plain : c ≠ backslash) (notDelimiter : c ≠ delimiter)
    (notCloser : c ≠ Delimiter.closer delimiter) :
    Completes operator delimiter inner (c :: text) ↔ Completes operator delimiter inner text := by
  simp only [Completes, Delimiter.closeFrom_other plain notCloser notDelimiter]
  constructor
  · rintro ⟨first, rest, closed, replaced⟩
    obtain ⟨inside, found, -⟩ := Closing.after_eq_closed closed
    exact ⟨inside, rest, found, replaced⟩
  · rintro ⟨first, rest, closed, replaced⟩
    exact ⟨c :: first, rest, by rw [closed]; rfl, replaced⟩

theorem completes_inert_iff (delimits : isDelimiter delimiter = true) {front : Text}
    (inert : front.all isInert = true) :
    Completes operator delimiter inner (front ++ text) ↔
      Completes operator delimiter inner text := by
  induction front with
  | nil => rfl
  | cons c rest ih =>
      simp only [List.all_cons, Bool.and_eq_true, isInert, Bool.not_eq_true',
        List.contains_eq_mem, decide_eq_false_iff_not] at inert
      obtain ⟨⟨noDelimiter, noCloser⟩, restInert⟩ := inert
      have notDelimiter : c ≠ delimiter := by
        rintro rfl
        simp [delimits] at noDelimiter
      have plain : c ≠ backslash := by
        rintro rfl
        exact absurd noDelimiter (by decide)
      have notCloser := ne_closer notDelimiter noCloser
      rw [List.cons_append, completes_cons_iff plain notDelimiter notCloser]
      exact ih (by simpa [isInert] using restInert)

theorem IsBlanks.isInert {blanks : Text} (blank : IsBlanks blanks) :
    blanks.all Block.isInert = true :=
  all_mono (fun _ => isInert_of_isBlank) blank

theorem replacement?_blanks (nesting : Delimiter.nests delimiter = true) {blanks : Text}
    (blank : IsBlanks blanks) :
    (replacement? delimiter (blanks ++ text)).isSome = (replacement? delimiter text).isSome := by
  have inside : ∀ c ∈ blanks, isBlank c = true := List.all_eq_true.1 blank
  simp only [replacement?, nesting, if_true, cut]
  rw [List.takeWhile_append_of_pos inside, List.dropWhile_append_of_pos inside]
  cases text.dropWhile isBlank with
  | nil => rfl
  | cons c body => by_cases delimits : isDelimiter c = true <;> simp [delimits]

end Pass

section Change

variable {old new : Text}

theorem Quieter.drop_inert (h : Quieter old new) {front : Text}
    (inert : front.all isInert = true) : Quieter (front ++ old) new := by
  intro operator delimiter inner delimits flat completes
  exact (completes_inert_iff delimits inert).2 (h delimits flat completes)

theorem Quieter.add_inert (h : Quieter old new) {front : Text}
    (inert : front.all isInert = true) : Quieter old (front ++ new) := by
  intro operator delimiter inner delimits flat completes
  exact h delimits flat ((completes_inert_iff delimits inert).1 completes)

theorem Milder.drop_blanks (h : Milder old new) {blanks : Text} (blank : IsBlanks blanks) :
    Milder (blanks ++ old) new where
  quieter := h.quieter.drop_inert (IsBlanks.isInert blank)
  replaces := fun delimiter nesting found => by
    rw [replacement?_blanks nesting blank]
    exact h.replaces nesting found

theorem Milder.add_blanks (h : Milder old new) {blanks : Text} (blank : IsBlanks blanks) :
    Milder old (blanks ++ new) where
  quieter := h.quieter.add_inert (IsBlanks.isInert blank)
  replaces := fun delimiter nesting found => by
    rw [replacement?_blanks nesting blank] at found
    exact h.replaces nesting found

theorem Milder.add_blank (h : Milder old new) : Milder old (' ' :: new) := by
  have blank : IsBlanks [' '] := rfl
  exact h.add_blanks blank

/-- Where the new text goes on with a character that delimits nothing, quieter is
milder. -/
theorem Quieter.milder (h : Quieter old new) {blanks body : Text} {c : Char}
    (whole : new = blanks ++ c :: body) (blank : IsBlanks blanks) (solid : isBlank c = false)
    (noDelimiter : isDelimiter c = false) : Milder old new where
  quieter := h
  replaces := fun delimiter nesting found => by
    rw [whole, replacement?_bracket_isSome_iff nesting blank solid] at found
    simp [noDelimiter] at found

/-- A mark that delimits without nesting can be dropped: a quote that it completed
is completed later or not at all. -/
theorem Quieter.drop_mark (h : Quieter old new) {mark : Char} (plain : mark ≠ backslash)
    (noCloser : mark ∉ closers) (flatMark : Delimiter.nests mark = false) :
    Quieter (mark :: old) new := by
  intro operator delimiter inner delimits flat completes
  by_cases same : mark = delimiter
  · subst same
    have zero := flat flatMark
    subst zero
    have closer := Delimiter.closer_of_not_nests flatMark
    refine ⟨[mark], old, ?_, ?_⟩
    · rw [closer]
      exact Delimiter.closeFrom_closing_zero plain
    · unfold second?
      split
      · obtain ⟨first, rest, closed, -⟩ := completes
        rw [replacement?_isSome_iff flatMark]
        exact h delimits flat (completes_q_iff.2 ⟨first, rest, closed⟩)
      · rfl
  · rw [completes_cons_iff plain same (ne_closer same noCloser)]
    exact h delimits flat completes

end Change

end MethodSignature.Block
