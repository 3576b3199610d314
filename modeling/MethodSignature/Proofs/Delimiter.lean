/-
# MethodSignature.Proofs.Delimiter -- the search for a closing delimiter, in parts

Where a delimited text closes depends on that text alone (`closeFrom_local`), so it
closes there whatever follows.  Where it does not close, a search over a text that
ends without a backslash goes on in the text behind with some number of pairs open
(`walks`), and that number does not depend on what is behind.
-/
import MethodSignature.Literal.Delimiter
import MethodSignature.Literal.QuoteOperator
import MethodSignature.Proofs.Cut

namespace MethodSignature

set_option autoImplicit false

namespace Text

/-- The last character is not a backslash, so nothing behind the text is hidden. -/
def EndsPlain (text : Text) : Prop := ∀ c ∈ text.getLast?, c ≠ backslash

theorem endsPlain_nil : EndsPlain [] := by
  simp [EndsPlain]

theorem EndsPlain.tail {c : Char} {rest : Text} (h : EndsPlain (c :: rest)) : EndsPlain rest := by
  cases rest with
  | nil => exact endsPlain_nil
  | cons d more => simpa [EndsPlain, List.getLast?_cons_cons] using h

theorem EndsPlain.suffix {taken rest : Text} (h : EndsPlain (taken ++ rest)) : EndsPlain rest := by
  induction taken with
  | nil => exact h
  | cons c more ih => exact ih h.tail

/-- The last character is neither a backslash nor blank. -/
def EndsSolid (text : Text) : Prop :=
  ∃ c, text.getLast? = some c ∧ c ≠ backslash ∧ isBlank c = false

theorem EndsSolid.endsPlain {text : Text} (h : EndsSolid text) : EndsPlain text := by
  obtain ⟨c, last, plain, -⟩ := h
  intro d member
  rw [last] at member
  cases member
  exact plain

theorem endsSolid_append {taken rest : Text} (nonempty : rest ≠ []) :
    EndsSolid (taken ++ rest) ↔ EndsSolid rest := by
  have last : (taken ++ rest).getLast? = rest.getLast? := by
    rw [List.getLast?_append, List.getLast?_eq_some_getLast nonempty]
    rfl
  simp only [EndsSolid, last]

/-- A text that ends solid has a first character that is not blank. -/
theorem EndsSolid.exists_solid {text : Text} (h : EndsSolid text) :
    ∃ blanks c body, text = blanks ++ c :: body ∧ IsBlanks blanks ∧ isBlank c = false ∧
      EndsPlain body := by
  have found : cut isBlank text = ((cut isBlank text).1, (cut isBlank text).2) := rfl
  obtain ⟨whole, blank, stops⟩ := cut_eq_iff.1 found
  cases solid : (cut isBlank text).2 with
  | nil =>
      obtain ⟨c, last, -, notBlank⟩ := h
      rw [solid, List.append_nil] at whole
      have member : c ∈ text := List.mem_of_getLast? last
      rw [whole] at member
      have := List.all_eq_true.1 blank c member
      simp [notBlank] at this
  | cons c body =>
      rw [solid] at whole stops
      refine ⟨_, c, body, whole, blank, by simpa using stops, ?_⟩
      have plain := h.endsPlain
      rw [whole] at plain
      exact plain.suffix.tail

end Text

namespace Delimiter

open Text

theorem closer_of_not_nests {delimiter : Char} (h : nests delimiter = false) :
    closer delimiter = delimiter := by
  simpa only [nests, bne_eq_false_iff_eq] using h

theorem ne_closer_of_nests {delimiter : Char} (h : nests delimiter = true) :
    delimiter ≠ closer delimiter := by
  rw [nests, bne_iff_ne] at h
  exact h.symm

/-- The four delimiters that nest, and their partners. -/
theorem nests_cases {delimiter : Char} (h : nests delimiter = true) :
    delimiter = '(' ∨ delimiter = '[' ∨ delimiter = '{' ∨ delimiter = '<' := by
  unfold nests closer at h
  split at h <;> simp_all

theorem close_toOption (delimiter : Char) (body : Text) :
    (close delimiter body).toOption =
      (closeFrom delimiter (closer delimiter) 0 body).toOption := by
  unfold close
  split
  · rename_i found
    rw [found]
  · rename_i found
    rw [found]
    rfl

theorem close_eq_closed_iff {delimiter : Char} {body inside rest : Text} :
    close delimiter body = .closed inside rest ↔
      closeFrom delimiter (closer delimiter) 0 body = .closed inside rest := by
  unfold close
  split
  · rename_i found
    rw [found]
  · rename_i found
    rw [found]
    simp

/-! ## One step of the search -/

section Step

variable {opening closing c : Char} {inner : Nat} {rest : Text}

theorem closeFrom_escape (escaped : Char) :
    closeFrom opening closing inner (backslash :: escaped :: rest) =
      (closeFrom opening closing inner rest).after [backslash, escaped] := by
  simp [closeFrom]

theorem closeFrom_closing_zero (plain : closing ≠ backslash) :
    closeFrom opening closing 0 (closing :: rest) = .closed [closing] rest := by
  cases rest <;> simp [closeFrom, plain]

theorem closeFrom_closing_succ (plain : closing ≠ backslash) :
    closeFrom opening closing (inner + 1) (closing :: rest) =
      (closeFrom opening closing inner rest).after [closing] := by
  cases rest <;> simp [closeFrom, plain]

theorem closeFrom_opening (plain : opening ≠ backslash) (nesting : opening ≠ closing) :
    closeFrom opening closing inner (opening :: rest) =
      (closeFrom opening closing (inner + 1) rest).after [opening] := by
  cases rest <;> simp [closeFrom, plain, nesting]

theorem closeFrom_other (plain : c ≠ backslash) (notClosing : c ≠ closing)
    (notOpening : c ≠ opening) :
    closeFrom opening closing inner (c :: rest) =
      (closeFrom opening closing inner rest).after [c] := by
  cases rest <;> simp [closeFrom, plain, notClosing, notOpening]

end Step

/-- A closed text closes at the same place whatever follows it. -/
theorem closeFrom_local {opening closing : Char} {inner : Nat} {text taken rest : Text}
    (h : closeFrom opening closing inner text = .closed taken rest) (following : Text) :
    closeFrom opening closing inner (taken ++ following) = .closed taken following := by
  fun_induction closeFrom opening closing inner text generalizing taken with
  | case1 => simp at h
  | case2 => simp at h
  | case3 inner escaped tail ih =>
      obtain ⟨inside, found, rfl⟩ := Closing.after_eq_closed h
      simp [closeFrom_escape, ih found, Closing.after]
  | case4 tail notBackslash =>
      cases h
      exact closeFrom_closing_zero notBackslash
  | case5 tail inner notBackslash ih =>
      obtain ⟨inside, found, rfl⟩ := Closing.after_eq_closed h
      simp [closeFrom_closing_succ notBackslash, ih found, Closing.after]
  | case6 inner tail notBackslash notClosing ih =>
      obtain ⟨inside, found, rfl⟩ := Closing.after_eq_closed h
      simp [closeFrom_opening notBackslash notClosing, ih found, Closing.after]
  | case7 inner c tail notBackslash notClosing notOpening ih =>
      obtain ⟨inside, found, rfl⟩ := Closing.after_eq_closed h
      simp [closeFrom_other notBackslash notClosing notOpening, ih found, Closing.after]

/-- A closed text ends with its closing delimiter. -/
theorem getLast?_of_closed {opening closing : Char} {inner : Nat} {text taken rest : Text}
    (h : closeFrom opening closing inner text = .closed taken rest) :
    taken.getLast? = some closing ∧ closing ≠ backslash := by
  fun_induction closeFrom opening closing inner text generalizing taken with
  | case1 => simp at h
  | case2 => simp at h
  | case3 inner escaped tail ih =>
      obtain ⟨inside, found, rfl⟩ := Closing.after_eq_closed h
      exact ⟨by rw [List.getLast?_append, (ih found).1]; rfl, (ih found).2⟩
  | case4 tail notBackslash =>
      cases h
      exact ⟨rfl, notBackslash⟩
  | case5 tail inner _ ih =>
      obtain ⟨inside, found, rfl⟩ := Closing.after_eq_closed h
      exact ⟨by rw [List.getLast?_append, (ih found).1]; rfl, (ih found).2⟩
  | case6 inner tail _ _ ih =>
      obtain ⟨inside, found, rfl⟩ := Closing.after_eq_closed h
      exact ⟨by rw [List.getLast?_append, (ih found).1]; rfl, (ih found).2⟩
  | case7 inner c tail _ _ _ ih =>
      obtain ⟨inside, found, rfl⟩ := Closing.after_eq_closed h
      exact ⟨by rw [List.getLast?_append, (ih found).1]; rfl, (ih found).2⟩

/-- A search through `text` that has `inner` pairs open either ends in it, or goes
on behind it with `left` pairs open.  Delimiters that do not nest never open any. -/
def Walks (opening closing : Char) (inner : Nat) (text : Text) : Prop :=
  (∃ taken rest, text = taken ++ rest ∧
      ∀ following, closeFrom opening closing inner (text ++ following) =
        .closed taken (rest ++ following)) ∨
    ∃ left, (opening = closing → left ≤ inner) ∧
      ∀ following, closeFrom opening closing inner (text ++ following) =
        (closeFrom opening closing left following).after text

theorem Walks.prepend {opening closing : Char} {inner : Nat} {text : Text}
    (h : Walks opening closing inner text) (lead : Text) {outer : Nat}
    (fewer : opening = closing → inner ≤ outer)
    (step : ∀ following, closeFrom opening closing outer (lead ++ (text ++ following)) =
      (closeFrom opening closing inner (text ++ following)).after lead) :
    Walks opening closing outer (lead ++ text) := by
  rcases h with ⟨taken, rest, rfl, closed⟩ | ⟨left, bound, passes⟩
  · refine .inl ⟨lead ++ taken, rest, by simp, fun following => ?_⟩
    rw [List.append_assoc, step, closed]
    rfl
  · refine .inr ⟨left, fun same => Nat.le_trans (bound same) (fewer same), fun following => ?_⟩
    rw [List.append_assoc, step, passes, Closing.after_after]

theorem walks (opening closing : Char) (inner : Nat) {text : Text} (plain : EndsPlain text) :
    Walks opening closing inner text := by
  fun_induction closeFrom opening closing inner text with
  | case1 inner =>
      refine .inr ⟨inner, fun _ => Nat.le_refl inner, fun following => ?_⟩
      rw [Closing.after_nil, List.nil_append]
  | case2 inner => simp [EndsPlain] at plain
  | case3 inner escaped tail ih =>
      exact (ih plain.tail.tail).prepend [backslash, escaped] (fun _ => Nat.le_refl inner)
        fun following => closeFrom_escape escaped
  | case4 tail notBackslash =>
      exact .inl ⟨[closing], tail, rfl, fun following => closeFrom_closing_zero notBackslash⟩
  | case5 tail inner notBackslash ih =>
      exact (ih plain.tail).prepend [closing] (fun _ => Nat.le_succ inner)
        fun following => closeFrom_closing_succ notBackslash
  | case6 inner tail notBackslash notClosing ih =>
      exact (ih plain.tail).prepend [opening] (fun same => absurd same notClosing)
        fun following => closeFrom_opening notBackslash notClosing
  | case7 inner c tail notBackslash notClosing notOpening ih =>
      exact (ih plain.tail).prepend [c] (fun _ => Nat.le_refl inner)
        fun following => closeFrom_other notBackslash notClosing notOpening

theorem left_eq_zero {delimiter : Char} {inner left : Nat}
    (bound : delimiter = closer delimiter → left ≤ inner)
    (flat : nests delimiter = false → inner = 0) (plain : nests delimiter = false) : left = 0 := by
  have := bound (closer_of_not_nests plain).symm
  have := flat plain
  omega

/-! ## Operators and the delimiters behind them -/

theorem behind?_eq_some_iff {admits : Char → Bool} {text gap body : Text} {c : Char} :
    behind? admits text = some (gap, c, body) ↔
      cut isInlineBlank text = (gap, c :: body) ∧ admits c = true ∧ (gap = [] ∨ c ≠ '#') := by
  unfold behind?
  split
  · rename_i found
    simp [found]
  · rename_i gap' c' body' found
    rw [found]
    constructor
    · intro h
      split at h
      · rename_i admitted
        cases h
        simp only [Bool.and_eq_true, Bool.or_eq_true, List.isEmpty_iff, bne_iff_ne] at admitted
        exact ⟨rfl, admitted⟩
      · cases h
    · rintro ⟨same, admitted, placed⟩
      cases same
      simp [admitted, placed]

end Delimiter

theorem QuoteOperator.read?_eq_some_iff {text rest : Text} {operator : QuoteOperator} :
    read? text = some (operator, rest) ↔
      text = operator.spelling ++ rest ∧ Text.Stops Text.isNameChar rest := by
  constructor
  · intro h
    refine ⟨(read?_append h).symm, ?_⟩
    simp only [read?, Option.map_eq_some_iff, Prod.mk.injEq] at h
    obtain ⟨_, _, -, rfl⟩ := h
    exact Text.stops_cut Text.isNameChar text
  · rintro ⟨rfl, stops⟩
    have named : operator.spelling.all Text.isNameChar = true := by cases operator <;> decide
    simp [read?, Text.cut_append_of_all named stops, ofSpelling?_spelling]

/-- An operator and the delimiter behind it are found again whatever the delimiter
encloses. -/
theorem Delimiter.opening_local {admits : Char → Bool} {text behind gap body : Text}
    {operator : QuoteOperator} {delimiter : Char}
    (spelled : QuoteOperator.read? text = some (operator, behind))
    (opened : behind? admits behind = some (gap, delimiter, body)) (following : Text) :
    QuoteOperator.read? (operator.spelling ++ (gap ++ delimiter :: following)) =
        some (operator, gap ++ delimiter :: following) ∧
      behind? admits (gap ++ delimiter :: following) = some (gap, delimiter, following) := by
  obtain ⟨-, wordEnds⟩ := QuoteOperator.read?_eq_some_iff.1 spelled
  obtain ⟨gapCut, admitted, placed⟩ := behind?_eq_some_iff.1 opened
  obtain ⟨rfl, gapAll, gapStops⟩ := Text.cut_eq_iff.1 gapCut
  constructor
  · refine QuoteOperator.read?_eq_some_iff.2 ⟨rfl, ?_⟩
    cases gap with
    | nil => simpa using wordEnds
    | cons b more => simpa using wordEnds
  · refine behind?_eq_some_iff.2 ⟨Text.cut_append_of_all gapAll ?_, admitted, placed⟩
    simpa using gapStops

end MethodSignature
