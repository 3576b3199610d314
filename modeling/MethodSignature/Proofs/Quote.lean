/-
# MethodSignature.Proofs.Quote -- a quote ends where it closes

`IsQuote` says what the text of a quoted default value is.  Every quote that is read
is one (`isQuote_of_scan`), and every such text is read whole, whatever follows it
(`scan_append_of_isQuote`), except that the modifier letters behind a `qr` belong to it.
-/
import MethodSignature.Literal.Quote
import MethodSignature.Proofs.Delimiter

namespace MethodSignature.Quote

set_option autoImplicit false

open Text

/-- The text of a quote that may be a default value. -/
inductive IsQuote : Text → Prop
  | mark {quote : Char} {inside : Text} : quote = apostrophe ∨ quote = doubleQuote →
      Delimiter.close quote inside = .closed inside [] → IsQuote (quote :: inside)
  | operator {operator : QuoteOperator} {gap inside modifiers : Text} {delimiter : Char} :
      operator.accepted = true → IsInline gap → Delimiter.isDelimiter delimiter = true →
      gap = [] ∨ delimiter ≠ '#' → Delimiter.close delimiter inside = .closed inside [] →
      modifiers.all (fun c => operator = .qr && isPatternModifier c) = true →
      IsQuote (operator.spelling ++ gap ++ delimiter :: inside ++ modifiers)

theorem close_local {delimiter : Char} {body inside rest : Text}
    (h : Delimiter.close delimiter body = .closed inside rest) (following : Text) :
    Delimiter.close delimiter (inside ++ following) = .closed inside following := by
  rw [Delimiter.close_eq_closed_iff] at h ⊢
  exact Delimiter.closeFrom_local h following

theorem delimited_eq_present_iff {text lead body literal rest : Text} {delimiter : Char}
    {isModifier : Char → Bool} :
    delimited text lead delimiter body isModifier = .present literal rest ↔
      ∃ inside modifiers, literal = lead ++ delimiter :: inside ++ modifiers ∧
        Delimiter.close delimiter body = .closed inside (modifiers ++ rest) ∧
        modifiers.all isModifier = true ∧ Stops isModifier rest := by
  unfold delimited
  constructor
  · intro h
    split at h
    · rename_i inside tail closed
      simp only [Scan.present, Scan.mk.injEq] at h
      obtain ⟨rfl, rfl, -⟩ := h
      have found : cut isModifier tail = ((cut isModifier tail).1, (cut isModifier tail).2) := rfl
      obtain ⟨whole, all, stops⟩ := cut_eq_iff.1 found
      exact ⟨inside, _, rfl, whole ▸ closed, all, stops⟩
    · simp [Scan.present, Scan.fail] at h
  · rintro ⟨inside, modifiers, rfl, closed, all, stops⟩
    simp [closed, cut_append_of_all all stops]

theorem exists_behind_of_opening? {text gap body : Text} {operator : QuoteOperator}
    {delimiter : Char} (h : opening? text = some (.operator operator gap delimiter body)) :
    ∃ behind, Delimiter.behind? Delimiter.isDelimiter behind = some (gap, delimiter, body) := by
  cases text with
  | nil => cases h
  | cons c tail =>
      simp only [opening?] at h
      split at h
      · cases h
      · split at h
        · cases h
        · split at h
          · cases h
          · rename_i behind spelled
            simp only [Option.map_eq_some_iff] at h
            obtain ⟨⟨gap', delimiter', body'⟩, opened, same⟩ := h
            cases same
            exact ⟨behind, opened⟩

theorem isQuote_of_scan {text literal rest : Text} (h : scan text = .present literal rest) :
    IsQuote literal := by
  unfold scan at h
  split at h
  · simp [Scan.absent, Scan.present] at h
  · simp [Scan.fail, Scan.present] at h
  · split at h
    · rename_i marks
      obtain ⟨inside, modifiers, rfl, closed, all, -⟩ := delimited_eq_present_iff.1 h
      have none : modifiers = [] := by
        cases modifiers with
        | nil => rfl
        | cons c more => simp at all
      subst none
      simpa using IsQuote.mark marks (by simpa using close_local closed [])
    · simp [Scan.fail, Scan.present] at h
  · rename_i operator gap delimiter body found
    split at h
    · rename_i accepted
      obtain ⟨inside, modifiers, rfl, closed, all, -⟩ := delimited_eq_present_iff.1 h
      obtain ⟨behind, opened⟩ := exists_behind_of_opening? found
      obtain ⟨gapCut, delimits, placed⟩ := Delimiter.behind?_eq_some_iff.1 opened
      obtain ⟨-, inline, -⟩ := cut_eq_iff.1 gapCut
      exact .operator accepted inline delimits placed (by simpa using close_local closed []) all
    · simp [Scan.fail, Scan.present] at h

theorem isNameChar_of_isDelimiter {c : Char} (h : Delimiter.isDelimiter c = true) :
    isNameChar c = false := by
  cases named : isNameChar c with
  | false => rfl
  | true => simp [Delimiter.isDelimiter, isWord_of_isNameChar named] at h

theorem spelling_of_accepted {operator : QuoteOperator} (accepted : operator.accepted = true) :
    ∃ more, operator.spelling = 'q' :: more := by
  revert accepted
  cases operator <;> simp [QuoteOperator.accepted, QuoteOperator.spelling]

theorem IsQuote.head {literal : Text} (h : IsQuote literal) :
    literal.head? = some apostrophe ∨ literal.head? = some doubleQuote ∨ literal.head? = some 'q' := by
  cases h with
  | mark marks _ => rcases marks with rfl | rfl <;> simp
  | operator accepted _ _ _ _ _ =>
      obtain ⟨more, starts⟩ := spelling_of_accepted accepted
      simp [starts]

theorem opening?_of_operator {operator : QuoteOperator} (accepted : operator.accepted = true)
    {gap : Text} {delimiter : Char} (inline : IsInline gap)
    (delimits : Delimiter.isDelimiter delimiter = true) (placed : gap = [] ∨ delimiter ≠ '#')
    (body : Text) :
    opening? (operator.spelling ++ (gap ++ delimiter :: body)) =
      some (.operator operator gap delimiter body) := by
  have solid : isInlineBlank delimiter = false := by
    cases blank : isInlineBlank delimiter with
    | false => rfl
    | true => simp [Delimiter.isDelimiter, isBlank_of_isInlineBlank blank] at delimits
  have wordEnds : Stops isNameChar (gap ++ delimiter :: body) := by
    cases gap with
    | nil => simpa using isNameChar_of_isDelimiter delimits
    | cons b more =>
        have blank := List.all_eq_true.1 inline b (by simp)
        simpa using isNameChar_of_isBlank (isBlank_of_isInlineBlank blank)
  have spelled : QuoteOperator.read? (operator.spelling ++ (gap ++ delimiter :: body)) =
      some (operator, gap ++ delimiter :: body) :=
    QuoteOperator.read?_eq_some_iff.2 ⟨rfl, wordEnds⟩
  have opened : Delimiter.behind? Delimiter.isDelimiter (gap ++ delimiter :: body) =
      some (gap, delimiter, body) :=
    Delimiter.behind?_eq_some_iff.2
      ⟨cut_append_of_all inline (by simpa using solid), delimits, placed⟩
  obtain ⟨more, starts⟩ := spelling_of_accepted accepted
  rw [starts, List.cons_append] at spelled ⊢
  have noMark : isMark 'q' = false := by decide
  simp [opening?, noMark, isHeredoc, spelled, opened]

/-- **A quote is read whole**, whatever follows, unless modifiers go on. -/
theorem scan_append_of_isQuote {literal following : Text} (h : IsQuote literal)
    (stops : ∀ more, literal = 'q' :: 'r' :: more → Stops isPatternModifier following) :
    scan (literal ++ following) = .present literal following := by
  cases h with
  | @mark quote inside marks closed =>
      have isMark : isMark quote = true := by rcases marks with rfl | rfl <;> decide
      have opened : opening? (quote :: (inside ++ following)) =
          some (.mark quote (inside ++ following)) := by simp [opening?, isMark]
      rw [List.cons_append, scan, opened]
      simp only [marks, if_true]
      refine delimited_eq_present_iff.2 ⟨inside, [], by simp, close_local closed _, rfl, ?_⟩
      intro c _
      rfl
  | @operator operator gap inside modifiers delimiter accepted inline delimits placed closed all =>
      have opened := opening?_of_operator accepted inline delimits placed
        (inside ++ (modifiers ++ following))
      have whole : operator.spelling ++ gap ++ delimiter :: inside ++ modifiers ++ following =
          operator.spelling ++ (gap ++ delimiter :: (inside ++ (modifiers ++ following))) := by simp
      rw [whole, scan, opened]
      simp only [accepted, if_true]
      refine delimited_eq_present_iff.2 ⟨inside, modifiers, rfl, close_local closed _, all, ?_⟩
      by_cases pattern : operator = .qr
      · subst pattern
        have := stops _ rfl
        intro c member
        simp [this c member]
      · intro c _
        simp [pattern]

/-- Modifiers are taken as far as they go: none stands behind a `qr`. -/
theorem stops_of_scan {text literal rest more : Text} (h : scan text = .present literal rest)
    (pattern : literal = 'q' :: 'r' :: more) : Stops isPatternModifier rest := by
  unfold scan at h
  split at h
  · simp [Scan.absent, Scan.present] at h
  · simp [Scan.fail, Scan.present] at h
  · split at h
    · rename_i marks
      obtain ⟨inside, modifiers, rfl, -⟩ := delimited_eq_present_iff.1 h
      simp only [List.nil_append, List.cons_append, List.cons.injEq] at pattern
      rcases marks with rfl | rfl <;> exact absurd pattern.1 (by decide)
    · simp [Scan.fail, Scan.present] at h
  · rename_i operator gap delimiter body found
    split at h
    · rename_i accepted
      obtain ⟨inside, modifiers, rfl, -, -, stops⟩ := delimited_eq_present_iff.1 h
      -- behind a shorter operator stands a blank or a delimiter, never an `r`
      have isPattern : operator = .qr := by
        obtain ⟨behind, opened⟩ := exists_behind_of_opening? found
        obtain ⟨gapCut, delimits, -⟩ := Delimiter.behind?_eq_some_iff.1 opened
        obtain ⟨-, inline, -⟩ := cut_eq_iff.1 gapCut
        have next : ∀ more, gap ++ delimiter :: inside ++ modifiers ≠ 'r' :: more := by
          intro more same
          cases gap with
          | nil =>
              simp only [List.nil_append, List.cons_append, List.cons.injEq] at same
              rw [same.1] at delimits
              exact absurd delimits (by decide)
          | cons b gap =>
              simp only [List.cons_append, List.cons.injEq] at same
              have blank := List.all_eq_true.1 inline b (by simp)
              rw [same.1] at blank
              exact absurd blank (by decide)
        cases operator with
        | q => exact absurd (by simpa [QuoteOperator.spelling] using pattern) (next more)
        | qr => rfl
        | qq | qw => simp [QuoteOperator.spelling] at pattern
        | qx | m | s | tr | y => cases accepted
      subst isPattern
      simpa using stops
    · simp [Scan.fail, Scan.present] at h

/-- No quote begins with a sigil. -/
theorem scan_of_isSigil {c : Char} (sigil : isSigil c = true) (rest : Text) :
    scan (c :: rest) = .absent (c :: rest) := by
  have plain : opening? (c :: rest) = none := by
    simp only [isSigil, Bool.or_eq_true, beq_iff_eq] at sigil
    rcases sigil with (rfl | rfl) | rfl <;> rfl
  rw [scan, plain]

end MethodSignature.Quote
