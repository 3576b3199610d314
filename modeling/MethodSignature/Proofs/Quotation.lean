/-
# MethodSignature.Proofs.Quotation -- a quote is self-delimiting

The head of a quote is the text up to its opening delimiter: a quote mark, or an operator,
inline blanks and a delimiter.  Behind a head the scan of a quote is the search for the
closing delimiter, whatever the text there is (`scan_of_head`).

So a literal that is found consists of a head, a body, a closing delimiter and, behind `qr`,
modifiers, and it is found again before any text that no modifier begins.  A quote that is
never closed is not closed in any beginning of its text that still holds the head.
-/
import MethodSignature.Proofs.Delimited
import MethodSignature.Proofs.Offset

namespace MethodSignature.Quote

set_option autoImplicit false

open Text

/-! ## Heads -/

/-- The beginning of a quote. -/
inductive Head
  | mark (quote : Char)
  | worded (operator : QuoteOperator) (gap : Text) (delimiter : Char)
  deriving DecidableEq, Repr

namespace Head

/-- What stands before the opening delimiter. -/
def lead : Head → Text
  | .mark _ => []
  | .worded operator gap _ => operator.spelling ++ gap

def delimiter : Head → Char
  | .mark quote => quote
  | .worded _ _ delimiter => delimiter

def text (head : Head) : Text := head.lead ++ [head.delimiter]

/-- Whether the quote is a pattern, and so takes modifiers. -/
def isPattern : Head → Bool
  | .mark _ => false
  | .worded operator _ _ => operator = .qr

def isModifier (head : Head) (c : Char) : Bool := head.isPattern && isPatternModifier c

/-- The heads that a default value may begin with. -/
inductive Valid : Head → Prop
  | mark {quote : Char} : quote = apostrophe ∨ quote = doubleQuote → Valid (.mark quote)
  | worded {operator : QuoteOperator} {gap : Text} {delimiter : Char} :
      operator.accepted = true → IsInline gap → Delimiter.isDelimiter delimiter = true →
      gap = [] ∨ delimiter ≠ '#' → Valid (.worded operator gap delimiter)

end Head

theorem scan_of_head {head : Head} (valid : head.Valid) (body : Text) :
    scan (head.text ++ body) =
      delimited (head.text ++ body) head.lead head.delimiter body head.isModifier := by
  cases valid with
  | @mark quote marks =>
      have isMark : isMark quote = true := by rcases marks with rfl | rfl <;> decide
      have opened : opening? (quote :: body) = some (.mark quote body) := by
        simp [opening?, isMark]
      have noModifier : (Head.mark quote).isModifier = fun _ => false := by
        funext c
        rfl
      rw [noModifier]
      simp [scan, Head.text, Head.lead, Head.delimiter, opened, marks]
  | @worded operator gap delimiter accepted inline delimits placed =>
      have opened := opening?_of_operator accepted inline delimits placed body
      have whole : (Head.worded operator gap delimiter).text ++ body =
          operator.spelling ++ (gap ++ delimiter :: body) := by
        simp [Head.text, Head.lead, Head.delimiter]
      rw [whole, scan, opened]
      simp only [accepted, if_true]
      rfl

/-- A quote that is not closed begins with a head. -/
theorem exists_head_of_unbalanced {text : Text} {fault : Fault}
    (failed : (scan text).result = .error fault) (unbalanced : fault.cause.category = .unbalanced) :
    ∃ (head : Head) (body : Text), head.Valid ∧ text = head.text ++ body := by
  unfold scan at failed
  split at failed
  · cases failed
  · cases failed
    cases unbalanced
  · rename_i quote body found
    split at failed
    · rename_i marks
      exact ⟨.mark quote, body, .mark marks, (opening?_mark found).symm⟩
    · cases failed
      cases unbalanced
  · rename_i operator gap delimiter body found
    split at failed
    · rename_i accepted
      obtain ⟨behind, opened⟩ := exists_behind_of_opening? found
      obtain ⟨gapCut, delimits, placed⟩ := Delimiter.behind?_eq_some_iff.1 opened
      obtain ⟨-, inline, -⟩ := cut_eq_iff.1 gapCut
      refine ⟨.worded operator gap delimiter, body, .worded accepted inline delimits placed, ?_⟩
      simpa [Head.text, Head.lead, Head.delimiter] using (opening?_operator found).symm
    · cases failed
      cases unbalanced

/-! ## Literals -/

/-- The parts of a literal.  The closing delimiter stands between body and modifiers. -/
structure Form where
  head : Head
  body : Text
  modifiers : Text
  deriving DecidableEq, Repr

namespace Form

def text (form : Form) : Text :=
  form.head.text ++ form.body ++ [Delimiter.closer form.head.delimiter] ++ form.modifiers

structure Valid (form : Form) : Prop where
  head : form.head.Valid
  plain : form.head.delimiter ≠ backslash
  body : Delimiter.IsBody form.head.delimiter (Delimiter.closer form.head.delimiter) form.body
  modifiers : form.modifiers.all form.head.isModifier = true

end Form

/-- A literal is read whole before any text that goes on with no modifier of it. -/
theorem scan_of_form {form : Form} (valid : form.Valid) {following : Text}
    (stops : Stops form.head.isModifier following) :
    scan (form.text ++ following) = .present form.text following := by
  have whole : form.text ++ following = form.head.text ++
      (form.body ++ Delimiter.closer form.head.delimiter :: (form.modifiers ++ following)) := by
    simp [Form.text]
  rw [whole, scan_of_head valid.head, delimited_eq_present_iff]
  refine ⟨form.body ++ [Delimiter.closer form.head.delimiter], form.modifiers, ?_,
    Delimiter.close_of_isBody valid.body valid.plain _, valid.modifiers, stops⟩
  simp [Form.text, Head.text]

theorem exists_form_of_isQuote {literal : Text} (h : IsQuote literal) :
    ∃ form : Form, form.Valid ∧ form.text = literal := by
  cases h with
  | @mark quote inside marks closed =>
      obtain ⟨plain, body, isBody, rfl⟩ := Delimiter.exists_body_of_close closed
      exact ⟨⟨.mark quote, body, []⟩, ⟨.mark marks, plain, isBody, rfl⟩,
        by simp [Form.text, Head.text, Head.lead, Head.delimiter]⟩
  | @operator operator gap inside modifiers delimiter accepted inline delimits placed closed all =>
      obtain ⟨plain, body, isBody, rfl⟩ := Delimiter.exists_body_of_close closed
      exact ⟨⟨.worded operator gap delimiter, body, modifiers⟩,
        ⟨.worded accepted inline delimits placed, plain, isBody, all⟩,
        by simp [Form.text, Head.text, Head.lead, Head.delimiter]⟩

/-! ## Quotes that stay open -/

theorem close_take_of_unclosed {delimiter : Char} {body : Text} {depth : Nat}
    (h : Delimiter.close delimiter body = .unclosed depth) (length : Nat) :
    ∃ depth', Delimiter.close delimiter (body.take length) = .unclosed depth' := by
  cases found : Delimiter.close delimiter (body.take length) with
  | unclosed depth' => exact ⟨depth', rfl⟩
  | closed inside rest =>
      have closed := close_local found (rest ++ body.drop length)
      rw [← List.append_assoc, Delimiter.close_append found, List.take_append_drop, h] at closed
      cases closed

section Open

variable {head : Head} {body : Text}

theorem result_of_unclosed (valid : head.Valid) {depth : Nat}
    (unclosed : Delimiter.close head.delimiter body = .unclosed depth) :
    (scan (head.text ++ body)).result = .error ⟨0, .openQuote
      ((head.text ++ body).take previewLength) (Delimiter.closer head.delimiter) depth⟩ := by
  rw [scan_of_head valid, delimited, unclosed]
  rfl

/-- Behind a head only an open quote is a fault. -/
theorem unclosed_of_error (valid : head.Valid) {fault : Fault}
    (failed : (scan (head.text ++ body)).result = .error fault) :
    fault.offset = 0 ∧ ∃ depth, Delimiter.close head.delimiter body = .unclosed depth := by
  rw [scan_of_head valid, delimited] at failed
  split at failed
  · cases failed
  · rename_i depth unclosed
    cases failed
    exact ⟨rfl, depth, unclosed⟩

end Open

/-- **A quote is self-delimiting.**  A literal found at an offset of a source is made of a
head, a body, the closing delimiter and modifiers.  It is found again before any text, unless
it takes modifiers and the text goes on with one.  Where a quote is found unbalanced, it begins
with a head, and it is found unbalanced there in every beginning of the source that holds the
head. -/
theorem scanAt_selfDelimiting (source : Text) (offset : Int) :
    (∀ literal rest, Cursor.scanAt scan source offset = .ok (some literal, rest) →
      ∃ form : Form, form.Valid ∧ form.text = literal ∧ ∀ following,
        (form.head.isPattern = true → Stops isPatternModifier following) →
          Cursor.scanAt scan (literal ++ following) 0 = .ok (some literal, following)) ∧
    ∀ fault, Cursor.scanAt scan source offset = .error (.fault fault) →
      fault.cause.category = .unbalanced →
      (∃ head : Head, head.Valid ∧ head.text <+: source.drop offset.toNat) ∧
      ∀ head : Head, head.Valid → head.text <+: source.drop offset.toNat →
        ∀ length, offset.toNat + head.text.length ≤ length →
          ∃ fault', Cursor.scanAt scan (source.take length) offset = .error (.fault fault') ∧
            fault'.cause.category = .unbalanced ∧ fault'.offset = fault.offset := by
  constructor
  · intro literal rest found
    obtain ⟨before, text, rfl, rfl, present⟩ :=
      (Cursor.scanAt_eq_some_iff Grammar.decides_quote).1 found
    obtain ⟨form, valid, rfl⟩ := exists_form_of_isQuote (isQuote_of_scan present)
    refine ⟨form, valid, rfl, fun following stops => ?_⟩
    have ends : Stops form.head.isModifier following := by
      intro c first
      cases pattern : form.head.isPattern with
      | false => simp [Head.isModifier, pattern]
      | true => simpa [Head.isModifier, pattern] using stops pattern c first
    exact (Cursor.scanAt_zero_iff Grammar.decides_quote).2 (scan_of_form valid ends)
  · intro fault failed unbalanced
    obtain ⟨before, text, inner, rfl, rfl, found, rfl⟩ := Cursor.scanAt_eq_fault_iff.1 failed
    simp only [Int.toNat_natCast, List.drop_left]
    constructor
    · obtain ⟨head, body, valid, rfl⟩ := exists_head_of_unbalanced found unbalanced
      exact ⟨head, valid, List.prefix_append ..⟩
    · rintro head valid ⟨body, rfl⟩ length inside
      obtain ⟨here, depth, unclosed⟩ := unclosed_of_error valid found
      obtain ⟨depth', stillOpen⟩ :=
        close_take_of_unclosed unclosed (length - before.length - head.text.length)
      refine ⟨_, Cursor.scanAt_eq_fault_iff.2 ⟨before, _, _, ?_, rfl,
        result_of_unclosed valid stillOpen, rfl⟩, rfl, by simp [here]⟩
      rw [take_append_of_length_le (by omega), take_append_of_length_le (by omega)]

/-- A pattern in nested brackets, before text that would close a quote; and a quote that is
open in a source and in a beginning of it that holds little more than its head. -/
theorem scanAt_selfDelimiting_nested :
    Cursor.scanAt scan "= qr (a(\\)b)c)ix, 1".toList 2 =
        .ok (some "qr (a(\\)b)c)ix".toList, ", 1".toList) ∧
      Cursor.scanAt scan "qr (a(\\)b)c)ix) ')".toList 0 =
        .ok (some "qr (a(\\)b)c)ix".toList, ") ')".toList) ∧
      Cursor.scanAt scan "= q (a(b) c".toList 2 =
        .error (.fault ⟨2, .openQuote "q (a(b) c".toList ')' 1⟩) ∧
      ∃ fault, Cursor.scanAt scan "= q (a(".toList 2 = .error (.fault fault) ∧
        fault.cause.category = .unbalanced ∧ fault.offset = 2 := by
  have found : Cursor.scanAt scan "= qr (a(\\)b)c)ix, 1".toList 2 =
      .ok (some "qr (a(\\)b)c)ix".toList, ", 1".toList) := by decide +kernel
  have failed : Cursor.scanAt scan "= q (a(b) c".toList 2 =
      .error (.fault ⟨2, .openQuote "q (a(b) c".toList ')' 1⟩) := by decide +kernel
  obtain ⟨form, -, -, again⟩ := (scanAt_selfDelimiting _ _).1 _ _ found
  have head : (Head.worded .q [' '] '(').Valid :=
    .worded rfl rfl (by decide +kernel) (.inr (by decide))
  have stillFailed := ((scanAt_selfDelimiting _ _).2 _ failed rfl).2 _ head
    ⟨"a(b) c".toList, rfl⟩ 7 (by decide)
  exact ⟨found, again _ fun _ => by decide +kernel, failed, stillFailed⟩

end MethodSignature.Quote
