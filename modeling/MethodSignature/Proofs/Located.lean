/-
# MethodSignature.Proofs.Located -- where the faults of a text lie

A fault is placed in the text it is a fault of, and some causes say what stands there:
`Cause.Describes` says it of the text from the fault on.  The end of the input is blank but
for a comment; a character that begins no token is one that could; and what was left open
has been opened, as often as the depth says.

Every scanner places its faults so (`Sound`).  Only the scans for tokens, quotes and blocks
have any.
-/
import MethodSignature.Literal.Block
import MethodSignature.Literal.Number
import MethodSignature.Literal.Quote
import MethodSignature.Proofs.Delimiter
import MethodSignature.Proofs.Token
import MethodSignature.Reading

namespace MethodSignature

set_option autoImplicit false

open Text

/-! ## What a cause says -/

/-- Inline blanks and at most one comment. -/
def IsSpent (text : Text) : Prop :=
  ∃ blanks comment, text = blanks ++ comment ∧ IsInline blanks ∧ Layout.IsComment comment

/-- The text begins with a character that is neither blank nor begins a comment. -/
def BeginsSolid (text : Text) : Prop :=
  ∃ c rest, text = c :: rest ∧ isBlank c = false ∧ c ≠ '#'

/-- The delimiter of the quote that a text begins with. -/
def Quote.delimiter? (text : Text) : Option Char :=
  match opening? text with
  | some (.mark quote _) => some quote
  | some (.operator _ _ delimiter _) => some delimiter
  | _ => none

/-- What a cause says of the text from the fault on. -/
def Cause.Describes : Cause → Text → Prop
  | .inputExhausted, text | .inputEnded _, text => IsSpent text
  | .unrecognized _, text | .destructuring _, text | .bareBlock _, text => BeginsSolid text
  | .openTypeBrackets _ depth, _ | .openBlock _ depth, _ => 1 ≤ depth
  | .openQuote _ _ depth, text =>
      ∃ delimiter, Quote.delimiter? text = some delimiter ∧
        if delimiter ∈ ['(', '[', '{', '<'] then 1 ≤ depth else depth = 0
  | _, _ => True

/-- The fault lies in the text, and the text there is as its cause says. -/
structure Fault.In (text : Text) (fault : Fault) : Prop where
  inside : fault.offset ≤ text.length
  describes : fault.cause.Describes (text.drop fault.offset)

theorem Fault.In.shift {text : Text} {fault : Fault} (h : fault.In text) (lead : Text) :
    (fault.shift lead.length).In (lead ++ text) := by
  obtain ⟨inside, describes⟩ := h
  refine ⟨?_, ?_⟩
  · rw [shift_offset, List.length_append]
    omega
  · rw [shift_offset, shift_cause, List.drop_length_add_append]
    exact describes

theorem Fault.in_zero {text : Text} {cause : Cause} (describes : cause.Describes text) :
    (⟨0, cause⟩ : Fault).In text :=
  ⟨Nat.zero_le _, describes⟩

namespace Scan

variable {α β : Type}

/-- Nothing is lost, and a fault lies in the text. -/
structure Sound (scan : Scan α) (text : Text) : Prop where
  covers : scan.Covers text
  faults : ∀ fault, scan.result = .error fault → fault.In text

theorem Sound.after {scan : Scan α} {text : Text} (h : scan.Sound text) (lead : Text) :
    (scan.after lead).Sound (lead ++ text) := by
  refine ⟨covers_after lead h.covers, ?_⟩
  intro fault failed
  obtain ⟨taken, rest, result⟩ := scan
  cases result with
  | ok value => cases failed
  | error found =>
      cases failed
      exact (h.faults found rfl).shift lead

theorem Sound.map {scan : Scan α} {text : Text} (h : scan.Sound text) (f : α → β) :
    (scan.map f).Sound text := by
  refine ⟨covers_map f h.covers, ?_⟩
  intro fault failed
  obtain ⟨taken, rest, result⟩ := scan
  cases result with
  | ok value => cases failed
  | error found =>
      cases failed
      exact h.faults _ rfl

theorem sound_fail {text : Text} {cause : Cause} (describes : cause.Describes text) :
    (fail text cause : Scan α).Sound text := by
  refine ⟨covers_fail text cause, ?_⟩
  rintro fault ⟨⟩
  exact Fault.in_zero describes

theorem sound_ok {taken rest text : Text} {value : α} (covers : taken ++ rest = text) :
    (⟨taken, rest, .ok value⟩ : Scan α).Sound text :=
  ⟨covers, nofun⟩

end Scan

/-! ## Type constraints -/

theorem TypeConstraint.sound_extendFrom (fuel : Nat) (constraint : Text) (depth : Nat)
    (text : Text) : (extendFrom fuel constraint depth text).Sound text := by
  have finished : ∀ constraint depth text, (finish constraint depth text).Sound text := by
    intro constraint depth text
    unfold finish
    by_cases closed : depth = 0
    · rw [if_pos closed]
      exact Scan.sound_ok rfl
    · rw [if_neg closed]
      exact Scan.sound_fail (Nat.one_le_iff_ne_zero.2 closed)
  -- a symbol that cannot stand there, or a name missing behind it, is inside the text
  have refused : ∀ (symbol : Char) (rest : Text) (offset : Nat) (cause : Cause), offset ≤ 1 →
      (∀ text, cause.Describes text) →
      (⟨[symbol], rest, .error ⟨offset, cause⟩⟩ : Scan Text).Sound (symbol :: rest) := by
    intro symbol rest offset cause near describes
    refine ⟨rfl, ?_⟩
    rintro fault ⟨⟩
    refine ⟨?_, describes _⟩
    show offset ≤ rest.length + 1
    omega
  fun_induction extendFrom fuel constraint depth text with
  | case1 => exact finished ..
  | case2 => exact finished ..
  | case3 => exact finished ..
  | case4 => exact refused _ _ 0 _ (by omega) fun _ => trivial
  | case5 fuel constraint rest depth _ ih => exact ih.after [_]
  | case6 => exact refused _ _ 0 _ (by omega) fun _ => trivial
  | case7 => exact refused _ _ 1 _ (by omega) fun _ => trivial
  | case8 fuel constraint depth symbol rest _ _ _ name rest' found depth' ih =>
      have whole := name?_append found
      have sound := ih.after (symbol :: name)
      simpa [whole] using sound

/-! ## Tokens -/

theorem Token.sound_lexeme? {text : Text} {scan : Scan (Kind × Text)} (h : lexeme? text = some scan) :
    scan.Sound text := by
  have covers := covers_lexeme? h
  unfold lexeme? at h
  split at h
  · cases h
  · split at h
    · cases h
      exact Scan.sound_ok rfl
    · split at h
      · rename_i found
        have whole := TypeConstraint.name?_append found
        split at h
        · cases h
          exact Scan.sound_ok whole
        · cases h
          rw [← whole]
          exact ((TypeConstraint.sound_extendFrom ..).after _).map _
      · simp only [Option.map_eq_some_iff] at h
        obtain ⟨⟨name, tail⟩, found, rfl⟩ := h
        exact Scan.sound_ok covers

theorem Token.sound_withBlanks {α : Type} {scan : Scan α} {text : Text} (h : scan.Sound text) :
    (withBlanks scan).Sound text := by
  refine ⟨covers_withBlanks h.covers, ?_⟩
  intro fault failed
  unfold withBlanks at failed
  split at failed
  · cases failed
  · exact h.faults fault failed

/-- A text that is final is spent. -/
theorem isSpent_of_isFinal {text : Text} (h : Layout.isFinal text = true) : IsSpent text := by
  obtain ⟨blanks, inline, whole, -⟩ := exists_trim text
  have words := Layout.comment_append (trim text)
  have none : (Layout.comment (trim text)).2 = [] := by simpa [Layout.isFinal, trim] using h
  rw [none, List.append_nil] at words
  refine ⟨blanks, trim text, whole, inline, ?_⟩
  rw [← words]
  exact Layout.isComment_comment _

/-- Where neither a line nor the input ends, a solid character stands behind the blanks. -/
theorem beginsSolid_trim {text : Text} (noEnd : Layout.lineEnds? text = none)
    (notFinal : Layout.isFinal text = false) : BeginsSolid (trim text) := by
  obtain ⟨blanks, inline, whole, stops⟩ := exists_trim text
  have words := Layout.comment_append (trim text)
  -- what stands behind an optional comment is more, and begins no line break
  have noBreak : Stops isLineBreak (Layout.comment (trim text)).2 := by
    cases behind : (Layout.comment (trim text)).2 with
    | nil => exact stops_nil _
    | cons c rest =>
        rw [stops_cons, ← Bool.not_eq_true]
        intro broken
        have isLineEnd : Layout.IsLineEnd (blanks ++ (Layout.comment (trim text)).1 ++ [c]) :=
          .mk inline (Layout.isComment_comment _) (Layout.isLineBreak_singleton broken)
        have found := Layout.lineEnd?_ne_none isLineEnd rest
        rw [List.append_assoc, List.append_assoc, List.singleton_append, ← behind, words,
          ← whole] at found
        exact found (Layout.lineEnds?_eq_none_iff.1 noEnd)
  have more : (Layout.comment (trim text)).2 ≠ [] := by simpa [Layout.isFinal, trim] using notFinal
  cases body : trim text with
  | nil => simp [body, Layout.comment] at more
  | cons c rest =>
      rw [body] at stops noBreak more
      rw [stops_cons] at stops
      by_cases comments : c = '#'
      · subst comments
        have ended := stops_cut (fun c => !isLineBreak c) rest
        simp only [Layout.comment] at noBreak more
        obtain ⟨d, behind, same⟩ := List.exists_cons_of_ne_nil more
        rw [same, stops_cons] at noBreak ended
        simp [noBreak] at ended
      · rw [Layout.comment_cons comments, stops_cons] at noBreak
        refine ⟨c, rest, rfl, ?_, comments⟩
        rw [← Bool.not_eq_true, isBlank_iff, stops, noBreak]
        decide

theorem Token.sound_scan (text : Text) : (scan text).Sound text := by
  have covers := covers_scan text
  unfold scan at covers ⊢
  split
  · rename_i found
    exact Scan.sound_ok (Layout.lineEnds?_append found)
  · rename_i noEnd
    split
    · exact Scan.sound_ok (List.append_nil text)
    · rename_i notFinal
      have solid := beginsSolid_trim noEnd (Bool.not_eq_true _ ▸ notFinal)
      obtain ⟨blanks, inline, whole, stops⟩ := exists_trim text
      have front : cut isInlineBlank text = (blanks, trim text) :=
        cut_eq_iff.2 ⟨whole, inline, stops⟩
      simp only [front] at covers ⊢
      split
      · rename_i found
        have sound := (sound_withBlanks (sound_lexeme? found)).after blanks
        rwa [← whole] at sound
      · -- the fault lies behind the blanks, though nothing is taken
        refine ⟨rfl, ?_⟩
        rintro fault ⟨⟩
        have describes : (unrecognized (trim text)).Describes (trim text) := by
          unfold unrecognized
          split <;> exact solid
        have shifted := (Fault.in_zero describes).shift blanks
        rwa [← whole] at shifted

/-! ## Literals -/

theorem Closing.after_eq_unclosed {lead : Text} {closing : Closing} {depth : Nat}
    (h : closing.after lead = .unclosed depth) : closing = .unclosed depth := by
  cases closing with
  | closed taken rest => cases h
  | unclosed found => exact h

theorem Delimiter.depth_of_closeFrom {opening closing : Char} {inner depth : Nat} {text : Text}
    (h : closeFrom opening closing inner text = .unclosed depth) : 1 ≤ depth := by
  fun_induction closeFrom opening closing inner text with
  | case1 => cases h; omega
  | case2 => cases h; omega
  | case3 inner escaped tail ih => exact ih (Closing.after_eq_unclosed h)
  | case4 => cases h
  | case5 tail inner _ ih => exact ih (Closing.after_eq_unclosed h)
  | case6 inner tail _ _ ih => exact ih (Closing.after_eq_unclosed h)
  | case7 inner c tail _ _ _ ih => exact ih (Closing.after_eq_unclosed h)

/-- A bracket left open counts, any other delimiter does not. -/
theorem Delimiter.depth_of_close {delimiter : Char} {body : Text} {depth : Nat}
    (h : close delimiter body = .unclosed depth) :
    if delimiter ∈ ['(', '[', '{', '<'] then 1 ≤ depth else depth = 0 := by
  have brackets : delimiter ∈ ['(', '[', '{', '<'] ↔ nests delimiter = true := by
    constructor
    · intro member
      simp only [List.mem_cons, List.not_mem_nil, or_false] at member
      rcases member with rfl | rfl | rfl | rfl <;> decide
    · intro nesting
      rcases nests_cases nesting with rfl | rfl | rfl | rfl <;> decide
  unfold close at h
  split at h
  · cases h
  · rename_i found
    simp only [Closing.unclosed.injEq] at h
    subst h
    by_cases nesting : nests delimiter = true
    · rw [if_pos (brackets.2 nesting), if_pos nesting]
      exact depth_of_closeFrom found
    · rw [if_neg (mt brackets.1 nesting), if_neg nesting]

theorem Quote.sound_delimited {text lead body : Text} {delimiter : Char} {isModifier : Char → Bool}
    (whole : lead ++ delimiter :: body = text) (opened : delimiter? text = some delimiter) :
    (delimited text lead delimiter body isModifier).Sound text := by
  have covers : (delimited text lead delimiter body isModifier).Covers text :=
    covers_delimited whole
  unfold delimited at covers ⊢
  split at covers
  · exact Scan.sound_ok covers
  · rename_i unclosed
    exact Scan.sound_fail ⟨delimiter, opened, Delimiter.depth_of_close unclosed⟩

theorem Quote.sound_scan (text : Text) : (scan text).Sound text := by
  unfold scan
  split
  · exact Scan.sound_ok rfl
  · exact Scan.sound_fail trivial
  · rename_i found
    split
    · exact sound_delimited (opening?_mark found) (by rw [delimiter?, found])
    · exact Scan.sound_fail trivial
  · rename_i found
    split
    · exact sound_delimited (opening?_operator found) (by rw [delimiter?, found])
    · exact Scan.sound_fail trivial

theorem Block.depth_of_closeFrom {fuel : Nat} {context : Context} {inner depth : Nat} {text : Text}
    (h : closeFrom fuel context inner text = .unclosed depth) : 1 ≤ depth := by
  fun_induction closeFrom fuel context inner text with
  | case1 => cases h; omega
  | case2 => cases h; omega
  | case3 => cases h; omega
  | case4 fuel context inner escaped tail ih => exact ih (Closing.after_eq_unclosed h)
  | case5 fuel context inner c tail _ literal tail' _ ih => exact ih (Closing.after_eq_unclosed h)
  | case6 fuel context inner tail _ _ ih => exact ih (Closing.after_eq_unclosed h)
  | case7 => cases h
  | case8 fuel context tail inner _ _ _ ih => exact ih (Closing.after_eq_unclosed h)
  | case9 fuel context inner c tail _ _ _ _ ih => exact ih (Closing.after_eq_unclosed h)

theorem Block.sound_scan (text : Text) : (scan text).Sound text := by
  have covers := covers_scan text
  unfold scan at covers ⊢
  split at covers
  · split at covers
    · exact Scan.sound_ok covers
    · rename_i unclosed
      exact Scan.sound_fail (depth_of_closeFrom unclosed)
  · exact Scan.sound_ok covers

theorem Number.sound_scan (text : Text) : (scan text).Sound text := by
  have covers := covers_scan text
  unfold scan at covers ⊢
  cases found : read? text with
  | none => exact Scan.sound_ok rfl
  | some parts =>
      rw [found] at covers
      exact Scan.sound_ok covers

theorem Reading.sound_blanks (text : Text) : (blanks text).Sound text :=
  Scan.sound_ok (cut_append isBlank text)

end MethodSignature
