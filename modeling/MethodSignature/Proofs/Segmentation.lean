/-
# MethodSignature.Proofs.Segmentation -- the tokens of a text are its segments

Where a whole text is made of tokens, they cut it into segments: one after the other they
are the text, each at its offset, the end of the input last (`segmentation_of_tokenize`).
Line breaks stand in tokens of their own, and two of these never meet, since blank lines and
lines with a comment fold into one.  Every other token but the end of the input is its
significant text with inline blanks around it.

What one token is, is read off the scan that shows it (`Cursor.Shows.isSegment`), and that no
two runs of line ends meet, off the scans of both (`Cursor.Shows.not_newline_twice`).  The rest
is induction over the tokens that a cursor gives.
-/
import Mathlib.Algebra.BigOperators.Group.List.Basic
import MethodSignature.Proofs.Located
import MethodSignature.Proofs.Lookahead
import MethodSignature.Proofs.Value

namespace MethodSignature

set_option autoImplicit false

open Text

/-! ## Texts with and without line breaks -/

theorem any_isLineBreak_of_isInline {text : Text} (h : IsInline text) :
    text.any isLineBreak = false := by
  rw [List.any_eq_false]
  intro c member
  have inline := List.all_eq_true.1 h c member
  simp only [isInlineBlank, Bool.and_eq_true, Bool.not_eq_true'] at inline
  simp [inline.2]

theorem any_isLineBreak_of_isSpent {text : Text} (h : IsSpent text) :
    text.any isLineBreak = false := by
  obtain ⟨blanks, comment, rfl, inline, isComment⟩ := h
  rw [List.any_append, any_isLineBreak_of_isInline inline, Bool.false_or]
  rcases isComment with rfl | ⟨words, rfl, inLine⟩
  · rfl
  · rw [List.any_cons, List.any_eq_not_all_not, inLine]
    rfl

theorem any_isLineBreak_form {kind : Token.Kind} {literal : Text} (h : Token.Form kind literal) :
    literal.any isLineBreak = false := by
  rw [List.any_eq_false]
  intro c member broken
  have solid := List.all_eq_true.1 (Grammar.all_isSolid_form h).2 c member
  simp [Grammar.isSolid, isBlank_of_isLineBreak broken] at solid

theorem Layout.IsLineEnds.any_isLineBreak {run : Text} (h : IsLineEnds run) :
    run.any isLineBreak = true := by
  obtain ⟨lineEnd, rest, rfl, ⟨-, -, isLineBreak⟩, -⟩ := isLineEnds_iff.1 h
  rcases isLineBreak with rfl | rfl | rfl <;> simp [Text.isLineBreak]

/-! ## One token -/

/-- What a token was written as: line breaks are tokens of their own, and blanks stand
around every other one. -/
structure Token.IsSegment (token : Token) : Prop where
  nonempty : token.kind ≠ .endOfInput → token.written ≠ []
  breaks : token.kind = .newline ↔ token.written.any isLineBreak = true
  spaced : token.kind ≠ .newline → token.kind ≠ .endOfInput →
    ∃ before behind, IsInline before ∧ IsInline behind ∧
      token.written = before ++ token.literal ++ behind

theorem Cursor.Shows.isSegment {cursor next : Cursor} {token : Token}
    (shows : cursor.Shows token next) : token.IsSegment := by
  have nonempty := Token.taken_ne_nil shows.scanned
  rcases Token.scan_sound shows.scanned with ⟨newline, found⟩ | ⟨ended, isFinal⟩ |
    ⟨form, before, behind, inline, inline', whole, -⟩
  · have broken := (Layout.isLineEnds_of_lineEnds? found).1.any_isLineBreak
    exact ⟨nonempty, by simp [newline, broken], fun other => absurd newline other⟩
  · have none : next.rest = [] := Token.rest_of_endOfInput (ended ▸ shows.scanned)
    have written := shows.whole
    rw [none, List.append_nil] at written
    rw [written] at isFinal
    have unbroken := any_isLineBreak_of_isSpent (isSpent_of_isFinal isFinal)
    exact ⟨nonempty, by simp [ended, unbroken], fun _ other => absurd ended other⟩
  · rw [shows.whole, List.append_cancel_right_eq] at whole
    have unbroken : token.written.any isLineBreak = false := by
      rw [whole, List.any_append, List.any_append, any_isLineBreak_of_isInline inline,
        any_isLineBreak_form form, any_isLineBreak_of_isInline inline']
      rfl
    exact ⟨nonempty, by simp [form.kind_ne.1, unbroken],
      fun _ _ => ⟨before, behind, inline, inline', whole⟩⟩

theorem Cursor.Shows.lineEnds? {cursor next : Cursor} {token : Token}
    (shows : cursor.Shows token next) (newline : token.kind = .newline) :
    Layout.lineEnds? cursor.rest = some (token.written, next.rest) := by
  rcases Token.scan_sound shows.scanned with ⟨-, found⟩ | ⟨ended, -⟩ | ⟨form, -⟩
  · exact found
  · rw [newline] at ended
    cases ended
  · exact absurd newline form.kind_ne.1

/-- Behind a run of line ends no other run is read. -/
theorem Cursor.Shows.not_newline_twice {cursor between next : Cursor} {token second : Token}
    (shows : cursor.Shows token between) (newline : token.kind = .newline)
    (shows' : between.Shows second next) : second.kind ≠ .newline := by
  intro again
  have folded := Layout.lineEnd?_behind (shows.lineEnds? newline)
  have found := shows'.lineEnds? again
  rw [Layout.lineEnds?_eq_none_iff.2 folded] at found
  cases found

/-! ## All tokens -/

/-- The tokens cut the source into segments, the end of the input last. -/
structure Token.Segmentation (source : Text) (tokens : List Token) : Prop where
  whole : tokens.flatMap Token.written = source
  offset : ∀ front token back, tokens = front ++ token :: back →
    token.offset = (front.flatMap Token.written).length
  ended : ∃ front last, tokens = front ++ [last] ∧ last.kind = .endOfInput ∧
    ∀ token ∈ front, token.kind ≠ .endOfInput
  segments : ∀ token ∈ tokens, token.IsSegment
  folded : tokens.IsChain fun token next => token.kind = .newline → next.kind ≠ .newline

/-- Each token but the last takes a character at least. -/
theorem Token.Segmentation.length_le {source : Text} {tokens : List Token}
    (h : Segmentation source tokens) : tokens.length ≤ source.length + 1 := by
  obtain ⟨front, last, rfl, -, others⟩ := h.ended
  have nonempty : ∀ size ∈ front.map fun token => token.written.length, 1 ≤ size := by
    intro size member
    obtain ⟨token, inFront, rfl⟩ := List.mem_map.1 member
    have segment := h.segments token (List.mem_append_left _ inFront)
    exact List.length_pos_iff.2 (segment.nonempty (others token inFront))
  have taken := List.length_le_sum_of_one_le _ nonempty
  rw [List.length_map, ← List.length_flatMap] at taken
  rw [← h.whole, List.flatMap_append, List.length_append, List.length_append]
  simp only [List.length_singleton]
  omega

namespace Cursor.Yields

variable {cursor : Cursor} {tokens : List Token}

theorem offset_eq (h : cursor.Yields tokens) {front back : List Token} {token : Token}
    (place : tokens = front ++ token :: back) :
    token.offset = cursor.offset + (front.flatMap Token.written).length := by
  induction h generalizing front with
  | @last cursor next first shows _ =>
      cases front with
      | nil =>
          cases place
          exact shows.offset
      | cons other front => simp at place
  | @more cursor next first tokens shows _ _ ih =>
      cases front with
      | nil =>
          cases place
          exact shows.offset
      | cons other front =>
          cases place
          rw [ih rfl, List.flatMap_cons, List.length_append]
          show next.before.length + _ = cursor.before.length + _
          rw [shows.before, List.length_append]
          omega

theorem exists_last (h : cursor.Yields tokens) :
    ∃ front last, tokens = front ++ [last] ∧ last.kind = .endOfInput ∧
      ∀ token ∈ front, token.kind ≠ .endOfInput := by
  induction h with
  | last _ ended => exact ⟨[], _, rfl, ended, nofun⟩
  | more _ going _ ih =>
      obtain ⟨front, last, rfl, ended, others⟩ := ih
      exact ⟨_ :: front, last, rfl, ended, List.forall_mem_cons.2 ⟨going, others⟩⟩

theorem isSegment (h : cursor.Yields tokens) : ∀ token ∈ tokens, token.IsSegment := by
  induction h with
  | last shows _ => exact List.forall_mem_singleton.2 shows.isSegment
  | more shows _ _ ih => exact List.forall_mem_cons.2 ⟨shows.isSegment, ih⟩

theorem folded (h : cursor.Yields tokens) :
    tokens.IsChain fun token next => token.kind = .newline → next.kind ≠ .newline := by
  induction h with
  | last => exact .singleton _
  | more shows _ yields ih =>
      cases yields with
      | last shows' _ | more shows' _ _ =>
          exact .cons_cons (fun newline => shows.not_newline_twice newline shows') ih

theorem segmentation {source : Text} (h : (start source).Yields tokens) :
    Token.Segmentation source tokens where
  whole := h.text
  offset front token back place := by simpa [start, offset] using h.offset_eq place
  ended := h.exists_last
  segments := h.isSegment
  folded := h.folded

end Cursor.Yields

/-- **The tokens of a text are its segments**, and there is at most one more of them than
there are characters. -/
theorem Lexer.segmentation_of_tokenize {source : Text} {tokens : List Token}
    (h : tokenize source = .ok tokens) :
    Token.Segmentation source tokens ∧ tokens.length ≤ source.length + 1 := by
  have segmentation := (yields_of_tokenize h).segmentation
  exact ⟨segmentation, segmentation.length_le⟩

/-- A comment line, an empty one and a lone carriage return fold into one token, and the next
line character is a blank like any other. -/
theorem Lexer.segmentation_of_tokenize_folded_lines :
    let source := "Foo\u0085| # a\r\n\n\t# b\r$x #c".toList
    let tokens : List Token := [⟨.typeName, "Foo".toList, "Foo\u0085".toList, 0⟩,
      ⟨.pipe, "|".toList, "| ".toList, 4⟩,
      ⟨.newline, "# a\r\n\n\t# b\r".toList, "# a\r\n\n\t# b\r".toList, 6⟩,
      ⟨.variableName, "$x".toList, "$x ".toList, 17⟩, ⟨.endOfInput, [], "#c".toList, 20⟩]
    tokenize source = .ok tokens ∧ Token.Segmentation source tokens ∧
      tokens.length ≤ source.length + 1 := by
  intro source tokens
  have tokenized : tokenize source = .ok tokens := eq_ok_of_toOption (by decide +kernel)
  exact ⟨tokenized, segmentation_of_tokenize tokenized⟩

end MethodSignature
