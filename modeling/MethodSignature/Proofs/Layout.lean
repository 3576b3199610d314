/-
# MethodSignature.Proofs.Layout -- the shape of line ends

`IsLineEnds` says what a run of line ends looks like: one line end or more, each with
the blanks and the comment before it, and the blanks that begin the line behind.  A run
that is taken has this shape, and the text behind it begins with no inline blank.

Blanks in front of a run are taken along with it and change nothing else
(`lineEnds?_append_blanks`).  Any text of this shape is taken as one run where no further
line end stands behind it (`lineEnds?_append_iff`), though it may be taken in other steps
than it was put together in: a carriage return and a line feed are one line break.
-/
import MethodSignature.Layout
import MethodSignature.Proofs.Cut

namespace MethodSignature.Layout

set_option autoImplicit false

open Text

def IsLineBreak (text : Text) : Prop := text = ['\r', '\n'] ∨ text = ['\r'] ∨ text = ['\n']

/-- Nothing, or a comment up to the end of its line. -/
def IsComment (text : Text) : Prop :=
  text = [] ∨ ∃ words, text = '#' :: words ∧ words.all (fun c => !isLineBreak c) = true

inductive IsLineEnd : Text → Prop
  | mk {blanks comment lineBreak : Text} : IsInline blanks → IsComment comment →
      IsLineBreak lineBreak → IsLineEnd (blanks ++ comment ++ lineBreak)

inductive IsLineEnds : Text → Prop
  | last {lineEnd blanks : Text} : IsLineEnd lineEnd → IsInline blanks →
      IsLineEnds (lineEnd ++ blanks)
  | more {lineEnd rest : Text} : IsLineEnd lineEnd → IsLineEnds rest → IsLineEnds (lineEnd ++ rest)

/-! ## What is taken is a run of line ends -/

theorem isComment_comment (text : Text) : IsComment (comment text).1 := by
  unfold comment
  split
  · rename_i rest
    exact .inr ⟨_, rfl, List.all_takeWhile⟩
  · exact .inl rfl

theorem isLineBreak_of_lineBreak? {text taken rest : Text}
    (h : lineBreak? text = some (taken, rest)) : IsLineBreak taken := by
  unfold lineBreak? at h
  split at h <;> cases h <;> simp [IsLineBreak]

theorem isLineEnd_of_lineEnd? {text taken rest : Text} (h : lineEnd? text = some (taken, rest)) :
    IsLineEnd taken := by
  simp only [lineEnd?, Option.map_eq_some_iff, Prod.mk.injEq] at h
  obtain ⟨⟨lineBreak, tail⟩, found, rfl, rfl⟩ := h
  exact .mk List.all_takeWhile (isComment_comment _) (isLineBreak_of_lineBreak? found)

theorem isLineEnds_lineEnds {first blanks : Text} (isFirst : IsLineEnd first)
    (inline : IsInline blanks) (fuel : Nat) (text : Text) :
    IsLineEnds (first ++ ((lineEnds fuel text).1 ++ blanks)) := by
  fun_induction lineEnds fuel text generalizing first with
  | case1 => exact .last isFirst inline
  | case2 => exact .last isFirst inline
  | case3 fuel text taken rest found more rest' read ih =>
      have next := ih (isLineEnd_of_lineEnd? found)
      rw [read] at next
      rw [List.append_assoc]
      exact .more isFirst next

theorem isLineEnds_of_lineEnds? {text taken rest : Text}
    (h : lineEnds? text = some (taken, rest)) : IsLineEnds taken ∧ Stops isInlineBlank rest := by
  unfold lineEnds? at h
  split at h
  · cases h
  · rename_i first tail found
    simp only [Option.some.injEq, Prod.mk.injEq] at h
    obtain ⟨rfl, rfl⟩ := h
    refine ⟨?_, stops_cut isInlineBlank _⟩
    rw [List.append_assoc]
    exact isLineEnds_lineEnds (isLineEnd_of_lineEnd? found) List.all_takeWhile _ _

/-! ## Blanks in front -/

theorem lineEnd?_append_blanks {blanks : Text} (inline : IsInline blanks) (text : Text) :
    lineEnd? (blanks ++ text) = (lineEnd? text).map fun (taken, rest) => (blanks ++ taken, rest) := by
  simp [lineEnd?, cut_append_blanks inline, Function.comp_def]

theorem lineEnds?_append_blanks {blanks : Text} (inline : IsInline blanks) (text : Text) :
    lineEnds? (blanks ++ text) =
      (lineEnds? text).map fun (taken, rest) => (blanks ++ taken, rest) := by
  unfold lineEnds?
  rw [lineEnd?_append_blanks inline]
  cases lineEnd? text with
  | none => rfl
  | some found => simp

theorem isFinal_append_blanks {blanks : Text} (inline : IsInline blanks) (text : Text) :
    isFinal (blanks ++ text) = isFinal text := by
  simp only [isFinal, cut_append_blanks inline]

theorem comment_cons {c : Char} (noComment : c ≠ '#') (rest : Text) :
    comment (c :: rest) = ([], c :: rest) := by
  unfold comment
  split
  · rename_i same
    exact absurd (List.cons.inj same).1 noComment
  · rfl

/-- No line ends before a character that is neither blank nor begins a comment. -/
theorem lineEnd?_cons {c : Char} (solid : isBlank c = false) (noComment : c ≠ '#') (rest : Text) :
    lineEnd? (c :: rest) = none := by
  have noBlank : isInlineBlank c = false := by simp [isInlineBlank, solid]
  have noBreak : c ≠ '\r' ∧ c ≠ '\n' := by
    constructor <;> rintro rfl <;> revert solid <;> decide
  have front : cut isInlineBlank (c :: rest) = ([], c :: rest) := cut_of_stops (by simpa using noBlank)
  have broken : lineBreak? (c :: rest) = none := by
    unfold lineBreak?
    split <;> simp_all
  simp [lineEnd?, front, comment_cons noComment, broken]

theorem lineEnds?_cons {c : Char} (solid : isBlank c = false) (noComment : c ≠ '#') (rest : Text) :
    lineEnds? (c :: rest) = none := by
  simp [lineEnds?, lineEnd?_cons solid noComment]

theorem isFinal_cons {c : Char} (solid : isBlank c = false) (noComment : c ≠ '#') (rest : Text) :
    isFinal (c :: rest) = false := by
  have noBlank : isInlineBlank c = false := by simp [isInlineBlank, solid]
  have front : cut isInlineBlank (c :: rest) = ([], c :: rest) := cut_of_stops (by simpa using noBlank)
  simp [isFinal, front, comment_cons noComment]

/-! ## Every run of line ends is taken -/

theorem comment_of_isComment {text following : Text} (h : IsComment text)
    (breaks : ∃ c rest, following = c :: rest ∧ isLineBreak c = true) :
    comment (text ++ following) = (text, following) := by
  obtain ⟨c, rest, rfl, broken⟩ := breaks
  rcases h with rfl | ⟨words, rfl, inLine⟩
  · apply comment_cons
    rintro rfl
    revert broken
    decide
  · have ended : Stops (fun c => !isLineBreak c) (c :: rest) := by simp [broken]
    simp only [List.cons_append, comment, cut_append_of_all inLine ended]

/-- A carriage return takes a line feed along that stands behind it. -/
theorem lineBreak?_of_isLineBreak {lineBreak : Text} (h : IsLineBreak lineBreak)
    (following : Text) :
    lineBreak? (lineBreak ++ following) = some (lineBreak, following) ∨
      ∃ rest, following = '\n' :: rest ∧
        lineBreak? (lineBreak ++ following) = some (lineBreak ++ ['\n'], rest) := by
  rcases h with rfl | rfl | rfl
  · exact .inl rfl
  · by_cases feeds : ∃ rest, following = '\n' :: rest
    · obtain ⟨rest, rfl⟩ := feeds
      exact .inr ⟨rest, rfl, rfl⟩
    · left
      rw [List.singleton_append, lineBreak?]
      intro rest isFeed
      exact feeds ⟨rest, isFeed⟩
  · exact .inl rfl

theorem IsLineBreak.head {lineBreak : Text} (h : IsLineBreak lineBreak) (following : Text) :
    ∃ c rest, lineBreak ++ following = c :: rest ∧ isLineBreak c = true := by
  rcases h with rfl | rfl | rfl <;> exact ⟨_, _, rfl, by decide⟩

theorem lineEnd?_of_isLineEnd {lineEnd : Text} (h : IsLineEnd lineEnd) (following : Text) :
    lineEnd? (lineEnd ++ following) = some (lineEnd, following) ∨
      ∃ rest, following = '\n' :: rest ∧
        lineEnd? (lineEnd ++ following) = some (lineEnd ++ ['\n'], rest) := by
  cases h with
  | @mk blanks comment lineBreak inline isComment isLineBreak =>
      have breaks := isLineBreak.head following
      have stops : Stops isInlineBlank (comment ++ (lineBreak ++ following)) := by
        obtain ⟨c, rest, same, broken⟩ := breaks
        rcases isComment with rfl | ⟨words, rfl, -⟩
        · simp [same, isInlineBlank, broken]
        · rw [List.cons_append, stops_cons]
          decide
      have front := cut_append_of_all inline stops
      have words := comment_of_isComment isComment breaks
      simp only [List.append_assoc, lineEnd?, front, words]
      rcases lineBreak?_of_isLineBreak isLineBreak following with found | ⟨rest, same, found⟩
      · exact .inl (by rw [found]; rfl)
      · exact .inr ⟨rest, same, by rw [found]; simp⟩

theorem lineEnd?_ne_none {lineEnd : Text} (h : IsLineEnd lineEnd) (following : Text) :
    lineEnd? (lineEnd ++ following) ≠ none := by
  rcases lineEnd?_of_isLineEnd h following with found | ⟨rest, -, found⟩ <;> simp [found]

theorem isLineBreak_singleton {c : Char} (h : isLineBreak c = true) : IsLineBreak [c] := by
  simp only [isLineBreak, Bool.or_eq_true, beq_iff_eq] at h
  rcases h with rfl | rfl
  · exact .inr (.inl rfl)
  · exact .inr (.inr rfl)

theorem IsLineEnd.ne_nil {lineEnd : Text} (h : IsLineEnd lineEnd) : lineEnd ≠ [] := by
  cases h with
  | mk _ _ isLineBreak => rcases isLineBreak with rfl | rfl | rfl <;> simp

/-- No line ends in a text if none does with more text behind. -/
theorem lineEnd?_truncate {text rest : Text} (h : lineEnd? (text ++ rest) = none) :
    lineEnd? text = none := by
  cases found : lineEnd? text with
  | none => rfl
  | some taken =>
      obtain ⟨lineEnd, behind⟩ := taken
      rw [← lineEnd?_append found, List.append_assoc] at h
      exact absurd h (lineEnd?_ne_none (isLineEnd_of_lineEnd? found) _)

/-- Behind blanks that end no line, no line ends before a solid character. -/
theorem lineEnd?_blanks {blanks rest : Text} {c : Char} (blank : IsBlanks blanks)
    (solid : isBlank c = false) (noComment : c ≠ '#')
    (h : lineEnd? (blanks ++ c :: rest) = none) (rest' : Text) :
    lineEnd? (blanks ++ c :: rest') = none := by
  obtain ⟨front, inline, whole, stops⟩ := exists_trim blanks
  cases broken : trim blanks with
  | nil =>
      rw [broken, List.append_nil] at whole
      rw [whole, lineEnd?_append_blanks inline, lineEnd?_cons solid noComment]
      rfl
  | cons b more =>
      rw [broken] at whole stops
      have isBreak : isLineBreak b = true := by
        have isBlank := List.all_eq_true.1 blank b (by simp [whole])
        rw [stops_cons] at stops
        rcases (isBlank_iff b).1 isBlank with inline | isBreak
        · simp [stops] at inline
        · exact isBreak
      have isLineEnd : IsLineEnd (front ++ [] ++ [b]) :=
        .mk inline (.inl rfl) (isLineBreak_singleton isBreak)
      have found := lineEnd?_ne_none isLineEnd (more ++ c :: rest)
      rw [whole] at h
      simp only [List.append_assoc, List.nil_append, List.cons_append] at h found
      exact absurd h found

/-- Inline blanks, or a run of line ends. -/
def IsLayout (text : Text) : Prop := IsInline text ∨ IsLineEnds text

theorem isLineEnds_iff {text : Text} :
    IsLineEnds text ↔
      ∃ lineEnd rest, text = lineEnd ++ rest ∧ IsLineEnd lineEnd ∧ IsLayout rest := by
  constructor
  · rintro (⟨isLineEnd, inline⟩ | ⟨isLineEnd, more⟩)
    · exact ⟨_, _, rfl, isLineEnd, .inl inline⟩
    · exact ⟨_, _, rfl, isLineEnd, .inr more⟩
  · rintro ⟨lineEnd, rest, rfl, isLineEnd, inline | more⟩
    · exact .last isLineEnd inline
    · exact .more isLineEnd more

theorem IsLineEnds.lineEnd?_ne_none {run : Text} (h : IsLineEnds run) (following : Text) :
    lineEnd? (run ++ following) ≠ none := by
  obtain ⟨lineEnd, rest, rfl, isLineEnd, -⟩ := isLineEnds_iff.1 h
  rw [List.append_assoc]
  exact Layout.lineEnd?_ne_none isLineEnd _

/-- Behind a line feed that begins a layout there is a layout still. -/
theorem IsLayout.behind_feed {rest : Text} (h : IsLayout ('\n' :: rest)) : IsLayout rest := by
  rcases h with inline | run
  · have feed : isInlineBlank '\n' = true := List.all_eq_true.1 inline '\n' (by simp)
    exact absurd feed (by decide)
  · obtain ⟨lineEnd, behind, same, ⟨inline, isComment, isLineBreak⟩, layout⟩ := isLineEnds_iff.1 run
    rename_i blanks comment lineBreak
    -- neither a blank nor a comment begins with a line feed, so the break itself does
    cases blanks with
    | cons b more =>
        simp only [List.cons_append, List.cons.injEq] at same
        have feed := List.all_eq_true.1 inline b (by simp)
        rw [← same.1] at feed
        exact absurd feed (by decide)
    | nil =>
        rcases isComment with rfl | ⟨words, rfl, -⟩
        · rcases isLineBreak with rfl | rfl | rfl <;> simp at same
          rwa [same]
        · simp at same

/-- The first line end of a run, which may be two that fold into one. -/
theorem IsLineEnds.first {run following : Text} (h : IsLineEnds run)
    (noEnd : lineEnd? following = none) :
    ∃ taken rest, lineEnd? (run ++ following) = some (taken, rest ++ following) ∧
      IsLayout rest ∧ rest.length < run.length := by
  obtain ⟨lineEnd, behind, rfl, isLineEnd, layout⟩ := isLineEnds_iff.1 h
  have nonempty := List.length_pos_iff.2 isLineEnd.ne_nil
  rw [List.append_assoc]
  rcases lineEnd?_of_isLineEnd isLineEnd (behind ++ following) with found | ⟨rest, same, found⟩
  · refine ⟨lineEnd, behind, found, layout, ?_⟩
    rw [List.length_append]
    omega
  · cases behind with
    | nil =>
        have isFeed : IsLineEnd ([] ++ [] ++ ['\n']) :=
          .mk isInline_nil (.inl rfl) (.inr (.inr rfl))
        rw [List.nil_append] at same
        rw [same] at noEnd
        exact absurd noEnd (Layout.lineEnd?_ne_none isFeed rest)
    | cons c behind =>
        simp only [List.cons_append, List.cons.injEq] at same
        obtain ⟨rfl, rfl⟩ := same
        refine ⟨_, behind, found, layout.behind_feed, ?_⟩
        simp only [List.length_append, List.length_cons]
        omega

theorem lineEnds_of_isLayout {fuel : Nat} {run following : Text} (h : IsLayout run)
    (noEnd : lineEnd? following = none) (enough : run.length ≤ fuel) :
    trim (lineEnds fuel (run ++ following)).2 = trim following := by
  induction fuel generalizing run with
  | zero =>
      have empty : run = [] := List.eq_nil_of_length_eq_zero (Nat.le_zero.1 enough)
      rw [empty]
      rfl
  | succ fuel ih =>
      rcases h with inline | isRun
      · have stays : lineEnd? (run ++ following) = none := by
          rw [lineEnd?_append_blanks inline, noEnd]
          rfl
        rw [lineEnds, stays]
        exact trim_append inline following
      · obtain ⟨taken, rest, found, layout, shorter⟩ := isRun.first noEnd
        rw [lineEnds, found]
        exact ih layout (by omega)

theorem lineEnd?_lineEnds {fuel : Nat} {text : Text} (enough : text.length ≤ fuel) :
    lineEnd? (lineEnds fuel text).2 = none := by
  fun_induction lineEnds fuel text with
  | case1 text =>
      have empty : text = [] := List.eq_nil_of_length_eq_zero (Nat.le_zero.1 enough)
      rw [empty]
      rfl
  | case2 fuel text found => exact found
  | case3 fuel text taken rest found more rest' read ih =>
      have nonempty := List.length_pos_iff.2 (isLineEnd_of_lineEnd? found).ne_nil
      have whole := congrArg List.length (lineEnd?_append found)
      rw [List.length_append] at whole
      have last := ih (by omega)
      rw [read] at last
      exact last

theorem lineEnds?_eq_none_iff {text : Text} : lineEnds? text = none ↔ lineEnd? text = none := by
  unfold lineEnds?
  cases lineEnd? text <;> simp

/-- Line ends fold: none is left behind a run that is taken. -/
theorem lineEnd?_behind {text taken rest : Text} (h : lineEnds? text = some (taken, rest)) :
    lineEnd? rest = none := by
  unfold lineEnds? at h
  split at h
  · cases h
  · rename_i first behind read
    simp only [Option.some.injEq, Prod.mk.injEq] at h
    have ended := lineEnd?_lineEnds (Nat.le_refl behind.length)
    obtain ⟨blanks, inline, whole, -⟩ := exists_trim (lineEnds behind.length behind).2
    rw [whole, lineEnd?_append_blanks inline, Option.map_eq_none_iff] at ended
    rw [← h.2]
    exact ended

/-- **A run of line ends is taken** just where no further line ends behind it. -/
theorem lineEnds?_append_iff {run following : Text} (h : IsLineEnds run) :
    (∃ taken, lineEnds? (run ++ following) = some (taken, trim following)) ↔
      lineEnd? following = none := by
  constructor
  · rintro ⟨taken, found⟩
    obtain ⟨blanks, inline, whole, -⟩ := exists_trim following
    rw [whole, lineEnd?_append_blanks inline, lineEnd?_behind found]
    rfl
  · intro noEnd
    obtain ⟨taken, rest, found, layout, -⟩ := h.first noEnd
    have enough : rest.length ≤ (rest ++ following).length := by simp
    have ended := lineEnds_of_isLayout layout noEnd enough
    unfold lineEnds?
    rw [found]
    exact ⟨_, by rw [← ended]; rfl⟩

/-! ## Layout joined to layout -/

theorem IsLineEnd.prepend {blanks lineEnd : Text} (inline : IsInline blanks) (h : IsLineEnd lineEnd) :
    IsLineEnd (blanks ++ lineEnd) := by
  cases h with
  | mk more isComment isLineBreak =>
      have both := IsInline.append inline more
      simpa using IsLineEnd.mk both isComment isLineBreak

theorem IsLineEnds.prepend {blanks run : Text} (inline : IsInline blanks) (h : IsLineEnds run) :
    IsLineEnds (blanks ++ run) := by
  obtain ⟨lineEnd, rest, rfl, isLineEnd, layout⟩ := isLineEnds_iff.1 h
  rw [← List.append_assoc]
  exact isLineEnds_iff.2 ⟨_, rest, rfl, isLineEnd.prepend inline, layout⟩

theorem IsLineEnds.append {run layout : Text} (h : IsLineEnds run) (isLayout : IsLayout layout) :
    IsLineEnds (run ++ layout) := by
  induction h with
  | @last lineEnd blanks isLineEnd inline =>
      rw [List.append_assoc]
      rcases isLayout with blank | more
      · exact .last isLineEnd (inline.append blank)
      · exact .more isLineEnd (more.prepend inline)
  | more isLineEnd _ ih =>
      rw [List.append_assoc]
      exact .more isLineEnd ih

theorem IsLayout.append {layout more : Text} (h : IsLayout layout) (isLayout : IsLayout more) :
    IsLayout (layout ++ more) := by
  rcases h with inline | run
  · rcases isLayout with blank | run
    · exact .inl (inline.append blank)
    · exact .inr (run.prepend inline)
  · exact .inr (run.append isLayout)

end MethodSignature.Layout
