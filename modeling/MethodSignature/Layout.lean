/-
# MethodSignature.Layout -- line breaks and comments

A comment runs from `#` to the end of its line.  A line ends with an optional
comment and a carriage return, a line feed, or both in that order.  Line ends that
follow one another fold into one, together with the blanks that begin the next
line, so two runs of line ends are never adjacent.
-/
import MethodSignature.Text.Blank

namespace MethodSignature.Layout

set_option autoImplicit false

open Text

/-- An optional comment, up to the end of its line. -/
def comment : Text → Text × Text
  | '#' :: rest =>
      let (words, rest) := cut (fun c => !isLineBreak c) rest
      ('#' :: words, rest)
  | text => ([], text)

def lineBreak? : Text → Option (Text × Text)
  | '\r' :: '\n' :: rest => some (['\r', '\n'], rest)
  | '\r' :: rest => some (['\r'], rest)
  | '\n' :: rest => some (['\n'], rest)
  | _ => none

/-- Blanks, an optional comment and a line break. -/
def lineEnd? (text : Text) : Option (Text × Text) :=
  let (blanks, rest) := cut isInlineBlank text
  let (comment, rest) := comment rest
  (lineBreak? rest).map fun (lineBreak, rest) => (blanks ++ comment ++ lineBreak, rest)

/-- All line ends in a row, at most `fuel` of them. -/
def lineEnds : Nat → Text → Text × Text
  | 0, text => ([], text)
  | fuel + 1, text =>
      match lineEnd? text with
      | none => ([], text)
      | some (taken, rest) =>
          let (more, rest) := lineEnds fuel rest
          (taken ++ more, rest)

/-- One line end or more, and the blanks that begin the line after. -/
def lineEnds? (text : Text) : Option (Text × Text) :=
  match lineEnd? text with
  | none => none
  | some (taken, rest) =>
      let (more, rest) := lineEnds rest.length rest
      let (blanks, rest) := cut isInlineBlank rest
      some (taken ++ more ++ blanks, rest)

/-- Whether nothing is left but blanks and a comment. -/
def isFinal (text : Text) : Bool := (comment (cut isInlineBlank text).2).2.isEmpty

/-! ## Nothing is lost -/

theorem comment_append (text : Text) : (comment text).1 ++ (comment text).2 = text := by
  unfold comment
  split
  · simp [cut_append]
  · rfl

theorem lineBreak?_append {text taken rest : Text} (h : lineBreak? text = some (taken, rest)) :
    taken ++ rest = text := by
  unfold lineBreak? at h
  split at h <;> cases h <;> rfl

theorem lineEnd?_append {text taken rest : Text} (h : lineEnd? text = some (taken, rest)) :
    taken ++ rest = text := by
  simp only [lineEnd?, Option.map_eq_some_iff, Prod.mk.injEq] at h
  obtain ⟨⟨lineBreak, tail⟩, found, rfl, rfl⟩ := h
  simp only [List.append_assoc]
  rw [lineBreak?_append found, comment_append, cut_append]

theorem lineEnds_append (fuel : Nat) (text : Text) :
    (lineEnds fuel text).1 ++ (lineEnds fuel text).2 = text := by
  fun_induction lineEnds fuel text with
  | case1 => rfl
  | case2 => rfl
  | case3 fuel text taken rest found more rest' _ ih =>
      simp_all [lineEnd?_append found]

theorem lineEnds?_append {text taken rest : Text} (h : lineEnds? text = some (taken, rest)) :
    taken ++ rest = text := by
  unfold lineEnds? at h
  split at h
  · cases h
  · rename_i found
    simp only [Option.some.injEq, Prod.mk.injEq] at h
    obtain ⟨rfl, rfl⟩ := h
    simp only [List.append_assoc]
    rw [cut_append, lineEnds_append, lineEnd?_append found]

end MethodSignature.Layout
