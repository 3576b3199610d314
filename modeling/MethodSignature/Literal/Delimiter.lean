/-
# MethodSignature.Literal.Delimiter -- delimiters and the search for the closing one

The four brackets nest and close with their partner; every other character
closes itself.  The search skips whatever a backslash precedes, and it looks for
the backslash first, so a quote delimited by backslashes never closes.
-/
import MethodSignature.Text.Blank
import MethodSignature.Text.Word

namespace MethodSignature

set_option autoImplicit false

/-- Where a delimited text ends: the text up to its closing delimiter, that one
included, and the rest; or the number of delimiters left open. -/
inductive Closing
  | closed (taken rest : Text)
  | unclosed (depth : Nat)
  deriving DecidableEq, Repr

namespace Closing

/-- The same ending, with `lead` in front of the delimited text. -/
def after (lead : Text) : Closing → Closing
  | .closed taken rest => .closed (lead ++ taken) rest
  | .unclosed depth => .unclosed depth

def toOption : Closing → Option (Text × Text)
  | .closed taken rest => some (taken, rest)
  | .unclosed _ => none

@[simp] theorem after_nil (closing : Closing) : closing.after [] = closing := by
  cases closing <;> rfl

@[simp] theorem after_after (lead more : Text) (closing : Closing) :
    (closing.after more).after lead = closing.after (lead ++ more) := by
  cases closing <;> simp [after]

theorem after_eq_closed {lead taken rest : Text} {closing : Closing}
    (h : closing.after lead = .closed taken rest) :
    ∃ inside, closing = .closed inside rest ∧ taken = lead ++ inside := by
  cases closing with
  | closed inside tail =>
      simp only [after, closed.injEq] at h
      exact ⟨inside, by rw [h.2], h.1.symm⟩
  | unclosed depth => simp [after] at h

theorem toOption_eq_some {taken rest : Text} {closing : Closing}
    (h : closing.toOption = some (taken, rest)) : closing = .closed taken rest := by
  cases closing with
  | closed inside tail => simpa [toOption] using h
  | unclosed depth => simp [toOption] at h

end Closing

namespace Delimiter

open Text

/-- The delimiter that closes what `c` opens. -/
def closer : Char → Char
  | '(' => ')'
  | '[' => ']'
  | '{' => '}'
  | '<' => '>'
  | c => c

/-- Whether a delimiter can occur inside the text it delimits. -/
def nests (delimiter : Char) : Bool := closer delimiter != delimiter

/-- The end of a delimited text that has `inner` nested pairs open. -/
def closeFrom (opening closing : Char) : Nat → Text → Closing
  | inner, [] => .unclosed (inner + 1)
  | inner, c :: rest =>
      if c = backslash then
        match rest with
        | [] => .unclosed (inner + 1)
        | escaped :: rest => (closeFrom opening closing inner rest).after [c, escaped]
      else if c = closing then
        match inner with
        | 0 => .closed [c] rest
        | inner + 1 => (closeFrom opening closing inner rest).after [c]
      else if c = opening then (closeFrom opening closing (inner + 1) rest).after [c]
      else (closeFrom opening closing inner rest).after [c]

/-- The end of the text behind `delimiter`.  The depth of a delimiter that does
not nest is given as zero. -/
def close (delimiter : Char) (body : Text) : Closing :=
  match closeFrom delimiter (closer delimiter) 0 body with
  | .closed taken rest => .closed taken rest
  | .unclosed depth => .unclosed (if nests delimiter then depth else 0)

/-- A delimiter may be any character that is neither blank nor part of a word. -/
def isDelimiter (c : Char) : Bool := !isWord c && !isBlank c

/-- The delimiter behind an operator, with the blanks before it and the text
after it.  Behind blanks a `#` begins a comment instead. -/
def behind? (admits : Char → Bool) (text : Text) : Option (Text × Char × Text) :=
  match cut isInlineBlank text with
  | (_, []) => none
  | (gap, c :: body) =>
      if admits c && (gap.isEmpty || c != '#') then some (gap, c, body) else none

/-! ## Nothing is lost -/

theorem closeFrom_append {opening closing : Char} {inner : Nat} {text taken rest : Text}
    (h : closeFrom opening closing inner text = .closed taken rest) : taken ++ rest = text := by
  fun_induction closeFrom opening closing inner text generalizing taken with
  | case1 inner => simp at h
  | case2 inner => simp at h
  | case3 inner escaped tail ih =>
      obtain ⟨inside, found, rfl⟩ := Closing.after_eq_closed h
      simp [ih found]
  | case4 tail _ =>
      cases h
      rfl
  | case5 tail inner _ ih =>
      obtain ⟨inside, found, rfl⟩ := Closing.after_eq_closed h
      simp [ih found]
  | case6 inner tail _ _ ih =>
      obtain ⟨inside, found, rfl⟩ := Closing.after_eq_closed h
      simp [ih found]
  | case7 inner c tail _ _ _ ih =>
      obtain ⟨inside, found, rfl⟩ := Closing.after_eq_closed h
      simp [ih found]

theorem close_append {delimiter : Char} {body taken rest : Text}
    (h : close delimiter body = .closed taken rest) : taken ++ rest = body := by
  unfold close at h
  split at h
  · rename_i found
    cases h
    exact closeFrom_append found
  · cases h

theorem behind?_append {admits : Char → Bool} {text gap body : Text} {c : Char}
    (h : behind? admits text = some (gap, c, body)) : gap ++ c :: body = text := by
  have whole := cut_append isInlineBlank text
  unfold behind? at h
  split at h
  · cases h
  · rename_i found
    split at h
    · cases h
      rwa [found] at whole
    · cases h

end Delimiter

end MethodSignature
