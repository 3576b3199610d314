/-
# MethodSignature.Literal.Quote -- quoted literals

A quoted literal opens with a bare quote mark, with a quote operator and a
delimiter, or as a here-document.  Default values admit the apostrophe, the double
quote and the operators `q`, `qq`, `qw` and `qr`; every other opening is rejected
before its body is looked at.  The literal runs to the delimiter that closes it and,
for `qr`, over the modifier letters behind.
-/
import MethodSignature.Literal.Delimiter
import MethodSignature.Literal.QuoteOperator
import MethodSignature.Scan

namespace MethodSignature.Quote

set_option autoImplicit false

open Text

/-- How a quoted literal begins. -/
inductive Opening
  | heredoc
  | mark (quote : Char) (body : Text)
  | operator (operator : QuoteOperator) (gap : Text) (delimiter : Char) (body : Text)
  deriving DecidableEq, Repr

def isMark (c : Char) : Bool :=
  c == apostrophe || c == doubleQuote || c == '\x60' || c == '/'

/-- A character that names a here-document, or quotes or indents its name. -/
def isHeredocStart (c : Char) : Bool :=
  c == doubleQuote || c == apostrophe || c == '~' || isNameStart c

def isHeredoc : Text → Bool
  | '<' :: '<' :: c :: _ => isHeredocStart c
  | _ => false

/-- The opening at the beginning of `text`. -/
def opening? : Text → Option Opening
  | [] => none
  | c :: rest =>
      if isMark c then some (.mark c rest)
      else if isHeredoc (c :: rest) then some .heredoc
      else
        match QuoteOperator.read? (c :: rest) with
        | none => none
        | some (operator, rest) =>
            (Delimiter.behind? Delimiter.isDelimiter rest).map fun (gap, delimiter, body) =>
              .operator operator gap delimiter body

/-- A modifier letter of a pattern. -/
def isPatternModifier (c : Char) : Bool :=
  ['m', 's', 'i', 'x', 'p', 'o', 'd', 'u', 'a', 'l', 'n'].contains c

/-- How much of an unclosed literal a message shows. -/
def previewLength : Nat := 20

/-- The literal with `lead` in front of its delimiter and modifiers behind it. -/
def delimited (text lead : Text) (delimiter : Char) (body : Text) (isModifier : Char → Bool) :
    Scan (Option Text) :=
  match Delimiter.close delimiter body with
  | .closed inside rest =>
      let (modifiers, rest) := cut isModifier rest
      .present (lead ++ delimiter :: inside ++ modifiers) rest
  | .unclosed depth =>
      .fail text (.openQuote (text.take previewLength) (Delimiter.closer delimiter) depth)

/-- The quoted literal at the beginning of `text`. -/
def scan (text : Text) : Scan (Option Text) :=
  match opening? text with
  | none => .absent text
  | some .heredoc => .fail text (.rejectedOperator ['<', '<'])
  | some (.mark quote body) =>
      if quote = apostrophe ∨ quote = doubleQuote then
        delimited text [] quote body fun _ => false
      else .fail text (.rejectedOperator [quote])
  | some (.operator operator gap delimiter body) =>
      if operator.accepted then
        delimited text (operator.spelling ++ gap) delimiter body fun c =>
          operator = .qr && isPatternModifier c
      else .fail text (.rejectedOperator operator.spelling)

/-! ## Nothing is lost -/

theorem opening?_mark {text body : Text} {quote : Char}
    (h : opening? text = some (.mark quote body)) : quote :: body = text := by
  cases text with
  | nil => cases h
  | cons c rest =>
      simp only [opening?] at h
      split at h
      · cases h
        rfl
      · split at h
        · cases h
        · split at h
          · cases h
          · simp at h

theorem opening?_operator {text gap body : Text} {operator : QuoteOperator} {delimiter : Char}
    (h : opening? text = some (.operator operator gap delimiter body)) :
    operator.spelling ++ gap ++ delimiter :: body = text := by
  cases text with
  | nil => cases h
  | cons c rest =>
      simp only [opening?] at h
      split at h
      · cases h
      · split at h
        · cases h
        · split at h
          · cases h
          · rename_i spelled
            simp only [Option.map_eq_some_iff] at h
            obtain ⟨⟨gap, delimiter, body⟩, found, same⟩ := h
            cases same
            rw [List.append_assoc, Delimiter.behind?_append found,
              QuoteOperator.read?_append spelled]

theorem covers_delimited {text lead body : Text} {delimiter : Char} {isModifier : Char → Bool}
    (h : lead ++ delimiter :: body = text) :
    (delimited text lead delimiter body isModifier).Covers text := by
  unfold delimited
  split
  · rename_i inside rest found
    have whole := Delimiter.close_append found
    have tail := cut_append isModifier rest
    simp only [Scan.Covers, Scan.present, List.append_assoc, List.cons_append]
    rw [tail, whole, h]
  · exact Scan.covers_fail ..

theorem covers_scan (text : Text) : (scan text).Covers text := by
  unfold scan
  split
  · exact Scan.covers_absent text
  · exact Scan.covers_fail ..
  · rename_i found
    split
    · exact covers_delimited (opening?_mark found)
    · exact Scan.covers_fail ..
  · rename_i found
    split
    · exact covers_delimited (opening?_operator found)
    · exact Scan.covers_fail ..

end MethodSignature.Quote
