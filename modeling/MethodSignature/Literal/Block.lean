/-
# MethodSignature.Literal.Block -- brace-balanced blocks of code

A block runs from its opening brace to the brace that closes it.  A backslash
hides the character behind it.  So do literals inside the block: their braces do
not count.  The literals are strings, `/.../` patterns, and quotes with an operator.

Whether a character begins a literal depends on what stands before it in the
block (`Block.Context`):

* a slash begins a pattern only behind one of `( , = ~ ! { ; | & ? :`, blanks aside;
  anywhere else it divides;
* a letter begins an operator only where no name goes on: not behind a word
  character, a sigil (`&` among them), `>`, `:` or `-`.

A literal that never closes is no literal, and its first character is ordinary
text.
-/
import MethodSignature.Literal.Delimiter
import MethodSignature.Literal.QuoteOperator
import MethodSignature.Scan

namespace MethodSignature.Block

set_option autoImplicit false

open Text

/-- What a scan of code remembers: the character just before, and the last one
that is not blank. -/
structure Context where
  previous : Char
  solid : Char
  deriving DecidableEq, Repr

namespace Context

/-- Just behind the brace that opens a block. -/
def opened : Context := { previous := '{', solid := '{' }

def push (context : Context) (c : Char) : Context :=
  ⟨c, if isBlank c then context.solid else c⟩

def after (context : Context) (taken : Text) : Context := taken.foldl push context

/-- Whether a slash here begins a pattern. -/
def startsPattern (context : Context) : Bool :=
  ['(', ',', '=', '~', '!', '{', ';', '|', '&', '?', ':'].contains context.solid

/-- Whether letters here belong to a name that began before. -/
def insideName (context : Context) : Bool :=
  isWord context.previous || ['$', '@', '%', '&', '>', ':', '-'].contains context.previous

end Context

/-- Characters that go on with or close the code around a word, and so never open a
quote behind it. -/
def closesCode : List Char := ['=', ',', ';', ')', ']', '}', '>']

/-- The characters that can delimit a quote inside code. -/
def isDelimiter (c : Char) : Bool :=
  Delimiter.isDelimiter c && !closesCode.contains c

/-- A modifier letter of a pattern, a substitution or a transliteration. -/
def isModifier (c : Char) : Bool :=
  ['m', 's', 'i', 'x', 'p', 'o', 'd', 'u', 'a', 'l', 'n', 'g', 'c', 'e', 'r'].contains c

/-- A delimiter and the text up to the one that closes it. -/
def delimited? (delimiter : Char) (body : Text) : Option (Text × Text) :=
  (Delimiter.close delimiter body).toOption.map fun (inside, rest) => (delimiter :: inside, rest)

/-- The second part of a two-part quote.  A delimiter that does not nest closes
the first part and opens the second; behind brackets the second part has
delimiters of its own. -/
def replacement? (delimiter : Char) (text : Text) : Option (Text × Text) :=
  if Delimiter.nests delimiter then
    match cut isBlank text with
    | (_, []) => none
    | (gap, c :: body) =>
        if isDelimiter c then
          (delimited? c body).map fun (inside, rest) => (gap ++ inside, rest)
        else none
  else (Delimiter.close delimiter text).toOption

/-- What follows the first part: a replacement for a two-part operator, and nothing
for any other. -/
def second? (operator : QuoteOperator) (delimiter : Char) (text : Text) : Option (Text × Text) :=
  if operator.twoPart then replacement? delimiter text else some ([], text)

/-- A quote with an operator. -/
def operatorQuote? (text : Text) : Option (Text × Text) := do
  let (operator, rest) ← QuoteOperator.read? text
  let (gap, delimiter, body) ← Delimiter.behind? isDelimiter rest
  let (first, rest) ← delimited? delimiter body
  let (second, rest) ← second? operator delimiter rest
  let (modifiers, rest) := cut isModifier rest
  return (operator.spelling ++ gap ++ first ++ second ++ modifiers, rest)

/-- The closed literal at the beginning of `text`. -/
def literal? (context : Context) : Text → Option (Text × Text)
  | [] => none
  | c :: rest =>
      if c = apostrophe ∨ c = doubleQuote then delimited? c rest
      else if c = '/' then
        if context.startsPattern then
          (delimited? c rest).map fun (pattern, rest) =>
            let (modifiers, rest) := cut isModifier rest
            (pattern ++ modifiers, rest)
        else none
      else if context.insideName then none
      else operatorQuote? (c :: rest)

/-- The end of a block that has `inner` nested blocks open, found in at most
`fuel` steps.  Each step takes a character at least. -/
def closeFrom : Nat → Context → Nat → Text → Closing
  | 0, _, inner, _ => .unclosed (inner + 1)
  | _ + 1, _, inner, [] => .unclosed (inner + 1)
  | fuel + 1, context, inner, c :: rest =>
      if c = backslash then
        match rest with
        | [] => .unclosed (inner + 1)
        | escaped :: rest =>
            (closeFrom fuel (context.after [c, escaped]) inner rest).after [c, escaped]
      else
        match literal? context (c :: rest) with
        | some (taken, rest) => (closeFrom fuel (context.after taken) inner rest).after taken
        | none =>
            if c = '{' then (closeFrom fuel (context.push c) (inner + 1) rest).after [c]
            else if c = '}' then
              match inner with
              | 0 => .closed [c] rest
              | inner + 1 => (closeFrom fuel (context.push c) inner rest).after [c]
            else (closeFrom fuel (context.push c) inner rest).after [c]

/-- The end of the block whose opening brace stands before `body`. -/
def close (body : Text) : Closing := closeFrom body.length .opened 0 body

/-- How much of an unclosed block a message shows. -/
def previewLength : Nat := 20

/-- The block at the beginning of `text`. -/
def scan : Text → Scan (Option Text)
  | '{' :: body =>
      match close body with
      | .closed inside rest => .present ('{' :: inside) rest
      | .unclosed depth =>
          .fail ('{' :: body) (.openBlock (('{' :: body).take previewLength) depth)
  | text => .absent text

/-- An escape is taken whole. -/
theorem closeFrom_escape {fuel : Nat} {context : Context} {inner : Nat} (escaped : Char)
    {rest : Text} :
    closeFrom (fuel + 1) context inner (backslash :: escaped :: rest) =
      (closeFrom fuel (context.after [backslash, escaped]) inner rest).after
        [backslash, escaped] := by
  simp [closeFrom]

/-! ## Nothing is lost -/

theorem delimited?_append {delimiter : Char} {body taken rest : Text}
    (h : delimited? delimiter body = some (taken, rest)) : taken ++ rest = delimiter :: body := by
  simp only [delimited?, Option.map_eq_some_iff, Prod.mk.injEq] at h
  obtain ⟨⟨inside, tail⟩, found, rfl, rfl⟩ := h
  simp [Delimiter.close_append (Closing.toOption_eq_some found)]

theorem replacement?_append {delimiter : Char} {text taken rest : Text}
    (h : replacement? delimiter text = some (taken, rest)) : taken ++ rest = text := by
  have whole := cut_append isBlank text
  unfold replacement? at h
  split at h
  · split at h
    · cases h
    · rename_i found
      rw [found] at whole
      split at h
      · simp only [Option.map_eq_some_iff, Prod.mk.injEq] at h
        obtain ⟨⟨inside, tail⟩, closed, rfl, rfl⟩ := h
        simp [delimited?_append closed, whole]
      · cases h
  · exact Delimiter.close_append (Closing.toOption_eq_some h)

theorem second?_append {operator : QuoteOperator} {delimiter : Char} {text taken rest : Text}
    (h : second? operator delimiter text = some (taken, rest)) : taken ++ rest = text := by
  unfold second? at h
  split at h
  · exact replacement?_append h
  · cases h
    rfl

theorem operatorQuote?_append {text taken rest : Text}
    (h : operatorQuote? text = some (taken, rest)) : taken ++ rest = text := by
  simp only [operatorQuote?, Option.bind_eq_bind, Option.bind_eq_some_iff, Option.pure_def,
    Option.some.injEq, Prod.mk.injEq] at h
  obtain ⟨⟨operator, behind⟩, spelled, ⟨gap, delimiter, body⟩, opened, ⟨first, tail⟩, closed,
    ⟨second, tail'⟩, replaced, rfl, rfl⟩ := h
  simp only [List.append_assoc]
  rw [cut_append, second?_append replaced, delimited?_append closed,
    Delimiter.behind?_append opened, QuoteOperator.read?_append spelled]

theorem literal?_append {context : Context} {text taken rest : Text}
    (h : literal? context text = some (taken, rest)) : taken ++ rest = text := by
  unfold literal? at h
  split at h
  · cases h
  · split at h
    · exact delimited?_append h
    · split at h
      · split at h
        · simp only [Option.map_eq_some_iff, Prod.mk.injEq] at h
          obtain ⟨⟨pattern, tail⟩, closed, rfl, rfl⟩ := h
          rw [List.append_assoc, cut_append, delimited?_append closed]
        · cases h
      · split at h
        · cases h
        · exact operatorQuote?_append h

theorem closeFrom_append {fuel : Nat} {context : Context} {inner : Nat} {text taken rest : Text}
    (h : closeFrom fuel context inner text = .closed taken rest) : taken ++ rest = text := by
  fun_induction closeFrom fuel context inner text generalizing taken with
  | case1 => simp at h
  | case2 => simp at h
  | case3 => simp at h
  | case4 fuel context inner escaped tail ih =>
      obtain ⟨inside, found, rfl⟩ := Closing.after_eq_closed h
      simp [ih found]
  | case5 fuel context inner c tail _ literal tail' found ih =>
      obtain ⟨inside, closed, rfl⟩ := Closing.after_eq_closed h
      rw [List.append_assoc, ih closed, literal?_append found]
  | case6 fuel context inner tail _ _ ih =>
      obtain ⟨inside, found, rfl⟩ := Closing.after_eq_closed h
      simp [ih found]
  | case7 =>
      cases h
      rfl
  | case8 fuel context tail inner _ _ _ ih =>
      obtain ⟨inside, found, rfl⟩ := Closing.after_eq_closed h
      simp [ih found]
  | case9 fuel context inner c tail _ _ _ _ ih =>
      obtain ⟨inside, found, rfl⟩ := Closing.after_eq_closed h
      simp [ih found]

theorem covers_scan (text : Text) : (scan text).Covers text := by
  unfold scan
  split
  · split
    · rename_i found
      simp [Scan.Covers, Scan.present, closeFrom_append found]
    · exact Scan.covers_fail ..
  · exact Scan.covers_absent _

end MethodSignature.Block
