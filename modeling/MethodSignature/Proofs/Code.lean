/-
# MethodSignature.Proofs.Code -- code whose blocks are read whole

`IsCode` is a class of texts built from left to right of ordinary characters, escapes, strings,
quotes with an operator and brackets, and blocks of the same class.  Its ordinary characters are
no letters that an operator begins with, and no slashes, so that no other literal begins
anywhere.

A block of such code is read whole whatever is behind it (`scanAt_of_isCode`).  The scan goes
over one part after the other (`Ends.code`); what an operator takes beyond its quote are
modifiers, which it takes from the parts behind (`Ends.behind_modifiers`), and these hold no
operator (`IsCalm`).
-/
import MethodSignature.Proofs.Block
import MethodSignature.Proofs.Delimited
import MethodSignature.Proofs.Offset

namespace MethodSignature.Block

set_option autoImplicit false

open Text

/-- The letters that an operator begins with. -/
def operatorLetters : List Char := ['q', 'm', 's', 't', 'y']

/-- The characters of code that begin no part but themselves. -/
def isOrdinary (c : Char) : Bool :=
  !([backslash, apostrophe, doubleQuote, '/', '{', '}'] ++ operatorLetters).contains c

/-- Code without loose quotes, patterns and substitutions. -/
inductive IsCode : Text → Prop
  | nil : IsCode []
  | ordinary {code : Text} {c : Char} : IsCode code → isOrdinary c = true → IsCode (code ++ [c])
  | escape {code : Text} {c : Char} : IsCode code → IsCode (code ++ [backslash, c])
  | string {code body : Text} {quote : Char} : IsCode code →
      quote = apostrophe ∨ quote = doubleQuote → Delimiter.IsBody quote quote body →
      IsCode (code ++ quote :: body ++ [quote])
  | quote {code body : Text} {operator : QuoteOperator} {opening closing : Char} : IsCode code →
      operator ∈ [QuoteOperator.q, .qq, .qw, .qr, .m] →
      (opening, closing) ∈ [('(', ')'), ('[', ']'), ('{', '}'), ('<', '>')] →
      Delimiter.IsBody opening closing body →
      IsCode (code ++ ' ' :: operator.spelling ++ opening :: body ++ [closing])
  | block {code inside : Text} : IsCode code → IsCode inside →
      IsCode (code ++ '{' :: inside ++ ['}'])

/-! ## Texts that begin with no operator -/

/-- No letter of the word in front begins an operator. -/
def IsCalm (text : Text) : Prop := ∀ c ∈ (cut isNameChar text).1, c ∉ operatorLetters

theorem IsCalm.of_stops {text : Text} (stops : Stops isNameChar text) : IsCalm text := by
  rw [IsCalm, cut_of_stops stops]
  nofun

theorem isCalm_cons {c : Char} {rest : Text} (named : isNameChar c = true) :
    IsCalm (c :: rest) ↔ c ∉ operatorLetters ∧ IsCalm rest := by
  simp [IsCalm, cut, named]

theorem IsCalm.ordinary {c : Char} {rest : Text} (ordinary : isOrdinary c = true)
    (h : IsCalm rest) : IsCalm (c :: rest) := by
  cases named : isNameChar c with
  | false => exact .of_stops (by simpa using named)
  | true =>
      refine (isCalm_cons named).2 ⟨?_, h⟩
      intro letter
      simp [isOrdinary, letter] at ordinary

theorem operatorOpening?_of_isCalm {text : Text} (calm : IsCalm text) :
    operatorOpening? text = none := by
  rw [Option.eq_none_iff_forall_ne_some]
  intro opening found
  simp only [operatorOpening?, Option.bind_eq_bind, Option.bind_eq_some_iff, Prod.exists] at found
  obtain ⟨operator, rest, spelled, -⟩ := found
  obtain ⟨letter, more, spelling, begins⟩ : ∃ letter more,
      operator.spelling = letter :: more ∧ letter ∈ operatorLetters := by
    cases operator <;> exact ⟨_, _, rfl, by decide⟩
  obtain ⟨whole, stops⟩ := QuoteOperator.read?_eq_some_iff.1 spelled
  have named : operator.spelling.all isNameChar = true := by cases operator <;> decide
  have word : (cut isNameChar text).1 = operator.spelling := by
    rw [whole, cut_append_of_all named stops]
  exact calm letter (by simp [word, spelling]) begins

/-- No quote begins at a character that is no mark and no slash, and that no operator begins
with. -/
theorem opening?_of_isCalm {context : Context} {c : Char} {rest : Text}
    (noMark : ¬ (c = apostrophe ∨ c = doubleQuote)) (noSlash : c ≠ '/')
    (calm : IsCalm (c :: rest)) : opening? context (c :: rest) = none := by
  simp [opening?, noMark, noSlash, operatorOpening?_of_isCalm calm]

/-! ## One part of the code -/

section Part

variable {following more : Text} {context : Context} {inner : Nat}

theorem Context.insideName_push_blank (context : Context) :
    (context.push ' ').insideName = false := by
  have noWord : isWord ' ' = false := by decide
  simp [insideName, push, noWord]

theorem Ends.ordinary {c : Char} (ordinary : isOrdinary c = true)
    (calm : IsCalm (c :: (more ++ following))) (h : Ends following (context.push c) inner more) :
    Ends following context inner (c :: more) := by
  have other : ∀ d, isOrdinary d = false → c ≠ d := by
    rintro d special rfl
    simp [ordinary] at special
  have noMark : ¬ (c = apostrophe ∨ c = doubleQuote) := by
    simp [other apostrophe rfl, other doubleQuote rfl]
  exact .plain (other backslash rfl) (other '{' rfl) (other '}' rfl)
    (literal?_eq_none_of_opening? (opening?_of_isCalm noMark (other '/' rfl) calm)) h

theorem delimited?_of_isBody {delimiter closing : Char}
    (closes : Delimiter.closer delimiter = closing) (plain : delimiter ≠ backslash) {body : Text}
    (isBody : Delimiter.IsBody delimiter closing body) (rest : Text) :
    delimited? delimiter (body ++ closing :: rest) =
      some (delimiter :: (body ++ [closing]), rest) := by
  subst closes
  rw [delimited?, Delimiter.close_of_isBody isBody plain]
  rfl

theorem Ends.string {body : Text} {quote : Char} (marks : quote = apostrophe ∨ quote = doubleQuote)
    (isBody : Delimiter.IsBody quote quote body)
    (h : Ends following (context.after (quote :: (body ++ [quote]))) inner more) :
    Ends following context inner (quote :: (body ++ [quote]) ++ more) := by
  have closer : Delimiter.closer quote = quote := by rcases marks with rfl | rfl <;> rfl
  have plain : quote ≠ backslash := by rcases marks with rfl | rfl <;> decide
  have found := delimited?_of_isBody closer plain isBody (more ++ following)
  exact .literal plain (by simp [literal?, marks, found]) h

theorem isNameChar_of_isModifier {c : Char} (h : isModifier c = true) : isNameChar c = true := by
  have letters : ['m', 's', 'i', 'x', 'p', 'o', 'd', 'u', 'a', 'l', 'n', 'g', 'c', 'e', 'r'].all
      isNameChar = true := rfl
  exact List.all_eq_true.1 letters c (by simpa [isModifier] using h)

theorem ne_of_isNameChar {c : Char} (named : isNameChar c = true) (d : Char)
    (notNamed : isNameChar d = false) : c ≠ d := by
  rintro rfl
  simp [named] at notNamed

/-- Letters that could be modifiers are gone over one by one where no operator begins. -/
theorem Ends.behind_modifiers {modifiers : Text} (all : modifiers.all isModifier = true)
    (calm : IsCalm (modifiers ++ (more ++ following)))
    (h : Ends following context inner (modifiers ++ more)) :
    Ends following (context.after modifiers) inner more := by
  induction modifiers generalizing context with
  | nil => exact h
  | cons c rest ih =>
      simp only [List.all_cons, Bool.and_eq_true] at all
      have named := isNameChar_of_isModifier all.1
      have other := ne_of_isNameChar named
      have absent : literal? context (c :: (rest ++ more ++ following)) = none := by
        refine literal?_eq_none_of_opening? (opening?_of_isCalm ?_ (other '/' rfl) ?_)
        · rintro (same | same)
          · exact other apostrophe rfl same
          · exact other doubleQuote rfl same
        · simpa using calm
      have closed := closeFrom_of_ends h (Nat.le_refl _)
      rw [List.length_append, List.length_cons, Nat.succ_add, List.cons_append, List.cons_append,
        closeFrom_plain (other backslash rfl) (other '{' rfl) (other '}' rfl) absent] at closed
      obtain ⟨tail, found, same⟩ := Closing.after_eq_closed closed
      cases same
      exact ih all.2 ((isCalm_cons named).1 calm).2 (ends_of_closeFrom found)

/-- A quote in brackets takes the modifiers behind it, and those of them that belong to other parts
are gone over either way. -/
theorem Ends.quote {operator : QuoteOperator} (onePart : operator.twoPart = false)
    {opening closing : Char}
    (brackets : (opening, closing) ∈ [('(', ')'), ('[', ']'), ('{', '}'), ('<', '>')])
    {body : Text} (isBody : Delimiter.IsBody opening closing body)
    (calm : IsCalm (more ++ following)) (outside : context.insideName = false)
    (h : Ends following (context.after (operator.spelling ++ opening :: (body ++ [closing]))) inner
      more) :
    Ends following context inner (operator.spelling ++ opening :: (body ++ [closing]) ++ more) := by
  obtain ⟨plain, closes, delimits, notNamed, notBlank⟩ : opening ≠ backslash ∧
      Delimiter.closer opening = closing ∧ isDelimiter opening = true ∧
      isNameChar opening = false ∧ isInlineBlank opening = false := by
    simp only [List.mem_cons, Prod.mk.injEq, List.not_mem_nil, or_false] at brackets
    rcases brackets with ⟨rfl, rfl⟩ | ⟨rfl, rfl⟩ | ⟨rfl, rfl⟩ | ⟨rfl, rfl⟩ <;> decide
  obtain ⟨modifiers, tail, tailEnds, modifiersCut⟩ := cut_append_of_last isModifier h.getLast? rfl
  have alone := modifiersCut []
  rw [List.append_nil, List.append_nil] at alone
  obtain ⟨rfl, all, -⟩ := cut_eq_iff.1 alone
  have found : operatorQuote? (operator.spelling ++ (opening :: (body ++ closing ::
      (modifiers ++ tail ++ following)))) =
      some (operator.spelling ++ opening :: (body ++ [closing]) ++ modifiers,
        tail ++ following) := by
    refine operatorQuote?_eq_some_iff.2 ⟨operator, _, [], opening, _,
      opening :: (body ++ [closing]), _, [], _,
      QuoteOperator.read?_eq_some_iff.2 ⟨rfl, by simpa using notNamed⟩,
      Delimiter.behind?_eq_some_iff.2 ⟨cut_of_stops (by simpa using notBlank), delimits, .inl rfl⟩,
      delimited?_of_isBody closes plain isBody _, by rw [second?, onePart]; rfl, ?_, ?_⟩
    · rw [modifiersCut]
      simp
    · rw [modifiersCut]
  obtain ⟨letter, word, spelling, named⟩ : ∃ letter word,
      operator.spelling = letter :: word ∧ isNameChar letter = true := by
    cases operator <;> exact ⟨_, _, rfl, rfl⟩
  have other := ne_of_isNameChar named
  have noMark : ¬ (letter = apostrophe ∨ letter = doubleQuote) := by
    simp [other apostrophe rfl, other doubleQuote rfl]
  rw [spelling] at h found ⊢
  have whole : letter :: word ++ opening :: (body ++ [closing]) ++ (modifiers ++ tail) =
      letter :: (word ++ opening :: (body ++ [closing]) ++ modifiers) ++ tail := by simp
  rw [whole]
  refine .literal (other backslash rfl) ?_ ?_
  · simp only [List.cons_append, literal?, noMark, other '/' rfl, outside, if_false,
      Bool.false_eq_true]
    simpa using found
  · have behind := h.behind_modifiers all (by simpa using calm)
    rw [← Context.after_append] at behind
    simpa using behind

end Part

/-! ## All of the code -/

/-- The scan goes over code and on behind it with as many blocks open as before. -/
theorem Ends.code {code : Text} (isCode : IsCode code) {following more : Text} {context : Context}
    {inner : Nat} (calm : IsCalm (more ++ following))
    (h : Ends following (context.after code) inner more) :
    Ends following context inner (code ++ more) := by
  induction isCode generalizing context inner more with
  | nil => exact h
  | @ordinary code c _ ordinary ih =>
      rw [Context.after_append] at h
      rw [List.append_assoc]
      have calm := calm.ordinary ordinary
      exact ih calm (h.ordinary ordinary calm)
  | @escape code c _ ih =>
      rw [Context.after_append] at h
      rw [List.append_assoc]
      exact ih (.of_stops (by simp; decide)) (.escape h)
  | @string code body quote _ marks isBody ih =>
      rw [List.append_assoc, Context.after_append] at h
      rw [List.append_assoc, List.append_assoc, ← List.append_assoc (quote :: body)]
      refine ih (.of_stops ?_) (h.string marks isBody)
      rcases marks with rfl | rfl <;> simp <;> decide
  | @quote code body operator opening closing _ accepted brackets isBody ih =>
      have whole : code ++ ' ' :: operator.spelling ++ opening :: body ++ [closing] ++ more =
          code ++ ' ' :: (operator.spelling ++ opening :: (body ++ [closing]) ++ more) := by simp
      have onePart : operator.twoPart = false := by
        simp only [List.mem_cons, List.not_mem_nil, or_false] at accepted
        rcases accepted with rfl | rfl | rfl | rfl | rfl <;> rfl
      rw [whole]
      -- the blank in front keeps the operator from going on with a name
      refine ih (.of_stops (by simp; decide)) (.ordinary rfl (.of_stops (by simp; decide)) ?_)
      refine .quote onePart brackets isBody calm (Context.insideName_push_blank _) ?_
      simpa [Context.after] using h
  | @block code inside _ _ ih ihInside =>
      have whole : code ++ '{' :: inside ++ ['}'] ++ more =
          code ++ '{' :: (inside ++ '}' :: more) := by simp
      rw [whole]
      refine ih (.of_stops (by simp; decide)) (.nested ?_)
      refine ihInside (.of_stops (by simp; decide)) (.unnested ?_)
      simpa [Context.after] using h

/-- **A block of code is read whole**, whatever is behind it. -/
theorem scanAt_of_isCode {code : Text} (isCode : IsCode code) (following : Text) :
    Cursor.scanAt scan ('{' :: code ++ '}' :: following) 0 =
      .ok (some ('{' :: code ++ ['}']), following) := by
  have calm : IsCalm (['}'] ++ following) := .of_stops (by simp; decide)
  have ends : Ends following .opened 0 (code ++ ['}']) := .code isCode calm .close
  have enough : (code ++ ['}']).length ≤ (code ++ '}' :: following).length := by simp
  have closed := closeFrom_of_ends ends enough
  rw [List.append_assoc, List.singleton_append] at closed
  exact (Cursor.scanAt_zero_iff Grammar.decides_block).2 (scan_braced_iff.2 closed)

/-- A block with a string, a quote with brackets and modifiers, and an escape, all with braces
that do not count, before an apostrophe and a brace. -/
theorem scanAt_of_isCode_hidden_braces :
    IsCode "\x7b'\x7d'\x7d qr(a(\x7d)b)ix\\\x7d".toList ∧
      Cursor.scanAt scan ('{' :: "\x7b'\x7d'\x7d qr(a(\x7d)b)ix\\\x7d".toList ++
          '}' :: "' \x7d".toList) 0 =
        .ok (some ('{' :: "\x7b'\x7d'\x7d qr(a(\x7d)b)ix\\\x7d".toList ++ ['}']),
          "' \x7d".toList) := by
  have hidden : Delimiter.IsBody apostrophe apostrophe ['}'] :=
    .plain (by decide) (by decide) (by decide) .nil
  have inner : Delimiter.IsBody '(' ')' ['}'] := .plain (by decide) (by decide) (by decide) .nil
  have last : Delimiter.IsBody '(' ')' ['b'] := .plain (by decide) (by decide) (by decide) .nil
  have body : Delimiter.IsBody '(' ')' ['a', '(', '}', ')', 'b'] :=
    .plain (by decide) (by decide) (by decide) (inner.nested (by decide) last)
  have quoted : IsCode (['{', apostrophe, '}', apostrophe, '}'] ++
      ' ' :: QuoteOperator.qr.spelling ++ '(' :: ['a', '(', '}', ')', 'b'] ++ [')']) :=
    .quote (IsCode.nil.block (IsCode.nil.string (.inl rfl) hidden)) (by decide) (by decide) body
  have isCode : IsCode "\x7b'\x7d'\x7d qr(a(\x7d)b)ix\\\x7d".toList :=
    ((quoted.ordinary (c := 'i') rfl).ordinary (c := 'x') rfl).escape (c := '}')
  exact ⟨isCode, scanAt_of_isCode isCode _⟩

end MethodSignature.Block
