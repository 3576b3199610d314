/-
# MethodSignature.Proofs.CodeLiteral -- literals inside code

A literal found at some place of a block is found there whatever follows it
(`literal?_local`).  Whether there is one is decided in two steps: a quote begins there,
which takes no more than its delimiter to see (`opening?`), and the delimiter closes, once or
twice, in all of the text behind (`literal?_isSome_iff`).
-/
import MethodSignature.Literal.Block
import MethodSignature.Proofs.Delimiter

namespace MethodSignature.Block

set_option autoImplicit false

open Text

/-! ## A literal does not depend on what follows -/

theorem delimited?_eq_some_iff {delimiter : Char} {body taken rest : Text} :
    delimited? delimiter body = some (taken, rest) ↔
      ∃ inside, taken = delimiter :: inside ∧
        Delimiter.closeFrom delimiter (Delimiter.closer delimiter) 0 body = .closed inside rest := by
  simp only [delimited?, Delimiter.close_toOption, Option.map_eq_some_iff, Prod.mk.injEq]
  constructor
  · rintro ⟨⟨inside, tail⟩, found, rfl, rfl⟩
    exact ⟨inside, rfl, Closing.toOption_eq_some found⟩
  · rintro ⟨inside, rfl, found⟩
    exact ⟨(inside, rest), by rw [found]; rfl, rfl, rfl⟩

theorem delimited?_local {delimiter : Char} {body taken rest : Text}
    (h : delimited? delimiter body = some (taken, rest)) :
    ∃ inside, taken = delimiter :: inside ∧
      ∀ following, delimited? delimiter (inside ++ following) = some (taken, following) := by
  obtain ⟨inside, rfl, closed⟩ := delimited?_eq_some_iff.1 h
  refine ⟨inside, rfl, fun following => ?_⟩
  exact delimited?_eq_some_iff.2 ⟨inside, rfl, Delimiter.closeFrom_local closed following⟩

theorem replacement?_local {delimiter : Char} {text taken rest : Text}
    (h : replacement? delimiter text = some (taken, rest)) (following : Text) :
    replacement? delimiter (taken ++ following) = some (taken, following) := by
  unfold replacement? at h
  split at h
  · rename_i nesting
    split at h
    · cases h
    · rename_i gap c body found
      obtain ⟨-, blank, stops⟩ := cut_eq_iff.1 found
      split at h
      · rename_i delimits
        simp only [Option.map_eq_some_iff, Prod.mk.injEq] at h
        obtain ⟨⟨inner, tail⟩, closed, rfl, rfl⟩ := h
        obtain ⟨inside, rfl, again⟩ := delimited?_local closed
        have opens : cut isBlank (gap ++ c :: inside ++ following) =
            (gap, c :: (inside ++ following)) := by
          rw [List.append_assoc]
          exact cut_append_of_all blank (by simpa using stops)
        simp only [replacement?, nesting, if_true, opens, delimits, again]
        rfl
      · cases h
  · rename_i plain
    have closed := Closing.toOption_eq_some (Delimiter.close_toOption .. ▸ h)
    rw [replacement?, if_neg plain, Delimiter.close_toOption,
      Delimiter.closeFrom_local closed following]
    rfl

theorem second?_local {operator : QuoteOperator} {delimiter : Char} {text taken rest : Text}
    (h : second? operator delimiter text = some (taken, rest)) (following : Text) :
    second? operator delimiter (taken ++ following) = some (taken, following) := by
  unfold second? at h ⊢
  split at h
  · rename_i twoPart
    rw [if_pos twoPart]
    exact replacement?_local h following
  · rename_i onePart
    rw [if_neg onePart]
    cases h
    rfl

theorem operatorQuote?_eq_some_iff {text taken rest : Text} :
    operatorQuote? text = some (taken, rest) ↔
      ∃ operator behind gap delimiter body first middle second tail,
        QuoteOperator.read? text = some (operator, behind) ∧
        Delimiter.behind? isDelimiter behind = some (gap, delimiter, body) ∧
        delimited? delimiter body = some (first, middle) ∧
        second? operator delimiter middle = some (second, tail) ∧
        taken = operator.spelling ++ gap ++ first ++ second ++ (cut isModifier tail).1 ∧
        rest = (cut isModifier tail).2 := by
  simp only [operatorQuote?, Option.bind_eq_bind, Option.bind_eq_some_iff, Option.pure_def,
    Option.some.injEq, Prod.mk.injEq]
  constructor
  · rintro ⟨⟨operator, behind⟩, spelled, ⟨gap, delimiter, body⟩, opened, ⟨first, middle⟩, closed,
      ⟨second, tail⟩, replaced, rfl, rfl⟩
    exact ⟨operator, behind, gap, delimiter, body, first, middle, second, tail, spelled, opened,
      closed, replaced, rfl, rfl⟩
  · rintro ⟨operator, behind, gap, delimiter, body, first, middle, second, tail, spelled, opened,
      closed, replaced, rfl, rfl⟩
    exact ⟨(operator, behind), spelled, (gap, delimiter, body), opened, (first, middle), closed,
      (second, tail), replaced, rfl, rfl⟩

theorem delimited?_length {delimiter : Char} {body taken rest : Text}
    (h : delimited? delimiter body = some (taken, rest)) : 2 ≤ taken.length := by
  obtain ⟨inside, rfl, closed⟩ := delimited?_eq_some_iff.1 h
  have last := (Delimiter.getLast?_of_closed closed).1
  cases inside with
  | nil => cases last
  | cons c inside => exact Nat.le_add_left 2 inside.length

/-- A quote is a part that it takes to close, the same whatever follows, and the modifiers
behind that. -/
theorem operatorQuote?_core {text taken rest : Text}
    (h : operatorQuote? text = some (taken, rest)) :
    ∃ core tail, text = core ++ tail ∧ 2 ≤ core.length ∧
      (taken, rest) = (core ++ (cut isModifier tail).1, (cut isModifier tail).2) ∧
      ∀ following, operatorQuote? (core ++ following) =
        some (core ++ (cut isModifier following).1, (cut isModifier following).2) := by
  have whole := operatorQuote?_append h
  obtain ⟨operator, behind, gap, delimiter, body, first, middle, second, tail, spelled, opened,
    closed, replaced, rfl, rfl⟩ := operatorQuote?_eq_some_iff.1 h
  rw [List.append_assoc, cut_append] at whole
  obtain ⟨inside, rfl, closedAgain⟩ := delimited?_local closed
  refine ⟨operator.spelling ++ gap ++ (delimiter :: inside) ++ second, tail, whole.symm, ?_, rfl,
    fun following => ?_⟩
  · have long := delimited?_length closed
    simp only [List.length_append]
    omega
  · obtain ⟨spelledAgain, openedAgain⟩ := Delimiter.opening_local spelled opened
      (inside ++ (second ++ following))
    refine operatorQuote?_eq_some_iff.2 ⟨operator, _, gap, delimiter, _, delimiter :: inside, _,
      second, _, ?_, openedAgain, closedAgain _, second?_local replaced following, rfl, rfl⟩
    simpa using spelledAgain

/-- A letter that goes on with a literal which begins with `first`: strings have no modifiers. -/
def modifies (first c : Char) : Bool :=
  !(first == apostrophe || first == doubleQuote) && isModifier c

theorem modifies_of_string {first : Char} (quotes : first = apostrophe ∨ first = doubleQuote) :
    modifies first = fun _ => false := by
  funext c
  rcases quotes with rfl | rfl <;> rfl

theorem modifies_of_not_string {first : Char}
    (noQuote : ¬ (first = apostrophe ∨ first = doubleQuote)) : modifies first = isModifier := by
  funext c
  rw [not_or] at noQuote
  simp [modifies, noQuote]

/-- **A literal is a part that it takes to close**, the same whatever follows, and the
modifiers behind that. -/
theorem literal?_core {context : Context} {first : Char} {body taken rest : Text}
    (h : literal? context (first :: body) = some (taken, rest)) :
    ∃ core tail, first :: body = core ++ tail ∧ 2 ≤ core.length ∧
      (taken, rest) = (core ++ (cut (modifies first) tail).1, (cut (modifies first) tail).2) ∧
      ∀ following, literal? context (core ++ following) =
        some (core ++ (cut (modifies first) following).1, (cut (modifies first) following).2) := by
  have whole := literal?_append h
  simp only [literal?] at h
  split at h
  · rename_i quotes
    have noModifiers : ∀ text, cut (modifies first) text = ([], text) := by
      intro text
      rw [modifies_of_string quotes]
      exact cut_of_stops fun _ _ => rfl
    obtain ⟨inside, rfl, again⟩ := delimited?_local h
    refine ⟨first :: inside, rest, whole.symm, delimited?_length h, ?_, fun following => ?_⟩
    · rw [noModifiers, List.append_nil]
    · rw [noModifiers, List.append_nil, List.cons_append]
      simp only [literal?, quotes, if_true, again]
  · rename_i noQuote
    rw [modifies_of_not_string noQuote]
    split at h
    · rename_i slash
      subst slash
      split at h
      · rename_i pattern
        simp only [Option.map_eq_some_iff, Prod.mk.injEq] at h
        obtain ⟨⟨quote, tail⟩, closed, rfl, rfl⟩ := h
        rw [List.append_assoc, cut_append] at whole
        obtain ⟨inside, rfl, again⟩ := delimited?_local closed
        refine ⟨'/' :: inside, tail, whole.symm, delimited?_length closed, rfl, fun following => ?_⟩
        simp only [List.cons_append, literal?, noQuote, if_false, if_true, pattern, again,
          Option.map_some]
      · cases h
    · rename_i noSlash
      split at h
      · cases h
      · rename_i outside
        obtain ⟨core, tail, split, long, parts, again⟩ := operatorQuote?_core h
        refine ⟨core, tail, split, long, parts, fun following => ?_⟩
        cases core with
        | nil => cases long
        | cons c core =>
            obtain rfl : first = c := (List.cons.inj split).1
            have found := again following
            rw [List.cons_append] at found ⊢
            simp only [literal?, noQuote, noSlash, outside, if_false]
            exact found

theorem literal?_length {context : Context} {text taken rest : Text}
    (h : literal? context text = some (taken, rest)) : 2 ≤ taken.length := by
  cases text with
  | nil => cases h
  | cons first body =>
      obtain ⟨core, tail, -, long, parts, -⟩ := literal?_core h
      cases parts
      rw [List.length_append]
      omega

theorem literal?_ne_nil {context : Context} {text taken rest : Text}
    (h : literal? context text = some (taken, rest)) : taken ≠ [] := by
  rintro rfl
  cases literal?_length h

/-- A literal is found again before any text that does not go on with its
modifiers. -/
theorem literal?_local {context : Context} {text taken rest : Text}
    (h : literal? context text = some (taken, rest)) {following : Text}
    (stops : Stops isModifier rest → Stops isModifier following) :
    literal? context (taken ++ following) = some (taken, following) := by
  cases text with
  | nil => cases h
  | cons first body =>
      obtain ⟨core, tail, -, -, parts, again⟩ := literal?_core h
      cases parts
      have modifiers : (cut (modifies first) tail).1.all (modifies first) = true :=
        List.all_takeWhile
      have ended : Stops (modifies first) following := by
        by_cases quotes : first = apostrophe ∨ first = doubleQuote
        · rw [modifies_of_string quotes]
          exact fun _ _ => rfl
        · have stopped := stops_cut (modifies first) tail
          rw [modifies_of_not_string quotes] at stopped stops ⊢
          exact stops stopped
      have found := again ((cut (modifies first) tail).1 ++ following)
      rwa [cut_append_of_all modifiers ended, ← List.append_assoc] at found

/-! ## What completes a quote -/

/-- The text completes a quote of which the first part has `inner` pairs open. -/
def Completes (operator : QuoteOperator) (delimiter : Char) (inner : Nat) (text : Text) : Prop :=
  ∃ first rest,
    Delimiter.closeFrom delimiter (Delimiter.closer delimiter) inner text = .closed first rest ∧
      (second? operator delimiter rest).isSome = true

instance (operator : QuoteOperator) (delimiter : Char) (inner : Nat) (text : Text) :
    Decidable (Completes operator delimiter inner text) :=
  match found : Delimiter.closeFrom delimiter (Delimiter.closer delimiter) inner text with
  | .closed first rest =>
      decidable_of_iff ((second? operator delimiter rest).isSome = true)
        (by simp [Completes, found, and_assoc])
  | .unclosed _ => .isFalse (by simp [Completes, found])

/-- A quote of one part is complete where it closes. -/
theorem completes_q_iff {delimiter : Char} {inner : Nat} {text : Text} :
    Completes .q delimiter inner text ↔ ∃ first rest,
      Delimiter.closeFrom delimiter (Delimiter.closer delimiter) inner text =
        .closed first rest := by
  simp [Completes, second?, QuoteOperator.twoPart]

theorem delimited?_isSome_iff {delimiter : Char} {body : Text} :
    (delimited? delimiter body).isSome = true ↔ Completes .q delimiter 0 body := by
  rw [completes_q_iff, Option.isSome_iff_exists]
  constructor
  · rintro ⟨⟨taken, rest⟩, found⟩
    obtain ⟨inside, -, closed⟩ := delimited?_eq_some_iff.1 found
    exact ⟨inside, rest, closed⟩
  · rintro ⟨inside, rest, closed⟩
    exact ⟨_, delimited?_eq_some_iff.2 ⟨inside, rfl, closed⟩⟩

/-- The second part of a quote that does not nest ends where the delimiter stands
again. -/
theorem replacement?_isSome_iff {delimiter : Char} (plain : Delimiter.nests delimiter = false)
    {text : Text} :
    (replacement? delimiter text).isSome = true ↔ Completes .q delimiter 0 text := by
  rw [← delimited?_isSome_iff, replacement?, plain]
  simp [delimited?]

/-- The second part behind brackets begins at the first character that is not
blank. -/
theorem replacement?_bracket_isSome_iff {delimiter : Char}
    (nesting : Delimiter.nests delimiter = true) {blanks body : Text} {c : Char}
    (blank : IsBlanks blanks) (solid : isBlank c = false) :
    (replacement? delimiter (blanks ++ c :: body)).isSome = true ↔
      isDelimiter c = true ∧ Completes .q c 0 body := by
  have opens : cut isBlank (blanks ++ c :: body) = (blanks, c :: body) :=
    cut_append_of_all blank (by simpa using solid)
  rw [← delimited?_isSome_iff, replacement?, nesting, opens]
  by_cases delimits : isDelimiter c = true <;> simp [delimits]

theorem completes_iff_of_onePart {operator : QuoteOperator} (onePart : operator.twoPart = false)
    {delimiter : Char} {inner : Nat} {text : Text} :
    Completes operator delimiter inner text ↔ Completes .q delimiter inner text := by
  rw [completes_q_iff]
  simp [Completes, second?, onePart]

/-! ## Where a quote begins -/

/-- A quote that begins in code, closed or not: its operator, its delimiter and the text
behind that.  A string or a pattern between slashes counts as a quote of one part. -/
structure Opening where
  operator : QuoteOperator
  delimiter : Char
  body : Text
  deriving DecidableEq, Repr

namespace Opening

/-- The same quote in a longer text. -/
def append (opening : Opening) (following : Text) : Opening :=
  { opening with body := opening.body ++ following }

/-- The text behind the delimiter completes the quote. -/
def Closes (opening : Opening) : Prop :=
  Completes opening.operator opening.delimiter 0 opening.body

instance (opening : Opening) : Decidable opening.Closes :=
  inferInstanceAs (Decidable (Completes ..))

end Opening

/-- The quote with an operator that begins at `text`. -/
def operatorOpening? (text : Text) : Option Opening := do
  let (operator, rest) ← QuoteOperator.read? text
  let (_, delimiter, body) ← Delimiter.behind? isDelimiter rest
  return ⟨operator, delimiter, body⟩

/-- The quote that begins at `text`. -/
def opening? (context : Context) : Text → Option Opening
  | [] => none
  | c :: rest =>
      if c = apostrophe ∨ c = doubleQuote then some ⟨.q, c, rest⟩
      else if c = '/' then if context.startsPattern then some ⟨.m, c, rest⟩ else none
      else if context.insideName then none
      else operatorOpening? (c :: rest)

theorem operatorQuote?_isSome_iff {text : Text} :
    (operatorQuote? text).isSome = true ↔
      ∃ opening, operatorOpening? text = some opening ∧ opening.Closes := by
  cases spelled : QuoteOperator.read? text with
  | none => simp [operatorQuote?, operatorOpening?, spelled]
  | some word =>
      obtain ⟨operator, behind⟩ := word
      cases opened : Delimiter.behind? isDelimiter behind with
      | none => simp [operatorQuote?, operatorOpening?, spelled, opened]
      | some found =>
          obtain ⟨gap, delimiter, body⟩ := found
          simp only [operatorQuote?, operatorOpening?, spelled, opened, Option.bind_eq_bind,
            Option.bind_some, Option.pure_def, Option.some.injEq, exists_eq_left', Opening.Closes,
            Completes]
          constructor
          · intro isSome
            obtain ⟨quote, found⟩ := Option.isSome_iff_exists.1 isSome
            simp only [Option.bind_eq_some_iff, Prod.exists] at found
            obtain ⟨first, middle, closed, second, tail, replaced, -⟩ := found
            obtain ⟨inside, -, closed⟩ := delimited?_eq_some_iff.1 closed
            exact ⟨inside, middle, closed, by rw [replaced]; rfl⟩
          · rintro ⟨inside, middle, closed, replaced⟩
            obtain ⟨⟨second, tail⟩, replaced⟩ := Option.isSome_iff_exists.1 replaced
            simp [delimited?_eq_some_iff.2 ⟨inside, rfl, closed⟩, replaced]

/-- **A literal is a quote that closes.** -/
theorem literal?_isSome_iff {context : Context} {text : Text} :
    (literal? context text).isSome = true ↔
      ∃ opening, opening? context text = some opening ∧ opening.Closes := by
  cases text with
  | nil => simp [literal?, opening?]
  | cons c rest =>
      simp only [literal?, opening?]
      split
      · simp [delimited?_isSome_iff, Opening.Closes]
      · split
        · split
          · have onePart : QuoteOperator.m.twoPart = false := rfl
            simp [delimited?_isSome_iff, Opening.Closes, completes_iff_of_onePart onePart]
          · simp
        · split
          · simp
          · exact operatorQuote?_isSome_iff

end MethodSignature.Block
