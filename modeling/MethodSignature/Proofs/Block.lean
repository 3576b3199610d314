/-
# MethodSignature.Proofs.Block -- blocks in another context

`Ends following context inner block` is the scan of a block as a relation, one
constructor for each thing a step can take: an escape, a literal, a brace, any
other character.  It holds exactly where the scan closes (`ends_of_closeFrom`,
`closeFrom_of_ends`).

A block is found again before any text that is milder than the one it was found
before (`scan_of_milder`), and so in itself (`scan_self`).
-/
import MethodSignature.Proofs.Milder

namespace MethodSignature.Block

set_option autoImplicit false

open Text

/-! ## Literals inside a block -/

/-- A quote that begins in a block is seen whatever is behind the block: the brace at its end
is no part of a name, no blank and no delimiter. -/
theorem operatorOpening?_append {text : Text} (ends : text.getLast? = some '}')
    (following : Text) :
    operatorOpening? (text ++ following) =
      (operatorOpening? text).map (·.append following) := by
  obtain ⟨word, rest, restEnds, wordCut⟩ := cut_append_of_last isNameChar ends rfl
  obtain ⟨gap, tail, tailEnds, gapCut⟩ := cut_append_of_last isInlineBlank restEnds rfl
  have alone := wordCut []
  have gapAlone := gapCut []
  rw [List.append_nil, List.append_nil] at alone gapAlone
  cases tail with
  | nil => simp at tailEnds
  | cons delimiter body =>
      cases spelled : QuoteOperator.ofSpelling? word with
      | none => simp [operatorOpening?, QuoteOperator.read?, wordCut, alone, spelled]
      | some operator =>
          by_cases admits : isDelimiter delimiter = true ∧ (gap = [] ∨ ¬ delimiter = '#')
          · simp [operatorOpening?, QuoteOperator.read?, wordCut, alone, spelled,
              Delimiter.behind?, gapCut, gapAlone, admits, Opening.append]
          · simp [operatorOpening?, QuoteOperator.read?, wordCut, alone, spelled,
              Delimiter.behind?, gapCut, gapAlone, admits]

theorem opening?_append {context : Context} {text : Text} (ends : text.getLast? = some '}')
    (following : Text) :
    opening? context (text ++ following) = (opening? context text).map (·.append following) := by
  cases text with
  | nil => simp at ends
  | cons c rest =>
      have append := operatorOpening?_append ends following
      rw [List.cons_append] at append
      simp only [List.cons_append, opening?, append]
      split
      · rfl
      · split
        · split <;> rfl
        · split <;> rfl

theorem operatorOpening?_sound {text : Text} {opening : Opening}
    (h : operatorOpening? text = some opening) :
    isDelimiter opening.delimiter = true ∧
      ∃ lead, text = lead ++ opening.delimiter :: opening.body := by
  simp only [operatorOpening?, Option.bind_eq_bind, Option.bind_eq_some_iff, Option.pure_def,
    Option.some.injEq, Prod.exists] at h
  obtain ⟨operator, rest, spelled, gap, delimiter, body, opened, rfl⟩ := h
  refine ⟨(Delimiter.behind?_eq_some_iff.1 opened).2.1, operator.spelling ++ gap, ?_⟩
  rw [List.append_assoc, Delimiter.behind?_append opened, QuoteOperator.read?_append spelled]

/-- A quote begins with a delimiter, and the text behind that is still ahead. -/
theorem opening?_sound {context : Context} {text : Text} {opening : Opening}
    (h : opening? context text = some opening) :
    isDelimiter opening.delimiter = true ∧
      ∃ lead, text = lead ++ opening.delimiter :: opening.body := by
  cases text with
  | nil => cases h
  | cons c rest =>
      simp only [opening?] at h
      split at h
      · rename_i quotes
        cases h
        refine ⟨?_, [], rfl⟩
        show isDelimiter c = true
        rcases quotes with rfl | rfl <;> decide
      · split at h
        · rename_i slash
          split at h
          · cases h
            subst slash
            exact ⟨(by decide : isDelimiter '/' = true), [], rfl⟩
          · cases h
        · split at h
          · cases h
          · exact operatorOpening?_sound h

/-- Behind a delimiter in a block the block goes on to its brace. -/
theorem getLast?_of_opening? {context : Context} {text : Text} {opening : Opening}
    (ends : text.getLast? = some '}') (h : opening? context text = some opening) :
    opening.body.getLast? = some '}' := by
  obtain ⟨delimits, lead, rfl⟩ := opening?_sound h
  rw [List.getLast?_append, List.getLast?_cons] at ends
  cases last : opening.body.getLast? with
  | none =>
      simp only [last, Option.getD_none, Option.some_or, Option.some.injEq] at ends
      rw [ends] at delimits
      exact absurd delimits (by decide)
  | some c => simpa [last] using ends

/-- No literal begins in a block before the milder of two texts that does not begin
there before the other. -/
theorem literal?_isSome_of_milder {old new : Text} (milder : Milder old new) {context : Context}
    {text : Text} (ends : text.getLast? = some '}')
    (h : (literal? context (text ++ new)).isSome = true) :
    (literal? context (text ++ old)).isSome = true := by
  rw [literal?_isSome_iff, opening?_append ends] at h ⊢
  obtain ⟨_, foundNew, closes⟩ := h
  obtain ⟨opening, found, rfl⟩ := Option.map_eq_some_iff.1 foundNew
  obtain ⟨delimits, -⟩ := opening?_sound found
  have solid : EndsSolid opening.body := ⟨'}', getLast?_of_opening? ends found, by decide, rfl⟩
  exact ⟨opening.append old, by rw [found]; rfl,
    (milder.append solid).quieter delimits (fun _ => rfl) closes⟩

/-! ## The scan as a relation -/

theorem Context.after_append (context : Context) (text rest : Text) :
    context.after (text ++ rest) = (context.after text).after rest :=
  List.foldl_append

/-- No quote begins at a character that is no mark, no slash and no part of a word. -/
theorem opening?_of_unnamed (context : Context) {c : Char} (unnamed : isNameChar c = false)
    (noQuote : ¬ (c = apostrophe ∨ c = doubleQuote)) (noSlash : c ≠ '/') (text : Text) :
    opening? context (c :: text) = none := by
  have word : cut isNameChar (c :: text) = ([], c :: text) :=
    cut_of_stops ((stops_cons ..).2 unnamed)
  simp [opening?, noQuote, noSlash, operatorOpening?, QuoteOperator.read?, word,
    QuoteOperator.ofSpelling?]

theorem opening?_brace (context : Context) {c : Char} (brace : c = '{' ∨ c = '}') (text : Text) :
    opening? context (c :: text) = none := by
  rcases brace with rfl | rfl <;> exact opening?_of_unnamed context rfl (by decide) (by decide) text

theorem opening?_backslash (context : Context) (text : Text) :
    opening? context (backslash :: text) = none :=
  opening?_of_unnamed context rfl (by decide) (by decide) text

theorem literal?_eq_none_of_opening? {context : Context} {text : Text}
    (h : opening? context text = none) : literal? context text = none := by
  rw [← Option.not_isSome_iff_eq_none, literal?_isSome_iff, h]
  rintro ⟨opening, found, -⟩
  cases found

theorem literal?_brace (context : Context) {c : Char} (brace : c = '{' ∨ c = '}') (text : Text) :
    literal? context (c :: text) = none :=
  literal?_eq_none_of_opening? (opening?_brace context brace text)

/-- A block of which `inner` nested blocks are open ends with `block`, in a text that
goes on with `following`. -/
inductive Ends (following : Text) : Context → Nat → Text → Prop
  | close {context : Context} : Ends following context 0 ['}']
  | escape {context : Context} {inner : Nat} {escaped : Char} {inside : Text} :
      Ends following (context.after [backslash, escaped]) inner inside →
      Ends following context inner (backslash :: escaped :: inside)
  | literal {context : Context} {inner : Nat} {c : Char} {more inside : Text} :
      c ≠ backslash →
      literal? context (c :: more ++ (inside ++ following)) =
        some (c :: more, inside ++ following) →
      Ends following (context.after (c :: more)) inner inside →
      Ends following context inner (c :: more ++ inside)
  | nested {context : Context} {inner : Nat} {inside : Text} :
      Ends following (context.push '{') (inner + 1) inside →
      Ends following context inner ('{' :: inside)
  | unnested {context : Context} {inner : Nat} {inside : Text} :
      Ends following (context.push '}') inner inside →
      Ends following context (inner + 1) ('}' :: inside)
  | plain {context : Context} {inner : Nat} {c : Char} {inside : Text} :
      c ≠ backslash → c ≠ '{' → c ≠ '}' →
      literal? context (c :: (inside ++ following)) = none →
      Ends following (context.push c) inner inside →
      Ends following context inner (c :: inside)

theorem Ends.getLast? {following : Text} {context : Context} {inner : Nat} {block : Text}
    (h : Ends following context inner block) : block.getLast? = some '}' := by
  induction h with
  | close => rfl
  | escape _ ih => simp [List.getLast?_cons, ih]
  | literal _ _ _ ih => rw [List.getLast?_append, ih]; rfl
  | nested _ ih => simp [List.getLast?_cons, ih]
  | unnested _ ih => simp [List.getLast?_cons, ih]
  | plain _ _ _ _ _ ih => simp [List.getLast?_cons, ih]

/-- The brace at the end of a block comes before all that is behind, so both texts begin alike. -/
theorem Ends.stops_append {following : Text} {context : Context} {inner : Nat} {block : Text}
    (h : Ends following context inner block) {inClass : Char → Bool} (old new : Text)
    (stops : Stops inClass (block ++ old)) : Stops inClass (block ++ new) := by
  cases block with
  | nil => exact absurd h.getLast? (by simp)
  | cons c rest => simpa using stops

theorem ends_of_closeFrom {fuel : Nat} {context : Context} {inner : Nat} {text block rest : Text}
    (h : closeFrom fuel context inner text = .closed block rest) :
    Ends rest context inner block := by
  fun_induction closeFrom fuel context inner text generalizing block with
  | case1 => simp at h
  | case2 => simp at h
  | case3 => simp at h
  | case4 fuel context inner escaped tail ih =>
      obtain ⟨inside, closed, rfl⟩ := Closing.after_eq_closed h
      exact .escape (ih closed)
  | case5 fuel context inner c tail plain literal tail' found ih =>
      obtain ⟨inside, closed, rfl⟩ := Closing.after_eq_closed h
      have whole := closeFrom_append closed
      subst whole
      cases literal with
      | nil => exact absurd rfl (literal?_ne_nil found)
      | cons d more =>
          have text := literal?_append found
          have same : d = c := by simpa using congrArg List.head? text
          subst same
          rw [← text] at found
          exact .literal plain found (ih closed)
  | case6 fuel context inner tail _ _ ih =>
      obtain ⟨inside, closed, rfl⟩ := Closing.after_eq_closed h
      exact .nested (ih closed)
  | case7 =>
      cases h
      exact .close
  | case8 fuel context tail inner _ _ _ ih =>
      obtain ⟨inside, closed, rfl⟩ := Closing.after_eq_closed h
      exact .unnested (ih closed)
  | case9 fuel context inner c tail plain absent notOpening notClosing ih =>
      obtain ⟨inside, closed, rfl⟩ := Closing.after_eq_closed h
      have whole := closeFrom_append closed
      subst whole
      exact .plain plain notOpening notClosing absent (ih closed)

section Step

variable {fuel : Nat} {context : Context} {inner : Nat} {c : Char} {rest : Text}

theorem closeFrom_literal (plain : c ≠ backslash) {taken tail : Text}
    (found : literal? context (c :: rest) = some (taken, tail)) :
    closeFrom (fuel + 1) context inner (c :: rest) =
      (closeFrom fuel (context.after taken) inner tail).after taken := by
  cases rest <;> simp [closeFrom, plain, found]

theorem closeFrom_nested :
    closeFrom (fuel + 1) context inner ('{' :: rest) =
      (closeFrom fuel (context.push '{') (inner + 1) rest).after ['{'] := by
  have plain : '{' ≠ backslash := by decide
  have absent := literal?_brace context (.inl rfl) rest
  cases rest <;> simp [closeFrom, plain, absent]

theorem closeFrom_close :
    closeFrom (fuel + 1) context 0 ('}' :: rest) = .closed ['}'] rest := by
  have plain : '}' ≠ backslash := by decide
  have absent := literal?_brace context (.inr rfl) rest
  cases rest <;> simp [closeFrom, plain, absent]

theorem closeFrom_unnested :
    closeFrom (fuel + 1) context (inner + 1) ('}' :: rest) =
      (closeFrom fuel (context.push '}') inner rest).after ['}'] := by
  have plain : '}' ≠ backslash := by decide
  have absent := literal?_brace context (.inr rfl) rest
  cases rest <;> simp [closeFrom, plain, absent]

theorem closeFrom_plain (plain : c ≠ backslash) (notOpening : c ≠ '{') (notClosing : c ≠ '}')
    (absent : literal? context (c :: rest) = none) :
    closeFrom (fuel + 1) context inner (c :: rest) =
      (closeFrom fuel (context.push c) inner rest).after [c] := by
  cases rest <;> simp [closeFrom, plain, notOpening, notClosing, absent]

end Step

/-- Every step takes a character of the block, so the length of the block is fuel
enough. -/
theorem closeFrom_of_ends {following : Text} {context : Context} {inner : Nat} {block : Text}
    (h : Ends following context inner block) {fuel : Nat} (enough : block.length ≤ fuel) :
    closeFrom fuel context inner (block ++ following) = .closed block following := by
  induction h generalizing fuel with
  | close =>
      cases fuel with
      | zero => simp at enough
      | succ fuel => exact closeFrom_close
  | @escape context inner escaped inside _ ih =>
      cases fuel with
      | zero => simp at enough
      | succ fuel =>
          have short : inside.length ≤ fuel := by
            simp only [List.length_cons] at enough
            omega
          rw [List.cons_append, List.cons_append, closeFrom_escape, ih short]
          rfl
  | @literal context inner c more inside plain found _ ih =>
      cases fuel with
      | zero => simp at enough
      | succ fuel =>
          have short : inside.length ≤ fuel := by
            simp only [List.length_append, List.length_cons] at enough
            omega
          rw [List.cons_append] at found
          rw [List.append_assoc, List.cons_append, closeFrom_literal plain found, ih short]
          rfl
  | @nested context inner inside _ ih =>
      cases fuel with
      | zero => simp at enough
      | succ fuel =>
          rw [List.cons_append, closeFrom_nested, ih (Nat.le_of_succ_le_succ enough)]
          rfl
  | @unnested context inner inside _ ih =>
      cases fuel with
      | zero => simp at enough
      | succ fuel =>
          rw [List.cons_append, closeFrom_unnested, ih (Nat.le_of_succ_le_succ enough)]
          rfl
  | @plain context inner c inside plain notOpening notClosing absent _ ih =>
      cases fuel with
      | zero => simp at enough
      | succ fuel =>
          rw [List.cons_append, closeFrom_plain plain notOpening notClosing absent,
            ih (Nat.le_of_succ_le_succ enough)]
          rfl

/-- **A block in another context.**  It ends at the same place before any text that
is milder than the one it was found before. -/
theorem Ends.of_milder {old new : Text} (milder : Milder old new) {context : Context} {inner : Nat}
    {block : Text} (h : Ends old context inner block) : Ends new context inner block := by
  induction h with
  | close => exact .close
  | escape _ ih => exact .escape ih
  | @literal context inner c more inside plain found rest ih =>
      exact .literal plain (literal?_local found (rest.stops_append old new)) ih
  | nested _ ih => exact .nested ih
  | unnested _ ih => exact .unnested ih
  | @plain context inner c inside plain notOpening notClosing absent rest ih =>
      refine .plain plain notOpening notClosing ?_ ih
      have ends : (c :: inside).getLast? = some '}' := by
        rw [List.getLast?_cons, rest.getLast?]
        rfl
      rw [← Option.not_isSome_iff_eq_none] at absent ⊢
      exact fun found => absent (literal?_isSome_of_milder milder ends found)

theorem scan_eq_present_iff {text block rest : Text} :
    scan text = .present block rest ↔
      ∃ inside body, text = '{' :: body ∧ block = '{' :: inside ∧
        close body = .closed inside rest := by
  constructor
  · intro h
    unfold scan at h
    split at h
    · rename_i body
      split at h
      · rename_i inside tail closed
        simp only [Scan.present, Scan.mk.injEq] at h
        obtain ⟨rfl, rfl, -⟩ := h
        exact ⟨inside, body, rfl, rfl, closed⟩
      · simp [Scan.present, Scan.fail] at h
    · simp [Scan.present, Scan.absent] at h
  · rintro ⟨inside, body, rfl, rfl, closed⟩
    simp [scan, closed]

theorem scan_braced_iff {body inside rest : Text} :
    scan ('{' :: body) = .present ('{' :: inside) rest ↔ close body = .closed inside rest := by
  rw [scan_eq_present_iff]
  constructor
  · rintro ⟨inside', body', whole, found, closed⟩
    rwa [(List.cons.inj whole).2, (List.cons.inj found).2]
  · intro closed
    exact ⟨inside, body, rfl, rfl, closed⟩

/-- A block is found again before any milder text. -/
theorem scan_of_milder {old new : Text} (milder : Milder old new) {text block : Text}
    (h : scan text = .present block old) : scan (block ++ new) = .present block new := by
  obtain ⟨inside, body, rfl, rfl, closed⟩ := scan_eq_present_iff.1 h
  refine scan_eq_present_iff.2 ⟨inside, inside ++ new, rfl, rfl, ?_⟩
  exact closeFrom_of_ends ((ends_of_closeFrom closed).of_milder milder) (by simp)

/-- A block that is found stands between braces. -/
theorem braces_of_scan {text block rest : Text} (h : scan text = .present block rest) :
    block.head? = some '{' ∧ block.getLast? = some '}' := by
  obtain ⟨inside, body, rfl, rfl, closed⟩ := scan_eq_present_iff.1 h
  have last := (ends_of_closeFrom closed).getLast?
  exact ⟨rfl, by simp [List.getLast?_cons, last]⟩

/-- A block that is found before any text is found in itself. -/
theorem scan_self {text block rest : Text} (h : scan text = .present block rest) :
    scan block = .present block [] := by
  simpa using scan_of_milder (milder_nil rest) h

end MethodSignature.Block
