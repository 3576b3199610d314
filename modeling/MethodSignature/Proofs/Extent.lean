/-
# MethodSignature.Proofs.Extent -- how far a block reaches

A scan of a block and a scan of the same text with more behind it go over the same literals and
braces, until a quote closes for the second that stays open for the first.  That quote then
runs over all of the shorter text.

Cutting a text off behind a block therefore leaves the block as it is, and a block of a
text cut off is the beginning of the block of the whole (`scanAt_truncate`).

What is behind a block can only close a quote that the block leaves open (`openings`).  The
block is found again exactly before the texts that close none of them (`scanAt_append_iff`).
A block that leaves no quote open is self-delimiting; one that does is not
(`scanAt_apostrophe`).
-/
import MethodSignature.Proofs.Block
import MethodSignature.Proofs.Offset

namespace MethodSignature

set_option autoImplicit false

/-- What begins a closed text begins it with the same text in front of both. -/
theorem Closing.prefix_of_after {closing : Closing} {lead inside longer rest : Text}
    (closed : closing.after lead = .closed longer rest)
    (h : ∀ {tail}, closing = .closed tail rest → inside <+: tail) : lead ++ inside <+: longer := by
  obtain ⟨tail, found, rfl⟩ := after_eq_closed closed
  exact (List.prefix_append_right_inj lead).2 (h found)

theorem Closing.after_eq_closed_append_iff {closing : Closing} {lead inside rest : Text} :
    closing.after lead = .closed (lead ++ inside) rest ↔ closing = .closed inside rest := by
  cases closing <;> simp [after]

namespace Block

open Text

/-- A literal that ends in a text is found there with nothing behind the text. -/
theorem literal?_truncate {context : Context} {text taken rest more : Text}
    (whole : text = taken ++ rest)
    (h : literal? context (text ++ more) = some (taken, rest ++ more)) :
    literal? context text = some (taken, rest) := by
  subst whole
  refine literal?_local h ?_
  intro stops
  cases rest with
  | nil => exact stops_nil _
  | cons c tail => simpa using stops

/-- A literal that is not found in a text runs over all of it. -/
theorem prefix_of_literal? {context : Context} {text more taken rest : Text}
    (absent : literal? context text = none)
    (found : literal? context (text ++ more) = some (taken, rest)) : text <+: taken := by
  have whole := literal?_append found
  have takenFirst : taken <+: text ++ more := ⟨rest, whole⟩
  rcases List.prefix_or_prefix_of_prefix takenFirst (List.prefix_append text more) with
    ⟨behind, inside⟩ | beyond
  · have tail : rest = behind ++ more := by
      rw [← inside, List.append_assoc] at whole
      exact List.append_cancel_left whole
    subst tail
    rw [literal?_truncate inside.symm found] at absent
    cases absent
  · exact beyond

/-! ## Shorter and longer texts -/

/-- A block of a text is the beginning of the block of the text with more behind. -/
theorem Ends.prefix_of_closeFrom {behind more : Text} {context : Context} {inner : Nat}
    {block : Text} (h : Ends behind context inner block) {fuel : Nat} {longer rest : Text}
    (closed : closeFrom fuel context inner (block ++ (behind ++ more)) = .closed longer rest) :
    block <+: longer := by
  induction h generalizing fuel longer with
  | close =>
      cases fuel with
      | zero => cases closed
      | succ fuel =>
          rw [List.cons_append, closeFrom_close] at closed
          cases closed
          exact List.prefix_refl _
  | @escape context inner escaped inside _ ih =>
      cases fuel with
      | zero => cases closed
      | succ fuel =>
          rw [List.cons_append, List.cons_append, closeFrom_escape] at closed
          exact (Closing.prefix_of_after closed ih :)
  | @literal context inner c taken inside plain found ends ih =>
      cases fuel with
      | zero => cases closed
      | succ fuel =>
          have again : literal? context (c :: taken ++ (inside ++ (behind ++ more))) =
              some (c :: taken, inside ++ (behind ++ more)) :=
            literal?_local found (ends.stops_append behind (behind ++ more))
          rw [List.cons_append] at again
          rw [List.append_assoc, List.cons_append, closeFrom_literal plain again] at closed
          exact (Closing.prefix_of_after closed ih :)
  | @nested context inner inside _ ih =>
      cases fuel with
      | zero => cases closed
      | succ fuel =>
          rw [List.cons_append, closeFrom_nested] at closed
          exact (Closing.prefix_of_after closed ih :)
  | @unnested context inner inside _ ih =>
      cases fuel with
      | zero => cases closed
      | succ fuel =>
          rw [List.cons_append, closeFrom_unnested] at closed
          exact (Closing.prefix_of_after closed ih :)
  | @plain context inner c inside plain notOpening notClosing absent _ ih =>
      cases fuel with
      | zero => cases closed
      | succ fuel =>
          rw [List.cons_append] at closed
          cases literal : literal? context (c :: (inside ++ (behind ++ more))) with
          | none =>
              rw [closeFrom_plain plain notOpening notClosing literal] at closed
              exact (Closing.prefix_of_after closed ih :)
          | some found =>
              -- the longer text closes a quote here, which runs over the whole block
              obtain ⟨taken, tail⟩ := found
              rw [closeFrom_literal plain literal] at closed
              obtain ⟨tail', -, rfl⟩ := Closing.after_eq_closed closed
              rw [← List.append_assoc, ← List.cons_append] at literal
              have beyond := prefix_of_literal? absent literal
              exact ((List.prefix_append (c :: inside) behind).trans beyond).trans
                (List.prefix_append taken tail')

theorem prefix_of_scan {text more block rest longer rest' : Text}
    (short : scan text = .present block rest)
    (long : scan (text ++ more) = .present longer rest') : block <+: longer := by
  obtain ⟨inside, body, rfl, rfl, closed⟩ := scan_eq_present_iff.1 short
  obtain ⟨inside', body', whole, rfl, closed'⟩ := scan_eq_present_iff.1 long
  obtain rfl := closeFrom_append closed
  rw [List.cons_append, List.cons.injEq, List.append_assoc] at whole
  rw [← whole.2] at closed'
  exact (List.prefix_append_right_inj ['{']).2
    ((ends_of_closeFrom closed).prefix_of_closeFrom closed')

/-- **Cutting a text off behind a block** leaves the block as it is, down to the block alone;
it stands between braces.  A block of a text cut off is the beginning of the block of
the whole text, if that has one. -/
theorem scanAt_truncate (source : Text) (offset : Int) :
    (∀ block rest, Cursor.scanAt scan source offset = .ok (some block, rest) →
      block.head? = some '{' ∧ block.getLast? = some '}' ∧
      (∀ length, offset.toNat + block.length ≤ length →
        Cursor.scanAt scan (source.take length) offset =
          .ok (some block, (source.take length).drop (offset.toNat + block.length))) ∧
      Cursor.scanAt scan block 0 = .ok (some block, [])) ∧
    ∀ length block rest longer rest',
      Cursor.scanAt scan (source.take length) offset = .ok (some block, rest) →
      Cursor.scanAt scan source offset = .ok (some longer, rest') → block <+: longer := by
  constructor
  · intro block rest found
    obtain ⟨before, text, rfl, rfl, present⟩ :=
      (Cursor.scanAt_eq_some_iff Grammar.decides_block).1 found
    have whole : block ++ rest = text := by
      have covers := covers_scan text
      rwa [present] at covers
    obtain ⟨opens, closes⟩ := braces_of_scan present
    refine ⟨opens, closes, fun length inside => ?_, ?_⟩
    · rw [Int.toNat_natCast] at inside ⊢
      have cutOff : (before ++ text).take length =
          before ++ (block ++ rest.take (length - before.length - block.length)) := by
        rw [take_append_of_length_le (by omega), ← whole, take_append_of_length_le (by omega)]
      have behind : (before ++ (block ++ rest.take (length - before.length - block.length))).drop
          (before.length + block.length) = rest.take (length - before.length - block.length) := by
        rw [← List.append_assoc, ← List.length_append, List.drop_left]
      rw [cutOff, behind]
      refine (Cursor.scanAt_eq_some_iff Grammar.decides_block).2 ⟨before, _, rfl, rfl, ?_⟩
      have milder := milder_truncate (rest.take (length - before.length - block.length))
        (rest.drop (length - before.length - block.length))
      rw [List.take_append_drop] at milder
      exact scan_of_milder milder present
    · exact (Cursor.scanAt_zero_iff Grammar.decides_block).2 (scan_self present)
  · intro length block rest longer rest' short long
    obtain ⟨before, text, cutOff, rfl, found⟩ :=
      (Cursor.scanAt_eq_some_iff Grammar.decides_block).1 short
    obtain ⟨before', text', whole, same, found'⟩ :=
      (Cursor.scanAt_eq_some_iff Grammar.decides_block).1 long
    have joined : before ++ (text ++ source.drop length) = before' ++ text' := by
      rw [← List.append_assoc, ← cutOff, List.take_append_drop, whole]
    obtain ⟨-, rfl⟩ := List.append_inj joined (by omega)
    exact prefix_of_scan found found'

/-- A block that takes in the next one, which closes its apostrophe; and the shorter block of the
text without that. -/
theorem scanAt_truncate_apostrophe :
    Cursor.scanAt scan "= \x7b don't \x7d or \x7b isn't \x7d 1".toList 2 =
        .ok (some "\x7b don't \x7d or \x7b isn't \x7d".toList, " 1".toList) ∧
      Cursor.scanAt scan "= \x7b don't \x7d or \x7b isn't \x7d ".toList 2 =
        .ok (some "\x7b don't \x7d or \x7b isn't \x7d".toList, " ".toList) ∧
      Cursor.scanAt scan "= \x7b don't \x7d or ".toList 2 =
        .ok (some "\x7b don't \x7d".toList, " or ".toList) ∧
      "\x7b don't \x7d".toList <+: "\x7b don't \x7d or \x7b isn't \x7d".toList := by
  have found : Cursor.scanAt scan "= \x7b don't \x7d or \x7b isn't \x7d 1".toList 2 =
      .ok (some "\x7b don't \x7d or \x7b isn't \x7d".toList, " 1".toList) := by decide +kernel
  have cutOff : "= \x7b don't \x7d or \x7b isn't \x7d 1".toList.take 15 =
      "= \x7b don't \x7d or ".toList := by decide +kernel
  have short : Cursor.scanAt scan
      ("= \x7b don't \x7d or \x7b isn't \x7d 1".toList.take 15) 2 =
      .ok (some "\x7b don't \x7d".toList, " or ".toList) := by decide +kernel
  have kept := ((scanAt_truncate _ _).1 _ _ found).2.2.1 25 (by decide +kernel)
  have shorter := (scanAt_truncate _ _).2 15 _ _ _ _ short found
  have cutOff' : "= \x7b don't \x7d or \x7b isn't \x7d 1".toList.take 25 =
      "= \x7b don't \x7d or \x7b isn't \x7d ".toList := by decide +kernel
  rw [cutOff'] at kept
  rw [cutOff] at short
  exact ⟨found, kept.trans (by decide +kernel), short, shorter⟩

/-! ## What is behind a block -/

/-- The quotes that begin in code, do not close in it, and are gone over as ordinary text, found
in at most `fuel` steps. -/
def openingsFrom : Nat → Context → Text → List Opening
  | 0, _, _ => []
  | _ + 1, _, [] => []
  | fuel + 1, context, c :: rest =>
      if c = backslash then
        match rest with
        | [] => []
        | escaped :: rest => openingsFrom fuel (context.after [c, escaped]) rest
      else
        match literal? context (c :: rest) with
        | some (taken, rest) => openingsFrom fuel (context.after taken) rest
        | none =>
            (opening? context (c :: rest)).toList ++ openingsFrom fuel (context.push c) rest

/-- The quotes that a block leaves open. -/
def openings : Text → List Opening
  | '{' :: body => openingsFrom body.length .opened body
  | _ => []

section Step

variable {fuel : Nat} {context : Context} {c : Char} {rest : Text}

theorem openingsFrom_escape (escaped : Char) :
    openingsFrom (fuel + 1) context (backslash :: escaped :: rest) =
      openingsFrom fuel (context.after [backslash, escaped]) rest := by
  simp [openingsFrom]

theorem openingsFrom_literal (plain : c ≠ backslash) {taken tail : Text}
    (found : literal? context (c :: rest) = some (taken, tail)) :
    openingsFrom (fuel + 1) context (c :: rest) =
      openingsFrom fuel (context.after taken) tail := by
  cases rest <;> simp [openingsFrom, plain, found]

theorem openingsFrom_plain (plain : c ≠ backslash) (absent : literal? context (c :: rest) = none) :
    openingsFrom (fuel + 1) context (c :: rest) =
      (opening? context (c :: rest)).toList ++ openingsFrom fuel (context.push c) rest := by
  cases rest <;> simp [openingsFrom, plain, absent]

theorem openingsFrom_brace (brace : c = '{' ∨ c = '}') :
    openingsFrom (fuel + 1) context (c :: rest) = openingsFrom fuel (context.push c) rest := by
  have plain : c ≠ backslash := by rcases brace with rfl | rfl <;> decide
  rw [openingsFrom_plain plain (literal?_brace context brace rest), opening?_brace context brace]
  rfl

end Step

theorem literal?_append_isSome_iff (context : Context) {text : Text}
    (ends : text.getLast? = some '}') (following : Text) :
    (literal? context (text ++ following)).isSome = true ↔
      ∃ opening ∈ (opening? context text).toList, (opening.append following).Closes := by
  rw [literal?_isSome_iff, opening?_append ends]
  simp

/-- The scan of a block goes the same way before any text that closes no quote of the block, and
another way before any other. -/
theorem Ends.closeFrom_append_iff {context : Context} {inner : Nat} {block : Text}
    (alone : Ends [] context inner block) {fuel : Nat} (enough : block.length ≤ fuel)
    (following : Text) :
    closeFrom fuel context inner (block ++ following) = .closed block following ↔
      ∀ opening ∈ openingsFrom fuel context block, ¬ (opening.append following).Closes := by
  induction alone generalizing fuel with
  | close =>
      cases fuel with
      | zero => simp at enough
      | succ fuel =>
          rw [List.cons_append, closeFrom_close, openingsFrom_brace (.inr rfl)]
          cases fuel <;> simp [openingsFrom]
  | @escape context inner escaped inside _ ih =>
      cases fuel with
      | zero => simp at enough
      | succ fuel =>
          have short : inside.length ≤ fuel := by
            simp only [List.length_cons] at enough
            omega
          rw [openingsFrom_escape, ← ih short, List.cons_append, List.cons_append,
            closeFrom_escape]
          exact (Closing.after_eq_closed_append_iff :)
  | @literal context inner c taken inside plain found ends ih =>
      cases fuel with
      | zero => simp at enough
      | succ fuel =>
          have short : inside.length ≤ fuel := by
            simp only [List.length_append, List.length_cons] at enough
            omega
          have again : literal? context (c :: taken ++ (inside ++ following)) =
              some (c :: taken, inside ++ following) :=
            literal?_local found (ends.stops_append [] following)
          rw [List.append_nil, List.cons_append] at found
          rw [List.cons_append] at again
          rw [List.cons_append, openingsFrom_literal plain found, ← ih short, List.cons_append,
            List.append_assoc, closeFrom_literal plain again]
          exact Closing.after_eq_closed_append_iff
  | @nested context inner inside _ ih =>
      cases fuel with
      | zero => simp at enough
      | succ fuel =>
          rw [openingsFrom_brace (.inl rfl), ← ih (Nat.le_of_succ_le_succ enough),
            List.cons_append, closeFrom_nested]
          exact Closing.after_eq_closed_append_iff
  | @unnested context inner inside _ ih =>
      cases fuel with
      | zero => simp at enough
      | succ fuel =>
          rw [openingsFrom_brace (.inr rfl), ← ih (Nat.le_of_succ_le_succ enough),
            List.cons_append, closeFrom_unnested]
          exact Closing.after_eq_closed_append_iff
  | @plain context inner c inside plain notOpening notClosing absent ends ih =>
      cases fuel with
      | zero => simp at enough
      | succ fuel =>
          rw [List.append_nil] at absent
          have last : (c :: inside).getLast? = some '}' := by
            rw [List.getLast?_cons, ends.getLast?]
            rfl
          have isSome := literal?_append_isSome_iff context last following
          rw [List.cons_append] at isSome ⊢
          rw [openingsFrom_plain plain absent]
          simp only [List.mem_append, or_imp, forall_and]
          rw [← ih (Nat.le_of_succ_le_succ enough)]
          cases literal : literal? context (c :: (inside ++ following)) with
          | none =>
              rw [literal] at isSome
              have noneCloses : ∀ opening ∈ (opening? context (c :: inside)).toList,
                  ¬ (opening.append following).Closes := by
                intro opening member closes
                exact absurd (isSome.2 ⟨opening, member, closes⟩) (by simp)
              rw [closeFrom_plain plain notOpening notClosing literal, and_iff_right noneCloses]
              exact (Closing.after_eq_closed_append_iff :)
          | some found =>
              obtain ⟨taken, tail⟩ := found
              rw [literal] at isSome
              obtain ⟨opening, member, closes⟩ := isSome.1 rfl
              rw [closeFrom_literal plain literal]
              refine iff_of_false ?_ fun none => none.1 opening member closes
              -- a quote that closes here cannot end in the block: it would be closed there too
              intro closed
              obtain ⟨rest, found, whole⟩ := Closing.after_eq_closed closed
              obtain rfl := closeFrom_append found
              rw [literal?_truncate whole literal] at absent
              cases absent

/-- **A block is found again** before the texts that close none of the quotes it leaves
open, and before no others. -/
theorem scanAt_append_iff {source : Text} {offset : Int} {block rest : Text}
    (found : Cursor.scanAt scan source offset = .ok (some block, rest)) (following : Text) :
    Cursor.scanAt scan (block ++ following) 0 = .ok (some block, following) ↔
      ∀ opening ∈ openings block, ¬ (opening.append following).Closes := by
  obtain ⟨before, text, rfl, rfl, present⟩ :=
    (Cursor.scanAt_eq_some_iff Grammar.decides_block).1 found
  obtain ⟨inside, _, -, rfl, -⟩ := scan_eq_present_iff.1 present
  have alone := ends_of_closeFrom (scan_braced_iff.1 (scan_self present))
  rw [Cursor.scanAt_zero_iff Grammar.decides_block]
  calc scan ('{' :: inside ++ following) = .present ('{' :: inside) following
      ↔ Ends following .opened 0 inside :=
        scan_braced_iff.trans ⟨ends_of_closeFrom, fun ends => closeFrom_of_ends ends (by simp)⟩
    _ ↔ closeFrom inside.length .opened 0 (inside ++ following) = .closed inside following :=
        ⟨fun ends => closeFrom_of_ends ends (Nat.le_refl _), ends_of_closeFrom⟩
    _ ↔ ∀ opening ∈ openings ('{' :: inside), ¬ (opening.append following).Closes :=
        alone.closeFrom_append_iff (Nat.le_refl _) following

/-- A block that leaves an apostrophe open, before a text without one and before a text
that closes it. -/
theorem scanAt_append_iff_apostrophe :
    Cursor.scanAt scan "if \x7b don't \x7d".toList 3 = .ok (some "\x7b don't \x7d".toList, []) ∧
      Cursor.scanAt scan ("\x7b don't \x7d".toList ++ ") \x7b 1 \x7d".toList) 0 =
        .ok (some "\x7b don't \x7d".toList, ") \x7b 1 \x7d".toList) ∧
      Cursor.scanAt scan ("\x7b don't \x7d".toList ++ ", \x7b isn't \x7d".toList) 0 ≠
        .ok (some "\x7b don't \x7d".toList, ", \x7b isn't \x7d".toList) := by
  have found : Cursor.scanAt scan "if \x7b don't \x7d".toList 3 =
      .ok (some "\x7b don't \x7d".toList, []) := by decide +kernel
  refine ⟨found, (scanAt_append_iff found _).2 (by decide +kernel), fun again => ?_⟩
  exact absurd ((scanAt_append_iff found _).1 again) (by decide +kernel)

/-- **A block is not self-delimiting** where it leaves a quote open: the next block of the text
may close that, and all between the two becomes part of the first. -/
theorem scanAt_apostrophe :
    Cursor.scanAt scan "\x7b don't \x7d".toList 0 = .ok (some "\x7b don't \x7d".toList, []) ∧
      Cursor.scanAt scan ("\x7b don't \x7d".toList ++ ", $y where \x7b isn't \x7d)".toList) 0 =
        .ok (some "\x7b don't \x7d, $y where \x7b isn't \x7d".toList, ")".toList) := by
  decide +kernel

end Block

end MethodSignature
