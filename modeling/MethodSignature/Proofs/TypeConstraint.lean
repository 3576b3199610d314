/-
# MethodSignature.Proofs.TypeConstraint -- a type constraint is read exactly

`scan_extend_exact` says what the scan behind a name does, at any place of any source.
What it answers is a constraint of the grammar, made of the name and of all that it has
taken, and no symbol goes on with it.  Every such constraint is answered, up to the
place where neither its last name nor a symbol goes on.  Where the text ends inside
brackets, the depth reported is the number of brackets taken that opened less those
that closed.

The grammar nests and the scan counts; the runs of the scan (`Extends`) relate the two.
A constraint has one first name (`Token.first_name_unique`), so that a name which is given
is the one the constraint begins with.
-/
import MethodSignature.Proofs.Conservation
import MethodSignature.Report

namespace MethodSignature

set_option autoImplicit false

/-- What is reported as unbalanced has a depth. -/
theorem Cause.exists_depth {cause : Cause} (h : cause.category = .unbalanced) :
    ∃ depth, cause.depth? = some depth := by
  cases cause with
  | openTypeBrackets _ depth | openQuote _ _ depth | openBlock _ depth => exact ⟨depth, rfl⟩
  | _ => cases h

namespace TypeConstraint

open Text

/-! ## Brackets left open -/

theorem IsName.count_eq_zero {name : Text} (h : IsName name) :
    name.count '[' = 0 ∧ name.count ']' = 0 := by
  constructor
  · exact List.count_eq_zero.2 fun member => (h.plain _ member).1 rfl
  · exact List.count_eq_zero.2 fun member => (h.plain _ member).2 rfl

/-- What is open at the end is reported. -/
theorem depth_finish {constraint text taken rest : Text} {depth found : Nat} {fault : Fault}
    (h : finish constraint depth text = ⟨taken, rest, .error fault⟩)
    (reported : fault.cause.depth? = some found) :
    1 ≤ found ∧ depth + taken.count '[' = found + taken.count ']' := by
  unfold finish at h
  split at h
  · cases h
  · rename_i inside
    cases h
    cases reported
    exact ⟨Nat.pos_of_ne_zero inside, rfl⟩

/-- The scan keeps count: what is open at the end was open before, or has been taken and
not closed. -/
theorem depth_extendFrom {fuel : Nat} {constraint text taken rest : Text} {depth found : Nat}
    {fault : Fault} (h : extendFrom fuel constraint depth text = ⟨taken, rest, .error fault⟩)
    (reported : fault.cause.depth? = some found) :
    1 ≤ found ∧ depth + taken.count '[' = found + taken.count ']' := by
  fun_induction extendFrom fuel constraint depth text generalizing taken fault with
  | case1 | case2 | case3 => exact depth_finish h reported
  | case4 | case6 | case7 =>
      -- a symbol astray and a missing name have no depth
      cases h
      cases reported
  | case5 fuel constraint tail depth _ ih =>
      obtain ⟨more, inner, rfl, failed, rfl⟩ := Scan.after_eq_error h
      obtain ⟨unclosed, counted⟩ := ih failed reported
      refine ⟨unclosed, ?_⟩
      have opening : ([']'] ++ more).count '[' = more.count '[' := by simp
      have closing : ([']'] ++ more).count ']' = more.count ']' + 1 := by simp
      omega
  | case8 fuel constraint depth symbol tail _ notClosing _ name tail' read =>
      rename_i depth' ih
      obtain ⟨more, inner, rfl, failed, rfl⟩ := Scan.after_eq_error h
      obtain ⟨unclosed, counted⟩ := ih failed reported
      refine ⟨unclosed, ?_⟩
      obtain ⟨noOpening, noClosing⟩ := (isName_of_name? read).1.count_eq_zero
      have closing : (symbol :: name ++ more).count ']' = more.count ']' := by
        simp [noClosing, notClosing]
      by_cases bracket : symbol = '['
      · have deeper : depth' = depth + 1 := if_pos bracket
        have opening : (symbol :: name ++ more).count '[' = more.count '[' + 1 := by
          simp [noOpening, bracket]
        omega
      · have level : depth' = depth := if_neg bracket
        have opening : (symbol :: name ++ more).count '[' = more.count '[' := by
          simp [noOpening, bracket]
        omega

/-! ## Constraints behind a given name -/

/-- A constraint that begins with a name is taken whole behind that name. -/
theorem extend_of_tail {leading tail rest : Text} (isName : IsName leading) (isTail : IsTail tail)
    (derived : IsConstraint (leading ++ tail)) (noSymbol : Stops isSymbol rest)
    (names : EndsInName tail → NameStops rest) :
    extend leading (tail ++ rest) = ⟨tail, rest, .ok (leading ++ tail)⟩ := by
  obtain ⟨name, tail', same, isName', isTail', taken⟩ := derived.exists_name
  obtain rfl := Token.first_name_unique isName isName' isTail isTail' same
  obtain rfl := List.append_cancel_left same
  have alone : Extends 0 (tail ++ []) [] := taken nofun rfl (.stop (stops_nil _))
  rw [List.append_nil] at alone
  have run := alone.of_following (fun ends _ => names ends) fun _ => noSymbol
  exact extend_eq_ok_iff.2 ⟨rfl, rfl, run⟩

/-- **A type constraint is read exactly**, behind a name at any place of a source. -/
theorem scan_extend_exact {leading : Text} (isName : IsName leading) (cursor : Cursor) :
    (∀ constraint after, Cursor.scan (extend leading) cursor = .ok constraint after →
      ∃ taken, cursor.Goes after taken ∧ constraint = leading ++ taken ∧
        IsConstraint constraint ∧ Stops isSymbol after.rest) ∧
    (∀ tail rest, cursor.rest = tail ++ rest → (∀ c ∈ tail.head?, c = '|' ∨ c = '[') →
      IsConstraint (leading ++ tail) → Stops isSymbol rest →
      (EndsInName tail → Stops isTypeChar rest ∧
        ∀ c more, rest = ':' :: ':' :: c :: more → isLetter c = false) →
      Cursor.scan (extend leading) cursor = .ok (leading ++ tail) (cursor.advance tail rest)) ∧
    (∀ fault after, Cursor.scan (extend leading) cursor = .error (.fault fault) after →
      fault.cause.category = .unbalanced →
      ∃ taken depth, cursor.Goes after taken ∧ fault.cause.depth? = some depth ∧ 1 ≤ depth ∧
        (depth : Int) = taken.count '[' - taken.count ']') := by
  refine ⟨?_, ?_, ?_⟩
  · intro constraint after h
    obtain ⟨taken, rest, scanned, rfl⟩ := Cursor.scan_eq_ok_iff.1 h
    obtain ⟨derived, whole⟩ := isConstraint_extend isName scanned
    have goes := Cursor.goes_of_scanned (covers_extend leading) scanned
    exact ⟨taken, goes, whole, derived, (extend_eq_ok_iff.1 scanned).2.2.stops⟩
  · intro tail rest ahead starts derived noSymbol names
    have isTail : IsTail tail := by
      cases tail with
      | nil => exact stops_nil _
      | cons c tail =>
          rcases starts c rfl with rfl | rfl <;> simp [IsTail, isSymbol]
    have scanned := extend_of_tail isName isTail derived noSymbol fun ends =>
      nameStops_iff.2 (names ends)
    rw [← ahead] at scanned
    exact Cursor.scan_eq_ok_iff.2 ⟨tail, rest, scanned, rfl⟩
  · intro fault after h unbalanced
    obtain ⟨taken, rest, inner, scanned, same, rfl⟩ := Cursor.scan_eq_error_iff.1 h
    cases same
    obtain ⟨depth, reported⟩ := Cause.exists_depth unbalanced
    obtain ⟨unclosed, counted⟩ := depth_extendFrom scanned reported
    have goes := Cursor.goes_of_scanned (covers_extend leading) scanned
    refine ⟨taken, depth, goes, reported, unclosed, ?_⟩
    omega

/-- Behind a bracket no name goes on, so colons end the constraint as a blank does.  Without
its last bracket it is unbalanced. -/
theorem scan_extend_exact_open_bracket :
    IsConstraint "Foo[Bar|Baz[Moo]]".toList ∧
      Cursor.scan (extend "Foo".toList) ⟨[], "[Bar|Baz[Moo]]".toList ++ "::x".toList⟩ =
        .ok ("Foo".toList ++ "[Bar|Baz[Moo]]".toList)
          (Cursor.advance ⟨[], "[Bar|Baz[Moo]]".toList ++ "::x".toList⟩
            "[Bar|Baz[Moo]]".toList "::x".toList) ∧
      ∃ taken, ∃ depth : Nat, Cursor.Goes ⟨[], "[Bar|Baz[Moo]$y".toList⟩
        ⟨"[Bar|Baz[Moo]".toList, "$y".toList⟩ taken ∧ 1 ≤ depth ∧
        (depth : Int) = taken.count '[' - taken.count ']' := by
  have isName : IsName "Foo".toList := .part ⟨rfl, rfl⟩
  obtain ⟨-, -, -, derived, -⟩ := (scan_extend_exact isName ⟨[], "[Bar|Baz[Moo]] $y".toList⟩).1
    "Foo[Bar|Baz[Moo]]".toList ⟨"[Bar|Baz[Moo]]".toList, " $y".toList⟩ rfl
  refine ⟨derived, ?_, ?_⟩
  · have colons : Stops isSymbol "::x".toList := by decide
    refine (scan_extend_exact isName _).2.1 "[Bar|Baz[Moo]]".toList "::x".toList rfl ?_ derived
      colons ?_
    · rintro c ⟨⟩
      exact .inr rfl
    · rintro ⟨c, ⟨⟩, typed⟩
      cases typed
  · obtain ⟨taken, depth, goes, -, counted⟩ :=
      (scan_extend_exact isName ⟨[], "[Bar|Baz[Moo]$y".toList⟩).2.2
        ⟨13, .openTypeBrackets "Foo[Bar|Baz[Moo]".toList 1⟩
        ⟨"[Bar|Baz[Moo]".toList, "$y".toList⟩ rfl rfl
    exact ⟨taken, depth, goes, counted⟩

end TypeConstraint

end MethodSignature
