/-
# MethodSignature.Proofs.Closing -- where a delimited text closes

The search for a closing delimiter steps over a backslash and the character behind it at once.
What it finds can be said without such steps, position by position: a character is hidden if
the run of backslashes just before it is odd (`Text.EndsHiding`), and a delimited text ends at the
first closing delimiter not hidden where the closing ones, counted from the opening one on, exceed
the nested opening ones by one.

`Searched` says so of the search with any number of pairs open, and `searched` proves it along
the recursion of the search.  `closingAt_spec` is the result at a place of a text.
-/
import Mathlib.Data.Nat.Count
import Mathlib.Order.Bounds.Basic
import MethodSignature.Proofs.Delimited

namespace MethodSignature

set_option autoImplicit false

namespace Text

/-! ## Runs of backslashes -/

/-- How many backslashes a text ends with. -/
def backslashes (text : Text) : Nat := (text.reverse.takeWhile (· == backslash)).length

/-- The text ends with an odd number of backslashes, so that the last hides what comes next. -/
def EndsHiding (text : Text) : Prop := backslashes text % 2 = 1

instance (text : Text) : Decidable (EndsHiding text) := inferInstanceAs (Decidable (_ = _))

theorem backslashes_cons {c : Char} (plain : c ≠ backslash) (text : Text) :
    backslashes (c :: text) = backslashes text := by
  have stops : [c].takeWhile (· == backslash) = [] := by simp [plain]
  rw [backslashes, List.reverse_cons, List.takeWhile_append, stops]
  split
  · rename_i all
    rw [List.append_nil, ← all, backslashes]
  · rfl

/-- A backslash and the character it hides leave it open whether the text behind them hides. -/
theorem endsHiding_escape (escaped : Char) (text : Text) :
    EndsHiding (backslash :: escaped :: text) ↔ EndsHiding text := by
  have whole : (backslash :: escaped :: text).reverse = text.reverse ++ [escaped, backslash] := by
    simp
  rw [EndsHiding, EndsHiding, backslashes, whole, List.takeWhile_append, backslashes]
  split
  · -- only backslashes follow, and the pair adds none or two to their run
    rename_i all
    rw [List.length_append, ← all]
    by_cases another : escaped = backslash
    · simp [another]
    · simp [another]
  · rfl

end Text

namespace Delimiter

open Text

/-! ## Characters that are not hidden -/

/-- The character stands at the position and is not hidden. -/
def Stands (body : Text) (c : Char) (position : Nat) : Prop :=
  body[position]? = some c ∧ ¬ EndsHiding (body.take position)

instance (body : Text) (c : Char) : DecidablePred (Stands body c) :=
  fun _ => inferInstanceAs (Decidable (_ ∧ _))

section Stands

variable {c d : Char} {rest : Text} {position : Nat}

theorem stands_zero : Stands (d :: rest) c 0 ↔ d = c := by
  simp [Stands, EndsHiding, backslashes]

theorem stands_succ (plain : d ≠ backslash) :
    Stands (d :: rest) c (position + 1) ↔ Stands rest c position := by
  simp [Stands, EndsHiding, backslashes_cons plain]

theorem stands_escape (escaped : Char) :
    Stands (backslash :: escaped :: rest) c (position + 2) ↔ Stands rest c position := by
  simp [Stands, endsHiding_escape]

theorem not_stands_escaped (escaped : Char) : ¬ Stands (backslash :: escaped :: rest) c 1 := by
  simp [Stands, EndsHiding, backslashes]

theorem count_cons (plain : d ≠ backslash) (stop : Nat) :
    Nat.count (Stands (d :: rest) c) (stop + 1) =
      Nat.count (Stands rest c) stop + if d = c then 1 else 0 := by
  simp only [Nat.count_succ', stands_zero, stands_succ plain]

theorem count_escape (plain : c ≠ backslash) (escaped : Char) (stop : Nat) :
    Nat.count (Stands (backslash :: escaped :: rest) c) (stop + 2) =
      Nat.count (Stands rest c) stop := by
  have first : ¬ Stands (backslash :: escaped :: rest) c 0 := fun stands =>
    plain (stands_zero.1 stands).symm
  simp only [Nat.count_succ', stands_escape, Nat.zero_add, not_stands_escaped, first, if_false,
    Nat.add_zero]

end Stands

/-- Of the characters not hidden before a position, how many more close than open.  A delimiter
that closes itself opens none. -/
def excess (opening closing : Char) (body : Text) (stop : Nat) : Int :=
  Nat.count (Stands body closing) stop -
    if opening = closing then 0 else (Nat.count (Stands body opening) stop : Int)

/-- A search with `inner` pairs open can end at the position. -/
def Reaches (opening closing : Char) (inner : Nat) (body : Text) (position : Nat) : Prop :=
  position < body.length ∧ ¬ EndsHiding (body.take position) ∧
    excess opening closing body (position + 1) = inner + 1

section Excess

variable {opening closing : Char}

theorem excess_zero (body : Text) : excess opening closing body 0 = 0 := by
  simp [excess]

theorem excess_cons {c : Char} (plain : c ≠ backslash) (rest : Text) (stop : Nat) :
    excess opening closing (c :: rest) (stop + 1) =
      excess opening closing rest stop + (if c = closing then 1 else 0) -
        if opening ≠ closing ∧ c = opening then 1 else 0 := by
  by_cases same : opening = closing
  · simp only [excess, count_cons plain, same, if_true, ne_eq, not_true_eq_false, false_and,
      if_false]
    split <;> omega
  · simp only [excess, count_cons plain, same, if_false, ne_eq, not_false_eq_true, true_and]
    split <;> split <;> omega

/-- A backslash is not counted. -/
theorem excess_backslash (openingPlain : opening ≠ backslash) (closingPlain : closing ≠ backslash)
    (rest : Text) : excess opening closing (backslash :: rest) 1 = 0 := by
  simp [excess, Nat.count_succ, stands_zero, openingPlain.symm, closingPlain.symm]

theorem excess_escape (openingPlain : opening ≠ backslash) (closingPlain : closing ≠ backslash)
    (escaped : Char) (rest : Text) (stop : Nat) :
    excess opening closing (backslash :: escaped :: rest) (stop + 2) =
      excess opening closing rest stop := by
  simp only [excess, count_escape openingPlain, count_escape closingPlain]

end Excess

/-! ## The search -/

/-- What a search with `inner` pairs open finds in a text: the first position it can end at, or
the number of pairs open at the end of a text where there is none. -/
inductive Searched (opening closing : Char) (inner : Nat) (body : Text) : Closing → Prop
  | closed {taken rest : Text} {position : Nat} : taken.length = position + 1 →
      IsLeast {position | Reaches opening closing inner body position} position →
      Searched opening closing inner body (.closed taken rest)
  | unclosed {depth : Nat} : (∀ position, ¬ Reaches opening closing inner body position) →
      1 ≤ depth → (depth : Int) = inner + 1 - excess opening closing body body.length →
      Searched opening closing inner body (.unclosed depth)

/-- The least of what holds only from a distance on. -/
theorem isLeast_iff_of_shift {p q : Nat → Prop} {distance : Nat} (before : ∀ k < distance, ¬ p k)
    (shift : ∀ k, p (distance + k) ↔ q k) {n : Nat} :
    IsLeast {k | p k} n ↔ ∃ k, n = distance + k ∧ IsLeast {k | q k} k := by
  have beyond : ∀ n, p n → ∃ k, n = distance + k := fun n member =>
    Nat.exists_eq_add_of_le (Nat.le_of_not_lt fun early => before n early member)
  constructor
  · rintro ⟨member, least⟩
    obtain ⟨k, rfl⟩ := beyond n member
    refine ⟨k, rfl, (shift k).1 member, fun other holds => ?_⟩
    have := least ((shift other).2 holds)
    omega
  · rintro ⟨k, rfl, member, least⟩
    refine ⟨(shift k).2 member, fun other holds => ?_⟩
    obtain ⟨k', rfl⟩ := beyond other holds
    have := least ((shift k').1 holds)
    omega

section Searched

variable {opening closing : Char} {inner outer : Nat} {rest : Text} {found : Closing}

/-- The search goes on behind `lead`, of which no position is reached and which hides nothing of
what comes next. -/
theorem Searched.prepend (h : Searched opening closing inner rest found) (lead : Text)
    (hides : ∀ text, EndsHiding (lead ++ text) ↔ EndsHiding text)
    (shift : ∀ stop, excess opening closing (lead ++ rest) (lead.length + stop) =
      excess opening closing rest stop + outer - inner)
    (before : ∀ position < lead.length,
      ¬ Reaches opening closing outer (lead ++ rest) position) :
    Searched opening closing outer (lead ++ rest) (found.after lead) := by
  have reaches : ∀ position, Reaches opening closing outer (lead ++ rest) (lead.length + position) ↔
      Reaches opening closing inner rest position := by
    intro position
    rw [Reaches, Reaches, List.length_append, List.take_length_add_append, hides,
      Nat.add_assoc, shift, Nat.add_lt_add_iff_left]
    refine and_congr_right fun _ => and_congr_right fun _ => ?_
    omega
  cases h with
  | @closed taken behind position length least =>
      have longer : (lead ++ taken).length = lead.length + position + 1 := by
        rw [List.length_append, length, Nat.add_assoc]
      exact .closed longer ((isLeast_iff_of_shift before reaches).2 ⟨position, rfl, least⟩)
  | @unclosed depth never positive counted =>
      refine .unclosed (fun position reached => ?_) positive ?_
      · by_cases early : position < lead.length
        · exact before position early reached
        · obtain ⟨n, rfl⟩ := Nat.exists_eq_add_of_le (Nat.le_of_not_lt early)
          exact never n ((reaches n).1 reached)
      · rw [List.length_append, shift]
        omega

/-- A character that does not close the last pair is passed over. -/
theorem Searched.cons {c : Char} (h : Searched opening closing inner rest found)
    (plain : c ≠ backslash)
    (counted : (inner : Int) = outer - (if c = closing then 1 else 0) +
      if opening ≠ closing ∧ c = opening then 1 else 0) :
    Searched opening closing outer (c :: rest) (found.after [c]) := by
  refine h.prepend [c] ?_ ?_ ?_
  · intro text
    rw [List.singleton_append, EndsHiding, backslashes_cons plain, EndsHiding]
  · intro stop
    rw [List.singleton_append, List.length_singleton, Nat.add_comm, excess_cons plain]
    omega
  · intro position early reached
    obtain rfl : position = 0 := by simpa using early
    have reachedHere := reached.2.2
    rw [List.singleton_append, excess_cons plain, excess_zero] at reachedHere
    omega

theorem Searched.escape (h : Searched opening closing inner rest found)
    (openingPlain : opening ≠ backslash) (closingPlain : closing ≠ backslash) (escaped : Char) :
    Searched opening closing inner (backslash :: escaped :: rest)
      (found.after [backslash, escaped]) := by
  refine h.prepend [backslash, escaped] (endsHiding_escape escaped) ?_ ?_
  · intro stop
    have shifted := excess_escape openingPlain closingPlain escaped rest stop
    rw [show [backslash, escaped].length + stop = stop + 2 from Nat.add_comm ..]
    simp only [List.cons_append, List.nil_append, shifted]
    omega
  · -- the first position counts nothing, and the second is hidden
    intro position early reached
    simp only [List.length_cons, List.length_nil] at early
    obtain ⟨-, shown, counted⟩ := reached
    cases position with
    | zero =>
        have none := excess_backslash openingPlain closingPlain (escaped :: rest)
        simp only [List.cons_append, List.nil_append, Nat.zero_add, none] at counted
        omega
    | succ position =>
        obtain rfl : position = 0 := by omega
        have hidden : EndsHiding [backslash] := by decide
        exact absurd hidden shown

theorem searched_nil (inner : Nat) :
    Searched opening closing inner [] (.unclosed (inner + 1)) := by
  refine .unclosed (fun position reached => absurd reached.1 (Nat.not_lt_zero _))
    (Nat.le_add_left 1 inner) ?_
  rw [List.length_nil, excess_zero]
  omega

theorem searched_backslash (openingPlain : opening ≠ backslash) (closingPlain : closing ≠ backslash)
    (inner : Nat) : Searched opening closing inner [backslash] (.unclosed (inner + 1)) := by
  have none := excess_backslash openingPlain closingPlain []
  refine .unclosed (fun position reached => ?_) (Nat.le_add_left 1 inner) ?_
  · obtain ⟨early, -, counted⟩ := reached
    obtain rfl : position = 0 := by simpa using early
    rw [Nat.zero_add, none] at counted
    omega
  · rw [List.length_singleton, none]
    omega

theorem searched_closing (closingPlain : closing ≠ backslash) (rest : Text) :
    Searched opening closing 0 (closing :: rest) (.closed [closing] rest) := by
  have counted : excess opening closing (closing :: rest) 1 = 1 := by
    rw [excess_cons closingPlain rest 0, excess_zero]
    simp [eq_comm]
  have single : [closing].length = 0 + 1 := rfl
  exact .closed single ⟨⟨Nat.zero_lt_succ _, by simp [EndsHiding, backslashes], counted⟩,
    fun position _ => Nat.zero_le position⟩

/-- **What the search finds.** -/
theorem searched (openingPlain : opening ≠ backslash) (closingPlain : closing ≠ backslash)
    (inner : Nat) (text : Text) :
    Searched opening closing inner text (closeFrom opening closing inner text) := by
  fun_induction closeFrom opening closing inner text with
  | case1 inner => exact searched_nil inner
  | case2 inner => exact searched_backslash openingPlain closingPlain inner
  | case3 inner escaped tail ih => exact ih.escape openingPlain closingPlain escaped
  | case4 tail _ => exact searched_closing closingPlain tail
  | case5 tail inner notBackslash ih =>
      refine ih.cons notBackslash ?_
      simp [eq_comm]
  | case6 inner tail notBackslash notClosing ih =>
      refine ih.cons notBackslash ?_
      simp [notClosing]
  | case7 inner c tail notBackslash notClosing notOpening ih =>
      refine ih.cons notBackslash ?_
      simp [notClosing, notOpening]

end Searched

/-! ## Delimiters that close themselves -/

section Flat

variable {delimiter : Char} {body : Text} {position : Nat}

theorem excess_of_flat (flat : nests delimiter = false) (stop : Nat) :
    excess delimiter (closer delimiter) body stop = Nat.count (Stands body delimiter) stop := by
  simp [excess, closer_of_not_nests flat]

theorem exists_stands_of_reaches (flat : nests delimiter = false)
    (h : Reaches delimiter (closer delimiter) 0 body position) :
    ∃ k ≤ position, Stands body delimiter k := by
  have counted := h.2.2
  rw [excess_of_flat flat] at counted
  have some : Nat.count (Stands body delimiter) (position + 1) ≠ 0 := by omega
  obtain ⟨k, early, stands⟩ := Nat.count_ne_iff_exists.1 some
  exact ⟨k, Nat.le_of_lt_succ early, stands⟩

/-- A search for a delimiter that closes itself ends where the delimiter stands first. -/
theorem isLeast_reaches_of_isLeast (flat : nests delimiter = false)
    (h : IsLeast {position | Stands body delimiter position} position) :
    IsLeast {position | Reaches delimiter (closer delimiter) 0 body position} position := by
  have stands : Stands body delimiter position := h.1
  have inside : position < body.length := (List.getElem?_eq_some_iff.1 stands.1).1
  have noneBefore : Nat.count (Stands body delimiter) position = 0 :=
    Nat.count_iff_forall_not.2 fun k early stands' => absurd (h.2 stands') (Nat.not_le_of_lt early)
  constructor
  · refine ⟨inside, stands.2, ?_⟩
    rw [excess_of_flat flat, Nat.count_succ, if_pos stands, noneBefore]
    rfl
  · intro other reached
    obtain ⟨k, early, stands⟩ := exists_stands_of_reaches flat reached
    exact Nat.le_trans (h.2 stands) early

end Flat

/-! ## At a place of a text -/

/-- The place behind the delimiter that closes the one at `start`, or none and the number of
delimiters open at the end of the text. -/
def closingAt (text : Text) (start : Nat) : Option Nat × Nat :=
  match text.drop start with
  | [] => (none, 0)
  | delimiter :: body =>
      match close delimiter body with
      | .closed taken _ => (some (start + 1 + taken.length), 0)
      | .unclosed depth => (none, depth)

/-- The run of backslashes between `start` and a place just before `position` is odd. -/
def Escaped (text : Text) (start position : Nat) : Prop :=
  EndsHiding ((text.take position).drop (start + 1))

/-- The character stands somewhere behind `start`, and is not escaped. -/
def StandsBehind (text : Text) (start : Nat) (c : Char) (position : Nat) : Prop :=
  start < position ∧ text[position]? = some c ∧ ¬ Escaped text start position

instance (text : Text) (start : Nat) (c : Char) : DecidablePred (StandsBehind text start c) :=
  fun _ => inferInstanceAs (Decidable (_ ∧ _ ∧ ¬ (_ = _)))

/-- At the position, the closing delimiters behind `start` exceed the opening ones by one. -/
def ClosesAt (text : Text) (start : Nat) (delimiter : Char) (position : Nat) : Prop :=
  start < position ∧ position < text.length ∧ ¬ Escaped text start position ∧
    Nat.count (StandsBehind text start (closer delimiter)) (position + 1) =
      Nat.count (StandsBehind text start delimiter) (position + 1) + 1

instance (text : Text) (start : Nat) (delimiter : Char) :
    DecidablePred (ClosesAt text start delimiter) :=
  fun _ => inferInstanceAs (Decidable (_ ∧ _ ∧ ¬ (_ = _) ∧ _))

section Place

variable {before body : Text} {delimiter c : Char}

theorem escaped_append (position : Nat) :
    Escaped (before ++ delimiter :: body) before.length (before.length + 1 + position) ↔
      EndsHiding (body.take position) := by
  have cutOff : ((before ++ delimiter :: body).take (before.length + 1 + position)).drop
      (before.length + 1) = body.take position := by
    rw [Nat.add_assoc, List.take_length_add_append, List.drop_length_add_append, Nat.add_comm]
    rfl
  rw [Escaped, cutOff]

theorem standsBehind_append (position : Nat) :
    StandsBehind (before ++ delimiter :: body) before.length c (before.length + 1 + position) ↔
      Stands body c position := by
  have here : (before ++ delimiter :: body)[before.length + 1 + position]? = body[position]? := by
    rw [Nat.add_assoc, List.getElem?_append_right (Nat.le_add_right ..), Nat.add_sub_cancel_left,
      Nat.add_comm, List.getElem?_cons_succ]
  rw [StandsBehind, escaped_append, here, Stands]
  exact and_iff_right (by omega)

theorem count_standsBehind (stop : Nat) :
    Nat.count (StandsBehind (before ++ delimiter :: body) before.length c)
      (before.length + 1 + stop) = Nat.count (Stands body c) stop := by
  have noneBefore : Nat.count (StandsBehind (before ++ delimiter :: body) before.length c)
      (before.length + 1) = 0 :=
    Nat.count_iff_forall_not.2 fun k early stands =>
      absurd stands.1 (Nat.not_lt_of_le (Nat.le_of_lt_succ early))
  rw [Nat.count_add, noneBefore, Nat.zero_add]
  simp only [standsBehind_append]

theorem closesAt_append (nesting : nests delimiter = true) (position : Nat) :
    ClosesAt (before ++ delimiter :: body) before.length delimiter
        (before.length + 1 + position) ↔
      Reaches delimiter (closer delimiter) 0 body position := by
  rw [ClosesAt, Reaches, escaped_append, Nat.add_assoc (before.length + 1) position 1,
    count_standsBehind, count_standsBehind, List.length_append, List.length_cons, excess,
    if_neg (ne_closer_of_nests nesting)]
  constructor
  · rintro ⟨-, inside, shown, counted⟩
    exact ⟨by omega, shown, by omega⟩
  · rintro ⟨inside, shown, counted⟩
    exact ⟨by omega, by omega, shown, by omega⟩

theorem closingAt_append :
    closingAt (before ++ delimiter :: body) before.length =
      match close delimiter body with
      | .closed taken _ => (some (before.length + 1 + taken.length), 0)
      | .unclosed depth => (none, depth) := by
  rw [closingAt, List.drop_left]

theorem closingAt_of_isLeast (plain : delimiter ≠ backslash) {position : Nat}
    (least : IsLeast {position | Reaches delimiter (closer delimiter) 0 body position} position) :
    closingAt (before ++ delimiter :: body) before.length =
      (some (before.length + 1 + position + 1), 0) := by
  have found := searched plain (closer_ne_backslash plain) 0 body
  rw [closingAt_append, close]
  cases closed : closeFrom delimiter (closer delimiter) 0 body with
  | closed taken rest =>
      rw [closed] at found
      cases found with
      | closed length least' =>
          rw [least.unique least']
          simp only [length, Nat.add_assoc]
  | unclosed depth =>
      rw [closed] at found
      cases found with
      | unclosed never => exact absurd least.1 (never position)

theorem closingAt_of_never (plain : delimiter ≠ backslash)
    (never : ∀ position, ¬ Reaches delimiter (closer delimiter) 0 body position) :
    ∃ depth : Nat, 1 ≤ depth ∧
      (depth : Int) = 1 - excess delimiter (closer delimiter) body body.length ∧
      closingAt (before ++ delimiter :: body) before.length =
        (none, if nests delimiter then depth else 0) := by
  have found := searched plain (closer_ne_backslash plain) 0 body
  rw [closingAt_append, close]
  cases closed : closeFrom delimiter (closer delimiter) 0 body with
  | closed taken rest =>
      rw [closed] at found
      cases found with
      | closed length least => exact absurd least.1 (never _)
  | unclosed depth =>
      rw [closed] at found
      cases found with
      | unclosed _ positive counted => exact ⟨depth, positive, by omega, rfl⟩

theorem closingAt_backslash :
    closingAt (before ++ backslash :: body) before.length = (none, 0) := by
  rw [closingAt_append]
  cases closed : close backslash body with
  | closed taken rest => exact absurd rfl (exists_body_of_close closed).1
  | unclosed depth =>
      unfold close at closed
      split at closed
      · cases closed
      · cases closed
        rfl

/-- What closes the delimiter by counting lies behind it. -/
theorem isLeast_closesAt_iff (nesting : nests delimiter = true) {position : Nat} :
    IsLeast {position | ClosesAt (before ++ delimiter :: body) before.length delimiter position}
        position ↔
      ∃ k, position = before.length + 1 + k ∧
        IsLeast {k | Reaches delimiter (closer delimiter) 0 body k} k := by
  refine isLeast_iff_of_shift ?_ (closesAt_append nesting)
  intro k early closes
  exact absurd closes.1 (Nat.not_lt_of_le (Nat.le_of_lt_succ early))

theorem isLeast_standsBehind_iff {position : Nat} :
    IsLeast {position | StandsBehind (before ++ delimiter :: body) before.length c position}
        position ↔
      ∃ k, position = before.length + 1 + k ∧ IsLeast {k | Stands body c k} k := by
  refine isLeast_iff_of_shift ?_ standsBehind_append
  intro k early stands
  exact absurd stands.1 (Nat.not_lt_of_le (Nat.le_of_lt_succ early))

end Place

theorem exists_append_of_getElem? {text : Text} {start : Nat} {c : Char}
    (here : text[start]? = some c) :
    ∃ before body, text = before ++ c :: body ∧ start = before.length := by
  obtain ⟨inside, rfl⟩ := List.getElem?_eq_some_iff.1 here
  refine ⟨text.take start, text.drop (start + 1), ?_, ?_⟩
  · rw [List.getElem_cons_drop, List.take_append_drop]
  · rw [List.length_take, Nat.min_eq_left (Nat.le_of_lt inside)]

/-- **The closing delimiter by position.**  A delimiter that closes itself is closed where it
first stands again unescaped, and a bracket at the first unescaped place where the unescaped closing
brackets behind it exceed the opening ones by one.  Where there is no such place, the number of
brackets open at the end is given, or zero.  A backslash is never closed. -/
theorem closingAt_spec {text : Text} {start : Nat} {delimiter : Char}
    (here : text[start]? = some delimiter) :
    (delimiter = backslash → closingAt text start = (none, 0)) ∧
    (delimiter ≠ backslash → nests delimiter = false →
      (∀ position, IsLeast {position | StandsBehind text start delimiter position} position →
        closingAt text start = (some (position + 1), 0)) ∧
      ((∀ position, ¬ StandsBehind text start delimiter position) →
        closingAt text start = (none, 0))) ∧
    (nests delimiter = true →
      (∀ position, IsLeast {position | ClosesAt text start delimiter position} position →
        closingAt text start = (some (position + 1), 0)) ∧
      ((∀ position, ¬ ClosesAt text start delimiter position) → ∃ depth : Nat, 1 ≤ depth ∧
        (depth : Int) = 1 + Nat.count (StandsBehind text start delimiter) text.length -
          Nat.count (StandsBehind text start (closer delimiter)) text.length ∧
        closingAt text start = (none, depth))) := by
  obtain ⟨before, body, rfl, rfl⟩ := exists_append_of_getElem? here
  refine ⟨?_, ?_, ?_⟩
  · rintro rfl
    exact closingAt_backslash
  · intro plain flat
    constructor
    · intro position first
      obtain ⟨k, rfl, least⟩ := isLeast_standsBehind_iff.1 first
      exact closingAt_of_isLeast plain (isLeast_reaches_of_isLeast flat least)
    · intro never
      have unreached : ∀ k, ¬ Reaches delimiter (closer delimiter) 0 body k := by
        intro k reached
        obtain ⟨k', -, stands⟩ := exists_stands_of_reaches flat reached
        exact never _ ((standsBehind_append k').2 stands)
      obtain ⟨depth, -, -, found⟩ := closingAt_of_never plain unreached
      rw [found, flat]
      rfl
  · intro nesting
    have plain : delimiter ≠ backslash := by
      rintro rfl
      cases nesting
    constructor
    · intro position first
      obtain ⟨k, rfl, least⟩ := (isLeast_closesAt_iff nesting).1 first
      exact closingAt_of_isLeast plain least
    · intro never
      have unreached : ∀ k, ¬ Reaches delimiter (closer delimiter) 0 body k := fun k reached =>
        never _ ((closesAt_append nesting k).2 reached)
      obtain ⟨depth, positive, counted, found⟩ := closingAt_of_never plain unreached
      rw [nesting] at found
      refine ⟨depth, positive, ?_, found⟩
      have length : (before ++ delimiter :: body).length = before.length + 1 + body.length := by
        rw [List.length_append, List.length_cons]
        omega
      rw [length, count_standsBehind, count_standsBehind, counted, excess,
        if_neg (ne_closer_of_nests nesting)]
      omega

/-- An escaped bracket and a pair of backslashes before a bracket, an apostrophe that is escaped,
and a bracket left open. -/
theorem closingAt_spec_escapes :
    IsLeast {position | ClosesAt "q(a\\)(b\\\\))c".toList 1 '(' position} 10 ∧
      closingAt "q(a\\)(b\\\\))c".toList 1 = (some 11, 0) ∧
      (∀ position, ¬ StandsBehind "'it\\' ".toList 0 apostrophe position) ∧
      closingAt "'it\\' ".toList 0 = (none, 0) ∧
      ∃ depth : Nat, (depth : Int) = 1 + 2 - 1 ∧ closingAt "[[\\][a]".toList 0 = (none, depth) := by
  have closes : IsLeast {position | ClosesAt "q(a\\)(b\\\\))c".toList 1 '(' position} 10 := by
    have before : ∀ k < 10, ¬ ClosesAt "q(a\\)(b\\\\))c".toList 1 '(' k := by decide +kernel
    refine ⟨(by decide +kernel : ClosesAt "q(a\\)(b\\\\))c".toList 1 '(' 10), fun k member => ?_⟩
    exact Nat.le_of_not_lt fun early => before k early member
  have quoted : ∀ position, ¬ StandsBehind "'it\\' ".toList 0 apostrophe position := by
    have within : ∀ k < 6, ¬ StandsBehind "'it\\' ".toList 0 apostrophe k := by decide +kernel
    intro position stands
    exact within position (List.getElem?_eq_some_iff.1 stands.2.1).1 stands
  have never : ∀ position, ¬ ClosesAt "[[\\][a]".toList 0 '[' position := by
    have within : ∀ k < 7, ¬ ClosesAt "[[\\][a]".toList 0 '[' k := by decide +kernel
    intro position reached
    exact within position reached.2.1 reached
  have bracket : "q(a\\)(b\\\\))c".toList[1]? = some '(' := rfl
  have mark : "'it\\' ".toList[0]? = some apostrophe := rfl
  have square : "[[\\][a]".toList[0]? = some '[' := rfl
  obtain ⟨-, -, nested⟩ := closingAt_spec bracket
  obtain ⟨-, flat, -⟩ := closingAt_spec mark
  obtain ⟨-, -, openAtEnd⟩ := closingAt_spec square
  obtain ⟨depth, -, counted, found⟩ := (openAtEnd rfl).2 never
  refine ⟨closes, (nested rfl).1 10 closes, quoted, (flat (by decide) rfl).2 quoted, depth, ?_,
    found⟩
  rw [counted]
  decide +kernel

end Delimiter

end MethodSignature
