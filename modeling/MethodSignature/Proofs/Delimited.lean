/-
# MethodSignature.Proofs.Delimited -- what stands between delimiters

`IsBody opening closing` says what may stand between two delimiters: pairs of a backslash and
any character, characters that are neither a backslash nor one of the two delimiters, and,
where the two differ, delimited texts of the same kind.

The search for the closing delimiter reads such a body and the delimiter behind it
(`close_of_isBody`), and whatever it reads is such a body (`exists_body_of_close`).
With `inner` pairs open, it reads one body for each of them and one more (`IsBodies`).
-/
import MethodSignature.Proofs.Delimiter

namespace MethodSignature

set_option autoImplicit false

namespace Delimiter

open Text

/-- A text that may stand between two delimiters. -/
inductive IsBody (opening closing : Char) : Text → Prop
  | nil : IsBody opening closing []
  | escape {c : Char} {rest : Text} :
      IsBody opening closing rest → IsBody opening closing (backslash :: c :: rest)
  | plain {c : Char} {rest : Text} : c ≠ backslash → c ≠ opening → c ≠ closing →
      IsBody opening closing rest → IsBody opening closing (c :: rest)
  | nested {inside rest : Text} : opening ≠ closing → IsBody opening closing inside →
      IsBody opening closing rest →
      IsBody opening closing (opening :: inside ++ closing :: rest)

/-- Bodies one behind the other, each with its closing delimiter: `inner` of them and one more. -/
inductive IsBodies (opening closing : Char) : Nat → Text → Prop
  | last {body : Text} : IsBody opening closing body →
      IsBodies opening closing 0 (body ++ [closing])
  | more {inner : Nat} {body rest : Text} : IsBody opening closing body →
      IsBodies opening closing inner rest →
      IsBodies opening closing (inner + 1) (body ++ closing :: rest)

variable {opening closing : Char}

/-! ## A body is passed over -/

/-- The search goes on behind a body with as many pairs open as before it. -/
theorem closeFrom_of_isBody {body : Text} (h : IsBody opening closing body)
    (openingPlain : opening ≠ backslash) (closingPlain : closing ≠ backslash) (inner : Nat)
    (following : Text) :
    closeFrom opening closing inner (body ++ following) =
      (closeFrom opening closing inner following).after body := by
  induction h generalizing inner following with
  | nil => rw [Closing.after_nil, List.nil_append]
  | escape _ ih =>
      rw [List.cons_append, List.cons_append, closeFrom_escape, ih, Closing.after_after]
      rfl
  | plain notBackslash notOpening notClosing _ ih =>
      rw [List.cons_append, closeFrom_other notBackslash notClosing notOpening, ih,
        Closing.after_after]
      rfl
  | nested different _ _ ihInside ihRest =>
      rw [List.cons_append, List.cons_append, List.append_assoc, List.cons_append,
        closeFrom_opening openingPlain different, ihInside, closeFrom_closing_succ closingPlain,
        ihRest]
      simp

theorem closer_ne_backslash {delimiter : Char} (plain : delimiter ≠ backslash) :
    closer delimiter ≠ backslash := by
  unfold closer
  split
  · decide
  · decide
  · decide
  · decide
  · exact plain

/-- A body with its closing delimiter is read whole. -/
theorem close_of_isBody {delimiter : Char} {body : Text}
    (h : IsBody delimiter (closer delimiter) body) (plain : delimiter ≠ backslash)
    (following : Text) :
    close delimiter (body ++ closer delimiter :: following) =
      .closed (body ++ [closer delimiter]) following := by
  have closerPlain := closer_ne_backslash plain
  rw [close_eq_closed_iff, closeFrom_of_isBody h plain closerPlain,
    closeFrom_closing_zero closerPlain]
  rfl

/-! ## What is read is a body -/

theorem IsBodies.prepend {rest : Text} {inner : Nat} (h : IsBodies opening closing inner rest)
    (lead : Text)
    (step : ∀ body, IsBody opening closing body → IsBody opening closing (lead ++ body)) :
    IsBodies opening closing inner (lead ++ rest) := by
  cases h with
  | last body =>
      rw [← List.append_assoc]
      exact .last (step _ body)
  | more body rest =>
      rw [← List.append_assoc]
      exact .more (step _ body) rest

/-- An opening delimiter joins the two bodies behind it into one. -/
theorem IsBodies.nest {rest : Text} {inner : Nat} (different : opening ≠ closing)
    (h : IsBodies opening closing (inner + 1) rest) :
    IsBodies opening closing inner (opening :: rest) := by
  cases h with
  | @more _ inside rest isInside bodies =>
      have joined := bodies.prepend (opening :: inside ++ [closing]) fun body isBody => by
        simpa using isInside.nested different isBody
      simpa using joined

theorem isBodies_of_closeFrom {inner : Nat} {text taken rest : Text}
    (h : closeFrom opening closing inner text = .closed taken rest) :
    IsBodies opening closing inner taken := by
  fun_induction closeFrom opening closing inner text generalizing taken with
  | case1 => simp at h
  | case2 => simp at h
  | case3 inner escaped tail ih =>
      obtain ⟨inside, found, rfl⟩ := Closing.after_eq_closed h
      exact (ih found).prepend [backslash, escaped] fun body isBody => isBody.escape
  | case4 tail notBackslash =>
      cases h
      exact .last .nil
  | case5 tail inner notBackslash ih =>
      obtain ⟨inside, found, rfl⟩ := Closing.after_eq_closed h
      exact .more .nil (ih found)
  | case6 inner tail notBackslash notClosing ih =>
      obtain ⟨inside, found, rfl⟩ := Closing.after_eq_closed h
      exact (ih found).nest notClosing
  | case7 inner c tail notBackslash notClosing notOpening ih =>
      obtain ⟨inside, found, rfl⟩ := Closing.after_eq_closed h
      exact (ih found).prepend [c] fun body isBody =>
        isBody.plain notBackslash notOpening notClosing

/-- **What is read to a closing delimiter** is a body and that delimiter. -/
theorem exists_body_of_close {delimiter : Char} {text taken rest : Text}
    (h : close delimiter text = .closed taken rest) :
    delimiter ≠ backslash ∧
      ∃ body, IsBody delimiter (closer delimiter) body ∧ taken = body ++ [closer delimiter] := by
  rw [close_eq_closed_iff] at h
  refine ⟨?_, ?_⟩
  · rintro rfl
    exact (getLast?_of_closed h).2 rfl
  · cases isBodies_of_closeFrom h with
    | last isBody => exact ⟨_, isBody, rfl⟩

end Delimiter

end MethodSignature
