/-
# MethodSignature.Proofs.Offset -- scanning at an offset of a source

A scanner sees only the text ahead of it.  `Cursor.scanAt` places a cursor in a source and
scans there.  What is found is what the scanner finds in the text from the offset on, and
a fault lies as far behind the offset as it lies in that text.
-/
import Mathlib.Control.Monad.Basic
import MethodSignature.Proofs.Value

namespace MethodSignature

set_option autoImplicit false

/-- A text cut off behind its first part. -/
theorem Text.take_append_of_length_le {before text : Text} {length : Nat}
    (inside : before.length ≤ length) :
    (before ++ text).take length = before ++ text.take (length - before.length) := by
  rw [List.take_append, List.take_of_length_le inside]

namespace Cursor

variable {α : Type}

/-- What a scanner finds at an offset of a source, and the text behind what it took. -/
def scanAt (scanner : Text → Scan α) (source : Text) (offset : Int) : Except Failure (α × Text) :=
  match place source offset with
  | .error failure => .error failure
  | .ok cursor =>
      match scan scanner cursor with
      | .ok value moved => .ok (value, moved.rest)
      | .error failure _ => .error failure

theorem scanAt_append (scanner : Text → Scan α) (before text : Text) :
    scanAt scanner (before ++ text) before.length =
      match (scanner text).result with
      | .ok value => .ok (value, (scanner text).rest)
      | .error fault => .error (.fault (fault.shift before.length)) := by
  rw [scanAt, place_append]
  simp only [scan]
  cases (scanner text).result <;> rfl

/-- A source is scanned at one of its offsets, or the offset lies outside. -/
theorem scanAt_cases (scanner : Text → Scan α) (source : Text) (offset : Int) :
    (∃ before text, source = before ++ text ∧ offset = before.length) ∨
      scanAt scanner source offset = .error (.outside offset source.length) := by
  by_cases inside : 0 ≤ offset ∧ offset ≤ source.length
  · refine .inl ⟨source.take offset.toNat, source.drop offset.toNat,
      (List.take_append_drop ..).symm, ?_⟩
    simp only [List.length_take]
    omega
  · exact .inr (by rw [scanAt, place, if_neg inside])

/-- A literal is found at an offset where it is found at the beginning of the text from there
on. -/
theorem scanAt_eq_some_iff {scanner : Text → Scan (Option Text)}
    (decides : ∀ text, Grammar.Decides text (scanner text)) {source found rest : Text}
    {offset : Int} :
    scanAt scanner source offset = .ok (some found, rest) ↔
      ∃ before text, source = before ++ text ∧ offset = before.length ∧
        scanner text = .present found rest := by
  constructor
  · intro h
    rcases scanAt_cases scanner source offset with ⟨before, text, rfl, rfl⟩ | outside
    · refine ⟨before, text, rfl, rfl, ?_⟩
      rw [scanAt_append] at h
      have decided := decides text
      generalize scanner text = outcome at h decided
      cases decided with
      | absent => cases h
      | present taken behind =>
          cases h
          rfl
      | fault fault => cases h
    · rw [outside] at h
      cases h
  · rintro ⟨before, text, rfl, rfl, present⟩
    rw [scanAt_append, present]
    rfl

theorem scanAt_zero_iff {scanner : Text → Scan (Option Text)}
    (decides : ∀ text, Grammar.Decides text (scanner text)) {text found rest : Text} :
    scanAt scanner text 0 = .ok (some found, rest) ↔ scanner text = .present found rest := by
  rw [scanAt_eq_some_iff decides]
  constructor
  · rintro ⟨before, text, rfl, place, present⟩
    obtain rfl := List.eq_nil_of_length_eq_zero (Int.natCast_eq_zero.1 place.symm)
    exact present
  · intro present
    exact ⟨[], text, rfl, rfl, present⟩

theorem scanAt_eq_fault_iff {scanner : Text → Scan α} {source : Text} {offset : Int}
    {fault : Fault} :
    scanAt scanner source offset = .error (.fault fault) ↔
      ∃ before text inner, source = before ++ text ∧ offset = before.length ∧
        (scanner text).result = .error inner ∧ fault = inner.shift before.length := by
  constructor
  · intro h
    rcases scanAt_cases scanner source offset with ⟨before, text, rfl, rfl⟩ | outside
    · refine ⟨before, text, ?_⟩
      rw [scanAt_append] at h
      cases failed : (scanner text).result with
      | ok value =>
          rw [failed] at h
          cases h
      | error inner =>
          rw [failed] at h
          cases h
          exact ⟨inner, rfl, rfl, rfl, rfl⟩
    · rw [outside] at h
      cases h
  · rintro ⟨before, text, inner, rfl, rfl, failed, rfl⟩
    rw [scanAt_append, failed]

end Cursor

end MethodSignature
