/-
# MethodSignature.Cursor -- a position in a text

A cursor splits its source into the text before it and the rest.  It only moves
forward.  Looking ahead (`peek`, `preview`, `charAt`) leaves it where it is;
`consume` and `scan` move it over what they take.

The source is never stored: it is `before ++ rest`, so that what a scan answers
depends on `rest` alone and `before` enters only as an offset.
-/
import MethodSignature.Failure
import MethodSignature.Scan

namespace MethodSignature

set_option autoImplicit false

structure Cursor where
  before : Text
  rest : Text
  deriving DecidableEq, Repr

namespace Cursor

variable {α : Type}

/-- A result of `α`, or a failure, with the cursor where either leaves it. -/
abbrev Action (α : Type) := EStateM Failure Cursor α

def source (cursor : Cursor) : Text := cursor.before ++ cursor.rest

def offset (cursor : Cursor) : Nat := cursor.before.length

def atEnd (cursor : Cursor) : Bool := cursor.rest.isEmpty

def start (source : Text) : Cursor := ⟨[], source⟩

/-- The cursor at an offset, refused outside the source. -/
def place (source : Text) (offset : Int) : Except Failure Cursor :=
  if 0 ≤ offset ∧ offset ≤ source.length then
    .ok ⟨source.take offset.toNat, source.drop offset.toNat⟩
  else .error (.outside offset source.length)

/-- The place `distance` ahead.  A place in front of the source is counted from its end. -/
def position (cursor : Cursor) (distance : Int) : Int :=
  let position := cursor.offset + distance
  if position < 0 then position + cursor.source.length else position

/-- Up to `length` characters ahead.  What ends behind the cursor has none. -/
def peek (cursor : Cursor) (length : Int) : Text :=
  cursor.rest.take (cursor.position length - cursor.offset).toNat

/-- The character `index` places ahead, or back where that is negative.  There is none beyond
either end. -/
def charAt? (cursor : Cursor) (index : Int) : Option Char :=
  let position := cursor.position index
  if position < 0 then none else cursor.source[position.toNat]?

/-- How much of the coming input a message shows, unless told otherwise. -/
def previewLength : Nat := 10

/-- The cursor behind `taken`. -/
def advance (cursor : Cursor) (taken rest : Text) : Cursor := ⟨cursor.before ++ taken, rest⟩

def consume (length : Int) : Action Text := fun cursor =>
  if 0 ≤ length ∧ length ≤ cursor.rest.length then
    let taken := cursor.rest.take length.toNat
    .ok taken (cursor.advance taken (cursor.rest.drop length.toNat))
  else .error (.overrun length cursor.offset cursor.rest.length) cursor

/-- Runs a scanner on the rest and moves over what it took. -/
def scan (scanner : Text → Scan α) : Action α := fun cursor =>
  let outcome := scanner cursor.rest
  let moved := cursor.advance outcome.taken outcome.rest
  match outcome.result with
  | .ok value => .ok value moved
  | .error fault => .error (.fault (fault.shift cursor.offset)) moved

/-- A scan at the cursor succeeds as its scanner does, and moves over what that took. -/
theorem scan_eq_ok_iff {scanner : Text → Scan α} {cursor after : Cursor} {value : α} :
    scan scanner cursor = .ok value after ↔
      ∃ taken rest, scanner cursor.rest = ⟨taken, rest, .ok value⟩ ∧
        after = cursor.advance taken rest := by
  unfold scan
  obtain ⟨taken, rest, result⟩ := scanner cursor.rest
  cases result with
  | error fault => simp
  | ok found =>
      simp only [EStateM.Result.ok.injEq, Scan.mk.injEq, Except.ok.injEq]
      constructor
      · rintro ⟨rfl, rfl⟩
        exact ⟨taken, rest, ⟨rfl, rfl, rfl⟩, rfl⟩
      · rintro ⟨_, _, ⟨rfl, rfl, rfl⟩, rfl⟩
        exact ⟨rfl, rfl⟩

/-- It fails as its scanner does, and what that took is gone. -/
theorem scan_eq_error_iff {scanner : Text → Scan α} {cursor after : Cursor} {failure : Failure} :
    scan scanner cursor = .error failure after ↔
      ∃ taken rest fault, scanner cursor.rest = ⟨taken, rest, .error fault⟩ ∧
        failure = .fault (fault.shift cursor.offset) ∧ after = cursor.advance taken rest := by
  unfold scan
  obtain ⟨taken, rest, result⟩ := scanner cursor.rest
  cases result with
  | ok found => simp
  | error fault =>
      simp only [EStateM.Result.error.injEq, Scan.mk.injEq, Except.error.injEq]
      constructor
      · rintro ⟨rfl, rfl⟩
        exact ⟨taken, rest, fault, ⟨rfl, rfl, rfl⟩, rfl, rfl⟩
      · rintro ⟨_, _, _, ⟨rfl, rfl, rfl⟩, rfl, rfl⟩
        exact ⟨rfl, rfl⟩

theorem position_of_nonneg (cursor : Cursor) {distance : Int} (ahead : 0 ≤ distance) :
    cursor.position distance = cursor.offset + distance := by
  rw [position, if_neg]
  omega

theorem peek_of_nonneg (cursor : Cursor) {length : Int} (ahead : 0 ≤ length) :
    cursor.peek length = cursor.rest.take length.toNat := by
  have taken : (cursor.offset + length - cursor.offset : Int) = length := by omega
  rw [peek, position_of_nonneg cursor ahead, taken]

theorem source_advance {cursor : Cursor} {taken rest : Text}
    (covers : taken ++ rest = cursor.rest) :
    (cursor.advance taken rest).source = cursor.source := by
  simp [advance, source, covers]

theorem offset_advance (cursor : Cursor) (taken rest : Text) :
    (cursor.advance taken rest).offset = cursor.offset + taken.length := by
  simp [advance, offset]

theorem place_append (before rest : Text) :
    place (before ++ rest) before.length = .ok ⟨before, rest⟩ := by
  have inside : (before.length : Int) ≤ (before ++ rest).length := by
    simp only [List.length_append]; omega
  rw [place, if_pos ⟨Int.natCast_nonneg _, inside⟩]
  simp

end Cursor

end MethodSignature
