/-
# MethodSignature.Scan -- what one scan does to the text ahead of it

A scanner is a function on the text still ahead.  It takes a beginning of that
text, leaves the rest, and answers with a result or a fault.  A scan can fail
after it has taken something; the text taken is then gone all the same.

`Scan.Covers` is the law every scanner of this library keeps: what is taken and
what is left make up the text that was given.
-/
import MethodSignature.Fault

namespace MethodSignature

set_option autoImplicit false

/-- The outcome of a scan.  A fault is placed relative to the scanned text. -/
structure Scan (α : Type) where
  taken : Text
  rest : Text
  result : Except Fault α

namespace Scan

variable {α β : Type}

/-- Nothing is lost and nothing is invented. -/
def Covers (scan : Scan α) (text : Text) : Prop := scan.taken ++ scan.rest = text

/-- The construct does not start here. -/
def absent (text : Text) : Scan (Option Text) := ⟨[], text, .ok none⟩

/-- The construct was read whole. -/
def present (taken rest : Text) : Scan (Option Text) := ⟨taken, rest, .ok (some taken)⟩

/-- A fault at the beginning of the text, with nothing taken. -/
def fail (text : Text) (cause : Cause) : Scan α := ⟨[], text, .error ⟨0, cause⟩⟩

def ofOption (text : Text) : Option (Text × Text) → Scan (Option Text)
  | none => absent text
  | some (taken, rest) => present taken rest

/-- The same scan, of a text that has `lead` in front. -/
def after (lead : Text) (scan : Scan α) : Scan α :=
  ⟨lead ++ scan.taken, scan.rest, scan.result.mapError (Fault.shift lead.length)⟩

def map (f : α → β) (scan : Scan α) : Scan β :=
  ⟨scan.taken, scan.rest, scan.result.map f⟩

theorem covers_absent (text : Text) : (absent text).Covers text := rfl

theorem covers_fail (text : Text) (cause : Cause) : (fail text cause : Scan α).Covers text := rfl

theorem covers_after {scan : Scan α} {text : Text} (lead : Text) (h : scan.Covers text) :
    (scan.after lead).Covers (lead ++ text) := by
  simp only [Covers, after, List.append_assoc] at *
  rw [h]

theorem covers_map {scan : Scan α} {text : Text} (f : α → β) (h : scan.Covers text) :
    (scan.map f).Covers text := h

theorem covers_ofOption {text : Text} {found : Option (Text × Text)}
    (h : ∀ taken rest, found = some (taken, rest) → taken ++ rest = text) :
    (ofOption text found).Covers text := by
  match found, h with
  | none, _ => rfl
  | some (taken, rest), h => exact h taken rest rfl

end Scan

end MethodSignature
