/-
# MethodSignature.Token -- one token of a signature

A token is a run of line ends, the end of the input, a symbol, a type constraint,
the keyword `where` or a variable, tried in this order.  It remembers the exact
text it was read from: blanks around it, and for line ends and the end of the input
the comments too, so that the texts of consecutive tokens make up the input again.
-/
import MethodSignature.Layout
import MethodSignature.TypeConstraint

namespace MethodSignature

set_option autoImplicit false

/-- A token: its kind, its significant text, and where and as what it was
written. -/
structure Token where
  kind : Token.Kind
  literal : Text
  written : Text
  offset : Nat
  deriving DecidableEq, Repr

namespace Token

open Text

/-- The variable at the beginning of a text, and the rest. -/
def variableName? : Text → Option (Text × Text)
  | sigil :: c :: rest =>
      if isSigil sigil && isNameStart c then
        let (name, rest) := cut isNameChar rest
        some (sigil :: c :: name, rest)
      else none
  | _ => none

/-- The one name that is a keyword. -/
def whereName : Text := ['w', 'h', 'e', 'r', 'e']

/-- A symbol, a name or a variable at the beginning of a text. -/
def lexeme? : Text → Option (Scan (Kind × Text))
  | [] => none
  | c :: rest =>
      match Kind.ofSymbol? c with
      | some kind => some ⟨[c], rest, .ok (kind, [c])⟩
      | none =>
          match TypeConstraint.name? (c :: rest) with
          | some (name, rest) =>
              if name = whereName then some ⟨name, rest, .ok (.whereKeyword, name)⟩
              else
                some (((TypeConstraint.extend name rest).after name).map fun constraint =>
                  (.typeName, constraint))
          | none =>
              (variableName? (c :: rest)).map fun (name, rest) =>
                ⟨name, rest, .ok (.variableName, name)⟩

/-- A scan that also takes the blanks behind, if it has succeeded. -/
def withBlanks {α : Type} (scan : Scan α) : Scan α :=
  match scan.result with
  | .ok value =>
      let (blanks, rest) := cut isInlineBlank scan.rest
      ⟨scan.taken ++ blanks, rest, .ok value⟩
  | .error _ => scan

/-- Why no token begins with `text`. -/
def unrecognized (text : Text) : Cause :=
  let preview := text.take Cursor.previewLength
  match text with
  | '[' :: _ => .destructuring preview
  | '{' :: _ => .bareBlock preview
  | _ => .unrecognized preview

/-- The kind and significant text of the token at the beginning of `text`. -/
def scan (text : Text) : Scan (Kind × Text) :=
  match Layout.lineEnds? text with
  | some (taken, rest) => ⟨taken, rest, .ok (.newline, taken)⟩
  | none =>
      if Layout.isFinal text then ⟨text, [], .ok (.endOfInput, [])⟩
      else
        let (blanks, body) := cut isInlineBlank text
        match lexeme? body with
        | some found => (withBlanks found).after blanks
        | none => ⟨[], text, .error ⟨blanks.length, unrecognized body⟩⟩

/-! ## Nothing is lost -/

theorem variableName?_append {text name rest : Text}
    (h : variableName? text = some (name, rest)) : name ++ rest = text := by
  unfold variableName? at h
  split at h
  · split at h
    · cases h
      simp
    · cases h
  · cases h

theorem covers_lexeme? {text : Text} {scan : Scan (Kind × Text)} (h : lexeme? text = some scan) :
    scan.Covers text := by
  unfold lexeme? at h
  split at h
  · cases h
  · split at h
    · cases h
      rfl
    · split at h
      · rename_i found
        have whole := TypeConstraint.name?_append found
        split at h
        · cases h
          exact whole
        · cases h
          rw [← whole]
          exact Scan.covers_map _ (Scan.covers_after _ (TypeConstraint.covers_extend ..))
      · simp only [Option.map_eq_some_iff] at h
        obtain ⟨⟨name, tail⟩, found, rfl⟩ := h
        exact variableName?_append found

theorem covers_withBlanks {α : Type} {scan : Scan α} {text : Text} (h : scan.Covers text) :
    (withBlanks scan).Covers text := by
  unfold withBlanks
  split
  · simp only [Scan.Covers, List.append_assoc, cut_append]
    exact h
  · exact h

theorem covers_scan (text : Text) : (scan text).Covers text := by
  unfold scan
  split
  · rename_i found
    exact Layout.lineEnds?_append found
  · split
    · simp [Scan.Covers]
    · have whole := cut_append isInlineBlank text
      simp only
      split
      · rename_i found
        have := Scan.covers_after (cut isInlineBlank text).1
          (covers_withBlanks (covers_lexeme? found))
        rwa [whole] at this
      · rfl

end Token

end MethodSignature
