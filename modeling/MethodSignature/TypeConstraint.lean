/-
# MethodSignature.TypeConstraint -- type names and what extends them

A type name is a chain of parts joined by `::`; each part begins with a letter and
goes on with letters, digits, underscores and hyphens.

A constraint extends a name with alternation and parameters:
`Foo[Bar|Baz[Moo],Int]|Kooh`.  Each of `|`, `[` and `,` must be followed at once by
another name; commas and closing brackets are for the inside of brackets.  A blank
ends the constraint.  A scan that fails keeps what it has taken.
-/
import MethodSignature.Cursor

namespace MethodSignature.TypeConstraint

set_option autoImplicit false

open Text

/-- What goes on with a type name: further characters, and further parts. -/
def nameTail : Text → Text × Text
  | ':' :: ':' :: c :: rest =>
      if isLetter c then
        let (tail, rest) := nameTail rest
        (':' :: ':' :: c :: tail, rest)
      else ([], ':' :: ':' :: c :: rest)
  | c :: rest =>
      if isTypeChar c then
        let (tail, rest) := nameTail rest
        (c :: tail, rest)
      else ([], c :: rest)
  | [] => ([], [])

/-- The type name at the beginning of a text, and the rest. -/
def name? : Text → Option (Text × Text)
  | [] => none
  | c :: rest =>
      if isLetter c then
        let (tail, rest) := nameTail rest
        some (c :: tail, rest)
      else none

/-- A symbol that extends a constraint. -/
def isSymbol (c : Char) : Bool := c == '|' || c == '[' || c == ',' || c == ']'

/-- The end of a constraint, which must not lie inside brackets. -/
def finish (constraint : Text) (depth : Nat) (text : Text) : Scan Text :=
  if depth = 0 then ⟨[], text, .ok constraint⟩
  else .fail text (.openTypeBrackets constraint depth)

/-- Extends a constraint that has `depth` brackets open, in at most `fuel` steps.
Each step takes a symbol at least. -/
def extendFrom : Nat → Text → Nat → Text → Scan Text
  | 0, constraint, depth, text => finish constraint depth text
  | _ + 1, constraint, depth, [] => finish constraint depth []
  | fuel + 1, constraint, depth, symbol :: rest =>
      if !isSymbol symbol then finish constraint depth (symbol :: rest)
      else if symbol = ']' then
        match depth with
        | 0 => ⟨[symbol], rest, .error ⟨0, .strayInType symbol constraint⟩⟩
        | depth + 1 => (extendFrom fuel (constraint ++ [symbol]) depth rest).after [symbol]
      else if symbol = ',' ∧ depth = 0 then
        ⟨[symbol], rest, .error ⟨0, .strayInType symbol constraint⟩⟩
      else
        match name? rest with
        | none =>
            ⟨[symbol], rest, .error ⟨1, .typeNameMissing (constraint ++ [symbol])
              (rest.take Cursor.previewLength)⟩⟩
        | some (name, rest) =>
            let depth := if symbol = '[' then depth + 1 else depth
            (extendFrom fuel (constraint ++ symbol :: name) depth rest).after (symbol :: name)

/-- Extends a name that has just been taken with all that belongs to it. -/
def extend (leading text : Text) : Scan Text := extendFrom text.length leading 0 text

/-! ## Nothing is lost -/

theorem nameTail_append (text : Text) : (nameTail text).1 ++ (nameTail text).2 = text := by
  fun_induction nameTail text <;> simp_all

theorem name?_append {text name rest : Text} (h : name? text = some (name, rest)) :
    name ++ rest = text := by
  unfold name? at h
  split at h
  · cases h
  · split at h
    · cases h
      simp [nameTail_append]
    · cases h

theorem covers_finish (constraint : Text) (depth : Nat) (text : Text) :
    (finish constraint depth text).Covers text := by
  unfold finish
  split <;> rfl

theorem covers_extendFrom (fuel : Nat) (constraint : Text) (depth : Nat) (text : Text) :
    (extendFrom fuel constraint depth text).Covers text := by
  fun_induction extendFrom fuel constraint depth text with
  | case1 => exact covers_finish ..
  | case2 => exact covers_finish ..
  | case3 => exact covers_finish ..
  | case4 => rfl
  | case5 fuel constraint rest depth _ ih => exact Scan.covers_after [_] ih
  | case6 => rfl
  | case7 => rfl
  | case8 fuel constraint depth symbol rest _ _ _ name rest' found depth' ih =>
      have whole := name?_append found
      have taken := Scan.covers_after (symbol :: name) ih
      simpa [whole] using taken

theorem covers_extend (leading text : Text) : (extend leading text).Covers text :=
  covers_extendFrom ..

end MethodSignature.TypeConstraint
