/-
# MethodSignature.Literal.QuoteOperator -- operators that introduce a quote

Nine words introduce a quote: `q`, `qq`, `qw`, `qr`, `qx`, `m`, `s`, `tr` and `y`.
A word is an operator only when it is spelled out exactly; a longer name that
begins like one is not.  The delimiter that follows is the caller's to find.
-/
import MethodSignature.Text

namespace MethodSignature

set_option autoImplicit false

inductive QuoteOperator
  | q
  | qq
  | qw
  | qr
  | qx
  | m
  | s
  | tr
  | y
  deriving DecidableEq, Repr

namespace QuoteOperator

open Text

def spelling : QuoteOperator → Text
  | .q => ['q']
  | .qq => ['q', 'q']
  | .qw => ['q', 'w']
  | .qr => ['q', 'r']
  | .qx => ['q', 'x']
  | .m => ['m']
  | .s => ['s']
  | .tr => ['t', 'r']
  | .y => ['y']

def ofSpelling? : Text → Option QuoteOperator
  | ['q'] => some .q
  | ['q', 'q'] => some .qq
  | ['q', 'w'] => some .qw
  | ['q', 'r'] => some .qr
  | ['q', 'x'] => some .qx
  | ['m'] => some .m
  | ['s'] => some .s
  | ['t', 'r'] => some .tr
  | ['y'] => some .y
  | _ => none

/-- Operators whose quote is data and may be a default value. -/
def accepted : QuoteOperator → Bool
  | .q | .qq | .qw | .qr => true
  | _ => false

/-- Operators with a pattern and a replacement. -/
def twoPart : QuoteOperator → Bool
  | .s | .tr | .y => true
  | _ => false

/-- The operator that is the whole first word of `text`, and the text behind it. -/
def read? (text : Text) : Option (QuoteOperator × Text) :=
  let (word, rest) := cut isNameChar text
  (ofSpelling? word).map fun operator => (operator, rest)

theorem ofSpelling?_spelling (operator : QuoteOperator) :
    ofSpelling? operator.spelling = some operator := by
  cases operator <;> rfl

theorem spelling_of_ofSpelling? {word : Text} {operator : QuoteOperator}
    (h : ofSpelling? word = some operator) : operator.spelling = word := by
  unfold ofSpelling? at h
  split at h <;> simp_all [spelling] <;> subst h <;> rfl

theorem read?_append {text rest : Text} {operator : QuoteOperator}
    (h : read? text = some (operator, rest)) : operator.spelling ++ rest = text := by
  simp only [read?, Option.map_eq_some_iff, Prod.mk.injEq] at h
  obtain ⟨found, spelled, rfl, rfl⟩ := h
  rw [spelling_of_ofSpelling? spelled]
  exact cut_append isNameChar text

end QuoteOperator

end MethodSignature
