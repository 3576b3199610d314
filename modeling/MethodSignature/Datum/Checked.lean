/-
# MethodSignature.Datum.Checked -- checked data, with every issue reported

Data is checked field by field.  A check gives a value or the list of all issues,
each with the path to the place it concerns.  Checks are combined with `both`, which
keeps the issues of the first before those of the second, so issues come in the
order of the fields.
-/
import MethodSignature.Datum

namespace MethodSignature

set_option autoImplicit false

namespace Issue

inductive Kind
  | missing
  | notText
  | notTheLiteral
  | notArray
  | notTruth
  | unreadableTruth
  | notInteger
  | unreadableInteger
  | fractionalInteger
  | oversizedInteger
  | notFinite
  | notAttributes
  | tagMissing
  | tagInvalid
  | notModel
  deriving DecidableEq, Repr

/-- One step of the way to a place in the data. -/
inductive PathStep
  | name (name : String)
  | index (index : Nat)
  deriving DecidableEq, Repr

end Issue

structure Issue where
  kind : Issue.Kind
  path : List Issue.PathStep
  deriving DecidableEq, Repr

/-- A value, or all that keeps the data from being one. -/
inductive Checked (α : Type)
  | valid (value : α)
  | invalid (issues : List Issue)
  deriving DecidableEq, Repr

namespace Checked

variable {α β γ : Type}

/-- An issue with the data itself. -/
def issue (kind : Issue.Kind) : Checked α := .invalid [⟨kind, []⟩]

def map (f : α → β) : Checked α → Checked β
  | .valid value => .valid (f value)
  | .invalid issues => .invalid issues

/-- A value read as something else; one that cannot be has no issue to name. -/
def filterMap (f : α → Option β) : Checked α → Checked β
  | .valid value =>
      match f value with
      | some found => .valid found
      | none => .invalid []
  | .invalid issues => .invalid issues

/-- Both values, or the issues of both. -/
def both : Checked α → Checked β → Checked (α × β)
  | .valid a, .valid b => .valid (a, b)
  | .valid _, .invalid issues => .invalid issues
  | .invalid issues, .valid _ => .invalid issues
  | .invalid first, .invalid second => .invalid (first ++ second)

/-- The same outcome, seen from one step further up. -/
def under (step : Issue.PathStep) : Checked α → Checked α
  | .valid value => .valid value
  | .invalid issues =>
      .invalid (issues.map fun issue => { issue with path := step :: issue.path })

def issues : Checked α → List Issue
  | .valid _ => []
  | .invalid issues => issues

end Checked

end MethodSignature
