/-
# MethodSignature.Transcript -- a sequence of actions, each answered

Actions that change a state are run one after the other.  A failing action is
answered with its failure, and the next one goes on from the state it left.
-/
namespace MethodSignature

set_option autoImplicit false

/-- The answer of every action, each with the state after it. -/
def transcript {ε σ α : Type} : List (EStateM ε σ α) → σ → List (Except ε α × σ)
  | [], _ => []
  | action :: actions, state =>
      match action state with
      | .ok value next => (.ok value, next) :: transcript actions next
      | .error failure next => (.error failure, next) :: transcript actions next

theorem length_transcript {ε σ α : Type} (actions : List (EStateM ε σ α)) (state : σ) :
    (transcript actions state).length = actions.length := by
  induction actions generalizing state with
  | nil => rfl
  | cons action actions ih =>
      simp only [transcript]
      split <;> simp [ih]

end MethodSignature
