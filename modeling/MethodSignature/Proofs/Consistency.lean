/-
# MethodSignature.Proofs.Consistency -- what holds of a signature beyond its grammar

Two rules go beyond the grammar: what the invocant may be (`Parameter.IsInvocant`), and that no
required positional parameter follows an optional one (`Parameter.MayPrecede`).  Reading checks
them parameter by parameter, and refuses none of them just where the rules hold.

A signature states what its parameters require.  `Signature.IsOf` says that it is of an invocant
and of parameters, and states their requirements rightly; `Signature.assemble` gives the one
that is (`Signature.isOf_iff`).
-/
import MethodSignature.Signature.Reading

namespace MethodSignature

set_option autoImplicit false

/-- A positional parameter that callers must give, and that has no default. -/
structure Parameter.IsInvocant (parameter : Parameter) : Prop where
  positional : parameter.isPositional = true
  required : parameter.required = true
  noDefault : parameter.defaultValue = none

/-- Not an optional positional parameter before a required positional one. -/
def Parameter.MayPrecede (earlier later : Parameter) : Prop :=
  earlier.isPositional = true → earlier.required = false → later.isPositional = true →
    later.required = false

/-- The signature is of this invocant and these parameters, and states what they require. -/
structure Signature.IsOf (signature : Signature) (invocant : Option Parameter)
    (params : List Parameter) : Prop where
  invocant : signature.invocant = invocant
  params : signature.params = params
  positionalCount : signature.requiredPositionalCount =
    (signature.positionalParams.filter Parameter.required).length
  namedLabels : signature.requiredNamedLabels.map some =
    (signature.namedParams.filter Parameter.required).map Parameter.callLabel?

/-- No parameter is refused for following an optional one; `optionalSeen` says whether an
optional positional parameter came before. -/
def Signature.Ordered : Bool → List Parameter → Prop
  | _, [] => True
  | optionalSeen, parameter :: rest =>
      orderCause? optionalSeen parameter = none ∧
        Ordered (optionalSeen || (parameter.isPositional && !parameter.required)) rest

/-! ## Requirements -/

/-- The named parameters are those that have a label. -/
theorem Parameter.isSome_callLabel? (parameter : Parameter) :
    parameter.callLabel?.isSome = parameter.isNamed := by
  obtain ⟨style, typeConstraint, variableName, required, defaultValue, constraints⟩ := parameter
  cases style with
  | positional => rfl
  | named label => cases label <;> rfl

theorem Parameter.exists_callLabel? {parameter : Parameter} (named : parameter.isNamed = true) :
    ∃ label, parameter.callLabel? = some label :=
  Option.isSome_iff_exists.1 (parameter.isSome_callLabel?.trans named)

theorem Parameter.map_some_callLabels (params : List Parameter) :
    (params.filterMap Parameter.callLabel?).map some =
      (params.filter Parameter.isNamed).map Parameter.callLabel? := by
  induction params with
  | nil => rfl
  | cons parameter params ih =>
      rw [List.filterMap_cons, List.filter_cons, ← parameter.isSome_callLabel?]
      cases called : parameter.callLabel? with
      | none => simp [ih]
      | some label => simp [called, ih]

namespace Signature

theorem requiredNamedLabels_assemble (invocant : Option Parameter) (params : List Parameter) :
    (assemble invocant params).requiredNamedLabels.map some =
      ((assemble invocant params).namedParams.filter Parameter.required).map
        Parameter.callLabel? := by
  show ((params.filter Parameter.required).filterMap Parameter.callLabel?).map some =
    ((params.filter Parameter.isNamed).filter Parameter.required).map Parameter.callLabel?
  rw [Parameter.map_some_callLabels, List.filter_filter, List.filter_filter]
  simp only [Bool.and_comm]

theorem requiredPositionalCount_assemble (invocant : Option Parameter) (params : List Parameter) :
    (assemble invocant params).requiredPositionalCount =
      ((assemble invocant params).positionalParams.filter Parameter.required).length := by
  show ((params.countP fun p => p.required && p.isPositional : Nat) : Int) =
    (((params.filter Parameter.isPositional).filter Parameter.required).length : Nat)
  rw [List.filter_filter, List.countP_eq_length_filter]

theorem isOf_assemble (invocant : Option Parameter) (params : List Parameter) :
    (assemble invocant params).IsOf invocant params :=
  ⟨rfl, rfl, requiredPositionalCount_assemble _ _, requiredNamedLabels_assemble _ _⟩

theorem IsOf.eq_assemble {signature : Signature} {invocant : Option Parameter}
    {params : List Parameter} (h : signature.IsOf invocant params) :
    signature = assemble invocant params := by
  obtain ⟨rfl, rfl, count, labels⟩ := h
  obtain ⟨invocant, params, stated, named⟩ := signature
  have sameCount : (assemble invocant params).requiredPositionalCount = stated :=
    (requiredPositionalCount_assemble invocant params).trans count.symm
  have sameLabels : (assemble invocant params).requiredNamedLabels = named := by
    have mapped := (requiredNamedLabels_assemble invocant params).trans labels.symm
    exact (List.map_inj_right fun _ _ => Option.some.inj).1 mapped
  rw [← sameCount, ← sameLabels]
  rfl

/-- There is one such signature, and it is assembled. -/
theorem isOf_iff {signature : Signature} {invocant : Option Parameter} {params : List Parameter} :
    signature.IsOf invocant params ↔ signature = assemble invocant params := by
  constructor
  · exact IsOf.eq_assemble
  · rintro rfl
    exact isOf_assemble invocant params

/-! ## Order -/

theorem orderCause?_eq_none_iff {optionalSeen : Bool} {parameter : Parameter} :
    orderCause? optionalSeen parameter = none ↔
      (optionalSeen = true → parameter.isPositional = true → parameter.required = false) := by
  unfold orderCause?
  cases optionalSeen <;> cases parameter.isPositional <;> cases parameter.required <;> simp

/-- The flag that is carried along stands for all optional positional parameters before. -/
theorem ordered_iff {optionalSeen : Bool} {params : List Parameter} :
    Ordered optionalSeen params ↔
      (optionalSeen = true → ∀ parameter ∈ params, parameter.isPositional = true →
        parameter.required = false) ∧ params.Pairwise Parameter.MayPrecede := by
  induction params generalizing optionalSeen with
  | nil => simp [Ordered]
  | cons parameter params ih =>
      rw [Ordered, orderCause?_eq_none_iff, ih, List.pairwise_cons]
      constructor
      · rintro ⟨allowed, behind, pairwise⟩
        refine ⟨?_, ?_, pairwise⟩
        · intro seen later member
          rcases List.mem_cons.1 member with rfl | member
          · exact allowed seen
          · exact behind (by simp [seen]) later member
        · intro later member positional optional
          exact behind (by simp [positional, optional]) later member
      · rintro ⟨before, behind, pairwise⟩
        refine ⟨fun seen => before seen parameter (by simp), ?_, pairwise⟩
        intro seen later member
        rw [Bool.or_eq_true, Bool.and_eq_true, Bool.not_eq_true'] at seen
        rcases seen with seen | ⟨positional, optional⟩
        · exact before seen later (List.mem_cons_of_mem _ member)
        · exact behind later member positional optional

theorem ordered_false_iff {params : List Parameter} :
    Ordered false params ↔ params.Pairwise Parameter.MayPrecede := by
  simp [ordered_iff]

theorem invocantCause?_eq_none_iff {parameter : Parameter} :
    invocantCause? parameter = none ↔ parameter.IsInvocant := by
  unfold invocantCause?
  constructor
  · intro h
    split at h
    · cases h
    · rename_i notNamed
      split at h
      · cases h
      · rename_i accepted
        simp only [Bool.or_eq_true, Bool.not_eq_true', not_or, Bool.not_eq_false,
          Option.isSome_iff_ne_none, ne_eq, Classical.not_not] at accepted
        exact ⟨by simpa [Parameter.isPositional] using notNamed, accepted.1, accepted.2⟩
  · rintro ⟨positional, required, noDefault⟩
    simp only [Parameter.isPositional, Bool.not_eq_true'] at positional
    simp [positional, required, noDefault]

end Signature

end MethodSignature
