/-
# MethodSignature.Proofs.Lookup -- named parameters and their labels

Callers give a named parameter by its label, and `namedParam?` answers with the first
parameter of a label (`namedParam?_eq_some_iff`).

Nothing keeps two parameters of a signature from sharing a label: `:$x` and `:@x` do, because
a variable gives its name without the sigil, and so do `:x($y)` and `:$x`.  Every parameter is
found by its own label exactly where labels tell the parameters apart
(`namedParam?_own_iff`).  Elsewhere the required parameter of a label may stand behind an
optional one, which is then found in its place (`parseAt_shared_label`).
-/
import MethodSignature.Proofs.WellFormed

namespace MethodSignature

set_option autoImplicit false

namespace Signature

variable {signature : Signature} {label : Text} {parameter : Parameter}

/-- The parameter is named, has the label, and no named parameter before it has the same. -/
def IsFirst (signature : Signature) (label : Text) (parameter : Parameter) : Prop :=
  parameter.callLabel? = some label ∧
    ∃ before after, signature.namedParams = before ++ parameter :: after ∧
      ∀ earlier ∈ before, earlier.callLabel? ≠ some label

/-- Named parameters that share a label are equal. -/
def LabelsTellApart (signature : Signature) : Prop :=
  ∀ one ∈ signature.namedParams, ∀ other ∈ signature.namedParams,
    one.callLabel? = other.callLabel? → one = other

theorem IsFirst.mem (first : signature.IsFirst label parameter) :
    parameter ∈ signature.namedParams := by
  obtain ⟨-, before, after, split, -⟩ := first
  rw [split]
  exact List.mem_append_right before (List.mem_cons_self ..)

/-- **A lookup finds the first parameter of the label.** -/
theorem namedParam?_eq_some_iff :
    signature.namedParam? label = some parameter ↔ signature.IsFirst label parameter := by
  simp only [namedParam?, List.find?_eq_some_iff_append, decide_eq_true_eq, Bool.not_eq_true',
    decide_eq_false_iff_not, IsFirst, ne_eq]

/-- A label that some named parameter has is found. -/
theorem exists_isFirst (member : parameter ∈ signature.namedParams)
    (called : parameter.callLabel? = some label) :
    ∃ first, signature.IsFirst label first ∧ signature.namedParam? label = some first := by
  have found : (signature.namedParam? label).isSome = true :=
    List.find?_isSome.2 ⟨parameter, member, by simpa using called⟩
  obtain ⟨first, found⟩ := Option.isSome_iff_exists.1 found
  exact ⟨first, namedParam?_eq_some_iff.1 found, found⟩

/-- **Every named parameter is found by its own label** exactly where labels tell the parameters
apart. -/
theorem namedParam?_own_iff :
    (∀ parameter ∈ signature.namedParams, ∀ label ∈ parameter.callLabel?,
        signature.namedParam? label = some parameter) ↔ signature.LabelsTellApart := by
  constructor
  · intro found one member other member' same
    obtain ⟨label, called⟩ := Parameter.exists_callLabel? (List.mem_filter.1 member).2
    have foundOne := found one member label called
    have foundOther := found other member' label (same ▸ called)
    exact Option.some.inj (foundOne.symm.trans foundOther)
  · intro apart parameter member label called
    obtain ⟨first, isFirst, found⟩ := exists_isFirst member called
    rw [found, apart first isFirst.mem parameter member (isFirst.1.trans called.symm)]

/-- Some required parameter of the label has no optional one of the label before it. -/
def RequiredLeads (signature : Signature) (label : Text) : Prop :=
  ∃ before parameter after, signature.namedParams = before ++ parameter :: after ∧
    parameter.required = true ∧ parameter.callLabel? = some label ∧
      ∀ earlier ∈ before, earlier.callLabel? = some label → earlier.required = true

theorem IsFirst.required_iff (first : signature.IsFirst label parameter) :
    parameter.required = true ↔ signature.RequiredLeads label := by
  constructor
  · intro required
    obtain ⟨called, before, after, split, others⟩ := first
    exact ⟨before, parameter, after, split, required, called,
      fun earlier member same => absurd same (others earlier member)⟩
  · rintro ⟨before, leading, after, split, required, called, lead⟩
    have found : signature.namedParam? label = some parameter := namedParam?_eq_some_iff.2 first
    rw [namedParam?, split, List.find?_append] at found
    -- the first of the label stands before the leading one, or it is that one
    cases ahead : before.find? fun p => decide (p.callLabel? = some label) with
    | some earlier =>
        have same : earlier = parameter := by simpa [ahead] using found
        subst same
        exact lead earlier (List.mem_of_find?_eq_some ahead) (by simpa using List.find?_some ahead)
    | none =>
        have same : leading = parameter := by simpa [ahead, called] using found
        exact same ▸ required

/-- The stated labels are those of the required named parameters. -/
theorem WellFormed.mem_requiredNamedLabels_iff {isBlock : Text → Prop}
    (wellFormed : signature.WellFormed isBlock) :
    label ∈ signature.requiredNamedLabels ↔
      ∃ parameter ∈ signature.namedParams,
        parameter.required = true ∧ parameter.callLabel? = some label := by
  have listed : label ∈ signature.requiredNamedLabels ↔
      some label ∈ signature.requiredNamedLabels.map some := by simp
  rw [listed, wellFormed.namedLabels]
  simp only [List.mem_map, List.mem_filter, and_assoc]

end Signature

namespace Grammar

/-- **Looking up in a parsed signature.**  The label of a named parameter finds the first
parameter that has it.  Every named parameter is found by its own label exactly where labels
tell the parameters apart.  A label stated as required is always found; what is found is required
exactly where a required parameter leads those of the label, and so wherever labels tell the
parameters apart. -/
theorem parseAt_lookup {input rest : Text} {offset : Int} {signature : Signature}
    (h : Signature.parseAt input offset = .ok (signature, rest)) :
    (∀ parameter ∈ signature.namedParams, ∃ label first,
        parameter.callLabel? = some label ∧ signature.IsFirst label first ∧
          signature.namedParam? label = some first) ∧
      ((∀ parameter ∈ signature.namedParams, ∀ label ∈ parameter.callLabel?,
          signature.namedParam? label = some parameter) ↔ signature.LabelsTellApart) ∧
      ∀ label ∈ signature.requiredNamedLabels, ∃ first,
        signature.IsFirst label first ∧ signature.namedParam? label = some first ∧
          (first.required = true ↔ signature.RequiredLeads label) ∧
          (signature.LabelsTellApart → first.required = true) := by
  obtain ⟨before, text, -, -, parsed⟩ := parseAt_eq_ok_iff.1 h
  obtain ⟨tree, -, -, -, admissible, rfl⟩ := parse_sound parsed
  have wellFormed := Tree.wellFormed admissible
  refine ⟨?_, Signature.namedParam?_own_iff, ?_⟩
  · intro parameter member
    obtain ⟨label, called⟩ := Parameter.exists_callLabel? (List.mem_filter.1 member).2
    obtain ⟨first, isFirst, found⟩ := Signature.exists_isFirst member called
    exact ⟨label, first, called, isFirst, found⟩
  · intro label listed
    obtain ⟨parameter, member, required, called⟩ :=
      wellFormed.mem_requiredNamedLabels_iff.1 listed
    obtain ⟨first, isFirst, found⟩ := Signature.exists_isFirst member called
    refine ⟨first, isFirst, found, isFirst.required_iff, fun apart => ?_⟩
    rw [apart first isFirst.mem parameter member (isFirst.1.trans called.symm)]
    exact required

/-- A label that an optional and a required parameter share, and one that is not shared. -/
theorem parseAt_lookup_mixed :
    ∃ signature : Signature,
      Signature.parseAt "m(:$x, :b($x)!, :@x!)".toList 1 = .ok (signature, []) ∧
        signature.requiredNamedLabels = [['b'], ['x']] ∧
        (∃ first, signature.namedParam? ['b'] = some first ∧ first.required = true) ∧
        ∃ first, signature.namedParam? ['x'] = some first ∧ ¬ first.required = true := by
  let optional : Parameter := ⟨.named none, none, ['$', 'x'], false, none, []⟩
  let labelled : Parameter := ⟨.named (some ['b']), none, ['$', 'x'], true, none, []⟩
  let required : Parameter := ⟨.named none, none, ['@', 'x'], true, none, []⟩
  have parsed : Signature.parseAt "m(:$x, :b($x)!, :@x!)".toList 1 =
      .ok (⟨none, [optional, labelled, required], 0, [['b'], ['x']]⟩, []) :=
    eq_ok_of_toOption (by decide +kernel)
  obtain ⟨-, -, lookup⟩ := parseAt_lookup parsed
  obtain ⟨first, -, found, leads, -⟩ := lookup ['b'] (by simp)
  obtain ⟨first', isFirst', found', -, -⟩ := lookup ['x'] (by simp)
  refine ⟨_, parsed, rfl, ⟨first, found, leads.2 ?_⟩, first', found', ?_⟩
  · exact ⟨[optional], labelled, [required], rfl, rfl, rfl, by decide⟩
  · have same : some optional = some first' := found'
    cases same
    decide

/-- **A shared label.**  Of two parameters that share a label the second is not found by it, and
a label stated as required finds an optional parameter. -/
theorem parseAt_shared_label :
    ∃ signature : Signature,
      Signature.parseAt "(:$x, :@x!)".toList 0 = .ok (signature, []) ∧
        ¬ (∀ parameter ∈ signature.namedParams, ∀ label ∈ parameter.callLabel?,
          signature.namedParam? label = some parameter) ∧
        ¬ ∀ label ∈ signature.requiredNamedLabels, ∃ found,
          signature.namedParam? label = some found ∧ found.required = true := by
  let optional : Parameter := ⟨.named none, none, ['$', 'x'], false, none, []⟩
  let required : Parameter := ⟨.named none, none, ['@', 'x'], true, none, []⟩
  have parsed : Signature.parseAt "(:$x, :@x!)".toList 0 =
      .ok (⟨none, [optional, required], 0, [['x']]⟩, []) :=
    eq_ok_of_toOption (by decide +kernel)
  refine ⟨_, parsed, ?_, ?_⟩
  · intro own
    exact absurd (own required (by decide) ['x'] rfl) (by decide)
  · intro stated
    obtain ⟨found, lookup, isRequired⟩ := stated ['x'] (by simp)
    have same : some optional = some found := lookup
    cases same
    cases isRequired

end Grammar

end MethodSignature
