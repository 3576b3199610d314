/-
# MethodSignature.Proofs.WellFormed -- what every parsed signature satisfies

`Signature.WellFormed` collects what may be relied on in a signature: its texts have the
forms they are written in, the invocant is one that is allowed, no required positional
parameter follows an optional one, and the stated requirements are those of its
parameters.  What a constraint must be is left open, since a block may be judged by its
own text (`IsBlock`) or by all that may follow it.

Every value of a derivation that keeps the rules beyond the grammar is well-formed
(`Tree.wellFormed`).
-/
import MethodSignature.Proofs.Soundness.Signature

namespace MethodSignature

set_option autoImplicit false

open Text

/-- A letter and name characters, and not the keyword. -/
def Parameter.IsLabel (label : Text) : Prop :=
  (∃ first rest, label = first :: rest ∧ isLetter first = true ∧ rest.all isNameChar = true) ∧
    label ≠ Token.whereName

/-- The texts of a parameter have the forms they are written in; `isBlock` says which
constraints are allowed. -/
structure Parameter.WellFormed (isBlock : Text → Prop) (parameter : Parameter) : Prop where
  variableName : Token.IsVariable parameter.variableName
  typeConstraint : ∀ constraint ∈ parameter.typeConstraint, Token.IsType constraint
  label : ∀ label ∈ parameter.style.label?, Parameter.IsLabel label
  defaultValue : ∀ value ∈ parameter.defaultValue, Grammar.IsValue value
  constraints : ∀ block ∈ parameter.constraints, isBlock block

/-- The invocant, if there is one, and the parameters. -/
def Signature.everyParam (signature : Signature) : List Parameter :=
  signature.invocant.toList ++ signature.params

structure Signature.WellFormed (isBlock : Text → Prop) (signature : Signature) : Prop where
  everyParam : ∀ parameter ∈ signature.everyParam, parameter.WellFormed isBlock
  invocant : ∀ invocant ∈ signature.invocant, invocant.IsInvocant
  order : signature.params.Pairwise Parameter.MayPrecede
  positionalCount : signature.requiredPositionalCount =
    (signature.positionalParams.filter Parameter.required).length
  namedLabels : signature.requiredNamedLabels.map some =
    (signature.namedParams.filter Parameter.required).map Parameter.callLabel?

/-- A weaker condition on the blocks is met as well. -/
theorem Signature.WellFormed.mono {isBlock isBlock' : Text → Prop} {signature : Signature}
    (h : signature.WellFormed isBlock) (weaker : ∀ block, isBlock block → isBlock' block) :
    signature.WellFormed isBlock' := by
  obtain ⟨everyParam, invocant, order, count, labels⟩ := h
  refine ⟨?_, invocant, order, count, labels⟩
  intro parameter member
  obtain ⟨isVariable, isType, isLabel, isValue, allowed⟩ := everyParam parameter member
  refine ⟨isVariable, isType, isLabel, isValue, ?_⟩
  intro block inside
  exact weaker block (allowed block inside)

/-- A signature that states its requirements rightly is the one its parameters give. -/
theorem Signature.WellFormed.assemble_eq {isBlock : Text → Prop} {signature : Signature}
    (h : signature.WellFormed isBlock) :
    assemble signature.invocant signature.params = signature := by
  have isOf : signature.IsOf signature.invocant signature.params :=
    ⟨rfl, rfl, h.positionalCount, h.namedLabels⟩
  exact isOf.eq_assemble.symm

/-! ## Labels -/

theorem TypeConstraint.isNameChar_of_isSymbol {c : Char} (h : isSymbol c = true) :
    isNameChar c = false := by
  simp only [isSymbol, Bool.or_eq_true, beq_iff_eq] at h
  rcases h with ((rfl | rfl) | rfl) | rfl <;> decide

/-- A label is a type that is a plain name. -/
theorem Parameter.isLabel_iff {label : Text} :
    IsLabel label ↔ Token.IsType label ∧ label.all isNameChar = true := by
  constructor
  · rintro ⟨⟨first, rest, rfl, letter, named⟩, notWhere⟩
    have typed : rest.all isTypeChar = true :=
      all_mono (fun c named => by simp [isTypeChar, named]) named
    have isName : TypeConstraint.IsName (first :: rest) := .part ⟨letter, typed⟩
    refine ⟨Token.isType_of_isName isName notWhere, ?_⟩
    have starts : isNameChar first = true := by
      simp only [isLetter] at letter
      simp [isNameChar, Char.isAlphanum, letter]
    rw [List.all_cons, starts, named]
    rfl
  · rintro ⟨⟨isConstraint, notWhere⟩, named⟩
    obtain ⟨name, tail, rfl, isName, isTail, -⟩ := isConstraint.exists_name
    -- a symbol behind the first name would not be a name character
    have noTail : tail = [] := by
      cases tail with
      | nil => rfl
      | cons c rest =>
          have isSymbol : TypeConstraint.isSymbol c = true := by
            simpa [TypeConstraint.IsTail] using isTail
          simp [TypeConstraint.isNameChar_of_isSymbol isSymbol] at named
    subst noTail
    rw [List.append_nil] at named notWhere ⊢
    have read := TypeConstraint.name?_of_isName isName (rfl : TypeConstraint.NameStops [])
    obtain ⟨first, rest, whole, letter⟩ := Token.exists_letter_of_name? read
    rw [List.append_nil] at whole
    subst whole
    simp only [List.all_cons, Bool.and_eq_true] at named
    refine ⟨⟨first, rest, rfl, letter, named.2⟩, ?_⟩
    intro same
    exact notWhere [] isTail (by rw [same, List.append_nil])

/-! ## Derivations -/

namespace Grammar

theorem Alternation.isType (alternation : Alternation) : Token.IsType alternation.value := by
  obtain ⟨first, more⟩ := alternation
  have joined : ∀ (more : List Alternative) {text : Text}, Token.IsType text →
      Token.IsType (text ++ more.flatMap fun alternative => '|' :: alternative.member.literal) := by
    intro more
    induction more with
    | nil =>
        intro text isType
        simpa using isType
    | cons alternative more ih =>
        intro text isType
        have next := ih (isType.join alternative.member.shape.isType.1)
        simpa using next
  exact joined more first.shape.isType

theorem Subject.isVariable (subject : Subject) : Token.IsVariable subject.variableName := by
  cases subject <;> exact (Spaced.shape _ : Token.Form .variableName _).isVariable

theorem Subject.isLabel {subject : Subject} {label : Text} (h : label ∈ subject.style.label?) :
    Parameter.IsLabel label := by
  cases subject with
  | positional => cases h
  | named => cases h
  | labelled colon lexeme plain opening name closing =>
      cases h
      exact Parameter.isLabel_iff.2 ⟨lexeme.shape.isType, plain⟩

/-- A block between braces that is read whole from its own text. -/
structure IsWholeBlock (block : Text) : Prop where
  opens : block.head? = some '{'
  closes : block.getLast? = some '}'
  whole : IsBlock block

theorem IsBlock.isWholeBlock {block : Text} (h : IsBlock block) : IsWholeBlock block :=
  ⟨(Block.braces_of_scan h).1, (Block.braces_of_scan h).2, h⟩

theorem Param.wellFormed (param : Param) : param.value.WellFormed IsWholeBlock := by
  obtain ⟨alternation, subject, mark, default, constraints⟩ := param
  refine ⟨subject.isVariable, ?_, fun label => Subject.isLabel, ?_, ?_⟩
  · intro constraint member
    obtain ⟨part, -, rfl⟩ := Option.map_eq_some_iff.1 member
    exact part.isType
  · intro value member
    obtain ⟨part, -, rfl⟩ := Option.map_eq_some_iff.1 member
    exact part.value.shape
  · intro block member
    obtain ⟨part, -, rfl⟩ := List.mem_map.1 member
    exact IsBlock.isWholeBlock part.block.shape

theorem Params.wellFormed {params : Params} {parameter : Parameter}
    (member : parameter ∈ params.values) : parameter.WellFormed IsWholeBlock := by
  rcases List.mem_cons.1 member with rfl | member
  · exact params.first.wellFormed
  · obtain ⟨⟨separator, param⟩, -, rfl⟩ := List.mem_map.1 member
    exact param.wellFormed

/-- **The value of a derivation is well-formed.** -/
theorem Tree.wellFormed {tree : Tree} (admissible : Admissible tree) :
    tree.value.WellFormed IsWholeBlock := by
  obtain ⟨allowed, ordered⟩ := admissible
  refine ⟨?_, ?_, Signature.ordered_false_iff.1 ordered,
    Signature.requiredPositionalCount_assemble _ _, Signature.requiredNamedLabels_assemble _ _⟩
  · intro parameter member
    rcases List.mem_append.1 member with invocant | param
    · obtain ⟨part, -, rfl⟩ := Option.map_eq_some_iff.1 (Option.mem_toList.1 invocant)
      exact part.param.wellFormed
    · have inside : parameter ∈ (tree.params.map Params.values).getD [] := param
      cases h : tree.params with
      | none =>
          rw [h] at inside
          cases inside
      | some params =>
          rw [h] at inside
          exact Params.wellFormed inside
  · intro invocant member
    exact Signature.invocantCause?_eq_none_iff.1 (allowed invocant member)

/-- **Every parsed signature is well-formed**: its blocks are read whole between their braces,
the brackets of its types are balanced, and its quotes open with a mark or an operator that
default values admit. -/
theorem parseAt_wellFormed {input rest : Text} {offset : Int} {signature : Signature}
    (h : Signature.parseAt input offset = .ok (signature, rest)) :
    signature.WellFormed IsWholeBlock ∧
      ∀ parameter ∈ signature.everyParam,
        (∀ constraint ∈ parameter.typeConstraint, TypeConstraint.Balanced constraint) ∧
        ∀ value ∈ parameter.defaultValue, Quote.scan value = .present value [] →
          Quote.IsQuote value := by
  obtain ⟨before, text, -, -, parsed⟩ := parseAt_eq_ok_iff.1 h
  obtain ⟨tree, -, -, -, admissible, rfl⟩ := parse_sound parsed
  have wellFormed := Tree.wellFormed admissible
  refine ⟨wellFormed, ?_⟩
  intro parameter member
  constructor
  · intro constraint isType
    exact ((wellFormed.everyParam parameter member).typeConstraint constraint isType).1.balanced
  · intro value _ quoted
    exact Quote.isQuote_of_scan quoted

/-- A labelled parameter with a quoted default, and a block that holds a quoted brace. -/
theorem parseAt_wellFormed_quoted_brace :
    ∃ signature : Signature,
      Signature.parseAt "m($self: A[B] :label($x)! = q(a) where \x7b '\x7d' \x7d) z".toList 1 =
        .ok (signature, ['z']) ∧
      signature.WellFormed IsWholeBlock ∧ TypeConstraint.Balanced "A[B]".toList := by
  let invocant : Parameter := ⟨.positional, none, "$self".toList, true, none, []⟩
  let labelled : Parameter := ⟨.named (some "label".toList), some "A[B]".toList, "$x".toList, true,
    some "q(a)".toList, ["\x7b '\x7d' \x7d".toList]⟩
  have parsed : Signature.parseAt
      "m($self: A[B] :label($x)! = q(a) where \x7b '\x7d' \x7d) z".toList 1 =
        .ok (⟨some invocant, [labelled], 0, ["label".toList]⟩, ['z']) :=
    eq_ok_of_toOption (by decide +kernel)
  obtain ⟨wellFormed, others⟩ := parseAt_wellFormed parsed
  exact ⟨_, parsed, wellFormed, (others labelled (by simp [Signature.everyParam])).1 _ rfl⟩

end Grammar

end MethodSignature
