/-
# MethodSignature.Proofs.Stability -- parsing and the text behind

What is parsed does not depend on the text that is left over.  Cutting that text off gives
the same answer with nothing left (`parseAt_truncate`), for signatures and for single
parameters.  Putting any other text behind a signature leaves that text
(`parseAt_append`), if its blocks are read whole whatever follows them.

Behind a signature no inline blank is left over.  Behind a parameter there may be some: a
token takes the blanks behind it, a number, a quote and a block do not
(`Parameter.EndsInToken`).
-/
import MethodSignature.Proofs.Context
import MethodSignature.Proofs.RoundTrip

namespace MethodSignature

set_option autoImplicit false

open Text

/-- The last thing written of the parameter is a token: it has no constraint, and its
default, if there is one, is a variable. -/
def Parameter.EndsInToken (parameter : Parameter) : Prop :=
  parameter.constraints = [] ∧ ∀ value ∈ parameter.defaultValue, Token.IsVariable value

namespace Grammar

/-! ## The last piece of a parameter -/

theorem endsSolid_of_last {pieces : List Piece} {piece : Piece} (last : pieces.getLast? = some piece)
    (solid : EndsSolid piece.text) : EndsSolid (textOf pieces) := by
  obtain ⟨front, rfl⟩ := List.getLast?_eq_some_iff.1 last
  obtain ⟨c, ends, plain, notBlank⟩ := solid
  refine ⟨c, ?_, plain, notBlank⟩
  rw [textOf_append, textOf_cons, textOf_nil, List.append_nil, List.getLast?_append, ends]
  rfl

theorem Spaced.endsSolid {isLead form : Text → Prop} {spaced : Spaced isLead form}
    (bare : spaced.behind = []) (solid : EndsSolid spaced.literal) : EndsSolid spaced.text := by
  obtain ⟨c, ends, plain, notBlank⟩ := solid
  refine ⟨c, ?_, plain, notBlank⟩
  rw [Spaced.text, bare, List.append_nil, List.getLast?_append, ends]
  rfl

theorem Subject.getLast? (subject : Subject) :
    ∃ kind lexeme, subject.pieces.getLast? = some (.token kind lexeme) := by
  cases subject <;> exact ⟨_, _, rfl⟩

/-- What stands before the constraints of a parameter ends in a token or in its default. -/
theorem Param.getLast?_front (param : Param) :
    let front := optional Alternation.pieces param.alternation ++ (param.subject.pieces ++
      (optional Mark.pieces param.mark ++ optional Default.pieces param.default))
    (param.default = none ∧ ∃ kind lexeme, front.getLast? = some (.token kind lexeme)) ∨
      ∃ default, param.default = some default ∧ front.getLast? = some (.value default.value) := by
  obtain ⟨alternation, subject, mark, default, constraints⟩ := param
  simp only
  cases default with
  | some default => exact .inr ⟨default, rfl, by simp [optional, Default.pieces]⟩
  | none =>
      obtain ⟨kind, lexeme, last⟩ := subject.getLast?
      refine .inl ⟨rfl, ?_⟩
      rcases mark with _ | sign | sign
      · exact ⟨kind, lexeme, by simp [optional, last]⟩
      · exact ⟨_, sign, by simp [optional, Mark.pieces]⟩
      · exact ⟨_, sign, by simp [optional, Mark.pieces]⟩

/-- Whether a parameter ends in a token decides about the blanks behind it. -/
theorem Param.leaves {param : Param} {rest : Text}
    (h : ∀ piece ∈ param.pieces.getLast?, piece.Leaves rest) :
    (param.value.EndsInToken → Stops isInlineBlank rest) ∧
      (¬ param.value.EndsInToken → EndsSolid (textOf param.pieces)) := by
  have split : param.pieces = (optional Alternation.pieces param.alternation ++
      (param.subject.pieces ++ (optional Mark.pieces param.mark ++
        optional Default.pieces param.default))) ++
      param.constraints.flatMap Constraint.pieces := by
    simp [Param.pieces, Param.tail]
  rcases List.eq_nil_or_concat param.constraints with absent | ⟨others, constraint, present⟩
  · -- without constraints the default decides, and without that a token is last
    rw [absent, List.flatMap_nil, List.append_nil] at split
    rcases param.getLast?_front with ⟨noDefault, kind, lexeme, last⟩ | ⟨default, isDefault, last⟩
    · rw [← split] at last
      have stops : Stops isInlineBlank rest := h _ last
      have ends : param.value.EndsInToken := by
        simp [Parameter.EndsInToken, Param.value, absent, noDefault]
      exact ⟨fun _ => stops, fun other => absurd ends other⟩
    · rw [← split] at last
      obtain ⟨stops, bare⟩ := h _ last
      have ends : param.value.EndsInToken ↔ Token.IsVariable default.value.literal := by
        simp [Parameter.EndsInToken, Param.value, absent, isDefault]
      rw [ends]
      refine ⟨stops, fun noVariable => endsSolid_of_last last ?_⟩
      exact Spaced.endsSolid (bare noVariable) default.value.shape.isSolid.endsSolid
  · have last : param.pieces.getLast? = some (.block constraint.block) := by
      simp [split, present, Constraint.pieces]
    have ends : ¬ param.value.EndsInToken := by
      simp [Parameter.EndsInToken, Param.value, present]
    refine ⟨fun token => absurd token ends, fun _ => endsSolid_of_last last ?_⟩
    exact Spaced.endsSolid (h _ last) (endsSolid_block constraint.block.shape)

/-! ## The text behind cut off -/

/-- Inline blanks at the end of a text that ends with another character are none. -/
theorem eq_nil_of_endsSolid {taken blanks : Text} (inline : IsInline blanks)
    (solid : EndsSolid (taken ++ blanks)) : blanks = [] := by
  by_cases empty : blanks = []
  · exact empty
  · obtain ⟨c, ends, -, notBlank⟩ := (endsSolid_append empty).1 solid
    have blank := List.all_eq_true.1 inline.isBlanks c (List.mem_of_getLast? ends)
    simp [notBlank] at blank

/-- A token takes the blanks behind it. -/
theorem Param.stops_of_parse {cursor : Cursor} {parameter : Parameter} {rest : Text}
    (h : Parameter.parse cursor = .ok (parameter, rest)) (ends : parameter.EndsInToken) :
    Stops isInlineBlank rest := by
  obtain ⟨param, covers, rfl⟩ := Param.parse_sound h
  exact (Param.leaves covers.leaves).1 ends

theorem avoids_nil : Avoids [] continuing := ⟨.endOfInput, rfl, by decide⟩

theorem Param.parse_truncate {before text rest : Text} {parameter : Parameter}
    (h : Parameter.parse ⟨before, text⟩ = .ok (parameter, rest)) :
    ∃ taken, text = taken ++ rest ∧ Parameter.parse ⟨before, taken⟩ = .ok (parameter, []) := by
  obtain ⟨param, covers, rfl⟩ := Param.parse_sound h
  have inContext : InContext param.pieces [] := InContext.truncate covers.inContext
  obtain ⟨rest', parsed, place⟩ := Param.parse_of_inContext inContext avoids_nil before
  rw [List.append_nil] at parsed
  refine ⟨textOf param.pieces, covers.whole, ?_⟩
  -- what is left then is blank; it is nothing, as the same blanks were taken before
  obtain ⟨param', covers', -⟩ := Param.parse_sound parsed
  have whole : textOf param.pieces = textOf param'.pieces ++ rest' := covers'.whole
  have inline : IsInline rest' := by
    obtain ⟨blanks, isInline, split, -⟩ := exists_trim rest'
    have none : trim rest' = [] := place
    rw [none, List.append_nil] at split
    rwa [split]
  have nothing : rest' = [] := by
    by_cases ends : param.value.EndsInToken
    · rw [← trim_of_stops (Param.stops_of_parse parsed ends)]
      exact place
    · have solid := (Param.leaves covers.leaves).2 ends
      rw [whole] at solid
      exact eq_nil_of_endsSolid inline solid
  rw [parsed, nothing]

theorem Tree.exists_closing (tree : Tree) :
    ∃ front blanks, tree.text = front ++ ')' :: blanks ∧ front ≠ [] ∧ IsInline blanks := by
  obtain ⟨opening, layout, invocant, params, ⟨before, literal, behind, lead, inline, shape⟩⟩ := tree
  have closes : literal = [')'] := shape.eq_symbol rfl
  have opens : opening.literal = ['('] := opening.shape.eq_symbol rfl
  refine ⟨opening.text ++ textOf (layoutPieces layout ++ (optional Invocant.pieces invocant ++
    optional Params.pieces params)) ++ before, behind, ?_, ?_, inline⟩
  · simp [Tree.text, Tree.pieces, Piece.text, Spaced.text, closes]
  · simp [Spaced.text, opens]

theorem Tree.parse_truncate {before text rest : Text} {signature : Signature}
    (h : Signature.parse ⟨before, text⟩ = .ok (signature, rest)) :
    ∃ front blanks, text = front ++ ')' :: blanks ++ rest ∧ front ≠ [] ∧ IsInline blanks ∧
      Stops isInlineBlank rest ∧
      Signature.parse ⟨before, front ++ ')' :: blanks⟩ = .ok (signature, []) := by
  obtain ⟨tree, whole, inContext, stops, admissible, rfl⟩ := parse_sound h
  obtain ⟨front, blanks, closing, nonempty, inline⟩ := tree.exists_closing
  have parsed := parse_of_tree (InContext.truncate inContext) (stops_nil _) admissible before
  rw [List.append_nil, closing] at parsed
  refine ⟨front, blanks, ?_, nonempty, inline, stops, parsed⟩
  rw [← closing]
  exact whole

/-- **Cutting off what is left over** changes nothing, for a signature or for a parameter.  A
signature ends with its parenthesis and the blanks behind it, so parsing on behind it always
gets further. -/
theorem parseAt_truncate (input : Text) (offset : Int) :
    (∀ signature rest, Signature.parseAt input offset = .ok (signature, rest) →
      (∃ front blanks, input.drop offset.toNat = front ++ ')' :: blanks ++ rest ∧
        IsInline blanks ∧ 2 ≤ (front ++ ')' :: blanks).length) ∧
      Stops isInlineBlank rest ∧ offset < (input.length : Int) - rest.length ∧
      Signature.parseAt (input.take (input.length - rest.length)) offset = .ok (signature, [])) ∧
    (∀ parameter rest, Parameter.parseAt input offset = .ok (parameter, rest) →
      rest <:+ input.drop offset.toNat ∧
      Parameter.parseAt (input.take (input.length - rest.length)) offset =
        .ok (parameter, [])) := by
  have cutOff : ∀ before taken rest : Text,
      (before ++ (taken ++ rest)).take ((before ++ (taken ++ rest)).length - rest.length) =
        before ++ taken := by
    intro before taken rest
    rw [← List.append_assoc, List.length_append, Nat.add_sub_cancel]
    exact List.take_left
  constructor
  · intro signature rest h
    obtain ⟨before, text, rfl, rfl, parsed⟩ := parseAt_eq_ok_iff.1 h
    obtain ⟨front, blanks, rfl, nonempty, inline, stops, truncated⟩ := Tree.parse_truncate parsed
    have length : 1 ≤ front.length := List.length_pos_iff.2 nonempty
    refine ⟨⟨front, blanks, by simp, inline, ?_⟩, stops, ?_, ?_⟩
    · simp only [List.length_append, List.length_cons]
      omega
    · simp only [List.length_append, List.length_cons]
      omega
    · rw [cutOff]
      exact parseAt_eq_ok_iff.2 ⟨before, _, rfl, rfl, truncated⟩
  · intro parameter rest h
    obtain ⟨before, text, rfl, rfl, parsed⟩ := Param.parseAt_eq_ok_iff.1 h
    obtain ⟨taken, rfl, truncated⟩ := Param.parse_truncate parsed
    refine ⟨⟨taken, by simp⟩, ?_⟩
    rw [cutOff]
    exact Param.parseAt_eq_ok_iff.2 ⟨before, taken, rfl, rfl, truncated⟩

/-- A signature whose block leaves a quote open, before a text with another; and a parameter
whose default takes no blanks. -/
theorem parseAt_truncate_open_quote :
    ∃ signature parameter,
      Signature.parseAt "sub ($x, :$y = 1 where \x7b ' \x7d)  -> \" \x7b".toList 4 =
        .ok (signature, "-> \" \x7b".toList) ∧
      Signature.parseAt "sub ($x, :$y = 1 where \x7b ' \x7d)  ".toList 4 = .ok (signature, []) ∧
      Parameter.parseAt "$x = 1 , $y".toList 0 = .ok (parameter, " , $y".toList) ∧
      Parameter.parseAt "$x = 1".toList 0 = .ok (parameter, []) := by
  let first : Parameter := ⟨.positional, none, "$x".toList, true, none, []⟩
  let second : Parameter :=
    ⟨.named none, none, "$y".toList, false, some "1".toList, ["\x7b ' \x7d".toList]⟩
  let alone : Parameter := ⟨.positional, none, "$x".toList, true, some "1".toList, []⟩
  have parsed : Signature.parseAt "sub ($x, :$y = 1 where \x7b ' \x7d)  -> \" \x7b".toList 4 =
      .ok (⟨none, [first, second], 1, []⟩, "-> \" \x7b".toList) :=
    eq_ok_of_toOption (by decide +kernel)
  have parsed' : Parameter.parseAt "$x = 1 , $y".toList 0 = .ok (alone, " , $y".toList) :=
    eq_ok_of_toOption (by decide +kernel)
  have truncated := ((parseAt_truncate _ _).1 _ _ parsed).2.2.2
  have truncated' := ((parseAt_truncate _ _).2 _ _ parsed').2
  have taken : "sub ($x, :$y = 1 where \x7b ' \x7d)  -> \" \x7b".toList.take
      ("sub ($x, :$y = 1 where \x7b ' \x7d)  -> \" \x7b".toList.length -
        "-> \" \x7b".toList.length) =
      "sub ($x, :$y = 1 where \x7b ' \x7d)  ".toList := by decide +kernel
  have taken' : "$x = 1 , $y".toList.take
      ("$x = 1 , $y".toList.length - " , $y".toList.length) = "$x = 1".toList := by decide +kernel
  rw [taken] at truncated
  rw [taken'] at truncated'
  exact ⟨_, _, parsed, truncated, parsed', truncated'⟩

/-! ## More text behind -/

/-- **Text behind a signature** is left as it is, and changes nothing, if the signature is
parsed alone and its blocks are read whole whatever follows them. -/
theorem parseAt_append {text following : Text} {signature : Signature}
    (h : Signature.parseAt text 0 = .ok (signature, []))
    (whole : ∀ parameter ∈ signature.everyParam,
      ∀ block ∈ parameter.constraints, IsSelfContained block)
    (stops : Stops isInlineBlank following) :
    Signature.parseAt (text ++ following) 0 = .ok (signature, following) := by
  obtain ⟨before, body, rfl, place, parsed⟩ := parseAt_eq_ok_iff.1 h
  obtain ⟨tree, same, inContext, -, admissible, rfl⟩ := parse_sound parsed
  have body_eq : body = tree.text := by simpa using same
  have extended := parse_of_tree (Tree.extend inContext whole following) stops admissible before
  refine parseAt_eq_ok_iff.2 ⟨before, tree.text ++ following, ?_, place, extended⟩
  rw [body_eq, List.append_assoc]

/-- A block that holds a quoted brace, before a comment and an open quote. -/
theorem parseAt_append_quoted_brace :
    ∃ signature, Signature.parseAt "($x where \x7b'\x7d'\x7d) ".toList 0 = .ok (signature, []) ∧
      Signature.parseAt "($x where \x7b'\x7d'\x7d) # it's (".toList 0 =
        .ok (signature, "# it's (".toList) := by
  let parameter : Parameter :=
    ⟨.positional, none, "$x".toList, true, none, ["\x7b'\x7d'\x7d".toList]⟩
  have parsed : Signature.parseAt "($x where \x7b'\x7d'\x7d) ".toList 0 =
      .ok (⟨none, [parameter], 1, []⟩, []) := eq_ok_of_toOption (by decide +kernel)
  have whole : ∀ other ∈ (⟨none, [parameter], 1, []⟩ : Signature).everyParam,
      ∀ block ∈ other.constraints, IsSelfContained block := by
    intro other member block inside
    obtain rfl := List.mem_singleton.1 member
    obtain rfl := List.mem_singleton.1 inside
    exact fun _ => rfl
  have stops : Stops isInlineBlank "# it's (".toList := by decide +kernel
  have joined : "($x where \x7b'\x7d'\x7d) ".toList ++ "# it's (".toList =
      "($x where \x7b'\x7d'\x7d) # it's (".toList := by decide +kernel
  have extended := parseAt_append parsed whole stops
  rw [joined] at extended
  exact ⟨_, parsed, extended⟩

end Grammar

end MethodSignature
