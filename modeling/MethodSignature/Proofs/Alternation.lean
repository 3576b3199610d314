/-
# MethodSignature.Proofs.Alternation -- the members of an alternation, however joined

A pipe between two types stands alone or among blanks.  A pipe alone is read as part of the
type constraint it goes on with; a pipe behind a blank is a token, and a type constraint
follows it.  Both mean the same: `parseAt_members` parses a list of members with any mixture
of joints, and the constraint is the members with pipes between them.

The members that a text names are cut into runs without blanks, and each run is one token
of a derivation (`exists_alternation_of_members`).
-/
import MethodSignature.Proofs.Stability

namespace MethodSignature.Grammar

set_option autoImplicit false

open Text

/-! ## Members and joints -/

/-- A name other than the keyword, and lists of parameters behind it. -/
inductive IsMember : Text → Prop
  | name {name : Text} : TypeConstraint.IsName name → name ≠ Token.whereName → IsMember name
  | apply {member arguments : Text} : IsMember member →
      TypeConstraint.Derives .arguments arguments → IsMember (member ++ '[' :: arguments ++ [']'])

abbrev Member := { text : Text // IsMember text }

/-- A pipe alone, or with blanks before it and any blanks behind. -/
inductive IsJoint : Text → Prop
  | tight : IsJoint ['|']
  | loose {before behind : Text} : before ≠ [] → IsInline before → IsInline behind →
      IsJoint (before ++ '|' :: behind)

abbrev Joint := { text : Text // IsJoint text }

/-- Members as they are written, each behind its joint. -/
def spelled (more : List (Joint × Member)) : Text :=
  more.flatMap fun (joint, member) => joint.val ++ member.val

/-- Members with nothing but pipes between them. -/
def joined (more : List (Joint × Member)) : Text :=
  more.flatMap fun (_, member) => '|' :: member.val

theorem IsMember.derives {text : Text} (h : IsMember text) :
    TypeConstraint.Derives .member text := by
  induction h with
  | name isName _ => exact .name isName
  | apply _ derived ih => exact .apply ih derived

theorem IsMember.isType {text : Text} (h : IsMember text) : Token.IsType text := by
  induction h with
  | name isName notWhere => exact Token.isType_of_isName isName notWhere
  | @apply member arguments isMember derived ih =>
      have applied := IsMember.derives (.apply isMember derived)
      have isTail : TypeConstraint.IsTail ('[' :: arguments ++ [']']) := by
        simp [TypeConstraint.IsTail, TypeConstraint.isSymbol]
      rw [List.append_assoc] at applied ⊢
      exact ih.append isTail (.single applied)

/-! ## Runs of members -/

/-- Behind blanks, neither a name nor a symbol of types goes on. -/
theorem ends_at_blanks {blanks : Text} (some : blanks ≠ []) (inline : IsInline blanks)
    (following : Text) : TypeConstraint.NameStops (blanks ++ following) ∧
      Stops TypeConstraint.isSymbol (blanks ++ following) := by
  obtain ⟨c, rest, rfl⟩ := List.exists_cons_of_ne_nil some
  have blank : isBlank c = true :=
    isBlank_of_isInlineBlank (List.all_eq_true.1 inline c List.mem_cons_self)
  have differs : ∀ d, isBlank d = false → c ≠ d := by
    rintro d solid rfl
    rw [blank] at solid
    cases solid
  refine ⟨nameStops_of_head c ?_ ?_ _, ?_⟩
  · rw [isTypeChar, isNameChar_of_isBlank blank, Bool.false_or]
    exact beq_eq_false_iff_ne.2 (differs '-' (by decide))
  · exact beq_eq_false_iff_ne.2 (differs ':' (by decide))
  · have noSymbol : c ≠ '|' ∧ c ≠ '[' ∧ c ≠ ',' ∧ c ≠ ']' :=
      ⟨differs _ (by decide), differs _ (by decide), differs _ (by decide), differs _ (by decide)⟩
    rw [List.cons_append, stops_cons]
    simp [TypeConstraint.isSymbol, noSymbol]

/-- Members behind a run of such, and a blank behind all of them, are an alternation. -/
theorem exists_alternation_of_members (more : List (Joint × Member)) {run : Text}
    (isType : Token.IsType run) :
    ∃ alternation : Alternation,
      textOf alternation.pieces = run ++ (spelled more ++ [' ']) ∧
      alternation.value = run ++ joined more ∧
      ∀ following, InContext alternation.pieces following := by
  induction more generalizing run with
  | nil =>
      refine ⟨⟨⟨[], run, [' '], rfl, rfl, .typeName isType⟩, []⟩, ?_, ?_, ?_⟩
      · simp [Alternation.pieces, Piece.text, Spaced.text, spelled]
      · simp [Alternation.value, joined]
      · intro following
        obtain ⟨names, symbols⟩ := ends_at_blanks (List.cons_ne_nil ' ' []) rfl following
        exact ⟨Token.readsAs_typeName isType names symbols, trivial⟩
  | cons step more ih =>
      obtain ⟨⟨joint, isJoint⟩, member, isMember⟩ := step
      cases isJoint with
      | tight =>
          obtain ⟨alternation, text, value, inContext⟩ := ih (isType.join (.single isMember.derives))
          refine ⟨alternation, ?_, ?_, inContext⟩
          · simp [text, spelled]
          · simp [value, joined]
      | @loose before behind some inline inline' =>
          obtain ⟨alternation, text, value, inContext⟩ := ih isMember.isType
          let first : Lexeme .typeName := ⟨[], run, before, rfl, inline, .typeName isType⟩
          let pipe : Lexeme .pipe := ⟨[], ['|'], behind, rfl, inline', .symbol rfl⟩
          have pieces : Alternation.pieces ⟨first, ⟨pipe, alternation.first⟩ :: alternation.more⟩ =
              .token .typeName first :: .token .pipe pipe :: alternation.pieces := rfl
          refine ⟨⟨first, ⟨pipe, alternation.first⟩ :: alternation.more⟩, ?_, ?_, ?_⟩
          · rw [pieces, textOf_cons, textOf_cons, text]
            simp [Piece.text, Spaced.text, spelled, first, pipe]
          · show run ++ '|' :: alternation.value = _
            rw [value]
            rfl
          · intro following
            obtain ⟨names, symbols⟩ := ends_at_blanks some inline
              (textOf (.token .pipe pipe :: alternation.pieces) ++ following)
            rw [pieces]
            exact ⟨Token.readsAs_typeName isType names symbols, Token.readsAs_symbol rfl _,
              inContext following⟩

/-! ## Parsing -/

/-- **Members mean the same however they are joined.** -/
theorem parseAt_members (first : Member) (more : List (Joint × Member)) {name : Text}
    (isVariable : Token.IsVariable name) :
    Parameter.parseAt (first.val ++ spelled more ++ ' ' :: name) 0 =
      .ok (⟨.positional, some (first.val ++ joined more), name, true, none, []⟩, []) := by
  obtain ⟨alternation, text, value, inContext⟩ :=
    exists_alternation_of_members more first.property.isType
  let variableName : Lexeme .variableName := ⟨[], name, [], rfl, rfl, .variableName isVariable⟩
  let param : Param := ⟨some alternation, .positional variableName, none, none, []⟩
  have whole : textOf param.pieces = first.val ++ spelled more ++ ' ' :: name := by
    show textOf (alternation.pieces ++ [.token .variableName variableName]) = _
    rw [textOf_append, text]
    simp [Piece.text, Spaced.text, variableName]
  have placed : InContext param.pieces [] :=
    inContext_append.2 ⟨inContext _, Token.readsAs_variableName isVariable (stops_nil _), trivial⟩
  have meaning : param.value =
      ⟨.positional, some (first.val ++ joined more), name, true, none, []⟩ := by
    simp [Param.value, param, value, Subject.style, Subject.variableName, variableName, required]
  obtain ⟨rest, parsed, place⟩ := Param.parse_of_inContext placed avoids_nil []
  have ends : param.value.EndsInToken := by simp [Parameter.EndsInToken, Param.value, param]
  have nothing : rest = [] := by
    rw [← trim_of_stops (Param.stops_of_parse parsed ends)]
    exact place
  rw [nothing, meaning, whole, List.append_nil] at parsed
  exact Param.parseAt_eq_ok_iff.2 ⟨[], _, rfl, rfl, parsed⟩

/-- Both paths in one text: a run of two members, and a third behind a pipe among blanks. -/
theorem parseAt_members_mixed :
    Token.IsVariable "@xs".toList ∧
      Parameter.parseAt "Foo[Bar|Baz]|Moo\u0085\t|Kooh[X,Y][Z] @xs".toList 0 =
        .ok (⟨.positional, some "Foo[Bar|Baz]|Moo|Kooh[X,Y][Z]".toList, "@xs".toList, true, none,
          []⟩, []) := by
  have isVariable : Token.IsVariable "@xs".toList := ⟨'@', 'x', ['s'], rfl, rfl, rfl, rfl⟩
  have named : ∀ {name : Text}, TypeConstraint.IsPart name → TypeConstraint.Derives .member name :=
    fun isPart => .name (.part isPart)
  have argument : ∀ {name : Text}, TypeConstraint.IsPart name →
      TypeConstraint.Derives .arguments name := fun isPart => .argument (.single (named isPart))
  have either : TypeConstraint.Derives .arguments ("Bar".toList ++ '|' :: "Baz".toList) :=
    .argument (.alternative (.single (named ⟨rfl, rfl⟩)) (named ⟨rfl, rfl⟩))
  have both : TypeConstraint.Derives .arguments (['X'] ++ ',' :: ['Y']) :=
    .next (argument ⟨rfl, rfl⟩) (.single (named ⟨rfl, rfl⟩))
  have foo : IsMember ("Foo".toList ++ '[' :: ("Bar".toList ++ '|' :: "Baz".toList) ++ [']']) :=
    .apply (.name (.part ⟨rfl, rfl⟩) (by decide)) either
  have moo : IsMember "Moo".toList := .name (.part ⟨rfl, rfl⟩) (by decide)
  have kooh : IsMember ("Kooh".toList ++ '[' :: (['X'] ++ ',' :: ['Y']) ++ [']'] ++
      '[' :: ['Z'] ++ [']']) :=
    .apply (.apply (.name (.part ⟨rfl, rfl⟩) (by decide)) both) (argument ⟨rfl, rfl⟩)
  have loose : IsJoint ("\u0085\t".toList ++ '|' :: []) := .loose (by decide) rfl rfl
  exact ⟨isVariable,
    parseAt_members ⟨_, foo⟩ [(⟨_, .tight⟩, ⟨_, moo⟩), (⟨_, loose⟩, ⟨_, kooh⟩)] isVariable⟩

end MethodSignature.Grammar
