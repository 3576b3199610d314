/-
# MethodSignature.Proofs.Token -- what the tokens of a signature look like

`Form kind literal` says which texts are tokens of a kind: symbols, the keyword,
variables, and type constraints whose first name is not the keyword.  A token that is
read has the form of its kind (`lexeme?_sound`); a text of a form is read as a token of
that kind wherever the text behind it ends it (`ReadsAs`).

Inline blanks in front of a token never change its kind (`kind?_trim`), so a place in a
text may be known up to such blanks.
-/
import MethodSignature.Proofs.Layout
import MethodSignature.Proofs.TypeGrammar
import MethodSignature.Token

namespace MethodSignature.Token

set_option autoImplicit false

open Text

/-! ## Forms -/

/-- A sigil, a letter or underscore, and name characters. -/
def IsVariable (name : Text) : Prop :=
  ∃ sigil first rest, name = sigil :: first :: rest ∧ isSigil sigil = true ∧
    isNameStart first = true ∧ rest.all isNameChar = true

/-- A type constraint whose first name is not the keyword. -/
def IsType (constraint : Text) : Prop :=
  TypeConstraint.IsConstraint constraint ∧
    ∀ tail, TypeConstraint.IsTail tail → constraint ≠ whereName ++ tail

inductive Form : Kind → Text → Prop
  | symbol {c : Char} {kind : Kind} : Kind.ofSymbol? c = some kind → Form kind [c]
  | whereKeyword : Form .whereKeyword whereName
  | typeName {constraint : Text} : IsType constraint → Form .typeName constraint
  | variableName {name : Text} : IsVariable name → Form .variableName name

/-- The text is read as a token of the kind before `following`. -/
def ReadsAs (kind : Kind) (literal following : Text) : Prop :=
  lexeme? (literal ++ following) = some ⟨literal, following, .ok (kind, literal)⟩

theorem variableName?_eq_some_iff {text name rest : Text} :
    variableName? text = some (name, rest) ↔
      text = name ++ rest ∧ IsVariable name ∧ Stops isNameChar rest := by
  constructor
  · intro h
    refine ⟨(variableName?_append h).symm, ?_⟩
    unfold variableName? at h
    split at h
    · rename_i sigil first body
      split at h
      · rename_i starts
        simp only [Bool.and_eq_true] at starts
        cases h
        exact ⟨⟨sigil, first, _, rfl, starts.1, starts.2, List.all_takeWhile⟩,
          stops_cut isNameChar body⟩
      · cases h
    · cases h
  · rintro ⟨rfl, ⟨sigil, first, body, rfl, sigiled, starts, named⟩, stops⟩
    simp [variableName?, sigiled, starts, cut_append_of_all named stops]

theorem ofSymbol?_cases {c : Char} {kind : Kind} (h : Kind.ofSymbol? c = some kind) :
    isBlank c = false ∧ c ≠ '#' ∧ isLetter c = false ∧ kind ≠ .newline ∧ kind ≠ .endOfInput := by
  unfold Kind.ofSymbol? at h
  split at h <;> cases h <;> decide

theorem isBlank_of_isLetter {c : Char} (h : isLetter c = true) : isBlank c = false ∧ c ≠ '#' := by
  constructor
  · cases blank : isBlank c with
    | false => rfl
    | true =>
        have := isNameChar_of_isBlank blank
        simp only [isLetter] at h
        simp [isNameChar, Char.isAlphanum, h] at this
  · rintro rfl
    revert h
    decide

theorem ofSymbol?_of_isLetter {c : Char} (h : isLetter c = true) : Kind.ofSymbol? c = none := by
  cases symbol : Kind.ofSymbol? c with
  | none => rfl
  | some kind => simp [(ofSymbol?_cases symbol).2.2.1] at h

theorem isSigil_cases {c : Char} (h : isSigil c = true) : c = '$' ∨ c = '@' ∨ c = '%' := by
  simpa [isSigil, or_assoc] using h

theorem exists_letter_of_name? {text name rest : Text}
    (h : TypeConstraint.name? text = some (name, rest)) :
    ∃ c body, text = c :: body ∧ isLetter c = true := by
  cases text with
  | nil => cases h
  | cons c body =>
      simp only [TypeConstraint.name?] at h
      split at h
      · rename_i letter
        exact ⟨c, body, rfl, letter⟩
      · cases h

theorem isName_whereName : TypeConstraint.IsName whereName := .part ⟨by decide, by decide⟩

theorem isTail_nameStops {tail : Text} (h : TypeConstraint.IsTail tail) :
    TypeConstraint.NameStops tail := by
  simpa using h.nameStops (rfl : TypeConstraint.NameStops [])

/-- A constraint has one first name. -/
theorem first_name_unique {name name' tail tail' : Text} (isName : TypeConstraint.IsName name)
    (isName' : TypeConstraint.IsName name') (isTail : TypeConstraint.IsTail tail)
    (isTail' : TypeConstraint.IsTail tail') (same : name ++ tail = name' ++ tail') :
    name = name' := by
  have first := TypeConstraint.name?_of_isName isName (isTail_nameStops isTail)
  have second := TypeConstraint.name?_of_isName isName' (isTail_nameStops isTail')
  rw [same, second] at first
  exact (congrArg (fun found => (found.map Prod.fst).getD []) first).symm

theorem isType_of_extend {name text taken rest constraint : Text}
    (isName : TypeConstraint.IsName name) (notWhere : name ≠ whereName)
    (h : TypeConstraint.extend name text = ⟨taken, rest, .ok constraint⟩) :
    constraint = name ++ taken ∧ IsType constraint := by
  obtain ⟨isConstraint, rfl⟩ := TypeConstraint.isConstraint_extend isName h
  refine ⟨rfl, isConstraint, ?_⟩
  intro tail isTail same
  exact notWhere (first_name_unique isName isName_whereName (TypeConstraint.isTail_extend h) isTail same)

theorem isType_of_isName {name : Text} (isName : TypeConstraint.IsName name)
    (notWhere : name ≠ whereName) : IsType name := by
  refine ⟨.single (.name isName), ?_⟩
  intro tail isTail same
  have noTail : TypeConstraint.IsTail [] := stops_nil _
  rw [← List.append_nil name] at same
  exact notWhere (first_name_unique isName isName_whereName noTail isTail same)

/-- What goes on with a constraint leaves the first name what it is. -/
theorem IsType.append {constraint more : Text} (h : IsType constraint)
    (isTail : TypeConstraint.IsTail more)
    (derived : TypeConstraint.IsConstraint (constraint ++ more)) : IsType (constraint ++ more) := by
  obtain ⟨isConstraint, notWhere⟩ := h
  obtain ⟨name, tail, rfl, isName, isTail', -⟩ := isConstraint.exists_name
  refine ⟨derived, ?_⟩
  intro behind isBehind same
  rw [List.append_assoc] at same
  obtain rfl := first_name_unique isName isName_whereName (isTail'.append isTail) isBehind same
  exact notWhere tail isTail' rfl

theorem IsType.join {constraint other : Text} (h : IsType constraint)
    (derived : TypeConstraint.IsConstraint other) : IsType (constraint ++ '|' :: other) :=
  h.append (by simp [TypeConstraint.IsTail, TypeConstraint.isSymbol]) (h.1.join derived)

/-- **A token that is read has the form of its kind.** -/
theorem lexeme?_sound {text taken rest literal : Text} {kind : Kind}
    (h : lexeme? text = some ⟨taken, rest, .ok (kind, literal)⟩) :
    taken = literal ∧ Form kind literal ∧ ReadsAs kind literal rest := by
  have whole : taken ++ rest = text := covers_lexeme? h
  suffices shaped : taken = literal ∧ Form kind literal by
    obtain ⟨rfl, form⟩ := shaped
    exact ⟨rfl, form, by rw [ReadsAs, whole, h]⟩
  unfold lexeme? at h
  split at h
  · cases h
  · rename_i c body
    split at h
    · rename_i kind' symbol
      cases h
      exact ⟨rfl, .symbol symbol⟩
    · split at h
      · rename_i name body' named
        obtain ⟨isName, -⟩ := TypeConstraint.isName_of_name? named
        split at h
        · rename_i isWhere
          subst isWhere
          cases h
          exact ⟨rfl, .whereKeyword⟩
        · rename_i notWhere
          rw [Option.some.injEq] at h
          obtain ⟨constraint, extended, same⟩ := Scan.map_eq_ok h
          cases same
          obtain ⟨more, rfl, extended'⟩ := Scan.after_eq_ok extended
          obtain ⟨rfl, isType⟩ := isType_of_extend isName notWhere extended'
          exact ⟨rfl, .typeName isType⟩
      · simp only [Option.map_eq_some_iff] at h
        obtain ⟨⟨name, tail⟩, found, same⟩ := h
        cases same
        exact ⟨rfl, .variableName (variableName?_eq_some_iff.1 found).2.1⟩

theorem ReadsAs.form {kind : Kind} {literal following : Text}
    (h : ReadsAs kind literal following) : Form kind literal :=
  (lexeme?_sound h).2.1

theorem ofSymbol?_inj {c d : Char} {kind : Kind} (h : Kind.ofSymbol? c = some kind)
    (h' : Kind.ofSymbol? d = some kind) : c = d := by
  unfold Kind.ofSymbol? at h h'
  split at h
  all_goals cases h
  all_goals split at h'
  all_goals cases h'
  all_goals rfl

theorem Form.eq_symbol {c : Char} {kind : Kind} {literal : Text} (h : Form kind literal)
    (symbol : Kind.ofSymbol? c = some kind) : literal = [c] := by
  cases h with
  | symbol symbol' => rw [ofSymbol?_inj symbol' symbol]
  | whereKeyword | typeName _ | variableName _ =>
      unfold Kind.ofSymbol? at symbol
      split at symbol <;> cases symbol

theorem Form.eq_whereName {literal : Text} (h : Form .whereKeyword literal) :
    literal = whereName := by
  cases h with
  | symbol symbol =>
      unfold Kind.ofSymbol? at symbol
      split at symbol <;> cases symbol
  | whereKeyword => rfl

/-! ## Which texts are read as a token -/

theorem readsAs_symbol {c : Char} {kind : Kind} (h : Kind.ofSymbol? c = some kind)
    (following : Text) : ReadsAs kind [c] following := by
  simp [ReadsAs, lexeme?, h]

theorem readsAs_whereKeyword {following : Text} (stops : TypeConstraint.NameStops following) :
    ReadsAs .whereKeyword whereName following := by
  have read := TypeConstraint.name?_of_isName isName_whereName stops
  have plain : Kind.ofSymbol? 'w' = none := rfl
  simp only [whereName, List.cons_append, List.nil_append] at read
  simp [ReadsAs, lexeme?, whereName, plain, read]

theorem readsAs_of_extend {name tail following : Text}
    (read : TypeConstraint.name? (name ++ tail ++ following) = some (name, tail ++ following))
    (different : name ≠ whereName)
    (extended : TypeConstraint.extend name (tail ++ following) =
      ⟨tail, following, .ok (name ++ tail)⟩) : ReadsAs .typeName (name ++ tail) following := by
  obtain ⟨c, body, whole, letter⟩ := exists_letter_of_name? read
  rw [whole] at read
  rw [ReadsAs, whole]
  simp [lexeme?, ofSymbol?_of_isLetter letter, read, different, extended, Scan.map, Except.map]

theorem readsAs_typeName {constraint following : Text} (h : IsType constraint)
    (stops : TypeConstraint.NameStops following)
    (noSymbol : Stops TypeConstraint.isSymbol following) :
    ReadsAs .typeName constraint following := by
  obtain ⟨isConstraint, notWhere⟩ := h
  obtain ⟨name, tail, rfl, isTail, read, extended⟩ :=
    TypeConstraint.extend_of_isConstraint isConstraint stops noSymbol
  have different : name ≠ whereName := by
    rintro rfl
    exact notWhere tail isTail rfl
  exact readsAs_of_extend read different extended

theorem readsAs_variableName {name following : Text} (h : IsVariable name)
    (stops : Stops isNameChar following) : ReadsAs .variableName name following := by
  have read := variableName?_eq_some_iff.2 ⟨rfl, h, stops⟩
  obtain ⟨sigil, first, rest, rfl, sigiled, starts, named⟩ := h
  have plain : Kind.ofSymbol? sigil = none ∧ isLetter sigil = false := by
    rcases isSigil_cases sigiled with rfl | rfl | rfl <;> decide
  simp only [List.cons_append] at read
  simp [ReadsAs, lexeme?, plain, TypeConstraint.name?, read]

theorem IsType.head {constraint : Text} (h : IsType constraint) :
    ∃ c rest, constraint = c :: rest ∧ isLetter c = true := by
  obtain ⟨name, tail, -, -, read, -⟩ :=
    TypeConstraint.extend_of_isConstraint h.1 (rfl : TypeConstraint.NameStops []) (stops_nil _)
  rw [List.append_nil] at read
  exact exists_letter_of_name? read

/-- A token begins with a character that is neither blank nor begins a comment. -/
theorem Form.head {kind : Kind} {literal : Text} (h : Form kind literal) :
    ∃ c rest, literal = c :: rest ∧ isBlank c = false ∧ c ≠ '#' := by
  cases h with
  | symbol symbol => exact ⟨_, [], rfl, (ofSymbol?_cases symbol).1, (ofSymbol?_cases symbol).2.1⟩
  | whereKeyword => exact ⟨'w', _, rfl, by decide, by decide⟩
  | typeName isType =>
      obtain ⟨c, body, rfl, letter⟩ := isType.head
      exact ⟨c, body, rfl, isBlank_of_isLetter letter⟩
  | variableName isVariable =>
      obtain ⟨sigil, first, rest, rfl, sigiled, -, -⟩ := isVariable
      refine ⟨sigil, first :: rest, rfl, ?_⟩
      rcases isSigil_cases sigiled with rfl | rfl | rfl <;> decide

theorem Form.isType {constraint : Text} (h : Form .typeName constraint) : IsType constraint := by
  cases h with
  | symbol symbol =>
      unfold Kind.ofSymbol? at symbol
      split at symbol <;> cases symbol
  | typeName isType => exact isType

theorem Form.isVariable {name : Text} (h : Form .variableName name) : IsVariable name := by
  cases h with
  | symbol symbol =>
      unfold Kind.ofSymbol? at symbol
      split at symbol <;> cases symbol
  | variableName isVariable => exact isVariable

theorem Form.kind_ne {kind : Kind} {literal : Text} (h : Form kind literal) :
    kind ≠ .newline ∧ kind ≠ .endOfInput := by
  cases h with
  | symbol symbol => exact (ofSymbol?_cases symbol).2.2.2
  | whereKeyword => decide
  | typeName _ => decide
  | variableName _ => decide

/-! ## Where a token ends -/

/-- What is read as a token and begins with a letter is the keyword or a constraint. -/
theorem ReadsAs.of_letter {kind : Kind} {literal following : Text} {c : Char}
    (h : ReadsAs kind literal following) {body : Text} (whole : literal ++ following = c :: body)
    (letter : isLetter c = true) :
    ∃ name tail, literal = name ++ tail ∧ TypeConstraint.IsName name ∧
      TypeConstraint.NameStops (tail ++ following) ∧
      ((kind = .whereKeyword ∧ name = whereName ∧ tail = []) ∨
        (kind = .typeName ∧ name ≠ whereName ∧
          TypeConstraint.extend name (tail ++ following) = ⟨tail, following, .ok literal⟩)) := by
  unfold ReadsAs at h
  rw [whole] at h
  simp only [lexeme?, ofSymbol?_of_isLetter letter] at h
  split at h
  · rename_i name rest read
    obtain ⟨isName, stops⟩ := TypeConstraint.isName_of_name? read
    have taken := TypeConstraint.name?_append read
    split at h
    · rename_i isWhere
      cases h
      exact ⟨_, [], (List.append_nil _).symm, isName, stops, .inl ⟨rfl, isWhere, rfl⟩⟩
    · rename_i notWhere
      rw [Option.some.injEq] at h
      obtain ⟨constraint, extended, same⟩ := Scan.map_eq_ok h
      cases same
      obtain ⟨tail, rfl, found⟩ := Scan.after_eq_ok extended
      have behind : rest = tail ++ following := by
        rw [← taken, List.append_assoc, List.append_cancel_left_eq] at whole
        exact whole.symm
      rw [behind] at stops found
      exact ⟨name, tail, rfl, isName, stops, .inr ⟨rfl, notWhere, found⟩⟩
  · rename_i unread
    simp [TypeConstraint.name?, letter] at unread

theorem stops_of_readsAs_variableName {name following : Text}
    (h : ReadsAs .variableName name following) : Stops isNameChar following := by
  obtain ⟨sigil, first, rest, rfl, sigiled, -, -⟩ := h.form.isVariable
  have plain : Kind.ofSymbol? sigil = none ∧ isLetter sigil = false := by
    rcases isSigil_cases sigiled with rfl | rfl | rfl <;> decide
  simp only [ReadsAs, List.cons_append, lexeme?, plain, TypeConstraint.name?, Bool.false_eq_true,
    if_false, Option.map_eq_some_iff] at h
  obtain ⟨⟨name, behind⟩, found, same⟩ := h
  cases same
  exact (variableName?_eq_some_iff.1 found).2.2

/-- **A token ends where it does** before any text that goes on with it no further than the
text behind it did. -/
theorem ReadsAs.of_following {kind : Kind} {literal old new : Text} (h : ReadsAs kind literal old)
    (types : TypeConstraint.NameStops old → TypeConstraint.NameStops new)
    (symbols : Stops TypeConstraint.isSymbol old → Stops TypeConstraint.isSymbol new)
    (names : Stops isNameChar old → Stops isNameChar new) : ReadsAs kind literal new := by
  cases h.form with
  | symbol symbol => exact readsAs_symbol symbol new
  | whereKeyword =>
      obtain ⟨name, tail, -, -, nameEnds, ⟨-, -, rfl⟩ | ⟨isType, -⟩⟩ :=
        h.of_letter rfl (by decide)
      · exact readsAs_whereKeyword (types nameEnds)
      · cases isType
  | typeName isType =>
      obtain ⟨c, body, rfl, letter⟩ := isType.head
      obtain ⟨name, tail, same, isName, nameEnds, ⟨isWhere, -⟩ | ⟨-, notWhere, extended⟩⟩ :=
        h.of_letter rfl letter
      · cases isWhere
      · rw [same] at extended ⊢
        have nameEnds' := TypeConstraint.nameStops_local (TypeConstraint.isTail_extend extended)
          nameEnds fun _ => types
        have read := TypeConstraint.name?_of_isName isName nameEnds'
        rw [← List.append_assoc] at read
        exact readsAs_of_extend read notWhere
          (TypeConstraint.extend_local extended (fun _ => types) symbols)
  | variableName isVariable =>
      exact readsAs_variableName isVariable (names (stops_of_readsAs_variableName h))

/-! ## Tokens with the blanks around them -/

/-- What a scan answers that takes neither line ends nor the end of the input. -/
theorem scan_of_readsAs {before literal following : Text} {kind : Kind} (inline : IsInline before)
    (form : Form kind literal) (reads : ReadsAs kind literal following) :
    scan (before ++ (literal ++ following)) =
      ⟨before ++ (literal ++ (cut isInlineBlank following).1), trim following,
        .ok (kind, literal)⟩ := by
  obtain ⟨c, rest, rfl, solid, noComment⟩ := form.head
  have stops : Stops isInlineBlank (c :: rest ++ following) := by simp [isInlineBlank, solid]
  have front := cut_append_of_all inline stops
  have noEnds : Layout.lineEnds? (before ++ (c :: rest ++ following)) = none := by
    rw [Layout.lineEnds?_append_blanks inline, List.cons_append,
      Layout.lineEnds?_cons solid noComment]
    rfl
  have notFinal : Layout.isFinal (before ++ (c :: rest ++ following)) = false := by
    rw [Layout.isFinal_append_blanks inline, List.cons_append, Layout.isFinal_cons solid noComment]
  rw [ReadsAs] at reads
  simp only [scan, noEnds, notFinal, front, reads]
  rfl

/-- What a token that is read was written as. -/
theorem scan_sound {text taken rest literal : Text} {kind : Kind}
    (h : scan text = ⟨taken, rest, .ok (kind, literal)⟩) :
    (kind = .newline ∧ Layout.lineEnds? text = some (taken, rest)) ∨
    (kind = .endOfInput ∧ Layout.isFinal text = true) ∨
    (Form kind literal ∧ ∃ before behind, IsInline before ∧ IsInline behind ∧
      text = before ++ literal ++ behind ++ rest ∧ ReadsAs kind literal (behind ++ rest) ∧
      Stops isInlineBlank rest) := by
  unfold scan at h
  split at h
  · rename_i found
    cases h
    exact .inl ⟨rfl, found⟩
  · split at h
    · rename_i isFinal
      cases h
      exact .inr (.inl ⟨rfl, isFinal⟩)
    · simp only at h
      split at h
      · rename_i found read
        obtain ⟨more, rfl, blanked⟩ := Scan.after_eq_ok h
        obtain ⟨lexed, tail, result⟩ := found
        cases result with
        | error fault => simp [withBlanks] at blanked
        | ok value =>
            simp only [withBlanks, Scan.mk.injEq, Except.ok.injEq] at blanked
            obtain ⟨rfl, rfl, rfl⟩ := blanked
            obtain ⟨rfl, form, reads⟩ := lexeme?_sound read
            have whole : lexed ++ tail = (cut isInlineBlank text).2 := covers_lexeme? read
            have behind := cut_append isInlineBlank tail
            refine .inr (.inr ⟨form, (cut isInlineBlank text).1, (cut isInlineBlank tail).1,
              List.all_takeWhile, List.all_takeWhile, ?_, ?_, stops_cut isInlineBlank tail⟩)
            · simp only [List.append_assoc, behind, whole, cut_append]
            · rwa [behind]
      · simp at h

/-! ## The kind of the next token -/

/-- The kind of the token a text begins with, if it begins with one. -/
def kind? (text : Text) : Option Kind := (scan text).result.toOption.map Prod.fst

theorem kind?_append_blanks {blanks : Text} (inline : IsInline blanks) (text : Text) :
    kind? (blanks ++ text) = kind? text := by
  simp only [kind?, scan, Layout.lineEnds?_append_blanks inline, Layout.isFinal_append_blanks inline,
    cut_append_blanks inline]
  cases Layout.lineEnds? text with
  | some found => rfl
  | none =>
      simp only [Option.map_none]
      split
      · rfl
      · cases lexeme? (cut isInlineBlank text).2 with
        | none => rfl
        | some found =>
            simp only [Scan.after]
            cases (withBlanks found).result <;> rfl

theorem kind?_trim (text : Text) : kind? (trim text) = kind? text := by
  obtain ⟨blanks, inline, whole, -⟩ := exists_trim text
  conv => rhs; rw [whole]
  rw [kind?_append_blanks inline]

theorem kind?_of_readsAs {before literal following : Text} {kind : Kind} (inline : IsInline before)
    (form : Form kind literal) (reads : ReadsAs kind literal following) :
    kind? (before ++ (literal ++ following)) = some kind := by
  rw [kind?, scan_of_readsAs inline form reads]
  rfl

theorem kind?_of_lineEnds? {text taken rest : Text}
    (h : Layout.lineEnds? text = some (taken, rest)) : kind? text = some .newline := by
  simp only [kind?, scan, h]
  rfl

end MethodSignature.Token
