/-
# MethodSignature.Proofs.TypeGrammar -- the grammar of type constraints

    name       : part ( '::' part )*
    member     : name ( '[' arguments ']' )*
    constraint : member ( '|' member )*
    arguments  : constraint ( ',' constraint )*

The scan of a constraint is a flat loop with a count of open brackets.  `Extends` lists
what its steps can be, and `extend_eq_ok_iff` that a scan which succeeds is a run of such
steps.  All that follows is induction over runs.

The scan is sound for the grammar (`isConstraint_extend`): what it has taken with `depth`
brackets open is `depth` constraints, each waiting for arguments that are not yet
complete (`Open`).  It is complete (`extend_of_isConstraint`): a constraint that
nothing goes on with is taken whole.
-/
import MethodSignature.Proofs.Cut
import MethodSignature.TypeConstraint

namespace MethodSignature

set_option autoImplicit false

namespace Scan

variable {α : Type}

@[simp] theorem after_ok (lead taken rest : Text) (value : α) :
    after lead ⟨taken, rest, .ok value⟩ = ⟨lead ++ taken, rest, .ok value⟩ := rfl

@[simp] theorem after_error (lead taken rest : Text) (fault : Fault) :
    after lead (⟨taken, rest, .error fault⟩ : Scan α) =
      ⟨lead ++ taken, rest, .error (fault.shift lead.length)⟩ := rfl

theorem after_eq_ok {scan : Scan α} {lead taken rest : Text} {value : α}
    (h : scan.after lead = ⟨taken, rest, .ok value⟩) :
    ∃ more, taken = lead ++ more ∧ scan = ⟨more, rest, .ok value⟩ := by
  obtain ⟨more, tail, result⟩ := scan
  cases result with
  | error fault => simp at h
  | ok found =>
      simp only [after_ok, mk.injEq, Except.ok.injEq] at h
      obtain ⟨rfl, rfl, rfl⟩ := h
      exact ⟨more, rfl, rfl⟩

theorem after_eq_error {scan : Scan α} {lead taken rest : Text} {fault : Fault}
    (h : scan.after lead = ⟨taken, rest, .error fault⟩) :
    ∃ more inner, taken = lead ++ more ∧ scan = ⟨more, rest, .error inner⟩ ∧
      fault = inner.shift lead.length := by
  obtain ⟨more, tail, result⟩ := scan
  cases result with
  | ok found => simp at h
  | error inner =>
      simp only [after_error, mk.injEq, Except.error.injEq] at h
      obtain ⟨rfl, rfl, rfl⟩ := h
      exact ⟨more, inner, rfl, rfl, rfl⟩

theorem map_eq_ok {β : Type} {scan : Scan α} {f : α → β} {taken rest : Text} {value : β}
    (h : scan.map f = ⟨taken, rest, .ok value⟩) :
    ∃ found, scan = ⟨taken, rest, .ok found⟩ ∧ f found = value := by
  obtain ⟨taken', tail, result⟩ := scan
  cases result with
  | error fault => simp [map, Except.map] at h
  | ok found =>
      simp only [map, Except.map, mk.injEq, Except.ok.injEq] at h
      obtain ⟨rfl, rfl, rfl⟩ := h
      exact ⟨found, rfl, rfl⟩

end Scan

namespace TypeConstraint

open Text

/-! ## Names -/

/-- A part of a name: a letter, and letters, digits, underscores and hyphens. -/
def IsPart : Text → Prop
  | [] => False
  | c :: rest => isLetter c = true ∧ rest.all isTypeChar = true

theorem IsPart.ne_nil {part : Text} (h : IsPart part) : part ≠ [] := by
  rintro rfl
  exact h

inductive IsName : Text → Prop
  | part {part : Text} : IsPart part → IsName part
  | join {part name : Text} : IsPart part → IsName name → IsName (part ++ ':' :: ':' :: name)

/-- The text does not go on with a name. -/
def NameStops (text : Text) : Prop := (nameTail text).1 = []

theorem isTypeChar_of_isLetter {c : Char} (h : isLetter c = true) : isTypeChar c = true := by
  simp only [isLetter] at h
  simp [isTypeChar, isNameChar, Char.isAlphanum, h]

theorem IsPart.all {part : Text} (h : IsPart part) : part.all isTypeChar = true := by
  cases part with
  | nil => rfl
  | cons first rest => simp [isTypeChar_of_isLetter h.1, h.2]

theorem isTypeChar_colon : isTypeChar ':' = false := by decide

theorem nameTail_cons {c : Char} (h : isTypeChar c = true) (text : Text) :
    nameTail (c :: text) = (c :: (nameTail text).1, (nameTail text).2) := by
  have notColon : c ≠ ':' := by
    rintro rfl
    simp [isTypeChar_colon] at h
  rw [nameTail]
  · simp [h]
  · intro letter rest isColon
    exact absurd isColon notColon

theorem nameTail_append_of_all {part : Text} (h : part.all isTypeChar = true) (text : Text) :
    nameTail (part ++ text) = (part ++ (nameTail text).1, (nameTail text).2) := by
  induction part with
  | nil => rfl
  | cons c rest ih =>
      simp only [List.all_cons, Bool.and_eq_true] at h
      rw [List.cons_append, nameTail_cons h.1, ih h.2]
      rfl

theorem nameTail_colons {c : Char} (h : isLetter c = true) (text : Text) :
    nameTail (':' :: ':' :: c :: text) =
      (':' :: ':' :: c :: (nameTail text).1, (nameTail text).2) := by
  rw [nameTail]
  simp [h]

/-- A name goes on with a character of names, or with two colons and a letter. -/
theorem nameStops_iff {text : Text} :
    NameStops text ↔ Stops isTypeChar text ∧
      ∀ c rest, text = ':' :: ':' :: c :: rest → isLetter c = false := by
  unfold NameStops
  constructor
  · intro h
    fun_cases nameTail text with
    | case1 c rest letter => simp [nameTail, letter] at h
    | case2 c rest notLetter =>
        refine ⟨by simp [isTypeChar_colon], ?_⟩
        rintro c' rest' ⟨⟩
        simpa using notLetter
    | case3 c rest notColons typed => simp [nameTail_cons typed] at h
    | case4 c rest notColons untyped =>
        refine ⟨by simpa using untyped, ?_⟩
        rintro c' rest' ⟨⟩
        exact absurd rfl (notColons c' rest' rfl)
    | case5 => exact ⟨stops_nil _, nofun⟩
  · rintro ⟨stops, colons⟩
    fun_cases nameTail text with
    | case1 c rest letter => simp [colons c rest rfl] at letter
    | case2 => rfl
    | case3 c rest notColons typed => simp [typed] at stops
    | case4 => rfl
    | case5 => rfl

theorem nameStops_of_stops {text : Text} (h : Stops isTypeChar text)
    (noColon : Stops (· == ':') text) : NameStops text := by
  refine nameStops_iff.2 ⟨h, ?_⟩
  rintro c rest rfl
  simp at noColon

theorem nameTail_of_nameStops {text : Text} (h : NameStops text) : nameTail text = ([], text) := by
  have whole := nameTail_append text
  rw [NameStops] at h
  rw [h] at whole
  exact Prod.ext h whole

theorem nameStops_nameTail (text : Text) : NameStops (nameTail text).2 := by
  fun_induction nameTail text with
  | case1 c rest letter tail rest' found ih => simpa [found] using ih
  | case2 c rest notLetter => simp [NameStops, nameTail, notLetter]
  | case3 c rest notColons typed tail rest' found ih => simpa [found] using ih
  | case4 c rest notColons untyped =>
      rw [NameStops, nameTail]
      · simp [untyped]
      · exact notColons
  | case5 => rfl

theorem isPart_append {part : Text} {c : Char} (h : IsPart part) (typed : isTypeChar c = true) :
    IsPart (part ++ [c]) := by
  cases part with
  | nil => exact h.elim
  | cons first rest => simpa [IsPart, typed] using h

/-- A part goes on to a name, whatever the text behind it. -/
theorem isName_nameTail {part : Text} (h : IsPart part) (text : Text) :
    IsName (part ++ (nameTail text).1) := by
  fun_induction nameTail text generalizing part with
  | case1 c rest letter tail rest' found ih =>
      have one : IsPart [c] := ⟨letter, rfl⟩
      have inner := ih one
      rw [found] at inner
      exact .join h inner
  | case2 => simpa using IsName.part h
  | case3 c rest notColons typed tail rest' found ih =>
      have inner := ih (isPart_append h typed)
      rw [found] at inner
      simpa using inner
  | case4 => simpa using IsName.part h
  | case5 => simpa using IsName.part h

theorem length_le_of_name? {text name rest : Text} (h : name? text = some (name, rest)) :
    rest.length ≤ text.length := by
  rw [← name?_append h, List.length_append]
  omega

theorem isName_of_name? {text name rest : Text} (h : name? text = some (name, rest)) :
    IsName name ∧ NameStops rest := by
  cases text with
  | nil => cases h
  | cons c body =>
      simp only [name?] at h
      split at h
      · rename_i letter
        cases h
        have one : IsPart [c] := ⟨letter, rfl⟩
        exact ⟨isName_nameTail one body, nameStops_nameTail body⟩
      · cases h

theorem name?_of_isName {name rest : Text} (h : IsName name) (stops : NameStops rest) :
    name? (name ++ rest) = some (name, rest) := by
  suffices read : ∃ c body, name = c :: body ∧ isLetter c = true ∧
      nameTail (body ++ rest) = (body, rest) by
    obtain ⟨c, body, rfl, letter, tail⟩ := read
    simp [name?, letter, tail]
  induction h with
  | @part part isPart =>
      cases part with
      | nil => exact isPart.elim
      | cons c body =>
          refine ⟨c, body, rfl, isPart.1, ?_⟩
          rw [nameTail_append_of_all isPart.2, nameTail_of_nameStops stops]
          simp
  | @join part name isPart _ ih =>
      obtain ⟨c', body', rfl, letter, tail⟩ := ih
      cases part with
      | nil => exact isPart.elim
      | cons c body =>
          refine ⟨c, body ++ ':' :: ':' :: c' :: body', rfl, isPart.1, ?_⟩
          rw [List.append_assoc, nameTail_append_of_all isPart.2, List.cons_append, List.cons_append,
            List.cons_append, nameTail_colons letter, tail]

/-! ## Constraints -/

/-- What the grammar derives beyond names. -/
inductive Phrase
  | member
  | constraint
  | arguments
  deriving DecidableEq, Repr

inductive Derives : Phrase → Text → Prop
  | name {name : Text} : IsName name → Derives .member name
  | apply {member arguments : Text} : Derives .member member → Derives .arguments arguments →
      Derives .member (member ++ '[' :: arguments ++ [']'])
  | single {member : Text} : Derives .member member → Derives .constraint member
  | alternative {constraint member : Text} : Derives .constraint constraint →
      Derives .member member → Derives .constraint (constraint ++ '|' :: member)
  | argument {constraint : Text} : Derives .constraint constraint → Derives .arguments constraint
  | next {arguments constraint : Text} : Derives .arguments arguments →
      Derives .constraint constraint → Derives .arguments (arguments ++ ',' :: constraint)

/-- The texts of the type grammar. -/
abbrev IsConstraint (text : Text) : Prop := Derives .constraint text

/-- Arguments behind a phrase are arguments of its last member. -/
theorem Derives.apply_last {phrase : Phrase} {text arguments : Text} (h : Derives phrase text)
    (derived : Derives .arguments arguments) :
    Derives phrase (text ++ '[' :: arguments ++ [']']) := by
  induction h with
  | name isName => exact .apply (.name isName) derived
  | apply member inner _ _ => exact .apply (.apply member inner) derived
  | single _ ih => exact .single ih
  | alternative constraint _ _ ih => simpa using Derives.alternative constraint ih
  | argument _ ih => exact .argument ih
  | next arguments _ _ ih => simpa using Derives.next arguments ih

/-- A member behind a pipe is an alternative to the last constraint. -/
theorem Derives.alternative_last {arguments member : Text} (h : Derives .arguments arguments)
    (derived : Derives .member member) : Derives .arguments (arguments ++ '|' :: member) := by
  cases h with
  | argument constraint => exact .argument (.alternative constraint derived)
  | next arguments constraint => simpa using Derives.next arguments (.alternative constraint derived)

/-- Two constraints with a pipe between them are one. -/
theorem Derives.join {constraint other : Text} (h : IsConstraint constraint)
    (derived : IsConstraint other) : IsConstraint (constraint ++ '|' :: other) := by
  unfold IsConstraint at derived
  generalize same : Phrase.constraint = phrase at derived
  induction derived with
  | name | apply | argument | next => cases same
  | single member _ => exact .alternative h member
  | alternative _ member ih _ => simpa using Derives.alternative (ih rfl) member

/-- What has been taken of a constraint while `depth` brackets are open. -/
inductive Open : Nat → Text → Prop
  | outer {text : Text} : IsConstraint text → Open 0 text
  | inner {depth : Nat} {text arguments : Text} : Open depth text → Derives .arguments arguments →
      Open (depth + 1) (text ++ '[' :: arguments)

theorem Open.close {depth : Nat} {text : Text} (h : Open (depth + 1) text) :
    Open depth (text ++ [']']) := by
  cases h with
  | inner outside arguments =>
      cases outside with
      | outer constraint => exact .outer (constraint.apply_last arguments)
      | inner further around => simpa using Open.inner further (around.apply_last arguments)

theorem Open.pipe {depth : Nat} {text name : Text} (h : Open depth text) (isName : IsName name) :
    Open depth (text ++ '|' :: name) := by
  cases h with
  | outer constraint => exact .outer (.alternative constraint (.name isName))
  | inner outside arguments =>
      simpa using Open.inner outside (arguments.alternative_last (.name isName))

theorem Open.comma {depth : Nat} {text name : Text} (h : Open (depth + 1) text)
    (isName : IsName name) : Open (depth + 1) (text ++ ',' :: name) := by
  cases h with
  | inner outside arguments =>
      simpa using Open.inner outside (arguments.next (.single (.name isName)))

theorem Open.bracket {depth : Nat} {text name : Text} (h : Open depth text) (isName : IsName name) :
    Open (depth + 1) (text ++ '[' :: name) :=
  .inner h (.argument (.single (.name isName)))

/-! ## Runs of the scan -/

theorem nameStops_of_symbol {symbol : Char} (h : isSymbol symbol = true) (text : Text) :
    NameStops (symbol :: text) := by
  simp only [isSymbol, Bool.or_eq_true, beq_iff_eq] at h
  apply nameStops_of_stops
  · rw [stops_cons]
    rcases h with ((rfl | rfl) | rfl) | rfl <;> decide
  · rw [stops_cons]
    rcases h with ((rfl | rfl) | rfl) | rfl <;> decide

/-- What stands behind the first name of a phrase: nothing, or a symbol and more. -/
def IsTail (tail : Text) : Prop := Stops (fun c => !isSymbol c) tail

theorem IsTail.nameStops {tail following : Text} (h : IsTail tail) (stops : NameStops following) :
    NameStops (tail ++ following) := by
  cases tail with
  | nil => exact stops
  | cons c rest => exact nameStops_of_symbol (by simpa [IsTail] using h) _

theorem IsTail.append {tail more : Text} (h : IsTail tail) (isTail : IsTail more) :
    IsTail (tail ++ more) :=
  stops_append h fun _ => isTail

/-- Inside `depth` brackets, `taken` goes on with a constraint up to its end, and `rest`
stands behind it. -/
inductive Extends : Nat → Text → Text → Prop
  | stop {rest : Text} : Stops isSymbol rest → Extends 0 [] rest
  | close {depth : Nat} {taken rest : Text} : Extends depth taken rest →
      Extends (depth + 1) (']' :: taken) rest
  | name {symbol : Char} {depth inner : Nat} {name taken rest : Text} :
      inner = (if symbol = '[' then depth + 1 else depth) → isSymbol symbol = true →
      symbol ≠ ']' → (symbol = ',' → 0 < depth) → IsName name → NameStops (taken ++ rest) →
      Extends inner taken rest → Extends depth (symbol :: (name ++ taken)) rest

section Extends

variable {depth : Nat} {taken rest : Text}

theorem Extends.isTail (h : Extends depth taken rest) : IsTail taken := by
  cases h with
  | stop _ => exact stops_nil _
  | close _ => simp [IsTail, isSymbol]
  | name _ isSymbol _ _ _ _ _ => simp [IsTail, isSymbol]

/-- All symbols there are have been taken. -/
theorem Extends.stops (h : Extends depth taken rest) : Stops isSymbol rest := by
  induction h with
  | stop stops => exact stops
  | close _ ih | name _ _ _ _ _ _ _ ih => exact ih

end Extends

theorem finish_eq_ok_iff {constraint text taken rest value : Text} {depth : Nat} :
    finish constraint depth text = ⟨taken, rest, .ok value⟩ ↔
      depth = 0 ∧ taken = [] ∧ rest = text ∧ value = constraint := by
  unfold finish
  split
  · rename_i outside
    simp [outside, eq_comm]
  · rename_i inside
    simp [Scan.fail, inside]

theorem extends_of_extendFrom {fuel : Nat} {constraint text taken rest value : Text} {depth : Nat}
    (enough : text.length ≤ fuel)
    (h : extendFrom fuel constraint depth text = ⟨taken, rest, .ok value⟩) :
    value = constraint ++ taken ∧ Extends depth taken rest := by
  have finished : ∀ {constraint text taken : Text} {depth : Nat}, Stops isSymbol text →
      finish constraint depth text = ⟨taken, rest, .ok value⟩ →
        value = constraint ++ taken ∧ Extends depth taken rest := by
    intro constraint text taken depth stops ended
    obtain ⟨rfl, rfl, rfl, rfl⟩ := finish_eq_ok_iff.1 ended
    exact ⟨(List.append_nil _).symm, .stop stops⟩
  fun_induction extendFrom fuel constraint depth text generalizing taken with
  | case1 constraint depth text =>
      have none : text = [] := List.eq_nil_of_length_eq_zero (Nat.le_zero.1 enough)
      subst none
      exact finished (stops_nil _) h
  | case2 => exact finished (stops_nil _) h
  | case3 fuel constraint depth symbol tail notSymbol =>
      refine finished ?_ h
      rw [stops_cons]
      simpa using notSymbol
  | case4 | case6 | case7 => cases h
  | case5 fuel constraint tail depth _ ih =>
      obtain ⟨more, rfl, found⟩ := Scan.after_eq_ok h
      obtain ⟨rfl, run⟩ := ih (Nat.le_of_succ_le_succ enough) found
      exact ⟨by simp, .close run⟩
  | case8 fuel constraint depth symbol tail symbolic notClosing notStray name tail' read =>
      rename_i depth' ih
      obtain ⟨more, rfl, found⟩ := Scan.after_eq_ok h
      have shorter : tail'.length ≤ fuel :=
        Nat.le_trans (length_le_of_name? read) (Nat.le_of_succ_le_succ enough)
      obtain ⟨rfl, run⟩ := ih shorter found
      obtain ⟨isName, nameEnds⟩ := isName_of_name? read
      have covers := covers_extendFrom fuel (constraint ++ symbol :: name) depth' tail'
      rw [found] at covers
      rw [← covers] at nameEnds
      have isSymbol : TypeConstraint.isSymbol symbol = true := by simpa using symbolic
      have inside : symbol = ',' → 0 < depth := by
        intro comma
        have outside : depth ≠ 0 := fun zero => notStray ⟨comma, zero⟩
        omega
      exact ⟨by simp, .name rfl isSymbol notClosing inside isName nameEnds run⟩

theorem extendFrom_of_le {m n : Nat} {constraint : Text} {depth : Nat} {text : Text}
    (hm : text.length ≤ m) (hn : text.length ≤ n) :
    extendFrom m constraint depth text = extendFrom n constraint depth text := by
  induction m generalizing n constraint depth text with
  | zero =>
      have : text = [] := List.eq_nil_of_length_eq_zero (Nat.le_zero.1 hm)
      subst this
      cases n <;> rfl
  | succ m ih =>
      cases text with
      | nil => cases n <;> rfl
      | cons symbol rest =>
          cases n with
          | zero => simp at hn
          | succ n =>
              simp only [List.length_cons, Nat.add_le_add_iff_right] at hm hn
              simp only [extendFrom]
              split
              · rfl
              · split
                · cases depth with
                  | zero => rfl
                  | succ depth => simp only [ih hm hn]
                · split
                  · rfl
                  · split
                    · rfl
                    · rename_i name tail read
                      have shorter := length_le_of_name? read
                      rw [ih (Nat.le_trans shorter hm) (Nat.le_trans shorter hn)]

/-- The scan of a constraint from a place inside it. -/
def resume (constraint : Text) (depth : Nat) (text : Text) : Scan Text :=
  extendFrom text.length constraint depth text

theorem resume_of_stops {constraint : Text} {depth : Nat} {text : Text}
    (stops : Stops isSymbol text) : resume constraint depth text = finish constraint depth text := by
  cases text with
  | nil => rfl
  | cons c rest => simp [resume, extendFrom, (stops_cons ..).1 stops]

theorem resume_close (constraint : Text) (depth : Nat) (text : Text) :
    resume constraint (depth + 1) (']' :: text) =
      (resume (constraint ++ [']']) depth text).after [']'] := by
  simp [resume, extendFrom, isSymbol]

theorem resume_name {symbol : Char} (isSymbol : isSymbol symbol = true) (notClosing : symbol ≠ ']')
    {depth : Nat} (inside : symbol = ',' → 0 < depth) {text name rest : Text}
    (read : name? text = some (name, rest)) (constraint : Text) :
    resume constraint depth (symbol :: text) =
      (resume (constraint ++ symbol :: name) (if symbol = '[' then depth + 1 else depth) rest).after
        (symbol :: name) := by
  have notStray : ¬ (symbol = ',' ∧ depth = 0) := by
    rintro ⟨comma, outside⟩
    have := inside comma
    omega
  have shorter := length_le_of_name? read
  simp only [resume, List.length_cons, extendFrom, isSymbol, Bool.not_true, Bool.false_eq_true,
    if_false, notClosing, notStray, read]
  rw [extendFrom_of_le shorter (Nat.le_refl _)]

theorem Extends.resume_eq {depth : Nat} {taken rest : Text} (h : Extends depth taken rest)
    (constraint : Text) :
    resume constraint depth (taken ++ rest) = ⟨taken, rest, .ok (constraint ++ taken)⟩ := by
  induction h generalizing constraint with
  | stop stops =>
      rw [List.nil_append, List.append_nil, resume_of_stops stops]
      exact finish_eq_ok_iff.2 ⟨rfl, rfl, rfl, rfl⟩
  | close _ ih =>
      rw [List.cons_append, resume_close, ih]
      simp
  | name deeper isSymbol notClosing inside isName nameEnds _ ih =>
      have read := name?_of_isName isName nameEnds
      rw [List.cons_append, List.append_assoc, resume_name isSymbol notClosing inside read,
        ← deeper, ih]
      simp

/-- **The scan behind a name** takes what extends a constraint, and answers with all of it. -/
theorem extend_eq_ok_iff {name text taken rest value : Text} :
    extend name text = ⟨taken, rest, .ok value⟩ ↔
      text = taken ++ rest ∧ value = name ++ taken ∧ Extends 0 taken rest := by
  constructor
  · intro h
    have covers := covers_extend name text
    rw [h] at covers
    exact ⟨covers.symm, extends_of_extendFrom (Nat.le_refl _) h⟩
  · rintro ⟨rfl, rfl, run⟩
    exact run.resume_eq name

/-! ## What is taken is a constraint -/

/-- When all brackets are closed, what was open is a constraint. -/
theorem Extends.isConstraint {depth : Nat} {constraint taken rest : Text}
    (h : Extends depth taken rest) (isOpen : Open depth constraint) :
    IsConstraint (constraint ++ taken) := by
  induction h generalizing constraint with
  | stop _ =>
      cases isOpen with
      | outer derived => rwa [List.append_nil]
  | close _ ih => simpa using ih isOpen.close
  | @name symbol depth inner name taken rest deeper isSymbol notClosing inside isName _ _ ih =>
      have grown : Open inner (constraint ++ symbol :: name) := by
        simp only [TypeConstraint.isSymbol, Bool.or_eq_true, beq_iff_eq] at isSymbol
        rcases isSymbol with ((rfl | rfl) | rfl) | rfl
        · exact deeper ▸ isOpen.pipe isName
        · exact deeper ▸ isOpen.bracket isName
        · cases depth with
          | zero => exact absurd (inside rfl) (Nat.lt_irrefl 0)
          | succ depth => exact deeper ▸ isOpen.comma isName
        · exact absurd rfl notClosing
      simpa using ih grown

theorem isConstraint_extend {name text taken rest value : Text} (isName : IsName name)
    (h : extend name text = ⟨taken, rest, .ok value⟩) :
    IsConstraint value ∧ value = name ++ taken := by
  obtain ⟨-, rfl, run⟩ := extend_eq_ok_iff.1 h
  exact ⟨run.isConstraint (.outer (.single (.name isName))), rfl⟩

/-- What extends a constraint begins with a symbol. -/
theorem isTail_extend {leading text taken rest value : Text}
    (h : extend leading text = ⟨taken, rest, .ok value⟩) : IsTail taken :=
  (extend_eq_ok_iff.1 h).2.2.isTail

/-! ## Every constraint is taken whole -/

/-- A symbol and the phrase behind it go on with a constraint. -/
theorem Extends.phrase (symbol : Char) {depth inner : Nat}
    (deeper : inner = if symbol = '[' then depth + 1 else depth)
    (isSymbol : TypeConstraint.isSymbol symbol = true) (notClosing : symbol ≠ ']')
    (inside : symbol = ',' → 0 < depth) {name tail more rest : Text} (isName : IsName name)
    (isTail : IsTail tail) (nameEnds : NameStops (more ++ rest))
    (run : Extends inner (tail ++ more) rest) :
    Extends depth (symbol :: (name ++ tail) ++ more) rest := by
  have behind : NameStops (tail ++ more ++ rest) := by
    rw [List.append_assoc]
    exact isTail.nameStops nameEnds
  simpa using Extends.name deeper isSymbol notClosing inside isName behind run

/-- A phrase begins with a name, and what stands behind that name goes on with a constraint. -/
theorem Derives.exists_name {phrase : Phrase} {text : Text} (h : Derives phrase text) :
    ∃ name tail, text = name ++ tail ∧ IsName name ∧ IsTail tail ∧
      ∀ {depth more rest}, (phrase = .arguments → 0 < depth) → NameStops (more ++ rest) →
        Extends depth more rest → Extends depth (tail ++ more) rest := by
  induction h with
  | @name name isName =>
      exact ⟨name, [], (List.append_nil _).symm, isName, stops_nil _, fun _ _ run => run⟩
  | apply _ _ ihMember ihArguments =>
      obtain ⟨name, tail, rfl, isName, isTail, taken⟩ := ihMember
      obtain ⟨inner, innerTail, rfl, innerName, isInnerTail, innerTaken⟩ := ihArguments
      refine ⟨name, tail ++ ('[' :: (inner ++ innerTail) ++ [']']), by simp, isName,
        isTail.append (by simp [IsTail, isSymbol]), ?_⟩
      intro depth more rest _ _ run
      have closing : NameStops (']' :: more ++ rest) := nameStops_of_symbol rfl _
      have closed := innerTaken (fun _ => Nat.succ_pos depth) closing run.close
      have bracket := Extends.phrase '[' rfl rfl (by decide) nofun innerName isInnerTail closing
        closed
      simpa using taken nofun (nameStops_of_symbol rfl _) bracket
  | single _ ih =>
      obtain ⟨name, tail, rfl, isName, isTail, taken⟩ := ih
      exact ⟨name, tail, rfl, isName, isTail, fun _ => taken nofun⟩
  | alternative _ _ ih ihMember =>
      obtain ⟨name, tail, rfl, isName, isTail, taken⟩ := ih
      obtain ⟨other, otherTail, rfl, otherName, isOtherTail, otherTaken⟩ := ihMember
      refine ⟨name, tail ++ '|' :: (other ++ otherTail), by simp, isName,
        isTail.append (by simp [IsTail, isSymbol]), ?_⟩
      intro depth more rest _ nameEnds run
      have pipe := Extends.phrase '|' rfl rfl (by decide) nofun otherName isOtherTail nameEnds
        (otherTaken nofun nameEnds run)
      simpa using taken nofun (nameStops_of_symbol rfl _) pipe
  | argument _ ih =>
      obtain ⟨name, tail, rfl, isName, isTail, taken⟩ := ih
      exact ⟨name, tail, rfl, isName, isTail, fun _ => taken nofun⟩
  | next _ _ ih ihConstraint =>
      obtain ⟨name, tail, rfl, isName, isTail, taken⟩ := ih
      obtain ⟨other, otherTail, rfl, otherName, isOtherTail, otherTaken⟩ := ihConstraint
      refine ⟨name, tail ++ ',' :: (other ++ otherTail), by simp, isName,
        isTail.append (by simp [IsTail, isSymbol]), ?_⟩
      intro depth more rest inside nameEnds run
      have comma := Extends.phrase ',' rfl rfl (by decide) (fun _ => inside rfl) otherName
        isOtherTail nameEnds (otherTaken nofun nameEnds run)
      simpa using taken inside (nameStops_of_symbol rfl _) comma

/-- A constraint begins with a name, and the scan behind that name takes the rest
of the constraint, where neither a name nor a symbol goes on. -/
theorem extend_of_isConstraint {constraint following : Text} (h : IsConstraint constraint)
    (stops : NameStops following) (noSymbol : Stops isSymbol following) :
    ∃ name tail, constraint = name ++ tail ∧ IsTail tail ∧
      name? (constraint ++ following) = some (name, tail ++ following) ∧
      extend name (tail ++ following) = ⟨tail, following, .ok constraint⟩ := by
  obtain ⟨name, tail, rfl, isName, isTail, taken⟩ := h.exists_name
  have run : Extends 0 (tail ++ []) following := taken nofun stops (.stop noSymbol)
  rw [List.append_nil] at run
  refine ⟨name, tail, rfl, isTail, ?_, extend_eq_ok_iff.2 ⟨rfl, rfl, run⟩⟩
  rw [List.append_assoc]
  exact name?_of_isName isName (isTail.nameStops stops)

/-! ## The text behind a constraint -/

/-- A name of a constraint ends at a symbol, or where the whole constraint does. -/
theorem nameStops_local {taken rest following : Text} (isTail : IsTail taken)
    (stops : NameStops (taken ++ rest))
    (names : taken = [] → NameStops rest → NameStops following) :
    NameStops (taken ++ following) := by
  cases taken with
  | nil => exact names rfl stops
  | cons c taken => exact nameStops_of_symbol (by simpa [IsTail] using isTail) _

/-- The last thing in the text is a name. -/
def EndsInName (text : Text) : Prop := ∃ c ∈ text.getLast?, isTypeChar c = true

theorem EndsInName.prepend {text : Text} (h : EndsInName text) (lead : Text) :
    EndsInName (lead ++ text) := by
  obtain ⟨c, last, typed⟩ := h
  refine ⟨c, ?_, typed⟩
  rw [List.getLast?_append, Option.mem_def.1 last]
  rfl

theorem IsPart.endsInName {part : Text} (h : IsPart part) : EndsInName part :=
  ⟨part.getLast h.ne_nil, List.getLast?_eq_some_getLast h.ne_nil,
    List.all_eq_true.1 h.all _ (List.getLast_mem h.ne_nil)⟩

theorem IsName.endsInName {name : Text} (h : IsName name) : EndsInName name := by
  induction h with
  | part isPart => exact isPart.endsInName
  | @join part name _ _ ih => exact (ih.prepend [':', ':']).prepend part

/-- What follows a constraint matters to its last name, if it ends in one, and must not go on
with a symbol. -/
theorem Extends.of_following {depth : Nat} {taken rest following : Text}
    (h : Extends depth taken rest)
    (names : EndsInName taken → NameStops rest → NameStops following)
    (symbols : Stops isSymbol rest → Stops isSymbol following) :
    Extends depth taken following := by
  induction h with
  | stop stops => exact .stop (symbols stops)
  | close _ ih => exact .close (ih (fun ends => names (ends.prepend [']'])) symbols)
  | @name symbol depth inner name taken rest deeper isSymbol notClosing inside isName nameEnds run
      ih =>
      have behind : NameStops (taken ++ following) := by
        refine nameStops_local run.isTail nameEnds fun none => names ?_
        rw [none, List.append_nil]
        exact isName.endsInName.prepend [symbol]
      refine .name deeper isSymbol notClosing inside isName behind (ih (fun ends => names ?_) symbols)
      exact (ends.prepend name).prepend [symbol]

/-- **A constraint ends where it does** before any text that goes on with it no further
than the text behind it did. -/
theorem extend_local {name text taken rest value : Text}
    (h : extend name text = ⟨taken, rest, .ok value⟩) {following : Text}
    (names : EndsInName taken → NameStops rest → NameStops following)
    (symbols : Stops isSymbol rest → Stops isSymbol following) :
    extend name (taken ++ following) = ⟨taken, following, .ok value⟩ := by
  obtain ⟨-, rfl, run⟩ := extend_eq_ok_iff.1 h
  exact extend_eq_ok_iff.2 ⟨rfl, rfl, run.of_following names symbols⟩

/-! ## Brackets -/

/-- How many brackets are open behind a text, where none closes that was not open. -/
def depthAfter : Nat → Text → Option Nat
  | depth, [] => some depth
  | depth, c :: rest =>
      if c = '[' then depthAfter (depth + 1) rest
      else if c = ']' then if depth = 0 then none else depthAfter (depth - 1) rest
      else depthAfter depth rest

/-- Each bracket that opens is closed behind it, and none closes otherwise. -/
def Balanced (text : Text) : Prop := depthAfter 0 text = some 0

theorem depthAfter_append_of_plain {text : Text} (plain : ∀ c ∈ text, c ≠ '[' ∧ c ≠ ']')
    (depth : Nat) (following : Text) :
    depthAfter depth (text ++ following) = depthAfter depth following := by
  induction text with
  | nil => rfl
  | cons c rest ih =>
      obtain ⟨notOpening, notClosing⟩ := plain c (by simp)
      rw [List.cons_append, depthAfter, if_neg notOpening, if_neg notClosing]
      exact ih fun c member => plain c (List.mem_cons_of_mem _ member)

theorem IsPart.plain {part : Text} (h : IsPart part) : ∀ c ∈ part, c ≠ '[' ∧ c ≠ ']' := by
  intro c member
  have isTyped := List.all_eq_true.1 h.all c member
  constructor <;> (rintro rfl; revert isTyped; decide)

theorem IsName.plain {name : Text} (h : IsName name) : ∀ c ∈ name, c ≠ '[' ∧ c ≠ ']' := by
  induction h with
  | part isPart => exact isPart.plain
  | join isPart _ ih =>
      intro c member
      simp only [List.mem_append, List.mem_cons] at member
      rcases member with inPart | rfl | rfl | inName
      · exact isPart.plain c inPart
      · decide
      · decide
      · exact ih c inName

theorem depthAfter_append_of_derives {phrase : Phrase} {text : Text} (h : Derives phrase text)
    (depth : Nat) (following : Text) :
    depthAfter depth (text ++ following) = depthAfter depth following := by
  induction h generalizing depth following with
  | name isName => exact depthAfter_append_of_plain isName.plain depth following
  | apply _ _ ihMember ihArguments =>
      simp only [List.append_assoc, List.cons_append, ihMember]
      rw [depthAfter, if_pos rfl, ihArguments]
      rfl
  | single _ ih => exact ih depth following
  | alternative _ _ ih ihMember =>
      simp only [List.append_assoc, List.cons_append, ih]
      exact ihMember depth following
  | argument _ ih => exact ih depth following
  | next _ _ ih ihConstraint =>
      simp only [List.append_assoc, List.cons_append, ih]
      exact ihConstraint depth following

/-- The brackets of a constraint are balanced. -/
theorem IsConstraint.balanced {constraint : Text} (h : IsConstraint constraint) :
    Balanced constraint := by
  have whole := depthAfter_append_of_derives h 0 []
  rw [List.append_nil] at whole
  exact whole

end TypeConstraint

end MethodSignature
