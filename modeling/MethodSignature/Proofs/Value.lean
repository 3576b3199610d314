/-
# MethodSignature.Proofs.Value -- default values

A default value is a number, a quote or a variable (`IsValue`).  Each is read again as
what it is where the text behind does not go on with it (`valueFits_of_isValue`); each
begins and ends with a character that is neither blank nor a backslash.  Of tokens this
holds throughout.

The scans for literals take nothing unless they read a literal whole (`Decides`).
-/
import MethodSignature.Proofs.Grammar
import MethodSignature.Proofs.Number
import MethodSignature.Proofs.Quote

namespace MethodSignature.Grammar

set_option autoImplicit false

open Text

/-! ## What a scan answers -/

/-- What a scan for a literal answers: none begins here, one was read whole, or there is
a fault and nothing was taken. -/
inductive Decides (text : Text) : Scan (Option Text) → Prop
  | absent : Decides text (.absent text)
  | present (taken rest : Text) : Decides text (.present taken rest)
  | fault (fault : Fault) : Decides text ⟨[], text, .error fault⟩

theorem Decides.cases_ok {text taken rest : Text} {scan : Scan (Option Text)} {answer : Option Text}
    (h : Decides text scan) (ok : scan = ⟨taken, rest, .ok answer⟩) :
    (answer = none ∧ scan = .absent text ∧ rest = text) ∨
      (answer = some taken ∧ scan = .present taken rest) := by
  cases h with
  | absent =>
      cases ok
      exact .inl ⟨rfl, rfl, rfl⟩
  | present =>
      cases ok
      exact .inr ⟨rfl, rfl⟩
  | fault => cases ok

theorem decides_number (text : Text) : Decides text (Number.scan text) := by
  unfold Number.scan
  cases Number.read? text with
  | none => exact .absent
  | some found => exact .present found.1 found.2

theorem decides_quote (text : Text) : Decides text (Quote.scan text) := by
  have delimited : ∀ lead delimiter body isModifier,
      Decides text (Quote.delimited text lead delimiter body isModifier) := by
    intro lead delimiter body isModifier
    unfold Quote.delimited
    split
    · exact .present _ _
    · exact .fault _
  unfold Quote.scan
  split
  · exact .absent
  · exact .fault _
  · split
    · exact delimited _ _ _ _
    · exact .fault _
  · split
    · exact delimited _ _ _ _
    · exact .fault _

theorem decides_block (text : Text) : Decides text (Block.scan text) := by
  unfold Block.scan
  split
  · split
    · exact .present _ _
    · exact .fault _
  · exact .absent

theorem number_self {text number rest : Text} (h : Number.scan text = .present number rest) :
    Number.scan number = .present number [] := by
  have read := Number.scan_eq_present_iff.1 h
  rw [← Number.read?_append read] at read
  have alone := Number.read?_append_of_stops read (stops_nil _)
  rw [List.append_nil] at alone
  exact Number.scan_eq_present_iff.2 alone

theorem quote_self {text quote rest : Text} (h : Quote.scan text = .present quote rest) :
    Quote.scan quote = .present quote [] := by
  simpa using Quote.scan_append_of_isQuote (Quote.isQuote_of_scan h) fun _ _ => stops_nil _

/-! ## Where tokens and values begin and end -/

/-- Ranges that keep apart have no character in common. -/
theorem inRanges_disjoint {ranges others : List (Nat × Nat)}
    (apart : ∀ range ∈ ranges, ∀ other ∈ others, range.2 < other.1 ∨ other.2 < range.1) {c : Char}
    (inside : inRanges ranges c = true) : inRanges others c = false := by
  simp only [inRanges, List.any_eq_true, Bool.and_eq_true, decide_eq_true_eq] at inside
  obtain ⟨range, member, low, high⟩ := inside
  simp only [inRanges, List.any_eq_false, Bool.and_eq_true, decide_eq_true_eq, not_and, Nat.not_le]
  intro other member' low'
  rcases apart range member other member' with before | behind <;> omega

theorem isBlank_of_isNameChar {c : Char} (h : isNameChar c = true) : isBlank c = false := by
  cases blank : isBlank c with
  | false => rfl
  | true => simp [isNameChar_of_isBlank blank] at h

theorem isBlank_of_isDigit {c : Char} (h : isDigit c = true) : isBlank c = false := by
  unfold isDigit at h
  split at h
  · refine isBlank_of_isNameChar ?_
    simp [isNameChar, Char.isAlphanum, h]
  · exact inRanges_disjoint (by decide +kernel) h

/-- Neither blank nor a backslash. -/
def isSolid (c : Char) : Bool := !isBlank c && c != backslash

theorem isSolid_of_isNameChar {c : Char} (h : isNameChar c = true) : isSolid c = true := by
  have plain : c ≠ backslash := by
    rintro rfl
    revert h
    decide
  simp [isSolid, isBlank_of_isNameChar h, plain]

theorem isNameChar_of_isHexDigit {c : Char} (h : Number.isHexDigit c = true) :
    isNameChar c = true := by
  simp only [Number.isHexDigit, Char.le_def, UInt32.le_iff_toNat_le, Bool.or_eq_true,
    Bool.and_eq_true, decide_eq_true_eq] at h
  rcases h with (digit | ⟨low, high⟩) | ⟨low, high⟩
  · simp [isNameChar, Char.isAlphanum, digit]
  · have last : c.toNat ≤ 0x66 := high
    have first : 0x61 ≤ c.toNat := low
    rw [isNameChar_iff]
    omega
  · have last : c.toNat ≤ 0x46 := high
    have first : 0x41 ≤ c.toNat := low
    rw [isNameChar_iff]
    omega

theorem isSolid_of_isNumeralChar {c : Char} (h : Number.isNumeralChar c = true) :
    isSolid c = true := by
  simp only [Number.isNumeralChar, Bool.or_eq_true, List.contains_iff_mem] at h
  rcases h with (digit | hex) | other
  · have plain : c ≠ backslash := by
      rintro rfl
      revert digit
      decide
    simp [isSolid, isBlank_of_isDigit digit, plain]
  · exact isSolid_of_isNameChar (isNameChar_of_isHexDigit hex)
  · simp only [List.mem_cons, List.not_mem_nil, or_false] at other
    rcases other with rfl | rfl | rfl | rfl | rfl <;> decide

theorem isSolid_of_isDelimiter {c : Char} (h : Delimiter.isDelimiter c = true)
    (plain : c ≠ backslash) : isSolid c = true := by
  simp only [Delimiter.isDelimiter, Bool.and_eq_true, Bool.not_eq_true'] at h
  simp [isSolid, h.2, plain]

/-- The first and the last character are neither blank nor a backslash. -/
structure IsSolid (text : Text) : Prop where
  head : ∃ c rest, text = c :: rest ∧ isSolid c = true
  last : ∃ c, text.getLast? = some c ∧ isSolid c = true

theorem IsSolid.endsSolid {text : Text} (h : IsSolid text) : EndsSolid text := by
  obtain ⟨c, last, solid⟩ := h.last
  simp only [isSolid, Bool.and_eq_true, Bool.not_eq_true', bne_iff_ne] at solid
  exact ⟨c, last, solid.2, solid.1⟩

theorem IsSolid.stops {text : Text} (h : IsSolid text) (more : Text) :
    Stops isBlank (text ++ more) := by
  obtain ⟨c, rest, rfl, solid⟩ := h.head
  simp only [isSolid, Bool.and_eq_true, Bool.not_eq_true'] at solid
  simpa using solid.1

theorem isSolid_of_all {text : Text} (nonempty : text ≠ []) (all : text.all isSolid = true) :
    IsSolid text := by
  rw [List.all_eq_true] at all
  constructor
  · cases text with
    | nil => exact absurd rfl nonempty
    | cons c rest => exact ⟨c, rest, rfl, all c (by simp)⟩
  · exact ⟨text.getLast nonempty, List.getLast?_eq_some_getLast nonempty,
      all _ (List.getLast_mem nonempty)⟩

theorem isSolid_numeral {text : Text} (h : Number.IsNumeral text) : IsSolid text :=
  isSolid_of_all h.ne_nil (all_mono (fun _ => isSolid_of_isNumeralChar) h.all)

theorem last_of_close {delimiter : Char} {inside : Text}
    (delimits : Delimiter.isDelimiter delimiter = true)
    (h : Delimiter.close delimiter inside = .closed inside []) :
    ∃ c, inside.getLast? = some c ∧ isSolid c = true := by
  obtain ⟨last, plain⟩ := Delimiter.getLast?_of_closed (Delimiter.close_eq_closed_iff.1 h)
  refine ⟨_, last, ?_⟩
  cases nesting : Delimiter.nests delimiter with
  | false =>
      rw [Delimiter.closer_of_not_nests nesting] at plain ⊢
      exact isSolid_of_isDelimiter delimits plain
  | true => rcases Delimiter.nests_cases nesting with rfl | rfl | rfl | rfl <;> decide

theorem getLast?_append_cons (front : Text) (c : Char) {inside : Text} {last : Char}
    (h : inside.getLast? = some last) : (front ++ c :: inside).getLast? = some last := by
  rw [List.getLast?_append, List.getLast?_cons, h]
  rfl

theorem isSolid_quote {text : Text} (h : Quote.IsQuote text) : IsSolid text := by
  cases h with
  | @mark quote inside marks closed =>
      have delimits : Delimiter.isDelimiter quote = true := by
        rcases marks with rfl | rfl <;> decide
      obtain ⟨last, isLast, solid⟩ := last_of_close delimits closed
      refine ⟨⟨quote, inside, rfl, ?_⟩, last, getLast?_append_cons [] quote isLast, solid⟩
      rcases marks with rfl | rfl <;> decide
  | @operator operator gap inside modifiers delimiter accepted inline delimits placed closed all =>
      obtain ⟨more, starts⟩ := Quote.spelling_of_accepted accepted
      refine ⟨⟨'q', _, by rw [starts]; rfl, by decide⟩, ?_⟩
      cases modifiers with
      | nil =>
          obtain ⟨last, isLast, solid⟩ := last_of_close delimits closed
          rw [List.append_nil]
          exact ⟨last, getLast?_append_cons _ delimiter isLast, solid⟩
      | cons c modifiers =>
          have nonempty : c :: modifiers ≠ [] := List.cons_ne_nil c modifiers
          have member := List.all_eq_true.1 all _ (List.getLast_mem nonempty)
          rw [List.getLast?_append, List.getLast?_eq_some_getLast nonempty]
          refine ⟨_, rfl, ?_⟩
          simp only [Bool.and_eq_true, Quote.isPatternModifier, List.contains_iff_mem,
            List.mem_cons, List.not_mem_nil, or_false] at member
          rcases member.2 with h | h | h | h | h | h | h | h | h | h | h <;> rw [h] <;> decide

theorem all_isSolid_variable {name : Text} (h : Token.IsVariable name) :
    name ≠ [] ∧ name.all isSolid = true := by
  obtain ⟨sigil, first, rest, rfl, sigiled, starts, named⟩ := h
  refine ⟨List.cons_ne_nil _ _, ?_⟩
  rw [List.all_cons, List.all_cons, Bool.and_eq_true, Bool.and_eq_true]
  refine ⟨?_, ?_, ?_⟩
  · rcases Token.isSigil_cases sigiled with rfl | rfl | rfl <;> decide
  · refine isSolid_of_isNameChar ?_
    simp only [isNameStart, Bool.or_eq_true] at starts
    rcases starts with alpha | underscore
    · simp [isNameChar, Char.isAlphanum, alpha]
    · simp [isNameChar, underscore]
  · exact all_mono (fun _ => isSolid_of_isNameChar) named

theorem isSolid_of_isTypeChar {c : Char} (h : isTypeChar c = true) : isSolid c = true := by
  simp only [isTypeChar, Bool.or_eq_true, beq_iff_eq] at h
  rcases h with named | rfl
  · exact isSolid_of_isNameChar named
  · decide

theorem all_isSolid_of_isPart {part : Text} (h : TypeConstraint.IsPart part) :
    part ≠ [] ∧ part.all isSolid = true :=
  ⟨h.ne_nil, all_mono (fun _ => isSolid_of_isTypeChar) h.all⟩

theorem all_isSolid_of_isName {name : Text} (h : TypeConstraint.IsName name) :
    name ≠ [] ∧ name.all isSolid = true := by
  induction h with
  | part isPart => exact all_isSolid_of_isPart isPart
  | join isPart _ ih =>
      have inPart := (all_isSolid_of_isPart isPart).2
      have colon : isSolid ':' = true := by decide
      exact ⟨by simp, by simp [-List.all_eq_true, inPart, ih.2, colon]⟩

theorem all_isSolid_of_derives {phrase : TypeConstraint.Phrase} {text : Text}
    (h : TypeConstraint.Derives phrase text) : text ≠ [] ∧ text.all isSolid = true := by
  have symbols : isSolid '[' = true ∧ isSolid ']' = true ∧ isSolid '|' = true ∧
      isSolid ',' = true := by decide
  induction h with
  | name isName => exact all_isSolid_of_isName isName
  | apply _ _ ihMember ihArguments =>
      exact ⟨by simp, by simp [-List.all_eq_true, ihMember.2, ihArguments.2, symbols]⟩
  | single _ ih => exact ih
  | alternative _ _ ih ihMember =>
      exact ⟨by simp, by simp [-List.all_eq_true, ih.2, ihMember.2, symbols]⟩
  | argument _ ih => exact ih
  | next _ _ ih ihConstraint =>
      exact ⟨by simp, by simp [-List.all_eq_true, ih.2, ihConstraint.2, symbols]⟩

/-- A token has some text and is solid throughout. -/
theorem all_isSolid_form {kind : Token.Kind} {literal : Text} (h : Token.Form kind literal) :
    literal ≠ [] ∧ literal.all isSolid = true := by
  cases h with
  | @symbol c kind symbol =>
      refine ⟨List.cons_ne_nil _ _, ?_⟩
      unfold Token.Kind.ofSymbol? at symbol
      split at symbol <;> cases symbol <;> decide
  | whereKeyword => decide
  | typeName isType => exact all_isSolid_of_derives isType.1
  | variableName isVariable => exact all_isSolid_variable isVariable

theorem isSolid_form {kind : Token.Kind} {literal : Text} (h : Token.Form kind literal) :
    IsSolid literal :=
  isSolid_of_all (all_isSolid_form h).1 (all_isSolid_form h).2

theorem IsValue.isSolid {value : Text} (h : IsValue value) : IsSolid value := by
  rcases h with number | quote | isVariable
  · exact isSolid_numeral (Number.read?_eq_some_iff.1 (Number.scan_eq_present_iff.1 number)).2.1
  · exact isSolid_quote (Quote.isQuote_of_scan quote)
  · exact isSolid_of_all (all_isSolid_variable isVariable).1 (all_isSolid_variable isVariable).2

/-- A value begins with a character that is neither blank nor begins a comment. -/
theorem IsValue.head {value : Text} (h : IsValue value) :
    ∃ c rest, value = c :: rest ∧ isBlank c = false ∧ c ≠ '#' := by
  obtain ⟨c, rest, rfl, solid⟩ := h.isSolid.head
  simp only [Grammar.isSolid, Bool.and_eq_true, Bool.not_eq_true'] at solid
  refine ⟨c, rest, rfl, solid.1, ?_⟩
  rintro rfl
  rcases h with number | quote | isVariable
  · have isNumeral := (Number.read?_eq_some_iff.1 (Number.scan_eq_present_iff.1 number)).2.1
    have first := List.all_eq_true.1 isNumeral.all '#' (by simp)
    exact absurd first (by decide)
  · rcases (Quote.isQuote_of_scan quote).head with mark | mark | operator
    · exact absurd (Option.some.inj mark) (by decide)
    · exact absurd (Option.some.inj mark) (by decide)
    · exact absurd (Option.some.inj operator) (by decide)
  · obtain ⟨sigil, first, more, same, sigiled, -⟩ := isVariable
    cases same
    exact absurd sigiled (by decide)

/-! ## Values before other text -/

theorem noNumber_of_head {c : Char} (digit : isDigit c = false)
    (noSign : c ≠ '+' ∧ c ≠ '-' ∧ c ≠ '.') (rest : Text) :
    Number.scan (c :: rest) = .absent (c :: rest) := by
  rw [Number.scan, Number.read?_eq_none digit noSign]
  rfl

/-- No number begins as a quote does. -/
theorem noNumber_of_quote {quote : Text} (h : Quote.IsQuote quote) (following : Text) :
    Number.scan (quote ++ following) = .absent (quote ++ following) := by
  cases h with
  | @mark mark inside marks _ =>
      apply noNumber_of_head <;> rcases marks with rfl | rfl <;> decide
  | @operator operator gap inside modifiers delimiter accepted _ _ _ _ _ =>
      obtain ⟨more, starts⟩ := Quote.spelling_of_accepted accepted
      rw [starts]
      exact noNumber_of_head (by decide) (by decide) _

/-- Modifier letters are letters. -/
theorem noModifier_of_noName {text : Text} (noName : Stops isNameChar text) :
    Stops Quote.isPatternModifier text := by
  intro c member
  cases modifier : Quote.isPatternModifier c with
  | false => rfl
  | true =>
      have noName := noName c member
      simp only [Quote.isPatternModifier, List.contains_iff_mem, List.mem_cons,
        List.not_mem_nil, or_false] at modifier
      rcases modifier with h | h | h | h | h | h | h | h | h | h | h <;> rw [h] at noName <;>
        revert noName <;> decide

/-- Neither a number nor a quote begins as a variable does. -/
theorem scans_of_isVariable {name : Text} (h : Token.IsVariable name) (following : Text) :
    Number.scan (name ++ following) = .absent (name ++ following) ∧
      Quote.scan (name ++ following) = .absent (name ++ following) := by
  obtain ⟨sigil, first, rest, rfl, sigiled, -, -⟩ := h
  refine ⟨?_, Quote.scan_of_isSigil sigiled _⟩
  apply noNumber_of_head <;> rcases Token.isSigil_cases sigiled with rfl | rfl | rfl <;> decide

/-- **A value is read again** before a text that does not go on with it. -/
theorem valueFits_of_isValue {value following : Text} (h : IsValue value)
    (noNumeral : Stops Number.isNumeralChar following) (noName : Stops isNameChar following) :
    ValueFits value following := by
  rcases h with number | quote | isVariable
  · have read := Number.scan_eq_present_iff.1 number
    have alone : Number.read? (value ++ []) = some (value, []) := by rwa [List.append_nil]
    exact .inl (Number.scan_eq_present_iff.2 (Number.read?_append_of_stops alone noNumeral))
  · have isQuote := Quote.isQuote_of_scan quote
    exact .inr (.inl ⟨noNumber_of_quote isQuote following,
      Quote.scan_append_of_isQuote isQuote fun _ _ => noModifier_of_noName noName⟩)
  · have reads := Token.readsAs_variableName isVariable noName
    obtain ⟨noNumber, noQuote⟩ := scans_of_isVariable isVariable following
    exact .inr (.inr ⟨noNumber, noQuote, reads⟩)

end MethodSignature.Grammar
