/-
# MethodSignature.Proofs.Json -- data is read back as it was written

What `Datum.toJson` writes, `Datum.ofJson?` reads back, whatever the data (`ofJson?_toJson`).

Each part of the reader is followed by text that it must leave alone.  Texts, arrays and objects
close themselves; a number goes on for as long as it can, so what follows has to end it
(`EndsNumber`).  The text written for a value has at least as many characters as the reader
takes fuel for it.
-/
import MethodSignature.Datum.Json
import MethodSignature.Proofs.Cut

namespace MethodSignature.Datum

set_option autoImplicit false

open Text

/-! ## Texts -/

theorem hexValue?_digitChar {digit : Nat} (h : digit < 16) :
    hexValue? (Nat.digitChar digit) = some digit := by
  have all : ∀ digit < 16, hexValue? (Nat.digitChar digit) = some digit := by decide
  exact all digit h

theorem codeUnit?_hex {n : Nat} (small : n < 0x10000) (rest : Text) :
    codeUnit? (hex 4 n ++ rest) = some (n, rest) := by
  have digit : ∀ n, hexValue? (Nat.digitChar (n % 16)) = some (n % 16) := fun n =>
    hexValue?_digitChar (Nat.mod_lt n (by decide))
  have value : ((n / 16 / 16 / 16 % 16 * 16 + n / 16 / 16 % 16) * 16 + n / 16 % 16) * 16 + n % 16 =
      n := by omega
  simp only [hex, List.nil_append, List.cons_append, codeUnit?, digit, Option.bind_eq_bind,
    Option.bind_some, Option.pure_def, value]

theorem ofLetter?_of_controlLetter? {c letter : Char} (h : controlLetter? c = some letter) :
    ofLetter? letter = some c ∧ letter ≠ 'u' := by
  unfold controlLetter? at h
  split at h
  case h_6 => cases h
  all_goals
    cases h
    exact ⟨rfl, by decide⟩

theorem readChar?_of_letter {c letter : Char} {rest : Text} (h : ofLetter? letter = some c)
    (notHex : letter ≠ 'u') : readChar? (backslash :: letter :: rest) = some (c, rest) := by
  rw [readChar?, h]
  · rfl
  · exact notHex

theorem readChar?_of_ne {c : Char} {rest : Text} (h : c ≠ backslash) (noControl : 0x20 ≤ c.toNat) :
    readChar? (c :: rest) = some (c, rest) := by
  rw [readChar?, if_neg (by omega)]
  · intro rest' same
    exact absurd same h
  · intro letter rest' same
    exact absurd same h

theorem readChar?_jsonChar (c : Char) (rest : Text) :
    readChar? (jsonChar c ++ rest) = some (c, rest) := by
  unfold jsonChar
  split
  · rename_i special
    rcases special with rfl | rfl
    · rfl
    · rfl
  · rename_i plain
    split
    · rename_i letter found
      obtain ⟨back, notHex⟩ := ofLetter?_of_controlLetter? found
      exact readChar?_of_letter back notHex
    · split
      · rename_i low
        show (codeUnit? (hex 4 c.toNat ++ rest)).bind _ = _
        rw [codeUnit?_hex (by omega)]
        show ofCodeUnit? c.toNat rest = _
        unfold ofCodeUnit?
        rw [if_pos (by omega), Char.ofNat_toNat]
      · rename_i high
        exact readChar?_of_ne (fun same => plain (.inr same)) (by omega)

/-- No character is written with the closing quote in front. -/
theorem jsonChar_head (c : Char) :
    ∃ first more, jsonChar c = first :: more ∧ first ≠ doubleQuote := by
  unfold jsonChar
  split
  · exact ⟨_, _, rfl, by decide⟩
  · rename_i plain
    split
    · exact ⟨_, _, rfl, by decide⟩
    · split
      · exact ⟨_, _, rfl, by decide⟩
      · exact ⟨_, _, rfl, fun same => plain (.inl same)⟩

theorem readText?_of_ne {fuel : Nat} {first : Char} {rest : Text} (h : first ≠ doubleQuote) :
    readText? (fuel + 1) (first :: rest) =
      (readChar? (first :: rest)).bind fun (c, rest) =>
        (readText? fuel rest).map fun (more, rest) => (c :: more, rest) := by
  rw [readText?]
  · cases readChar? (first :: rest) with
    | none => rfl
    | some found =>
        obtain ⟨c, rest⟩ := found
        show (readText? fuel rest).bind _ = (readText? fuel rest).map _
        rw [Option.map_eq_bind]
        rfl
  · rintro rest' ⟨⟩
    exact h rfl

/-- A text is read up to the quote that closes it. -/
theorem readText?_flatMap_jsonChar {fuel : Nat} (text rest : Text)
    (enough : (text.flatMap jsonChar).length < fuel) :
    readText? fuel (text.flatMap jsonChar ++ doubleQuote :: rest) = some (text, rest) := by
  induction text generalizing fuel with
  | nil =>
      obtain ⟨fuel, rfl⟩ := Nat.exists_eq_succ_of_ne_zero (Nat.ne_zero_of_lt enough)
      rfl
  | cons c text ih =>
      obtain ⟨fuel, rfl⟩ := Nat.exists_eq_succ_of_ne_zero (Nat.ne_zero_of_lt enough)
      obtain ⟨first, more, written, ne⟩ := jsonChar_head c
      have read := readChar?_jsonChar c (text.flatMap jsonChar ++ doubleQuote :: rest)
      rw [List.flatMap_cons, List.append_assoc]
      rw [List.flatMap_cons, List.length_append, written, List.length_cons] at enough
      rw [written, List.cons_append] at read ⊢
      rw [readText?_of_ne ne, read]
      show (readText? fuel _).map _ = _
      rw [ih (by omega)]
      rfl

/-! ## Numbers -/

/-- The text does not go on with a part of a number. -/
def EndsNumber (text : Text) : Prop :=
  Stops (fun c => c.isDigit || c == '.' || c == 'e' || c == 'E') text

theorem readDigits?_toDigits (n : Nat) {rest : Text} (stops : Stops Char.isDigit rest) :
    readDigits? (Nat.toDigits 10 n ++ rest) = some (Nat.toDigits 10 n, rest) := by
  have digits : (Nat.toDigits 10 n).all Char.isDigit = true := by
    rw [List.all_eq_true]
    intro c member
    exact Nat.isDigit_of_mem_toDigits (by decide) (by decide) member
  rw [readDigits?, cut_append_of_all digits stops]
  split
  · rename_i same
    exact absurd (congrArg Prod.fst same) Nat.toDigits_ne_nil
  · rfl

theorem ofDigits_toDigits (n : Nat) : Integer.ofDigits (Nat.toDigits 10 n) = n := by
  have step : (fun value (c : Char) => value * 10 + (c.toNat - 0x30)) =
      fun value c => 10 * value + (c.toNat - '0'.toNat) := by
    funext value c
    rw [Nat.mul_comm]
    rfl
  rw [Integer.ofDigits, step]
  exact Nat.ofDigitChars_ten_toDigits

/-- A number begins with a digit, unless it begins with a minus. -/
theorem toDigits_head (n : Nat) : ∃ digit more, Nat.toDigits 10 n = digit :: more ∧
    digit.isDigit = true := by
  obtain ⟨digit, more, digits⟩ := List.exists_cons_of_ne_nil (Nat.toDigits_ne_nil (n := n) (b := 10))
  refine ⟨digit, more, digits, ?_⟩
  exact Nat.isDigit_of_mem_toDigits (b := 10) (n := n) (by decide) (by decide)
    (digits ▸ List.mem_cons_self ..)

/-- No zero stands in front of further digits. -/
theorem toDigits_head_ne_zero {n : Nat} (positive : 0 < n) :
    (Nat.toDigits 10 n).head? ≠ some '0' := by
  have digit : ∀ n < 10, 0 < n → some (Nat.digitChar n) ≠ some '0' := by decide
  induction n using Nat.strongRecOn with
  | ind n ih =>
      by_cases small : n < 10
      · rw [Nat.toDigits_of_lt_base small]
        exact digit n small positive
      · obtain ⟨first, more, digits, -⟩ := toDigits_head (n / 10)
        have before := ih (n / 10) (by omega) (by omega)
        rw [digits] at before
        rw [Nat.toDigits_of_base_le (by decide) (by omega), digits, List.cons_append]
        exact before

theorem readWhole?_toDigits (n : Nat) {rest : Text} (stops : Stops Char.isDigit rest) :
    readWhole? (Nat.toDigits 10 n ++ rest) = some (Nat.toDigits 10 n, rest) := by
  rw [readWhole?, readDigits?_toDigits n stops]
  split
  · rename_i zeros
    have digits : Nat.toDigits 10 n = '0' :: _ :: _ := congrArg Prod.fst (Option.some.inj zeros)
    rcases Nat.eq_zero_or_pos n with rfl | positive
    · cases digits
    · exact absurd (by rw [digits]; rfl) (toDigits_head_ne_zero positive)
  · rfl

theorem readSign_of_isDigit {plus : Bool} {digit : Char} {rest : Text}
    (h : digit.isDigit = true) : readSign plus (digit :: rest) = (1, digit :: rest) := by
  rw [readSign]
  · rintro rest' ⟨⟩
    cases h
  · rintro rest' ⟨⟩
    cases h

theorem readSign_jsonInt (plus : Bool) (n : Int) (rest : Text) :
    ∃ sign, readSign plus (jsonInt n ++ rest) = (sign, Nat.toDigits 10 n.natAbs ++ rest) ∧
      sign * n.natAbs = n := by
  cases n with
  | ofNat n =>
      obtain ⟨digit, more, digits, isDigit⟩ := toDigits_head n
      refine ⟨1, ?_, Int.one_mul _⟩
      show readSign plus (Nat.toDigits 10 n ++ rest) = (1, Nat.toDigits 10 n ++ rest)
      rw [digits]
      exact readSign_of_isDigit isDigit
  | negSucc n => exact ⟨-1, rfl, by omega⟩

theorem readFraction?_of_stops {rest : Text} (h : Stops (· == '.') rest) :
    readFraction? rest = some (none, rest) := by
  rw [readFraction?]
  rintro rest' rfl
  cases (stops_cons ..).1 h

theorem EndsNumber.readExponent? {rest : Text} (h : EndsNumber rest) :
    readExponent? rest = some (none, rest) := by
  cases rest with
  | nil => rfl
  | cons mark rest =>
      have ends := (stops_cons ..).1 h
      simp only [Bool.or_eq_false_iff, beq_eq_false_iff_ne] at ends
      rw [Datum.readExponent?, if_neg]
      rintro (lower | upper)
      · exact ends.1.2 lower
      · exact ends.2 upper

theorem EndsNumber.stops_isDigit {rest : Text} (h : EndsNumber rest) : Stops Char.isDigit rest := by
  intro c member
  have ends := h c member
  simp only [Bool.or_eq_false_iff] at ends
  exact ends.1.1.1

theorem EndsNumber.stops_point {rest : Text} (h : EndsNumber rest) : Stops (· == '.') rest := by
  intro c member
  have ends := h c member
  simp only [Bool.or_eq_false_iff] at ends
  exact ends.1.1.2

theorem readNumber?_integer (n : Int) {rest : Text} (ends : EndsNumber rest) :
    readNumber? (jsonInt n ++ rest) = some (.integer n, rest) := by
  obtain ⟨sign, signed, value⟩ := readSign_jsonInt false n rest
  simp only [readNumber?, signed, readWhole?_toDigits _ ends.stops_isDigit, Option.bind_eq_bind,
    Option.bind_some, readFraction?_of_stops ends.stops_point, ends.readExponent?, number,
    ofDigits_toDigits, value, Option.pure_def]

theorem readNumber?_decimal (mantissa exponent : Int) {rest : Text} (ends : EndsNumber rest) :
    readNumber? (jsonInt mantissa ++ 'e' :: (jsonInt exponent ++ rest)) =
      some (.decimal mantissa exponent, rest) := by
  obtain ⟨sign, signed, value⟩ := readSign_jsonInt false mantissa ('e' :: (jsonInt exponent ++ rest))
  obtain ⟨sign', signed', value'⟩ := readSign_jsonInt true exponent rest
  have stops : Stops Char.isDigit ('e' :: (jsonInt exponent ++ rest)) := (stops_cons ..).2 rfl
  have noPoint : Stops (· == '.') ('e' :: (jsonInt exponent ++ rest)) := (stops_cons ..).2 rfl
  have found : readExponent? ('e' :: (jsonInt exponent ++ rest)) = some (some exponent, rest) := by
    rw [readExponent?, if_pos (.inl rfl), signed']
    simp only [readDigits?_toDigits _ ends.stops_isDigit, Option.map_some, ofDigits_toDigits, value']
  simp only [readNumber?, signed, readWhole?_toDigits _ stops, Option.bind_eq_bind,
    Option.bind_some, readFraction?_of_stops noPoint, found, number, Option.getD_none,
    Option.getD_some, List.append_nil, List.length_nil, ofDigits_toDigits, value, Option.pure_def,
    Int.natCast_zero, Int.sub_zero]

/-! ## Values -/

theorem skipBlanks_of_not {first : Char} {rest : Text} (h : isJsonBlank first = false) :
    skipBlanks (first :: rest) = first :: rest :=
  List.dropWhile_cons_of_neg (by rw [h]; exact Bool.false_ne_true)

theorem isJsonBlank_of_isDigit {c : Char} (h : c.isDigit = true) : isJsonBlank c = false := by
  simp only [isJsonBlank, Bool.or_eq_false_iff, beq_eq_false_iff_ne]
  refine ⟨⟨⟨?_, ?_⟩, ?_⟩, ?_⟩
  all_goals
    rintro rfl
    cases h

theorem jsonInt_head (n : Int) :
    ∃ first more, jsonInt n = first :: more ∧ (first.isDigit = true ∨ first = '-') := by
  cases n with
  | ofNat n =>
      obtain ⟨digit, more, digits, isDigit⟩ := toDigits_head n
      exact ⟨digit, more, digits, .inl isDigit⟩
  | negSucc n => exact ⟨'-', _, rfl, .inr rfl⟩

/-- Where a number begins, a number is read. -/
theorem read?_of_number {fuel : Nat} {first : Char} {rest : Text}
    (h : first.isDigit = true ∨ first = '-') :
    read? (fuel + 1) (first :: rest) = readNumber? (first :: rest) := by
  have notBlank : isJsonBlank first = false := by
    rcases h with isDigit | rfl
    · exact isJsonBlank_of_isDigit isDigit
    · rfl
  rw [read?, skipBlanks_of_not notBlank]
  split
  case h_7 => rfl
  -- Everything else that can be read begins in another way.
  all_goals
    rename_i same
    cases same
    rcases h with isDigit | isMinus
    · cases isDigit
    · cases isMinus

/-- Every value is written with a character in front that is neither blank nor closes an
array. -/
theorem toJson_head (datum : Datum) :
    ∃ first more, datum.toJson = first :: more ∧ isJsonBlank first = false ∧ first ≠ ']' := by
  have ofNumber : ∀ first : Char, first.isDigit = true ∨ first = '-' →
      isJsonBlank first = false ∧ first ≠ ']' := by
    rintro first (isDigit | rfl)
    · refine ⟨isJsonBlank_of_isDigit isDigit, ?_⟩
      rintro rfl
      cases isDigit
    · exact ⟨rfl, by decide⟩
  cases datum with
  | null => exact ⟨_, _, rfl, rfl, by decide⟩
  | bool value => cases value <;> exact ⟨_, _, rfl, rfl, by decide⟩
  | integer n =>
      obtain ⟨first, more, written, begins⟩ := jsonInt_head n
      exact ⟨first, more, by rw [toJson, written], ofNumber first begins⟩
  | decimal mantissa exponent =>
      obtain ⟨first, more, written, begins⟩ := jsonInt_head mantissa
      exact ⟨first, _, by rw [toJson, written]; rfl, ofNumber first begins⟩
  | string text => exact ⟨_, _, rfl, rfl, by decide⟩
  | array items =>
      cases items with
      | nil => exact ⟨_, _, rfl, rfl, by decide⟩
      | cons item items => exact ⟨'[', _, by rw [toJson, List.cons_append], rfl, by decide⟩
  | object fields =>
      cases fields with
      | nil => exact ⟨_, _, rfl, rfl, by decide⟩
      | cons field fields =>
          exact ⟨'{', _, by rw [toJson, List.cons_append, List.cons_append], rfl, by decide⟩

theorem read?_of_item (fuel : Nat) {first : Char} (rest : Text)
    (notBlank : isJsonBlank first = false) (more : first ≠ ']') :
    read? (fuel + 1) ('[' :: first :: rest) =
      (read? fuel (first :: rest)).bind fun (item, rest) =>
        (readItems? fuel rest).bind fun (items, rest) => some (.array (item :: items), rest) := by
  rw [read?, skipBlanks_of_not rfl]
  simp only [skipBlanks_of_not notBlank]
  split
  · rename_i same
    cases same
    exact absurd rfl more
  · rfl

theorem read?_of_field {fuel : Nat} {rest : Text} :
    read? (fuel + 1) ('{' :: doubleQuote :: rest) =
      (readField? fuel (doubleQuote :: rest)).bind fun (field, rest) =>
        (readFields? fuel rest).bind fun (fields, rest) =>
          some (.object (field :: fields), rest) := by
  rw [read?, skipBlanks_of_not rfl]
  rfl

theorem endsNumber_jsonItems (items : List Datum) (rest : Text) :
    EndsNumber (jsonItems items ++ rest) := by
  cases items <;> exact (stops_cons ..).2 rfl

theorem endsNumber_jsonFields (fields : List (String × Datum)) (rest : Text) :
    EndsNumber (jsonFields fields ++ rest) := by
  cases fields with
  | nil => exact (stops_cons ..).2 rfl
  | cons field fields => exact (stops_cons ..).2 rfl

theorem readText?_jsonText (text rest : Text) :
    ∃ body, jsonText text ++ rest = doubleQuote :: body ∧
      readText? body.length body = some (text, rest) := by
  refine ⟨text.flatMap jsonChar ++ doubleQuote :: rest, by simp [jsonText], ?_⟩
  refine readText?_flatMap_jsonChar text rest ?_
  rw [List.length_append, List.length_cons]
  omega

mutual

/-- **A value is read back**, and what follows it is left. -/
theorem read?_toJson (datum : Datum) (fuel : Nat) {rest : Text}
    (enough : datum.toJson.length ≤ fuel) (ends : EndsNumber rest) :
    read? fuel (datum.toJson ++ rest) = some (datum, rest) := by
  obtain ⟨fuel, rfl⟩ : ∃ less, fuel = less + 1 := by
    obtain ⟨first, more, written, -⟩ := toJson_head datum
    rw [written, List.length_cons] at enough
    exact ⟨fuel - 1, by omega⟩
  cases datum with
  | null => rfl
  | bool value => cases value <;> rfl
  | integer n =>
      obtain ⟨first, more, written, begins⟩ := jsonInt_head n
      have read := readNumber?_integer n ends
      rw [toJson, written, List.cons_append, read?_of_number begins]
      rwa [written, List.cons_append] at read
  | decimal mantissa exponent =>
      obtain ⟨first, more, written, begins⟩ := jsonInt_head mantissa
      have read := readNumber?_decimal mantissa exponent ends
      rw [toJson, List.append_assoc, List.cons_append, written, List.cons_append,
        read?_of_number begins]
      rwa [written, List.cons_append] at read
  | string text =>
      obtain ⟨body, quoted, readBody⟩ := readText?_jsonText text rest
      rw [toJson, quoted, read?, skipBlanks_of_not rfl]
      show (readText? body.length body).map _ = _
      rw [readBody]
      rfl
  | array items =>
      cases items with
      | nil => rfl
      | cons item items =>
          obtain ⟨first, more, written, notBlank, notEnd⟩ := toJson_head item
          simp only [toJson, List.length_append, List.length_cons] at enough
          have readItem := read?_toJson item fuel (by omega) (endsNumber_jsonItems items rest)
          have readItems := readItems?_jsonItems items fuel (by omega) rest
          have begins := read?_of_item fuel (more ++ (jsonItems items ++ rest)) notBlank notEnd
          rw [← List.cons_append, ← written, readItem] at begins
          rw [toJson, List.cons_append, List.cons_append, List.append_assoc, begins]
          show (readItems? fuel _).bind _ = _
          rw [readItems]
          rfl
  | object fields =>
      cases fields with
      | nil => rfl
      | cons field fields =>
          obtain ⟨key, value⟩ := field
          simp only [toJson, List.length_append, List.length_cons] at enough
          have readField := readField?_jsonField key value fuel (by omega)
            (endsNumber_jsonFields fields rest)
          have readFields := readFields?_jsonFields fields fuel (by omega) rest
          obtain ⟨body, quoted, -⟩ :=
            readText?_jsonText key.toList (':' :: (value.toJson ++ (jsonFields fields ++ rest)))
          rw [quoted] at readField
          rw [toJson, List.append_assoc, List.cons_append, List.cons_append, List.append_assoc,
            List.cons_append, quoted, read?_of_field, readField]
          show (readFields? fuel _).bind _ = _
          rw [readFields]
          rfl
termination_by fuel

theorem readItems?_jsonItems (items : List Datum) (fuel : Nat)
    (enough : (jsonItems items).length ≤ fuel) (rest : Text) :
    readItems? fuel (jsonItems items ++ rest) = some (items, rest) := by
  cases items with
  | nil =>
      obtain ⟨fuel, rfl⟩ := Nat.exists_eq_add_of_le' enough
      rfl
  | cons item items =>
      simp only [jsonItems, List.length_append, List.length_cons] at enough
      obtain ⟨fuel, rfl⟩ : ∃ less, fuel = less + 1 := ⟨fuel - 1, by omega⟩
      have readItem := read?_toJson item fuel (by omega) (endsNumber_jsonItems items rest)
      have readItems := readItems?_jsonItems items fuel (by omega) rest
      rw [jsonItems, List.cons_append, List.cons_append, List.append_assoc, readItems?,
        skipBlanks_of_not rfl]
      show (read? fuel _).bind _ = _
      rw [readItem]
      show (readItems? fuel _).bind _ = _
      rw [readItems]
      rfl
termination_by fuel

theorem readField?_jsonField (key : String) (value : Datum) (fuel : Nat) {rest : Text}
    (enough : value.toJson.length < fuel) (ends : EndsNumber rest) :
    readField? fuel (jsonText key.toList ++ ':' :: (value.toJson ++ rest)) =
      some ((key, value), rest) := by
  obtain ⟨fuel, rfl⟩ : ∃ less, fuel = less + 1 := ⟨fuel - 1, by omega⟩
  obtain ⟨body, quoted, readKey⟩ := readText?_jsonText key.toList (':' :: (value.toJson ++ rest))
  have readValue := read?_toJson value fuel (by omega) ends
  rw [quoted, readField?, skipBlanks_of_not rfl]
  show (readText? body.length body).bind _ = _
  rw [readKey]
  show (read? fuel _).bind _ = _
  rw [readValue]
  show some ((String.ofList key.toList, value), rest) = _
  rw [String.ofList_toList]
termination_by fuel

theorem readFields?_jsonFields (fields : List (String × Datum)) (fuel : Nat)
    (enough : (jsonFields fields).length ≤ fuel) (rest : Text) :
    readFields? fuel (jsonFields fields ++ rest) = some (fields, rest) := by
  cases fields with
  | nil =>
      obtain ⟨fuel, rfl⟩ := Nat.exists_eq_add_of_le' enough
      rfl
  | cons field fields =>
      obtain ⟨key, value⟩ := field
      simp only [jsonFields, List.length_append, List.length_cons] at enough
      obtain ⟨fuel, rfl⟩ : ∃ less, fuel = less + 1 := ⟨fuel - 1, by omega⟩
      have readField := readField?_jsonField key value fuel (by omega)
        (endsNumber_jsonFields fields rest)
      have readFields := readFields?_jsonFields fields fuel (by omega) rest
      rw [jsonFields, List.append_assoc, List.cons_append, List.cons_append, List.append_assoc,
        List.cons_append, readFields?, skipBlanks_of_not rfl]
      show (readField? fuel _).bind _ = _
      rw [readField]
      show (readFields? fuel _).bind _ = _
      rw [readFields]
      rfl
termination_by fuel

end

/-- **What is written is read back**, whatever the data. -/
theorem ofJson?_toJson (datum : Datum) : ofJson? datum.toJson = some datum := by
  have ends : EndsNumber [] := stops_nil _
  have read := read?_toJson datum (datum.toJson.length + 1) (Nat.le_succ _) ends
  rw [List.append_nil] at read
  rw [ofJson?, read]
  rfl

end MethodSignature.Datum
