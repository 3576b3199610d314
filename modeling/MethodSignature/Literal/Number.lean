/-
# MethodSignature.Literal.Number -- numeric literals

A number is an optional sign and then a hexadecimal (`0x1F`), binary (`0b101`) or
decimal literal (`12`, `1.5`, `.5`, `1.`, `1e-3`).  Its text is kept as written and
never evaluated.  Where hexadecimal or binary digits are missing the zero alone is
a decimal, and where exponent digits are missing the number ends before the
exponent.
-/
import MethodSignature.Scan
import MethodSignature.Text.Digit

namespace MethodSignature.Number

set_option autoImplicit false

open Text

def isHexDigit (c : Char) : Bool :=
  c.isDigit || ('a' ≤ c && c ≤ 'f') || ('A' ≤ c && c ≤ 'F')

def isBinaryDigit (c : Char) : Bool := c == '0' || c == '1'

/-- An optional sign and the text behind it. -/
def sign : Text → Text × Text
  | '+' :: rest => (['+'], rest)
  | '-' :: rest => (['-'], rest)
  | text => ([], text)

/-- One or more characters of a class, as many as there are. -/
def digits? (inClass : Char → Bool) (text : Text) : Option (Text × Text) :=
  match cut inClass text with
  | ([], _) => none
  | found => some found

/-- A zero, a mark that names the base, and digits of that base. -/
def based? (isMark inBase : Char → Bool) : Text → Option (Text × Text)
  | '0' :: mark :: rest =>
      if isMark mark then
        (digits? inBase rest).map fun (digits, rest) => ('0' :: mark :: digits, rest)
      else none
  | _ => none

/-- Digits with an optional point, or a point and digits. -/
def mantissa? (text : Text) : Option (Text × Text) :=
  match cut isDigit text with
  | ([], '.' :: rest) =>
      (digits? isDigit rest).map fun (fraction, rest) => ('.' :: fraction, rest)
  | ([], _) => none
  | (whole, '.' :: rest) =>
      let (fraction, rest) := cut isDigit rest
      some (whole ++ '.' :: fraction, rest)
  | (whole, rest) => some (whole, rest)

/-- An exponent, if a whole one follows. -/
def exponent? : Text → Option (Text × Text)
  | [] => none
  | mark :: rest =>
      if mark = 'e' ∨ mark = 'E' then
        let (sign, rest) := sign rest
        (digits? isDigit rest).map fun (digits, rest) => (mark :: sign ++ digits, rest)
      else none

def decimal? (text : Text) : Option (Text × Text) :=
  (mantissa? text).map fun (mantissa, rest) =>
    match exponent? rest with
    | some (exponent, rest) => (mantissa ++ exponent, rest)
    | none => (mantissa, rest)

def unsigned? (text : Text) : Option (Text × Text) :=
  based? (fun c => c == 'x' || c == 'X') isHexDigit text
    <|> based? (fun c => c == 'b' || c == 'B') isBinaryDigit text
    <|> decimal? text

/-- The number at the beginning of `text`, and the rest. -/
def read? (text : Text) : Option (Text × Text) :=
  let (sign, body) := sign text
  (unsigned? body).map fun (digits, rest) => (sign ++ digits, rest)

def scan (text : Text) : Scan (Option Text) := .ofOption text (read? text)

/-! ## Nothing is lost -/

theorem sign_append (text : Text) : (sign text).1 ++ (sign text).2 = text := by
  unfold sign
  split <;> rfl

theorem digits?_append {inClass : Char → Bool} {text digits rest : Text}
    (h : digits? inClass text = some (digits, rest)) : digits ++ rest = text := by
  have whole := cut_append inClass text
  unfold digits? at h
  split at h
  · cases h
  · cases h
    exact whole

theorem based?_append {isMark inBase : Char → Bool} {text taken rest : Text}
    (h : based? isMark inBase text = some (taken, rest)) : taken ++ rest = text := by
  unfold based? at h
  split at h
  · split at h
    · simp only [Option.map_eq_some_iff, Prod.mk.injEq] at h
      obtain ⟨⟨digits, tail⟩, found, rfl, rfl⟩ := h
      simp [digits?_append found]
    · cases h
  · cases h

theorem mantissa?_append {text taken rest : Text} (h : mantissa? text = some (taken, rest)) :
    taken ++ rest = text := by
  have whole := cut_append isDigit text
  unfold mantissa? at h
  split at h
  · rename_i found
    rw [found] at whole
    simp only [Option.map_eq_some_iff, Prod.mk.injEq] at h
    obtain ⟨⟨fraction, tail⟩, read, rfl, rfl⟩ := h
    simp [← whole, digits?_append read]
  · cases h
  · rename_i found
    rw [found] at whole
    cases h
    simp [← whole]
  · rename_i found
    rw [found] at whole
    cases h
    exact whole

theorem exponent?_append {text taken rest : Text} (h : exponent? text = some (taken, rest)) :
    taken ++ rest = text := by
  unfold exponent? at h
  split at h
  · cases h
  · rename_i mark tail
    split at h
    · simp only [Option.map_eq_some_iff, Prod.mk.injEq] at h
      obtain ⟨⟨digits, behind⟩, read, rfl, rfl⟩ := h
      have signed := sign_append tail
      simp [digits?_append read, signed]
    · cases h

theorem decimal?_append {text taken rest : Text} (h : decimal? text = some (taken, rest)) :
    taken ++ rest = text := by
  simp only [decimal?, Option.map_eq_some_iff] at h
  obtain ⟨⟨mantissa, tail⟩, read, h⟩ := h
  have whole := mantissa?_append read
  simp only at h
  split at h
  · rename_i found
    cases h
    simp [exponent?_append found, whole]
  · cases h
    exact whole

theorem unsigned?_append {text taken rest : Text} (h : unsigned? text = some (taken, rest)) :
    taken ++ rest = text := by
  simp only [unsigned?, Option.orElse_eq_orElse, Option.orElse_eq_or, Option.or_eq_some_iff] at h
  rcases h with h | ⟨_, h | ⟨_, h⟩⟩
  · exact based?_append h
  · exact based?_append h
  · exact decimal?_append h

theorem read?_append {text taken rest : Text} (h : read? text = some (taken, rest)) :
    taken ++ rest = text := by
  simp only [read?, Option.map_eq_some_iff, Prod.mk.injEq] at h
  obtain ⟨⟨digits, tail⟩, read, rfl, rfl⟩ := h
  simp [unsigned?_append read, sign_append]

theorem covers_scan (text : Text) : (scan text).Covers text :=
  Scan.covers_ofOption fun _ _ => read?_append

end MethodSignature.Number
