/-
# MethodSignature.Proofs.Number -- a number is the longest one there

The reader of numbers tries its forms in a fixed order and backs out of a base mark
or an exponent whose digits are missing.  `IsNumeral` says what a number is without
saying how it is read, and `read?_eq_some_iff` says that the reader takes the longest
number at the beginning of a text.

So whether a number is taken whole depends on the text behind it only through its
first character: `read?_append_of_stops` asks that it be none that numbers are made of.

`scan_munches` says the same of a cursor: it hands out the longest number there and
moves over just that, or it stays where it is and no number begins there.
-/
import MethodSignature.Cursor
import MethodSignature.Literal.Number
import MethodSignature.Proofs.Cut

namespace MethodSignature.Number

set_option autoImplicit false

open Text

/-! ## The forms of a number -/

/-- One or more characters of a class. -/
def IsRun (inClass : Char → Bool) (text : Text) : Prop := text ≠ [] ∧ text.all inClass = true

def IsSign (text : Text) : Prop := text = [] ∨ text = ['+'] ∨ text = ['-']

inductive IsMantissa : Text → Prop
  | whole {digits : Text} : IsRun isDigit digits → IsMantissa digits
  | point {digits fraction : Text} : IsRun isDigit digits → fraction.all isDigit = true →
      IsMantissa (digits ++ '.' :: fraction)
  | fraction {fraction : Text} : IsRun isDigit fraction → IsMantissa ('.' :: fraction)

def IsExponent (text : Text) : Prop :=
  ∃ mark sign digits, (mark = 'e' ∨ mark = 'E') ∧ IsSign sign ∧ IsRun isDigit digits ∧
    text = mark :: sign ++ digits

def hexMarks : List Char := ['x', 'X']

def hexDigits : List Char :=
  ['0', '1', '2', '3', '4', '5', '6', '7', '8', '9', 'a', 'b', 'c', 'd', 'e', 'f',
    'A', 'B', 'C', 'D', 'E', 'F']

def binaryMarks : List Char := ['b', 'B']

def binaryDigits : List Char := ['0', '1']

/-- A zero, a mark that names the base, and digits of that base. -/
def IsBased (marks digits : List Char) (text : Text) : Prop :=
  ∃ mark run, mark ∈ marks ∧ IsRun digits.contains run ∧ text = '0' :: mark :: run

inductive IsDecimal : Text → Prop
  | plain {mantissa : Text} : IsMantissa mantissa → IsDecimal mantissa
  | scientific {mantissa exponent : Text} : IsMantissa mantissa → IsExponent exponent →
      IsDecimal (mantissa ++ exponent)

def IsUnsigned (text : Text) : Prop :=
  (IsBased hexMarks hexDigits text ∨ IsBased binaryMarks binaryDigits text) ∨ IsDecimal text

def IsNumeral (text : Text) : Prop :=
  ∃ sign digits, IsSign sign ∧ IsUnsigned digits ∧ text = sign ++ digits

/-! ## Longest readings -/

/-- What a reader answers is the longest beginning of the text that is in the
language, or there is none. -/
def Munches (language : Text → Prop) (text : Text) : Option (Text × Text) → Prop
  | some (taken, rest) =>
      text = taken ++ rest ∧ language taken ∧
        ∀ other more, language other → other ++ more = text → other.length ≤ taken.length
  | none => ∀ other more, language other → other ++ more ≠ text

theorem munches_unique {language : Text → Prop} {text taken rest : Text}
    {found : Option (Text × Text)} (munches : Munches language text found)
    (longest : Munches language text (some (taken, rest))) : found = some (taken, rest) := by
  obtain ⟨whole, member, most⟩ := longest
  match found, munches with
  | none, nothing => exact absurd whole.symm (nothing taken rest member)
  | some (taken', rest'), ⟨whole', member', most'⟩ =>
      have upper := most taken' rest' member' whole'.symm
      have lower := most' taken rest member whole.symm
      have same := List.append_inj (whole'.symm.trans whole) (Nat.le_antisymm upper lower)
      rw [same.1, same.2]

/-- Two runs in front of one text that both end there are the same run. -/
theorem run_unique {inClass : Char → Bool} {run run' rest rest' : Text}
    (all : run.all inClass = true) (stops : Stops inClass rest)
    (all' : run'.all inClass = true) (stops' : Stops inClass rest')
    (same : run ++ rest = run' ++ rest') : run = run' ∧ rest = rest' := by
  have first := cut_append_of_all all stops
  have second := cut_append_of_all all' stops'
  rw [same, second] at first
  exact ⟨(congrArg Prod.fst first).symm, (congrArg Prod.snd first).symm⟩

theorem run_length_le {inClass : Char → Bool} {run taken rest more : Text}
    (all : run.all inClass = true) (stops : Stops inClass rest)
    (same : run ++ more = taken ++ rest) : run.length ≤ taken.length := by
  rcases List.append_eq_append_iff.1 same with ⟨inside, rfl, -⟩ | ⟨beyond, rfl, rfl⟩
  · simp
  · cases beyond with
    | nil => simp
    | cons c beyond =>
        simp only [List.cons_append, stops_cons] at stops
        simp [stops] at all

/-- No run begins a text that begins outside of its class. -/
theorem IsRun.append_ne {inClass : Char → Bool} {run rest : Text} (isRun : IsRun inClass run)
    (stops : Stops inClass rest) (more : Text) : run ++ more ≠ rest := by
  intro same
  have shorter : run.length ≤ [].length := run_length_le isRun.2 stops same
  exact isRun.1 (List.eq_nil_of_length_eq_zero (Nat.le_zero.1 shorter))

theorem munches_digits? (inClass : Char → Bool) (text : Text) :
    Munches (IsRun inClass) text (digits? inClass text) := by
  obtain ⟨taken, rest, found⟩ : ∃ taken rest, cut inClass text = (taken, rest) := ⟨_, _, rfl⟩
  obtain ⟨rfl, all, stops⟩ := cut_eq_iff.1 found
  rw [digits?, found]
  cases taken with
  | nil =>
      intro other more isRun
      exact isRun.append_ne stops more
  | cons c taken =>
      refine ⟨rfl, ⟨List.cons_ne_nil c taken, all⟩, ?_⟩
      rintro other more ⟨-, all'⟩ same
      exact run_length_le all' stops same

/-- A fixed beginning in front of a longest reading. -/
theorem Munches.map {language language' : Text → Prop} {text : Text} (lead : Text)
    {found : Option (Text × Text)} (munches : Munches language text found)
    (member : ∀ taken, language taken → language' (lead ++ taken))
    (split : ∀ other more, language' other → other ++ more = lead ++ text →
      ∃ inner, language inner ∧ other = lead ++ inner) :
    Munches language' (lead ++ text)
      (found.map fun (taken, rest) => (lead ++ taken, rest)) := by
  match found, munches with
  | none, nothing =>
      intro other more isMember same
      obtain ⟨inner, isInner, rfl⟩ := split other more isMember same
      rw [List.append_assoc] at same
      exact nothing inner more isInner (List.append_cancel_left same)
  | some (taken, rest), ⟨whole, isMember, most⟩ =>
      refine ⟨by simp [whole], member taken isMember, ?_⟩
      intro other more isOther same
      obtain ⟨inner, isInner, rfl⟩ := split other more isOther same
      rw [List.append_assoc] at same
      have := most inner more isInner (List.append_cancel_left same)
      simp only [List.length_append]
      omega

theorem munches_based? (marks digits : List Char) (text : Text) :
    Munches (IsBased marks digits) text (based? marks.contains digits.contains text) := by
  unfold based?
  split
  · rename_i mark rest
    split
    · rename_i marked
      refine (munches_digits? digits.contains rest).map ['0', mark] ?_ ?_
      · intro taken run
        exact ⟨mark, taken, List.contains_iff_mem.1 marked, run, rfl⟩
      · rintro other more ⟨mark', digits, -, run, rfl⟩ same
        have : mark' = mark := by
          simp only [List.cons_append, List.cons.injEq] at same
          exact same.2.1
        exact ⟨digits, run, by simp [this]⟩
    · rename_i unmarked
      rintro other more ⟨mark', digits, marked, run, rfl⟩ same
      simp only [List.cons_append, List.cons.injEq] at same
      rw [same.2.1] at marked
      exact unmarked (List.contains_iff_mem.2 marked)
  · rename_i noZero
    rintro other more ⟨mark', digits, -, run, rfl⟩ same
    exact noZero mark' (digits ++ more) same.symm

/-! ## Decimals -/

theorem isDigit_point : isDigit '.' = false := by decide

theorem IsRun.head {inClass : Char → Bool} {text : Text} (run : IsRun inClass text) :
    ∃ c rest, text = c :: rest ∧ inClass c = true := by
  obtain ⟨nonempty, all⟩ := run
  cases text with
  | nil => exact absurd rfl nonempty
  | cons c rest => exact ⟨c, rest, rfl, by simpa using (List.all_eq_true.1 all) c (by simp)⟩

theorem IsRun.append_ne_point {digits : Text} (run : IsRun isDigit digits) (more rest : Text) :
    digits ++ more ≠ '.' :: rest := by
  obtain ⟨c, tail, rfl, digit⟩ := run.head
  intro same
  simp only [List.cons_append, List.cons.injEq] at same
  rw [same.1, isDigit_point] at digit
  cases digit

theorem munches_mantissa? (text : Text) : Munches IsMantissa text (mantissa? text) := by
  obtain ⟨whole, rest, found⟩ : ∃ whole rest, cut isDigit text = (whole, rest) := ⟨_, _, rfl⟩
  obtain ⟨rfl, all, stops⟩ := cut_eq_iff.1 found
  have stopsPoint : ∀ tail, Stops isDigit ('.' :: tail) := fun tail => by simp [isDigit_point]
  unfold mantissa?
  split
  · rename_i tail front
    obtain ⟨rfl, rfl⟩ := Prod.mk.inj (found.symm.trans front)
    refine (munches_digits? isDigit tail).map ['.'] ?_ ?_
    · intro taken run
      exact .fraction run
    · intro other more isMantissa same
      cases isMantissa with
      | whole run => exact absurd same (run.append_ne_point more tail)
      | point run _ =>
          rw [List.append_assoc] at same
          exact absurd same (run.append_ne_point _ tail)
      | fraction run => exact ⟨_, run, rfl⟩
  · rename_i rest' noPoint front
    obtain ⟨rfl, rfl⟩ := Prod.mk.inj (found.symm.trans front)
    intro other more isMantissa same
    cases isMantissa with
    | whole run => exact run.append_ne stops more same
    | point run _ =>
        rw [List.append_assoc] at same
        exact run.append_ne stops _ same
    | fraction run => exact noPoint _ same.symm
  · rename_i whole' tail nonempty front
    obtain ⟨rfl, rfl⟩ := Prod.mk.inj (found.symm.trans front)
    have run : IsRun isDigit whole := ⟨nonempty, all⟩
    obtain ⟨fraction', behind', cutTail⟩ : ∃ fraction behind, cut isDigit tail = (fraction, behind) :=
      ⟨_, _, rfl⟩
    obtain ⟨tailWhole, tailAll, tailStops⟩ := cut_eq_iff.1 cutTail
    rw [cutTail]
    refine ⟨by simp [tailWhole], .point run tailAll, ?_⟩
    intro other more isMantissa same
    cases isMantissa with
    | whole run' =>
        have := run_length_le run'.2 stops same
        simp only [List.length_append]
        omega
    | @point digits fraction run' all' =>
        rw [List.append_assoc, List.cons_append] at same
        obtain ⟨rfl, behind⟩ := run_unique run'.2 (stopsPoint _) all stops same
        simp only [List.cons.injEq, true_and] at behind
        have := run_length_le all' tailStops (behind.trans tailWhole)
        simp only [List.length_append, List.length_cons]
        omega
    | fraction run' => exact absurd same.symm (run.append_ne_point _ _)
  · rename_i whole' rest' nonempty noPoint front
    obtain ⟨rfl, rfl⟩ := Prod.mk.inj (found.symm.trans front)
    have run : IsRun isDigit whole := ⟨nonempty, all⟩
    refine ⟨rfl, .whole run, ?_⟩
    intro other more isMantissa same
    cases isMantissa with
    | whole run' => exact run_length_le run'.2 stops same
    | @point digits fraction run' all' =>
        rw [List.append_assoc, List.cons_append] at same
        obtain ⟨rfl, rfl⟩ := run_unique run'.2 (stopsPoint _) all stops same
        exact absurd rfl (noPoint _)
    | fraction run' => exact absurd same.symm (run.append_ne_point _ _)

theorem isDigit_sign {c : Char} (h : c = '+' ∨ c = '-') : isDigit c = false := by
  rcases h with rfl | rfl <;> decide

/-- The reader's sign is the only one a number behind it can have. -/
theorem sign_unique {sign' tail text more : Text} (isSign : IsSign sign')
    (unsigned : ∀ c rest, tail = c :: rest → c ≠ '+' ∧ c ≠ '-') (nonempty : tail ≠ [])
    (same : sign' ++ tail ++ more = text) :
    sign' = (sign text).1 ∧ tail ++ more = (sign text).2 := by
  cases tail with
  | nil => exact absurd rfl nonempty
  | cons c rest =>
      obtain ⟨notPlus, notMinus⟩ := unsigned c rest rfl
      subst same
      rcases isSign with rfl | rfl | rfl
      · have plain : sign (c :: (rest ++ more)) = ([], c :: (rest ++ more)) := by
          unfold sign
          split
          · rename_i first
            exact absurd (List.cons.inj first).1 notPlus
          · rename_i first
            exact absurd (List.cons.inj first).1 notMinus
          · rfl
        simp [plain]
      · simp [sign]
      · simp [sign]

theorem isSign_sign (text : Text) : IsSign (sign text).1 := by
  unfold sign IsSign
  split <;> simp

theorem munches_exponent? (text : Text) : Munches IsExponent text (exponent? text) := by
  cases text with
  | nil =>
      rintro other more ⟨mark, sign, digits, -, -, -, rfl⟩ same
      simp at same
  | cons mark rest =>
      simp only [exponent?]
      split
      · rename_i isMark
        have signed := sign_append rest
        suffices munches : Munches IsExponent (mark :: (sign rest).1 ++ (sign rest).2)
            ((digits? isDigit (sign rest).2).map fun (digits, behind) =>
              (mark :: (sign rest).1 ++ digits, behind)) by
          rwa [List.cons_append, signed] at munches
        refine (munches_digits? isDigit (sign rest).2).map (mark :: (sign rest).1) ?_ ?_
        · intro taken run
          exact ⟨mark, (sign rest).1, taken, isMark, isSign_sign rest, run, rfl⟩
        · rintro other more ⟨mark', sign', digits, -, isSign, run, rfl⟩ same
          rw [List.cons_append, List.cons_append, List.cons_append, signed, List.cons.injEq] at same
          obtain ⟨rfl, same⟩ := same
          obtain ⟨c, more', rfl, digit⟩ := run.head
          have unsigned : ∀ d rest, c :: more' = d :: rest → d ≠ '+' ∧ d ≠ '-' := by
            rintro d rest ⟨⟩
            constructor <;> rintro rfl <;> simp [isDigit_sign] at digit
          obtain ⟨rfl, -⟩ := sign_unique isSign unsigned (List.cons_ne_nil _ _) same
          exact ⟨_, run, rfl⟩
      · rename_i notMark
        rintro other more ⟨mark', sign', digits, isMark, -, -, rfl⟩ same
        simp only [List.cons_append, List.cons.injEq] at same
        rw [same.1] at isMark
        exact notMark isMark

theorem IsMantissa.all {mantissa : Text} (h : IsMantissa mantissa) :
    mantissa.all (fun c => isDigit c || c == '.') = true := by
  have within : ∀ c, isDigit c = true → (isDigit c || c == '.') = true := by
    intro c digit
    rw [digit, Bool.true_or]
  cases h with
  | whole run => exact all_mono within run.2
  | point run all =>
      rw [List.all_append, List.all_cons, all_mono within run.2, all_mono within all]
      simp
  | fraction run =>
      rw [List.all_cons, all_mono within run.2]
      simp

theorem IsExponent.stops {exponent : Text} (h : IsExponent exponent) (more : Text) :
    Stops (fun c => isDigit c || c == '.') (exponent ++ more) := by
  obtain ⟨mark, sign, digits, isMark, -, -, rfl⟩ := h
  rw [List.cons_append, List.cons_append, stops_cons]
  rcases isMark with rfl | rfl <;> decide

theorem munches_decimal? (text : Text) : Munches IsDecimal text (decimal? text) := by
  have munches := munches_mantissa? text
  unfold decimal?
  match read : mantissa? text, munches with
  | none, nothing =>
      intro other more isDecimal same
      cases isDecimal with
      | plain isMantissa => exact nothing other more isMantissa same
      | scientific isMantissa _ =>
          rw [List.append_assoc] at same
          exact nothing _ _ isMantissa same
  | some (mantissa, rest), ⟨whole, isMantissa, most⟩ =>
      -- the exponent of another reading cannot begin inside the longest mantissa
      have aligned : ∀ mantissa' exponent more, IsMantissa mantissa' → IsExponent exponent →
          mantissa' ++ (exponent ++ more) = text → mantissa' = mantissa ∧ exponent ++ more = rest := by
        intro mantissa' exponent more isMantissa' isExponent same
        have short := most _ _ isMantissa' same
        have long := run_length_le isMantissa.all (isExponent.stops more) (whole.symm.trans same.symm)
        exact List.append_inj (same.trans whole) (Nat.le_antisymm short long)
      have munches' := munches_exponent? rest
      simp only [Option.map_some]
      match read' : exponent? rest, munches' with
      | none, nothing =>
          refine ⟨whole, .plain isMantissa, ?_⟩
          intro other more isDecimal same
          cases isDecimal with
          | plain isMantissa' => exact most other more isMantissa' same
          | scientific isMantissa' isExponent =>
              rw [List.append_assoc] at same
              have := (aligned _ _ more isMantissa' isExponent same).2
              exact absurd this (nothing _ _ isExponent)
      | some (exponent, behind), ⟨whole', isExponent, most'⟩ =>
          refine ⟨by rw [whole, whole', List.append_assoc], .scientific isMantissa isExponent, ?_⟩
          intro other more isDecimal same
          cases isDecimal with
          | plain isMantissa' =>
              have := most other more isMantissa' same
              simp only [List.length_append]
              omega
          | scientific isMantissa' isExponent' =>
              rw [List.append_assoc] at same
              obtain ⟨rfl, behind'⟩ := aligned _ _ more isMantissa' isExponent' same
              have := most' _ _ isExponent' behind'
              simp only [List.length_append]
              omega

/-! ## Numbers -/

/-- Before a base mark, only the zero is a decimal. -/
theorem decimal_length_le {mark : Char} (marks : mark ∈ hexMarks ∨ mark ∈ binaryMarks)
    {other more rest : Text} (isDecimal : IsDecimal other)
    (same : other ++ more = ['0'] ++ mark :: rest) : other.length ≤ 1 := by
  simp only [hexMarks, binaryMarks, List.mem_cons, List.not_mem_nil, or_false] at marks
  have stops : Stops (fun c => isDigit c || c == '.') (mark :: rest) := by
    rw [stops_cons]
    rcases marks with (rfl | rfl) | (rfl | rfl) <;> decide
  cases isDecimal with
  | plain isMantissa => exact run_length_le isMantissa.all stops same
  | @scientific mantissa exponent isMantissa isExponent =>
      rw [List.append_assoc] at same
      have all : ['0'].all (fun c => isDigit c || c == '.') = true := by decide
      obtain ⟨-, behind⟩ := run_unique isMantissa.all (isExponent.stops more) all stops same
      obtain ⟨mark', sign, digits, isMark, -, -, rfl⟩ := isExponent
      simp only [List.cons_append, List.cons.injEq] at behind
      obtain ⟨rfl, -⟩ := behind
      rcases isMark with rfl | rfl <;> simp at marks

/-- A second reader is asked only where the first finds nothing, and where the first
finds something the second would not find more. -/
theorem Munches.or {first second : Text → Prop} {text : Text} {found found' : Option (Text × Text)}
    (munches : Munches first text found) (munches' : Munches second text found')
    (outranks : ∀ taken rest other more, first taken → taken ++ rest = text → second other →
      other ++ more = text → other.length ≤ taken.length) :
    Munches (fun text => first text ∨ second text) text (found.or found') := by
  match found, munches with
  | some (taken, rest), ⟨whole, member, most⟩ =>
      refine ⟨whole, .inl member, ?_⟩
      rintro other more (isFirst | isSecond) same
      · exact most other more isFirst same
      · exact outranks taken rest other more member whole.symm isSecond same
  | none, nothing =>
      match found', munches' with
      | some (taken, rest), ⟨whole, member, most⟩ =>
          refine ⟨whole, .inr member, ?_⟩
          rintro other more (isFirst | isSecond) same
          · exact absurd same (nothing other more isFirst)
          · exact most other more isSecond same
      | none, nothing' =>
          rintro other more (isFirst | isSecond) same
          · exact nothing other more isFirst same
          · exact nothing' other more isSecond same

theorem IsBased.mark {marks digits : List Char} {taken rest text : Text}
    (isBased : IsBased marks digits taken) (whole : taken ++ rest = text) :
    ∃ mark tail, mark ∈ marks ∧ 1 ≤ taken.length ∧ text = ['0'] ++ mark :: tail := by
  obtain ⟨mark, digits, marked, -, rfl⟩ := isBased
  exact ⟨mark, digits ++ rest, marked, by simp, whole.symm⟩

theorem contains_pair (first second : Char) :
    [first, second].contains = fun c => c == first || c == second := by
  funext c
  simp only [List.contains_cons, List.contains_nil, Bool.or_false]

theorem mem_hexDigits_of_range {c : Char} (first count : Nat)
    (listed : (List.range count).all (fun n => hexDigits.contains (Char.ofNat (first + n))) = true)
    (low : first ≤ c.toNat) (high : c.toNat < first + count) : c ∈ hexDigits := by
  rw [List.all_eq_true] at listed
  have member := listed (c.toNat - first) (List.mem_range.2 (by omega))
  rwa [Nat.add_sub_cancel' low, Char.ofNat_toNat, List.contains_iff_mem] at member

theorem mem_hexDigits_iff {c : Char} : c ∈ hexDigits ↔ isHexDigit c = true := by
  constructor
  · have all : hexDigits.all isHexDigit = true := by decide
    exact List.all_eq_true.1 all c
  · intro hex
    simp only [isHexDigit, Char.isDigit, Char.le_def, UInt32.le_iff_toNat_le, Bool.or_eq_true,
      Bool.and_eq_true, decide_eq_true_eq, ge_iff_le] at hex
    rcases hex with (⟨low, high⟩ | ⟨low, high⟩) | ⟨low, high⟩
    · exact mem_hexDigits_of_range 0x30 10 (by decide) low (Nat.lt_succ_of_le high)
    · exact mem_hexDigits_of_range 0x61 6 (by decide) low (Nat.lt_succ_of_le high)
    · exact mem_hexDigits_of_range 0x41 6 (by decide) low (Nat.lt_succ_of_le high)

theorem contains_hexDigits : hexDigits.contains = isHexDigit := by
  funext c
  rw [Bool.eq_iff_iff, List.contains_iff_mem, mem_hexDigits_iff]

theorem munches_unsigned? (text : Text) : Munches IsUnsigned text (unsigned? text) := by
  have ordered : unsigned? text = ((based? hexMarks.contains hexDigits.contains text).or
      (based? binaryMarks.contains binaryDigits.contains text)).or (decimal? text) := by
    rw [hexMarks, binaryMarks, binaryDigits, contains_pair, contains_pair, contains_pair,
      contains_hexDigits]
    simp only [unsigned?, Option.orElse_eq_orElse, Option.orElse_eq_or, Option.or_assoc]
    rfl
  rw [ordered]
  refine ((munches_based? hexMarks hexDigits text).or
    (munches_based? binaryMarks binaryDigits text) ?_).or (munches_decimal? text) ?_
  · intro taken rest other more isHex whole isBinary same
    obtain ⟨mark, tail, marked, -, rfl⟩ := isHex.mark whole
    obtain ⟨mark', tail', marked', -, whole'⟩ := isBinary.mark same
    simp only [List.cons_append, List.nil_append, List.cons.injEq, true_and] at whole'
    obtain ⟨rfl, -⟩ := whole'
    simp only [hexMarks, binaryMarks, List.mem_cons, List.not_mem_nil, or_false] at marked marked'
    rcases marked with rfl | rfl <;> simp at marked'
  · rintro taken rest other more (isHex | isBinary) whole isDecimal same
    · obtain ⟨mark, tail, marked, long, rfl⟩ := isHex.mark whole
      exact Nat.le_trans (decimal_length_le (.inl marked) isDecimal same) long
    · obtain ⟨mark, tail, marked, long, rfl⟩ := isBinary.mark whole
      exact Nat.le_trans (decimal_length_le (.inr marked) isDecimal same) long

/-- A character that numbers are made of. -/
def isNumeralChar (c : Char) : Bool :=
  isDigit c || isHexDigit c || ['.', 'x', 'X', '+', '-'].contains c

theorem IsUnsigned.head {digits : Text} (h : IsUnsigned digits) :
    ∃ c rest, digits = c :: rest ∧ (isDigit c || c == '.') = true := by
  have ofMantissa : ∀ {mantissa : Text}, IsMantissa mantissa → ∀ more,
      ∃ c rest, mantissa ++ more = c :: rest ∧ (isDigit c || c == '.') = true := by
    intro mantissa isMantissa more
    cases isMantissa with
    | whole run =>
        obtain ⟨c, rest, rfl, digit⟩ := run.head
        exact ⟨c, rest ++ more, rfl, by simp [digit]⟩
    | point run _ =>
        obtain ⟨c, rest, rfl, digit⟩ := run.head
        exact ⟨c, _, rfl, by simp [digit]⟩
    | fraction _ => exact ⟨'.', _, rfl, by simp⟩
  rcases h with (isHex | isBinary) | isDecimal
  · obtain ⟨mark, rest, -, -, rfl⟩ := isHex
    exact ⟨'0', _, rfl, by decide⟩
  · obtain ⟨mark, rest, -, -, rfl⟩ := isBinary
    exact ⟨'0', _, rfl, by decide⟩
  · cases isDecimal with
    | plain isMantissa => simpa using ofMantissa isMantissa []
    | scientific isMantissa _ => exact ofMantissa isMantissa _

theorem munches_read? (text : Text) : Munches IsNumeral text (read? text) := by
  have signed := sign_append text
  suffices munches : Munches IsNumeral ((sign text).1 ++ (sign text).2)
      ((unsigned? (sign text).2).map fun (digits, rest) => ((sign text).1 ++ digits, rest)) by
    rwa [signed] at munches
  refine (munches_unsigned? (sign text).2).map (sign text).1 ?_ ?_
  · intro taken isUnsigned
    exact ⟨_, _, isSign_sign text, isUnsigned, rfl⟩
  · rintro other more ⟨sign', digits, isSign, isUnsigned, rfl⟩ same
    rw [signed] at same
    obtain ⟨c, rest, rfl, first⟩ := isUnsigned.head
    have unsigned : ∀ d rest', c :: rest = d :: rest' → d ≠ '+' ∧ d ≠ '-' := by
      rintro d rest' ⟨⟩
      constructor <;> rintro rfl <;> revert first <;> decide
    obtain ⟨rfl, -⟩ := sign_unique isSign unsigned (List.cons_ne_nil _ _) same
    exact ⟨_, isUnsigned, rfl⟩

/-- **A number is the longest one there.** -/
theorem read?_eq_some_iff {text taken rest : Text} :
    read? text = some (taken, rest) ↔
      text = taken ++ rest ∧ IsNumeral taken ∧
        ∀ other more, IsNumeral other → other ++ more = text → other.length ≤ taken.length := by
  have munches := munches_read? text
  constructor
  · intro h
    rwa [h] at munches
  · intro longest
    exact munches_unique munches longest

theorem isNumeralChar_of_isDigit {c : Char} (h : isDigit c = true) : isNumeralChar c = true := by
  simp [isNumeralChar, h]

theorem IsSign.all {sign : Text} (h : IsSign sign) : sign.all isNumeralChar = true := by
  rcases h with rfl | rfl | rfl <;> decide

theorem IsBased.all {marks digits : List Char} (ofMarks : marks.all isNumeralChar = true)
    (ofDigits : digits.all isNumeralChar = true) {text : Text} (h : IsBased marks digits text) :
    text.all isNumeralChar = true := by
  rw [List.all_eq_true] at ofMarks ofDigits
  obtain ⟨mark, run, marked, ⟨-, all⟩, rfl⟩ := h
  have inside : ∀ c, digits.contains c = true → isNumeralChar c = true :=
    fun c member => ofDigits c (List.contains_iff_mem.1 member)
  rw [List.all_cons, List.all_cons, ofMarks mark marked, all_mono inside all]
  decide

theorem IsDecimal.all {text : Text} (h : IsDecimal text) : text.all isNumeralChar = true := by
  have ofMantissa : ∀ {mantissa : Text}, IsMantissa mantissa →
      mantissa.all isNumeralChar = true := by
    intro mantissa isMantissa
    refine all_mono ?_ isMantissa.all
    intro c either
    simp only [Bool.or_eq_true, beq_iff_eq] at either
    rcases either with digit | rfl
    · exact isNumeralChar_of_isDigit digit
    · decide
  cases h with
  | plain isMantissa => exact ofMantissa isMantissa
  | scientific isMantissa isExponent =>
      obtain ⟨mark, sign, digits, isMark, isSign, ⟨-, all⟩, rfl⟩ := isExponent
      rw [List.all_append, ofMantissa isMantissa, List.all_append, List.all_cons, isSign.all,
        all_mono (fun _ => isNumeralChar_of_isDigit) all]
      rcases isMark with rfl | rfl <;> decide

theorem IsNumeral.all {text : Text} (h : IsNumeral text) : text.all isNumeralChar = true := by
  obtain ⟨sign, digits, isSign, isUnsigned, rfl⟩ := h
  rw [List.all_append, isSign.all, Bool.true_and]
  rcases isUnsigned with (hex | binary) | decimal
  · exact hex.all (by decide) (by decide)
  · exact binary.all (by decide) (by decide)
  · exact decimal.all

/-- A number that is read before some text is read before any text that goes on with it no
further. -/
theorem read?_local {number rest following : Text}
    (h : read? (number ++ rest) = some (number, rest))
    (further : ∀ front, front.all isNumeralChar = true → front <+: following → front <+: rest) :
    read? (number ++ following) = some (number, following) := by
  obtain ⟨-, isNumeral, longest⟩ := read?_eq_some_iff.1 h
  refine read?_eq_some_iff.2 ⟨rfl, isNumeral, ?_⟩
  intro other more isOther same
  by_cases shorter : other.length ≤ number.length
  · exact shorter
  · -- a longer number would go on with the text behind as well
    obtain ⟨front, rfl⟩ : number <+: other :=
      List.prefix_of_prefix_length_le (List.prefix_append number following)
        ⟨more, same⟩ (by omega)
    rw [List.append_assoc, List.append_cancel_left_eq] at same
    have numeral := isOther.all
    rw [List.all_append, Bool.and_eq_true] at numeral
    obtain ⟨more', rfl⟩ := further front numeral.2 ⟨more, same⟩
    exact longest _ more' isOther (by rw [List.append_assoc])

/-- A number that is read before some text is read before any text that does not go
on with a character of numbers. -/
theorem read?_append_of_stops {number rest following : Text}
    (h : read? (number ++ rest) = some (number, rest)) (stops : Stops isNumeralChar following) :
    read? (number ++ following) = some (number, following) := by
  apply read?_local h
  rintro front numeral ⟨more, rfl⟩
  cases front with
  | nil => exact List.nil_prefix
  | cons c front =>
      simp only [List.cons_append, stops_cons] at stops
      simp [stops] at numeral

theorem scan_eq_present_iff {text number rest : Text} :
    scan text = .present number rest ↔ read? text = some (number, rest) := by
  unfold scan
  cases read? text with
  | none => simp [Scan.ofOption, Scan.absent, Scan.present]
  | some found =>
      obtain ⟨taken, behind⟩ := found
      simp only [Scan.ofOption, Scan.present, Scan.mk.injEq, Except.ok.injEq, Option.some.injEq,
        Prod.mk.injEq]
      exact ⟨fun h => ⟨h.1, h.2.1⟩, fun h => ⟨h.1, h.2, h.1⟩⟩

theorem IsNumeral.ne_nil {number : Text} (h : IsNumeral number) : number ≠ [] := by
  obtain ⟨sign, digits, -, isUnsigned, rfl⟩ := h
  obtain ⟨c, rest, rfl, -⟩ := isUnsigned.head
  exact List.append_ne_nil_of_right_ne_nil sign (List.cons_ne_nil c rest)

theorem read?_eq_none_iff {text : Text} :
    read? text = none ↔ ∀ front, front <+: text → front ≠ [] → ¬ IsNumeral front := by
  have munches := munches_read? text
  constructor
  · rintro h front ⟨rest, same⟩ - isNumeral
    rw [h] at munches
    exact munches front rest isNumeral same
  · intro nothing
    match read : read? text, munches with
    | none, _ => rfl
    | some (taken, rest), ⟨whole, isNumeral, _⟩ =>
        exact absurd isNumeral (nothing taken ⟨rest, whole.symm⟩ isNumeral.ne_nil)

/-- No number begins with a character that is neither a sign, a digit nor a point. -/
theorem read?_eq_none {c : Char} (digit : isDigit c = false) (noSign : c ≠ '+' ∧ c ≠ '-' ∧ c ≠ '.')
    (rest : Text) : read? (c :: rest) = none := by
  rw [read?_eq_none_iff]
  rintro front ⟨more, whole⟩ - ⟨sign, digits, isSign, isUnsigned, rfl⟩
  obtain ⟨d, tail, rfl, first⟩ := isUnsigned.head
  rcases isSign with rfl | rfl | rfl
  · simp only [List.nil_append, List.cons_append, List.cons.injEq] at whole
    obtain ⟨rfl, -⟩ := whole
    simp [digit, noSign] at first
  · simp [eq_comm, noSign] at whole
  · simp [eq_comm, noSign] at whole

/-! ## At a cursor -/

/-- Of the beginnings of `text` that are in the language, `taken` is the longest. -/
structure IsLongest (language : Text → Prop) (text taken : Text) : Prop where
  member : language taken
  begins : taken <+: text
  longest : ∀ other, language other → other <+: text → other.length ≤ taken.length

theorem read?_eq_some_iff_isLongest {text taken rest : Text} :
    read? text = some (taken, rest) ↔
      IsLongest IsNumeral text taken ∧ rest = text.drop taken.length := by
  rw [read?_eq_some_iff]
  constructor
  · rintro ⟨rfl, member, most⟩
    refine ⟨⟨member, List.prefix_append taken rest, ?_⟩, List.drop_left.symm⟩
    rintro other isOther ⟨more, same⟩
    exact most other more isOther same
  · rintro ⟨⟨member, begins, longest⟩, rfl⟩
    refine ⟨(List.prefix_iff_eq_append.1 begins).symm, member, ?_⟩
    intro other more isOther same
    exact longest other isOther ⟨more, same⟩

/-- A cursor hands out what the reader takes of the text ahead. -/
theorem scan_at (cursor : Cursor) :
    Cursor.scan scan cursor =
      match read? cursor.rest with
      | some (number, rest) => .ok (some number) (cursor.advance number rest)
      | none => .ok none cursor := by
  unfold Cursor.scan scan
  cases read? cursor.rest with
  | none => simp [Scan.ofOption, Scan.absent, Cursor.advance]
  | some found => simp [Scan.ofOption, Scan.present]

/-- **At a cursor a number is the longest one there.**  Just that number is taken, no
number leaves the cursor where it is, and nothing fails. -/
theorem scan_munches (cursor : Cursor) :
    (∀ number after, Cursor.scan scan cursor = .ok (some number) after ↔
        IsLongest IsNumeral cursor.rest number ∧
          after = cursor.advance number (cursor.rest.drop number.length)) ∧
      (∀ after, Cursor.scan scan cursor = .ok none after ↔
        (∀ front, front <+: cursor.rest → front ≠ [] → ¬ IsNumeral front) ∧ after = cursor) ∧
      ∀ failure after, Cursor.scan scan cursor ≠ .error failure after := by
  rw [scan_at, ← read?_eq_none_iff]
  cases read : read? cursor.rest with
  | none =>
      refine ⟨fun number after => ?_, fun after => ?_, fun failure after => by simp⟩
      · -- the longest number would have been read
        have unread : ¬ IsLongest IsNumeral cursor.rest number := by
          intro longest
          simp [read?_eq_some_iff_isLongest.2 ⟨longest, rfl⟩] at read
        simp [unread]
      · simp [eq_comm]
  | some found =>
      obtain ⟨taken, rest⟩ := found
      obtain ⟨isLongest, rfl⟩ := read?_eq_some_iff_isLongest.1 read
      refine ⟨fun number after => ?_, fun after => by simp, fun failure after => by simp⟩
      simp only [EStateM.Result.ok.injEq, Option.some.injEq]
      constructor
      · rintro ⟨rfl, rfl⟩
        exact ⟨isLongest, rfl⟩
      · rintro ⟨longest, rfl⟩
        have again := read?_eq_some_iff_isLongest.2 ⟨longest, rfl⟩
        rw [read, Option.some.injEq, Prod.mk.injEq] at again
        rw [again.1]
        exact ⟨rfl, rfl⟩

/-- The zero of a base mark without digits is a number, binary digits end where another digit
stands, and a sign with a point is no number. -/
theorem scan_munches_fallback :
    IsLongest IsNumeral ['-', '0', 'x', 'g'] ['-', '0'] ∧
      IsLongest IsNumeral ['0', 'b', '1', '0', '2'] ['0', 'b', '1', '0'] ∧
      ∀ front, front <+: ['-', '.', 'e', '5'] → front ≠ [] → ¬ IsNumeral front := by
  have zero := (scan_munches ⟨['='], ['-', '0', 'x', 'g']⟩).1 ['-', '0'] ⟨['=', '-', '0'], ['x', 'g']⟩
  have binary := (scan_munches ⟨[], ['0', 'b', '1', '0', '2']⟩).1 ['0', 'b', '1', '0']
    ⟨['0', 'b', '1', '0'], ['2']⟩
  have none := (scan_munches ⟨[], ['-', '.', 'e', '5']⟩).2.1 ⟨[], ['-', '.', 'e', '5']⟩
  exact ⟨(zero.1 rfl).1, (binary.1 rfl).1, (none.1 rfl).1⟩

end MethodSignature.Number
