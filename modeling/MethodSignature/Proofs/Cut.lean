/-
# MethodSignature.Proofs.Cut -- where a run of characters ends

Every scanner cuts its text behind runs of characters of a class.  `cut_eq_iff`
says what a cut is: the run is made of the class, and the rest stops it.

Inline blanks stand between tokens and carry no meaning there, so positions in a
text are compared with the blanks in front dropped (`trim`).  `ink` counts what
no dropping of inline blanks changes.
-/
import MethodSignature.Text.Blank
import MethodSignature.Text.Word

namespace MethodSignature.Text

set_option autoImplicit false

/-- The text does not go on with a character of the class. -/
def Stops (inClass : Char → Bool) (text : Text) : Prop := ∀ c ∈ text.head?, inClass c = false

@[simp] theorem stops_nil (inClass : Char → Bool) : Stops inClass [] := by
  simp [Stops]

@[simp] theorem stops_cons (inClass : Char → Bool) (c : Char) (text : Text) :
    Stops inClass (c :: text) ↔ inClass c = false := by
  simp [Stops]

instance (inClass : Char → Bool) (text : Text) : Decidable (Stops inClass text) :=
  match text with
  | [] => .isTrue (stops_nil inClass)
  | c :: text => decidable_of_iff (inClass c = false) (stops_cons inClass c text).symm

theorem all_mono {inClass inOther : Char → Bool}
    (within : ∀ c, inClass c = true → inOther c = true) {text : Text}
    (all : text.all inClass = true) : text.all inOther = true := by
  rw [List.all_eq_true] at all ⊢
  intro c member
  exact within c (all c member)

theorem cut_of_stops {inClass : Char → Bool} {text : Text} (stops : Stops inClass text) :
    cut inClass text = ([], text) := by
  cases text with
  | nil => rfl
  | cons c rest => simp [cut, (stops_cons ..).1 stops]

theorem stops_cut (inClass : Char → Bool) (text : Text) :
    Stops inClass (cut inClass text).2 := by
  intro c member
  simp only [cut] at member
  have := List.head?_dropWhile_not inClass text
  simp only [Option.mem_def] at member
  simpa [member] using this

/-- **What a cut is**: all of the run is of the class, and the rest stops it. -/
theorem cut_eq_iff {inClass : Char → Bool} {text taken rest : Text} :
    cut inClass text = (taken, rest) ↔
      text = taken ++ rest ∧ taken.all inClass = true ∧ Stops inClass rest := by
  constructor
  · intro h
    have whole := cut_append inClass text
    have stops := stops_cut inClass text
    rw [h] at whole stops
    have run : text.takeWhile inClass = taken := congrArg Prod.fst h
    refine ⟨whole.symm, ?_, stops⟩
    rw [← run]
    exact List.all_takeWhile
  · rintro ⟨rfl, all, stops⟩
    have inside : ∀ c ∈ taken, inClass c = true := List.all_eq_true.1 all
    have nothing := cut_of_stops stops
    simp only [cut, Prod.mk.injEq] at nothing ⊢
    rw [List.takeWhile_append_of_pos inside, List.dropWhile_append_of_pos inside]
    simp [nothing.1, nothing.2]

theorem cut_append_of_all {inClass : Char → Bool} {taken rest : Text}
    (all : taken.all inClass = true) (stops : Stops inClass rest) :
    cut inClass (taken ++ rest) = (taken, rest) :=
  cut_eq_iff.2 ⟨rfl, all, stops⟩

/-- A run in front goes on with what the class takes of the text behind. -/
theorem cut_append_of_run {inClass : Char → Bool} {run : Text} (all : run.all inClass = true)
    (text : Text) :
    cut inClass (run ++ text) = (run ++ (cut inClass text).1, (cut inClass text).2) := by
  have inside : ∀ c ∈ run, inClass c = true := List.all_eq_true.1 all
  simp only [cut]
  rw [List.takeWhile_append_of_pos inside, List.dropWhile_append_of_pos inside]

/-- More text behind leaves a cut as it is, unless the run reaches the end. -/
theorem cut_append_following (inClass : Char → Bool) (text following : Text) :
    cut inClass (text ++ following) =
      if (cut inClass text).2 = [] then
        (text ++ (cut inClass following).1, (cut inClass following).2)
      else ((cut inClass text).1, (cut inClass text).2 ++ following) := by
  obtain ⟨run, rest, found⟩ : ∃ run rest, cut inClass text = (run, rest) := ⟨_, _, rfl⟩
  obtain ⟨rfl, all, stops⟩ := cut_eq_iff.1 found
  rw [found]
  cases rest with
  | nil =>
      rw [List.append_nil, if_pos rfl]
      exact cut_append_of_run all following
  | cons c rest =>
      rw [if_neg (List.cons_ne_nil c rest), List.append_assoc]
      exact cut_append_of_all all (by simpa using stops)

/-- A cut that the last character of `text` stops falls inside `text`. -/
theorem cut_append_of_last (inClass : Char → Bool) {text : Text} {last : Char}
    (ends : text.getLast? = some last) (stops : inClass last = false) :
    ∃ taken rest, rest.getLast? = some last ∧
      ∀ following, cut inClass (text ++ following) = (taken, rest ++ following) := by
  obtain ⟨taken, rest, found⟩ : ∃ taken rest, cut inClass text = (taken, rest) := ⟨_, _, rfl⟩
  obtain ⟨rfl, all, stopped⟩ := cut_eq_iff.1 found
  cases rest with
  | nil =>
      rw [List.append_nil] at ends
      have := List.all_eq_true.1 all last (List.mem_of_getLast? ends)
      simp [stops] at this
  | cons c rest =>
      refine ⟨taken, c :: rest, ?_, fun following => ?_⟩
      · rw [List.getLast?_append, List.getLast?_cons] at ends
        rw [List.getLast?_cons]
        simpa using ends
      · rw [List.append_assoc]
        exact cut_append_of_all all (by simpa using stopped)

theorem stops_append {inClass : Char → Bool} {text more : Text} (h : Stops inClass text)
    (stops : text = [] → Stops inClass more) : Stops inClass (text ++ more) := by
  cases text with
  | nil => exact stops rfl
  | cons c rest => simpa using h

theorem isNameChar_of_isBlank {c : Char} (h : isBlank c = true) : isNameChar c = false := by
  cases named : isNameChar c with
  | false => rfl
  | true =>
      rw [isNameChar_iff] at named
      simp only [isBlank, inRanges, blankRanges, List.any_cons, List.any_nil, Bool.or_eq_true,
        Bool.and_eq_true, decide_eq_true_eq, Bool.or_false] at h
      omega

/-! ## Inline blanks in front -/

/-- Text made of inline blanks. -/
def IsInline (text : Text) : Prop := text.all isInlineBlank = true

/-- Text made of blanks of either kind. -/
def IsBlanks (text : Text) : Prop := text.all isBlank = true

theorem isBlank_of_isInlineBlank {c : Char} (h : isInlineBlank c = true) : isBlank c = true :=
  (isBlank_iff c).2 (.inl h)

theorem IsInline.isBlanks {text : Text} (h : IsInline text) : IsBlanks text :=
  all_mono (fun _ => isBlank_of_isInlineBlank) h

@[simp] theorem isInline_nil : IsInline [] := rfl

theorem IsBlanks.append {text more : Text} (h : IsBlanks text) (blank : IsBlanks more) :
    IsBlanks (text ++ more) := by
  unfold IsBlanks at h blank ⊢
  rw [List.all_append, h, blank]
  rfl

theorem IsInline.append {text more : Text} (h : IsInline text) (inline : IsInline more) :
    IsInline (text ++ more) := by
  unfold IsInline at h inline ⊢
  rw [List.all_append, h, inline]
  rfl

theorem cut_append_blanks {blanks : Text} (inline : IsInline blanks) (text : Text) :
    cut isInlineBlank (blanks ++ text) =
      (blanks ++ (cut isInlineBlank text).1, (cut isInlineBlank text).2) :=
  cut_append_of_run inline text

/-- The text behind the inline blanks in front. -/
def trim (text : Text) : Text := (cut isInlineBlank text).2

theorem exists_trim (text : Text) :
    ∃ blanks, IsInline blanks ∧ text = blanks ++ trim text ∧ Stops isInlineBlank (trim text) :=
  have found : cut isInlineBlank text = ((cut isInlineBlank text).1, trim text) := rfl
  have ⟨whole, all, stops⟩ := cut_eq_iff.1 found
  ⟨_, all, whole, stops⟩

theorem trim_of_stops {text : Text} (stops : Stops isInlineBlank text) : trim text = text := by
  rw [trim, cut_of_stops stops]

theorem trim_append {blanks : Text} (inline : IsInline blanks) (text : Text) :
    trim (blanks ++ text) = trim text := by
  rw [trim, cut_append_blanks inline]
  rfl

@[simp] theorem trim_trim (text : Text) : trim (trim text) = trim text :=
  trim_of_stops (stops_cut isInlineBlank text)

/-- Dropping inline blanks first makes no difference to dropping all blanks. -/
theorem cut_isBlank_trim {blanks body : Text} (blank : IsBlanks blanks)
    (stops : Stops isBlank body) : (cut isBlank (trim (blanks ++ body))).2 = body := by
  obtain ⟨front, inline, whole, -⟩ := exists_trim (blanks ++ body)
  have cutWhole : (cut isBlank (blanks ++ body)).2 = body := by
    rw [cut_append_of_all blank stops]
  rw [whole] at cutWhole
  have inside : ∀ c ∈ front, isBlank c = true := List.all_eq_true.1 inline.isBlanks
  simp only [cut] at cutWhole ⊢
  rwa [List.dropWhile_append_of_pos inside] at cutWhole

/-- How many characters are no inline blanks. -/
def ink (text : Text) : Nat := text.countP fun c => !isInlineBlank c

theorem ink_append (text more : Text) : ink (text ++ more) = ink text + ink more :=
  List.countP_append

theorem ink_le_length (text : Text) : ink text ≤ text.length := List.countP_le_length

theorem ink_of_isInline {blanks : Text} (inline : IsInline blanks) : ink blanks = 0 := by
  simp only [ink, List.countP_eq_zero, Bool.not_eq_true', Bool.not_eq_false]
  exact List.all_eq_true.1 inline

theorem ink_trim (text : Text) : ink (trim text) = ink text := by
  obtain ⟨blanks, inline, whole, -⟩ := exists_trim text
  rw [whole, ink_append, ink_of_isInline inline, trim_append inline, trim_trim, Nat.zero_add]

end MethodSignature.Text
