/-
# MethodSignature.Proofs.Lexer -- reading with one token ahead

The grammar never looks further than one token, so a lexer stands at a cursor in one
of two ways: nothing has been looked at, or the next token waits (`Lexer.At`).  Each
step of reading is then exact: it succeeds as it does just where the next token allows
it (`peek_eq_ok_iff`, `accept_eq_some_iff`, `accept_eq_none_iff`, `expect_eq_ok_iff`).

`Lexer.Faces` knows the place only up to the inline blanks in front of it; that is enough
to say what is read next.
-/
import MethodSignature.Proofs.Token
import MethodSignature.Reading

namespace MethodSignature

set_option autoImplicit false

open Text

variable {α β : Type}

theorem Reading.bind_eq_ok_iff {reading : Reading α} {next : α → Reading β} {lexer after : Lexer}
    {value : β} :
    (reading >>= next) lexer = .ok value after ↔
      ∃ first between, reading lexer = .ok first between ∧ next first between = .ok value after := by
  show EStateM.bind reading next lexer = .ok value after ↔ _
  unfold EStateM.bind
  cases reading lexer with
  | ok first between =>
      constructor
      · intro h
        exact ⟨first, between, rfl, h⟩
      · rintro ⟨first', between', same, h⟩
        cases same
        exact h
  | error failure between => simp

theorem Reading.bind_ok {reading : Reading α} {next : α → Reading β} {lexer between after : Lexer}
    {first : α} {value : β} (h : reading lexer = .ok first between)
    (h' : next first between = .ok value after) : (reading >>= next) lexer = .ok value after :=
  bind_eq_ok_iff.2 ⟨first, between, h, h'⟩

theorem Reading.pure_eq_ok_iff {lexer after : Lexer} {value found : α} :
    (pure found : Reading α) lexer = .ok value after ↔ found = value ∧ lexer = after := by
  show EStateM.Result.ok found lexer = .ok value after ↔ _
  simp

/-- What gives something has succeeded. -/
theorem eq_ok_of_toOption {ε : Type} {outcome : Except ε α} {found : α}
    (h : outcome.toOption = some found) : outcome = .ok found := by
  cases outcome with
  | error failure => cases h
  | ok found' =>
      cases h
      rfl

/-- The next token at a cursor, and the cursor behind it. -/
structure Cursor.Shows (cursor : Cursor) (token : Token) (next : Cursor) : Prop where
  scanned : Token.scan cursor.rest = ⟨token.written, next.rest, .ok (token.kind, token.literal)⟩
  offset : token.offset = cursor.offset
  before : next.before = cursor.before ++ token.written

/-- The lexer stands at a cursor, the token there looked at or not. -/
inductive Lexer.At : Lexer → Cursor → Prop
  | fresh (cursor : Cursor) : At ⟨[], cursor⟩ cursor
  | looked {cursor next : Cursor} {token : Token} : cursor.Shows token next →
      At ⟨[token], next⟩ cursor

theorem Cursor.Shows.unique {cursor next next' : Cursor} {token token' : Token}
    (h : cursor.Shows token next) (h' : cursor.Shows token' next') :
    token = token' ∧ next = next' := by
  obtain ⟨scanned, offset, before⟩ := h
  obtain ⟨scanned', offset', before'⟩ := h'
  rw [scanned] at scanned'
  simp only [Scan.mk.injEq, Except.ok.injEq, Prod.mk.injEq] at scanned'
  obtain ⟨written, rest, kind, literal⟩ := scanned'
  constructor
  · cases token
    cases token'
    simp_all
  · cases next
    cases next'
    simp_all

theorem Cursor.Shows.whole {cursor next : Cursor} {token : Token} (h : cursor.Shows token next) :
    cursor.rest = token.written ++ next.rest := by
  have covers := Token.covers_scan cursor.rest
  rw [h.scanned] at covers
  exact covers.symm

theorem Lexer.At.remaining {lexer : Lexer} {cursor : Cursor} (h : lexer.At cursor) :
    lexer.remaining = cursor.rest := by
  cases h with
  | fresh => rfl
  | looked shows => simp [Lexer.remaining, shows.whole]

section Steps

variable {lexer after : Lexer} {cursor : Cursor} {token : Token} {kind : Token.Kind}

theorem buffer_eq_ok_iff {pending : List Token} :
    Lexer.buffer ⟨pending, cursor⟩ = .ok token after ↔
      ∃ next, cursor.Shows token next ∧ after = ⟨pending ++ [token], next⟩ := by
  constructor
  · intro h
    simp only [Lexer.buffer] at h
    split at h
    · rename_i kind literal result
      simp only [EStateM.Result.ok.injEq] at h
      obtain ⟨rfl, rfl⟩ := h
      refine ⟨_, ⟨?_, rfl, rfl⟩, rfl⟩
      simp only [Cursor.advance, ← result]
    · cases h
  · rintro ⟨⟨before, rest⟩, ⟨scanned, offset, written⟩, rfl⟩
    obtain ⟨kind, literal, taken, start⟩ := token
    simp only at scanned offset written
    subst offset written
    simp [Lexer.buffer, scanned, Cursor.advance]

/-- Looking at the next token succeeds exactly where there is one. -/
theorem peek_eq_ok_iff (stands : lexer.At cursor) :
    Lexer.peek 0 lexer = .ok token after ↔
      ∃ next, cursor.Shows token next ∧ after = ⟨[token], next⟩ := by
  cases stands with
  | fresh =>
      show Lexer.buffer ⟨[], cursor⟩ = .ok token after ↔ _
      exact buffer_eq_ok_iff
  | @looked _ next shown shows =>
      show EStateM.Result.ok shown ⟨[shown], next⟩ = .ok token after ↔ _
      rw [EStateM.Result.ok.injEq]
      constructor
      · rintro ⟨rfl, rfl⟩
        exact ⟨next, shows, rfl⟩
      · rintro ⟨next', shows', rfl⟩
        obtain ⟨rfl, rfl⟩ := shows.unique shows'
        exact ⟨rfl, rfl⟩

theorem sees_eq_ok_iff (stands : lexer.At cursor) {seen : Bool} :
    Reading.sees kind lexer = .ok seen after ↔
      ∃ token next, cursor.Shows token next ∧ seen = decide (token.kind = kind) ∧
        after = ⟨[token], next⟩ := by
  simp only [Reading.sees, Reading.bind_eq_ok_iff, peek_eq_ok_iff stands, Reading.pure_eq_ok_iff]
  constructor
  · rintro ⟨token, between, ⟨next, shows, rfl⟩, rfl, rfl⟩
    exact ⟨token, next, shows, rfl, rfl⟩
  · rintro ⟨token, next, shows, rfl, rfl⟩
    exact ⟨token, _, ⟨next, shows, rfl⟩, rfl, rfl⟩

theorem take_eq_ok_iff (stands : lexer.At cursor) :
    Lexer.take lexer = .ok token after ↔
      ∃ next, cursor.Shows token next ∧ token.kind ≠ .endOfInput ∧ after = ⟨[], next⟩ := by
  rw [Lexer.take, Reading.bind_eq_ok_iff]
  constructor
  · rintro ⟨shown, between, peeked, taken⟩
    obtain ⟨next, shows, rfl⟩ := (peek_eq_ok_iff stands).1 peeked
    split at taken
    · cases taken
    · rename_i more
      cases taken
      exact ⟨next, shows, more, rfl⟩
  · rintro ⟨next, shows, more, rfl⟩
    refine ⟨token, _, (peek_eq_ok_iff stands).2 ⟨next, shows, rfl⟩, ?_⟩
    rw [if_neg more]
    rfl

theorem accept_eq_some_iff (stands : lexer.At cursor) :
    Reading.accept kind lexer = .ok (some token) after ↔
      ∃ next, cursor.Shows token next ∧ token.kind = kind ∧ kind ≠ .endOfInput ∧
        after = ⟨[], next⟩ := by
  rw [Reading.accept, Reading.bind_eq_ok_iff]
  constructor
  · rintro ⟨seen, between, looked, rest⟩
    obtain ⟨shown, next, shows, rfl, rfl⟩ := (sees_eq_ok_iff stands).1 looked
    split at rest
    · rename_i same
      obtain ⟨taken, between, took, answered⟩ := Reading.bind_eq_ok_iff.1 rest
      obtain ⟨same', rfl⟩ := Reading.pure_eq_ok_iff.1 answered
      cases same'
      obtain ⟨next', shows', more, rfl⟩ := (take_eq_ok_iff (.looked shows)).1 took
      obtain ⟨rfl, rfl⟩ := shows.unique shows'
      have kinds : shown.kind = kind := of_decide_eq_true same
      exact ⟨next, shows, kinds, kinds ▸ more, rfl⟩
    · obtain ⟨same, -⟩ := Reading.pure_eq_ok_iff.1 rest
      cases same
  · rintro ⟨next, shows, rfl, more, rfl⟩
    refine ⟨true, _, (sees_eq_ok_iff stands).2 ⟨token, next, shows, by simp, rfl⟩, ?_⟩
    rw [if_pos rfl, Reading.bind_eq_ok_iff]
    exact ⟨token, _, (take_eq_ok_iff (.looked shows)).2 ⟨next, shows, more, rfl⟩, rfl⟩

theorem accept_eq_none_iff (stands : lexer.At cursor) :
    Reading.accept kind lexer = .ok none after ↔
      ∃ token next, cursor.Shows token next ∧ token.kind ≠ kind ∧ after = ⟨[token], next⟩ := by
  rw [Reading.accept, Reading.bind_eq_ok_iff]
  constructor
  · rintro ⟨seen, between, looked, rest⟩
    obtain ⟨shown, next, shows, rfl, rfl⟩ := (sees_eq_ok_iff stands).1 looked
    split at rest
    · obtain ⟨taken, between, -, answered⟩ := Reading.bind_eq_ok_iff.1 rest
      cases (Reading.pure_eq_ok_iff.1 answered).1
    · rename_i different
      obtain ⟨-, rfl⟩ := Reading.pure_eq_ok_iff.1 rest
      exact ⟨shown, next, shows, by simpa using different, rfl⟩
  · rintro ⟨shown, next, shows, different, rfl⟩
    refine ⟨false, _, (sees_eq_ok_iff stands).2 ⟨shown, next, shows, by simp [different], rfl⟩, ?_⟩
    rfl

theorem fail_ne_ok {expected : Expectation} {value : α} :
    (Reading.fail expected : Reading α) lexer ≠ .ok value after := by
  intro h
  obtain ⟨shown, between, -, failed⟩ := Reading.bind_eq_ok_iff.1 h
  split at failed <;> cases failed

theorem expect_eq_ok_iff (stands : lexer.At cursor) :
    Reading.expect kind lexer = .ok token after ↔
      ∃ next, cursor.Shows token next ∧ token.kind = kind ∧ kind ≠ .endOfInput ∧
        after = ⟨[], next⟩ := by
  rw [Reading.expect, Reading.bind_eq_ok_iff]
  constructor
  · rintro ⟨seen, between, looked, rest⟩
    obtain ⟨shown, next, shows, rfl, rfl⟩ := (sees_eq_ok_iff stands).1 looked
    split at rest
    · rename_i same
      obtain ⟨next', shows', more, rfl⟩ := (take_eq_ok_iff (.looked shows)).1 rest
      obtain ⟨rfl, rfl⟩ := shows.unique shows'
      have kinds : shown.kind = kind := of_decide_eq_true same
      exact ⟨next, shows, kinds, kinds ▸ more, rfl⟩
    · exact absurd rest fail_ne_ok
  · rintro ⟨next, shows, rfl, more, rfl⟩
    refine ⟨true, _, (sees_eq_ok_iff stands).2 ⟨token, next, shows, by simp, rfl⟩, ?_⟩
    rw [if_pos rfl]
    exact (take_eq_ok_iff (.looked shows)).2 ⟨next, shows, more, rfl⟩

/-- A raw scan succeeds as its scanner does, and moves over what that took. -/
theorem scan_eq_ok_iff {scanner : Text → Scan α} {value : α} :
    Reading.scan scanner ⟨[], cursor⟩ = .ok value after ↔
      ∃ taken rest, scanner cursor.rest = ⟨taken, rest, .ok value⟩ ∧
        after = ⟨[], cursor.advance taken rest⟩ := by
  show Lexer.raw (Cursor.scan scanner) ⟨[], cursor⟩ = .ok value after ↔ _
  rw [Lexer.raw, if_pos (by rfl)]
  constructor
  · intro h
    split at h
    · rename_i found next scanned
      cases h
      obtain ⟨taken, rest, found, rfl⟩ := Cursor.scan_eq_ok_iff.1 scanned
      exact ⟨taken, rest, found, rfl⟩
    · cases h
  · rintro ⟨taken, rest, found, rfl⟩
    rw [Cursor.scan_eq_ok_iff.2 ⟨taken, rest, found, rfl⟩]

end Steps

/-! ## Places known up to inline blanks -/

/-- The lexer stands before a text, inline blanks in front of it aside. -/
def Lexer.Faces (lexer : Lexer) (text : Text) : Prop :=
  ∃ cursor, lexer.At cursor ∧ trim cursor.rest = trim text

section Faces

variable {lexer : Lexer} {text literal following : Text} {kind : Token.Kind}

theorem faces_of_rest {cursor : Cursor} (h : trim cursor.rest = trim text) :
    Lexer.Faces ⟨[], cursor⟩ text :=
  ⟨cursor, .fresh cursor, h⟩

theorem Lexer.Faces.congr (h : lexer.Faces text) {text' : Text} (same : trim text = trim text') :
    lexer.Faces text' := by
  obtain ⟨cursor, stands, place⟩ := h
  exact ⟨cursor, stands, place.trans same⟩

theorem Lexer.Faces.ink_le (h : lexer.Faces text) : ink text ≤ lexer.remaining.length := by
  obtain ⟨cursor, stands, place⟩ := h
  rw [stands.remaining, ← ink_trim text, ← place, ink_trim]
  exact ink_le_length cursor.rest

/-- The token the lexer faces, which is of the kind the text begins with. -/
theorem Lexer.Faces.shows (h : lexer.Faces text) (shown : Token.kind? text = some kind) :
    ∃ cursor token next, lexer.At cursor ∧ trim cursor.rest = trim text ∧
      cursor.Shows token next ∧ token.kind = kind := by
  obtain ⟨cursor, stands, place⟩ := h
  rw [← Token.kind?_trim, ← place, Token.kind?_trim, Token.kind?] at shown
  obtain ⟨taken, rest, result, scanned⟩ :
      ∃ taken rest result, Token.scan cursor.rest = ⟨taken, rest, result⟩ := ⟨_, _, _, rfl⟩
  rw [scanned] at shown
  cases result with
  | error fault => cases shown
  | ok found =>
      obtain ⟨kind', literal⟩ := found
      refine ⟨cursor, ⟨kind', literal, taken, cursor.offset⟩, cursor.advance taken rest, stands, place,
        ⟨scanned, rfl, rfl⟩, ?_⟩
      simpa [Except.toOption] using shown

theorem accept_of_kind?_ne (h : lexer.Faces text) {shown : Token.Kind}
    (isShown : Token.kind? text = some shown) (different : shown ≠ kind) :
    ∃ after, Reading.accept kind lexer = .ok none after ∧ after.Faces text := by
  obtain ⟨cursor, token, next, stands, place, shows, rfl⟩ := h.shows isShown
  exact ⟨_, (accept_eq_none_iff stands).2 ⟨token, next, shows, different, rfl⟩,
    cursor, .looked shows, place⟩

/-- The token at a place where a text is read as one. -/
theorem Lexer.Faces.shows_of_readsAs (h : lexer.Faces (literal ++ following))
    (form : Token.Form kind literal) (reads : Token.ReadsAs kind literal following) :
    ∃ cursor token next, lexer.At cursor ∧ cursor.Shows token next ∧ token.kind = kind ∧
      token.literal = literal ∧ next.rest = trim following := by
  obtain ⟨cursor, stands, place⟩ := h
  obtain ⟨c, rest, rfl, solid, -⟩ := form.head
  have stops : Stops isInlineBlank (c :: rest ++ following) := by simp [isInlineBlank, solid]
  rw [trim_of_stops stops] at place
  obtain ⟨blanks, inline, whole, -⟩ := exists_trim cursor.rest
  rw [place] at whole
  have scanned := Token.scan_of_readsAs inline form reads
  rw [← whole] at scanned
  exact ⟨cursor, ⟨kind, c :: rest, _, cursor.offset⟩, cursor.advance _ (trim following), stands,
    ⟨scanned, rfl, rfl⟩, rfl, rfl, rfl⟩

theorem accept_of_readsAs (h : lexer.Faces (literal ++ following))
    (form : Token.Form kind literal) (reads : Token.ReadsAs kind literal following) :
    ∃ token next, Reading.accept kind lexer = .ok (some token) ⟨[], next⟩ ∧
      token.literal = literal ∧ next.rest = trim following := by
  obtain ⟨cursor, token, next, stands, shows, isKind, isLiteral, rest⟩ := h.shows_of_readsAs form reads
  exact ⟨token, next, (accept_eq_some_iff stands).2 ⟨next, shows, isKind, form.kind_ne.2, rfl⟩,
    isLiteral, rest⟩

theorem expect_of_readsAs (h : lexer.Faces (literal ++ following))
    (form : Token.Form kind literal) (reads : Token.ReadsAs kind literal following) :
    ∃ token next, Reading.expect kind lexer = .ok token ⟨[], next⟩ ∧
      token.literal = literal ∧ next.rest = trim following := by
  obtain ⟨cursor, token, next, stands, shows, isKind, isLiteral, rest⟩ := h.shows_of_readsAs form reads
  exact ⟨token, next, (expect_eq_ok_iff stands).2 ⟨next, shows, isKind, form.kind_ne.2, rfl⟩,
    isLiteral, rest⟩

theorem accept_of_lineEnds? (h : lexer.Faces text) {taken rest : Text}
    (found : Layout.lineEnds? text = some (taken, rest)) :
    ∃ token next, Reading.accept .newline lexer = .ok (some token) ⟨[], next⟩ ∧
      next.rest = rest := by
  obtain ⟨cursor, stands, place⟩ := h
  obtain ⟨blanks, inline, whole, -⟩ := exists_trim text
  obtain ⟨blanks', inline', whole', -⟩ := exists_trim cursor.rest
  rw [whole, Layout.lineEnds?_append_blanks inline, ← place, Option.map_eq_some_iff] at found
  obtain ⟨⟨taken', rest'⟩, trimmed, same⟩ := found
  simp only [Prod.mk.injEq] at same
  obtain ⟨-, rfl⟩ := same
  have again : Layout.lineEnds? cursor.rest = some (blanks' ++ taken', rest') := by
    rw [whole', Layout.lineEnds?_append_blanks inline', trimmed]
    rfl
  have scanned : Token.scan cursor.rest =
      ⟨blanks' ++ taken', rest', .ok (.newline, blanks' ++ taken')⟩ := by
    simp only [Token.scan, again]
  exact ⟨⟨.newline, _, _, cursor.offset⟩, cursor.advance _ rest',
    (accept_eq_some_iff stands).2 ⟨_, ⟨scanned, rfl, rfl⟩, rfl, by decide, rfl⟩, rfl⟩

end Faces

theorem sees_of_kind? (kind : Token.Kind) {lexer : Lexer} {text : Text} (h : lexer.Faces text)
    {shown : Token.Kind} (isShown : Token.kind? text = some shown) :
    ∃ after, Reading.sees kind lexer = .ok (decide (shown = kind)) after ∧ after.Faces text := by
  obtain ⟨cursor, token, next, stands, place, shows, rfl⟩ := h.shows isShown
  exact ⟨_, (sees_eq_ok_iff stands).2 ⟨token, next, shows, rfl, rfl⟩, cursor, .looked shows, place⟩

end MethodSignature
