/-
# MethodSignature.Proofs.Lookahead -- a lexer reads the list of its tokens

Where a whole text is made of tokens, `Lexer.tokenize` lists them, the end of the input last.
A lexer over that text, looked ahead in and taken from in any order, reads this list: it is
where it is by the number of tokens taken, and by nothing else (`run_reads`).  Looking ahead
reads the token that many places further on, or the end of the input, which stands at all
places beyond the list; taking reads the next one, and refuses the end.  This is what
`Lexer.Reads` says of steps and their answers, without a lexer.

`Cursor.Yields` says which tokens a cursor gives, and `Lexer.Ahead` which tokens a lexer has
ahead of it, some of them waiting already.  The end of the input is read once: when it waits,
it is the last token there is.
-/
import MethodSignature.Proofs.Conservation

namespace MethodSignature

set_option autoImplicit false

open Text

/-! ## The tokens of a cursor -/

/-- The end of the input takes all that is left. -/
theorem Token.rest_of_endOfInput {text taken rest literal : Text}
    (h : scan text = ⟨taken, rest, .ok (.endOfInput, literal)⟩) : rest = [] := by
  have sound := scan_sound h
  unfold scan at h
  split at h
  · cases h
  · split at h
    · cases h
      rfl
    · rename_i notFinal
      rcases sound with ⟨⟨⟩, -⟩ | ⟨-, isFinal⟩ | ⟨form, -⟩
      · exact absurd isFinal notFinal
      · exact absurd rfl form.kind_ne.2

/-- Every token but the end of the input takes some text. -/
theorem Token.taken_ne_nil {text taken rest literal : Text} {kind : Kind}
    (h : scan text = ⟨taken, rest, .ok (kind, literal)⟩) (more : kind ≠ .endOfInput) :
    taken ≠ [] := by
  have covers : taken ++ rest = text := by
    have whole := covers_scan text
    rwa [h] at whole
  rcases scan_sound h with ⟨-, newline⟩ | ⟨ended, -⟩ | ⟨form, before, behind, -, -, whole, -⟩
  · obtain ⟨lineEnd, others, rfl, isLineEnd, -⟩ :=
      Layout.isLineEnds_iff.1 (Layout.isLineEnds_of_lineEnds? newline).1
    intro none
    exact isLineEnd.ne_nil (List.append_eq_nil_iff.1 none).1
  · exact absurd ended more
  · obtain ⟨c, body, rfl, -⟩ := form.head
    rw [← covers, List.append_cancel_right_eq] at whole
    rw [whole]
    simp

/-- The tokens a cursor gives, up to the end of the input. -/
inductive Cursor.Yields : Cursor → List Token → Prop
  | last {cursor next : Cursor} {token : Token} : cursor.Shows token next →
      token.kind = .endOfInput → Yields cursor [token]
  | more {cursor next : Cursor} {token : Token} {tokens : List Token} :
      cursor.Shows token next → token.kind ≠ .endOfInput → next.Yields tokens →
      Yields cursor (token :: tokens)

namespace Cursor.Yields

variable {cursor : Cursor} {tokens : List Token}

theorem length_pos (h : cursor.Yields tokens) : 0 < tokens.length := by
  cases h with
  | last => exact Nat.one_pos
  | more => exact Nat.succ_pos _

theorem text (h : cursor.Yields tokens) : tokens.flatMap Token.written = cursor.rest := by
  induction h with
  | @last cursor next token shows ended =>
      have none : next.rest = [] := Token.rest_of_endOfInput (ended ▸ shows.scanned)
      rw [shows.whole, none, List.flatMap_singleton, List.append_nil]
  | @more cursor next token tokens shows _ _ ih => rw [shows.whole, List.flatMap_cons, ih]

theorem getLast? (h : cursor.Yields tokens) :
    ∃ last, tokens.getLast? = some last ∧ last.kind = .endOfInput := by
  induction h with
  | last shows ended => exact ⟨_, rfl, ended⟩
  | more shows _ yields ih =>
      obtain ⟨last, isLast, ended⟩ := ih
      refine ⟨last, ?_, ended⟩
      rw [List.getLast?_cons, isLast]
      rfl

end Cursor.Yields

namespace Lexer

/-! ## Tokenizing -/

/-- What is listed in as many steps as there are characters left, and one more, is all that
the cursor gives. -/
theorem yields_of_tokensFrom {fuel : Nat} {cursor : Cursor} {tokens : List Token} {after : Lexer}
    (enough : cursor.rest.length < fuel) (h : tokensFrom fuel ⟨[], cursor⟩ = .ok tokens after) :
    cursor.Yields tokens := by
  induction fuel generalizing cursor tokens after with
  | zero => exact absurd enough (Nat.not_lt_zero _)
  | succ fuel ih =>
      obtain ⟨token, between, peeked, rest⟩ := Reading.bind_eq_ok_iff.1 h
      obtain ⟨next, shows, rfl⟩ := (peek_eq_ok_iff (.fresh cursor)).1 peeked
      by_cases ended : token.kind = .endOfInput
      · rw [if_pos ended] at rest
        obtain ⟨rfl, -⟩ := Reading.pure_eq_ok_iff.1 rest
        exact .last shows ended
      · rw [if_neg ended] at rest
        obtain ⟨token', between, taken, rest⟩ := Reading.bind_eq_ok_iff.1 rest
        obtain ⟨next', shows', -, rfl⟩ := (take_eq_ok_iff (.looked shows)).1 taken
        obtain ⟨rfl, rfl⟩ := shows.unique shows'
        obtain ⟨tokens, between, listed, answered⟩ := Reading.bind_eq_ok_iff.1 rest
        obtain ⟨rfl, -⟩ := Reading.pure_eq_ok_iff.1 answered
        have shorter : next.rest.length < fuel := by
          have some := List.length_pos_iff.2 (Token.taken_ne_nil shows.scanned ended)
          have whole := congrArg List.length shows.whole
          rw [List.length_append] at whole
          omega
        exact .more shows ended (ih shorter listed)

theorem yields_of_tokenize {source : Text} {tokens : List Token}
    (h : tokenize source = .ok tokens) : (Cursor.start source).Yields tokens := by
  unfold tokenize at h
  split at h
  · rename_i listed
    cases h
    exact yields_of_tokensFrom (Nat.lt_succ_self _) listed
  · cases h

/-! ## The tokens ahead -/

/-- The tokens ahead of a lexer: those that wait and those its cursor gives, or only those that
wait when the end of the input is the last of them. -/
inductive Ahead : Lexer → List Token → Prop
  | going {pending tokens : List Token} {cursor : Cursor} :
      (∀ token ∈ pending, token.kind ≠ .endOfInput) → cursor.Yields tokens →
      Ahead ⟨pending, cursor⟩ (pending ++ tokens)
  | ended {pending : List Token} {last : Token} {cursor : Cursor} :
      (∀ token ∈ pending, token.kind ≠ .endOfInput) → last.kind = .endOfInput →
      cursor.rest = [] → Ahead ⟨pending ++ [last], cursor⟩ (pending ++ [last])

section Ahead

variable {pending tokens : List Token} {token : Token} {cursor : Cursor} {lexer : Lexer}

theorem Ahead.length_pos (h : lexer.Ahead tokens) : 0 < tokens.length := by
  cases h with
  | going _ yields =>
      have pos := yields.length_pos
      rw [List.length_append]
      omega
  | ended => simp

theorem Ahead.remaining_eq (h : lexer.Ahead tokens) :
    lexer.remaining = tokens.flatMap Token.written := by
  cases h with
  | going _ yields => rw [remaining, List.flatMap_append, yields.text]
  | ended _ _ none => rw [remaining, none, List.append_nil]

/-- The tokens that wait are the first of those ahead. -/
theorem Ahead.exists_behind (h : lexer.Ahead tokens) : ∃ behind, tokens = lexer.pending ++ behind := by
  cases h with
  | going => exact ⟨_, rfl⟩
  | ended => exact ⟨[], (List.append_nil _).symm⟩

/-- Without the first token that waits, the others are ahead. -/
theorem Ahead.tail (h : Ahead ⟨token :: pending, cursor⟩ (token :: tokens))
    (more : token.kind ≠ .endOfInput) : Ahead ⟨pending, cursor⟩ tokens := by
  generalize front : (⟨token :: pending, cursor⟩ : Lexer) = lexer at h
  generalize whole : token :: tokens = ahead at h
  cases h with
  | @going pending' tokens' _ goes yields =>
      cases front
      cases whole
      exact .going (fun other member => goes other (List.mem_cons_of_mem _ member)) yields
  | @ended pending' last _ goes ended none =>
      cases pending' with
      | nil =>
          cases front
          exact absurd ended more
      | cons first waiting =>
          cases front
          cases whole
          exact .ended (fun other member => goes other (List.mem_cons_of_mem _ member)) ended none

/-- Reading one token more makes it wait behind the others. -/
theorem buffer_of_yields (goes : ∀ other ∈ pending, other.kind ≠ .endOfInput)
    (yields : cursor.Yields (token :: tokens)) :
    ∃ next, buffer ⟨pending, cursor⟩ = .ok token ⟨pending ++ [token], next⟩ ∧
      Ahead ⟨pending ++ [token], next⟩ (pending ++ token :: tokens) ∧
      (token.kind = .endOfInput → tokens = []) ∧
      (token.kind ≠ .endOfInput → next.Yields tokens) := by
  cases yields with
  | @last _ next _ shows ended =>
      have none : next.rest = [] := Token.rest_of_endOfInput (ended ▸ shows.scanned)
      exact ⟨next, buffer_eq_ok_iff.2 ⟨next, shows, rfl⟩, .ended goes ended none, fun _ => rfl,
        fun more => absurd ended more⟩
  | @more _ next _ _ shows more yields =>
      refine ⟨next, buffer_eq_ok_iff.2 ⟨next, shows, rfl⟩, ?_, fun ended => absurd ended more,
        fun _ => yields⟩
      rw [List.append_cons pending token tokens]
      exact .going (List.forall_mem_append.2 ⟨goes, List.forall_mem_singleton.2 more⟩) yields

/-- Reading on answers with the token so many places ahead, the last one standing for all
places beyond it. -/
theorem pull_of_yields {more : Nat} (goes : ∀ other ∈ pending, other.kind ≠ .endOfInput)
    (yields : cursor.Yields tokens) :
    ∃ token next, tokens[min more (tokens.length - 1)]? = some token ∧
      pull more ⟨pending, cursor⟩ = .ok token next ∧ next.Ahead (pending ++ tokens) := by
  induction more generalizing pending cursor tokens with
  | zero =>
      obtain ⟨token, tokens, rfl⟩ := List.exists_cons_of_length_pos yields.length_pos
      obtain ⟨next, read, ahead, -, -⟩ := buffer_of_yields goes yields
      exact ⟨token, _, by simp, read, ahead⟩
  | succ more ih =>
      obtain ⟨token, tokens, rfl⟩ := List.exists_cons_of_length_pos yields.length_pos
      obtain ⟨next, read, ahead, last, others⟩ := buffer_of_yields goes yields
      by_cases ended : token.kind = .endOfInput
      · -- The end of the input answers for all places beyond it.
        obtain rfl := last ended
        refine ⟨token, _, by simp, Reading.bind_ok read ?_, ahead⟩
        rw [if_pos ended]
        rfl
      · have goes' : ∀ other ∈ pending ++ [token], other.kind ≠ .endOfInput :=
          List.forall_mem_append.2 ⟨goes, List.forall_mem_singleton.2 ended⟩
        have yields' := others ended
        obtain ⟨found, after, place, pulled, ahead'⟩ := ih goes' yields'
        refine ⟨found, after, ?_, Reading.bind_ok read ?_, ?_⟩
        · have pos := yields'.length_pos
          have index : min (more + 1) ((token :: tokens).length - 1) =
              min more (tokens.length - 1) + 1 := by
            rw [List.length_cons]
            omega
          rw [index, List.getElem?_cons_succ]
          exact place
        · rw [if_neg ended]
          exact pulled
        · rwa [← List.append_cons] at ahead'

theorem peek_inside {places : Nat} (found : lexer.pending[places]? = some token) :
    peek places lexer = .ok token lexer := by
  refine Reading.bind_ok rfl ?_
  simp only [found]
  rfl

/-- Looking further than the waiting tokens reads on, unless the end of the input waits. -/
theorem peek_beyond {places : Nat} {next : Lexer}
    (goes : ∀ other ∈ pending, other.kind ≠ .endOfInput) (beyond : pending.length ≤ places)
    (pulled : pull (places - pending.length) ⟨pending, cursor⟩ = .ok token next) :
    peek places ⟨pending, cursor⟩ = .ok token next := by
  refine Reading.bind_ok rfl ?_
  simp only [List.getElem?_eq_none beyond]
  cases isLast : pending.getLast? with
  | none =>
      obtain rfl := List.getLast?_eq_none_iff.1 isLast
      exact pulled
  | some last =>
      have more := goes last (List.mem_of_getLast? isLast)
      simp only [if_neg more]
      exact pulled

/-- Behind the end of the input there is the end of the input again. -/
theorem peek_beyond_end {places : Nat} (ended : token.kind = .endOfInput)
    (beyond : pending.length < places) :
    peek places ⟨pending ++ [token], cursor⟩ = .ok token ⟨pending ++ [token], cursor⟩ := by
  have outside : (pending ++ [token]).length ≤ places := by
    rw [List.length_append, List.length_singleton]
    exact beyond
  refine Reading.bind_ok rfl ?_
  simp only [List.getElem?_eq_none outside, List.getLast?_concat, if_pos ended]
  rfl

/-- **Looking ahead** reads the list of the tokens ahead, and leaves them ahead. -/
theorem peek_of_ahead (h : lexer.Ahead tokens) (places : Nat) :
    ∃ token next, tokens[min places (tokens.length - 1)]? = some token ∧
      peek places lexer = .ok token next ∧ next.Ahead tokens := by
  by_cases inside : places < lexer.pending.length
  · obtain ⟨behind, rfl⟩ := h.exists_behind
    refine ⟨lexer.pending[places], lexer, ?_, ?_, h⟩
    · have index : min places ((lexer.pending ++ behind).length - 1) = places := by
        rw [List.length_append]
        omega
      rw [index, List.getElem?_append_left inside, List.getElem?_eq_getElem inside]
    · exact peek_inside (List.getElem?_eq_getElem inside)
  · have beyond := Nat.le_of_not_lt inside
    cases h with
    | @going pending tokens cursor goes yields =>
        obtain ⟨token, next, place, pulled, ahead⟩ := pull_of_yields goes yields
        refine ⟨token, next, ?_, peek_beyond goes beyond pulled, ahead⟩
        have pos := yields.length_pos
        have index : min places ((pending ++ tokens).length - 1) =
            pending.length + min (places - pending.length) (tokens.length - 1) := by
          rw [List.length_append]
          simp only at beyond
          omega
        rw [index, List.getElem?_append_right (Nat.le_add_right ..), Nat.add_sub_cancel_left]
        exact place
    | @ended pending last cursor goes ended none =>
        rw [List.length_append, List.length_singleton] at beyond
        refine ⟨last, _, ?_, peek_beyond_end ended beyond, .ended goes ended none⟩
        have index : min places ((pending ++ [last]).length - 1) = pending.length := by
          rw [List.length_append, List.length_singleton]
          omega
        rw [index, List.getElem?_concat_length]

/-- **Taking** hands out the first token ahead; the end of the input stays where it is. -/
theorem take_of_ahead (h : lexer.Ahead (token :: tokens)) :
    if token.kind = .endOfInput then
      ∃ next, take lexer = .error (.fault ⟨token.offset, .inputExhausted⟩) next ∧
        next.Ahead (token :: tokens)
    else ∃ next, take lexer = .ok token next ∧ next.Ahead tokens := by
  obtain ⟨first, next, place, peeked, ahead⟩ := peek_of_ahead h 0
  rw [Nat.zero_min, List.getElem?_cons_zero] at place
  cases place
  have taken : take lexer = (if token.kind = .endOfInput
      then throw (.fault ⟨token.offset, .inputExhausted⟩)
      else do
        modify fun lexer => { lexer with pending := lexer.pending.tail }
        return token : Reading Token) next := by
    show EStateM.bind (peek 0) _ lexer = _
    unfold EStateM.bind
    rw [peeked]
  split
  · rename_i ended
    rw [if_pos ended] at taken
    exact ⟨next, taken, ahead⟩
  · rename_i more
    rw [if_neg more] at taken
    obtain ⟨waiting, front⟩ := pending_of_peek peeked
    obtain ⟨pending, cursor⟩ := next
    cases front
    exact ⟨⟨waiting, cursor⟩, taken, ahead.tail more⟩

end Ahead

/-! ## Runs -/

/-- The step looks at tokens or takes one, or asks for the text that remains. -/
def Step.isTokenwise : Step → Bool
  | .raw _ => false
  | _ => true

/-- Steps are answered out of a list of tokens, of which so many have been taken. -/
inductive Reads (tokens : List Token) : Nat → List Step → List (Except Failure Answer) → Prop
  | done {count : Nat} : Reads tokens count [] []
  /-- A token ahead is found in the list, and the last one stands for all places beyond it. -/
  | token {count places : Nat} {token : Token} {steps : List Step}
      {answers : List (Except Failure Answer)} :
      tokens[min (count + places) (tokens.length - 1)]? = some token →
      Reads tokens count steps answers →
      Reads tokens count (.token places :: steps) (.ok (.token token) :: answers)
  | take {count : Nat} {token : Token} {steps : List Step}
      {answers : List (Except Failure Answer)} :
      tokens[count]? = some token → token.kind ≠ .endOfInput →
      Reads tokens (count + 1) steps answers →
      Reads tokens count (.take :: steps) (.ok (.token token) :: answers)
  /-- The end of the input cannot be taken, and nothing has changed after the attempt. -/
  | exhausted {count : Nat} {token : Token} {steps : List Step}
      {answers : List (Except Failure Answer)} :
      tokens[count]? = some token → token.kind = .endOfInput →
      Reads tokens count steps answers →
      Reads tokens count (.take :: steps)
        (.error (.fault ⟨token.offset, .inputExhausted⟩) :: answers)
  | remaining {count : Nat} {steps : List Step} {answers : List (Except Failure Answer)} :
      Reads tokens count steps answers →
      Reads tokens count (.remaining :: steps)
        (.ok (.plain (.text ((tokens.drop count).flatMap Token.written))) :: answers)

section Reads

variable {tokens : List Token} {count : Nat} {lexer : Lexer} {steps : List Step}
  {answers : List (Except Failure Answer)}

theorem Reads.unique {answers' : List (Except Failure Answer)} (h : Reads tokens count steps answers)
    (h' : Reads tokens count steps answers') : answers = answers' := by
  induction h generalizing answers' with
  | done =>
      cases h'
      rfl
  | token found _ ih =>
      cases h' with
      | token found' reads =>
          rw [found] at found'
          cases found'
          rw [ih reads]
  | take found more _ ih =>
      cases h' with
      | take found' _ reads =>
          rw [found] at found'
          cases found'
          rw [ih reads]
      | exhausted found' ended =>
          rw [found] at found'
          cases found'
          exact absurd ended more
  | exhausted found ended _ ih =>
      cases h' with
      | take found' more =>
          rw [found] at found'
          cases found'
          exact absurd ended more
      | exhausted found' _ reads =>
          rw [found] at found'
          cases found'
          rw [ih reads]
  | remaining _ ih =>
      cases h' with
      | remaining reads => rw [ih reads]

/-- The answers to the steps that take a token. -/
def takings (steps : List Step) (answers : List (Except Failure Answer)) :
    List (Except Failure Answer) :=
  ((steps.zip answers).filter fun entry => entry.1 = .take).map Prod.snd

/-- Steps that only look change no later answer. -/
theorem Reads.takings (h : Reads tokens count steps answers) :
    Reads tokens count (steps.filter (· = .take)) (takings steps answers) := by
  induction h with
  | done => exact .done
  | token _ _ ih => exact ih
  | take found more _ ih => exact .take found more ih
  | exhausted found ended _ ih => exact .exhausted found ended ih
  | remaining _ ih => exact ih

/-- A run reads the tokens ahead of the lexer. -/
theorem reads_of_ahead (ahead : lexer.Ahead (tokens.drop count))
    (tokenwise : ∀ step ∈ steps, step.isTokenwise = true) :
    Reads tokens count steps ((lexer.run steps).map Prod.fst) := by
  -- What each step keeps is that the tokens ahead are the list less those taken.
  induction steps generalizing lexer count with
  | nil => exact .done
  | cons step steps ih =>
      have pos := ahead.length_pos
      rw [List.length_drop] at pos
      have later : ∀ other ∈ steps, other.isTokenwise = true := fun other member =>
        tokenwise other (List.mem_cons_of_mem _ member)
      cases step with
      | token places =>
          obtain ⟨token, next, found, peeked, ahead'⟩ := peek_of_ahead ahead places
          have performs : lexer.Performs (.token places) (.ok (.token token)) next :=
            .answered (map_eq_ok_iff.2 ⟨token, peeked, rfl⟩)
          rw [performs.run_cons]
          refine .token ?_ (ih ahead' later)
          have index : min (count + places) (tokens.length - 1) =
              count + min places ((tokens.drop count).length - 1) := by
            rw [List.length_drop]
            omega
          rw [index, ← List.getElem?_drop]
          exact found
      | take =>
          have inside : count < tokens.length := by omega
          have found : tokens[count]? = some tokens[count] := List.getElem?_eq_getElem inside
          rw [List.drop_eq_getElem_cons inside] at ahead
          have taken := take_of_ahead ahead
          split at taken
          · rename_i ended
            obtain ⟨next, refused, ahead'⟩ := taken
            rw [← List.drop_eq_getElem_cons inside] at ahead'
            have performs : lexer.Performs .take
                (.error (.fault ⟨tokens[count].offset, .inputExhausted⟩)) next :=
              .failed (map_eq_error_iff.2 refused)
            rw [performs.run_cons]
            exact .exhausted found ended (ih ahead' later)
          · rename_i more
            obtain ⟨next, taken, ahead'⟩ := taken
            have performs : lexer.Performs .take (.ok (.token tokens[count])) next :=
              .answered (map_eq_ok_iff.2 ⟨_, taken, rfl⟩)
            rw [performs.run_cons]
            exact .take found more (ih ahead' later)
      | remaining =>
          have performs : lexer.Performs .remaining (.ok (.plain (.text lexer.remaining))) lexer :=
            .answered rfl
          rw [performs.run_cons, ahead.remaining_eq]
          exact .remaining (ih ahead later)
      | raw step => exact absurd (tokenwise _ (List.mem_cons_self ..)) nofun

end Reads

/-- **Lookahead is transparent.**  Over a text that is made of tokens, the end of the input last,
a lexer answers every sequence of steps out of the list of its tokens.  What is taken is what
would be taken without any looking ahead. -/
theorem run_reads {source : Text} {tokens : List Token} (tokenized : tokenize source = .ok tokens)
    {steps : List Step} (tokenwise : ∀ step ∈ steps, step.isTokenwise = true) :
    let answers := fun steps => ((ofCursor (.start source)).run steps).map Prod.fst
    (∃ last, tokens.getLast? = some last ∧ last.kind = .endOfInput) ∧
      Reads tokens 0 steps (answers steps) ∧
      takings steps (answers steps) = answers (steps.filter (· = .take)) := by
  intro answers
  have yields := yields_of_tokenize tokenized
  have ahead : Ahead (ofCursor (.start source)) (tokens.drop 0) := .going nofun yields
  have reads := reads_of_ahead ahead tokenwise
  refine ⟨yields.getLast?, reads, reads.takings.unique (reads_of_ahead ahead ?_)⟩
  intro step member
  obtain rfl := of_decide_eq_true (List.mem_filter.1 member).2
  rfl

/-- Looking far past the end first, and trying to take the end, changes nothing. -/
theorem run_reads_past_end :
    let source := "$x ,# end".toList
    let tokens : List Token := [⟨.variableName, "$x".toList, "$x ".toList, 0⟩,
      ⟨.comma, ",".toList, ",".toList, 3⟩, ⟨.endOfInput, [], "# end".toList, 4⟩]
    let steps : List Step := [.token 9, .take, .remaining, .token 0, .take, .take, .token 1, .take]
    let answers := fun steps => ((ofCursor (.start source)).run steps).map Prod.fst
    tokenize source = .ok tokens ∧ (∀ step ∈ steps, step.isTokenwise = true) ∧
      Reads tokens 0 steps (answers steps) ∧
      takings steps (answers steps) = answers [.take, .take, .take, .take] := by
  intro source tokens steps answers
  have tokenized : tokenize source = .ok tokens := eq_ok_of_toOption (by decide +kernel)
  have tokenwise : ∀ step ∈ steps, step.isTokenwise = true := by decide
  exact ⟨tokenized, tokenwise, (run_reads tokenized tokenwise).2⟩

end Lexer

end MethodSignature
