import YaslLexis.Proofs.Consuming
import YaslLexis.Proofs.Pieces

/-!
# The automaton follows the pieces

Where a token begins, a run of the automaton does what the pieces of the remaining text say, one
after the other, up to the first lexeme: it passes over blanks and comments, offers the complaints,
and gives the token of the lexeme, or the end token when no lexeme is left.

* `follow` -- the run as a recursion over pieces, for any observer;
* `run_collect`, `run_block`, `run_line` -- what the states inside a lexeme or a comment do;
* **`run_eq_follow`** -- a run from the beginning of a token, where the lexeme is still empty, is
  `follow` on the pieces of what is still to come, whatever place the lexeme has.
-/

namespace YaslLexis.Machine

variable {σ : Type} [Observer σ]

/-! ## 1. Following pieces -/

/-- Offers a complaint and goes on if it is taken. -/
def Scan.complaining (s : Scan σ) (complaint : Complaint)
    (go : Scan σ → Scan σ × Except Failure Token) : Scan σ × Except Failure Token :=
  match s.report complaint with
  | (s, some f) => (s, .error f)
  | (s, none) => go s

/-- Follows the pieces up to the first lexeme. -/
def follow : List Piece → Scan σ → Scan σ × Except Failure Token
  | [], s => (s, s.endToken)
  | .lexeme sort text :: _, s =>
    (s.past text, (⟨s.ahead.place, String.ofList text⟩ : Lexeme).token sort)
  | piece :: later, s =>
    match piece.complaint? with
    | none => follow later (s.past piece.text)
    | some complaint =>
      (s.past piece.lead).complaining complaint fun s => follow later (s.past piece.tail)

/-! ## 2. Steps without reports -/

section Steps

variable {s : Scan σ} {text : List Char} {place : Place} {c : Char} {state : State}

/-- A character that is dropped takes the run on to the next state. -/
theorem run_drop (next : State) (h : s.ahead.At (c :: text) place)
    (hm : move state (some c) = .drop next) (l : Lexeme) :
    run ⟨state, l, s⟩ = run ⟨next, l, s.past [c]⟩ := by
  apply run_of_goes
  unfold Run.step
  rw [h.current, List.head?_cons, hm]
  exact Run.consume_eq (r := ⟨state, l, s⟩) h next

theorem run_begin (next : State) (h : s.ahead.At (c :: text) place)
    (hm : move state (some c) = .begin c next) (l : Lexeme) :
    run ⟨state, l, s⟩ = run ⟨next, ⟨s.ahead.place, l.text.push c⟩, s.past [c]⟩ := by
  apply run_of_goes
  unfold Run.step
  rw [h.current, List.head?_cons, hm]
  exact Run.consume_eq (r := ⟨state, ⟨s.ahead.place, l.text.push c⟩, s⟩) h next

theorem run_keep (next : State) (h : s.ahead.At (c :: text) place)
    (hm : move state (some c) = .keep c next) (l : Lexeme) :
    run ⟨state, l, s⟩ = run ⟨next, { l with text := l.text.push c }, s.past [c]⟩ := by
  apply run_of_goes
  unfold Run.step
  rw [h.current, List.head?_cons, hm]
  exact Run.consume_eq (r := ⟨state, { l with text := l.text.push c }, s⟩) h next

theorem run_finish (sort : LexemeClass) (hm : move state s.ahead.current = .finish sort)
    (l : Lexeme) : run ⟨state, l, s⟩ = (s, l.token sort) := by
  apply run_of_ends
  unfold Run.step
  rw [hm]
  rfl

theorem run_turn (hm : move state s.ahead.current = .turn) (l : Lexeme) :
    run ⟨state, l, s⟩ = run ⟨.start, l, s⟩ := by
  apply run_of_goes
  unfold Run.step
  rw [hm]
  rfl

/-- A complaint that consumes nothing. -/
theorem run_complain (complaint : Complaint)
    (hm : move state s.ahead.current = .complain complaint) (l : Lexeme) :
    run ⟨state, l, s⟩ = s.complaining complaint fun s => run ⟨.start, l, s⟩ := by
  unfold Scan.complaining
  cases hr : s.report complaint with
  | mk s' answer =>
    cases answer with
    | none =>
      apply run_of_goes
      simp only [Run.step, hm, Run.perform, Run.reporting, hr]
      rfl
    | some f =>
      apply run_of_ends
      simp only [Run.step, hm, Run.perform, Run.reporting, hr]

/-- An illegal character is reported first and consumed afterwards. -/
theorem run_reject (h : s.ahead.At (c :: text) place) (hm : move state (some c) = .reject c)
    (l : Lexeme) :
    run ⟨state, l, s⟩ =
      s.complaining (.illegalCharacter c.toString) fun s => run ⟨.start, l, s.past [c]⟩ := by
  have hcur : s.ahead.current = some c := h.current
  unfold Scan.complaining
  cases hr : s.report (.illegalCharacter c.toString) with
  | mk s' answer =>
    have hahead : s'.ahead = s.ahead := by
      unfold Scan.report at hr
      cases hr
      rfl
    cases answer with
    | none =>
      apply run_of_goes
      simp only [Run.step, hcur, hm, Run.perform, Run.reporting, hr]
      exact Run.consume_eq (r := ⟨state, l, s'⟩) (hahead ▸ h) .start
    | some f =>
      apply run_of_ends
      simp only [Run.step, hcur, hm, Run.perform, Run.reporting, hr]

end Steps

/-! ## 3. Inside a lexeme -/

theorem append_ofList_cons (l : String) (c : Char) (cs : List Char) :
    l ++ String.ofList (c :: cs) = l.push c ++ String.ofList cs := by
  rw [String.ofList_cons, ← String.append_assoc, String.append_singleton]

/-- A state that keeps the characters of a class collects the longest run of them. -/
theorem run_collect {state : State} {sort : LexemeClass} {keeps : Char → Bool}
    (hkeep : ∀ c, keeps c = true → move state (some c) = .keep c state)
    (hstop : ∀ c, keeps c = false → move state (some c) = .finish sort)
    (hend : move state none = .finish sort) {s : Scan σ} {text : List Char} {place : Place}
    (h : s.ahead.At text place) (l : Lexeme) :
    run ⟨state, l, s⟩ = (s.past (text.takeWhile keeps),
      (⟨l.place, l.text ++ String.ofList (text.takeWhile keeps)⟩ : Lexeme).token sort) := by
  induction text generalizing s l place with
  | nil =>
    have hcur : s.ahead.current = none := h.current
    rw [run_finish sort (by rw [hcur, hend])]
    simp
  | cons c cs ih =>
    have hcur : s.ahead.current = some c := h.current
    cases hc : keeps c with
    | true =>
      rw [run_keep state h (hkeep c hc), ih h.advance, List.takeWhile_cons_of_pos hc,
        append_ofList_cons]
      rfl
    | false =>
      rw [run_finish sort (by rw [hcur, hstop c hc]),
        List.takeWhile_cons_of_neg (by simp [hc])]
      simp

theorem run_number {s : Scan σ} {text : List Char} {place : Place} (h : s.ahead.At text place)
    (l : Lexeme) :
    run ⟨.number, l, s⟩ = (s.past (text.takeWhile Text.isDigit),
      (⟨l.place, l.text ++ String.ofList (text.takeWhile Text.isDigit)⟩ : Lexeme).token .number) :=
  run_collect (fun _ hc => by simp [move, hc]) (fun _ hc => by simp [move, hc]) rfl h l

theorem run_word {s : Scan σ} {text : List Char} {place : Place} (h : s.ahead.At text place)
    (l : Lexeme) :
    run ⟨.word, l, s⟩ = (s.past (text.takeWhile continuesWord),
      (⟨l.place, l.text ++ String.ofList (text.takeWhile continuesWord)⟩ : Lexeme).token .word) :=
  run_collect (fun _ hc => by simp [move, hc]) (fun _ hc => by simp [move, hc]) rfl h l

/-! ## 4. Inside a comment -/

/-- What a block comment comes to, given what follows its opening: past its closing a token begins;
    without one the whole text is consumed, and the comment is reported. -/
def closing (l : Lexeme) (text : List Char) (s : Scan σ) : Scan σ × Except Failure Token :=
  match untilClosed text with
  | some body => run ⟨.start, l, s.past (body ++ closer)⟩
  | none => (s.past text).complaining .unclosedComment fun s => run ⟨.start, l, s⟩

/-- A character of the body may be consumed first. -/
theorem closing_cons {c : Char} {cs : List Char} (h : ¬ (c = '*' ∧ cs.head? = some '/'))
    (l : Lexeme) (s : Scan σ) : closing l (c :: cs) s = closing l cs (s.past [c]) := by
  unfold closing
  rw [untilClosed, if_neg h]
  cases untilClosed cs <;> rfl

/-- In a block comment the automaton looks for the first star and slash. Past a star it does what it
    does before one, so that both states are the same search; the induction needs both. -/
theorem run_block_and_star (l : Lexeme) (text : List Char) :
    (∀ {s : Scan σ} {place : Place}, s.ahead.At text place →
      run ⟨.block, l, s⟩ = closing l text s) ∧
    (∀ {s : Scan σ} {place : Place}, s.ahead.At ('*' :: text) place →
      run ⟨.blockStar, l, s.past ['*']⟩ = closing l ('*' :: text) s) := by
  induction text with
  | nil =>
    constructor
    · intro s place h
      have hcur : s.ahead.current = none := h.current
      exact run_complain .unclosedComment (by rw [hcur]; rfl) l
    · intro s place h
      have hcur : (s.past ['*']).ahead.current = none := h.advance.current
      exact run_complain .unclosedComment (by rw [hcur]; rfl) l
  | cons c cs ih =>
    obtain ⟨ihBlock, ihStar⟩ := ih
    constructor
    · intro s place h
      by_cases hstar : c = '*'
      · subst hstar
        rw [run_drop .blockStar h rfl]
        exact ihStar h
      · rw [run_drop .block h (by simp [move, hstar]), closing_cons (fun hc => hstar hc.1)]
        exact ihBlock h.advance
    · intro s place h
      have h' : (s.past ['*']).ahead.At (c :: cs) (place.after '*') := h.advance
      by_cases hslash : c = '/'
      · subst hslash
        rw [run_drop .start h' rfl]
        rfl
      · have hopen : ¬ ('*' = '*' ∧ (c :: cs).head? = some '/') :=
          fun hc => hslash (Option.some.inj hc.2)
        rw [closing_cons hopen]
        by_cases hstar : c = '*'
        · subst hstar
          rw [run_drop .blockStar h' rfl]
          exact ihStar h'
        · rw [run_drop .block h' (by simp [move, hslash, hstar]),
            closing_cons (fun hc => hstar hc.1)]
          exact ihBlock h'.advance

theorem run_block {s : Scan σ} {text : List Char} {place : Place} (h : s.ahead.At text place)
    (l : Lexeme) : run ⟨.block, l, s⟩ = closing l text s := (run_block_and_star l text).1 h

/-- A line comment ends before the first line feed. -/
theorem run_line {s : Scan σ} {text : List Char} {place : Place} (h : s.ahead.At text place)
    (l : Lexeme) : run ⟨.line, l, s⟩ = run ⟨.start, l, s.past (text.takeWhile (· ≠ '\n'))⟩ := by
  induction text generalizing s place with
  | nil =>
    have hcur : s.ahead.current = none := h.current
    exact run_turn (by rw [hcur]; rfl) l
  | cons c cs ih =>
    have hcur : s.ahead.current = some c := h.current
    by_cases hc : c = '\n'
    · subst hc
      exact run_turn (by rw [hcur]; rfl) l
    · rw [run_drop .line h (by simp [move, hc]), ih h.advance,
        List.takeWhile_cons_of_pos (by simpa using hc)]
      rfl

/-! ## 5. The beginning of a token -/

theorem complaining_congr {s : Scan σ} {complaint : Complaint}
    {go go' : Scan σ → Scan σ × Except Failure Token}
    (h : ∀ s', s'.ahead = s.ahead → go s' = go' s') :
    s.complaining complaint go = s.complaining complaint go' := by
  unfold Scan.complaining
  cases hr : s.report complaint with
  | mk s' answer =>
    have hahead : s'.ahead = s.ahead := by
      unfold Scan.report at hr
      cases hr
      rfl
    cases answer with
    | none => exact h s' hahead
    | some f => rfl

/-- A slash begins a comment or is reported. -/
theorem run_slash {s : Scan σ} {cs rest : List Char} {place : Place}
    (h : s.ahead.At ('/' :: cs) place) (hrest : '/' :: cs = (slashPiece cs).text ++ rest)
    {l : Lexeme} (ih : ∀ {s : Scan σ} {place : Place}, s.ahead.At rest place →
      run ⟨.start, l, s⟩ = follow (pieces rest) s) :
    run ⟨.slash, l, s.past ['/']⟩ = follow (slashPiece cs :: pieces rest) s := by
  have h' : (s.past ['/']).ahead.At cs (place.after '/') := h.advance
  cases cs with
  | nil =>
    have hcur : (s.past ['/']).ahead.current = none := h'.current
    rw [run_complain (.malformedComment none) (by rw [hcur]; rfl)]
    refine complaining_congr fun s' hahead => ?_
    obtain rfl : rest = [] := by simpa [slashPiece, Piece.text] using hrest
    exact ih (hahead ▸ h')
  | cons c cs =>
    have hcur : (s.past ['/']).ahead.current = some c := h'.current
    by_cases hstar : c = '*'
    · subst hstar
      rw [run_drop .block h' rfl, run_block h'.advance, closing, slashPiece, if_pos rfl]
      rw [slashPiece, if_pos rfl] at hrest
      cases hbody : untilClosed cs with
      | none =>
        rw [hbody] at hrest
        obtain rfl : rest = [] := by simpa [Piece.text] using hrest
        refine complaining_congr fun s' hahead => ?_
        have hend : (((s.past ['/']).past ['*']).past cs).ahead.At []
            (place.afterAll ('/' :: '*' :: cs)) :=
          LookAhead.At.past ('/' :: '*' :: cs) (by simpa using h)
        exact ih (hahead ▸ hend)
      | some body =>
        rw [hbody] at hrest
        exact ih (LookAhead.At.past (Piece.block body).text (hrest ▸ h))
    · by_cases hslash : c = '/'
      · subst hslash
        rw [run_drop .line h' rfl, run_line h'.advance]
        exact ih (LookAhead.At.past (slashPiece ('/' :: cs)).text (hrest ▸ h))
      · have hpiece : slashPiece (c :: cs) = .stray (some c) := by
          rw [slashPiece, if_neg hstar, if_neg hslash]
        rw [hpiece] at hrest ⊢
        rw [run_complain (.malformedComment (some c.toString))
          (by rw [hcur]; simp [move, hstar, hslash])]
        refine complaining_congr fun s' hahead => ?_
        obtain rfl : rest = c :: cs := by simpa [Piece.text] using hrest.symm
        exact ih (hahead ▸ h')

theorem move_start (c : Char) : move .start (some c) = startMove c := rfl

/-- **A run from the beginning of a token follows the pieces of what is still to come.** -/
theorem run_eq_follow {s : Scan σ} {text : List Char} {place : Place}
    (h : s.ahead.At text place) {l : Lexeme} (hl : l.text = "") :
    run ⟨.start, l, s⟩ = follow (pieces text) s := by
  have hfirst (c : Char) : l.text.push c = c.toString := by rw [hl]; rfl
  induction text using pieces_induction generalizing s place with
  | nil =>
    have hcur : s.ahead.current = none := h.current
    rw [pieces_nil]
    apply run_of_ends
    simp only [Run.step, hcur]
    rfl
  | cons c cs rest hrest ih =>
    rw [pieces_cons hrest]
    cases hc : classOf c with
    | zero =>
      rw [run_begin .zero h (by simp [move_start, startMove, hc]), run_finish .number rfl, hfirst,
        front_zero cs hc]
      rfl
    | digit =>
      rw [run_begin .number h (by simp [move_start, startMove, hc]), run_number h.advance, hfirst,
        front_digit cs hc, follow, String.ofList_cons]
      rfl
    | letter =>
      rw [run_begin .word h (by simp [move_start, startMove, hc]), run_word h.advance, hfirst,
        front_letter cs hc, follow, String.ofList_cons]
      rfl
    | operator =>
      rw [run_begin .operator h (by simp [move_start, startMove, hc]), run_finish .operator rfl,
        hfirst, front_operator cs hc]
      rfl
    | slash =>
      obtain rfl := eq_slash_of_classOf hc
      rw [front_slash cs hc] at hrest ⊢
      rw [run_drop .slash h (by simp [move_start, startMove, hc])]
      exact run_slash h hrest ih
    | blank =>
      rw [front_blank cs hc] at hrest ⊢
      obtain rfl : rest = cs := by simpa [Piece.text] using hrest.symm
      rw [run_drop .start h (by simp [move_start, startMove, hc])]
      exact ih h.advance
    | illegal =>
      rw [front_illegal cs hc] at hrest ⊢
      obtain rfl : rest = cs := by simpa [Piece.text] using hrest.symm
      rw [run_reject h (by simp [move_start, startMove, hc])]
      refine complaining_congr fun s' hahead => ?_
      exact ih (LookAhead.At.advance (hahead ▸ h))

end YaslLexis.Machine
