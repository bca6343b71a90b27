import YaslLexis.Proofs.Abreast
import YaslLexis.Proofs.LineTable
import YaslLexis.Proofs.StepBounds
import YaslLexis.Proofs.WholeText

/-!
# The lexeme under way

What the lexeme of a run is before each step. In four states a lexeme is under way: its characters
are what the state says, and they are the part of the text from the place where it was begun up to
the one looked at. In the other five there is none, and the place recorded is that where the call
began. So a lexeme that is finished always has a kind, and a text exactly if its kind keeps one.

* `State.sort?`, `State.Admits` -- which lexemes may be under way in a state (`Admits.lexical`);
* `move_spec` -- what each move of the table does to them;
* `Run.Tracks` -- the invariant: what a run has made of the text since its call began;
  `Run.Tracks.step` -- a step keeps it, `leads_tracks` -- so do any number of steps;
* `step_of_finish`, `step_of_stop` -- what a finished lexeme and the end give;
* `StandsIn`, `Reachable.stands` -- the offset of what is looked at in the whole text;
* **`lexeme_under_way`** -- all of it, for every run of every call.
-/

namespace YaslLexis

namespace Machine

open Report WholeText

/-! ## 1. Lexemes of a state -/

namespace State

/-- The class of the lexeme that is under way, if there is one. -/
def sort? : State → Option LexemeClass
  | zero | number => some .number
  | word => some .word
  | operator => some .operator
  | start | slash | block | blockStar | line => none

/-- The lexeme may be under way in the state. -/
def Admits : State → List Char → Prop
  | zero, lexeme => lexeme = ['0']
  | number, lexeme =>
    lexeme ≠ [] ∧ lexeme.head? ≠ some '0' ∧ ∀ c ∈ lexeme, Text.isDigit c = true
  | word, lexeme => ∃ c cs, lexeme = c :: cs ∧ Text.isLetter c = true ∧
      ∀ d ∈ cs, Text.isLetter d = true ∨ Text.isDigit d = true
  | operator, lexeme => ∃ c kind, lexeme = [c] ∧ (c, kind) ∈ Kind.operators
  | start, lexeme | slash, lexeme | block, lexeme | blockStar, lexeme | line, lexeme => lexeme = []

variable {state : State} {lexeme : List Char}

theorem admits_iff_nil (h : state.sort? = none) : state.Admits lexeme ↔ lexeme = [] := by
  cases state with
  | zero | number | word | operator => cases h
  | start | slash | block | blockStar | line => exact Iff.rfl

/-- What may be under way is a lexeme of the class. -/
theorem Admits.lexical {sort : LexemeClass} (h : state.Admits lexeme)
    (hsort : state.sort? = some sort) : Lexical sort lexeme := by
  cases state with
  | start | slash | block | blockStar | line => cases hsort
  | zero =>
    cases hsort
    obtain rfl : lexeme = ['0'] := h
    exact .zero
  | number =>
    cases hsort
    obtain ⟨hne, hhead, hdigits⟩ := h
    obtain ⟨c, cs, rfl⟩ := List.exists_cons_of_ne_nil hne
    exact .number (fun hzero => hhead (congrArg some hzero)) hdigits
  | word =>
    cases hsort
    obtain ⟨c, cs, rfl, hfirst, hlater⟩ := h
    exact .word hfirst fun d hd => continuesWord_iff.2 (hlater d hd)
  | operator =>
    cases hsort
    obtain ⟨c, kind, rfl, hmem⟩ := h
    rw [← Kind.ofOperator?_eq_some_iff, Kind.ofOperator?_eq] at hmem
    exact .operator hmem

/-- A digit may be added to a number. -/
theorem Admits.number_push {c : Char} (h : number.Admits lexeme) (hc : Text.isDigit c = true) :
    number.Admits (lexeme ++ [c]) := by
  obtain ⟨hne, hhead, hdigits⟩ := h
  refine ⟨List.append_ne_nil_of_left_ne_nil hne _, ?_, fun d hd => ?_⟩
  · rwa [List.head?_append_of_ne_nil _ hne]
  · rcases List.mem_append.1 hd with hd | hd
    · exact hdigits d hd
    · rwa [List.mem_singleton.1 hd]

/-- A letter or a digit may be added to a word. -/
theorem Admits.word_push {c : Char} (h : word.Admits lexeme) (hc : continuesWord c = true) :
    word.Admits (lexeme ++ [c]) := by
  obtain ⟨first, cs, rfl, hfirst, hlater⟩ := h
  refine ⟨first, cs ++ [c], rfl, hfirst, fun d hd => ?_⟩
  rcases List.mem_append.1 hd with hd | hd
  · exact hlater d hd
  · rw [List.mem_singleton.1 hd]
    exact continuesWord_iff.1 hc

end State

/-! ## 2. What a move does to the lexeme -/

/-- What begins a token begins a lexeme that may be under way, or none. -/
theorem startMove_spec (c : Char) :
    match startMove c with
    | .begin d next => d = c ∧ next.Admits [c]
    | .drop next => next.sort? = none
    | .reject d => d = c
    | _ => False := by
  have hspec := classOf_spec c
  unfold startMove
  cases hc : classOf c <;> rw [hc] at hspec
  case zero => exact ⟨rfl, congrArg (fun d => [d]) hspec⟩
  case digit =>
    refine ⟨rfl, List.cons_ne_nil c [], ?_, ?_⟩
    · rw [List.head?_cons]
      exact fun heq => hspec.1 (Option.some.inj heq)
    · exact List.forall_mem_singleton.2 hspec.2
  case letter => exact ⟨rfl, c, [], rfl, hspec.2.2, List.forall_mem_nil _⟩
  case operator =>
    obtain ⟨kind, hkind⟩ := Option.isSome_iff_exists.1 hspec.2.2.2
    exact ⟨rfl, c, kind, rfl, Kind.ofOperator?_eq_some_iff.1 hkind⟩
  all_goals rfl

/-- **What the table does to the lexeme.** Where none is under way one is begun, with the character
    looked at, or characters are passed over and there is none afterwards; one that is under way is
    continued with the character looked at, in the same state, or finished. -/
theorem move_spec (state : State) (look : Option Char) :
    match move state look with
    | .begin c next => look = some c ∧ state.sort? = none ∧ next.Admits [c]
    | .keep c next => look = some c ∧ next = state ∧ state.sort? ≠ none ∧
        ∀ lexeme, state.Admits lexeme → state.Admits (lexeme ++ [c])
    | .drop next => look.isSome = true ∧ state.sort? = none ∧ next.sort? = none
    | .reject c => look = some c ∧ state.sort? = none
    | .complain _ | .turn => state.sort? = none
    | .finish sort => state.sort? = some sort
    | .stop => state = .start ∧ look = none := by
  cases state with
  | start =>
    cases look with
    | none => exact ⟨rfl, rfl⟩
    | some c =>
      have hspec := startMove_spec c
      rw [move_start]
      cases hmove : startMove c <;> rw [hmove] at hspec
      case begin d next =>
        obtain ⟨rfl, hadmits⟩ := hspec
        exact ⟨rfl, rfl, hadmits⟩
      case drop next => exact ⟨rfl, rfl, hspec⟩
      case reject d => exact ⟨congrArg some hspec.symm, rfl⟩
      case keep | complain | turn | finish | stop => exact hspec.elim
  | zero | operator => cases look <;> rfl
  | number =>
    cases look with
    | none => rfl
    | some c =>
      by_cases hc : Text.isDigit c = true
      · rw [show move .number (some c) = .keep c .number from if_pos hc]
        exact ⟨rfl, rfl, by simp [State.sort?], fun lexeme hlexeme => hlexeme.number_push hc⟩
      · rw [show move .number (some c) = .finish .number from if_neg hc]
        rfl
  | word =>
    cases look with
    | none => rfl
    | some c =>
      by_cases hc : continuesWord c = true
      · rw [show move .word (some c) = .keep c .word from if_pos hc]
        exact ⟨rfl, rfl, by simp [State.sort?], fun lexeme hlexeme => hlexeme.word_push hc⟩
      · rw [show move .word (some c) = .finish .word from if_neg hc]
        rfl
  -- In the other states there is no lexeme before the step, nor after it.
  | slash =>
    cases look with
    | none => rfl
    | some c =>
      by_cases hstar : c = '*'
      · subst hstar
        exact ⟨rfl, rfl, rfl⟩
      · by_cases hslash : c = '/'
        · subst hslash
          exact ⟨rfl, rfl, rfl⟩
        · simp [move, hstar, hslash, State.sort?]
  | block =>
    cases look with
    | none => rfl
    | some c => by_cases hstar : c = '*' <;> simp [move, hstar, State.sort?]
  | blockStar =>
    cases look with
    | none => rfl
    | some c =>
      by_cases hslash : c = '/'
      · subst hslash
        exact ⟨rfl, rfl, rfl⟩
      · by_cases hstar : c = '*' <;> simp [move, hslash, hstar, State.sort?]
  | line =>
    cases look with
    | none => rfl
    | some c => by_cases hfeed : c = '\n' <;> simp [move, hfeed, State.sort?]

/-! ## 3. Step after step -/

variable {σ : Type} {s : Scan σ} {r r' : Run σ}

/-- What a run has made of the text since its call began: a part of it has been passed over, and the
    lexeme is what has been consumed since. -/
structure Run.Tracks (s : Scan σ) (done : List Char) (r : Run σ) : Prop where
  admitted : r.state.Admits r.lexeme.text.toList
  rest : s.ahead.rest = done ++ (r.lexeme.text.toList ++ r.scan.ahead.rest)
  place : r.scan.ahead.place = (s.ahead.place.afterAll done).afterAll r.lexeme.text.toList
  begun : r.state.sort? ≠ none → r.lexeme.place = s.ahead.place.afterAll done

theorem tracks_opening (s : Scan σ) : s.opening.Tracks s [] :=
  ⟨rfl, rfl, rfl, fun hsort => absurd rfl hsort⟩

namespace Run.Tracks

variable {done : List Char} {c : Char} {next : State}

/-- A run that consumes a character, and goes on with some lexeme, has passed over what it had and
    the character, but for that lexeme. -/
theorem consumed (h : r.Tracks s done) {lexeme : Lexeme} {done' : List Char}
    (hlook : r.scan.ahead.current = some c)
    (hgoes : ({ r with lexeme } : Run σ).consume next = .goes r')
    (hsplit : done' ++ lexeme.text.toList = done ++ r.lexeme.text.toList ++ [c])
    (hadmitted : next.Admits lexeme.text.toList)
    (hbegun : next.sort? ≠ none → lexeme.place = s.ahead.place.afterAll done') :
    r'.Tracks s done' := by
  obtain ⟨ahead, hadvance, rfl⟩ := Run.consume_goes hgoes
  have hrest : r.scan.ahead.rest = c :: ahead.rest := LookAhead.rest_advance hlook hadvance
  have hplace : ahead.place = r.scan.ahead.place.after c := by
    rw [← LookAhead.place_advance hlook, hadvance]
  refine ⟨hadmitted, ?_, ?_, hbegun⟩
  · calc s.ahead.rest = done ++ r.lexeme.text.toList ++ [c] ++ ahead.rest := by
          rw [h.rest, hrest]
          simp
      _ = done' ++ (lexeme.text.toList ++ ahead.rest) := by rw [← hsplit, List.append_assoc]
  · calc ahead.place = s.ahead.place.afterAll (done ++ r.lexeme.text.toList ++ [c]) := by
          rw [hplace, h.place, Place.afterAll_append, Place.afterAll_append]
          rfl
      _ = (s.ahead.place.afterAll done').afterAll lexeme.text.toList := by
          rw [← hsplit, Place.afterAll_append]

/-- Where no lexeme is under way there is none. -/
theorem text_eq_nil (h : r.Tracks s done) (hsort : r.state.sort? = none) :
    r.lexeme.text.toList = [] := (State.admits_iff_nil hsort).1 h.admitted

/-- A lexeme is begun. -/
theorem begins (h : r.Tracks s done) (hsort : r.state.sort? = none)
    (hlook : r.scan.ahead.current = some c) (hnext : next.Admits [c])
    (hgoes : ({ r with lexeme := ⟨r.scan.ahead.place, r.lexeme.text.push c⟩ } : Run σ).consume
      next = .goes r') : r'.Tracks s done := by
  have hnil := h.text_eq_nil hsort
  have htext : (r.lexeme.text.push c).toList = r.lexeme.text.toList ++ [c] := by simp
  refine h.consumed hlook hgoes ?_ ?_ fun _ => ?_
  · rw [htext, List.append_assoc]
  · rwa [htext, hnil]
  · rw [h.place, hnil, Place.afterAll_nil]

/-- The lexeme is continued. -/
theorem keeps (h : r.Tracks s done) (hsort : r.state.sort? ≠ none)
    (hlook : r.scan.ahead.current = some c)
    (hnext : r.state.Admits (r.lexeme.text.toList ++ [c]))
    (hgoes : ({ r with lexeme := { r.lexeme with text := r.lexeme.text.push c } } : Run σ).consume
      r.state = .goes r') : r'.Tracks s done := by
  have htext : (r.lexeme.text.push c).toList = r.lexeme.text.toList ++ [c] := by simp
  refine h.consumed hlook hgoes ?_ ?_ fun _ => h.begun hsort
  · rw [htext, List.append_assoc]
  · rwa [htext]

/-- The character is passed over. -/
theorem drops (h : r.Tracks s done) (hsort : r.state.sort? = none)
    (hlook : r.scan.ahead.current = some c) (hnext : next.sort? = none)
    (hgoes : r.consume next = .goes r') : r'.Tracks s (done ++ [c]) := by
  have hnil := h.text_eq_nil hsort
  refine h.consumed hlook hgoes ?_ ((State.admits_iff_nil hnext).2 hnil) fun haway => ?_
  · rw [hnil, List.append_nil, List.append_nil]
  · exact absurd hnext haway

/-- The run goes back to the beginning of a token. -/
theorem again (h : r.Tracks s done) (hsort : r.state.sort? = none) :
    ({ r with state := .start } : Run σ).Tracks s done :=
  ⟨h.text_eq_nil hsort, h.rest, h.place, fun haway => absurd rfl haway⟩

/-- Reporting changes the observer alone. -/
theorem observed (h : r.Tracks s done) (observer : σ) :
    ({ r with scan := { r.scan with observer } } : Run σ).Tracks s done :=
  ⟨h.admitted, h.rest, h.place, h.begun⟩

/-- Where no lexeme is under way, the one that is begun is the character alone. -/
theorem perform_begin [Observer σ] (h : r.Tracks s done) (hsort : r.state.sort? = none) (c : Char)
    (next : State) : r.perform (.begin c next) =
      ({ r with lexeme := ⟨r.scan.ahead.place, c.toString⟩ } : Run σ).consume next := by
  have hempty : r.lexeme.text = "" := String.toList_eq_nil_iff.1 (h.text_eq_nil hsort)
  rw [Run.perform, hempty]
  rfl

/-- **A step keeps what a run holds**, and passes over one character at most. -/
theorem step [Observer σ] (h : r.Tracks s done) (hstep : r.step = .goes r') :
    ∃ done', r'.Tracks s done' := by
  have hspec := move_spec r.state r.scan.ahead.current
  unfold Run.step at hstep
  cases hmove : move r.state r.scan.ahead.current <;> rw [hmove] at hspec hstep
  case begin c next =>
    obtain ⟨hlook, hsort, hnext⟩ := hspec
    exact ⟨done, h.begins hsort hlook hnext hstep⟩
  case keep c next =>
    obtain ⟨hlook, rfl, hsort, hadd⟩ := hspec
    exact ⟨done, h.keeps hsort hlook (hadd _ h.admitted) hstep⟩
  case drop next =>
    obtain ⟨hsome, hsort, hnext⟩ := hspec
    obtain ⟨c, hlook⟩ := Option.isSome_iff_exists.1 hsome
    exact ⟨done ++ [c], h.drops hsort hlook hnext hstep⟩
  case reject c =>
    obtain ⟨hlook, hsort⟩ := hspec
    have hreport : r.reporting (.illegalCharacter c.toString) (fun r => r.consume .start) =
      .goes r' := hstep
    obtain ⟨observer, hgoes⟩ := Run.reporting_goes hreport
    exact ⟨done ++ [c], (h.observed observer).drops hsort hlook rfl hgoes⟩
  case complain complaint =>
    have hreport : r.reporting complaint Run.again = .goes r' := hstep
    obtain ⟨observer, hgoes⟩ := Run.reporting_goes hreport
    cases hgoes
    exact ⟨done, (h.observed observer).again hspec⟩
  case turn =>
    cases hstep
    exact ⟨done, h.again hspec⟩
  case finish sort => cases hstep
  case stop => cases hstep

/-- A lexeme that is under way is on one line, and ends where the next character is looked at. -/
theorem one_line (h : r.Tracks s done) (hsort : r.state.sort? ≠ none) :
    '\n' ∉ r.lexeme.text.toList ∧ r.lexeme.place.line = r.scan.ahead.place.line ∧
      r.lexeme.place.column + r.lexeme.text.length = r.scan.ahead.place.column := by
  obtain ⟨sort, hclass⟩ := Option.ne_none_iff_exists'.1 hsort
  have hfeed := (h.admitted.lexical hclass).lineFeed_not_mem
  have hplace := h.place
  rw [← h.begun hsort, Place.afterAll_of_not_mem hfeed] at hplace
  rw [hplace, String.length_toList]
  exact ⟨hfeed, rfl, rfl⟩

end Run.Tracks

/-- **Whatever steps of a call have led to a run**, it has passed over a part of the text and holds
    the lexeme under way. -/
theorem leads_tracks [Observer σ] {n : Nat} (h : s.opening.Leads n r) :
    ∃ done, r.Tracks s done := by
  induction h with
  | here => exact ⟨[], tracks_opening s⟩
  | step _ hstep ih =>
    obtain ⟨done, htracks⟩ := ih
    exact htracks.step hstep

/-! ## 4. What comes of a lexeme -/

/-- The token of the kind and the text at the place, or the refusal of a place that is not counted
    from one. -/
def Gives (place : Place) (kind : Kind) (text : Option String) (result : Except Failure Token) :
    Prop :=
  (place.Counted → ∃ t, result = .ok t ∧ t.parts = (place, kind, text)) ∧
    (¬ place.Counted → result = .error (.token (.misplaced place)))

/-- A text that is there exactly if the kind keeps one is never refused. -/
theorem gives_make {kind : Kind} {text : Option String} (h : text.isSome = kind.carriesText)
    (place : Place) : Gives place kind text ((Token.make place kind text).mapError .token) := by
  constructor
  · intro hplace
    rw [Token.make_eq_ok hplace h]
    exact ⟨_, rfl, rfl⟩
  · intro hplace
    unfold Token.make
    rw [dif_neg hplace]
    rfl

/-- A lexeme that is finished has a kind, and a text exactly if its kind keeps one. -/
theorem step_of_finish [Observer σ] {sort : LexemeClass} (h : r.state.Admits r.lexeme.text.toList)
    (hmove : move r.state r.scan.ahead.current = .finish sort) :
    ∃ kind text result, classify sort r.lexeme.text = .ok (kind, text) ∧
      Spells r.lexeme.text.toList kind text ∧ text.isSome = kind.carriesText ∧
      r.step = .ends r.scan result ∧ Gives r.lexeme.place kind text result := by
  have hsort := move_spec r.state r.scan.ahead.current
  rw [hmove] at hsort
  obtain ⟨kind, text, hclass, hspells⟩ := (h.lexical hsort).spells
  rw [String.ofList_toList] at hclass
  have hcarries := (classify_spec hclass).1
  refine ⟨kind, text, _, hclass, hspells, hcarries, ?_, gives_make hcarries r.lexeme.place⟩
  unfold Run.step Run.perform
  rw [hmove]
  dsimp only
  unfold Lexeme.token
  rw [hclass]

/-- The end has a token without a text. -/
theorem step_of_stop [Observer σ] (hmove : move r.state r.scan.ahead.current = .stop) :
    r.state = .start ∧ r.scan.ahead.current = none ∧ ∃ result,
      r.step = .ends r.scan result ∧ Gives r.scan.ahead.place .eof none result := by
  have hspec := move_spec r.state r.scan.ahead.current
  rw [hmove] at hspec
  refine ⟨hspec.1, hspec.2, _, ?_, gives_make rfl r.scan.ahead.place⟩
  unfold Run.step
  rw [hmove]
  rfl

/-! ## 5. Offsets in the whole text -/

/-- What is looked at is an offset of the text: all that is from there on is still to come, and the
    place is that of the offset. -/
structure StandsIn (a : LookAhead) (text : List Char) (line : Int) (i : Nat) : Prop where
  le_length : i ≤ text.length
  rest : a.rest = text.drop i
  place : a.place = placeOf text line i

/-- What has been consumed ends at the offset. -/
theorem standsIn_append {a : LookAhead} {done : List Char} {line : Int}
    (hplace : a.place = (⟨line, 1⟩ : Place).afterAll done) :
    StandsIn a (done ++ a.rest) line done.length := by
  refine ⟨?_, ?_, ?_⟩
  · simp
  · rw [List.drop_left]
  · rw [hplace, placeOf_append]

theorem StandsIn.split {a : LookAhead} {text : List Char} {line : Int} {i : Nat}
    (h : StandsIn a text line i) :
    ∃ done, text = done ++ a.rest ∧ a.place = (⟨line, 1⟩ : Place).afterAll done := by
  refine ⟨text.take i, ?_, ?_⟩
  · rw [h.rest, List.take_append_drop]
  · rw [h.place, ← placeOf_append (text.take i) (text.drop i), List.take_append_drop,
      List.length_take_of_le h.le_length]

/-- It is one of the offsets, and no read fails. -/
def Stands (text : List Char) (line : Int) (a : LookAhead) : Prop :=
  a.reader.Reliable ∧ ∃ i, StandsIn a text line i

/-- An advance moves past one character of the text, or stays at the end. -/
theorem Stands.advance {text : List Char} {line : Int} (a : LookAhead) (h : Stands text line a) :
    Stands text line a.advance.1 := by
  obtain ⟨hreader, i, hstands⟩ := h
  have hreliable := LookAhead.kept_advance (fun r => Reader.Reliable.read) hreader
  refine ⟨hreliable, ?_⟩
  cases hlook : a.current with
  | none =>
    rw [LookAhead.advance_atEnd hlook]
    exact ⟨i, hstands⟩
  | some c =>
    obtain ⟨done, rfl, hplace⟩ := hstands.split
    have hat : a.At a.rest a.place := ⟨hreader, rfl, rfl⟩
    have hrest := LookAhead.rest_advance hlook hat.advance_eq
    have hlater : a.advance.1.place = (⟨line, 1⟩ : Place).afterAll (done ++ [c]) := by
      rw [LookAhead.place_advance hlook, hplace, Place.afterAll_append]
      rfl
    have hwhole := standsIn_append hlater
    rw [List.append_assoc, List.singleton_append, ← hrest] at hwhole
    exact ⟨_, hwhole⟩

/-- **Wherever calls have led to over a reader that does not fail**, the scan stands at an offset of
    the text. -/
theorem Reachable.stands [Observer σ] {options : Options} {reader : Reader}
    (hreader : reader.Reliable) (h : Reachable options reader s) :
    Stands (Reader.untilEmpty reader.pending) options.line s.ahead := by
  induction h with
  | opened sink =>
    have hat := at_opened hreader options sink
    have hplace : (Machine.opened options reader sink).ahead.place =
        (⟨options.line, 1⟩ : Place).afterAll [] := hat.place
    have hstands := standsIn_append hplace
    rw [hat.rest] at hstands
    exact ⟨hat.reliable, _, hstands⟩
  | renamed | redirected => assumption
  | called _ ih => exact kept_next Stands.advance ih

/-- The lexeme is the part of the text from the offset where it was begun up to the one looked at. -/
theorem Run.Tracks.eq_slice {done : List Char} (h : r.Tracks s done) {text : List Char} {line : Int}
    {i : Nat} (hs : StandsIn s.ahead text line i) :
    ∃ k j, k ≤ j ∧ StandsIn r.scan.ahead text line j ∧ r.lexeme.text = slice text k j ∧
      (r.state.sort? ≠ none → r.lexeme.place = placeOf text line k) := by
  -- The text is what came before the call, what the call has passed over, the lexeme, and the rest.
  obtain ⟨before, rfl, hplace⟩ := hs.split
  have hbegun : s.ahead.place.afterAll done = (⟨line, 1⟩ : Place).afterAll (before ++ done) := by
    rw [hplace, Place.afterAll_append]
  have hahead : r.scan.ahead.place =
      (⟨line, 1⟩ : Place).afterAll (before ++ done ++ r.lexeme.text.toList) := by
    rw [h.place, hbegun, Place.afterAll_append (⟨line, 1⟩ : Place) (before ++ done)]
  have hwhole : before ++ s.ahead.rest =
      before ++ done ++ (r.lexeme.text.toList ++ r.scan.ahead.rest) := by
    rw [h.rest, List.append_assoc]
  have hstands := standsIn_append hahead
  rw [List.append_assoc (before ++ done), ← hwhole, List.length_append] at hstands
  refine ⟨_, _, Nat.le_add_right _ _, hstands, ?_, fun hsort => ?_⟩
  · rw [hwhole, slice_append, List.take_left, String.ofList_toList]
  · rw [h.begun hsort, hbegun, hwhole, placeOf_append]

/-! ## 6. All runs -/

/-- **The lexeme under way.** Whatever the reader and the sink do, before each step of a call

    * the lexeme is one that the state admits: none at the beginning of a token and in comments, a
      zero past a zero, an operator past one, and a number or a word inside one;
    * if one is under way it is on one line, and ends where the next character is looked at; and if
      there is none, the one that adding a character begins is that character alone, at the place
      looked at;
    * if it is finished by the step, it has a kind and spells it, with a text exactly if the kind
      keeps one, and so the step gives its token, unless the place is not counted from one;
    * if the step is at the end, it gives the end token likewise.

    Over a reader that does not fail, from whatever line on and wherever calls and changes of the
    name and of the sink have led to, the lexeme is the part of the text up to the offset looked at,
    from the one where it was begun. -/
theorem lexeme_under_way [Observer σ] :
    (∀ (s : Scan σ) (n : Nat) (r : Run σ), s.opening.Leads n r →
      r.state.Admits r.lexeme.text.toList ∧
      (r.state.sort? ≠ none → '\n' ∉ r.lexeme.text.toList ∧
        r.lexeme.place.line = r.scan.ahead.place.line ∧
        r.lexeme.place.column + r.lexeme.text.length = r.scan.ahead.place.column) ∧
      (r.state.sort? = none → ∀ c next, r.perform (.begin c next) =
        ({ r with lexeme := ⟨r.scan.ahead.place, c.toString⟩ } : Run σ).consume next) ∧
      (∀ sort, move r.state r.scan.ahead.current = .finish sort →
        ∃ kind text result, classify sort r.lexeme.text = .ok (kind, text) ∧
          Spells r.lexeme.text.toList kind text ∧ text.isSome = kind.carriesText ∧
          r.step = .ends r.scan result ∧ Gives r.lexeme.place kind text result) ∧
      (move r.state r.scan.ahead.current = .stop →
        r.state = .start ∧ r.scan.ahead.current = none ∧ ∃ result,
          r.step = .ends r.scan result ∧ Gives r.scan.ahead.place .eof none result)) ∧
    ∀ (options : Options) (reader : Reader), reader.Reliable →
      ∀ s : Scan σ, Reachable options reader s →
      ∀ (n : Nat) (r : Run σ), s.opening.Leads n r →
        ∃ k j, k ≤ j ∧
          StandsIn r.scan.ahead (Reader.untilEmpty reader.pending) options.line j ∧
          r.lexeme.text = slice (Reader.untilEmpty reader.pending) k j ∧
          (r.state.sort? ≠ none →
            r.lexeme.place = placeOf (Reader.untilEmpty reader.pending) options.line k) := by
  constructor
  · intro s n r hleads
    obtain ⟨done, htracks⟩ := leads_tracks hleads
    refine ⟨htracks.admitted, htracks.one_line, htracks.perform_begin, ?_, step_of_stop⟩
    intro sort hmove
    exact step_of_finish htracks.admitted hmove
  · intro options reader hreader s hreachable n r hleads
    obtain ⟨-, i, hstands⟩ := hreachable.stands hreader
    obtain ⟨done, htracks⟩ := leads_tracks hleads
    exact htracks.eq_slice hstands

/-- A word begun by the call after one that failed, since the sink refused the report of the slash
    before it; on a line that is not counted. -/
theorem lexeme_under_way_past_refusal :
    let options : Options := { line := 0 }
    let reader := Reader.ofText ['/', 'x', '1', ' ']
    let first : Scan Post := opened options reader ⟨.leaf 0, { leaves := #[.failing 0 #[]] }⟩
    let later := first.next.1
    let r : Run Post := ⟨.word, ⟨⟨0, 2⟩, "x1"⟩, later.past ['x', '1']⟩
    reader.Reliable ∧ first.next.2 = .error .sinkFull ∧ Reachable options reader later ∧
      later.opening.Leads 2 r ∧ r.state.sort? ≠ none ∧
      r.lexeme.place.column + r.lexeme.text.length = r.scan.ahead.place.column ∧
      (∃ k j, k ≤ j ∧ StandsIn r.scan.ahead ['/', 'x', '1', ' '] 0 j ∧
        "x1" = slice ['/', 'x', '1', ' '] k j ∧
        (⟨0, 2⟩ : Place) = placeOf ['/', 'x', '1', ' '] 0 k) ∧
      move r.state r.scan.ahead.current = .finish .word ∧
      r.step = .ends r.scan (.error (.token (.misplaced ⟨0, 2⟩))) := by
  intro options reader first later r
  have hreliable : reader.Reliable := Reader.reliable_ofText _
  have hreachable : Reachable options reader later := .called (.opened _)
  let refused : Scan Post := { first.past ['/'] with
    observer := (Observer.offer ⟨.malformedComment (some "x"), some ⟨options.file, ⟨0, 2⟩⟩⟩
      first.observer).1 }
  have hslash : first.opening.step = .goes ⟨.slash, first.opening.lexeme, first.past ['/']⟩ := rfl
  have hreport : (⟨.slash, first.opening.lexeme, first.past ['/']⟩ : Run Post).step =
      .ends refused (.error .sinkFull) := rfl
  have hfirst : first.next = (refused, .error .sinkFull) := by
    unfold Scan.next
    rw [run_of_goes hslash, run_of_ends hreport]
  have hlater : later = refused := congrArg Prod.fst hfirst
  have hleads : later.opening.Leads 2 r := by
    show later.opening.Leads 2 ⟨.word, ⟨⟨0, 2⟩, "x1"⟩, later.past ['x', '1']⟩
    rw [hlater]
    exact .step (.step (.here _) rfl) rfl
  have hmove : move r.state r.scan.ahead.current = .finish .word := by
    show move .word (later.past ['x', '1']).ahead.current = .finish .word
    rw [hlater]
    rfl
  have hsort : r.state.sort? ≠ none := by simp [r, State.sort?]
  obtain ⟨hany, hover⟩ := lexeme_under_way (σ := Post)
  obtain ⟨-, hline, -, hfinish, -⟩ := hany later 2 r hleads
  obtain ⟨kind, text, result, -, -, -, hstep, hgives⟩ := hfinish .word hmove
  obtain ⟨k, j, hle, hstands, hslice, hplace⟩ :=
    hover options reader hreliable later hreachable 2 r hleads
  have hresult : result = .error (.token (.misplaced ⟨0, 2⟩)) := hgives.2 (by decide)
  rw [hresult] at hstep
  exact ⟨hreliable, congrArg Prod.snd hfirst, hreachable, hleads, hsort, (hline hsort).2.2,
    ⟨k, j, hle, hstands, hslice, hplace hsort⟩, hmove, hstep⟩

end Machine

end YaslLexis
