import YaslLexis.Input.LookAhead
import YaslLexis.Machine.Move

/-!
# Runs of the automaton

A `Scan` is a text being scanned: the look-ahead, the name of the text in locations, and an observer
that is offered the diagnostics and told of the tokens. `step` carries out one move, `run` goes on
until there is a token or a failure, and `next` is a run from the beginning of a token.

An observer may refuse a diagnostic; the scan then fails at that point and what was consumed of the
lexeme is lost. An illegal character is reported before it is consumed.

Main statements: every step that goes on lowers `Run.measure` (`measure_step`), hence runs end; and a
token that is not the end leaves less to come (`remaining_next_lt`), hence whole scans end.
-/

namespace YaslLexis.Machine

/-- What watches a scan. -/
class Observer (σ : Type) where
  /-- Takes a diagnostic, or fails to; what it did until then stays done. -/
  offer : Diagnostic → σ → σ × Option Failure
  /-- Hears of a token that is given. -/
  heard : Token → σ → σ

/-- A text being scanned. -/
structure Scan (σ : Type) where
  ahead : LookAhead
  file : String
  observer : σ

/-- The characters of the token under way and the place of the first one. -/
structure Lexeme where
  place : Place
  text : String

/-- A scan in the middle of a token. -/
structure Run (σ : Type) where
  state : State
  lexeme : Lexeme
  scan : Scan σ

/-- What comes of a step. -/
inductive Turn (σ : Type) where
  /-- The run goes on. -/
  | goes (run : Run σ)
  /-- The run is over: a token, or what prevented it. -/
  | ends (scan : Scan σ) (result : Except Failure Token)

variable {σ : Type} [Observer σ]

/-! ## 1. One step -/

namespace Scan

/-- Offers a complaint about the character looked at. -/
def report (s : Scan σ) (complaint : Complaint) : Scan σ × Option Failure :=
  let answer := Observer.offer ⟨complaint, some ⟨s.file, s.ahead.place⟩⟩ s.observer
  ({ s with observer := answer.1 }, answer.2)

omit [Observer σ] in
/-- The token of the end of the text, at the place looked at. -/
def endToken (s : Scan σ) : Except Failure Token :=
  (Token.make s.ahead.place .eof none).mapError .token

end Scan

/-- The token of a lexeme. -/
def Lexeme.token (l : Lexeme) (sort : LexemeClass) : Except Failure Token :=
  match classify sort l.text with
  | .error f => .error f
  | .ok (kind, text) => (Token.make l.place kind text).mapError .token

namespace Run

omit [Observer σ] in
/-- Consumes the character looked at and goes on in the state `next`. -/
def consume (r : Run σ) (next : State) : Turn σ :=
  match r.scan.ahead.advance with
  | (ahead, some f) => .ends { r.scan with ahead } (.error f)
  | (ahead, none) => .goes { r with state := next, scan := { r.scan with ahead } }

omit [Observer σ] in
/-- Goes back to the beginning of a token. -/
def again (r : Run σ) : Turn σ := .goes { r with state := .start }

/-- Reports, and goes on as told if the report was taken. -/
def reporting (r : Run σ) (complaint : Complaint) (go : Run σ → Turn σ) : Turn σ :=
  match r.scan.report complaint with
  | (scan, some f) => .ends scan (.error f)
  | (scan, none) => go { r with scan }

/-- Carries out one move. -/
def perform (r : Run σ) : Move → Turn σ
  | .begin c next =>
    ({ r with lexeme := ⟨r.scan.ahead.place, r.lexeme.text.push c⟩ } : Run σ).consume next
  | .keep c next =>
    ({ r with lexeme := { r.lexeme with text := r.lexeme.text.push c } } : Run σ).consume next
  | .drop next => r.consume next
  | .reject c => r.reporting (.illegalCharacter c.toString) fun r => r.consume .start
  | .complain complaint => r.reporting complaint again
  | .turn => r.again
  | .finish sort => .ends r.scan (r.lexeme.token sort)
  | .stop => .ends r.scan r.scan.endToken

/-- One step: the move of the table. -/
def step (r : Run σ) : Turn σ := r.perform (move r.state r.scan.ahead.current)

/-! ## 2. Steps lower a measure -/

/-- Twice what is to come, and one more away from the beginning of a token. -/
def measure (r : Run σ) : Nat :=
  2 * r.scan.ahead.remaining + (if r.state = .start then 0 else 1)

omit [Observer σ] in
theorem consume_goes {r r' : Run σ} {next : State} (h : r.consume next = .goes r') :
    ∃ ahead, r.scan.ahead.advance = (ahead, none) ∧
      r' = { r with state := next, scan := { r.scan with ahead } } := by
  unfold consume at h
  split at h
  · cases h
  · rename_i ahead eq
    cases h
    exact ⟨ahead, eq, rfl⟩

theorem reporting_goes {r r' : Run σ} {complaint : Complaint} {go : Run σ → Turn σ}
    (h : r.reporting complaint go = .goes r') :
    ∃ observer, go { r with scan := { r.scan with observer } } = .goes r' := by
  unfold reporting Scan.report at h
  dsimp only at h
  split at h
  · cases h
  · rename_i scan eq
    simp only [Prod.mk.injEq] at eq
    rw [← eq.1] at h
    exact ⟨_, h⟩

omit [Observer σ] in
/-- Consuming a character leaves less to come. -/
theorem remaining_consume {r r' : Run σ} {next : State} (look : r.scan.ahead.current.isSome = true)
    (h : r.consume next = .goes r') :
    r'.scan.ahead.remaining < r.scan.ahead.remaining := by
  obtain ⟨c, look⟩ := Option.isSome_iff_exists.1 look
  obtain ⟨ahead, adv, rfl⟩ := consume_goes h
  exact LookAhead.remaining_advance_lt look adv

/-- A move that goes on consumes a character, or it goes back to the beginning of a token. -/
theorem perform_goes {r r' : Run σ} {m : Move} (h : r.perform m = .goes r')
    (look : m.consumes = true → r.scan.ahead.current.isSome = true) :
    r'.scan.ahead.remaining < r.scan.ahead.remaining ∨
      (m.returns = true ∧ r'.scan.ahead = r.scan.ahead ∧ r'.state = .start) := by
  cases m <;> simp only [perform] at h
  case begin | keep =>
    have less := fun here => remaining_consume here h
    exact .inl (less (look rfl))
  case drop next => exact .inl (remaining_consume (look rfl) h)
  case reject c =>
    obtain ⟨observer, go⟩ := reporting_goes h
    exact .inl (remaining_consume (r := { r with scan := { r.scan with observer } }) (look rfl) go)
  case complain complaint =>
    obtain ⟨observer, go⟩ := reporting_goes h
    cases go
    exact .inr ⟨rfl, rfl, rfl⟩
  case turn =>
    cases h
    exact .inr ⟨rfl, rfl, rfl⟩
  case finish sort => cases h
  case stop => cases h

/-- What a step that goes on does to the rest: it consumes a character, or it goes back to the
    beginning of a token from elsewhere and consumes nothing. -/
theorem step_goes {r r' : Run σ} (h : r.step = .goes r') :
    r'.scan.ahead.remaining < r.scan.ahead.remaining ∨
      (r'.scan.ahead = r.scan.ahead ∧ r.state ≠ .start ∧ r'.state = .start) := by
  rcases perform_goes h isSome_of_consumes with less | ⟨back, same, home⟩
  · exact .inl less
  · exact .inr ⟨same, ne_start_of_returns back, home⟩

/-- **Every step that goes on lowers the measure.** -/
theorem measure_step {r r' : Run σ} (h : r.step = .goes r') : r'.measure < r.measure := by
  unfold measure
  rcases step_goes h with less | ⟨same, away, home⟩
  · split <;> split <;> omega
  · rw [same, if_pos home, if_neg away]
    omega

omit [Observer σ] in
theorem consume_ends {r : Run σ} {next : State} {scan : Scan σ} {result : Except Failure Token}
    (h : r.consume next = .ends scan result) : ∃ f, result = .error f := by
  unfold consume at h
  split at h <;> cases h
  exact ⟨_, rfl⟩

theorem reporting_ends {r : Run σ} {complaint : Complaint} {go : Run σ → Turn σ} {scan : Scan σ}
    {result : Except Failure Token} (h : r.reporting complaint go = .ends scan result)
    (went : ∀ {r}, go r = .ends scan result → ∃ f, result = .error f) :
    ∃ f, result = .error f := by
  unfold reporting at h
  split at h
  · cases h
    exact ⟨_, rfl⟩
  · exact went h

omit [Observer σ] in
theorem kind_endToken {s : Scan σ} {t : Token} (h : s.endToken = .ok t) : t.kind = .eof := by
  unfold Scan.endToken at h
  cases made : Token.make s.ahead.place .eof none with
  | error e => rw [made] at h; cases h
  | ok t' =>
    rw [made] at h
    cases h
    exact (Token.make_eq_ok_iff.1 made).2.1

/-- A step that gives a token leaves the scan as it was, and where a token begins it is the end
    token. -/
theorem step_ends_ok {r : Run σ} {scan : Scan σ} {t : Token} (h : r.step = .ends scan (.ok t)) :
    scan = r.scan ∧ (r.state = .start → t.kind = .eof) := by
  unfold step at h
  cases m : move r.state r.scan.ahead.current <;> rw [m] at h <;> simp only [perform] at h
  case begin | keep | drop => simpa using consume_ends h
  case reject => simpa using reporting_ends h consume_ends
  case complain => simpa using reporting_ends h (by intro r h; cases h)
  case turn => cases h
  case finish sort =>
    simp only [Turn.ends.injEq] at h
    exact ⟨h.1.symm, fun home => absurd home (ne_start_of_finish m)⟩
  case stop =>
    simp only [Turn.ends.injEq] at h
    exact ⟨h.1.symm, fun _ => kind_endToken h.2⟩

end Run

/-! ## 3. Whole runs -/

/-- Goes on until there is a token or a failure. -/
def run (r : Run σ) : Scan σ × Except Failure Token :=
  match _h : r.step with
  | .ends scan result => (scan, result)
  | .goes r' => run r'
termination_by r.measure
decreasing_by exact Run.measure_step _h

namespace Scan

omit [Observer σ] in
/-- The beginning of a token. -/
def opening (s : Scan σ) : Run σ := ⟨.start, ⟨s.ahead.place, ""⟩, s⟩

/-- The next token. The observer hears of it. At the end of the text it is the end token, as often
    as it is asked for. -/
def next (s : Scan σ) : Scan σ × Except Failure Token :=
  match run s.opening with
  | (s, .ok t) => ({ s with observer := Observer.heard t s.observer }, .ok t)
  | (s, .error f) => (s, .error f)

end Scan

/-- What a run that gives a token does to the rest. -/
theorem remaining_run {r : Run σ} {scan : Scan σ} {t : Token} (h : run r = (scan, .ok t)) :
    scan.ahead.remaining ≤ r.scan.ahead.remaining ∧
      (r.state = .start → t.kind ≠ .eof → scan.ahead.remaining < r.scan.ahead.remaining) := by
  fun_induction run r with
  | case1 r scan' result eq =>
    cases h
    obtain ⟨rfl, stop⟩ := Run.step_ends_ok eq
    exact ⟨Nat.le_refl _, fun home other => absurd (stop home) other⟩
  | case2 r r' eq ih =>
    have := ih h
    rcases Run.step_goes eq with less | ⟨same, away, home⟩
    · exact ⟨by omega, fun _ _ => by omega⟩
    · rw [same] at this
      exact ⟨this.1, fun home => absurd home away⟩

/-- **A token that is not the end leaves less to come.** -/
theorem remaining_next_lt {s s' : Scan σ} {t : Token} (h : s.next = (s', .ok t))
    (other : t.kind ≠ .eof) : s'.ahead.remaining < s.ahead.remaining := by
  unfold Scan.next at h
  split at h
  · rename_i scan t' eq
    cases h
    exact (remaining_run eq).2 rfl other
  · cases h

end YaslLexis.Machine
