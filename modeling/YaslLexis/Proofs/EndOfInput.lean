import YaslLexis.Drive.Session
import YaslLexis.Proofs.Chunks

/-!
# The end of the input

The first empty read is the end for good. Whatever is done to a session afterwards, its reader is
not read again, however much it would still give and however it would fail; and the end token, once
it was given, is the only answer to further calls.

* `LookAhead.Rests` -- nothing happened to a look-ahead at the end but closings of its reader;
* `run_atEnd`, `next_atEnd`, `drain_atEnd` -- what runs, calls and whole scans do at the end;
* `end_of_next` -- the end token is given at the end only;
* `rests_perform` -- a step of a session at the end lets its look-ahead rest;
* `Operation`, `Session.after` -- steps of a session, advances of its look-ahead, and any number of
  them; `rests_after` -- they let the look-ahead rest;
* **`end_is_final`** -- no scan sees more of a reader than what comes before the first empty read,
  and the end that it finds there lasts.
-/

namespace YaslLexis

open Machine Report

/-! ## 1. Look-aheads at the end -/

namespace LookAhead

/-- The end was found, and since then at most the reader was closed. -/
structure Rests (s s' : LookAhead) : Prop where
  atEnd : s.current = none
  closed : ∃ closes, s' = { s with reader := { s.reader with closes } }

namespace Rests

variable {s s' s'' : LookAhead}

theorem refl (h : s.current = none) : Rests s s := ⟨h, s.reader.closes, rfl⟩

theorem current (h : Rests s s') : s'.current = none := by
  obtain ⟨closes, rfl⟩ := h.closed
  exact h.atEnd

theorem place (h : Rests s s') : s'.place = s.place := by
  obtain ⟨closes, rfl⟩ := h.closed
  rfl

theorem reads (h : Rests s s') : s'.reader.reads = s.reader.reads := by
  obtain ⟨closes, rfl⟩ := h.closed
  rfl

theorem trans (h : Rests s s') (h' : Rests s' s'') : Rests s s'' := by
  obtain ⟨closes, rfl⟩ := h.closed
  obtain ⟨closes', rfl⟩ := h'.closed
  exact ⟨h.atEnd, closes', rfl⟩

end Rests

theorem rests_advance {s : LookAhead} (h : s.current = none) : Rests s s.advance.1 := by
  rw [advance_atEnd h]
  exact .refl h

theorem rests_close {s : LookAhead} (h : s.current = none) : Rests s s.close.1 :=
  ⟨h, s.reader.closes + 1, rfl⟩

end LookAhead

/-! ## 2. Scans at the end -/

namespace Machine

variable {σ : Type} [Observer σ]

/-- A move that consumes nothing leaves the look-ahead alone. -/
theorem Run.ahead_perform (r : Run σ) {m : Move} (h : m.consumes = false) :
    (r.perform m).scan.ahead = r.scan.ahead := by
  cases m with
  | begin | keep | drop | reject => cases h
  | complain complaint =>
    have hahead : (r.scan.report complaint).1.ahead = r.scan.ahead := rfl
    simp only [Run.perform, Run.reporting]
    cases hreport : r.scan.report complaint with
    | mk scan refusal =>
      rw [hreport] at hahead
      cases refusal <;> exact hahead
  | turn | finish | stop => rfl

/-- The table consumes nothing at the end. -/
theorem Run.ahead_step {r : Run σ} (h : r.scan.ahead.current = none) :
    r.step.scan.ahead = r.scan.ahead := by
  refine r.ahead_perform (Bool.eq_false_iff.2 fun hconsumes => ?_)
  have hlook := isSome_of_consumes hconsumes
  rw [h] at hlook
  cases hlook

/-- **At the end a run leaves the look-ahead alone**, in whatever state it begins. -/
theorem run_atEnd {r : Run σ} (h : r.scan.ahead.current = none) :
    (run r).1.ahead = r.scan.ahead := by
  fun_induction run r with
  | case1 r scan result hstep =>
    have hahead := Run.ahead_step h
    rw [hstep] at hahead
    exact hahead
  | case2 r r' hstep ih =>
    have hahead : r'.scan.ahead = r.scan.ahead := by
      have hahead := Run.ahead_step h
      rwa [hstep] at hahead
    rw [ih (hahead ▸ h), hahead]

/-- At the end the first step is the last one. -/
theorem step_opening_atEnd {s : Scan σ} (h : s.ahead.current = none) :
    s.opening.step = .ends s s.endToken := by
  show s.opening.perform (move .start s.ahead.current) = _
  rw [h]
  rfl

/-- At the end a call gives the end token, and no diagnostic is offered. -/
theorem next_atEnd {s : Scan σ} (h : s.ahead.current = none) :
    s.next =
      match s.endToken with
      | .ok t => ({ s with observer := Observer.heard t s.observer }, .ok t)
      | .error f => (s, .error f) := by
  unfold Scan.next
  rw [run_of_ends (step_opening_atEnd h)]
  cases s.endToken <;> rfl

theorem ahead_next_atEnd {s : Scan σ} (h : s.ahead.current = none) : s.next.1.ahead = s.ahead := by
  rw [next_atEnd h]
  cases s.endToken <;> rfl

/-- At the end a whole scan is one call. -/
theorem drain_atEnd {s : Scan σ} (h : s.ahead.current = none) : s.drain.scan = s.next.1 := by
  have hnext := next_atEnd h
  cases hend : s.endToken with
  | error f =>
    rw [hend] at hnext
    rw [drain_of_failure hnext, hnext]
  | ok t =>
    rw [hend] at hnext
    rw [drain_of_end hnext (Run.kind_endToken hend), hnext]

omit [Observer σ] in
theorem endToken_congr {s s' : Scan σ} (h : s'.ahead.place = s.ahead.place) :
    s'.endToken = s.endToken := by
  unfold Scan.endToken
  rw [h]

theorem eq_none_of_stop {state : State} {look : Option Char} (h : move state look = .stop) :
    look = none := by
  cases look with
  | none => rfl
  | some c =>
    cases state <;> simp only [move, startMove] at h
    all_goals
      repeat' split at h
      all_goals cases h

/-- A step gives the end token at the end only. -/
theorem end_of_step {r : Run σ} {scan : Scan σ} {t : Token} (h : r.step = .ends scan (.ok t))
    (hkind : t.kind = .eof) : scan.ahead.current = none ∧ scan.endToken = .ok t := by
  unfold Run.step at h
  cases hmove : move r.state r.scan.ahead.current <;> rw [hmove] at h <;>
    simp only [Run.perform] at h
  case stop =>
    simp only [Turn.ends.injEq] at h
    obtain ⟨rfl, hend⟩ := h
    exact ⟨eq_none_of_stop hmove, hend⟩
  case finish sort =>
    simp only [Turn.ends.injEq] at h
    exact absurd hkind (kind_token_ne_eof h.2)
  case begin | keep | drop => simpa using Run.consume_ends h
  case reject => simpa using Run.reporting_ends h Run.consume_ends
  case complain => simpa using Run.reporting_ends h (by intro r h; cases h)
  case turn => cases h

theorem end_of_run {r : Run σ} {scan : Scan σ} {t : Token} (h : run r = (scan, .ok t))
    (hkind : t.kind = .eof) : scan.ahead.current = none ∧ scan.endToken = .ok t := by
  fun_induction run r with
  | case1 r scan' result hstep =>
    cases h
    exact end_of_step hstep hkind
  | case2 r r' hstep ih => exact ih h

/-- **A call gives the end token at the end only**, where every further call gives it. -/
theorem end_of_next {s s' : Scan σ} {t : Token} (h : s.next = (s', .ok t)) (hkind : t.kind = .eof) :
    s'.ahead.current = none ∧ s'.endToken = .ok t := by
  unfold Scan.next at h
  cases hrun : run s.opening with
  | mk scan result =>
    rw [hrun] at h
    cases result with
    | error f => cases h
    | ok t' =>
      cases h
      have hend := end_of_run hrun hkind
      exact hend

end Machine

/-! ## 3. Sessions at the end -/

namespace Drive

open LookAhead

theorem ahead_ask (s : Session) (sink : Sink) (query : Query) :
    (s.ask sink query).1.scan.ahead = s.scan.ahead := by
  cases sink with
  | tee => rfl
  | leaf index =>
    unfold Session.ask
    dsimp only
    cases s.desk.collector? index with
    | none => rfl
    | some c => cases query <;> rfl

theorem ahead_closeStream (s : Session) (sink : Sink) :
    (s.closeStream sink).scan.ahead = s.scan.ahead := by
  cases sink <;> rfl

section Rests

variable {s : Session} (h : s.scan.ahead.current = none)
include h

theorem rests_next : Rests s.scan.ahead s.next.1.scan.ahead := by
  show Rests s.scan.ahead s.scan.next.1.ahead
  rw [ahead_next_atEnd h]
  exact .refl h

theorem rests_drain : Rests s.scan.ahead s.drain.1.scan.ahead := by
  show Rests s.scan.ahead s.scan.drain.scan.ahead
  rw [drain_atEnd h, ahead_next_atEnd h]
  exact .refl h

theorem rests_iteratorNext (index : Nat) :
    Rests s.scan.ahead (s.iteratorNext index).1.scan.ahead := by
  have hnext := rests_next h
  unfold Session.iteratorNext
  split
  · exact .refl h
  · split <;> (rename_i heq; rw [heq] at hnext; exact hnext)

theorem rests_close : Rests s.scan.ahead s.close.1.scan.ahead := by
  show Rests s.scan.ahead (Report.close s.scan).1.ahead
  have hclose := LookAhead.rests_close h
  unfold Report.close
  split <;> (rename_i heq; rw [heq] at hclose; exact hclose)

end Rests

mutual

/-- **At the end a step lets the look-ahead rest**, and so do the steps of a block. -/
theorem rests_perform (step : Step) {s : Session} (h : s.scan.ahead.current = none) :
    Rests s.scan.ahead (perform step s).1.scan.ahead := by
  cases step with
  | next => exact rests_next h
  | drain => exact rests_drain h
  | iteratorNext index => exact rests_iteratorNext h index
  | close => exact rests_close h
  | block steps raise =>
    -- Whatever the body did, leaving the block closes the scan once.
    have hbody := rests_performAll steps h
    exact hbody.trans (rests_close hbody.current)
  | iterate | rename | idle | redirect | picture | add => exact .refl h
  | closeStream name =>
    show Rests s.scan.ahead (s.closeStream (s.sink name)).scan.ahead
    rw [ahead_closeStream]
    exact .refl h
  | ask name query =>
    show Rests s.scan.ahead (s.ask (s.sink name) query).1.scan.ahead
    rw [ahead_ask]
    exact .refl h

theorem rests_performAll (steps : List Step) {s : Session} (h : s.scan.ahead.current = none) :
    Rests s.scan.ahead (performAll steps s).1.scan.ahead := by
  cases steps with
  | nil => exact .refl h
  | cons step rest =>
    have hstep := rests_perform step h
    exact hstep.trans (rests_performAll rest hstep.current)

end

/-! ## 4. Whatever comes after the end -/

/-- What may be done to a session: a step, or an advance of its look-ahead past all tokens. -/
inductive Operation where
  | step (step : Step)
  | advance

/-- The session after an operation. -/
def Session.did (s : Session) : Operation → Session
  | .step step => (perform step s).1
  | .advance => { s with scan := { s.scan with ahead := s.scan.ahead.advance.1 } }

/-- The session after several operations. -/
def Session.after (s : Session) (operations : List Operation) : Session :=
  operations.foldl Session.did s

theorem rests_did (operation : Operation) {s : Session} (h : s.scan.ahead.current = none) :
    Rests s.scan.ahead (s.did operation).scan.ahead := by
  cases operation with
  | step step => exact rests_perform step h
  | advance => exact rests_advance h

/-- **At the end all operations let the look-ahead rest.** -/
theorem rests_after (operations : List Operation) {s : Session}
    (h : s.scan.ahead.current = none) :
    Rests s.scan.ahead (s.after operations).scan.ahead := by
  induction operations generalizing s with
  | nil => exact .refl h
  | cons operation operations ih =>
    have hdid := rests_did operation h
    exact hdid.trans (ih hdid.current)

/-! ## 5. The end lasts -/

/-- **The end of the input is final, and how the input is cut into chunks does not matter.**

    * A scan over a script whose reads do not fail before the first empty one and a scan over the
      text that comes before it cannot be told apart, whatever the sink; and if the sink refuses
      nothing, every call gives a token.
    * Once the end was found, be it in the middle of a call, the reader is not read again, there is
      no character and the place stays, whatever is done to the session.
    * Once a call gave the end token, every later call gives it, whatever was done to the session
      meanwhile, and only lets the sink hear of it. -/
theorem end_is_final :
    (∀ {σ : Type} [Observer σ] (options : Options) (chunks : List (List Char))
        (failing : Nat → Bool) (onClosing : Option Failure) (observer : σ),
      1 ≤ options.line → (∀ n ≤ (Reader.uncut chunks).length, failing n = false) →
      ∃ s s', openReader options (.scripted chunks failing onClosing) observer = .ok s ∧
        openReader options (.ofText (Reader.uncut chunks)) observer = .ok s' ∧ Alike s s' ∧
        (Willing observer → ∀ n, ∃ t, s.answer n = .ok t)) ∧
    (∀ r : Run Post, r.scan.ahead.atEnd = true → (run r).1.ahead = r.scan.ahead) ∧
    (∀ (s : Session) (operations : List Operation), s.scan.ahead.atEnd = true →
      (s.after operations).scan.ahead.reader.reads = s.scan.ahead.reader.reads ∧
      (s.after operations).scan.ahead.current = none ∧
      (s.after operations).scan.ahead.place = s.scan.ahead.place) ∧
    ∀ (before : Scan Post) (s : Session) (t : Token), before.next = (s.scan, .ok t) →
      t.kind = .eof → ∀ operations : List Operation,
        (s.after operations).scan.next =
          ({ (s.after operations).scan with
              observer := Observer.heard t (s.after operations).scan.observer }, .ok t) := by
  refine ⟨?_, fun r hend => run_atEnd (LookAhead.atEnd_iff.1 hend), ?_, ?_⟩
  · -- Of the two scans the one of the text is ready, so the calls of both give tokens.
    intro σ _ options chunks failing onClosing observer hline hsound
    obtain ⟨s, s', hopen, hopen', halike⟩ := alike_of_delivers
      (Reader.delivers_scripted hsound onClosing) (Reader.delivers_ofText _) options observer
    refine ⟨s, s', hopen, hopen', halike, fun hwilling n => ?_⟩
    rw [openReader_ofText] at hopen'
    obtain rfl := Except.ok.inj hopen'
    have hready : Ready (openText options (Reader.uncut chunks) observer) (Reader.uncut chunks)
        ⟨options.line, 1⟩ :=
      ⟨hwilling, at_openText options _ observer, outcomes_ok _ ⟨hline, Int.le_refl 1⟩⟩
    rw [← halike.answer]
    exact hready.answer n
  · intro s operations hend
    have hrests := rests_after operations (LookAhead.atEnd_iff.1 hend)
    exact ⟨hrests.reads, hrests.current, hrests.place⟩
  · intro before s t hnext hkind operations
    obtain ⟨hend, htoken⟩ := end_of_next hnext hkind
    have hrests := rests_after operations hend
    rw [next_atEnd hrests.current, endToken_congr hrests.place, htoken]

/-- A script that goes on after its empty read, with a character and failures, and cannot be
    closed. -/
theorem end_is_final_resuming :
    let chunks : List (List Char) := [['a', '/'], ['*'], [], ['b']]
    let failing : Nat → Bool := fun n => decide (4 < n)
    let onClosing : Option Failure := some .closedText
    let operations : List Operation := [.step .close, .advance, .step .drain, .step (.rename "b")]
    (1 : Int) ≤ 2 ∧ (∀ n ≤ (Reader.uncut chunks).length, failing n = false) ∧
      Willing ({} : Collector) ∧
      (∃ s s', openReader { line := 2 } (.scripted chunks failing onClosing) ({} : Collector) =
          .ok s ∧
        openReader { line := 2 } (.ofText ['a', '/', '*']) ({} : Collector) = .ok s' ∧
        Alike s s' ∧ ∀ n, ∃ t, s.answer n = .ok t) ∧
      ∃ (before : Scan Post) (s : Session) (t : Token), before.next = (s.scan, .ok t) ∧
        t.kind = .eof ∧ s.scan.ahead.atEnd = true ∧
        (∀ state, (run { s.scan.opening with state }).1.ahead = s.scan.ahead) ∧
        (s.after operations).scan.ahead.reader.reads = 4 ∧
        (s.after operations).scan.next.2 = .ok t := by
  intro chunks failing onClosing operations
  obtain ⟨hchunks, hrun, hstays, hagain⟩ := end_is_final
  have hsound : ∀ n ≤ (Reader.uncut chunks).length, failing n = false := by decide
  have hwilling : Willing ({} : Collector) := fun log c hlog => hlog.collector.1
  obtain ⟨s, s', hopen, hopen', halike, htokens⟩ :=
    hchunks { line := 2 } chunks failing onClosing ({} : Collector) (by decide) hsound
  refine ⟨by decide, hsound, hwilling, ⟨s, s', hopen, hopen', halike, htokens hwilling⟩, ?_⟩
  -- The second call, which reports the comment, gives the end token.
  have hsecond :
      ((start ⟨[], [], []⟩ (.reader (.scripted chunks failing onClosing)) (some { line := 2 })
          none).toOption.map fun s =>
        ((s.did (.step .next)).scan.next.2.toOption.map Token.kind,
          (s.did (.step .next)).scan.next.1.ahead.atEnd,
          (s.did (.step .next)).scan.next.1.ahead.reader.reads)) =
        some (some .eof, true, 4) := by decide +kernel
  obtain ⟨u, -, hu⟩ := Option.map_eq_some_iff.1 hsecond
  obtain ⟨hresult, hu⟩ := Prod.mk.inj hu
  obtain ⟨hend, hreads⟩ := Prod.mk.inj hu
  obtain ⟨t, ht, hkind⟩ := Option.map_eq_some_iff.1 hresult
  have hnext : (u.did (.step .next)).scan.next = ((u.did (.step .next)).scan.next.1, .ok t) := by
    cases hcall : (u.did (.step .next)).scan.next with
    | mk scan result =>
      rw [hcall] at ht
      cases result with
      | error f => cases ht
      | ok t' =>
        obtain rfl : t' = t := Option.some.inj ht
        rfl
  let last : Session := { u with scan := (u.did (.step .next)).scan.next.1 }
  refine ⟨_, last, t, hnext, hkind, hend, fun state => hrun _ hend, ?_, ?_⟩
  · exact (hstays last operations hend).1.trans hreads
  · exact congrArg Prod.snd (hagain _ last t hnext hkind operations)

end Drive

end YaslLexis
