import YaslLexis.Proofs.EndOfInput
import YaslLexis.Proofs.FailedReads
import YaslLexis.Proofs.FileContents

/-!
# How many steps a call makes

A call for a token ends, and it makes no more steps than the characters that it consumes pay for:
each pays for the step that consumes it and for the one after, if that consumes nothing. A step that
goes back to the beginning of a token without consuming comes from elsewhere, and no state but the
beginning is entered without consuming; so the step before it has paid.

* `Run.Consumes`, `Run.Returns`, `Turn.Ways`, `step_ways` -- what a step may do;
* `Run.Leads`, `run_ends` -- a number of steps leads from a run to another, and at last to one that
  ends;
* `Leads.paid` -- a run that is not at the beginning of a token comes from a step that consumed;
* `Leads.cost_le` -- the steps are paid for; `length_visits_le`, `length_visits_lt` -- the steps of
  a call, and of one that gives a token which is not the end;
* `length_trace_le` -- the steps of a whole scan; `length_trace_zeros` -- a text of zeros takes as
  many;
* `Reachable` -- the scans that calls, renamings and changes of the sink lead to;
* **`steps_bounded`** -- all of it, for every scan of a text.
-/

namespace YaslLexis.Machine

open Report

variable {σ : Type}

/-! ## 1. What a step may do -/

/-- Exactly one character is consumed from one run to the other. -/
def Run.Consumes (r r' : Run σ) : Prop :=
  ∃ c, r.scan.ahead.advance = (r'.scan.ahead, none) ∧ r.scan.ahead.rest = c :: r'.scan.ahead.rest

/-- Nothing is consumed, and a token begins where none began before. -/
structure Run.Returns (r r' : Run σ) : Prop where
  ahead : r'.scan.ahead = r.scan.ahead
  away : r.state ≠ .start
  home : r'.state = .start

/-- What may come of a step. -/
inductive Turn.Ways (r : Run σ) : Turn σ → Prop where
  /-- It gives a token, and consumes nothing. -/
  | gives (t : Token) : Turn.Ways r (.ends r.scan (.ok t))
  /-- It fails, and consumes nothing. -/
  | fails {scan : Scan σ} (f : Failure) : scan.ahead.rest = r.scan.ahead.rest →
      Turn.Ways r (.ends scan (.error f))
  /-- It consumes a character. -/
  | consumes {r' : Run σ} : r.Consumes r' → Turn.Ways r (.goes r')
  /-- It goes back to the beginning of a token. -/
  | returns {r' : Run σ} : r.Returns r' → Turn.Ways r (.goes r')

/-- A run that looks at the same character, with another lexeme or observer, may consume it in place
    of the one that the step began with. -/
theorem consume_ways {r u : Run σ} (hsame : u.scan.ahead = r.scan.ahead)
    (hlook : r.scan.ahead.current.isSome = true) (next : State) : (u.consume next).Ways r := by
  unfold Run.consume
  rw [hsame]
  cases hadvance : r.scan.ahead.advance with
  | mk ahead failure =>
    rcases r.scan.ahead.advance_cases with ⟨hcurrent, -⟩ | ⟨c, f, -, -, hfailed, hrest⟩ |
      ⟨c, -, -, hanswer, -, hrest⟩
    · rw [hcurrent] at hlook
      cases hlook
    · rw [hadvance] at hfailed hrest
      obtain rfl : failure = some f := congrArg Prod.snd hfailed
      exact .fails f hrest
    · rw [hadvance] at hanswer hrest
      obtain rfl : failure = none := hanswer
      exact .consumes ⟨c, hadvance, hrest⟩

variable [Observer σ]

/-- A report leaves what is looked at; so what comes of it is that it fails, or what comes next. -/
theorem reporting_ways {r : Run σ} (complaint : Complaint) {go : Run σ → Turn σ}
    (hgo : ∀ observer, (go { r with scan := { r.scan with observer } }).Ways r) :
    (r.reporting complaint go).Ways r := by
  unfold Run.reporting Scan.report
  dsimp only
  cases (Observer.offer ⟨complaint, some ⟨r.scan.file, r.scan.ahead.place⟩⟩ r.scan.observer).2 with
  | some f => exact .fails f rfl
  | none => exact hgo _

omit [Observer σ] in
theorem ends_ways (r : Run σ) (result : Except Failure Token) :
    (Turn.ends r.scan result).Ways r := by
  cases result with
  | ok t => exact .gives t
  | error f => exact .fails f rfl

/-- **What a step may do**: it gives a token or fails, it consumes exactly one character, or it goes
    back to the beginning of a token from elsewhere and consumes nothing. -/
theorem step_ways (r : Run σ) : r.step.Ways r := by
  have hlook : (move r.state r.scan.ahead.current).consumes = true →
      r.scan.ahead.current.isSome = true := isSome_of_consumes
  have haway : (move r.state r.scan.ahead.current).returns = true → r.state ≠ .start :=
    ne_start_of_returns
  unfold Run.step
  cases hmove : move r.state r.scan.ahead.current <;> rw [hmove] at hlook haway
  case begin | keep | drop =>
    refine consume_ways ?_ (hlook rfl) _
    rfl
  case reject c =>
    show (r.reporting _ fun r => r.consume .start).Ways r
    refine reporting_ways _ fun observer => ?_
    refine consume_ways ?_ (hlook rfl) .start
    rfl
  case complain complaint =>
    exact reporting_ways complaint fun observer => .returns ⟨rfl, haway rfl, rfl⟩
  case turn => exact .returns ⟨rfl, haway rfl, rfl⟩
  case finish sort => exact ends_ways r _
  case stop => exact ends_ways r _

/-! ## 2. Step after step -/

namespace Run

/-- A number of steps leads from one run to another. -/
inductive Leads : Run σ → Nat → Run σ → Prop where
  | here (r : Run σ) : Leads r 0 r
  | step {r r' r'' : Run σ} {n : Nat} : Leads r n r' → r'.step = .goes r'' → Leads r (n + 1) r''

/-- The first step may be made beforehand. -/
theorem Leads.cons {r r' r'' : Run σ} {n : Nat} (hstep : r.step = .goes r') (h : r'.Leads n r'') :
    r.Leads (n + 1) r'' := by
  induction h with
  | here => exact .step (.here r) hstep
  | step _ hlast ih => exact .step ih hlast

end Run

section Visits

variable {r r' : Run σ} {scan : Scan σ} {result : Except Failure Token}

theorem visits_of_ends (h : r.step = .ends scan result) :
    r.visits = [⟨r.state, r.scan.ahead.place, result.toOption⟩] := by
  fun_cases Run.visits r with
  | case1 scan₁ result₁ hstep =>
    rw [h] at hstep
    cases hstep
    rfl
  | case2 r₁ hstep =>
    rw [h] at hstep
    cases hstep

theorem visits_of_goes (h : r.step = .goes r') :
    r.visits = ⟨r.state, r.scan.ahead.place, none⟩ :: r'.visits := by
  fun_cases Run.visits r with
  | case1 scan₁ result₁ hstep =>
    rw [h] at hstep
    cases hstep
  | case2 r₁ hstep =>
    rw [h] at hstep
    cases hstep
    rfl

end Visits

/-- **A run ends**, after some number of steps, with what comes of it. -/
theorem run_ends (r : Run σ) :
    ∃ n last, r.Leads n last ∧ last.step = .ends (run r).1 (run r).2 := by
  fun_induction run r with
  | case1 r scan result hstep => exact ⟨0, r, .here r, hstep⟩
  | case2 r r' hstep ih =>
    obtain ⟨n, last, hleads, hend⟩ := ih
    exact ⟨n + 1, last, .cons hstep hleads, hend⟩

namespace Run.Leads

variable {r r' : Run σ} {n : Nat}

/-- The steps of a run are those that lead to another one, and then the steps of that one. -/
theorem visits (h : r.Leads n r') : r.visits.drop n = r'.visits := by
  induction h with
  | here => rfl
  | step _ hstep ih =>
    rw [visits_of_goes hstep] at ih
    rw [← List.drop_drop, ih, List.drop_one, List.tail_cons]

theorem length_visits (h : r.Leads n r') {scan : Scan σ} {result : Except Failure Token}
    (hend : r'.step = .ends scan result) : r.visits.length = n + 1 := by
  have hlength := congrArg List.length h.visits
  rw [visits_of_ends hend, List.length_drop, List.length_singleton] at hlength
  omega

/-- What was consumed on the way comes before what is still to come. -/
theorem rest (h : r.Leads n r') :
    ∃ consumed, r.scan.ahead.rest = consumed ++ r'.scan.ahead.rest := by
  induction h with
  | here => exact ⟨[], rfl⟩
  | @step r' r'' n _ hstep ih =>
    obtain ⟨consumed, hrest⟩ := ih
    have hways := step_ways r'
    rw [hstep] at hways
    cases hways with
    | consumes hconsumes =>
      obtain ⟨c, -, hone⟩ := hconsumes
      exact ⟨consumed ++ [c], by rw [hrest, hone, List.append_assoc, List.singleton_append]⟩
    | returns hreturns => exact ⟨consumed, by rw [hrest, hreturns.ahead]⟩

/-- **A run that is not at the beginning of a token has been paid for**: the step that led to it
    consumed a character. -/
theorem paid (h : r.Leads n r') (hbegin : r.state = .start) (haway : r'.state ≠ .start) :
    ∃ m before, n = m + 1 ∧ r.Leads m before ∧ before.step = .goes r' ∧ before.Consumes r' := by
  cases h with
  | here => exact absurd hbegin haway
  | @step before _ m hleads hstep =>
    have hways := step_ways before
    rw [hstep] at hways
    cases hways with
    | consumes hconsumes => exact ⟨m, before, rfl, hleads, hstep, hconsumes⟩
    | returns hreturns => exact absurd hreturns.home haway

end Run.Leads

/-! ## 3. What the steps cost -/

/-- The characters to come, each for two steps, and one step that is paid for already. -/
def Run.cost (r : Run σ) : Nat :=
  2 * r.scan.ahead.rest.length + (if r.state = .start then 0 else 1)

omit [Observer σ] in
theorem cost_of_start {r : Run σ} (h : r.state = .start) :
    r.cost = 2 * r.scan.ahead.rest.length := by
  unfold Run.cost
  rw [if_pos h, Nat.add_zero]

omit [Observer σ] in
theorem cost_of_away {r : Run σ} (h : r.state ≠ .start) :
    r.cost = 2 * r.scan.ahead.rest.length + 1 := by
  unfold Run.cost
  rw [if_neg h]

/-- A step that goes on is paid for. -/
theorem cost_step {r r' : Run σ} (h : r.step = .goes r') : r'.cost + 1 ≤ r.cost := by
  have hways := step_ways r
  rw [h] at hways
  cases hways with
  | consumes hconsumes =>
    obtain ⟨c, -, hrest⟩ := hconsumes
    unfold Run.cost
    rw [hrest, List.length_cons]
    split <;> split <;> omega
  | returns hreturns =>
    have hspent : r'.cost + 1 = r.cost := by
      rw [cost_of_start hreturns.home, cost_of_away hreturns.away, hreturns.ahead]
    exact Nat.le_of_eq hspent

/-- **So are any number of them.** -/
theorem Run.Leads.cost_le {r r' : Run σ} {n : Nat} (h : r.Leads n r') : n + r'.cost ≤ r.cost := by
  induction h with
  | here => omega
  | step _ hstep ih =>
    have hone := cost_step hstep
    omega

/-! ## 4. The steps of a call -/

/-- A call has the result of its run, and leaves the look-ahead where it does. -/
theorem next_of_run (s : Scan σ) :
    s.next.2 = (run s.opening).2 ∧ s.next.1.ahead = (run s.opening).1.ahead := by
  unfold Scan.next
  cases run s.opening with
  | mk scan result => cases result <;> exact ⟨rfl, rfl⟩

/-- The last step of a run consumes nothing. -/
theorem rest_of_ends {r : Run σ} {scan : Scan σ} {result : Except Failure Token}
    (h : r.step = .ends scan result) : scan.ahead.rest = r.scan.ahead.rest := by
  have hways := step_ways r
  rw [h] at hways
  cases hways with
  | gives => rfl
  | fails f hrest => exact hrest

/-- What a call consumes comes before what is still to come. -/
theorem rest_next (s : Scan σ) :
    ∃ consumed, s.ahead.rest = consumed ++ s.next.1.ahead.rest := by
  obtain ⟨n, last, hleads, hend⟩ := run_ends s.opening
  obtain ⟨consumed, hrest⟩ := hleads.rest
  refine ⟨consumed, ?_⟩
  rw [(next_of_run s).2, rest_of_ends hend]
  exact hrest

/-- The steps of a call are paid for by what it consumes, one more than these at most. -/
theorem visits_paid (s : Scan σ) :
    ∃ last : Run σ, last.step = .ends (run s.opening).1 (run s.opening).2 ∧
      last.scan.ahead.rest = s.next.1.ahead.rest ∧
      s.opening.visits.length + last.cost ≤ 2 * s.ahead.rest.length + 1 := by
  obtain ⟨n, last, hleads, hend⟩ := run_ends s.opening
  have hrest : last.scan.ahead.rest = s.next.1.ahead.rest := by
    rw [(next_of_run s).2, rest_of_ends hend]
  refine ⟨last, hend, hrest, ?_⟩
  have hcost := hleads.cost_le
  have hbegin : s.opening.cost = 2 * s.ahead.rest.length := cost_of_start rfl
  rw [hleads.length_visits hend]
  omega

theorem length_visits_le (s : Scan σ) :
    s.opening.visits.length + 2 * s.next.1.ahead.rest.length ≤ 2 * s.ahead.rest.length + 1 := by
  obtain ⟨last, -, hrest, hpaid⟩ := visits_paid s
  have hlast : 2 * last.scan.ahead.rest.length ≤ last.cost := Nat.le_add_right _ _
  rw [← hrest]
  omega

/-- A call that gives a token other than the end token makes one step less: what comes before its
    last step has been paid for twice over. -/
theorem length_visits_lt {s s' : Scan σ} {t : Token} (h : s.next = (s', .ok t))
    (hkind : t.kind ≠ .eof) :
    s.opening.visits.length + 2 * s'.ahead.rest.length ≤ 2 * s.ahead.rest.length := by
  obtain ⟨last, hend, hrest, hpaid⟩ := visits_paid s
  have hresult : (run s.opening).2 = .ok t := by
    rw [← (next_of_run s).1, h]
  rw [hresult] at hend
  have haway : last.state ≠ .start := fun hhome => hkind ((Run.step_ends_ok hend).2 hhome)
  rw [cost_of_away haway, hrest, h] at hpaid
  dsimp only at hpaid
  omega

/-! ## 5. The steps of a whole scan -/

/-- **A whole scan makes at most two steps for each character, and one more.** -/
theorem length_trace_le (s : Scan σ) : s.trace.length ≤ 2 * s.ahead.rest.length + 1 := by
  have hcall := length_visits_le s
  fun_induction Scan.trace s with
  | case1 s s' f hnext => omega
  | case2 s s' t hnext hend => omega
  | case3 s s' t hnext hother ih =>
    have hone := length_visits_lt hnext hother
    have hlater := ih (length_visits_le s')
    rw [List.length_append]
    omega

theorem visits_tokens (r : Run σ) :
    r.visits.filterMap Visit.token = (run r).2.toOption.toList := by
  fun_induction run r with
  | case1 r scan result hstep =>
    rw [visits_of_ends hstep]
    cases result <;> rfl
  | case2 r r' hstep ih =>
    rw [visits_of_goes hstep, List.filterMap_cons_none rfl]
    exact ih

/-- The tokens among the steps of a whole scan are those that are taken from it. -/
theorem trace_tokens (s : Scan σ) : s.trace.filterMap Visit.token = s.drain.tokens := by
  have hgiven {s s' : Scan σ} {result : Except Failure Token} (hnext : s.next = (s', result)) :
      s.opening.visits.filterMap Visit.token = result.toOption.toList := by
    rw [visits_tokens, ← (next_of_run s).1, hnext]
  fun_induction Scan.trace s with
  | case1 s s' f hnext =>
    rw [hgiven hnext, drain_of_failure hnext]
    rfl
  | case2 s s' t hnext hend =>
    rw [hgiven hnext, drain_of_end hnext hend]
    rfl
  | case3 s s' t hnext hother ih =>
    rw [List.filterMap_append, hgiven hnext, ih, drain_of_token hnext hother]
    rfl

section Trace

variable {s s' : Scan σ} {t : Token}

theorem trace_of_end (h : s.next = (s', .ok t)) (hkind : t.kind = .eof) :
    s.trace = s.opening.visits := by
  fun_cases Scan.trace s with
  | case1 => rfl
  | case2 => rfl
  | case3 s₁ t₁ hnext hother =>
    rw [h] at hnext
    cases hnext
    exact absurd hkind hother

theorem trace_of_token (h : s.next = (s', .ok t)) (hkind : t.kind ≠ .eof) :
    s.trace = s.opening.visits ++ s'.trace := by
  fun_cases Scan.trace s with
  | case1 s₁ f hnext =>
    rw [h] at hnext
    cases hnext
  | case2 s₁ t₁ hnext hend =>
    rw [h] at hnext
    cases hnext
    exact absurd hend hkind
  | case3 s₁ t₁ hnext hother =>
    rw [h] at hnext
    cases hnext
    rfl

end Trace

/-! ## 6. Zeros -/

/-- At the end a call is one step. -/
theorem call_atEnd {s : Scan σ} {place : Place} (h : s.ahead.At [] place)
    (hplace : place.Counted) :
    s.opening.visits.length = 1 ∧ ∃ s' t, s.next = (s', .ok t) ∧ t.kind = .eof := by
  have hcurrent : s.ahead.current = none := h.current
  obtain ⟨t, htoken, -, hkind, -⟩ := endAt_ok hplace
  have hend : s.endToken = .ok t := by
    rw [← htoken, ← h.place]
    rfl
  have hnext := next_atEnd hcurrent
  rw [hend] at hnext
  rw [visits_of_ends (step_opening_atEnd hcurrent)]
  exact ⟨rfl, _, t, hnext, hkind⟩

/-- A zero is a token by itself, in two steps. -/
theorem call_zero {s : Scan σ} {text : List Char} {place : Place}
    (h : s.ahead.At ('0' :: text) place) (hplace : place.Counted) :
    s.opening.visits.length = 2 ∧ ∃ s' t, s.next = (s', .ok t) ∧ t.kind ≠ .eof ∧
      s'.ahead.At text (place.after '0') := by
  have hcurrent : s.ahead.current = some '0' := h.current
  have hbegin : s.opening.step = .goes ⟨.zero, ⟨s.ahead.place, "0"⟩, s.past ['0']⟩ := by
    show s.opening.perform (move .start s.ahead.current) = _
    rw [hcurrent]
    exact Run.consume_eq (r := ⟨.start, ⟨s.ahead.place, "0"⟩, s⟩) h .zero
  have hfinish : (⟨.zero, ⟨s.ahead.place, "0"⟩, s.past ['0']⟩ : Run σ).step =
      .ends (s.past ['0']) ((⟨s.ahead.place, "0"⟩ : Lexeme).token .number) := rfl
  have hcounted : s.ahead.place.Counted := h.place ▸ hplace
  have hclass : classify .number "0" = .ok (.number, some "0") := rfl
  obtain ⟨t, htoken, -, hkind, -⟩ := token_of_classify (l := ⟨s.ahead.place, "0"⟩) hcounted hclass
  have hrun : run s.opening = (s.past ['0'], .ok t) := by
    rw [run_of_goes hbegin, run_of_ends hfinish, htoken]
  have hnext : s.next =
      ({ s.past ['0'] with observer := Observer.heard t (s.past ['0']).observer }, .ok t) := by
    unfold Scan.next
    rw [hrun]
  rw [visits_of_goes hbegin, visits_of_ends hfinish]
  exact ⟨rfl, _, t, hnext, by rw [hkind]; decide, h.advance⟩

/-- **A text of zeros takes as many steps as there may be**: each zero is consumed by one step and
    given as a token by the next one. -/
theorem length_trace_zeros (n : Nat) {s : Scan σ} {place : Place}
    (h : s.ahead.At (List.replicate n '0') place) (hplace : place.Counted) :
    s.trace.length = 2 * n + 1 := by
  induction n generalizing s place with
  | zero =>
    obtain ⟨hvisits, s', t, hnext, hkind⟩ := call_atEnd h hplace
    rw [trace_of_end hnext hkind, hvisits]
  | succ n ih =>
    obtain ⟨hvisits, s', t, hnext, hkind, hlater⟩ := call_zero h hplace
    rw [trace_of_token hnext hkind, List.length_append, hvisits, ih hlater (hplace.after '0')]
    omega

/-! ## 7. Every scan of a text -/

/-- The scans that calls, renamings and changes of the sink make of a scan over a reader, whatever
    the sinks refuse. -/
inductive Reachable (options : Options) (reader : Reader) : Scan σ → Prop where
  | opened (sink : σ) : Reachable options reader (opened options reader sink)
  | called {s : Scan σ} : Reachable options reader s → Reachable options reader s.next.1
  | renamed {s : Scan σ} (file : String) : Reachable options reader s →
      Reachable options reader { s with file }
  | redirected {s : Scan σ} (observer : σ) : Reachable options reader s →
      Reachable options reader { s with observer }

/-- Wherever a scan is that was opened at a counted line, what is still to come has tokens. -/
theorem Reachable.tokens {options : Options} {reader : Reader} (hreader : reader.Reliable)
    (hline : 1 ≤ options.line) {s : Scan σ} (h : Reachable options reader s) :
    ∃ text place, s.ahead.At text place ∧
      ∀ outcome ∈ outcomes text place, ∃ t, outcome = .ok t := by
  induction h with
  | opened sink =>
    exact ⟨_, _, at_opened hreader options sink, outcomes_ok _ ⟨hline, Int.le_refl 1⟩⟩
  | renamed | redirected => assumption
  | @called s _ ih =>
    obtain ⟨text, place, hat, hok⟩ := ih
    obtain ⟨log, text', place', hpass, hend⟩ := next_spec hat
    exact ⟨text', place', hpass.at', hend.tokens_to_come hok⟩

theorem Reachable.ready {options : Options} {reader : Reader} (hreader : reader.Reliable)
    (hline : 1 ≤ options.line) {s : Scan σ} (h : Reachable options reader s)
    (hsink : Willing s.observer) : ∃ text place, Ready s text place := by
  obtain ⟨text, place, hat, hok⟩ := h.tokens hreader hline
  exact ⟨text, place, hsink, hat, hok⟩

/-- **A call for a token ends, after a bounded number of steps.** Of any scan at all:

    * the steps of a call lead to a last one, which has the result of the call;
    * each of them gives a token or fails, consumes exactly one character, or goes back to the
      beginning of a token and consumes nothing;
    * right before one that goes back there is one that consumed, so that no two that go back have
      the same one before them;
    * hence a call makes at most two steps for each character that it consumes, and one more; and a
      whole scan makes at most two for each character that is still to come, and one more.

    From a counted line on, over a reader that does not fail, a call gives a token if the sink
    refuses nothing, wherever calls and changes of the name and of the sink have led to, and a whole
    scan ends with the end token. So the whole scan of a text makes at most two steps for each of
    its characters, and one more; and it makes as many if they are zeros. -/
theorem steps_bounded :
    (∀ s : Scan σ,
      (∃ n last, s.opening.Leads n last ∧ s.opening.visits.length = n + 1 ∧
        ∃ scan, last.step = .ends scan s.next.2) ∧
      (∀ n r, s.opening.Leads n r → r.step.Ways r) ∧
      (∀ n r r', s.opening.Leads n r → r.step = .goes r' → r.Returns r' →
        ∃ m before, n = m + 1 ∧ s.opening.Leads m before ∧ before.step = .goes r ∧
          before.Consumes r) ∧
      (∃ consumed, s.ahead.rest = consumed ++ s.next.1.ahead.rest ∧
        s.opening.visits.length ≤ 2 * consumed.length + 1) ∧
      s.trace.length ≤ 2 * s.ahead.rest.length + 1 ∧
      s.trace.filterMap Visit.token = s.drain.tokens) ∧
    ∀ options : Options, 1 ≤ options.line →
      (∀ reader : Reader, reader.Reliable → ∀ s : Scan σ, Reachable options reader s →
        Willing s.observer → (∃ t, s.next.2 = .ok t) ∧ s.drain.failure = none) ∧
      (∀ (text : List Char) (sink : σ),
        (openText options text sink).trace.length ≤ 2 * text.length + 1) ∧
      ∀ (n : Nat) (sink : σ),
        (openText options (List.replicate n '0') sink).trace.length = 2 * n + 1 := by
  refine ⟨fun s => ⟨?_, fun n r _ => step_ways r, ?_, ?_, length_trace_le s, trace_tokens s⟩,
    fun options hline => ⟨?_, ?_, ?_⟩⟩
  · obtain ⟨n, last, hleads, hend⟩ := run_ends s.opening
    rw [← (next_of_run s).1] at hend
    exact ⟨n, last, hleads, hleads.length_visits hend, _, hend⟩
  · intro n r r' hleads _ hreturns
    exact hleads.paid rfl hreturns.away
  · obtain ⟨consumed, hrest⟩ := rest_next s
    have hsteps := length_visits_le s
    refine ⟨consumed, hrest, ?_⟩
    rw [hrest, List.length_append] at hsteps
    omega
  · intro reader hreader s hreachable hsink
    obtain ⟨text, place, hready⟩ := hreachable.ready hreader hline hsink
    exact ⟨hready.next.1, hready.drain⟩
  · intro text sink
    have hsteps := length_trace_le (openText options text sink)
    rwa [(at_openText options text sink).rest] at hsteps
  · intro n sink
    exact length_trace_zeros n (at_openText options _ sink) ⟨hline, Int.le_refl 1⟩

/-- A slash before a zero, of which the step that goes back is paid for by the slash; and the call
    after it, under another name and with another sink. -/
theorem steps_bounded_lone_slash :
    let options : Options := { line := 3 }
    let first : Scan Collector := opened options (.ofText ['/', '0']) {}
    let later : Scan Collector := { first.next.1 with file := "b", observer := { limit := 0 } }
    (1 : Int) ≤ options.line ∧ (Reader.ofText ['/', '0']).Reliable ∧
      Reachable options (.ofText ['/', '0']) later ∧ Willing later.observer ∧
      (∃ t, later.next.2 = .ok t) ∧
      (∃ r r', first.opening.Leads 1 r ∧ r.step = .goes r' ∧ r.Returns r' ∧
        first.opening.step = .goes r ∧ first.opening.Consumes r) ∧
      first.trace.length ≤ 5 ∧
      (openText options (List.replicate 2 '0') ({} : Collector)).trace.length = 5 := by
  intro options first later
  have hline : (1 : Int) ≤ options.line := by decide
  have hreliable := Reader.reliable_ofText ['/', '0']
  have hreachable : Reachable options (.ofText ['/', '0']) later :=
    .redirected ({ limit := 0 } : Collector) (.renamed "b" (.called (.opened {})))
  have hwilling : Willing later.observer := fun log y hlog => hlog.collector.1
  obtain ⟨hany, hsound⟩ := steps_bounded (σ := Collector)
  obtain ⟨hgives, htotal, hzeros⟩ := hsound options hline
  obtain ⟨-, -, hcharged, -, -, -⟩ := hany first
  obtain ⟨htoken, -⟩ := hgives _ hreliable later hreachable hwilling
  let r : Run Collector := ⟨.slash, first.opening.lexeme, first.past ['/']⟩
  let complaint : Diagnostic := ⟨.malformedComment (some "0"), some ⟨options.file, ⟨3, 2⟩⟩⟩
  let r' : Run Collector :=
    ⟨.start, r.lexeme, { r.scan with observer := (Observer.offer complaint r.scan.observer).1 }⟩
  have hslash : first.opening.step = .goes r := rfl
  have hback : r.step = .goes r' := rfl
  have hreturns : r.Returns r' := ⟨rfl, by decide, rfl⟩
  obtain ⟨m, before, hone, hleads, hstep, hconsumes⟩ :=
    hcharged 1 r r' (.step (.here _) hslash) hback hreturns
  obtain rfl : m = 0 := by omega
  cases hleads
  exact ⟨hline, hreliable, hreachable, hwilling, htoken,
    ⟨r, r', .step (.here _) hslash, hback, hreturns, hstep, hconsumes⟩, htotal ['/', '0'] {},
    hzeros 2 {}⟩

end YaslLexis.Machine
