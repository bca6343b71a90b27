import YaslLexis.Proofs.Calls

/-!
# Sinks with a record

Any observer can be given a record of what it is offered and how it answers. The record changes
nothing: a scan with it does, call by call, what the scan without it does.

* `Logged` -- an observer with a record;
* `Observed.log_eq` -- the record is what was offered;
* `step_forget`, `run_forget` -- forgetting the record commutes with steps and runs;
* **`next_forget`** -- and so it does with calls for a token.
-/

namespace YaslLexis.Machine

variable {σ : Type}

/-- An observer with a record of its offers. -/
structure Logged (σ : Type) where
  sink : σ
  log : List Offer

instance [Observer σ] : Observer (Logged σ) where
  offer d x :=
    let answer := Observer.offer d x.sink
    (⟨answer.1, x.log ++ [⟨d, answer.2⟩]⟩, answer.2)
  heard t x := { x with sink := Observer.heard t x.sink }

/-- What was offered is added to the record. -/
theorem Observed.log_eq [Observer σ] {x y : Logged σ} {log : List Offer} (h : Observed x log y) :
    y.log = x.log ++ log := by
  induction h with
  | rest => rw [List.append_nil]
  | offered hoffer _ ih =>
    cases hoffer
    rw [ih, List.append_assoc]
    rfl
  | heard _ ih => exact ih

/-! ## Forgetting the record -/

/-- The scan without the record. -/
def Scan.forget (s : Scan (Logged σ)) : Scan σ := { s with observer := s.observer.sink }

/-- The run without the record. -/
def Run.forget (r : Run (Logged σ)) : Run σ := { r with scan := r.scan.forget }

/-- What comes of a step, without the record. -/
def Turn.forget : Turn (Logged σ) → Turn σ
  | .goes r => .goes r.forget
  | .ends s result => .ends s.forget result

namespace Run

theorem consume_forget (r : Run (Logged σ)) (next : State) :
    r.forget.consume next = (r.consume next).forget := by
  unfold consume
  have hahead : r.forget.scan.ahead = r.scan.ahead := rfl
  rw [hahead]
  split <;> rfl

variable [Observer σ]

theorem reporting_forget (r : Run (Logged σ)) (complaint : Complaint)
    (go : Run σ → Turn σ) (go' : Run (Logged σ) → Turn (Logged σ))
    (h : ∀ r', go r'.forget = (go' r').forget) :
    r.forget.reporting complaint go = (r.reporting complaint go').forget := by
  have hreport : r.forget.scan.report complaint =
      ((r.scan.report complaint).1.forget, (r.scan.report complaint).2) := rfl
  unfold reporting
  rw [hreport]
  cases hr : r.scan.report complaint with
  | mk scan answer =>
    cases answer with
    | none => exact h { r with scan }
    | some f => rfl

theorem perform_forget (r : Run (Logged σ)) (m : Move) :
    r.forget.perform m = (r.perform m).forget := by
  cases m with
  | begin c next =>
    exact consume_forget { r with lexeme := ⟨r.scan.ahead.place, r.lexeme.text.push c⟩ } next
  | keep c next =>
    exact consume_forget { r with lexeme := { r.lexeme with text := r.lexeme.text.push c } } next
  | drop next => exact consume_forget r next
  | reject c =>
    exact reporting_forget r _ (·.consume .start) (·.consume .start) fun r' =>
      consume_forget r' .start
  | complain complaint => exact reporting_forget r complaint again again fun _ => rfl
  | turn | finish | stop => rfl

theorem step_forget (r : Run (Logged σ)) : r.forget.step = r.step.forget :=
  perform_forget r (move r.state r.scan.ahead.current)

end Run

section Calls

variable [Observer σ]

theorem run_forget (r : Run (Logged σ)) : run r.forget = ((run r).1.forget, (run r).2) := by
  fun_induction run r with
  | case1 r scan result hstep => exact run_of_ends (by rw [Run.step_forget, hstep]; rfl)
  | case2 r r' hstep ih =>
    rw [← ih]
    exact run_of_goes (by rw [Run.step_forget, hstep]; rfl)

/-- **A record changes nothing**: without it, a call does the same and has the same result. -/
theorem next_forget (s : Scan (Logged σ)) : s.forget.next = (s.next.1.forget, s.next.2) := by
  have hrun : run s.forget.opening = ((run s.opening).1.forget, (run s.opening).2) :=
    run_forget s.opening
  unfold Scan.next
  rw [hrun]
  cases run s.opening with
  | mk scan result => cases result <;> rfl

end Calls

end YaslLexis.Machine
