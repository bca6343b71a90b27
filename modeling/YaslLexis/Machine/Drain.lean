import YaslLexis.Machine.Run

/-!
# Whole scans

`drain` takes tokens up to and including the first end token, or until one fails; what was taken
before a failure is kept. `trace` lists every step on the way: the state, the place looked at before
the step, and the token if the step gave one.
-/

namespace YaslLexis.Machine

variable {σ : Type} [Observer σ]

/-! ## 1. All tokens -/

/-- The tokens taken from a scan, and what it was left as. -/
structure Drained (σ : Type) where
  tokens : List Token
  failure : Option Failure
  scan : Scan σ

namespace Scan

/-- Takes the tokens through the first end token, unless one fails before. -/
def drain (s : Scan σ) : Drained σ :=
  match _h : s.next with
  | (s', .error f) => ⟨[], some f, s'⟩
  | (s', .ok t) =>
    if _other : t.kind = .eof then ⟨[t], none, s'⟩
    else
      let later := drain s'
      { later with tokens := t :: later.tokens }
termination_by s.ahead.remaining
decreasing_by exact remaining_next_lt _h _other

end Scan

/-! ## 2. All steps -/

/-- A step seen from outside. -/
structure Visit where
  state : State
  place : Place
  token : Option Token

namespace Run

/-- The steps of a run. -/
def visits (r : Run σ) : List Visit :=
  match _h : r.step with
  | .ends _ result => [⟨r.state, r.scan.ahead.place, result.toOption⟩]
  | .goes r' => ⟨r.state, r.scan.ahead.place, none⟩ :: visits r'
termination_by r.measure
decreasing_by exact measure_step _h

end Run

namespace Scan

/-- The steps of a whole scan. -/
def trace (s : Scan σ) : List Visit :=
  match _h : s.next with
  | (_, .error _) => s.opening.visits
  | (s', .ok t) =>
    if _other : t.kind = .eof then s.opening.visits else s.opening.visits ++ trace s'
termination_by s.ahead.remaining
decreasing_by exact remaining_next_lt _h _other

end Scan

end YaslLexis.Machine
