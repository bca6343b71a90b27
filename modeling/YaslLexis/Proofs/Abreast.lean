import YaslLexis.Proofs.Asking
import YaslLexis.Proofs.WholeScans

/-!
# Scans abreast

Two scans, each with a reader and a sink of its own, that show the automaton the same characters at
the same places and answer its reports alike. The automaton cannot tell them apart, so they give the
same results call after call.

* `kept_step`, `kept_run`, **`kept_next`** -- what every advance keeps of the look-ahead, a step, a
  run and a call keep;
* `Abreast` -- a relation of two scans that consuming a character, reporting and hearing of a token
  keep, with the same answers on both sides; `AbreastWithin` -- one that they keep up to some point;
* `AbreastWithin.step`, `AbreastWithin.run`, **`AbreastWithin.next`** -- a step, a run and a call
  that do not go beyond it keep the relation, with the same result;
* `AbreastWithin.asked`, `Abreast.answer`, `Abreast.drain` -- so do any number of calls and whole
  scans;
* `InStep`, `Agreeing`, `Beside`, `abreast_beside` -- scans are abreast if their look-aheads and
  their sinks are, each by themselves; `InStepWithin`, `within_beside` -- and as long as they are;
* `Alike` -- two scans with sinks of one kind that no number of calls tells apart.
-/

namespace YaslLexis.Machine

variable {σ τ : Type} [Observer σ] [Observer τ]

/-! ## 1. What happens to the look-ahead -/

/-- The scan that a turn leaves. -/
def Turn.scan : Turn σ → Scan σ
  | .goes r => r.scan
  | .ends s _ => s

omit [Observer σ] in
theorem Run.ahead_consume (r : Run σ) (next : State) :
    (r.consume next).scan.ahead = r.scan.ahead.advance.1 := by
  unfold Run.consume
  cases r.scan.ahead.advance with
  | mk ahead failure => cases failure <;> rfl

section Kept

variable {P : LookAhead → Prop} (h : ∀ a, P a → P a.advance.1)
include h

/-- What every advance keeps of the look-ahead, a step keeps. -/
theorem kept_step {r : Run σ} (hr : P r.scan.ahead) : P r.step.scan.ahead := by
  have hconsume (u : Run σ) (hu : P u.scan.ahead) (next : State) :
      P (u.consume next).scan.ahead := by
    rw [u.ahead_consume]
    exact h _ hu
  have hreport (complaint : Complaint) (go : Run σ → Turn σ)
      (hgo : ∀ u : Run σ, P u.scan.ahead → P (go u).scan.ahead) :
      P (r.reporting complaint go).scan.ahead := by
    unfold Run.reporting Scan.report
    dsimp only
    cases (Observer.offer ⟨complaint, some ⟨r.scan.file, r.scan.ahead.place⟩⟩
      r.scan.observer).2 with
    | some f => exact hr
    | none =>
      apply hgo
      exact hr
  unfold Run.step
  cases move r.state r.scan.ahead.current with
  | begin | keep | drop =>
    apply hconsume
    exact hr
  | reject c => exact hreport _ _ fun u hu => hconsume u hu .start
  | complain complaint => exact hreport _ _ fun u hu => hu
  | turn | finish | stop => exact hr

theorem kept_run {r : Run σ} (hr : P r.scan.ahead) : P (Machine.run r).1.ahead := by
  fun_induction Machine.run r with
  | case1 r scan result hstep =>
    have hone := kept_step h hr
    rwa [hstep] at hone
  | case2 r r' hstep ih =>
    have hone := kept_step h hr
    rw [hstep] at hone
    exact ih hone

/-- **What every advance keeps of the look-ahead, a call keeps**, whatever comes of it. -/
theorem kept_next {s : Scan σ} (hs : P s.ahead) : P s.next.1.ahead := by
  have hrun := kept_run h (r := s.opening) hs
  unfold Scan.next
  cases heq : Machine.run s.opening with
  | mk u result =>
    rw [heq] at hrun
    cases result <;> exact hrun

theorem kept_asked {s : Scan σ} (hs : P s.ahead) (n : Nat) : P (s.asked n).ahead := by
  induction n with
  | zero => exact hs
  | succ n ih => exact kept_next h ih

end Kept

section Before

variable {P : LookAhead → Prop} (h : ∀ a, P a.advance.1 → P a)
include h

/-- What holds after an advance only if it did before holds where a run begins. -/
theorem before_run {r : Run σ} (hr : P (Machine.run r).1.ahead) : P r.scan.ahead := by
  have hnever : ∀ a, ¬ P a → ¬ P a.advance.1 := fun a hnot hlater => hnot (h a hlater)
  exact Classical.byContradiction fun hnot => kept_run hnever hnot hr

theorem before_next {s : Scan σ} (hs : P s.next.1.ahead) : P s.ahead := by
  have hnever : ∀ a, ¬ P a → ¬ P a.advance.1 := fun a hnot hlater => hnot (h a hlater)
  exact Classical.byContradiction fun hnot => kept_next hnever hnot hs

end Before

/-! ## 2. What the automaton sees -/

/-- The relation keeps two scans abreast: the automaton sees the same in both, and whatever it does
    to them leaves them related. -/
structure Abreast (R : Scan σ → Scan τ → Prop) : Prop where
  current : ∀ {s s'}, R s s' → s'.ahead.current = s.ahead.current
  place : ∀ {s s'}, R s s' → s'.ahead.place = s.ahead.place
  advance : ∀ {s s'}, R s s' → s'.ahead.advance.2 = s.ahead.advance.2 ∧
    R { s with ahead := s.ahead.advance.1 } { s' with ahead := s'.ahead.advance.1 }
  report : ∀ {s s'}, R s s' → ∀ complaint, (s'.report complaint).2 = (s.report complaint).2 ∧
    R (s.report complaint).1 (s'.report complaint).1
  heard : ∀ {s s'}, R s s' → ∀ t, R { s with observer := Observer.heard t s.observer }
    { s' with observer := Observer.heard t s'.observer }

/-- The relation keeps two scans abreast as long as the look-ahead of the first is within bounds:
    where an advance leaves them there is nothing to be said, and none comes back. -/
structure AbreastWithin (G : LookAhead → Prop) (R : Scan σ → Scan τ → Prop) : Prop where
  back : ∀ a, G a.advance.1 → G a
  current : ∀ {s s'}, R s s' → s'.ahead.current = s.ahead.current
  place : ∀ {s s'}, R s s' → s'.ahead.place = s.ahead.place
  advance : ∀ {s s'}, R s s' → G s.ahead.advance.1 → s'.ahead.advance.2 = s.ahead.advance.2 ∧
    R { s with ahead := s.ahead.advance.1 } { s' with ahead := s'.ahead.advance.1 }
  report : ∀ {s s'}, R s s' → ∀ complaint, (s'.report complaint).2 = (s.report complaint).2 ∧
    R (s.report complaint).1 (s'.report complaint).1
  heard : ∀ {s s'}, R s s' → ∀ t, R { s with observer := Observer.heard t s.observer }
    { s' with observer := Observer.heard t s'.observer }

/-- Without bounds this is being abreast. -/
theorem abreast_iff {R : Scan σ → Scan τ → Prop} :
    Abreast R ↔ AbreastWithin (fun _ => True) R := by
  constructor
  · intro h
    exact ⟨fun _ _ => trivial, h.current, h.place, fun hs _ => h.advance hs, h.report, h.heard⟩
  · intro h
    exact ⟨h.current, h.place, fun hs => h.advance hs trivial, h.report, h.heard⟩

/-- Two runs in the same state, with the same lexeme under way. -/
structure Run.Paired (R : Scan σ → Scan τ → Prop) (r : Run σ) (r' : Run τ) : Prop where
  state : r'.state = r.state
  lexeme : r'.lexeme = r.lexeme
  scan : R r.scan r'.scan

/-- Both runs go on, or both end with the same result. -/
inductive Turn.Paired (R : Scan σ → Scan τ → Prop) : Turn σ → Turn τ → Prop where
  | goes {r : Run σ} {r' : Run τ} : r.Paired R r' → Turn.Paired R (.goes r) (.goes r')
  | ends {s : Scan σ} {s' : Scan τ} {result : Except Failure Token} : R s s' →
      Turn.Paired R (.ends s result) (.ends s' result)

namespace AbreastWithin

variable {G : LookAhead → Prop} {R : Scan σ → Scan τ → Prop} (h : AbreastWithin G R)
include h

/-! ## 3. A step and a run -/

theorem consume {r : Run σ} {r' : Run τ} (hr : r.Paired R r') (next : State)
    (hG : G (r.consume next).scan.ahead) : Turn.Paired R (r.consume next) (r'.consume next) := by
  rw [r.ahead_consume] at hG
  obtain ⟨hanswer, hscan⟩ := h.advance hr.scan hG
  unfold Run.consume
  cases hadvance : r.scan.ahead.advance with
  | mk ahead failure =>
    cases hadvance' : r'.scan.ahead.advance with
    | mk ahead' failure' =>
      rw [hadvance, hadvance'] at hanswer hscan
      obtain rfl : failure' = failure := hanswer
      cases failure' with
      | some f => exact .ends hscan
      | none => exact .goes ⟨rfl, hr.lexeme, hscan⟩

omit [Observer σ] [Observer τ] h in
theorem again {r : Run σ} {r' : Run τ} (hr : r.Paired R r') : Turn.Paired R r.again r'.again :=
  .goes ⟨rfl, hr.lexeme, hr.scan⟩

theorem reporting {r : Run σ} {r' : Run τ} (hr : r.Paired R r') (complaint : Complaint)
    {go : Run σ → Turn σ} {go' : Run τ → Turn τ}
    (hgo : ∀ u u', Run.Paired R u u' → G (go u).scan.ahead → Turn.Paired R (go u) (go' u'))
    (hG : G (r.reporting complaint go).scan.ahead) :
    Turn.Paired R (r.reporting complaint go) (r'.reporting complaint go') := by
  obtain ⟨hanswer, hscan⟩ := h.report hr.scan complaint
  unfold Run.reporting at hG ⊢
  cases hreport : r.scan.report complaint with
  | mk scan failure =>
    cases hreport' : r'.scan.report complaint with
    | mk scan' failure' =>
      rw [hreport, hreport'] at hanswer hscan
      rw [hreport] at hG
      obtain rfl : failure' = failure := hanswer
      cases failure' with
      | some f => exact .ends hscan
      | none => exact hgo _ _ ⟨hr.state, hr.lexeme, hscan⟩ hG

/-- Each move keeps the runs paired. -/
theorem perform {r : Run σ} {r' : Run τ} (hr : r.Paired R r') (m : Move)
    (hG : G (r.perform m).scan.ahead) : Turn.Paired R (r.perform m) (r'.perform m) := by
  have hplace : r'.scan.ahead.place = r.scan.ahead.place := h.place hr.scan
  cases m with
  | begin c next =>
    have hbegun : Run.Paired R { r with lexeme := ⟨r.scan.ahead.place, r.lexeme.text.push c⟩ }
        { r' with lexeme := ⟨r'.scan.ahead.place, r'.lexeme.text.push c⟩ } :=
      ⟨hr.state, by rw [hplace, hr.lexeme], hr.scan⟩
    exact h.consume hbegun next hG
  | keep c next =>
    have hkept : Run.Paired R { r with lexeme := { r.lexeme with text := r.lexeme.text.push c } }
        { r' with lexeme := { r'.lexeme with text := r'.lexeme.text.push c } } :=
      ⟨hr.state, by rw [hr.lexeme], hr.scan⟩
    exact h.consume hkept next hG
  | drop next => exact h.consume hr next hG
  | reject c =>
    exact h.reporting hr (.illegalCharacter c.toString) (fun u u' hu => h.consume hu .start) hG
  | complain complaint => exact h.reporting hr complaint (fun u u' hu _ => again hu) hG
  | turn => exact again hr
  | finish sort =>
    show Turn.Paired R (.ends r.scan (r.lexeme.token sort)) (.ends r'.scan (r'.lexeme.token sort))
    rw [hr.lexeme]
    exact .ends hr.scan
  | stop =>
    have hend : r'.scan.endToken = r.scan.endToken := by
      unfold Scan.endToken
      rw [hplace]
    show Turn.Paired R (.ends r.scan r.scan.endToken) (.ends r'.scan r'.scan.endToken)
    rw [hend]
    exact .ends hr.scan

/-- **A step keeps two runs paired**: the table is asked the same on both sides. -/
theorem step {r : Run σ} {r' : Run τ} (hr : r.Paired R r') (hG : G r.step.scan.ahead) :
    Turn.Paired R r.step r'.step := by
  unfold Run.step at hG ⊢
  rw [hr.state, h.current hr.scan]
  exact h.perform hr _ hG

/-- **A run keeps them so**, and has the same result on both sides. -/
theorem run {r : Run σ} {r' : Run τ} (hr : r.Paired R r') (hG : G (Machine.run r).1.ahead) :
    R (Machine.run r).1 (Machine.run r').1 ∧ (Machine.run r').2 = (Machine.run r).2 := by
  -- The induction is on the steps of the first run; the second is held to each of them.
  fun_induction Machine.run r generalizing r' with
  | case1 r scan result hstep =>
    have hturn := h.step hr
    rw [hstep] at hturn
    generalize hstep' : r'.step = turn' at hturn
    cases hturn hG with
    | ends hscan =>
      rw [run_of_ends hstep']
      exact ⟨hscan, rfl⟩
  | case2 r r₁ hstep ih =>
    have hturn := h.step hr
    rw [hstep] at hturn
    generalize hstep' : r'.step = turn' at hturn
    cases hturn (before_run h.back hG) with
    | goes hrun =>
      rw [run_of_goes hstep']
      exact ih hrun hG

/-! ## 4. Calls and whole scans -/

/-- **A call keeps two scans abreast** and has the same result on both sides. -/
theorem next {s : Scan σ} {s' : Scan τ} (hs : R s s') (hG : G s.next.1.ahead) :
    R s.next.1 s'.next.1 ∧ s'.next.2 = s.next.2 := by
  have hplace : s'.ahead.place = s.ahead.place := h.place hs
  have hopening : Run.Paired R s.opening s'.opening :=
    ⟨rfl, congrArg (Lexeme.mk · "") hplace, hs⟩
  have hrun := h.run hopening
  unfold Scan.next at hG ⊢
  cases heq : Machine.run s.opening with
  | mk u result =>
    rw [heq] at hG hrun
    cases heq' : Machine.run s'.opening with
    | mk u' result' =>
      rw [heq'] at hrun
      cases result with
      | error f =>
        obtain ⟨hscan, rfl⟩ := hrun hG
        exact ⟨hscan, rfl⟩
      | ok t =>
        obtain ⟨hscan, rfl⟩ := hrun hG
        exact ⟨h.heard hscan t, rfl⟩

/-- **So do any number of calls**, each with the same result. -/
theorem asked {s : Scan σ} {s' : Scan τ} (hs : R s s') (n : Nat) (hG : G (s.asked n).ahead) :
    R (s.asked n) (s'.asked n) ∧ ∀ i < n, s'.answer i = s.answer i := by
  induction n with
  | zero => exact ⟨hs, fun i hi => absurd hi (Nat.not_lt_zero i)⟩
  | succ n ih =>
    obtain ⟨hbefore, hsame⟩ := ih (before_next h.back hG)
    obtain ⟨hlater, hanswer⟩ := h.next hbefore hG
    refine ⟨hlater, fun i hi => ?_⟩
    rcases Nat.lt_succ_iff_lt_or_eq.1 hi with hi | rfl
    · exact hsame i hi
    · exact hanswer

end AbreastWithin

namespace Abreast

variable {R : Scan σ → Scan τ → Prop} (h : Abreast R)
include h

theorem next {s : Scan σ} {s' : Scan τ} (hs : R s s') :
    R s.next.1 s'.next.1 ∧ s'.next.2 = s.next.2 := (abreast_iff.1 h).next hs trivial

theorem asked {s : Scan σ} {s' : Scan τ} (hs : R s s') (n : Nat) : R (s.asked n) (s'.asked n) :=
  ((abreast_iff.1 h).asked hs n trivial).1

theorem answer {s : Scan σ} {s' : Scan τ} (hs : R s s') (n : Nat) : s'.answer n = s.answer n :=
  (h.next (h.asked hs n)).2

end Abreast

/-- **Whole scans abreast** have the same tokens and end alike. -/
theorem Abreast.drain {R : Scan σ → Scan τ → Prop} (h : Abreast R) {s : Scan σ} {s' : Scan τ}
    (hs : R s s') :
    s'.drain.tokens = s.drain.tokens ∧ s'.drain.failure = s.drain.failure ∧
      R s.drain.scan s'.drain.scan := by
  induction hn : s.ahead.remaining using Nat.strongRecOn generalizing s s' with
  | ind n ih =>
    obtain ⟨hscan, hsame⟩ := h.next hs
    cases hresult : s.next.2 with
    | error f =>
      have hcall : s.next = (s.next.1, .error f) := Prod.ext rfl hresult
      have hcall' : s'.next = (s'.next.1, .error f) := Prod.ext rfl (hsame.trans hresult)
      rw [drain_of_failure hcall, drain_of_failure hcall']
      exact ⟨rfl, rfl, hscan⟩
    | ok t =>
      have hcall : s.next = (s.next.1, .ok t) := Prod.ext rfl hresult
      have hcall' : s'.next = (s'.next.1, .ok t) := Prod.ext rfl (hsame.trans hresult)
      by_cases hend : t.kind = .eof
      · rw [drain_of_end hcall hend, drain_of_end hcall' hend]
        exact ⟨rfl, rfl, hscan⟩
      · have hless : s.next.1.ahead.remaining < n := hn ▸ remaining_next_lt hcall hend
        obtain ⟨htokens, hfailure, hlast⟩ := ih _ hless hscan rfl
        rw [drain_of_token hcall hend, drain_of_token hcall' hend]
        exact ⟨congrArg (t :: ·) htokens, hfailure, hlast⟩

/-! ## 5. Look-aheads and sinks by themselves -/

/-- The look-aheads show the same characters at the same places, advance after advance. -/
structure InStep (A : LookAhead → LookAhead → Prop) : Prop where
  current : ∀ {a a'}, A a a' → a'.current = a.current
  place : ∀ {a a'}, A a a' → a'.place = a.place
  advance : ∀ {a a'}, A a a' → a'.advance.2 = a.advance.2 ∧ A a.advance.1 a'.advance.1

/-- The look-aheads do so as long as the first is within bounds. -/
structure InStepWithin (G : LookAhead → Prop) (A : LookAhead → LookAhead → Prop) : Prop where
  back : ∀ a, G a.advance.1 → G a
  current : ∀ {a a'}, A a a' → a'.current = a.current
  place : ∀ {a a'}, A a a' → a'.place = a.place
  advance : ∀ {a a'}, A a a' → G a.advance.1 →
    a'.advance.2 = a.advance.2 ∧ A a.advance.1 a'.advance.1

/-- The sinks answer alike, offer after offer. -/
structure Agreeing (Q : σ → τ → Prop) : Prop where
  offer : ∀ {x y}, Q x y → ∀ d, (Observer.offer d y).2 = (Observer.offer d x).2 ∧
    Q (Observer.offer d x).1 (Observer.offer d y).1
  heard : ∀ {x y}, Q x y → ∀ t, Q (Observer.heard t x) (Observer.heard t y)

omit [Observer σ] [Observer τ] in
/-- The look-aheads and the sinks of two scans of one name are related. -/
structure Beside (A : LookAhead → LookAhead → Prop) (Q : σ → τ → Prop) (s : Scan σ) (s' : Scan τ) :
    Prop where
  ahead : A s.ahead s'.ahead
  file : s'.file = s.file
  observer : Q s.observer s'.observer

/-- **Scans are abreast if their look-aheads and their sinks are**, and as long as they are. -/
theorem within_beside {G : LookAhead → Prop} {A : LookAhead → LookAhead → Prop} {Q : σ → τ → Prop}
    (hA : InStepWithin G A) (hQ : Agreeing Q) : AbreastWithin G (Beside A Q) where
  back := hA.back
  current h := hA.current h.ahead
  place h := hA.place h.ahead
  advance h hG := by
    obtain ⟨hanswer, hahead⟩ := hA.advance h.ahead hG
    exact ⟨hanswer, hahead, h.file, h.observer⟩
  report {s s'} h complaint := by
    have hlocation : (⟨s'.file, s'.ahead.place⟩ : Location) = ⟨s.file, s.ahead.place⟩ := by
      rw [h.file, hA.place h.ahead]
    obtain ⟨hanswer, hobserver⟩ :=
      hQ.offer h.observer ⟨complaint, some ⟨s.file, s.ahead.place⟩⟩
    unfold Scan.report
    rw [hlocation]
    exact ⟨hanswer, h.ahead, h.file, hobserver⟩
  heard h t := ⟨h.ahead, h.file, hQ.heard h.observer t⟩

theorem abreast_beside {A : LookAhead → LookAhead → Prop} {Q : σ → τ → Prop} (hA : InStep A)
    (hQ : Agreeing Q) : Abreast (Beside A Q) := by
  have hwithin : InStepWithin (fun _ => True) A :=
    ⟨fun _ _ => trivial, hA.current, hA.place, fun h _ => hA.advance h⟩
  exact abreast_iff.2 (within_beside hwithin hQ)

theorem agreeing_eq : Agreeing (Eq : σ → σ → Prop) where
  offer h d := by rw [h]; exact ⟨rfl, rfl⟩
  heard h t := by rw [h]

/-! ## 6. Scans that calls do not tell apart -/

/-- No number of calls tells the two scans apart: the calls have the same results and leave the
    sinks in the same states and the look-aheads at the same characters and places; and so does
    taking all tokens. -/
structure Alike (s s' : Scan σ) : Prop where
  answer : ∀ n, s'.answer n = s.answer n
  observer : ∀ n, (s'.asked n).observer = (s.asked n).observer
  current : ∀ n, (s'.asked n).ahead.current = (s.asked n).ahead.current
  place : ∀ n, (s'.asked n).ahead.place = (s.asked n).ahead.place
  tokens : s'.drain.tokens = s.drain.tokens
  failure : s'.drain.failure = s.drain.failure
  drained : s'.drain.scan.observer = s.drain.scan.observer

theorem Abreast.alike {R : Scan σ → Scan σ → Prop} (h : Abreast R)
    (hobserver : ∀ {s s'}, R s s' → s'.observer = s.observer) {s s' : Scan σ} (hs : R s s') :
    Alike s s' where
  answer n := h.answer hs n
  observer n := hobserver (h.asked hs n)
  current n := h.current (h.asked hs n)
  place n := h.place (h.asked hs n)
  tokens := (h.drain hs).1
  failure := (h.drain hs).2.1
  drained := hobserver (h.drain hs).2.2

end YaslLexis.Machine
