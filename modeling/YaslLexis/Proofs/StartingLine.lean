import YaslLexis.Proofs.Asking
import YaslLexis.Proofs.Spelling

/-!
# The number of the first line

Nothing that a scan does depends on the number at which its lines begin, but that a token must not
stand on a line below one. Two scans of the same reader go on in step, the lines of one shifted
against those of the other; where the token of the first stands too low for the second, the second
fails instead, at the same point of the text.

* `Place.shift` and its like -- lines shifted by a number;
* `Scan.Shifted`, `Run.Shifted`, `Turn.Shifted` -- two scans in step;
* `Run.step_shifted`, `run_shifted`, `Scan.Shifted.next` -- a step, a run and a call keep them so;
* **`answers_shifted`** -- the calls of a scan from any line on, against those from line one on.
-/

namespace YaslLexis

/-! ## 1. Shifted lines -/

/-- The place with its line shifted. -/
def Place.shift (δ : Int) (p : Place) : Place := ⟨p.line + δ, p.column⟩

/-- The look-ahead with its line shifted. -/
def LookAhead.shift (δ : Int) (s : LookAhead) : LookAhead := { s with place := s.place.shift δ }

/-- The diagnostic with its line shifted. -/
def Diagnostic.shift (δ : Int) (d : Diagnostic) : Diagnostic :=
  { d with location := d.location.map fun l => { l with place := l.place.shift δ } }

/-- The offer of the diagnostic with its line shifted. -/
def Machine.Offer.shift (δ : Int) (o : Offer) : Offer :=
  { o with diagnostic := o.diagnostic.shift δ }

/-- The token with its line shifted, unless the line is too low for a token. -/
def Token.shift (δ : Int) (t : Token) : Except Failure Token :=
  (Token.make (t.place.shift δ) t.kind t.text).mapError .token

theorem Place.after_shift (δ : Int) (p : Place) (c : Char) :
    (p.shift δ).after c = (p.after c).shift δ := by
  by_cases hc : c = '\n'
  · subst hc
    have hline : p.line + δ + 1 = p.line + 1 + δ := by omega
    show Place.mk (p.line + δ + 1) 1 = Place.mk (p.line + 1 + δ) 1
    rw [hline]
  · rw [after_of_ne hc, after_of_ne hc]
    rfl

/-- Shifting lines does not matter to an advance. -/
theorem LookAhead.advance_shift (δ : Int) (s : LookAhead) :
    (s.shift δ).advance = (s.advance.1.shift δ, s.advance.2) := by
  unfold advance
  have hcurrent : (s.shift δ).current = s.current := rfl
  have hreader : (s.shift δ).reader = s.reader := rfl
  rw [hcurrent, hreader]
  cases s.current with
  | none => rfl
  | some c =>
    have hplace : (s.shift δ).place.after c = (s.place.after c).shift δ :=
      Place.after_shift δ s.place c
    dsimp only
    rw [hplace]
    cases s.reader.read with
    | mk outcome reader => cases outcome <;> rfl

/-- An advance leaves counted places counted. -/
theorem LookAhead.counted_advance {s : LookAhead} (h : s.place.Counted) :
    s.advance.1.place.Counted := by
  cases hcurrent : s.current with
  | none =>
    rw [advance_atEnd hcurrent]
    exact h
  | some c =>
    rw [place_advance hcurrent]
    exact h.after c

/-- A token whose line is still counted is only shifted. -/
theorem Token.shift_of_counted {δ : Int} {t : Token} (h : 1 ≤ t.place.line + δ) :
    ∃ t', t.shift δ = .ok t' ∧ t'.place = t.place.shift δ ∧ t'.content = t.content := by
  have hcounted : (t.place.shift δ).Counted := ⟨h, t.counted.2⟩
  unfold Token.shift
  rw [Token.make_eq_ok hcounted t.text_isSome]
  exact ⟨_, rfl, rfl, rfl⟩

/-- A token whose line would be too low is refused for its place. -/
theorem Token.shift_of_low {δ : Int} {t : Token} (h : t.place.line + δ < 1) :
    t.shift δ = .error (.token (.misplaced (t.place.shift δ))) := by
  have hnot : ¬ (t.place.shift δ).Counted := fun hcounted => absurd hcounted.1 (Int.not_le.2 h)
  unfold Token.shift Token.make
  rw [dif_neg hnot]
  rfl

namespace Machine

open Report

variable {σ : Type} [Observer σ]

/-! ## 2. Two scans in step -/

/-- The second scan is the first with its lines shifted, and neither sink refuses anything. -/
structure Scan.Shifted (δ : Int) (s s' : Scan (Logged σ)) : Prop where
  ahead : s'.ahead = s.ahead.shift δ
  file : s'.file = s.file
  log : s'.observer.log = s.observer.log.map (Offer.shift δ)
  willing : Willing s.observer
  willing' : Willing s'.observer
  counted : s.ahead.place.Counted

/-- The second run is the first with its lines shifted. -/
structure Run.Shifted (δ : Int) (r r' : Run (Logged σ)) : Prop where
  state : r'.state = r.state
  text : r'.lexeme.text = r.lexeme.text
  place : r'.lexeme.place = r.lexeme.place.shift δ
  counted : r.lexeme.place.Counted
  scan : r.scan.Shifted δ r'.scan

/-- Both go on in step, or both end in step, the second with the token of the first, shifted. -/
inductive Turn.Shifted (δ : Int) : Turn (Logged σ) → Turn (Logged σ) → Prop where
  | goes {r r' : Run (Logged σ)} : r.Shifted δ r' → Turn.Shifted δ (.goes r) (.goes r')
  | ends {s s' : Scan (Logged σ)} {result result' : Except Failure Token} : s.Shifted δ s' →
      result' = result.bind (Token.shift δ) → Turn.Shifted δ (.ends s result) (.ends s' result')

/-- The token of a shifted lexeme is the shifted token. -/
theorem Lexeme.token_shift {l l' : Lexeme} {δ : Int} (htext : l'.text = l.text)
    (hplace : l'.place = l.place.shift δ) (hcounted : l.place.Counted) (sort : LexemeClass) :
    l'.token sort = (l.token sort).bind (Token.shift δ) := by
  unfold Lexeme.token
  rw [htext, hplace]
  cases hclass : classify sort l.text with
  | error f => rfl
  | ok r =>
    obtain ⟨kind, text⟩ := r
    dsimp only
    rw [Token.make_eq_ok hcounted (classify_spec hclass).1]
    rfl

theorem Scan.Shifted.endToken {δ : Int} {s s' : Scan (Logged σ)} (h : s.Shifted δ s') :
    s'.endToken = s.endToken.bind (Token.shift δ) := by
  unfold Scan.endToken
  rw [h.ahead, Token.make_eq_ok h.counted (show (none : Option String).isSome = _ from rfl)]
  rfl

/-- Both take a complaint, at shifted places. -/
theorem Scan.Shifted.report {δ : Int} {s s' : Scan (Logged σ)} (h : s.Shifted δ s')
    (complaint : Complaint) :
    ∃ u u', s.report complaint = (u, none) ∧ s'.report complaint = (u', none) ∧
      u.Shifted δ u' := by
  obtain ⟨y, hoffer, hy⟩ :=
    h.willing.offer ⟨complaint, some ⟨s.file, s.ahead.place⟩⟩
  obtain ⟨y', hoffer', hy'⟩ :=
    h.willing'.offer ⟨complaint, some ⟨s'.file, s'.ahead.place⟩⟩
  have hlog := (Observed.offered hoffer (.rest y)).log_eq
  have hlog' := (Observed.offered hoffer' (.rest y')).log_eq
  refine ⟨{ s with observer := y }, { s' with observer := y' }, ?_, ?_,
    h.ahead, h.file, ?_, hy, hy', h.counted⟩
  · unfold Scan.report
    rw [hoffer]
  · unfold Scan.report
    rw [hoffer']
  · show y'.log = y.log.map (Offer.shift δ)
    rw [hlog, hlog', List.map_append, h.log, h.file, h.ahead]
    rfl

namespace Run

variable {δ : Int} {r r' : Run (Logged σ)}

theorem consume_shifted (h : r.Shifted δ r') (next : State) :
    Turn.Shifted δ (r.consume next) (r'.consume next) := by
  have hadvance := LookAhead.advance_shift δ r.scan.ahead
  rw [← h.scan.ahead] at hadvance
  have hcounted := LookAhead.counted_advance h.scan.counted
  unfold consume
  rw [hadvance]
  cases hanswer : r.scan.ahead.advance with
  | mk ahead failure =>
    rw [hanswer] at hcounted
    have hscan : Scan.Shifted δ { r.scan with ahead } { r'.scan with ahead := ahead.shift δ } :=
      ⟨rfl, h.scan.file, h.scan.log, h.scan.willing, h.scan.willing', hcounted⟩
    cases failure with
    | some f => exact .ends hscan rfl
    | none => exact .goes ⟨rfl, h.text, h.place, h.counted, hscan⟩

theorem again_shifted (h : r.Shifted δ r') : Turn.Shifted δ r.again r'.again :=
  .goes ⟨rfl, h.text, h.place, h.counted, h.scan⟩

theorem reporting_shifted (h : r.Shifted δ r') (complaint : Complaint)
    {go : Run (Logged σ) → Turn (Logged σ)}
    (hgo : ∀ u u' : Run (Logged σ), u.Shifted δ u' → Turn.Shifted δ (go u) (go u')) :
    Turn.Shifted δ (r.reporting complaint go) (r'.reporting complaint go) := by
  obtain ⟨u, u', hreport, hreport', hscan⟩ := h.scan.report complaint
  unfold reporting
  rw [hreport, hreport']
  exact hgo _ _ ⟨h.state, h.text, h.place, h.counted, hscan⟩

/-- Each move keeps the two in step. -/
theorem perform_shifted (h : r.Shifted δ r') (m : Move) :
    Turn.Shifted δ (r.perform m) (r'.perform m) := by
  have hplace : r'.scan.ahead.place = r.scan.ahead.place.shift δ :=
    congrArg LookAhead.place h.scan.ahead
  have htext (c : Char) : r'.lexeme.text.push c = r.lexeme.text.push c := by rw [h.text]
  cases m with
  | begin c next =>
    have hbegun : Run.Shifted δ { r with lexeme := ⟨r.scan.ahead.place, r.lexeme.text.push c⟩ }
        { r' with lexeme := ⟨r'.scan.ahead.place, r'.lexeme.text.push c⟩ } :=
      ⟨h.state, htext c, hplace, h.scan.counted, h.scan⟩
    exact consume_shifted hbegun next
  | keep c next =>
    have hkept : Run.Shifted δ { r with lexeme := { r.lexeme with text := r.lexeme.text.push c } }
        { r' with lexeme := { r'.lexeme with text := r'.lexeme.text.push c } } :=
      ⟨h.state, htext c, h.place, h.counted, h.scan⟩
    exact consume_shifted hkept next
  | drop next => exact consume_shifted h next
  | reject c =>
    exact reporting_shifted h (.illegalCharacter c.toString) fun u u' hu =>
      consume_shifted hu .start
  | complain complaint => exact reporting_shifted h complaint fun u u' hu => again_shifted hu
  | turn => exact again_shifted h
  | finish sort => exact .ends h.scan (Lexeme.token_shift h.text h.place h.counted sort)
  | stop => exact .ends h.scan h.scan.endToken

/-- **A step keeps two runs in step.** -/
theorem step_shifted (h : r.Shifted δ r') : Turn.Shifted δ r.step r'.step := by
  have hcurrent : r'.scan.ahead.current = r.scan.ahead.current := by
    rw [h.scan.ahead]
    rfl
  unfold step
  rw [h.state, hcurrent]
  exact perform_shifted h _

end Run

/-- **A run keeps them in step**, and gives the shifted token. -/
theorem run_shifted {δ : Int} {r r' : Run (Logged σ)} (h : r.Shifted δ r') :
    (run r).1.Shifted δ (run r').1 ∧ (run r').2 = (run r).2.bind (Token.shift δ) := by
  fun_induction run r generalizing r' with
  | case1 r scan result hstep =>
    have hturn := Run.step_shifted h
    rw [hstep] at hturn
    generalize hstep' : r'.step = turn' at hturn
    cases hturn with
    | ends hscan hresult =>
      rw [run_of_ends hstep']
      exact ⟨hscan, hresult⟩
  | case2 r r₁ hstep ih =>
    have hturn := Run.step_shifted h
    rw [hstep] at hturn
    generalize hstep' : r'.step = turn' at hturn
    cases hturn with
    | goes hrun =>
      rw [run_of_goes hstep']
      exact ih hrun

/-- **A call keeps them in step.** -/
theorem Scan.Shifted.next {δ : Int} {s s' : Scan (Logged σ)} (h : s.Shifted δ s') :
    s.next.1.Shifted δ s'.next.1 ∧ s'.next.2 = s.next.2.bind (Token.shift δ) := by
  have hplace : s'.ahead.place = s.ahead.place.shift δ := congrArg LookAhead.place h.ahead
  have hopening : s.opening.Shifted δ s'.opening := ⟨rfl, rfl, hplace, h.counted, h⟩
  obtain ⟨hscan, hresult⟩ := run_shifted hopening
  unfold Scan.next
  cases hrun : run s.opening with
  | mk u result =>
    cases hrun' : run s'.opening with
    | mk u' result' =>
      rw [hrun, hrun'] at hscan hresult
      obtain ⟨hahead, hfile, hlog, hwilling, hwilling', hcounted⟩ := hscan
      cases result with
      | error f =>
        obtain rfl : result' = .error f := hresult
        exact ⟨⟨hahead, hfile, hlog, hwilling, hwilling', hcounted⟩, rfl⟩
      | ok t =>
        obtain rfl : result' = t.shift δ := hresult
        -- both hear of their tokens, the second of none if its token is refused
        cases hshift : t.shift δ with
        | error f =>
          exact ⟨⟨hahead, hfile, hlog, hwilling.heard t, hwilling', hcounted⟩, hshift.symm⟩
        | ok t' =>
          exact ⟨⟨hahead, hfile, hlog, hwilling.heard t, hwilling'.heard t', hcounted⟩,
            hshift.symm⟩

/-! ## 3. Call after call -/

namespace Scan

namespace Shifted

variable {δ : Int} {s s' : Scan (Logged σ)}

theorem asked (h : s.Shifted δ s') (n : Nat) : (s.asked n).Shifted δ (s'.asked n) := by
  induction n with
  | zero => exact h
  | succ n ih => exact ih.next.1

theorem answer (h : s.Shifted δ s') (n : Nat) :
    s'.answer n = (s.answer n).bind (Token.shift δ) := (h.asked n).next.2

theorem offered_log (h : s.Shifted δ s') :
    offered s'.observer.log = (offered s.observer.log).map (Diagnostic.shift δ) := by
  unfold offered
  rw [h.log, List.map_map, List.map_map]
  rfl

theorem reported (h : s.Shifted δ s') (n : Nat) :
    s'.reported n = (s.reported n).map (Diagnostic.shift δ) := by
  unfold Scan.reported
  rw [(h.asked (n + 1)).offered_log, (h.asked n).offered_log, List.length_map, List.map_drop]

end Shifted

end Scan

/-! ## 4. Opening at any line -/

/-- Opened at another line, a reader is the same with its lines shifted. -/
theorem opened_shifted {reader : Reader} {sink : σ} (hsink : Willing sink) (options : Options) :
    (opened { options with line := 1 } reader (⟨sink, []⟩ : Logged σ)).Shifted (options.line - 1)
      (opened options reader ⟨sink, []⟩) := by
  have hline : options.line = 1 + (options.line - 1) := by omega
  have hplace : (⟨options.line, 1⟩ : Place) = (⟨1, 1⟩ : Place).shift (options.line - 1) := by
    show Place.mk options.line 1 = Place.mk (1 + (options.line - 1)) 1
    rw [← hline]
  refine ⟨?_, rfl, rfl, hsink.logged [], hsink.logged [], Int.le_refl 1, Int.le_refl 1⟩
  show LookAhead.mk _ _ _ = LookAhead.mk _ _ _
  rw [hplace]
  rfl

/-- **The calls of a scan from any line on**, against those from line one on, over a reader that
    does not fail and with a sink that refuses nothing:

    * the record of the offers changes nothing;
    * each call reports the same diagnostics, shifted, and leaves the look-ahead where the other
      call does, shifted, whether it fails or not;
    * from line one on every call gives a token; the call here gives the same token with its line
      shifted if that line is counted, and fails for the place of the token if it is not;
    * so no call fails from a counted line on, and from other lines on exactly those calls do whose
      tokens would stand on lines below one. -/
theorem answers_shifted {reader : Reader} (hreader : reader.Reliable) {sink : σ}
    (hsink : Willing sink) (options : Options) :
    ∃ first s : Scan (Logged σ),
      openReader { options with line := 1 } reader ⟨sink, []⟩ = .ok first ∧
      openReader options reader ⟨sink, []⟩ = .ok s ∧
      openReader options reader sink = .ok s.forget ∧
      ∀ n,
        s.forget.answer n = s.answer n ∧
        s.reported n = (first.reported n).map (Diagnostic.shift (options.line - 1)) ∧
        (s.asked (n + 1)).ahead = (first.asked (n + 1)).ahead.shift (options.line - 1) ∧
        ∃ t, first.answer n = .ok t ∧
          (1 ≤ t.place.line + (options.line - 1) → ∃ t', s.answer n = .ok t' ∧
            t'.place = ⟨t.place.line + (options.line - 1), t.place.column⟩ ∧
            t'.kind = t.kind ∧ t'.text = t.text) ∧
          (t.place.line + (options.line - 1) < 1 → ∃ f, s.answer n = .error f ∧
            f.family = .value ∧
            f.message = "token position must be 1-based, got " ++
              (toString (t.place.line + (options.line - 1)) ++ ":" ++ toString t.place.column)) ∧
          (1 ≤ options.line → ∃ t', s.answer n = .ok t') ∧
          ((∃ f, s.answer n = .error f) ↔ t.place.line + (options.line - 1) < 1) := by
  have hshifted : (opened { options with line := 1 } reader (⟨sink, []⟩ : Logged σ)).Shifted
      (options.line - 1) (opened options reader ⟨sink, []⟩) := opened_shifted hsink options
  have hready := ready_opened hreader (hsink.logged []) { options with line := 1 } (Int.le_refl 1)
  refine ⟨_, _, openReader_reliable hreader _ _, openReader_reliable hreader _ _,
    openReader_reliable hreader _ _, fun n => ?_⟩
  refine ⟨Scan.answer_forget _ n, hshifted.reported n, (hshifted.asked (n + 1)).ahead, ?_⟩
  obtain ⟨t, ht⟩ := hready.answer n
  have hcounted : 1 ≤ t.place.line := t.counted.1
  have hanswer : Scan.answer (opened options reader (⟨sink, []⟩ : Logged σ)) n =
      t.shift (options.line - 1) := by
    rw [hshifted.answer n, ht]
    rfl
  rw [hanswer]
  refine ⟨t, ht, fun h => ?_, fun h => ?_, fun hline => ?_, fun h => ?_, fun h => ?_⟩
  · obtain ⟨t', ht', hplace, hcontent⟩ := Token.shift_of_counted h
    obtain ⟨hkind, htext⟩ := Prod.mk.inj hcontent
    exact ⟨t', ht', hplace, hkind, htext⟩
  · exact ⟨_, Token.shift_of_low h, rfl, rfl⟩
  · have hlow : 1 ≤ t.place.line + (options.line - 1) := by omega
    obtain ⟨t', ht', -⟩ := Token.shift_of_counted hlow
    exact ⟨t', ht'⟩
  · obtain ⟨f, hf⟩ := h
    refine Int.not_le.1 fun hge => ?_
    obtain ⟨t', ht', -⟩ := Token.shift_of_counted hge
    rw [hf] at ht'
    cases ht'
  · exact ⟨_, Token.shift_of_low h⟩

/-- A scan from line zero on fails for the token on its first line. -/
theorem answers_shifted_zero :
    (Reader.ofText ['#', 'a', '\n', 'b']).Reliable ∧ Willing ({} : Collector) ∧
      ∃ s : Scan (Logged Collector),
        openReader { line := 0 } (Reader.ofText ['#', 'a', '\n', 'b']) ⟨{}, []⟩ = .ok s ∧
        (∃ f, s.answer 0 = .error f ∧
          f.message = "token position must be 1-based, got 0:2") ∧
        ∃ t, s.answer 1 = .ok t ∧ t.place = ⟨1, 1⟩ := by
  have hreader := Reader.reliable_ofText ['#', 'a', '\n', 'b']
  have hsink : Willing ({} : Collector) := fun log y hlog => hlog.collector.1
  obtain ⟨first, s, hfirst, hs, -, hcalls⟩ := answers_shifted hreader hsink { line := 0 }
  rw [openReader_reliable hreader] at hfirst
  obtain rfl := Except.ok.inj hfirst
  obtain ⟨-, -, -, t, ht, -, hfails, -⟩ := hcalls 0
  obtain ⟨-, -, -, u, hu, hgives, -⟩ := hcalls 1
  have hplace : (Scan.answer (opened { line := 1 } (Reader.ofText ['#', 'a', '\n', 'b'])
      (⟨{}, []⟩ : Logged Collector)) 0).toOption.map Token.place = some ⟨1, 2⟩ := by decide +kernel
  have hplace' : (Scan.answer (opened { line := 1 } (Reader.ofText ['#', 'a', '\n', 'b'])
      (⟨{}, []⟩ : Logged Collector)) 1).toOption.map Token.place = some ⟨2, 1⟩ := by decide +kernel
  rw [ht] at hplace
  rw [hu] at hplace'
  have ht' : t.place = ⟨1, 2⟩ := Option.some.inj hplace
  have hu' : u.place = ⟨2, 1⟩ := Option.some.inj hplace'
  rw [ht'] at hfails
  rw [hu'] at hgives
  obtain ⟨f, hf, -, hmessage⟩ := hfails (by decide)
  obtain ⟨u', hu'', hshifted, -⟩ := hgives (by decide)
  exact ⟨hreader, hsink, s, hs, ⟨f, hf, hmessage.trans (by decide +kernel)⟩, u', hu'', hshifted⟩

end Machine

end YaslLexis
