import YaslLexis.Machine.Drain
import YaslLexis.Proofs.Calls
import YaslLexis.Report.Lifetime

/-!
# Whole scans of a text in memory

A scan that is opened over a text, with a collector for the diagnostics, and drained.

* `openText` -- the scan that `Report.openReader` opens over a text (`openReader_ofText`);
* `collected` -- what draining it gives;
* **`collected_spec`** -- from a counted line on no call fails, the tokens are the outcomes of the
  text, and the collector holds exactly the diagnostics about the text; `collected_ends` -- the last
  token is the end token, and no other is.
-/

namespace YaslLexis.Machine

open Report

/-! ## 1. Opening and draining -/

/-- A scan over a text in memory. -/
def openText {σ : Type} (options : Options) (text : List Char) (observer : σ) : Scan σ :=
  ⟨LookAhead.ofText text options.line, options.file, observer⟩

theorem openReader_ofText {σ : Type} (options : Options) (text : List Char) (observer : σ) :
    openReader options (Reader.ofText text) observer = .ok (openText options text observer) := by
  unfold openReader
  rw [LookAhead.start_ofText]
  rfl

theorem at_openText {σ : Type} (options : Options) (text : List Char) (observer : σ) :
    (openText options text observer).ahead.At text ⟨options.line, 1⟩ :=
  LookAhead.at_ofText text options.line

/-- The whole scan of a text with a collector of its own. -/
def collected (options : Options) (text : List Char) : Drained Collector :=
  (openText options text ({ limit := options.limit } : Collector)).drain

/-- The diagnostics of a drained scan. -/
def Drained.diagnostics (d : Drained Collector) : List Diagnostic := d.scan.observer.kept.toList

/-! ## 2. Draining, call by call -/

section Drain

variable {σ : Type} [Observer σ] {s s' : Scan σ} {t : Token}

theorem drain_of_failure {f : Failure} (h : s.next = (s', .error f)) :
    s.drain = ⟨[], some f, s'⟩ := by
  fun_cases Scan.drain s with
  | case1 s₁ f₁ hnext =>
    rw [h] at hnext
    cases hnext
    rfl
  | case2 s₁ t₁ hnext | case3 s₁ t₁ hnext =>
    rw [h] at hnext
    cases hnext

theorem drain_of_end (h : s.next = (s', .ok t)) (hk : t.kind = .eof) :
    s.drain = ⟨[t], none, s'⟩ := by
  fun_cases Scan.drain s with
  | case1 s₁ f hnext =>
    rw [h] at hnext
    cases hnext
  | case2 s₁ t₁ hnext =>
    rw [h] at hnext
    cases hnext
    rfl
  | case3 s₁ t₁ hnext hother =>
    rw [h] at hnext
    cases hnext
    exact absurd hk hother

theorem drain_of_token (h : s.next = (s', .ok t)) (hk : t.kind ≠ .eof) :
    s.drain = { s'.drain with tokens := t :: s'.drain.tokens } := by
  fun_cases Scan.drain s with
  | case1 s₁ f hnext =>
    rw [h] at hnext
    cases hnext
  | case2 s₁ t₁ hnext hend =>
    rw [h] at hnext
    cases hnext
    exact absurd hend hk
  | case3 s₁ t₁ hnext =>
    rw [h] at hnext
    cases hnext
    rfl

end Drain

/-! ## 3. Collectors -/

/-- A collector refuses nothing and keeps everything. -/
theorem Observed.collector {c c' : Collector} {log : List Offer} (h : Observed c log c') :
    AllTaken log ∧ c'.kept.toList = c.kept.toList ++ log.map Offer.diagnostic := by
  induction h with
  | rest => exact ⟨by simp [AllTaken], by simp⟩
  | offered hoffer _ ih =>
    cases hoffer
    refine ⟨ih.1.cons, ?_⟩
    rw [ih.2, Collector.kept_add, List.append_assoc]
    rfl
  | heard _ ih => exact ih

/-- What is taken is no longer due. -/
theorem Delivery.of_allTaken {due later : List Diagnostic} {log : List Offer}
    (h : Delivery due log later) (htaken : AllTaken log) :
    due = log.map Offer.diagnostic ++ later := by
  induction h with
  | rest => rfl
  | taken _ ih =>
    rw [ih fun offer hmem => htaken offer (List.mem_cons_of_mem _ hmem)]
    rfl
  | again | lost => cases htaken _ List.mem_cons_self

/-- The collector of a drained scan holds what is due, and the tokens are the outcomes. -/
theorem drain_spec {s : Scan Collector} {text : List Char} {place : Place}
    (h : s.ahead.At text place) (hok : ∀ outcome ∈ outcomes text place, ∃ t, outcome = .ok t) :
    s.drain.failure = none ∧ s.drain.tokens.map .ok = outcomes text place ∧
      s.drain.diagnostics = s.observer.kept.toList ++ reports s.file text place := by
  induction hn : text.length using Nat.strongRecOn generalizing s text place with
  | ind n ih =>
    obtain ⟨log, text', place', hpass, hend⟩ := next_spec h
    obtain ⟨htaken, hkept⟩ := hpass.observed.collector
    have hdue := hpass.delivery.of_allTaken htaken
    cases hnext : s.next with
    | mk s' result =>
      rw [hnext] at hpass hend hkept
      rcases hend.token_or_refusal hok with ⟨t, rfl, -, hlast⟩ | ⟨taken, d, f, -, hlog, -⟩
      · rcases hlast with ⟨hkind, hout, hlt⟩ | ⟨hkind, hout, hnil⟩
        · rw [hout] at hok ⊢
          obtain ⟨hfail, htok, hdiag⟩ := ih text'.length (hn ▸ hlt) hpass.at'
            (fun outcome hmem => hok outcome (List.mem_cons_of_mem _ hmem)) rfl
          rw [drain_of_token hnext hkind]
          refine ⟨hfail, congrArg (Except.ok t :: ·) htok, ?_⟩
          rw [hdue, ← List.append_assoc, ← hkept, ← hpass.file]
          exact hdiag
        · rw [drain_of_end hnext hkind, hout]
          refine ⟨rfl, rfl, ?_⟩
          rw [hdue, hnil, reports_nil, List.append_nil]
          exact hkept
      · subst hlog
        have hnone := htaken _ (List.mem_append_right taken List.mem_cons_self)
        cases hnone

/-- Whatever the observer and the place, each token of a drained scan is an outcome of the text. -/
theorem mem_outcomes_of_drain {σ : Type} [Observer σ] {s : Scan σ} {text : List Char}
    {place : Place} (h : s.ahead.At text place) {t : Token} (ht : t ∈ s.drain.tokens) :
    .ok t ∈ outcomes text place := by
  induction hn : text.length using Nat.strongRecOn generalizing s text place with
  | ind n ih =>
    obtain ⟨log, text', place', hpass, hend⟩ := next_spec h
    cases hnext : s.next with
    | mk s' result =>
      rw [hnext] at hpass hend
      cases result with
      | error f =>
        rw [drain_of_failure hnext] at ht
        cases ht
      | ok found =>
        cases hend with
        | lexeme l sort _ hres hout hlt =>
          rw [drain_of_token hnext (kind_token_ne_eof hres.symm)] at ht
          rw [hout]
          rcases List.mem_cons.1 ht with rfl | hlater
          · exact List.mem_cons_self
          · exact List.mem_cons_of_mem _ (ih text'.length (hn ▸ hlt) hpass.at' hlater rfl)
        | atEnd _ hres hout _ =>
          rw [drain_of_end hnext (kind_of_endAt hres.symm)] at ht
          rw [hout, List.mem_singleton.1 ht]
          exact List.mem_singleton_self _
        | refused _ _ _ _ _ hres => cases hres

/-- **The whole scan of a text**: no call fails, the tokens are the outcomes of the text, and the
    diagnostics are those about the text. -/
theorem collected_spec {options : Options} (hline : 1 ≤ options.line) (text : List Char) :
    (collected options text).failure = none ∧
      (collected options text).tokens.map .ok = outcomes text ⟨options.line, 1⟩ ∧
      (collected options text).diagnostics = reports options.file text ⟨options.line, 1⟩ :=
  drain_spec (at_openText options text _) (outcomes_ok text ⟨hline, Int.le_refl 1⟩)

/-- No lexeme of a text makes the end token. -/
theorem kind_of_mem_along {ps : List Piece} {place : Place} {t : Token}
    (h : .ok t ∈ along Piece.outcome? ps place) : t.kind ≠ .eof := by
  induction ps generalizing place with
  | nil => cases h
  | cons piece ps ih =>
    rcases List.mem_append.1 h with hmem | hmem
    · cases piece with
      | lexeme sort text => exact kind_token_ne_eof (List.mem_singleton.1 hmem).symm
      | blank | block | line | illegal | stray | unclosed => cases hmem
    · exact ih hmem

/-- The tokens of a whole scan are those of the lexemes of the text, and then the end token, which
    is found nowhere else. -/
theorem collected_ends {options : Options} (hline : 1 ≤ options.line) (text : List Char) :
    ∃ tokens stop, (collected options text).tokens = tokens ++ [stop] ∧ stop.kind = .eof ∧
      (∀ t ∈ tokens, t.kind ≠ .eof) ∧
      tokens.map .ok = along Piece.outcome? (pieces text) ⟨options.line, 1⟩ := by
  obtain ⟨-, htokens, -⟩ := collected_spec hline text
  obtain ⟨tokens, last, hsplit, hgiven, hlast⟩ := List.map_eq_append_iff.1 htokens
  obtain ⟨stop, rfl, hstop⟩ := List.map_eq_singleton_iff.1 hlast
  refine ⟨tokens, stop, hsplit, kind_of_endAt hstop.symm, fun t hmem => ?_, hgiven⟩
  have hmem' : .ok t ∈ (tokens.map .ok : List (Except Failure Token)) := List.mem_map_of_mem hmem
  rw [hgiven] at hmem'
  exact kind_of_mem_along hmem'

end YaslLexis.Machine
