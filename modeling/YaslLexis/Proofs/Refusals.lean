import YaslLexis.Proofs.Deliveries
import YaslLexis.Proofs.Logging
import YaslLexis.Proofs.WholeScans

/-!
# Refusals cost no token

A caller who asks for the next token after every failure, up to the end token, gets the tokens of
the scan that nothing disturbs, whatever sink watches and whichever diagnostics it refuses.

* `Caller`, `Caller.ask`, `persist` -- the caller and the calls;
* `Caller.Owes` -- the invariant: what was given and what is to come are together what the text
  comes to, and the log delivers the diagnostics that are due;
* `Caller.Owes.ask` -- every call keeps it, and brings a token or a refusal;
* `Caller.Owes.of_failure` -- a call fails only by a refusal, and after the refusal of an illegal
  character the scan stands before that character;
* **`refusals_cost_no_token`** -- tokens, illegal characters, comments and taken diagnostics of the
  whole run.
-/

namespace YaslLexis.Machine

open Report

/-! ## 1. Callers -/

/-- One who asks for tokens, goes on after every failure and stops at the first end token. -/
structure Caller (σ : Type) where
  tokens : List Token := []
  ended : Bool := false
  scan : Scan σ

namespace Caller

variable {σ : Type} [Observer σ]

/-- Asks for a token, unless the end token was given. -/
def ask (c : Caller σ) : Caller σ :=
  if c.ended then c
  else
    match c.scan.next with
    | (scan, .error _) => { c with scan }
    | (scan, .ok t) => ⟨c.tokens ++ [t], t.kind = .eof, scan⟩

/-- Asks a number of times. -/
def asks (c : Caller σ) : Nat → Caller σ
  | 0 => c
  | n + 1 => (c.asks n).ask

theorem ask_of_ended {c : Caller σ} (h : c.ended = true) : c.ask = c := if_pos h

theorem ask_of_error {c : Caller σ} {scan : Scan σ} {f : Failure} (h : c.ended = false)
    (hnext : c.scan.next = (scan, .error f)) : c.ask = { c with scan } := by
  unfold ask
  rw [if_neg (by simp [h]), hnext]

theorem ask_of_ok {c : Caller σ} {scan : Scan σ} {t : Token} (h : c.ended = false)
    (hnext : c.scan.next = (scan, .ok t)) : c.ask = ⟨c.tokens ++ [t], t.kind = .eof, scan⟩ := by
  unfold ask
  rw [if_neg (by simp [h]), hnext]

omit [Observer σ] in
/-- The caller without the record of the offers. -/
def forget (c : Caller (Logged σ)) : Caller σ := ⟨c.tokens, c.ended, c.scan.forget⟩

theorem ask_forget (c : Caller (Logged σ)) : c.forget.ask = c.ask.forget := by
  have hnext : c.forget.scan.next = (c.scan.next.1.forget, c.scan.next.2) := next_forget c.scan
  cases h : c.ended with
  | true =>
    rw [ask_of_ended h]
    exact ask_of_ended h
  | false =>
    cases hcall : c.scan.next with
    | mk scan result =>
      rw [hcall] at hnext
      cases result with
      | error f =>
        rw [ask_of_error h hcall]
        exact ask_of_error h hnext
      | ok t =>
        rw [ask_of_ok h hcall]
        exact ask_of_ok h hnext

theorem asks_forget (c : Caller (Logged σ)) (n : Nat) : c.forget.asks n = (c.asks n).forget := by
  induction n with
  | zero => rfl
  | succ n ih => rw [asks, ih, ask_forget, asks]

omit [Observer σ] in
/-- The offers so far. -/
def log (c : Caller (Logged σ)) : List Offer := c.scan.observer.log

/-! ## 2. What a caller is owed -/

omit [Observer σ] in
/-- The caller is at a text and a place. Of all the results some were given, and those of the text
    are to come; of the diagnostics that were due, those about the text still are. -/
structure Owes (c : Caller (Logged σ)) (file : String) (all : List (Except Failure Token))
    (due : List Diagnostic) (text : List Char) (place : Place) : Prop where
  file_eq : c.scan.file = file
  at' : c.scan.ahead.At text place
  results : all = c.tokens.map .ok ++ if c.ended then [] else outcomes text place
  ended : c.ended = true → text = []
  delivery : Delivery due c.log (reports file text place)

namespace Owes

variable {c : Caller (Logged σ)} {file : String} {all : List (Except Failure Token)}
  {due : List Diagnostic} {text : List Char} {place : Place}

/-- A call that gives a token. -/
theorem of_token (hended : c.ended = false) {scan : Scan (Logged σ)} {t : Token}
    (hnext : c.scan.next = (scan, .ok t)) (hfile : scan.file = file)
    (hat : scan.ahead.At text place) (hend : t.kind = .eof → text = [])
    (hresults : all = c.tokens.map .ok ++
      (.ok t :: if t.kind = .eof then [] else outcomes text place))
    (hdelivery : Delivery due scan.observer.log (reports file text place)) :
    c.ask.Owes file all due text place := by
  rw [ask_of_ok hended hnext]
  refine ⟨hfile, hat, ?_, fun h => hend (of_decide_eq_true h), hdelivery⟩
  rw [hresults, List.map_append, List.append_assoc]
  by_cases hkind : t.kind = .eof
  · rw [if_pos hkind, if_pos (decide_eq_true hkind)]
    rfl
  · rw [if_neg hkind, if_neg (by simpa using hkind)]
    rfl

/-- **A call keeps what the caller is owed**, and brings a token or a refusal. -/
theorem ask (h : c.Owes file all due text place) (hok : ∀ r ∈ all, ∃ t, r = .ok t) :
    ∃ text' place', c.ask.Owes file all due text' place' ∧
      (c.ended = false →
        c.tokens.length + refusals c.log < c.ask.tokens.length + refusals c.ask.log) := by
  by_cases hended : c.ended = true
  · rw [ask_of_ended hended]
    exact ⟨text, place, h, fun hnot => absurd (hended.symm.trans hnot) (by decide)⟩
  have hopen : c.ended = false := Bool.eq_false_iff.2 hended
  have hresults := h.results
  rw [if_neg hended] at hresults
  obtain ⟨log, text', place', hpass, hend⟩ := next_spec h.at'
  cases hnext : c.scan.next with
  | mk scan result =>
    rw [hnext] at hpass hend
    have hfile : scan.file = file := hpass.file.trans h.file_eq
    have hlog : scan.observer.log = c.log ++ log := hpass.observed.log_eq
    have hdelivery : Delivery due scan.observer.log (reports file text' place') := by
      rw [hlog]
      exact h.delivery.trans (h.file_eq ▸ hpass.delivery)
    have hcount : refusals scan.observer.log = refusals c.log + refusals log := by
      rw [hlog, refusals_append]
    refine ⟨text', place', ?_⟩
    have hhere (r : Except Failure Token) (hr : r ∈ outcomes text place) : ∃ t, r = .ok t :=
      hok r (by rw [hresults]; exact List.mem_append_right _ hr)
    rcases hend.token_or_refusal hhere with
      ⟨t, rfl, -, hlast⟩ | ⟨taken, d, f, rfl, hoffers, -, hout, -⟩
    · have hask := ask_of_ok hopen hnext
      have hmore : c.ask.tokens.length = c.tokens.length + 1 := by rw [hask]; simp
      have hsame : c.ask.log = scan.observer.log := by rw [hask]; rfl
      refine ⟨?_, fun _ => by rw [hsame]; omega⟩
      rcases hlast with ⟨hkind, hout, -⟩ | ⟨hkind, hout, hnil⟩
      · refine of_token hopen hnext hfile hpass.at' (fun hnot => absurd hnot hkind) ?_ hdelivery
        rw [hresults, hout, if_neg hkind]
      · refine of_token hopen hnext hfile hpass.at' (fun _ => hnil) ?_ hdelivery
        rw [hresults, hout, if_pos hkind]
    · rw [ask_of_error hopen hnext]
      have hone : refusals log = refusals taken + 1 := by
        rw [hoffers, refusals_append]
        rfl
      refine ⟨⟨hfile, hpass.at', ?_, fun hnot => absurd hnot hended, hdelivery⟩, fun _ => ?_⟩
      · rw [hresults, hout, if_neg hended]
      · show c.tokens.length + refusals c.log < c.tokens.length + refusals scan.observer.log
        omega

/-- Any number of calls keeps it; while the end has not come, there are as many tokens and refusals
    as there were calls, or more. -/
theorem asks (h : c.Owes file all due text place) (hok : ∀ r ∈ all, ∃ t, r = .ok t) (n : Nat) :
    ∃ text' place', (c.asks n).Owes file all due text' place' ∧
      ((c.asks n).ended = false → n ≤ (c.asks n).tokens.length + refusals (c.asks n).log) := by
  induction n with
  | zero => exact ⟨text, place, h, fun _ => Nat.zero_le _⟩
  | succ n ih =>
    obtain ⟨text', place', howes, hcount⟩ := ih
    obtain ⟨text'', place'', howes', hless⟩ := howes.ask hok
    refine ⟨text'', place'', howes', fun hopen => ?_⟩
    have hbefore : (c.asks n).ended = false := by
      rw [← Bool.not_eq_true]
      intro hended
      rw [Caller.asks, ask_of_ended hended, hended] at hopen
      cases hopen
    have hn := hcount hbefore
    have hlt := hless hbefore
    rw [Caller.asks]
    omega

/-- **A call fails only by a refusal.** After the refusal of an illegal character the scan stands
    before that character, and the next call offers the same diagnostic again. -/
theorem of_failure (h : c.Owes file all due text place) (hok : ∀ r ∈ all, ∃ t, r = .ok t)
    (hended : c.ended = false) {scan : Scan (Logged σ)} {f : Failure}
    (hnext : c.scan.next = (scan, .error f)) :
    ∃ before d, AllTaken before ∧ scan.observer.log = c.log ++ before ++ [⟨d, some f⟩] ∧
      (d.aboutComment = false →
        ∃ char, d = ⟨.illegalCharacter char.toString, some ⟨file, scan.ahead.place⟩⟩ ∧
          scan.ahead.current = some char ∧
          ∃ answer, scan.observer.log ++ [⟨d, answer⟩] <+: scan.next.1.observer.log) := by
  have hresults := h.results
  rw [hended, if_neg Bool.false_ne_true] at hresults
  have hhere (r : Except Failure Token) (hr : r ∈ outcomes text place) : ∃ t, r = .ok t :=
    hok r (by rw [hresults]; exact List.mem_append_right _ hr)
  obtain ⟨log, text', place', hpass, hend⟩ := next_spec h.at'
  rw [hnext] at hpass hend
  have hlog : scan.observer.log = c.log ++ log := hpass.observed.log_eq
  rcases hend.token_or_refusal hhere with
    ⟨t, ht, -⟩ | ⟨before, d, g, hg, hoffers, htaken, -, hwhere⟩
  · cases ht
  · cases hg
    refine ⟨before, d, htaken, ?_, fun hchar => ?_⟩
    · rw [hlog, hoffers, List.append_assoc]
    · obtain ⟨char, cs, rfl, hclass, rfl⟩ := hwhere hchar
      have hcurrent : scan.ahead.current = some char := hpass.at'.current
      obtain ⟨answer, more, hobserved⟩ := next_of_illegal hpass.at' hclass
      have hfile : scan.file = c.scan.file := hpass.file
      rw [hfile] at hobserved
      refine ⟨char, by rw [hpass.at'.place, h.file_eq], hcurrent, answer, more, ?_⟩
      rw [hobserved.log_eq, List.append_assoc]
      rfl

end Owes

end Caller

/-! ## 3. The whole run -/

variable {σ : Type} [Observer σ]

/-- What a caller has after a number of calls for the tokens of a text, whatever sink watches. -/
def persist (options : Options) (text : List Char) (sink : σ) (n : Nat) : Caller (Logged σ) :=
  Caller.asks { scan := openText options text ⟨sink, []⟩ } n

section Persist

variable {options : Options} (hline : 1 ≤ options.line) (text : List Char) (sink : σ)
include hline

/-- The invariant after any number of calls. -/
theorem persist_owes (n : Nat) :
    ∃ text' place', (persist options text sink n).Owes options.file
        (outcomes text ⟨options.line, 1⟩) (reports options.file text ⟨options.line, 1⟩)
        text' place' ∧
      ((persist options text sink n).ended = false →
        n ≤ (persist options text sink n).tokens.length +
          refusals (persist options text sink n).log) := by
  have hbegin : (persist options text sink 0).Owes options.file
      (outcomes text ⟨options.line, 1⟩) (reports options.file text ⟨options.line, 1⟩)
      text ⟨options.line, 1⟩ :=
    ⟨rfl, at_openText options text _, rfl, fun hnot => absurd hnot Bool.false_ne_true, .rest _⟩
  exact hbegin.asks (outcomes_ok text ⟨hline, Int.le_refl 1⟩) n

/-- The tokens given are the first of the undisturbed scan, and at the end all of them. -/
theorem tokens_persist (n : Nat) :
    (persist options text sink n).tokens <+: (collected options text).tokens ∧
      ((persist options text sink n).ended = true →
        (persist options text sink n).tokens = (collected options text).tokens) := by
  obtain ⟨text', place', howes, -⟩ := persist_owes hline text sink n
  obtain ⟨-, htokens, -⟩ := collected_spec hline text
  have hresults := howes.results
  rw [← htokens] at hresults
  constructor
  · obtain ⟨given, rest, hall, hgiven, -⟩ := List.map_eq_append_iff.1 hresults
    rw [hall, ← eq_of_map_ok_eq hgiven]
    exact List.prefix_append given rest
  · intro hended
    rw [hended, if_pos rfl, List.append_nil] at hresults
    exact (eq_of_map_ok_eq hresults).symm

/-- A sink that refuses no more than a number of times lets the run come to the end. -/
theorem ended_of_refusals_le {bound : Nat}
    (hbound : ∀ n, refusals (persist options text sink n).log ≤ bound) :
    ∃ n, (persist options text sink n).ended = true := by
  refine ⟨bound + (collected options text).tokens.length + 1, ?_⟩
  rw [← Bool.not_eq_false]
  intro hopen
  obtain ⟨-, -, -, hcount⟩ :=
    persist_owes hline text sink (bound + (collected options text).tokens.length + 1)
  have hn := hcount hopen
  have hlength := (tokens_persist hline text sink
    (bound + (collected options text).tokens.length + 1)).1.length_le
  have hrefusals := hbound (bound + (collected options text).tokens.length + 1)
  omega

/-- The complaints about comments are offered in order, each once. -/
theorem comments_persist (n : Nat) :
    (comments (offered (persist options text sink n).log)).Nodup ∧
      comments (offered (persist options text sink n).log) <+:
        comments (collected options text).diagnostics ∧
      ((persist options text sink n).ended = true →
        comments (offered (persist options text sink n).log) =
          comments (collected options text).diagnostics) := by
  obtain ⟨text', place', howes, -⟩ := persist_owes hline text sink n
  obtain ⟨-, -, hdiag⟩ := collected_spec hline text
  have hcomments := howes.delivery.comments_eq
  have hnodup := nodup_comments_reports options.file text ⟨options.line, 1⟩
  rw [hdiag]
  refine ⟨?_, ⟨_, hcomments.symm⟩, fun hended => ?_⟩
  · rw [hcomments] at hnodup
    exact (List.nodup_append.1 hnodup).1
  · rw [howes.ended hended, reports_nil] at hcomments
    exact (hcomments.trans (List.append_nil _)).symm

/-- At the end the sink has taken every diagnostic but the complaints about comments that it
    refused. -/
theorem accepted_persist {n : Nat} (hended : (persist options text sink n).ended = true) :
    accepted (persist options text sink n).log =
      (collected options text).diagnostics.filter (kept (persist options text sink n).log) := by
  obtain ⟨text', place', howes, -⟩ := persist_owes hline text sink n
  obtain ⟨-, -, hdiag⟩ := collected_spec hline text
  have hkept := howes.delivery.kept_eq (nodup_comments_reports options.file text _)
  rw [howes.ended hended, reports_nil, List.append_nil] at hkept
  rw [hdiag, hkept]

end Persist

/-- **Refusals cost no token.** Whatever sink watches the scan of a text, and however often the
    caller has asked:

    * the record of the offers changes nothing;
    * the tokens given are the first of the undisturbed scan, with their places, and all of them
      when the end token was given; and it is given if the sink refuses finitely often;
    * a call fails only by the refusal of its last offer; if that was an illegal character, it is
      still looked at, and the next call offers the same diagnostic again;
    * the complaints about comments are offered in order and none twice, and in a run that has come
      to the end each was offered once;
    * in such a run the diagnostics taken are those of the undisturbed scan, in order, but for the
      complaints about comments that were refused. -/
theorem refusals_cost_no_token {options : Options} (hline : 1 ≤ options.line) (text : List Char)
    (sink : σ) :
    (∀ n, Caller.asks { scan := openText options text sink } n =
      (persist options text sink n).forget) ∧
    (∀ n, (persist options text sink n).tokens <+: (collected options text).tokens ∧
      ((persist options text sink n).ended = true →
        (persist options text sink n).tokens = (collected options text).tokens)) ∧
    ((∃ bound, ∀ n, refusals (persist options text sink n).log ≤ bound) →
      ∃ n, (persist options text sink n).ended = true) ∧
    (∀ n, (persist options text sink n).ended = false → ∀ scan f,
      (persist options text sink n).scan.next = (scan, .error f) →
      ∃ before d, AllTaken before ∧
        scan.observer.log = (persist options text sink n).log ++ before ++ [⟨d, some f⟩] ∧
        ∀ shown, d.complaint = .illegalCharacter shown →
          ∃ char, shown = char.toString ∧ scan.ahead.current = some char ∧
            d.location = some ⟨options.file, scan.ahead.place⟩ ∧
            ∃ answer, scan.observer.log ++ [⟨d, answer⟩] <+: scan.next.1.observer.log) ∧
    (∀ n, (comments (offered (persist options text sink n).log)).Nodup ∧
      comments (offered (persist options text sink n).log) <+:
        comments (collected options text).diagnostics ∧
      ((persist options text sink n).ended = true →
        comments (offered (persist options text sink n).log) =
          comments (collected options text).diagnostics)) ∧
    (∀ n, (persist options text sink n).ended = true →
      accepted (persist options text sink n).log =
        (collected options text).diagnostics.filter (kept (persist options text sink n).log)) := by
  refine ⟨fun n => ?_, tokens_persist hline text sink, ?_, fun n hopen scan f hnext => ?_,
    comments_persist hline text sink, fun n => accepted_persist hline text sink⟩
  · exact Caller.asks_forget { scan := openText options text (⟨sink, []⟩ : Logged σ) } n
  · intro hfinite
    obtain ⟨bound, hbound⟩ := hfinite
    exact ended_of_refusals_le hline text sink hbound
  · obtain ⟨text', place', howes, -⟩ := persist_owes hline text sink n
    obtain ⟨before, d, htaken, hlog, hwhere⟩ :=
      howes.of_failure (outcomes_ok text ⟨hline, Int.le_refl 1⟩) hopen hnext
    refine ⟨before, d, htaken, hlog, fun shown hshown => ?_⟩
    have hchar : d.aboutComment = false := by
      unfold Diagnostic.aboutComment
      rw [hshown]
      rfl
    obtain ⟨char, rfl, hcurrent, hagain⟩ := hwhere hchar
    exact ⟨char, (Complaint.illegalCharacter.inj hshown).symm, hcurrent, rfl, hagain⟩

/-- A sink that refuses everything, over a slash that opens no comment. -/
theorem tokens_of_refused_stray :
    (1 : Int) ≤ 2 ∧
      (persist { line := 2 } ['/', 'a']
        (⟨.leaf 0, { leaves := #[.failing 0 #[]] }⟩ : Post) 3).tokens =
          (collected { line := 2 } ['/', 'a']).tokens ∧
      accepted (persist { line := 2 } ['/', 'a']
        (⟨.leaf 0, { leaves := #[.failing 0 #[]] }⟩ : Post) 3).log = [] ∧
      comments (offered (persist { line := 2 } ['/', 'a']
        (⟨.leaf 0, { leaves := #[.failing 0 #[]] }⟩ : Post) 3).log) =
          comments (collected { line := 2 } ['/', 'a']).diagnostics := by
  have hline : (1 : Int) ≤ ({ line := 2 } : Options).line := by decide
  have hended : (persist { line := 2 } ['/', 'a']
      (⟨.leaf 0, { leaves := #[.failing 0 #[]] }⟩ : Post) 3).ended = true := by decide +kernel
  obtain ⟨-, htokens, -, -, hcomments, -⟩ := refusals_cost_no_token hline ['/', 'a']
    (⟨.leaf 0, { leaves := #[.failing 0 #[]] }⟩ : Post)
  exact ⟨by decide, (htokens 3).2 hended, by decide +kernel, (hcomments 3).2.2 hended⟩

end YaslLexis.Machine
