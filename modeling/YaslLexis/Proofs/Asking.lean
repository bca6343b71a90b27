import YaslLexis.Proofs.Deliveries
import YaslLexis.Proofs.Logging
import YaslLexis.Report.Lifetime

/-!
# Call after call

A scan that is asked for one token after the other, whatever comes of each call.

* `Willing` -- a sink that refuses nothing;
* `Scan.asked`, `Scan.answer`, `Scan.reported` -- the scan after a number of calls, and what comes
  of the call with a number;
* `opened` -- the scan over a reader that does not fail (`openReader_reliable`), or over a file that
  holds bytes (`openFile_bytes`);
* `Ready` -- a scan with tokens to come and a willing sink; **`Ready.answer`** -- each of its calls
  gives a token.
-/

namespace YaslLexis.Machine

open Report

variable {σ : Type} [Observer σ]

/-! ## 1. Willing sinks -/

/-- The sink refuses nothing, whatever it is offered and however many tokens it hears of. -/
def Willing (x : σ) : Prop := ∀ log y, Observed x log y → AllTaken log

namespace Willing

variable {x : σ}

theorem offer (h : Willing x) (d : Diagnostic) :
    ∃ y, Observer.offer d x = (y, none) ∧ Willing y := by
  cases hoffer : Observer.offer d x with
  | mk y refusal =>
    have hnone : refusal = none :=
      h [⟨d, refusal⟩] y (.offered hoffer (.rest y)) ⟨d, refusal⟩ List.mem_cons_self
    subst hnone
    refine ⟨y, rfl, fun log z hlog offer hmem => ?_⟩
    exact h (⟨d, none⟩ :: log) z (.offered hoffer hlog) offer (List.mem_cons_of_mem _ hmem)

theorem heard (h : Willing x) (t : Token) : Willing (Observer.heard t x) :=
  fun log y hlog => h log y (.heard hlog)

/-- A record of the offers changes nothing about it. -/
theorem logged (h : Willing x) (log : List Offer) : Willing (⟨x, log⟩ : Logged σ) := by
  have hforget {x y : Logged σ} {log : List Offer} (hlog : Observed x log y) :
      Observed x.sink log y.sink := by
    induction hlog with
    | rest => exact .rest _
    | offered hoffer _ ih =>
      cases hoffer
      exact .offered rfl ih
    | heard _ ih => exact .heard ih
  exact fun log y hlog => h log y.sink (hforget hlog)

end Willing

/-! ## 2. Calls -/

namespace Scan

/-- The scan after a number of calls for a token, whatever came of them. -/
def asked (s : Scan σ) : Nat → Scan σ
  | 0 => s
  | n + 1 => (s.asked n).next.1

/-- The first call may be made beforehand. -/
theorem asked_succ (s : Scan σ) (n : Nat) : s.asked (n + 1) = s.next.1.asked n := by
  induction n with
  | zero => rfl
  | succ n ih => rw [asked, ih, asked]

/-- What comes of the call with a number. -/
def answer (s : Scan σ) (n : Nat) : Except Failure Token := (s.asked n).next.2

/-- The diagnostics that the call with a number reports. -/
def reported (s : Scan (Logged σ)) (n : Nat) : List Diagnostic :=
  (offered (s.asked (n + 1)).observer.log).drop (offered (s.asked n).observer.log).length

theorem asked_forget (s : Scan (Logged σ)) (n : Nat) : s.forget.asked n = (s.asked n).forget := by
  induction n with
  | zero => rfl
  | succ n ih => rw [asked, ih, next_forget, asked]

theorem answer_forget (s : Scan (Logged σ)) (n : Nat) : s.forget.answer n = s.answer n := by
  unfold answer
  rw [asked_forget, next_forget]

end Scan

/-! ## 3. Opening -/

omit [Observer σ] in
/-- A scan over a reader, at its first character. -/
def opened (options : Options) (reader : Reader) (observer : σ) : Scan σ :=
  ⟨⟨reader.read.2, reader.pending.head?.join, ⟨options.line, 1⟩⟩, options.file, observer⟩

section Reliable

variable {reader : Reader} (h : reader.Reliable) (options : Options) (observer : σ)
include h

omit [Observer σ] in
theorem openReader_reliable :
    openReader options reader observer = .ok (opened options reader observer) := by
  unfold openReader
  rw [LookAhead.start_allowed h.refusal]
  rfl

omit [Observer σ] in
/-- All that the reader gives before its first empty read is still to come. -/
theorem at_opened : (opened options reader observer).ahead.At
    (Reader.untilEmpty reader.pending) ⟨options.line, 1⟩ :=
  ⟨h.read, LookAhead.rest_allowed h.refusal _, rfl⟩

end Reliable

/-- What opening a file leaves on the desk. -/
def openingRecord (path : String) : Event :=
  .logged ⟨tokenLog, .debug, "Opened " ++ path ++ " for scanning"⟩

/-- A post on whose desk the opening of a file is recorded. -/
def recording (path : String) (post : Post) : Post :=
  { post with desk := post.desk.emit (openingRecord path) }

/-- A file that holds bytes is opened as a reader over their text. -/
theorem openFile_bytes {openPath : String → Except Files.OpenError Files.Content} {path : String}
    {held : List UInt8} (h : openPath path = .ok (.bytes held)) (given : Option Options)
    (post : Post) :
    openFile openPath path given post =
      .ok (opened (given.getD { file := path }) (.ofFile (Files.Content.text held))
        (recording path post)) := by
  have hopen := openReader_reliable (Reader.reliable_ofFile (Files.Content.text held))
    (given.getD { file := path }) (recording path post)
  unfold openFile
  rw [h]
  exact congrArg (Except.mapError _) hopen

/-! ## 4. Calls that give tokens -/

/-- Every call for a token gives one: the sink refuses nothing, and what is still to come has
    tokens. -/
structure Ready (s : Scan σ) (text : List Char) (place : Place) : Prop where
  willing : Willing s.observer
  at' : s.ahead.At text place
  tokens : ∀ outcome ∈ outcomes text place, ∃ t, outcome = .ok t

/-- A call gives a token and leaves the scan ready for the next one. -/
theorem Ready.next {s : Scan σ} {text : List Char} {place : Place} (h : Ready s text place) :
    (∃ t, s.next.2 = .ok t) ∧ ∃ text' place', Ready s.next.1 text' place' := by
  obtain ⟨log, text', place', hpass, hend⟩ := next_spec h.at'
  have htaken : AllTaken log := h.willing log _ hpass.observed
  have hwilling : Willing s.next.1.observer := by
    intro more z hmore offer hmem
    exact h.willing _ z (hpass.observed.trans hmore) offer (List.mem_append_right log hmem)
  refine ⟨?_, text', place', hwilling, hpass.at', hend.tokens_to_come h.tokens⟩
  rcases hend.token_or_refusal h.tokens with ⟨t, ht, -⟩ | ⟨taken, d, f, -, hlog, -⟩
  · exact ⟨t, ht⟩
  · rw [hlog] at htaken
    cases htaken _ (List.mem_append_right taken List.mem_cons_self)

theorem Ready.answer {s : Scan σ} {text : List Char} {place : Place} (h : Ready s text place)
    (n : Nat) : ∃ t, s.answer n = .ok t := by
  have hready : ∃ text' place', Ready (s.asked n) text' place' := by
    induction n with
    | zero => exact ⟨text, place, h⟩
    | succ n ih =>
      obtain ⟨text', place', hn⟩ := ih
      exact hn.next.2
  obtain ⟨text', place', hn⟩ := hready
  exact hn.next.1

theorem ready_opened {reader : Reader} (h : reader.Reliable) {sink : σ} (hsink : Willing sink)
    (options : Options) (hline : 1 ≤ options.line) :
    Ready (opened options reader sink) (Reader.untilEmpty reader.pending) ⟨options.line, 1⟩ :=
  ⟨hsink, at_opened h options sink, outcomes_ok _ ⟨hline, Int.le_refl 1⟩⟩

end YaslLexis.Machine
