import YaslLexis.Proofs.Abreast
import YaslLexis.Proofs.Sharing

/-!
# Closing under any nesting

Closings among the calls for tokens of a session, one by one and at the ends of blocks within
blocks, over a reader that closing does not stop. Each is counted and changes nothing else, so that
the calls come to what they come to with all closings taken out.

* `Deed`, `Deed.step` -- requests, closings and blocks of such; `Deed.requests`, `Deed.closings` --
  the requests alone, and the number of the closings;
* `ComesOut` -- how a failure to close comes out; `Deed.Ends` -- the entries that deeds leave, given
  how closing comes out and what the requests answer;
* `Session.closedTimes` -- the session with another number of closings; `perform_closedTimes` -- it
  makes no difference to a request;
* `Session.ClosedOnce` -- what a closing does to a session; `closedOnce_close`;
* `perform_deed` -- what deeds come to, beside their requests alone;
* **`closings_framed`** -- closings are counted, leave the session alone and come out as they
  should.
-/

namespace YaslLexis

/-! ## 1. Readers that closing does not stop -/

/-- The reader with another number of closings. -/
def Reader.closedTimes (r : Reader) (n : Nat) : Reader := { r with closes := n }

/-- Closing does not stop the reader, and comes to the same every time. -/
structure Reader.Enduring (onClosing : Option Failure) (r : Reader) : Prop where
  goesOn : r.faultOnceClosed = none
  closing : r.faultOnClosing = onClosing

namespace Reader.Enduring

variable {onClosing : Option Failure} {r : Reader} (h : r.Enduring onClosing)
include h

theorem read : r.read.2.Enduring onClosing := by
  unfold Reader.read
  split <;> exact ⟨h.goesOn, h.closing⟩

theorem read_closedTimes (n : Nat) :
    (r.closedTimes n).read = (r.read.1, r.read.2.closedTimes n) := by
  have hsame : (r.closedTimes n).refusal = r.refusal := by
    show ((if n = 0 then none else r.faultOnceClosed) <|> r.fault r.reads) =
      ((if r.closes = 0 then none else r.faultOnceClosed) <|> r.fault r.reads)
    rw [h.goesOn, ite_self, ite_self]
  unfold Reader.read
  rw [hsame]
  cases r.refusal <;> rfl

end Reader.Enduring

namespace LookAhead

/-- The look-ahead with another number of closings. -/
def closedTimes (a : LookAhead) (n : Nat) : LookAhead := { a with reader := a.reader.closedTimes n }

theorem close_eq (a : LookAhead) :
    a.close =
      (a.closedTimes (a.reader.closes + 1), a.reader.faultOnClosing.map Failure.onClosing) := rfl

theorem enduring_advance {onClosing : Option Failure} (a : LookAhead)
    (h : a.reader.Enduring onClosing) : a.advance.1.reader.Enduring onClosing :=
  kept_advance (fun _ hr => hr.read) h

theorem advance_closedTimes {onClosing : Option Failure} {a : LookAhead}
    (h : a.reader.Enduring onClosing) (n : Nat) :
    (a.closedTimes n).advance = (a.advance.1.closedTimes n, a.advance.2) := by
  have hread := h.read_closedTimes n
  cases hcurrent : a.current with
  | none => rw [advance_atEnd hcurrent, advance_atEnd (s := a.closedTimes n) hcurrent]
  | some c =>
    unfold advance closedTimes
    dsimp only
    rw [hread, hcurrent]
    cases a.reader.read with
    | mk outcome reader => cases outcome <;> rfl

/-- The second look-ahead is the first with another number of closings. -/
structure Recounted (onClosing : Option Failure) (n : Nat) (a a' : LookAhead) : Prop where
  enduring : a.reader.Enduring onClosing
  eq : a' = a.closedTimes n

theorem recounted_inStep (onClosing : Option Failure) (n : Nat) :
    Machine.InStep (Recounted onClosing n) where
  current h := by
    rw [h.eq]
    rfl
  place h := by
    rw [h.eq]
    rfl
  advance {a a'} h := by
    rw [h.eq, advance_closedTimes h.enduring]
    exact ⟨rfl, a.enduring_advance h.enduring, rfl⟩

end LookAhead

/-- How it comes out that closing the reader failed, if it did: a failure of the operating system is
    the cause of a failure to close, and any other failure comes out as it is. -/
inductive ComesOut : Option Failure → Option Failure → Prop where
  | nothing : ComesOut none none
  | wrapped {f : Failure} {which : SystemFamily} : f.family = .system which →
      ComesOut (some f) (some (.closing f))
  | unchanged {f : Failure} : (∀ which, f.family ≠ .system which) → ComesOut (some f) (some f)

theorem comesOut_onClosing (onClosing : Option Failure) :
    ComesOut onClosing (onClosing.map Failure.onClosing) := by
  cases onClosing with
  | none => exact .nothing
  | some f =>
    rw [Option.map_some, Failure.onClosing]
    by_cases hsystem : f.family.isSystem = true
    · obtain ⟨which, hwhich⟩ := Family.isSystem_iff.1 hsystem
      rw [if_pos hsystem]
      exact .wrapped hwhich
    · rw [if_neg hsystem]
      exact .unchanged fun which hwhich => hsystem (Family.isSystem_iff.2 ⟨which, hwhich⟩)

namespace Drive

open Machine Report

/-! ## 2. Deeds -/

/-- What may be done to a session: requests and closings, and blocks of such. -/
inductive Deed where
  | request (r : Request)
  | close
  /-- A block, with the failure that it raises in the end, if it does. -/
  | block (deeds : List Deed) (raise : Option Failure)

namespace Deed

mutual

/-- The step of a deed. -/
def step : Deed → Step
  | request r => r.step
  | close => .close
  | block deeds raise => .block (steps deeds) raise

/-- The steps of several deeds. -/
def steps : List Deed → List Step
  | [] => []
  | deed :: later => step deed :: steps later

end

mutual

/-- The requests of a deed, with all closings taken out. -/
def requests : Deed → List Request
  | request r => [r]
  | close => []
  | block deeds _ => requestsAll deeds

/-- The requests of several deeds. -/
def requestsAll : List Deed → List Request
  | [] => []
  | deed :: later => requests deed ++ requestsAll later

end

mutual

/-- The number of closings in a deed. A block closes once when it is left. -/
def closings : Deed → Nat
  | request _ => 0
  | close => 1
  | block deeds _ => closingsAll deeds + 1

/-- The number of closings in several deeds. -/
def closingsAll : List Deed → Nat
  | [] => 0
  | deed :: later => closings deed + closingsAll later

end

mutual

/-- The entry that a deed leaves: a closing comes out as it should, a block lets out what its
    closing came to, or else what it raised itself, and the requests answer as given, in order. -/
inductive Ends (closing : Option Failure) : Deed → Entry → List (Except Failure Answer) → Prop
  | request {r : Request} {outcome : Except Failure Answer} {trail : Trail} :
    Ends closing (.request r) (.plain outcome trail) [outcome]
  | close {trail : Trail} : Ends closing .close (.plain (Session.nothingOr closing) trail) []
  | block {deeds : List Deed} {raise : Option Failure} {body : List Entry}
    {answers : List (Except Failure Answer)} {escape : Option Escape} {trail : Trail} :
    EndAll closing deeds body answers → escape.map Escape.failure = (closing <|> raise) →
    Ends closing (.block deeds raise) (.block body escape trail) answers

/-- The entries that several deeds leave. -/
inductive EndAll (closing : Option Failure) :
    List Deed → List Entry → List (Except Failure Answer) → Prop
  | nil : EndAll closing [] [] []
  | cons {deed : Deed} {later : List Deed} {entry : Entry} {entries : List Entry}
    {answers more : List (Except Failure Answer)} :
    Ends closing deed entry answers → EndAll closing later entries more →
    EndAll closing (deed :: later) (entry :: entries) (answers ++ more)

end

end Deed

/-- What a step without a block answered. -/
def Entry.outcome? : Entry → Option (Except Failure Answer)
  | plain outcome _ => some outcome
  | block .. => none

/-- What the requests of a schedule answered. -/
def answers (entries : List Entry) : List (Except Failure Answer) :=
  entries.filterMap Entry.outcome?

/-! ## 3. Requests -/

/-- The session with another number of closings. -/
def Session.closedTimes (s : Session) (n : Nat) : Session :=
  { s with scan := { s.scan with ahead := s.scan.ahead.closedTimes n } }

/-- The session is between two steps, and closing does not stop its reader. -/
structure Session.Between (onClosing : Option Failure) (s : Session) : Prop where
  hushed : s.hush = s
  enduring : s.scan.ahead.reader.Enduring onClosing

section Request

variable {onClosing : Option Failure} {s : Session}

/-- **A call does not depend on how often the reader was closed**, and leaves it so. -/
theorem next_closedTimes (h : s.scan.ahead.reader.Enduring onClosing) (n : Nat) :
    (s.closedTimes n).next = (s.next.1.closedTimes n, s.next.2) := by
  have habreast := abreast_beside (LookAhead.recounted_inStep onClosing n) (agreeing_eq (σ := Post))
  have hbeside : Beside (LookAhead.Recounted onClosing n) Eq s.scan (s.closedTimes n).scan :=
    ⟨⟨h, rfl⟩, rfl, rfl⟩
  obtain ⟨⟨⟨-, hahead⟩, hfile, hobserver⟩, hresult⟩ := habreast.next hbeside
  unfold Session.next
  cases hnext : (s.closedTimes n).scan.next with
  | mk scan result =>
    obtain ⟨ahead, file, observer⟩ := scan
    rw [hnext] at hahead hfile hobserver hresult
    dsimp only at hahead hfile hobserver hresult
    subst hahead hfile hresult
    rw [← hobserver]
    rfl

theorem iteratorNext_closedTimes (h : s.scan.ahead.reader.Enduring onClosing) (n index : Nat) :
    (s.closedTimes n).iteratorNext index =
      ((s.iteratorNext index).1.closedTimes n, (s.iteratorNext index).2) := by
  unfold Session.iteratorNext
  rw [next_closedTimes h]
  have hiterators : (s.closedTimes n).iterators = s.iterators := rfl
  rw [hiterators]
  split
  · rfl
  · cases s.next with
    | mk s' result => cases result <;> rfl

/-- Nor does a request. -/
theorem perform_closedTimes (h : s.scan.ahead.reader.Enduring onClosing) (r : Request) (n : Nat) :
    (perform r.step (s.closedTimes n)).1 = (perform r.step s).1.closedTimes n ∧
      ∃ outcome trail trail', (perform r.step s).2 = .plain outcome trail ∧
        (perform r.step (s.closedTimes n)).2 = .plain outcome trail' := by
  cases r with
  | direct =>
    rw [Request.step, perform, perform, next_closedTimes h]
    exact ⟨rfl, _, _, _, rfl, rfl⟩
  | create =>
    rw [Request.step, perform, perform]
    exact ⟨rfl, _, _, _, rfl, rfl⟩
  | pull index =>
    rw [Request.step, perform, perform, iteratorNext_closedTimes h]
    exact ⟨rfl, _, _, _, rfl, rfl⟩

theorem Session.Between.request (h : s.Between onClosing) (r : Request) :
    (perform r.step s).1.Between onClosing := by
  refine ⟨hush_request r s, ?_⟩
  rcases perform_request r s with ⟨-, hscan, -⟩ | ⟨-, hscan, -⟩
  · rw [hscan]
    exact kept_next (P := fun a => a.reader.Enduring onClosing) LookAhead.enduring_advance
      h.enduring
  · rw [hscan]
    exact h.enduring

theorem Session.Between.shared (h : s.Between onClosing) (requests : List Request) :
    (Drive.shared s requests).1.Between onClosing := by
  induction requests generalizing s with
  | nil => exact h
  | cons r requests ih =>
    rw [shared_cons]
    exact ih (h.request r)

end Request

/-- A schedule may be carried out in two parts. -/
theorem shared_append (s : Session) (a b : List Request) :
    shared s (a ++ b) =
      ((shared (shared s a).1 b).1, (shared s a).2 ++ (shared (shared s a).1 b).2) := by
  induction a generalizing s with
  | nil => rfl
  | cons r a ih => rw [List.cons_append, shared_cons, ih, shared_cons, List.cons_append]

/-! ## 4. Closings -/

/-- The second session is the first after a closing: the reader was closed once more, and the scan
    stands where it stood and has the same sink, with the same held by its leaves. -/
structure Session.ClosedOnce (s s' : Session) : Prop where
  closes : s'.scan.ahead.reader.closes = s.scan.ahead.reader.closes + 1
  current : s'.scan.ahead.current = s.scan.ahead.current
  place : s'.scan.ahead.place = s.scan.ahead.place
  atEnd : s'.scan.ahead.atEnd = s.scan.ahead.atEnd
  sink : s'.scan.observer.sink = s.scan.observer.sink
  leaves : s'.desk.leaves = s.desk.leaves

/-- Once the events are told, nothing is left of a closing but that it is counted. -/
theorem hush_close (s : Session) :
    s.close.1.hush = s.hush.closedTimes (s.scan.ahead.reader.closes + 1) ∧
      s.close.2 = s.scan.ahead.reader.faultOnClosing.map Failure.onClosing := by
  unfold Session.close Report.close
  rw [LookAhead.close_eq]
  cases s.scan.ahead.reader.faultOnClosing.map Failure.onClosing <;> exact ⟨rfl, rfl⟩

theorem closedOnce_hush_close (s : Session) : s.ClosedOnce s.close.1.hush := by
  rw [(hush_close s).1]
  exact ⟨rfl, rfl, rfl, rfl, rfl, rfl⟩

/-- **A closing leaves the session alone**, by itself or at the end of a block. -/
theorem closedOnce_close (s : Session) :
    s.ClosedOnce (perform .close s).1 ∧ ∀ steps raise,
      (performAll steps s).1.ClosedOnce (perform (.block steps raise) s).1 := by
  refine ⟨?_, fun steps raise => ?_⟩
  · rw [perform]
    exact closedOnce_hush_close s
  · rw [perform]
    exact closedOnce_hush_close _

/-- What leaves a block is the failure to close, or else the one raised. -/
theorem failure_escape (raise closing : Option Failure) :
    (Session.escape raise closing).map Escape.failure = (closing <|> raise) := by
  unfold Session.escape
  cases closing with
  | none => cases raise <;> rfl
  | some f => cases f <;> rfl

section Deeds

variable {onClosing : Option Failure}

/-- Closing a session between two steps once more. -/
theorem Session.Between.close {s : Session} (h : s.Between onClosing) (n : Nat) :
    (s.closedTimes n).close.1.hush = s.closedTimes (n + 1) ∧
      (s.closedTimes n).close.2 = onClosing.map Failure.onClosing := by
  obtain ⟨hhush, hfailure⟩ := hush_close (s.closedTimes n)
  refine ⟨?_, ?_⟩
  · -- There were no events before, so what is told is the record of the closing alone.
    rw [hhush]
    conv => rhs; rw [← h.hushed]
    rfl
  · rw [hfailure, ← h.enduring.closing]
    rfl

mutual

/-- **What a deed comes to**: its requests come to what they come to by themselves, and its closings
    are counted and come out as they should. -/
theorem perform_deed (deed : Deed) {s : Session} (h : s.Between onClosing) (n : Nat) :
    (perform deed.step (s.closedTimes n)).1 =
        (shared s deed.requests).1.closedTimes (n + deed.closings) ∧
      deed.Ends (onClosing.map Failure.onClosing) (perform deed.step (s.closedTimes n)).2
        (answers (shared s deed.requests).2) := by
  cases deed with
  | request r =>
    obtain ⟨hsession, outcome, trail, trail', hplain, hplain'⟩ := perform_closedTimes h.enduring r n
    rw [Deed.step, Deed.requests, shared_cons, hsession, hplain, hplain']
    exact ⟨rfl, .request⟩
  | close =>
    obtain ⟨hclosed, hfailure⟩ := h.close n
    rw [Deed.step, perform]
    dsimp only
    rw [hfailure]
    exact ⟨hclosed, .close⟩
  | block deeds raise =>
    -- However the body ended, leaving the block closes the reader once.
    obtain ⟨hbody, hentries⟩ := performAll_deeds deeds h n
    obtain ⟨hclosed, hfailure⟩ := (h.shared (Deed.requestsAll deeds)).close
      (n + Deed.closingsAll deeds)
    rw [Deed.step, perform]
    dsimp only
    rw [hbody, hclosed, hfailure]
    exact ⟨rfl, .block hentries (failure_escape _ _)⟩

theorem performAll_deeds (deeds : List Deed) {s : Session} (h : s.Between onClosing) (n : Nat) :
    (performAll (Deed.steps deeds) (s.closedTimes n)).1 =
        (shared s (Deed.requestsAll deeds)).1.closedTimes (n + Deed.closingsAll deeds) ∧
      Deed.EndAll (onClosing.map Failure.onClosing)
        deeds (performAll (Deed.steps deeds) (s.closedTimes n)).2
        (answers (shared s (Deed.requestsAll deeds)).2) := by
  cases deeds with
  | nil => exact ⟨rfl, .nil⟩
  | cons deed later =>
    obtain ⟨hfirst, hentry⟩ := perform_deed deed h n
    obtain ⟨hlater, hentries⟩ :=
      performAll_deeds later (h.shared deed.requests) (n + deed.closings)
    rw [Deed.steps, performAll, Deed.requestsAll, shared_append]
    dsimp only
    rw [hfirst, hlater, Deed.closingsAll, Nat.add_assoc]
    refine ⟨rfl, ?_⟩
    unfold answers
    rw [List.filterMap_append]
    exact .cons hentry hentries

end

end Deeds

/-! ## 5. Sessions over scripted readers -/

/-- A session that is opened over a reader has made one read of it. -/
theorem reader_of_start {tree : Files.Tree} {reader : Reader} {options : Option Options}
    {plan : Option Plan} {s : Session} (h : start tree (.reader reader) options plan = .ok s) :
    s.scan.ahead.reader = reader.read.2 := by
  unfold start openReader LookAhead.start at h
  dsimp only at h
  cases hread : reader.read with
  | mk outcome reader' =>
    rw [hread] at h
    cases outcome with
    | error f => cases h
    | ok c =>
      cases h
      rfl

/-- **Closings under any nesting.** Closing a session, by itself or at the end of a block, leaves it
    standing where it stood, with the same sink. And over any scripted reader, with reads that fail
    or without, whatever requests, closings and blocks of such there are:

    * the reader is closed once for each closing and once for each block;
    * the session comes to what it comes to with all closings taken out, but for their number, and
      the requests answer alike, with tokens and with failures;
    * each closing comes out in the same way, and a block lets out what its closing came to, or else
      what it raised itself, if anything. -/
theorem closings_framed (tree : Files.Tree) (chunks : List (List Char)) (failing : Nat → Bool)
    (onClosing : Option Failure) (options : Option Options) (plan : Option Plan) :
    (∀ s : Session, s.ClosedOnce (perform .close s).1 ∧ ∀ steps raise,
      (performAll steps s).1.ClosedOnce (perform (.block steps raise) s).1) ∧
    ∃ closing, ComesOut onClosing closing ∧ ∀ (s : Session) (deeds : List Deed),
      start tree (.reader (.scripted chunks failing onClosing)) options plan = .ok s →
        (performAll (Deed.steps deeds) s.hush).1.scan.ahead.reader.closes =
          Deed.closingsAll deeds ∧
        (performAll (Deed.steps deeds) s.hush).1 =
          (shared s.hush (Deed.requestsAll deeds)).1.closedTimes (Deed.closingsAll deeds) ∧
        Deed.EndAll closing deeds (performAll (Deed.steps deeds) s.hush).2
          (answers (shared s.hush (Deed.requestsAll deeds)).2) := by
  refine ⟨closedOnce_close, _, comesOut_onClosing onClosing, fun s deeds hstart => ?_⟩
  have hreader := reader_of_start hstart
  have hscripted : (Reader.scripted chunks failing onClosing).Enduring onClosing := ⟨rfl, rfl⟩
  have hbetween : s.hush.Between onClosing := by
    refine ⟨rfl, ?_⟩
    show s.scan.ahead.reader.Enduring onClosing
    rw [hreader]
    exact hscripted.read
  have hzero : s.scan.ahead.reader.closes = 0 := by rw [hreader, Reader.closes_read]; rfl
  have hself : s.hush.closedTimes 0 = s.hush := by
    rw [← hzero]
    rfl
  obtain ⟨hsession, hentries⟩ := performAll_deeds deeds hbetween 0
  rw [hself, Nat.zero_add] at hsession
  rw [hself] at hentries
  refine ⟨?_, hsession, hentries⟩
  rw [hsession]
  rfl

/-- Two blocks, one in the other, both of which raise something, and a closing between them, over a
    reader whose closing fails in a family of the operating system that has no number. -/
theorem closings_framed_blocks :
    let gone : Failure := .outside (.system (.other "gone")) "away"
    let deeds : List Deed :=
      [.block [.request .create, .request (.pull 0), .close,
        .block [.request .direct] (some .closedFile)] (some .nulInPath), .request .direct]
    ∃ s, start ⟨[], [], []⟩ (.reader (.scripted [['a', ' ', 'b']] (· = 4) (some gone))) none none =
        .ok s ∧
      (performAll (Deed.steps deeds) s.hush).1.scan.ahead.reader.closes = 3 ∧
      Deed.EndAll (some (.closing gone)) deeds (performAll (Deed.steps deeds) s.hush).2
        (answers (shared s.hush [.create, .pull 0, .direct, .direct]).2) := by
  intro gone deeds
  obtain ⟨s, hstart⟩ : ∃ s, start ⟨[], [], []⟩
    (.reader (.scripted [['a', ' ', 'b']] (· = 4) (some gone))) none none = .ok s := ⟨_, rfl⟩
  obtain ⟨-, closing, hcomesOut, hdeeds⟩ :=
    closings_framed ⟨[], [], []⟩ [['a', ' ', 'b']] (· = 4) (some gone) none none
  obtain ⟨hcloses, -, hentries⟩ := hdeeds s deeds hstart
  cases hcomesOut with
  | wrapped => exact ⟨s, hstart, hcloses, hentries⟩
  | unchanged hother => exact absurd rfl (hother (.other "gone"))

end Drive

end YaslLexis
