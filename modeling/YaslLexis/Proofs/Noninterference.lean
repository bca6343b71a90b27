import YaslLexis.Proofs.Abreast
import YaslLexis.Proofs.Patience

/-!
# Sinks do not interfere

Between the calls for tokens the sink of a scan may be replaced and the name of its text changed.
None of it reaches the automaton: two runs over the same characters, each with a name, with sinks and
with changes of its own, give the same tokens and look at the same characters. And no change of the
sink loses a report: what the sinks of a run were given, one after the other, is in both runs the
same but for the name, which is the one in force.

* `Change`, `Setting` -- a change between calls; the name, the sink and the changes of a run;
* `Course`, `Setting.course`, `Setting.due` -- how far a run has come; after a number of calls, and
  when the next one is due;
* `Course.received` -- what the sinks in force were given, in order;
* `Finding`, `findings` -- what is reported, without the name, and what there is to find in a text;
* `Equally`, `abreast_equally` -- two scans that look at the same, and to whose sinks the same was
  reported; the automaton keeps them so, and `next_equally` a call;
* `next_findings` -- a call reports the first of what there is to find, and leaves the rest;
* `received_changed`, `received_called` -- a change adds nothing to what was received, and a call adds
  what it reports;
* **`sinks_do_not_interfere`** -- two runs with the same reader and line.
-/

namespace YaslLexis.Machine

open Report

/-! ## 1. Runs with changes -/

/-- What may be done between two calls. -/
inductive Change (σ : Type) where
  /-- Another sink takes the place of the one in force. -/
  | redirect (sink : σ)
  /-- The text gets another name. -/
  | rename (file : String)

/-- What is left to those who scan a text: its name, the sink, and the changes before each call. -/
structure Setting (σ : Type) where
  file : String
  sink : σ
  schedule : Nat → List (Change σ)

/-- How far a run has come: the scan, with the sink in force, and the sinks that were in force
    before, from the first one on. All of them keep a record. -/
structure Course (σ : Type) where
  scan : Scan (Logged σ)
  replaced : List (Logged σ) := []

variable {σ τ : Type}

namespace Course

/-- Makes a change. -/
def change (c : Course σ) : Change σ → Course σ
  | .redirect sink =>
    ⟨{ c.scan with observer := ⟨sink, []⟩ }, c.replaced ++ [c.scan.observer]⟩
  | .rename file => { c with scan := { c.scan with file } }

/-- Makes several changes. -/
def changed (c : Course σ) (changes : List (Change σ)) : Course σ := changes.foldl change c

/-- Calls for a token. -/
def called [Observer σ] (c : Course σ) : Course σ := { c with scan := c.scan.next.1 }

/-- What the sinks were given while they were in force, one sink after the other. -/
def received (c : Course σ) : List Diagnostic :=
  (c.replaced ++ [c.scan.observer]).flatMap fun sink => offered sink.log

end Course

/-- The name in force after a change. -/
def Change.name (file : String) : Change σ → String
  | .redirect _ => file
  | .rename file => file

namespace Setting

/-- The name in force at the call with a number. -/
def nameAt (m : Setting σ) : Nat → String
  | 0 => (m.schedule 0).foldl Change.name m.file
  | n + 1 => (m.schedule (n + 1)).foldl Change.name (m.nameAt n)

/-- The sinks refuse nothing. -/
def Accepting [Observer σ] (m : Setting σ) : Prop :=
  Willing m.sink ∧ ∀ n sink, .redirect sink ∈ m.schedule n → Willing sink

variable [Observer σ] (m : Setting σ) (reader : Reader) (line : Int)

/-- The run after a number of calls. -/
def course : Nat → Course σ
  | 0 => { scan := opened { file := m.file, line } reader ⟨m.sink, []⟩ }
  | n + 1 => ((course n).changed (m.schedule n)).called

/-- The run when the call with a number is made. -/
def due (n : Nat) : Course σ := (m.course reader line n).changed (m.schedule n)

end Setting

/-! ## 2. Reports -/

/-- What is reported: a complaint and its place. -/
structure Finding where
  complaint : Complaint
  place : Place

/-- The diagnostic, under a name. -/
def Finding.named (file : String) (f : Finding) : Diagnostic := ⟨f.complaint, some ⟨file, f.place⟩⟩

theorem Finding.named_injective {file : String} {f g : Finding}
    (h : f.named file = g.named file) : f = g := by
  obtain ⟨complaint, place⟩ := f
  obtain ⟨complaint', place'⟩ := g
  cases h
  rfl

/-- What there is to find in a text. -/
def findings (text : List Char) (place : Place) : List Finding :=
  along (fun piece p => piece.complaint?.map fun complaint => ⟨complaint, p.afterAll piece.lead⟩)
    (pieces text) place

/-- The diagnostics about a text are its findings, under a name. -/
theorem reports_eq_findings (file : String) (text : List Char) (place : Place) :
    reports file text place = (findings text place).map (Finding.named file) := by
  unfold findings
  rw [← along_map]
  simp only [Option.map_map]
  rfl

variable [Observer σ] [Observer τ]

/-- A sink that refuses nothing takes the report, and its record gets it. -/
theorem report_willing {s : Scan (Logged σ)} (h : Willing s.observer) (complaint : Complaint) :
    (s.report complaint).2 = none ∧ Willing (s.report complaint).1.observer ∧
      offered (s.report complaint).1.observer.log =
        offered s.observer.log ++ [Finding.named s.file ⟨complaint, s.ahead.place⟩] := by
  obtain ⟨y, hoffer, hwilling⟩ := h.offer ⟨complaint, some ⟨s.file, s.ahead.place⟩⟩
  have hreport : s.report complaint = ({ s with observer := y }, none) := by
    unfold Scan.report
    rw [hoffer]
  refine ⟨congrArg Prod.snd hreport, by rw [hreport]; exact hwilling, ?_⟩
  exact List.map_append

/-- Two scans that look at the same, with sinks that refuse nothing, to which the same was reported
    since they had been given `ds` and `ds'`. -/
structure Equally (ds ds' : List Diagnostic) (file file' : String) (s : Scan (Logged σ))
    (s' : Scan (Logged τ)) : Prop where
  ahead : s'.ahead = s.ahead
  name : s.file = file
  name' : s'.file = file'
  willing : Willing s.observer
  willing' : Willing s'.observer
  found : ∃ found : List Finding,
    offered s.observer.log = ds ++ found.map (Finding.named file) ∧
    offered s'.observer.log = ds' ++ found.map (Finding.named file')

theorem abreast_equally (ds ds' : List Diagnostic) (file file' : String) :
    Abreast (Equally (σ := σ) (τ := τ) ds ds' file file') where
  current h := by rw [h.ahead]
  place h := by rw [h.ahead]
  advance h := by
    rw [h.ahead]
    exact ⟨rfl, rfl, h.name, h.name', h.willing, h.willing', h.found⟩
  report {s s'} h complaint := by
    obtain ⟨hnone, hwilling, hlog⟩ := report_willing h.willing complaint
    obtain ⟨hnone', hwilling', hlog'⟩ := report_willing h.willing' complaint
    obtain ⟨found, hfound, hfound'⟩ := h.found
    refine ⟨hnone'.trans hnone.symm, h.ahead, h.name, h.name', hwilling, hwilling',
      found ++ [⟨complaint, s.ahead.place⟩], ?_, ?_⟩
    · rw [hlog, hfound, h.name, List.map_append, List.append_assoc]
      rfl
    · rw [hlog', hfound', h.name', h.ahead, List.map_append, List.append_assoc]
      rfl
  heard h t := ⟨h.ahead, h.name, h.name', h.willing.heard t, h.willing'.heard t, h.found⟩

/-! ## 3. Calls -/

/-- **A call does the same in both scans**, and reports the same, each time under the name in
    force. -/
theorem next_equally {s : Scan (Logged σ)} {s' : Scan (Logged τ)} (hahead : s'.ahead = s.ahead)
    (h : Willing s.observer) (h' : Willing s'.observer) :
    s'.next.2 = s.next.2 ∧
      Equally (offered s.observer.log) (offered s'.observer.log) s.file s'.file s.next.1
        s'.next.1 := by
  have hbegin : Equally (offered s.observer.log) (offered s'.observer.log) s.file s'.file s s' :=
    ⟨hahead, rfl, rfl, h, h', [], (List.append_nil _).symm, (List.append_nil _).symm⟩
  obtain ⟨hlater, hresult⟩ := (abreast_equally _ _ _ _).next hbegin
  exact ⟨hresult, hlater⟩

/-- **What a call reports is the first of what there is to find**, and it leaves the rest. -/
theorem next_findings {s : Scan (Logged σ)} {text : List Char} {place : Place}
    (h : Ready s text place) {found : List Finding}
    (hfound : offered s.next.1.observer.log =
      offered s.observer.log ++ found.map (Finding.named s.file)) :
    findings s.ahead.rest s.ahead.place =
      found ++ findings s.next.1.ahead.rest s.next.1.ahead.place := by
  obtain ⟨log, text', place', hpass, -⟩ := next_spec h.at'
  have htaken : AllTaken log := h.willing log _ hpass.observed
  have hlog : offered s.next.1.observer.log = offered s.observer.log ++ offered log := by
    rw [hpass.observed.log_eq]
    exact List.map_append
  have hsame : offered log = found.map (Finding.named s.file) :=
    List.append_cancel_left (hlog.symm.trans hfound)
  have hnamed : (findings text place).map (Finding.named s.file) =
      (found ++ findings text' place').map (Finding.named s.file) := by
    rw [List.map_append, ← reports_eq_findings, ← reports_eq_findings, ← hsame]
    exact hpass.delivery.of_allTaken htaken
  rw [h.at'.rest, h.at'.place, hpass.at'.rest, hpass.at'.place]
  exact (List.map_inj_right fun _ _ => Finding.named_injective).1 hnamed

namespace Course

omit [Observer σ] in
theorem ahead_changed (c : Course σ) (changes : List (Change σ)) :
    (c.changed changes).scan.ahead = c.scan.ahead := by
  induction changes generalizing c with
  | nil => rfl
  | cons change changes ih =>
    have hone : (c.change change).scan.ahead = c.scan.ahead := by cases change <;> rfl
    rw [← hone]
    exact ih (c.change change)

omit [Observer σ] in
theorem file_changed (c : Course σ) (changes : List (Change σ)) :
    (c.changed changes).scan.file = changes.foldl Change.name c.scan.file := by
  induction changes generalizing c with
  | nil => rfl
  | cons change changes ih =>
    have hone : (c.change change).scan.file = change.name c.scan.file := by cases change <;> rfl
    rw [List.foldl_cons, ← hone]
    exact ih (c.change change)

theorem willing_changed {c : Course σ} (h : Willing c.scan.observer) {changes : List (Change σ)}
    (hchanges : ∀ sink, .redirect sink ∈ changes → Willing sink) :
    Willing (c.changed changes).scan.observer := by
  induction changes generalizing c with
  | nil => exact h
  | cons change changes ih =>
    have hlater : ∀ sink, .redirect sink ∈ changes → Willing sink := fun sink hmem =>
      hchanges sink (List.mem_cons_of_mem _ hmem)
    cases change with
    | rename file => exact ih (c := c.change (.rename file)) h hlater
    | redirect sink =>
      have hsink := hchanges sink List.mem_cons_self
      exact ih (c := c.change (.redirect sink)) (hsink.logged []) hlater

omit [Observer σ] in
/-- **A change adds nothing to what was received**, and takes nothing from it. -/
theorem received_changed (c : Course σ) (changes : List (Change σ)) :
    (c.changed changes).received = c.received := by
  induction changes generalizing c with
  | nil => rfl
  | cons change changes ih =>
    have hone : (c.change change).received = c.received := by
      cases change with
      | rename file => rfl
      | redirect sink => simp [change, received, offered]
    rw [← hone]
    exact ih (c.change change)

/-- **A call adds what it reports.** -/
theorem received_called {c : Course σ} {ds : List Diagnostic}
    (h : offered c.scan.next.1.observer.log = offered c.scan.observer.log ++ ds) :
    c.called.received = c.received ++ ds := by
  unfold received called
  rw [List.flatMap_append, List.flatMap_append, List.append_assoc]
  simp [h]

end Course

/-! ## 4. Two runs -/

section Runs

variable {reader : Reader} (hreader : reader.Reliable) {line : Int} (hline : 1 ≤ line)
  {m : Setting σ} (hm : m.Accepting)
include hreader hline hm

/-- Whatever the changes, there are tokens to come and the sink in force refuses nothing, when a call
    is over and when the next one is due. -/
theorem ready_course (n : Nat) :
    (∃ text place, Ready (m.course reader line n).scan text place) ∧
      ∃ text place, Ready (m.due reader line n).scan text place := by
  have hdue {n : Nat} (h : ∃ text place, Ready (m.course reader line n).scan text place) :
      ∃ text place, Ready (m.due reader line n).scan text place := by
    obtain ⟨text, place, hready⟩ := h
    refine ⟨text, place, Course.willing_changed hready.willing (hm.2 n), ?_, hready.tokens⟩
    unfold Setting.due
    rw [Course.ahead_changed]
    exact hready.at'
  have hcourse : ∃ text place, Ready (m.course reader line n).scan text place := by
    induction n with
    | zero => exact ⟨_, _, ready_opened hreader (hm.1.logged []) { file := m.file, line } hline⟩
    | succ n ih =>
      obtain ⟨text, place, hready⟩ := hdue ih
      exact hready.next.2
  exact ⟨hcourse, hdue hcourse⟩

/-- A call does not change the name. -/
theorem file_due (n : Nat) : (m.due reader line n).scan.file = m.nameAt n := by
  induction n with
  | zero => exact Course.file_changed _ _
  | succ n ih =>
    obtain ⟨-, text, place, hready⟩ := ready_course hreader hline hm n
    obtain ⟨-, hlater⟩ := next_equally (τ := σ) rfl hready.willing hready.willing
    rw [Setting.due, Course.file_changed, Setting.nameAt, ← ih, ← hlater.name]
    rfl

/-- Each call gives a token, also without the records. -/
theorem call_course (n : Nat) :
    ∃ t, (m.due reader line n).scan.next.2 = .ok t ∧
      (m.due reader line n).scan.forget.next =
        ((m.course reader line (n + 1)).scan.forget, .ok t) := by
  obtain ⟨-, text, place, hready⟩ := ready_course hreader hline hm n
  obtain ⟨t, ht⟩ := hready.next.1
  exact ⟨t, ht, by rw [next_forget, ht]; rfl⟩

omit hreader hline hm in
/-- What was received are the reports of the calls so far. -/
theorem received_course {found : Nat → List Finding}
    (hfound : ∀ n, offered (m.due reader line n).scan.next.1.observer.log =
      offered (m.due reader line n).scan.observer.log ++
        (found n).map (Finding.named (m.nameAt n))) (n : Nat) :
    (m.course reader line n).received =
      (List.range n).flatMap (fun i => (found i).map (Finding.named (m.nameAt i))) := by
  induction n with
  | zero => rfl
  | succ n ih =>
    have hdue : (m.due reader line n).received = (m.course reader line n).received :=
      Course.received_changed _ (m.schedule n)
    have hcalled : (m.course reader line (n + 1)).received =
        (m.due reader line n).received ++ (found n).map (Finding.named (m.nameAt n)) :=
      Course.received_called (hfound n)
    rw [hcalled, hdue, ih, List.range_succ, List.flatMap_append, List.flatMap_singleton]

/-- What was reported so far comes before what there is to find in what is still to come. -/
theorem findings_course {found : Nat → List Finding}
    (hfound : ∀ n, offered (m.due reader line n).scan.next.1.observer.log =
      offered (m.due reader line n).scan.observer.log ++
        (found n).map (Finding.named (m.nameAt n))) (n : Nat) :
    findings (Reader.untilEmpty reader.pending) ⟨line, 1⟩ =
      (List.range n).flatMap found ++
        findings (m.course reader line n).scan.ahead.rest
          (m.course reader line n).scan.ahead.place := by
  induction n with
  | zero =>
    have hat := at_opened hreader { file := m.file, line } (⟨m.sink, []⟩ : Logged σ)
    rw [← hat.rest, ← hat.place]
    rfl
  | succ n ih =>
    obtain ⟨-, text, place, hready⟩ := ready_course hreader hline hm n
    have hcall := hfound n
    rw [← file_due hreader hline hm n] at hcall
    have hnext := next_findings hready hcall
    have hahead : (m.due reader line n).scan.ahead = (m.course reader line n).scan.ahead :=
      Course.ahead_changed _ _
    rw [ih, ← hahead, hnext, List.range_succ, List.flatMap_append, List.flatMap_singleton,
      List.append_assoc]
    rfl

end Runs

/-- **The sinks and the name do not interfere with the scan, and changing the sink loses nothing.**
    Two runs over a reader that does not fail, from the same counted line on, each with a name, with
    sinks that refuse nothing and with changes of the name and the sink before each of its calls:

    * each call gives the same token in both, with the records and without them;
    * the look-aheads are the same after every call, hence at the same characters and places;
    * what the sinks in force were given, one after the other, are the findings of the calls so far,
      each under the name in force at its call; and the findings are the same in both;
    * none is lost: the findings of the calls so far and what there is to find in what is still to
      come are together what there is to find in the whole text. -/
theorem sinks_do_not_interfere {reader : Reader} (hreader : reader.Reliable) {line : Int}
    (hline : 1 ≤ line) {m : Setting σ} (hm : m.Accepting) {m' : Setting τ} (hm' : m'.Accepting) :
    ∃ found : Nat → List Finding, ∀ n,
      (∃ t,
        (m.due reader line n).scan.forget.next =
          ((m.course reader line (n + 1)).scan.forget, .ok t) ∧
        (m'.due reader line n).scan.forget.next =
          ((m'.course reader line (n + 1)).scan.forget, .ok t)) ∧
      (m'.course reader line n).scan.ahead = (m.course reader line n).scan.ahead ∧
      (m.course reader line n).received =
        (List.range n).flatMap (fun i => (found i).map (Finding.named (m.nameAt i))) ∧
      (m'.course reader line n).received =
        (List.range n).flatMap (fun i => (found i).map (Finding.named (m'.nameAt i))) ∧
      findings (Reader.untilEmpty reader.pending) ⟨line, 1⟩ =
        (List.range n).flatMap found ++
          findings (m.course reader line n).scan.ahead.rest
            (m.course reader line n).scan.ahead.place := by
  -- Calls over the same look-ahead can be compared one by one.
  have hcall {n : Nat}
      (h : (m'.course reader line n).scan.ahead = (m.course reader line n).scan.ahead) :
      (m'.due reader line n).scan.next.2 = (m.due reader line n).scan.next.2 ∧
        Equally (offered (m.due reader line n).scan.observer.log)
          (offered (m'.due reader line n).scan.observer.log) (m.nameAt n) (m'.nameAt n)
          (m.due reader line n).scan.next.1 (m'.due reader line n).scan.next.1 := by
    obtain ⟨-, _, _, hready⟩ := ready_course hreader hline hm n
    obtain ⟨-, _, _, hready'⟩ := ready_course hreader hline hm' n
    have hdue : (m'.due reader line n).scan.ahead = (m.due reader line n).scan.ahead := by
      unfold Setting.due
      rw [Course.ahead_changed, Course.ahead_changed, h]
    rw [← file_due hreader hline hm n, ← file_due hreader hline hm' n]
    exact next_equally hdue hready.willing hready'.willing
  have hahead (n : Nat) :
      (m'.course reader line n).scan.ahead = (m.course reader line n).scan.ahead := by
    induction n with
    | zero => rfl
    | succ n ih => exact (hcall ih).2.ahead
  obtain ⟨found, hfound⟩ := Classical.axiomOfChoice fun n => (hcall (hahead n)).2.found
  refine ⟨found, fun n => ⟨?_, hahead n, ?_, ?_, ?_⟩⟩
  · obtain ⟨t, ht, hnext⟩ := call_course hreader hline hm n
    obtain ⟨t', ht', hnext'⟩ := call_course hreader hline hm' n
    obtain rfl : t' = t := by
      rw [(hcall (hahead n)).1, ht] at ht'
      exact (Except.ok.inj ht').symm
    exact ⟨t', hnext, hnext'⟩
  · exact received_course (fun n => (hfound n).1) n
  · exact received_course (fun n => (hfound n).2) n
  · exact findings_course hreader hline hm (fun n => (hfound n).1) n

/-- The sink and the name change behind the first call of one run; the other run keeps the error
    output. -/
theorem sinks_do_not_interfere_redirected :
    let reader : Reader := .ofText ['#', 'a', '#']
    let m : Setting Collector := ⟨"a", {}, fun n =>
      if n = 1 then [.redirect { limit := 0 }, .rename "b"] else []⟩
    let m' : Setting Post := ⟨"c", ⟨.leaf 0, { leaves := #[.errorOutput] }⟩, fun _ => []⟩
    reader.Reliable ∧ (1 : Int) ≤ 2 ∧ m.Accepting ∧ m'.Accepting ∧
      (m.course reader 2 2).received =
        [⟨.illegalCharacter "#", some ⟨"a", ⟨2, 1⟩⟩⟩, ⟨.illegalCharacter "#", some ⟨"b", ⟨2, 3⟩⟩⟩] ∧
      (m'.course reader 2 2).scan.ahead = (m.course reader 2 2).scan.ahead ∧
      ∃ found : Nat → List Finding,
        (m.course reader 2 2).received =
          (found 0).map (Finding.named "a") ++ (found 1).map (Finding.named "b") ∧
        (m'.course reader 2 2).received =
          (found 0).map (Finding.named "c") ++ (found 1).map (Finding.named "c") := by
  intro reader m m'
  have hreader : reader.Reliable := Reader.reliable_ofText _
  have hcollector (c : Collector) : Willing c := fun log y hlog => hlog.collector.1
  have hm : m.Accepting := ⟨hcollector _, fun n sink _ => hcollector sink⟩
  have hm' : m'.Accepting := by
    refine ⟨willing_of_patient fun leaf hmem => ?_, fun n sink hmem => ?_⟩
    · obtain rfl : leaf = .errorOutput := Array.mem_singleton.1 hmem
      exact trivial
    · cases hmem
  have hline : (1 : Int) ≤ 2 := by decide
  obtain ⟨found, hfound⟩ := sinks_do_not_interfere hreader hline hm hm'
  obtain ⟨-, hahead, hreceived, hreceived', -⟩ := hfound 2
  have htwo (f : Nat → List Diagnostic) : (List.range 2).flatMap f = f 0 ++ f 1 := by
    simp [List.range_succ]
  rw [htwo] at hreceived hreceived'
  exact ⟨hreader, hline, hm, hm', by decide +kernel, hahead, found, hreceived, hreceived'⟩

end YaslLexis.Machine
