import Mathlib.Data.Nat.Digits.Defs
import YaslLexis.Command.Run
import YaslLexis.Proofs.Abreast
import YaslLexis.Proofs.Spelling

/-!
# What the command prints

The command scans a file with a collector and the error output as its sinks and looks after each
token whether it has seen enough. What it prints is told by the whole scan of the same file with a
collector alone, cut at the first token after which there are a hundred diagnostics.

* `Escapeless` -- texts that are written as they are: numbers, the lines of tokens;
* `Mirrors`, `abreast_mirrors` -- the command's sinks agree with a collector alone, and so its scan
  is abreast of one that has it;
* `StopsAt` -- where a listing is cut;
* `list_spec` -- a listing has the tokens up to there, and leaves the scan as the calls up to there;
* **`run_prints_scan`** -- all that the command prints about a file, and the code that it leaves.
-/

namespace YaslLexis

/-! ## 1. Texts without control sequences -/

namespace Text

/-- No control sequence begins in the text. -/
def Escapeless (text : String) : Prop := Plain.escape ∉ text.toList

instance (text : String) : Decidable (Escapeless text) := inferInstanceAs (Decidable (_ ∉ _))

theorem Plain.strip_of_not_mem {text : List Char} (h : Plain.escape ∉ text) :
    Plain.strip text = text := by
  induction text with
  | nil => rw [Plain.strip]
  | cons c rest ih =>
    obtain ⟨hc, hrest⟩ := not_or.1 (mt List.mem_cons.2 h)
    have hnone : Plain.afterControl (c :: rest) = none := by
      unfold Plain.afterControl
      split
      · rename_i heq
        cases heq
        exact if_neg (Ne.symm hc)
      · rfl
    rw [Plain.strip]
    split
    · rename_i heq
      rw [hnone] at heq
      cases heq
    · rw [ih hrest]

namespace Escapeless

variable {a b : String}

theorem plain (h : Escapeless a) : Text.plain a = a := by
  unfold Text.plain
  rw [Plain.strip_of_not_mem h, String.ofList_toList]

theorem append (ha : Escapeless a) (hb : Escapeless b) : Escapeless (a ++ b) := by
  unfold Escapeless
  rw [String.toList_append, List.mem_append]
  exact not_or.2 ⟨ha, hb⟩

theorem padRight (h : Escapeless a) (width : Nat) : Escapeless (Text.padRight width a) := by
  unfold Escapeless
  rw [Text.toList_padRight, List.mem_append]
  refine not_or.2 ⟨h, fun hmem => ?_⟩
  exact absurd (List.eq_of_mem_replicate hmem) (by decide)

theorem natural (n : Nat) : Escapeless (toString n) := by
  unfold Escapeless
  rw [Nat.toString_eq_ofList_toDigits, String.toList_ofList]
  intro hmem
  exact absurd (Nat.isDigit_of_mem_toDigits (by decide) (by decide) hmem) (by decide)

theorem integer (n : Int) : Escapeless (toString n) := by
  show Escapeless n.repr
  rw [Int.repr_eq_if]
  split
  · exact natural _
  · exact append (by decide) (natural _)

end Escapeless

end Text

open Text Machine

theorem Place.text_escapeless (p : Place) : Escapeless p.text :=
  ((Escapeless.integer p.line).append (by decide)).append (Escapeless.integer p.column)

theorem Kind.name_escapeless (k : Kind) : Escapeless k.name := by
  have hall : ∀ k ∈ Kind.all, Escapeless k.name := by decide
  exact hall k (Kind.mem_all k)

theorem Token.listed_escapeless {t : Token} (h : ∀ text ∈ t.text, Escapeless text) :
    Escapeless t.listed := by
  have hplace := t.place.text_escapeless.padRight Token.placeWidth
  unfold Token.listed
  cases htext : t.text with
  | none => exact hplace.append t.kind.name_escapeless
  | some text =>
    have hkind := t.kind.name_escapeless.padRight Token.kindWidth
    exact (hplace.append hkind).append (h text htext)

/-- The line of each token of a text is written as it is. -/
theorem plain_listed {text : List Char} {place : Place} {t : Token}
    (h : .ok t ∈ outcomes text place) : Text.plain t.listed = t.listed := by
  have hnot : continuesWord Plain.escape = false := by decide +kernel
  refine (Token.listed_escapeless fun txt htxt hmem => ?_).plain
  have hyes := (text_of_mem_outcomes h txt htxt).2 _ hmem
  rw [hnot] at hyes
  cases hyes

/-! ## 2. The command's scan beside one with a collector alone -/

namespace Reader

theorem faultOnClosing_read (r : Reader) : r.read.2.faultOnClosing = r.faultOnClosing := by
  unfold Reader.read
  split <;> rfl

end Reader

theorem LookAhead.faultOnClosing_advance (s : LookAhead) :
    s.advance.1.reader.faultOnClosing = s.reader.faultOnClosing :=
  kept_advance (P := fun r => r.faultOnClosing = s.reader.faultOnClosing)
    (fun r hr => r.faultOnClosing_read.trans hr) rfl

namespace Command

open Report

theorem eventTexts_push (verbose : Bool) (events : Array Event) (event : Event) :
    eventTexts verbose (events.push event) =
      eventTexts verbose events ++ eventText verbose event := by
  unfold eventTexts
  rw [Array.toList_push, List.map_append, String.join_append]
  simp

theorem outputText_map {α : Type} (f : α → String) (as : List α) :
    outputText (as.map f) = String.join (as.map fun a => f a ++ "\n") := by
  unfold outputText
  rw [List.map_map]
  rfl

/-- Diagnostics as they are printed: each with a line feed behind it. -/
def printed (ds : List Diagnostic) : String := String.join (ds.map fun d => d.text ++ "\n")

theorem printed_concat (ds : List Diagnostic) (d : Diagnostic) :
    printed (ds ++ [d]) = printed ds ++ (d.text ++ "\n") := by
  unfold printed
  rw [List.map_append, String.join_append]
  simp

/-- The command's desk holds the collector, and what was collected was printed. -/
structure Mirrors (post : Post) (c : Collector) : Prop where
  sink : post.sink = .tee [.leaf collectorIndex, .leaf outputIndex]
  leaves : post.desk.leaves = #[.collector c, .errorOutput]
  written : eventTexts false post.desk.events = printed c.kept.toList
  limit : c.limit = 100

/-- A diagnostic is collected first and then printed. -/
theorem offer_both {desk : Desk} {c : Collector}
    (h : desk.leaves = #[.collector c, .errorOutput]) (d : Diagnostic) :
    desk.offer (.tee [.leaf collectorIndex, .leaf outputIndex]) d =
      (⟨#[.collector (c.add d), .errorOutput], desk.events.push (.written (d.text ++ "\n"))⟩,
        none) := by
  obtain ⟨leaves, events⟩ := desk
  subst h
  rfl

theorem agreeing_mirrors : Agreeing Mirrors where
  offer {post c} h d := by
    obtain ⟨sink, desk⟩ := post
    obtain ⟨rfl, hleaves, hwritten, hlimit⟩ := h
    have hoffer := offer_both hleaves d
    dsimp only [Observer.offer]
    rw [hoffer]
    refine ⟨rfl, rfl, rfl, ?_, hlimit⟩
    dsimp only
    rw [eventTexts_push, hwritten, Collector.kept_add, printed_concat]
    rfl
  heard h t :=
    ⟨h.sink, h.leaves, (eventTexts_push ..).trans (String.append_empty.trans h.written), h.limit⟩

/-- The same look-ahead, whose reader can be closed. -/
def Closable (a a' : LookAhead) : Prop := a' = a ∧ a.reader.faultOnClosing = none

theorem closable_inStep : InStep Closable where
  current h := by rw [h.1]
  place h := by rw [h.1]
  advance h := by
    rw [h.1]
    exact ⟨rfl, rfl, (LookAhead.faultOnClosing_advance _).trans h.2⟩

theorem abreast_mirrors : Abreast (Beside Closable Mirrors) :=
  abreast_beside closable_inStep agreeing_mirrors

theorem Mirrors.collected {s : Scan Post} {c : Collector} (h : Mirrors s.observer c) :
    Command.collected s = c := by
  unfold Command.collected Desk.collector?
  rw [h.leaves]
  rfl

theorem Mirrors.isFull {s : Scan Post} {c : Collector} (h : Mirrors s.observer c) :
    (Command.collected s).isFull = decide (100 ≤ c.count) := by
  rw [h.collected]
  unfold Collector.isFull
  rw [h.limit]
  exact decide_eq_decide.2 Int.ofNat_le

/-! ## 3. Where a listing is cut -/

/-- The number is the least from one on at which the count reaches the limit, or the last if it is
    not reached before. -/
structure StopsAt (count : Nat → Nat) (limit last k : Nat) : Prop where
  pos : 1 ≤ k
  le : k ≤ last
  before : ∀ j, 1 ≤ j → j < k → count j < limit
  reached : limit ≤ count k ∨ k = last

namespace StopsAt

variable {count : Nat → Nat} {limit last k : Nat}

theorem one (hlast : 1 ≤ last) (h : limit ≤ count 1 ∨ 1 = last) : StopsAt count limit last 1 :=
  ⟨Nat.le_refl 1, hlast, fun _ hpos hlt => absurd hpos (Nat.not_le.2 hlt), h⟩

theorem succ (hfirst : count 1 < limit) (h : StopsAt (fun j => count (j + 1)) limit last k) :
    StopsAt count limit (last + 1) (k + 1) := by
  refine ⟨Nat.le_add_left 1 k, Nat.succ_le_succ h.le, fun j hpos hlt => ?_,
    h.reached.imp_right (congrArg Nat.succ)⟩
  obtain ⟨i, rfl⟩ := Nat.exists_eq_add_of_le' hpos
  by_cases hi : i = 0
  · subst hi
    exact hfirst
  · exact h.before i (Nat.one_le_iff_ne_zero.2 hi) (Nat.lt_of_succ_lt_succ hlt)

/-- There is one such number at most. -/
theorem unique {k' : Nat} (h : StopsAt count limit last k) (h' : StopsAt count limit last k') :
    k = k' := by
  have hle {a b : Nat} (ha : StopsAt count limit last a) (hb : StopsAt count limit last b) :
      a ≤ b := by
    refine Nat.le_of_not_lt fun hlt => ?_
    rcases hb.reached with hfull | hlast
    · exact absurd hfull (Nat.not_le.2 (ha.before b hb.pos hlt))
    · exact absurd (hlast ▸ hlt) (Nat.not_lt.2 ha.le)
  exact Nat.le_antisymm (hle h h') (hle h' h)

end StopsAt

/-- The line about too many diagnostics, if there are. -/
def cutShort (s : Scan Post) : Scan Post :=
  if (Command.collected s).isFull then
    say s ("too many diagnostics (" ++ toString (Command.collected s).limit ++ "), stopping")
  else s

section List

variable {s s' : Scan Post} {t : Token}

theorem list_of_last (h : s.next = (s', .ok t))
    (hlast : (Command.collected s').isFull = true ∨ t.kind = .eof) :
    list s = ⟨[Text.plain t.listed], none, cutShort s'⟩ := by
  rw [list]
  unfold cutShort
  split
  · rename_i heq
    rw [h] at heq
    cases heq
  · rename_i heq
    rw [h] at heq
    cases heq
    by_cases hfull : (Command.collected s').isFull = true
    · rw [if_pos hfull, if_pos hfull]
    · rw [if_neg hfull, if_neg hfull, dif_pos (hlast.resolve_left hfull)]

theorem list_of_more (h : s.next = (s', .ok t)) (hfull : (Command.collected s').isFull = false)
    (hkind : t.kind ≠ .eof) :
    list s = { list s' with lines := Text.plain t.listed :: (list s').lines } := by
  rw [list]
  split
  · rename_i heq
    rw [h] at heq
    cases heq
  · rename_i heq
    rw [h] at heq
    cases heq
    rw [if_neg (by rw [hfull]; exact Bool.false_ne_true), dif_neg hkind]

end List

/-- **A listing is the whole scan with a collector alone, cut** at the first token after which there
    are a hundred diagnostics. -/
theorem list_spec {s : Scan Post} {u : Scan Collector} (h : Beside Closable Mirrors s u)
    {text : List Char} {place : Place} (hready : Ready u text place) :
    ∃ k s', StopsAt (fun j => (u.asked j).observer.count) 100 u.drain.tokens.length k ∧
      Beside Closable Mirrors s' (u.asked k) ∧
      (u.asked k).observer.kept.toList <+: u.drain.diagnostics ∧
      list s =
        ⟨(u.drain.tokens.take k).map fun t => Text.plain t.listed, none, cutShort s'⟩ := by
  induction hn : s.ahead.remaining using Nat.strongRecOn generalizing s u text place with
  | ind n ih =>
    obtain ⟨hscan, hsame⟩ := abreast_mirrors.next h
    obtain ⟨⟨t, ht⟩, text', place', hlater⟩ := hready.next
    have hcall : s.next = (s.next.1, .ok t) := Prod.ext rfl (hsame.symm.trans ht)
    have hcall' : u.next = (u.next.1, .ok t) := Prod.ext rfl ht
    by_cases hend : t.kind = .eof
    · rw [drain_of_end hcall' hend]
      exact ⟨1, s.next.1, .one (Nat.le_refl 1) (.inr rfl), hscan, List.prefix_rfl,
        list_of_last hcall (.inr hend)⟩
    rw [drain_of_token hcall' hend]
    by_cases hfull : 100 ≤ u.next.1.observer.count
    · -- The diagnostics so far are the first ones of the whole scan, which goes on.
      obtain ⟨-, -, hdrained⟩ := drain_spec hlater.at' hlater.tokens
      have hlast := hscan.observer.isFull.trans (decide_eq_true hfull)
      exact ⟨1, s.next.1, .one (Nat.le_add_left 1 _) (.inl hfull), hscan, ⟨_, hdrained.symm⟩,
        list_of_last hcall (.inl hlast)⟩
    · have hless : s.next.1.ahead.remaining < n := hn ▸ remaining_next_lt hcall hend
      obtain ⟨k, s', hstops, hmirrors, hkept, hlist⟩ := ih _ hless hscan hlater rfl
      have hmore := hscan.observer.isFull.trans (decide_eq_false hfull)
      refine ⟨k + 1, s', .succ (Nat.lt_of_not_le hfull) ?_, ?_, ?_, ?_⟩
      · simpa only [Scan.asked_succ] using hstops
      · rw [Scan.asked_succ]
        exact hmirrors
      · rw [Scan.asked_succ]
        exact hkept
      · rw [list_of_more hcall hmore hend, hlist]
        rfl

/-! ## 4. The whole command -/

/-- What the error output says if there are too many diagnostics. -/
def tooMany (count : Nat) : String :=
  if 100 ≤ count then "too many diagnostics (100), stopping\n" else ""

/-- A line that is said is printed as it is. -/
theorem written_say (s : Scan Post) {line : String} (h : Escapeless line) :
    eventTexts false (say s line).observer.desk.events =
      eventTexts false s.observer.desk.events ++ (line ++ "\n") := by
  have hpush := eventTexts_push false s.observer.desk.events (.written (Text.plain line ++ "\n"))
  rw [h.plain] at hpush
  unfold say
  rw [h.plain]
  exact hpush

theorem written_cutShort {s : Scan Post} {c : Collector} (h : Mirrors s.observer c) :
    eventTexts false (cutShort s).observer.desk.events =
      printed c.kept.toList ++ tooMany c.count := by
  have hline : "too many diagnostics (" ++ toString (100 : Int) ++ "), stopping" =
      "too many diagnostics (100), stopping" := by decide
  unfold cutShort tooMany
  rw [h.isFull]
  by_cases hfull : 100 ≤ c.count
  · rw [if_pos (decide_eq_true hfull), if_pos hfull, h.collected, h.limit, hline,
      written_say s (by decide), h.written]
    rfl
  · rw [if_neg (by simpa using hfull), if_neg hfull, h.written, String.append_empty]

theorem observer_cutShort (s : Scan Post) :
    Command.collected (cutShort s) = Command.collected s ∧ (cutShort s).ahead = s.ahead := by
  unfold cutShort
  split <;> exact ⟨rfl, rfl⟩

/-- Closing leaves a record, which is not printed, and nothing else. -/
theorem close_closable {s : Scan Post} (h : s.ahead.reader.faultOnClosing = none) :
    (close s).2 = none ∧ Command.collected (close s).1 = Command.collected s ∧
      eventTexts false (close s).1.observer.desk.events =
        eventTexts false s.observer.desk.events := by
  have hclose : s.ahead.close = ({ s.ahead with reader := s.ahead.reader.close.2 }, none) := by
    unfold LookAhead.close Reader.close
    rw [h]
    rfl
  unfold close
  rw [hclose]
  exact ⟨rfl, rfl, (eventTexts_push ..).trans String.append_empty⟩

theorem summaryLine_escapeless (tokens diagnostics : Nat) :
    Escapeless (summaryLine tokens diagnostics) :=
  (((Escapeless.natural tokens).append (by decide)).append
    (Escapeless.natural diagnostics)).append (by decide)

theorem summaryLine_eq (tokens diagnostics : Nat) :
    summaryLine tokens diagnostics ++ "\n" =
      toString tokens ++ " tokens, " ++ toString diagnostics ++ " diagnostics\n" := by
  unfold summaryLine
  rw [String.append_assoc]
  rfl

/-- What the command leaves that scans an opened file, whether its records are shown or not. -/
theorem scanOpened_leaves (request : Request) {s : Scan Post} {u : Scan Collector}
    (h : Beside Closable Mirrors s u) {text : List Char} {place : Place}
    (hready : Ready u text place) :
    ∃ (k : Nat) (events : Array Event),
      StopsAt (fun j => (u.asked j).observer.count) 100 u.drain.tokens.length k ∧
      (u.asked k).observer.kept.toList =
        u.drain.diagnostics.take (u.asked k).observer.count ∧
      eventTexts false events =
        printed (u.asked k).observer.kept.toList ++ tooMany (u.asked k).observer.count ++
          (if request.summary then
            toString k ++ " tokens, " ++ toString (u.asked k).observer.count ++ " diagnostics\n"
          else "") ∧
      scanOpened request s =
        ⟨if 0 < (u.asked k).observer.count then .complaints else .success,
          outputText ((u.drain.tokens.take k).map Token.listed),
          eventTexts request.verbose events, false⟩ := by
  obtain ⟨k, s', hstops, hmirrors, hkept, hlist⟩ := list_spec h hready
  obtain ⟨-, htokens, -⟩ := drain_spec hready.at' hready.tokens
  have hlines : (u.drain.tokens.take k).map (fun t => Text.plain t.listed) =
      (u.drain.tokens.take k).map Token.listed := by
    refine List.map_congr_left fun t hmem => ?_
    have hfound : .ok t ∈ outcomes text place :=
      htokens ▸ List.mem_map_of_mem (List.mem_of_mem_take hmem)
    exact plain_listed hfound
  have hlength : ((u.drain.tokens.take k).map Token.listed).length = k := by
    rw [List.length_map, List.length_take, Nat.min_eq_left hstops.le]
  have hdiagnostics : (u.asked k).observer.kept.toList =
      u.drain.diagnostics.take (u.asked k).observer.count := List.prefix_iff_eq_take.1 hkept
  obtain ⟨hsame, hahead⟩ := observer_cutShort s'
  obtain ⟨hclosed, hcollected, hwritten⟩ :=
    close_closable (s := cutShort s') (by rw [hahead]; exact hmirrors.ahead.2)
  rw [hsame, hmirrors.observer.collected] at hcollected
  rw [written_cutShort hmirrors.observer] at hwritten
  have hfailure : (none <|> none : Option Failure) = none := rfl
  have hcode : (if (u.asked k).observer.hasAny = true then ExitCode.complaints else .success) =
      if 0 < (u.asked k).observer.count then .complaints else .success := by
    simp only [Collector.hasAny, decide_eq_true_eq]
  unfold scanOpened listAndClose
  rw [hlist, hlines]
  dsimp only
  rw [hclosed, hcollected, hlength, hfailure]
  dsimp only
  generalize (close (cutShort s')).1 = last at hcollected hwritten
  by_cases hsummary : request.summary = true
  · have hsaid : Command.collected (say last (summaryLine k (u.asked k).observer.count)) =
        (u.asked k).observer := hcollected
    refine ⟨k, _, hstops, hdiagnostics, ?_, by rw [if_pos hsummary, hsaid, hcode]⟩
    rw [if_pos hsummary, written_say last (summaryLine_escapeless k _), hwritten, summaryLine_eq]
  · refine ⟨k, _, hstops, hdiagnostics, ?_, by rw [if_neg hsummary, hcollected, hcode]⟩
    rw [if_neg hsummary, hwritten, String.append_empty]

/-- What it leaves if its records are not shown. -/
theorem scanOpened_spec {request : Request} (hquiet : request.verbose = false) {s : Scan Post}
    {u : Scan Collector} (h : Beside Closable Mirrors s u) {text : List Char} {place : Place}
    (hready : Ready u text place) :
    ∃ k, StopsAt (fun j => (u.asked j).observer.count) 100 u.drain.tokens.length k ∧
      scanOpened request s =
        ⟨if 0 < (u.asked k).observer.count then .complaints else .success,
          outputText ((u.drain.tokens.take k).map Token.listed),
          printed (u.drain.diagnostics.take (u.asked k).observer.count) ++
            tooMany (u.asked k).observer.count ++
            (if request.summary then
              toString k ++ " tokens, " ++ toString (u.asked k).observer.count ++ " diagnostics\n"
            else ""),
          false⟩ := by
  obtain ⟨k, events, hstops, hdiagnostics, hwritten, hscanned⟩ :=
    scanOpened_leaves request h hready
  rw [hdiagnostics] at hwritten
  rw [hquiet, hwritten] at hscanned
  exact ⟨k, hstops, hscanned⟩

/-- The command's desk before its file is opened: nothing collected, and one record. -/
def deskFor (path : String) : Desk :=
  (openingPost 100).desk.note commandLog ("Scanning " ++ path)

/-- The command's post once its file is open. -/
def postFor (path : String) : Post :=
  recording path ⟨.tee [.leaf collectorIndex, .leaf outputIndex], deskFor path⟩

theorem scanFile_bytes {openPath : String → Except Files.OpenError Files.Content}
    {request : Request} {held : List UInt8}
    (h : openPath (Files.tidy request.path) = .ok (.bytes held)) :
    scanFile openPath request =
      scanOpened request (opened { file := Files.tidy request.path }
        (.ofFile (Files.Content.text held)) (postFor (Files.tidy request.path))) := by
  unfold scanFile
  dsimp only
  rw [openFile_bytes h]
  rfl

/-- The command's scan of a file begins as one with a collector alone. -/
theorem mirrors_opened (options : Options) (text : List Char) (path : String) :
    Beside Closable Mirrors (opened options (.ofFile text) (postFor path))
      (opened options (.ofFile text) ({} : Collector)) :=
  ⟨⟨rfl, Reader.faultOnClosing_read _⟩, rfl, rfl, rfl, rfl, rfl⟩

/-- **What the command prints about a file**, which its path names as given and as tidied. The whole
    scan of the file is the one with a collector alone; it is cut after the least number of calls
    after which there are a hundred diagnostics, or else at its end.

    * The output has the tokens up to there, one a line.
    * The error output has the diagnostics up to there, each on lines of its own, then the line
      about too many of them if there are, and then the two counts if they are asked for.
    * The code tells whether there are any diagnostics up to there. -/
theorem run_prints_scan {openPath : String → Except Files.OpenError Files.Content}
    {arguments : List String} {request : Request} {held : List UInt8}
    (hwish : wishOf arguments = .ok (.scan request)) (hquiet : request.verbose = false)
    (hextra : request.extra = []) (hopens : openPath request.path = .ok (.bytes held))
    (htidy : openPath (Files.tidy request.path) = openPath request.path) :
    ∃ (u : Scan Collector) (k : Nat) (outcome : Outcome),
      openReader { file := Files.tidy request.path } (Files.Content.bytes held).reader {} =
        .ok u ∧
      u.drain.failure = none ∧
      StopsAt (fun j => (u.asked j).observer.count) 100 u.drain.tokens.length k ∧
      run openPath arguments = .ok outcome ∧
      outcome.output = String.join ((u.drain.tokens.take k).map fun t => t.listed ++ "\n") ∧
      outcome.errorOutput =
        printed (u.drain.diagnostics.take (u.asked k).observer.count) ++
          tooMany (u.asked k).observer.count ++
          (if request.summary then
            toString k ++ " tokens, " ++ toString (u.asked k).observer.count ++ " diagnostics\n"
          else "") ∧
      outcome.code.number = (if 0 < (u.asked k).observer.count then 1 else 0) ∧
      outcome.traced = false := by
  let options : Options := { file := Files.tidy request.path }
  have hreliable := Reader.reliable_ofFile (Files.Content.text held)
  have hwilling : Willing ({} : Collector) := fun log c hlog => hlog.collector.1
  have hready := ready_opened hreliable hwilling options (Int.le_refl 1)
  obtain ⟨hfailure, -⟩ := drain_spec hready.at' hready.tokens
  have hmirrors := mirrors_opened options (Files.Content.text held) (Files.tidy request.path)
  obtain ⟨k, hstops, hscanned⟩ := scanOpened_spec hquiet hmirrors hready
  have hnone : misuseOf openPath request = .ok none := by
    unfold misuseOf
    rw [hopens, hextra]
    rfl
  have hrun : run openPath arguments = .ok (scanFile openPath request) := by
    unfold run
    rw [hwish]
    dsimp only
    rw [hnone]
  rw [scanFile_bytes (htidy.trans hopens), hscanned] at hrun
  have hopened := openReader_reliable hreliable options ({} : Collector)
  refine ⟨_, k, _, hopened, hfailure, hstops, hrun, outputText_map .., rfl, ?_, rfl⟩
  dsimp only
  split <;> rfl

/-- More than a hundred diagnostics come with the second of three words, and the counts are asked
    for. -/
theorem run_prints_scan_crowded :
    let held : List UInt8 := 0x61 :: List.replicate 101 0x3F ++ [0x62, 0x20, 0x63]
    let arguments := ["./a.yasl"]
    let request : Request := ⟨true, false, "./a.yasl", []⟩
    let openPath : String → Except Files.OpenError Files.Content := fun path =>
      if path = request.path ∨ path = Files.tidy request.path then .ok (.bytes held)
      else .error .notFound
    wishOf arguments = .ok (.scan request) ∧ openPath request.path = .ok (.bytes held) ∧
      openPath (Files.tidy request.path) = openPath request.path ∧
      ∃ (u : Scan Collector) (outcome : Outcome),
        openReader { file := Files.tidy request.path } (Files.Content.bytes held).reader {} =
          .ok u ∧
        StopsAt (fun j => (u.asked j).observer.count) 100 u.drain.tokens.length 2 ∧
        run openPath arguments = .ok outcome ∧
        outcome.output = "1:1     IDENTIFIER  a\n1:103   IDENTIFIER  b\n" ∧
        outcome.errorOutput =
          String.join ((List.range 101).map fun i =>
            "Illegal character: ?\n  at 1:" ++ toString (i + 2) ++ "\n") ++
          "too many diagnostics (100), stopping\n" ++ "2 tokens, 101 diagnostics\n" ∧
        outcome.code.number = 1 := by
  intro held arguments request openPath
  have hwish : wishOf arguments = .ok (.scan request) := rfl
  have hopens : openPath request.path = .ok (.bytes held) := if_pos (.inl rfl)
  have htidy : openPath (Files.tidy request.path) = openPath request.path :=
    (if_pos (.inr rfl)).trans hopens.symm
  obtain ⟨u, k, outcome, hu, -, hstops, hrun, houtput, herror, hcode, -⟩ :=
    run_prints_scan hwish rfl rfl hopens htidy
  have hwhole :
      ((openReader { file := Files.tidy request.path } (Files.Content.bytes held).reader
          ({} : Collector)).toOption.map fun u =>
        (u.drain.tokens.length, (u.asked 1).observer.count, (u.asked 2).observer.count,
          String.join ((u.drain.tokens.take 2).map fun t => t.listed ++ "\n"),
          (u.drain.diagnostics.take 101).map Diagnostic.text)) =
        some (4, 0, 101, "1:1     IDENTIFIER  a\n1:103   IDENTIFIER  b\n",
          (List.range 101).map fun i => "Illegal character: ?\n  at 1:" ++ toString (i + 2)) := by
    decide +kernel
  rw [hu] at hwhole
  obtain ⟨hlength, hrest⟩ := Prod.mk.inj (Option.some.inj hwhole)
  obtain ⟨hfirst, hrest⟩ := Prod.mk.inj hrest
  obtain ⟨hsecond, hrest⟩ := Prod.mk.inj hrest
  obtain ⟨hlines, htexts⟩ := Prod.mk.inj hrest
  have htwo : StopsAt (fun j => (u.asked j).observer.count) 100 u.drain.tokens.length 2 := by
    refine ⟨by decide, by rw [hlength]; decide, fun j hpos hlt => ?_, .inl ?_⟩
    · obtain rfl : j = 1 := Nat.le_antisymm (Nat.le_of_lt_succ hlt) hpos
      rw [hfirst]
      decide
    · rw [hsecond]
      decide
  obtain rfl : k = 2 := hstops.unique htwo
  rw [hlines] at houtput
  have hcounts : toString 2 ++ " tokens, " ++ toString 101 ++ " diagnostics\n" =
      "2 tokens, 101 diagnostics\n" := by decide +kernel
  have hmany : tooMany 101 = "too many diagnostics (100), stopping\n" := rfl
  rw [hsecond] at herror hcode
  rw [printed, ← outputText_map, htexts, outputText_map, hmany, if_pos rfl, hcounts] at herror
  exact ⟨hwish, hopens, htidy, u, outcome, hu, htwo, hrun, houtput, herror, hcode⟩

end Command

end YaslLexis
