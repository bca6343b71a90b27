import YaslLexis.Proofs.Chunks
import YaslLexis.Proofs.Encoding
import YaslLexis.Proofs.Patience

/-!
# Scanning a file and scanning its text

A file is scanned like the text of which its bytes are the encoding, but for the record of its
opening; and no bytes whatever make its scan fail.

* `Alongside` -- two desks with the same leaves and the same events but for those of the beginning;
  they take offers alike (`Alongside.offer`);
* `AlikeBut` -- two scans that calls do not tell apart but for the first events on their desks;
  `alikeBut_of_delivers` -- scans over two readers that deliver the same text, on two such desks;
* **`file_scans_as_text`** -- a file of the bytes of two texts with bytes between them that are not
  well formed, and any file at all.
-/

namespace YaslLexis

open Machine

namespace Report

/-! ## 1. Desks that differ in their first events -/

/-- The same leaves, and the same events after those of the beginning. -/
structure Alongside (first first' : Array Event) (desk desk' : Desk) : Prop where
  leaves : desk'.leaves = desk.leaves
  events : ∃ later, desk.events = first ++ later ∧ desk'.events = first' ++ later

namespace Alongside

variable {first first' : Array Event} {desk desk' : Desk} (h : Alongside first first' desk desk')
include h

theorem emit (event : Event) : Alongside first first' (desk.emit event) (desk'.emit event) := by
  obtain ⟨hleaves, later, hevents, hevents'⟩ := h
  refine ⟨hleaves, later.push event, ?_, ?_⟩
  · unfold Desk.emit
    rw [hevents, Array.push_append]
  · unfold Desk.emit
    rw [hevents', Array.push_append]

theorem change (index : Nat) (f : Leaf → Leaf) :
    Alongside first first' (desk.change index f) (desk'.change index f) := by
  refine ⟨?_, h.events⟩
  unfold Desk.change
  rw [h.leaves]

/-- A leaf answers alike on both desks. -/
theorem give (d : Diagnostic) (index : Nat) :
    (desk'.give d index).2 = (desk.give d index).2 ∧
      Alongside first first' (desk.give d index).1 (desk'.give d index).1 := by
  unfold Desk.give
  rw [h.leaves]
  cases desk.leaves[index]? with
  | none => exact ⟨rfl, h⟩
  | some leaf =>
    dsimp only
    cases leaf.refusal with
    | some f => exact ⟨rfl, h⟩
    | none =>
      cases leaf.event? d with
      | none => exact ⟨rfl, h.change index _⟩
      | some event => exact ⟨rfl, (h.change index _).emit event⟩

theorem deliverTo (d : Diagnostic) (leaves : List Nat) :
    (Sink.deliverTo (Desk.give d) leaves desk').2 =
        (Sink.deliverTo (Desk.give d) leaves desk).2 ∧
      Alongside first first' (Sink.deliverTo (Desk.give d) leaves desk).1
        (Sink.deliverTo (Desk.give d) leaves desk').1 := by
  induction leaves generalizing desk desk' with
  | nil => exact ⟨rfl, h⟩
  | cons index leaves ih =>
    obtain ⟨hanswer, hlater⟩ := h.give d index
    unfold Sink.deliverTo
    cases hgive : desk.give d index with
    | mk next refusal =>
      cases hgive' : desk'.give d index with
      | mk next' refusal' =>
        rw [hgive, hgive'] at hanswer hlater
        obtain rfl : refusal' = refusal := hanswer
        cases refusal' with
        | some f => exact ⟨rfl, hlater⟩
        | none => exact ih hlater

/-- **A sink answers alike on both desks**, and they stay alongside. -/
theorem offer (sink : Sink) (d : Diagnostic) :
    (desk'.offer sink d).2 = (desk.offer sink d).2 ∧
      Alongside first first' (desk.offer sink d).1 (desk'.offer sink d).1 := by
  unfold Desk.offer
  rw [Sink.deliver_eq, Sink.deliver_eq]
  exact h.deliverTo d sink.leaves

end Alongside

/-- The same sink, on desks that differ in their first events. -/
structure PostsAlongside (first first' : Array Event) (post post' : Post) : Prop where
  sink : post'.sink = post.sink
  desk : Alongside first first' post.desk post'.desk

theorem agreeing_alongside (first first' : Array Event) :
    Agreeing (PostsAlongside first first') where
  offer {post post'} h d := by
    obtain ⟨hanswer, hdesk⟩ := h.desk.offer post.sink d
    dsimp only [Observer.offer]
    rw [h.sink]
    exact ⟨hanswer, rfl, hdesk⟩
  heard h _ := ⟨h.sink, h.desk.emit _⟩

end Report

namespace Machine

open Report

/-! ## 2. Scans that differ in their first events -/

/-- No number of calls tells the two scans apart but for the first events on their desks: the calls
    have the same results, leave the look-aheads at the same places and the leaves of the sinks in
    the same states, and add the same events; and so does taking all tokens. -/
structure AlikeBut (first first' : Array Event) (s s' : Scan Post) : Prop where
  answer : ∀ n, s'.answer n = s.answer n
  place : ∀ n, (s'.asked n).ahead.place = (s.asked n).ahead.place
  desk : ∀ n, Alongside first first' (s.asked n).observer.desk (s'.asked n).observer.desk
  tokens : s'.drain.tokens = s.drain.tokens
  failure : s'.drain.failure = s.drain.failure
  drained : Alongside first first' s.drain.scan.observer.desk s'.drain.scan.observer.desk

/-- Scans over two readers that deliver the same text, with one sink on two desks. -/
theorem alikeBut_of_delivers {reader reader' : Reader} {text : List Char} (h : reader.Delivers text)
    (h' : reader'.Delivers text) (options : Options) {first first' : Array Event}
    {post post' : Post} (hpost : PostsAlongside first first' post post') :
    ∃ s s', openReader options reader post = .ok s ∧ openReader options reader' post' = .ok s' ∧
      AlikeBut first first' s s' := by
  obtain ⟨ahead, ahead', hmatched, hopen⟩ := matched_of_delivers h h' options
  refine ⟨_, _, (hopen post).1, (hopen post').2, ?_⟩
  have habreast := abreast_beside LookAhead.matched_inStep (agreeing_alongside first first')
  have hbeside : Beside LookAhead.Matched (PostsAlongside first first')
      (⟨ahead, options.file, post⟩ : Scan Post) ⟨ahead', options.file, post'⟩ :=
    ⟨hmatched, rfl, hpost⟩
  obtain ⟨htokens, hfailure, hdrained⟩ := habreast.drain hbeside
  exact ⟨habreast.answer hbeside, fun n => habreast.place (habreast.asked hbeside n),
    fun n => (habreast.asked hbeside n).observer.desk, htokens, hfailure, hdrained.observer.desk⟩

/-! ## 3. Whole scans -/

/-- A whole scan that is ready ends with the end token. -/
theorem Ready.drain {σ : Type} [Observer σ] {s : Scan σ} {text : List Char} {place : Place}
    (h : Ready s text place) : s.drain.failure = none := by
  induction hn : s.ahead.remaining using Nat.strongRecOn generalizing s text place with
  | ind n ih =>
    obtain ⟨⟨t, ht⟩, text', place', hlater⟩ := h.next
    have hcall : s.next = (s.next.1, .ok t) := Prod.ext rfl ht
    by_cases hend : t.kind = .eof
    · rw [drain_of_end hcall hend]
    · have hless : s.next.1.ahead.remaining < n := hn ▸ remaining_next_lt hcall hend
      rw [drain_of_token hcall hend]
      exact ih _ hless hlater rfl

/-- **Scanning a file agrees with scanning its text, and no file makes its scan fail.**

    * The file holds the encoding of a text, a number of bytes `FF` and the encoding of another
      text. Its scan and the scan of the two texts with as many replacement characters between
      them, all line ends unified, cannot be told apart but for the record of opening the file.
    * The file holds any bytes at all. If no leaf of the sink refuses a diagnostic, every call gives
      a token, and the whole scan ends with the end token. -/
theorem file_scans_as_text (openPath : String → Except Files.OpenError Files.Content)
    (path : String) (post : Post) :
    (∀ (options : Options) (u v : List Char) (n : Nat),
      openPath path = .ok (.bytes
        (Text.Utf8.encoded u ++ List.replicate n 0xFF ++ Text.Utf8.encoded v)) →
      ∃ s s', openFile openPath path (some options) post = .ok s ∧
        openReader options (.ofText (Text.replaceReturns (Text.joinPairs
          (u ++ List.replicate n Text.Utf8.replacement ++ v)))) post = .ok s' ∧
        AlikeBut (post.desk.events.push (openingRecord path)) post.desk.events s s') ∧
    ∀ (given : Option Options) (held : List UInt8), 1 ≤ (given.getD { file := path }).line →
      openPath path = .ok (.bytes held) → post.desk.Patient →
      ∃ s, openFile openPath path given post = .ok s ∧ s.drain.failure = none ∧
        ∀ n, ∃ t, s.answer n = .ok t := by
  constructor
  · -- The readers deliver one text, and the desks differ by the record of the opening.
    intro options u v n hopens
    have htext : Files.Content.text
          (Text.Utf8.encoded u ++ List.replicate n 0xFF ++ Text.Utf8.encoded v) =
        Text.replaceReturns (Text.joinPairs
          (u ++ List.replicate n Text.Utf8.replacement ++ v)) := by
      unfold Files.Content.text
      rw [Text.Utf8.decode_encoded, Text.unifyLineEnds_eq]
    have hposts : PostsAlongside (post.desk.events.push (openingRecord path)) post.desk.events
        (recording path post) post :=
      ⟨rfl, rfl, #[], Array.append_empty.symm, Array.append_empty.symm⟩
    rw [← htext]
    obtain ⟨s, s', hopen, hopen', halike⟩ := alikeBut_of_delivers
      (Reader.delivers_ofFile _) (Reader.delivers_ofText _) options hposts
    rw [openReader_reliable (Reader.reliable_ofFile _)] at hopen
    obtain rfl := Except.ok.inj hopen
    exact ⟨_, s', openFile_bytes hopens (some options) post, hopen', halike⟩
  · intro given held hline hopens hpatient
    have hreliable := Reader.reliable_ofFile (Files.Content.text held)
    have hwilling : Willing (recording path post) := willing_of_patient hpatient
    have hready := ready_opened hreliable hwilling _ hline
    exact ⟨_, openFile_bytes hopens given post, hready.drain, hready.answer⟩

/-- A carriage return before the bad byte, and a line feed and a character of four bytes after
    it. -/
theorem file_scans_as_text_returns :
    let held : List UInt8 := [0xC3, 0xA4, 0x0D, 0xFF, 0x0A, 0xF0, 0x9D, 0x94, 0xB8]
    let openPath : String → Except Files.OpenError Files.Content := fun _ => .ok (.bytes held)
    let post : Post := ⟨.leaf 0, { leaves := #[.collector {}] }⟩
    openPath "a" = .ok (.bytes (Text.Utf8.encoded ['ä', '\r'] ++ List.replicate 1 0xFF ++
        Text.Utf8.encoded ['\n', '𝔸'])) ∧
      post.desk.Patient ∧
      ∃ s s', openFile openPath "a" (some { line := 3 }) post = .ok s ∧
        openReader { line := 3 } (.ofText ['ä', '\n', '\uFFFD', '\n', '𝔸']) post = .ok s' ∧
        AlikeBut #[openingRecord "a"] #[] s s' ∧ s.drain.failure = none := by
  intro held openPath post
  have hopens : openPath "a" = .ok (.bytes (Text.Utf8.encoded ['ä', '\r'] ++
      List.replicate 1 0xFF ++ Text.Utf8.encoded ['\n', '𝔸'])) :=
    congrArg (Except.ok ∘ Files.Content.bytes) (by decide)
  have hpatient : post.desk.Patient := by
    intro leaf hmem
    obtain rfl : leaf = .collector {} := Array.mem_singleton.1 hmem
    exact trivial
  obtain ⟨hagrees, hnever⟩ := file_scans_as_text openPath "a" post
  obtain ⟨s, s', hopen, hopen', halike⟩ := hagrees { line := 3 } _ _ 1 hopens
  obtain ⟨s'', hopen'', hfailure, -⟩ := hnever (some { line := 3 }) held (by decide) rfl hpatient
  obtain rfl : s = s'' := Except.ok.inj (hopen.symm.trans hopen'')
  exact ⟨hopens, hpatient, s, s', hopen, hopen', halike, hfailure⟩

end Machine

end YaslLexis
