import YaslLexis.Proofs.Abreast

/-!
# Readers that deliver the same text

A scan sees of its reader the characters up to the first empty read and nothing else: not how they
were cut into chunks, nor what would come later, nor how reads fail that are never made.

* `Reader.Delivers` -- the reader gives a text and then an empty read, and none of these reads fails;
* `LookAhead.Holds` -- a look-ahead with the text still to come;
* `LookAhead.Matched` -- two look-aheads with the same text still to come, which stay in step;
* `uncut`, `delivers_scripted` -- what a script with chunks delivers;
* **`alike_of_delivers`** -- scans over two readers that deliver the same text are alike.
-/

namespace YaslLexis

open Machine Report

/-! ## 1. Delivering a text -/

namespace Reader

/-- The next reads give the text, one character each, and then nothing; up to and including this
    empty read none of them fails. -/
structure Delivers (r : Reader) (text : List Char) : Prop where
  given : untilEmpty r.pending = text
  unclosed : r.closes = 0 ∨ r.faultOnceClosed = none
  sound : ∀ n ≤ text.length, r.fault (r.reads + n) = none

namespace Delivers

variable {r : Reader} {c : Char} {text : List Char}

theorem refusal (h : r.Delivers text) : r.refusal = none := by
  have hfault : r.fault r.reads = none := h.sound 0 (Nat.zero_le _)
  unfold Reader.refusal
  rw [hfault]
  rcases h.unclosed with hc | hc
  · rw [if_pos hc]
    rfl
  · rw [hc]
    split <;> rfl

theorem read_nil (h : r.Delivers []) : r.read.1 = .ok none := by
  have hpending := h.given
  rw [read_allowed h.refusal]
  cases hnext : r.pending with
  | nil => rfl
  | cons c pending =>
    rw [hnext] at hpending
    cases c with
    | none => rfl
    | some c => cases hpending

theorem read_cons (h : r.Delivers (c :: text)) :
    r.read.1 = .ok (some c) ∧ r.read.2.Delivers text := by
  have hpending := h.given
  rw [read_allowed h.refusal]
  cases hnext : r.pending with
  | nil =>
    rw [hnext] at hpending
    cases hpending
  | cons d pending =>
    rw [hnext] at hpending
    cases d with
    | none => cases hpending
    | some d =>
      obtain ⟨rfl, rfl⟩ := List.cons_eq_cons.1 hpending
      refine ⟨rfl, rfl, h.unclosed, fun n hn => ?_⟩
      have hsound := h.sound (n + 1) (Nat.succ_le_succ hn)
      rwa [← Nat.add_assoc, Nat.add_right_comm] at hsound

end Delivers

theorem delivers_ofText (text : List Char) : (ofText text).Delivers text :=
  ⟨untilEmpty_map_some text, .inl rfl, fun _ _ => rfl⟩

theorem delivers_ofFile (text : List Char) : (ofFile text).Delivers text :=
  ⟨untilEmpty_map_some text, .inl rfl, fun _ _ => rfl⟩

/-! ## 2. Chunks -/

/-- The characters of the chunks before the first empty one. -/
def uncut (chunks : List (List Char)) : List Char := (chunks.takeWhile (!·.isEmpty)).flatten

theorem untilEmpty_append (text : List Char) (pending : List (Option Char)) :
    untilEmpty (text.map some ++ pending) = text ++ untilEmpty pending := by
  induction text with
  | nil => rfl
  | cons c cs ih => rw [List.map_cons, List.cons_append, untilEmpty_some, ih, List.cons_append]

theorem untilEmpty_chunks (chunks : List (List Char)) :
    untilEmpty (chunks.flatMap readsOfChunk) = uncut chunks := by
  induction chunks with
  | nil => rfl
  | cons chunk chunks ih =>
    rw [List.flatMap_cons]
    cases chunk with
    | nil => rfl
    | cons c cs =>
      have hreads : readsOfChunk (c :: cs) = (c :: cs).map some := rfl
      have huncut : uncut ((c :: cs) :: chunks) = (c :: cs) ++ uncut chunks := rfl
      rw [hreads, huncut, untilEmpty_append, ih]

/-- A script whose reads do not fail before its first empty read delivers the characters before
    it. -/
theorem delivers_scripted {chunks : List (List Char)} {failing : Nat → Bool}
    (h : ∀ n ≤ (uncut chunks).length, failing n = false) (onClosing : Option Failure) :
    (scripted chunks failing onClosing).Delivers (uncut chunks) := by
  refine ⟨untilEmpty_chunks chunks, .inl rfl, fun n hn => ?_⟩
  show (if failing (0 + n) then some (Failure.read (0 + n)) else none) = none
  rw [Nat.zero_add, h n hn, if_neg Bool.false_ne_true]

end Reader

/-! ## 3. The text still to come -/

namespace LookAhead

/-- The text is still to come, whose first character is the one looked at; no read of it fails. -/
def Holds (s : LookAhead) : List Char → Prop
  | [] => s.current = none
  | c :: cs => s.current = some c ∧ s.reader.Delivers cs

theorem Holds.current {s : LookAhead} {text : List Char} (h : s.Holds text) :
    s.current = text.head? := by
  cases text with
  | nil => exact h
  | cons c cs => exact h.1

/-- The first read of a text, and what it leaves of it. -/
theorem holds_read {r : Reader} {text : List Char} (h : r.Delivers text) (place : Place) :
    r.read.1 = .ok text.head? ∧ (⟨r.read.2, text.head?, place⟩ : LookAhead).Holds text := by
  cases text with
  | nil => exact ⟨h.read_nil, rfl⟩
  | cons c cs => exact ⟨h.read_cons.1, rfl, h.read_cons.2⟩

/-- What is looked at first is what the first read gives. -/
theorem start_of_read {r : Reader} {look : Option Char} (h : r.read.1 = .ok look) (line : Int) :
    start r line = .ok ⟨r.read.2, look, ⟨line, 1⟩⟩ := by
  unfold start
  cases hr : r.read with
  | mk outcome reader =>
    rw [hr] at h
    obtain rfl : outcome = .ok look := h
    rfl

theorem start_of_delivers {r : Reader} {text : List Char} (h : r.Delivers text) (line : Int) :
    start r line = .ok ⟨r.read.2, text.head?, ⟨line, 1⟩⟩ :=
  start_of_read (holds_read h ⟨line, 1⟩).1 line

/-- An advance succeeds and takes the first character off the text. -/
theorem Holds.advance {s : LookAhead} {text : List Char} (h : s.Holds text) :
    s.advance.2 = none ∧ s.advance.1.Holds text.tail ∧
      s.advance.1.place = (text.head?.map s.place.after).getD s.place := by
  cases text with
  | nil =>
    rw [advance_atEnd h]
    exact ⟨rfl, h, rfl⟩
  | cons c cs =>
    obtain ⟨hc, hdelivers⟩ := h
    obtain ⟨hread, hholds⟩ := holds_read hdelivers (s.place.after c)
    unfold LookAhead.advance
    rw [hc]
    dsimp only
    cases hr : s.reader.read with
    | mk outcome reader =>
      rw [hr] at hread hholds
      obtain rfl : outcome = .ok cs.head? := hread
      exact ⟨rfl, hholds, rfl⟩

end LookAhead

/-! ## 4. Two scans of the same text -/

/-- Both look-aheads have the same text still to come, from the same place on. -/
def LookAhead.Matched (s s' : LookAhead) : Prop :=
  (∃ text, s.Holds text ∧ s'.Holds text) ∧ s'.place = s.place

theorem LookAhead.matched_inStep : InStep LookAhead.Matched where
  current h := by
    obtain ⟨⟨text, htext, htext'⟩, -⟩ := h
    rw [htext.current, htext'.current]
  place h := h.2
  advance h := by
    obtain ⟨⟨text, htext, htext'⟩, hplace⟩ := h
    obtain ⟨hnone, hlater, hafter⟩ := htext.advance
    obtain ⟨hnone', hlater', hafter'⟩ := htext'.advance
    refine ⟨by rw [hnone, hnone'], ⟨text.tail, hlater, hlater'⟩, ?_⟩
    rw [hafter, hafter', hplace]

namespace Machine

/-- The scans that are opened over two readers that deliver the same text. -/
theorem matched_of_delivers {reader reader' : Reader} {text : List Char} (h : reader.Delivers text)
    (h' : reader'.Delivers text) (options : Options) :
    ∃ ahead ahead' : LookAhead, ahead.Matched ahead' ∧
      ∀ {σ : Type} (observer : σ),
        openReader options reader observer = .ok ⟨ahead, options.file, observer⟩ ∧
        openReader options reader' observer = .ok ⟨ahead', options.file, observer⟩ := by
  refine ⟨⟨reader.read.2, text.head?, ⟨options.line, 1⟩⟩,
    ⟨reader'.read.2, text.head?, ⟨options.line, 1⟩⟩, ?_, fun observer => ?_⟩
  · exact ⟨⟨text, (LookAhead.holds_read h _).2, (LookAhead.holds_read h' _).2⟩, rfl⟩
  · unfold openReader
    rw [LookAhead.start_of_delivers h, LookAhead.start_of_delivers h']
    exact ⟨rfl, rfl⟩

/-- **Scans over two readers that deliver the same text are alike**: opening them succeeds, and no
    number of calls tells them apart, whatever the sink. -/
theorem alike_of_delivers {σ : Type} [Observer σ] {reader reader' : Reader} {text : List Char}
    (h : reader.Delivers text) (h' : reader'.Delivers text) (options : Options) (observer : σ) :
    ∃ s s', openReader options reader observer = .ok s ∧
      openReader options reader' observer = .ok s' ∧ Alike s s' := by
  obtain ⟨ahead, ahead', hmatched, hopen⟩ := matched_of_delivers h h' options
  refine ⟨_, _, (hopen observer).1, (hopen observer).2, ?_⟩
  have habreast := abreast_beside (σ := σ) LookAhead.matched_inStep agreeing_eq
  exact habreast.alike (fun hbeside => hbeside.observer.symm) ⟨hmatched, rfl, rfl⟩

end Machine

end YaslLexis
