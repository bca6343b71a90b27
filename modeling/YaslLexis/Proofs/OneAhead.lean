import YaslLexis.Proofs.StepBounds
import YaslLexis.Proofs.Spelling

/-!
# One character of look-ahead

A scan reads no further than it must: it has read one character more than it consumed, and a call
that gives a token has consumed nothing behind it. So what a reader would give after the reads that
were made does not matter.

* `LookAhead.OneAhead` -- so much was consumed, and one read more was made; `OneAhead.advance` -- an
  advance keeps it;
* `follow_token`, `next_token` -- a call that gives a token ends behind its lexeme;
* `Reader.after`, `Reader.gives`, `Reader.Agrees` -- what comes of the reads to come, and two
  readers of which the next ones come to the same;
* `LookAhead.Echoes`, `echoes_inStep` -- two look-aheads over such readers, which stay in step until
  these reads are made;
* **`reads_one_ahead`** -- both, for any script whose reads do not fail, after any number of calls.
-/

namespace YaslLexis

open Machine Report

/-! ## 1. One read more than is consumed -/

/-- So much of a text was consumed from a place on, and one read more was made. -/
structure LookAhead.OneAhead (text : List Char) (first : Place) (s : LookAhead)
    (done : List Char) : Prop where
  reliable : s.reader.Reliable
  split : text = done ++ s.rest
  place : s.place = first.afterAll done
  reads : s.reader.reads = done.length + 1

namespace LookAhead.OneAhead

variable {text : List Char} {first : Place} {s : LookAhead} {done : List Char}

theorem at' (h : s.OneAhead text first done) : s.At s.rest (first.afterAll done) :=
  ⟨h.reliable, rfl, h.place⟩

/-- An advance consumes the character looked at and makes one read, or it does nothing. -/
theorem advance (h : s.OneAhead text first done) :
    ∃ done', s.advance.1.OneAhead text first done' := by
  rcases s.advance_cases with ⟨-, hadvance⟩ | ⟨c, f, -, hrefusal, -, -⟩ |
    ⟨c, hcurrent, -, -, hreader, hrest⟩
  · rw [hadvance]
    exact ⟨done, h⟩
  · rw [h.reliable.refusal] at hrefusal
    cases hrefusal
  · refine ⟨done ++ [c], ?_, ?_, ?_, ?_⟩
    · rw [hreader]
      exact h.reliable.read
    · rw [List.append_assoc, List.singleton_append, ← hrest]
      exact h.split
    · rw [place_advance hcurrent, h.place, Place.afterAll_append]
      rfl
    · rw [hreader, Reader.reads_read, h.reads, List.length_append, List.length_singleton]

end LookAhead.OneAhead

namespace Machine

variable {σ : Type} [Observer σ]

/-! ## 2. A call ends behind its token -/

/-- **Following the pieces up to a token consumes its lexeme and nothing more.** -/
theorem follow_token {s : Scan σ} {text : List Char} {place : Place} (h : s.ahead.At text place)
    {t : Token} (ht : (follow (pieces text) s).2 = .ok t) (hkind : t.kind ≠ .eof) :
    ∃ before lexeme, text = before ++ (lexeme ++ (follow (pieces text) s).1.ahead.rest) ∧
      t.place = place.afterAll before ∧ Spells lexeme t.kind t.text := by
  induction text using pieces_induction generalizing s place with
  | nil =>
    rw [pieces_nil] at ht
    exact absurd (Run.kind_endToken ht) hkind
  | cons c cs rest hrest ih =>
    have hpast : (s.ahead.past (front c cs).text).At rest (place.afterAll (front c cs).text) :=
      LookAhead.At.past _ (hrest ▸ h)
    rw [pieces_cons hrest] at ht ⊢
    -- What comes before the token may be preceded by one more piece.
    have hmore {u : Scan σ}
        (hlater : ∃ before lexeme, rest = before ++ (lexeme ++ u.ahead.rest) ∧
          t.place = (place.afterAll (front c cs).text).afterAll before ∧
          Spells lexeme t.kind t.text) :
        ∃ before lexeme, c :: cs = before ++ (lexeme ++ u.ahead.rest) ∧
          t.place = place.afterAll before ∧ Spells lexeme t.kind t.text := by
      obtain ⟨before, lexeme, hsplit, hplace, hspells⟩ := hlater
      refine ⟨(front c cs).text ++ before, lexeme, ?_, ?_, hspells⟩
      · rw [List.append_assoc, ← hsplit]
        exact hrest
      · rw [Place.afterAll_append]
        exact hplace
    rcases (front c cs).cases_complaint with ⟨sort, text, hp⟩ | ⟨hc, hl⟩ | ⟨complaint, hc, hl, -⟩
    · have hlexical : Lexical sort text := by
        have hfits := front_fits hrest
        rw [hp] at hfits
        exact hfits.1
      rw [hp] at hrest hpast ht ⊢
      obtain ⟨hplace, hspells⟩ := hlexical.token ht
      refine ⟨[], text, ?_, hplace.trans h.place, hspells⟩
      have hleft : (s.ahead.past text).rest = rest := hpast.rest
      show c :: cs = text ++ (s.ahead.past text).rest
      rw [hleft]
      exact hrest
    · rw [follow_silent hc hl] at ht ⊢
      exact hmore (ih hpast ht)
    · rw [follow_complaint hc] at ht ⊢
      cases hoffer : Observer.offer
          ⟨complaint, some ⟨s.file, (s.ahead.past (front c cs).lead).place⟩⟩ s.observer with
      | mk y refusal =>
        cases refusal with
        | some f =>
          rw [complaining_refused hoffer] at ht
          cases ht
        | none =>
          rw [complaining_taken hoffer] at ht ⊢
          have hsplit : s.ahead.past (front c cs).text =
              (s.ahead.past (front c cs).lead).past (front c cs).tail := by
            rw [← LookAhead.past_append, Piece.lead_append_tail]
          rw [hsplit] at hpast
          exact hmore (ih (s := ({ s.past (front c cs).lead with observer := y } : Scan σ).past
            (front c cs).tail) hpast ht)

/-- **A call that gives a token ends behind its lexeme.** -/
theorem next_token {s : Scan σ} {text : List Char} {place : Place} (h : s.ahead.At text place)
    {t : Token} (ht : s.next.2 = .ok t) (hkind : t.kind ≠ .eof) :
    ∃ before lexeme, text = before ++ (lexeme ++ s.next.1.ahead.rest) ∧
      t.place = place.afterAll before ∧ Spells lexeme t.kind t.text := by
  have hrun : run s.opening = follow (pieces text) s := run_eq_follow h rfl
  obtain ⟨hresult, hahead⟩ := next_of_run s
  rw [hresult, hrun] at ht
  rw [hahead, hrun]
  exact follow_token h ht hkind

end Machine

/-! ## 3. Readers that agree for a while -/

namespace Reader

/-- A script none of whose reads fails. -/
theorem reliable_scripted (chunks : List (List Char)) {failing : Nat → Bool}
    (h : ∀ n, failing n = false) (onClosing : Option Failure) :
    (scripted chunks failing onClosing).Reliable := by
  refine ⟨fun n => ?_, .inl rfl⟩
  show (if failing n then some (Failure.read n) else none) = none
  rw [h n, if_neg Bool.false_ne_true]

/-- The reader after a number of reads. -/
def after (r : Reader) : Nat → Reader
  | 0 => r
  | n + 1 => r.read.2.after n

/-- What comes of the read after so many others. -/
def gives (r : Reader) (n : Nat) : Except Failure (Option Char) := (r.after n).read.1

/-- The next reads of both come to the same, so many of them. -/
def Agrees (n : Nat) (r r' : Reader) : Prop := ∀ i < n, r'.gives i = r.gives i

theorem Agrees.read {n : Nat} {r r' : Reader} (h : Agrees (n + 1) r r') :
    r'.read.1 = r.read.1 ∧ Agrees n r.read.2 r'.read.2 :=
  ⟨h 0 (Nat.succ_pos n), fun i hi => h (i + 1) (Nat.succ_lt_succ hi)⟩

end Reader

namespace LookAhead

/-- Both look at the same, the second has made so many reads more than the first, and the readers
    agree on the reads that the first makes until it has made `n`. -/
structure Echoes (more n : Nat) (s s' : LookAhead) : Prop where
  current : s'.current = s.current
  place : s'.place = s.place
  reads : s'.reader.reads = more + s.reader.reads
  agrees : s.reader.Agrees (n - s.reader.reads) s'.reader

theorem reads_le_advance (s : LookAhead) : s.reader.reads ≤ s.advance.1.reader.reads := by
  have htried := s.reads_tried .advance
  show s.reader.reads ≤ (s.tried .advance).reader.reads
  omega

/-- An advance that makes one of these reads comes to the same. -/
theorem Echoes.advance {more n : Nat} {s s' : LookAhead} (h : s.Echoes more n s')
    (hn : s.advance.1.reader.reads ≤ n) :
    s'.advance.2 = s.advance.2 ∧ s.advance.1.Echoes more n s'.advance.1 := by
  obtain ⟨hcurrent, hplace, hreads, hagrees⟩ := h
  cases hlook : s.current with
  | none =>
    rw [advance_atEnd hlook, advance_atEnd (hcurrent.trans hlook)]
    exact ⟨rfl, hcurrent, hplace, hreads, hagrees⟩
  | some c =>
    have hread := s.reader.reads_read
    have hread' := s'.reader.reads_read
    unfold LookAhead.advance at hn ⊢
    rw [hlook] at hcurrent hn ⊢
    rw [hcurrent, hplace]
    dsimp only at hn ⊢
    have hless : s.reader.reads + 1 ≤ n := by
      split at hn <;> (rename_i heq; rw [heq] at hread; dsimp only at hn hread; omega)
    have hleft : n - s.reader.reads = (n - (s.reader.reads + 1)) + 1 := by omega
    rw [hleft] at hagrees
    obtain ⟨hsame, hlater⟩ := hagrees.read
    rw [← hread] at hlater
    cases hr : s.reader.read with
    | mk outcome reader =>
      cases hr' : s'.reader.read with
      | mk outcome' reader' =>
        rw [hr, hr'] at hsame hlater
        rw [hr] at hread
        rw [hr'] at hread'
        obtain rfl : outcome' = outcome := hsame
        dsimp only at hread hread'
        cases outcome' with
        | error f => exact ⟨rfl, rfl, rfl, by dsimp only; omega, hlater⟩
        | ok look => exact ⟨rfl, rfl, rfl, by dsimp only; omega, hlater⟩

theorem echoes_inStep (more n : Nat) :
    InStepWithin (fun s => s.reader.reads ≤ n) (Echoes more n) where
  back s h := Nat.le_trans s.reads_le_advance h
  current h := h.current
  place h := h.place
  advance h hn := h.advance hn

end LookAhead

namespace Machine

variable {σ : Type} [Observer σ]

/-- A reader that agrees with another on the reads of a number of calls: the scan over it is opened,
    and these calls come to the same. -/
theorem asked_of_agrees {reader reader' : Reader} (hreliable : reader.Reliable)
    (hzero : reader.reads = 0) (options : Options) (observer : σ) (k : Nat)
    (hsome : 0 < ((opened options reader observer).asked k).ahead.reader.reads)
    (hagrees : reader.Agrees ((opened options reader observer).asked k).ahead.reader.reads
      reader') :
    ∃ s', openReader options reader' observer = .ok s' ∧
      (∀ j < k, s'.answer j = (opened options reader observer).answer j) ∧
      Beside (LookAhead.Echoes reader'.reads
          ((opened options reader observer).asked k).ahead.reader.reads) Eq
        ((opened options reader observer).asked k) (s'.asked k) := by
  generalize hn : ((opened options reader observer).asked k).ahead.reader.reads = n
    at hsome hagrees ⊢
  obtain ⟨m, rfl⟩ := Nat.exists_eq_add_of_lt hsome
  rw [Nat.zero_add] at hn hagrees ⊢
  obtain ⟨hfirst, hlater⟩ := hagrees.read
  have hallowed : reader.read.1 = .ok reader.pending.head?.join := by
    rw [Reader.read_allowed hreliable.refusal]
  rw [hallowed] at hfirst
  have hopen : openReader options reader' observer =
      .ok ⟨⟨reader'.read.2, reader.pending.head?.join, ⟨options.line, 1⟩⟩, options.file,
        observer⟩ := by
    unfold openReader
    rw [LookAhead.start_of_read hfirst]
  have hreads : reader.read.2.reads = 1 := by rw [Reader.reads_read, hzero]
  have hechoes : (opened options reader observer).ahead.Echoes reader'.reads (m + 1)
      ⟨reader'.read.2, reader.pending.head?.join, ⟨options.line, 1⟩⟩ := by
    refine ⟨rfl, rfl, ?_, ?_⟩
    · show reader'.read.2.reads = reader'.reads + reader.read.2.reads
      rw [hreads, Reader.reads_read]
    · show reader.read.2.Agrees (m + 1 - reader.read.2.reads) reader'.read.2
      rw [hreads]
      exact hlater
  have hwithin := within_beside (LookAhead.echoes_inStep reader'.reads (m + 1))
    (agreeing_eq (σ := σ))
  have hopened : Beside (LookAhead.Echoes reader'.reads (m + 1)) Eq
      (opened options reader observer) ⟨_, options.file, observer⟩ := ⟨hechoes, rfl, rfl⟩
  obtain ⟨hbeside, hanswers⟩ := hwithin.asked hopened k (Nat.le_of_eq hn)
  exact ⟨_, hopen, hanswers, hbeside⟩

/-! ## 4. Any number of calls -/

/-- After any number of calls one read more was made than characters were consumed. -/
theorem oneAhead_asked {reader : Reader} (h : reader.Reliable) (hzero : reader.reads = 0)
    (options : Options) (observer : σ) (k : Nat) :
    ∃ done, ((opened options reader observer).asked k).ahead.OneAhead
      (Reader.untilEmpty reader.pending) ⟨options.line, 1⟩ done := by
  have hopened : (opened options reader observer).ahead.OneAhead
      (Reader.untilEmpty reader.pending) ⟨options.line, 1⟩ [] := by
    refine ⟨h.read, (LookAhead.rest_allowed h.refusal _).symm, rfl, ?_⟩
    show reader.read.2.reads = 1
    rw [Reader.reads_read, hzero]
  refine kept_asked (P := fun a => ∃ done, a.OneAhead (Reader.untilEmpty reader.pending)
    ⟨options.line, 1⟩ done) (fun a ha => ?_) ⟨[], hopened⟩ k
  obtain ⟨done, hdone⟩ := ha
  exact hdone.advance

/-- The call after which so much was consumed gave a token: it is the last thing consumed. -/
theorem token_of_answer {s : Scan σ} {text done done' : List Char} {first : Place} {j : Nat}
    (h : (s.asked j).ahead.OneAhead text first done)
    (h' : (s.asked (j + 1)).ahead.OneAhead text first done') {t : Token} (ht : s.answer j = .ok t)
    (hkind : t.kind ≠ .eof) :
    ∃ before, done' = before ++ t.spelling ∧ t.place = first.afterAll before ∧
      Spells t.spelling t.kind t.text := by
  obtain ⟨before, lexeme, hsplit, hplace, hspells⟩ := next_token h.at' ht hkind
  have hwhole : done' ++ (s.asked (j + 1)).ahead.rest =
      (done ++ before ++ lexeme) ++ (s.asked (j + 1)).ahead.rest := by
    rw [← h'.split, h.split, hsplit]
    simp [Scan.asked]
  rw [hspells.spelling]
  refine ⟨done ++ before, List.append_cancel_right hwhole, ?_, hspells⟩
  rw [hplace, Place.afterAll_append]

/-- **One character of look-ahead, never more.** Of a scan over any script whose reads do not fail,
    after any number of calls, whatever the sink makes of the reports:

    * there was one read more than characters were consumed, and the place is past these characters;
    * if the last call gave a token other than the end token, they end with its lexeme;
    * over any other reader that agrees on the reads made so far, and then goes on in whatever way,
      these calls come to the same: the same tokens, the same reports to the sink, the same character
      looked at and the same place, after as many reads.

    From a counted line on, each call gives a token if the sink refuses nothing. -/
theorem reads_one_ahead (options : Options) (chunks : List (List Char)) {failing : Nat → Bool}
    (hsound : ∀ n, failing n = false) (onClosing : Option Failure) (observer : σ) :
    ∃ s, openReader options (.scripted chunks failing onClosing) observer = .ok s ∧
      (1 ≤ options.line → Willing observer → ∀ n, ∃ t, s.answer n = .ok t) ∧
      ∀ k,
        (∃ done, Reader.uncut chunks = done ++ (s.asked k).ahead.rest ∧
          (s.asked k).ahead.reader.reads = done.length + 1 ∧
          (s.asked k).ahead.place = (⟨options.line, 1⟩ : Place).afterAll done ∧
          ∀ j t, k = j + 1 → s.answer j = .ok t → t.kind ≠ .eof →
            ∃ before, done = before ++ t.spelling ∧
              t.place = (⟨options.line, 1⟩ : Place).afterAll before ∧
              Spells t.spelling t.kind t.text) ∧
        ∀ reader' : Reader,
          (Reader.scripted chunks failing onClosing).Agrees (s.asked k).ahead.reader.reads
            reader' →
          ∃ s', openReader options reader' observer = .ok s' ∧
            (∀ j < k, s'.answer j = s.answer j) ∧
            (s'.asked k).observer = (s.asked k).observer ∧
            (s'.asked k).ahead.current = (s.asked k).ahead.current ∧
            (s'.asked k).ahead.place = (s.asked k).ahead.place ∧
            (s'.asked k).ahead.reader.reads =
              reader'.reads + (s.asked k).ahead.reader.reads := by
  have hreliable := Reader.reliable_scripted chunks hsound onClosing
  have hconsumed := oneAhead_asked hreliable rfl options observer
  rw [show Reader.untilEmpty (Reader.scripted chunks failing onClosing).pending =
    Reader.uncut chunks from Reader.untilEmpty_chunks chunks] at hconsumed
  refine ⟨_, openReader_reliable hreliable options observer, fun hline hwilling => ?_,
    fun k => ⟨?_, fun reader' hagrees => ?_⟩⟩
  · exact (ready_opened hreliable hwilling options hline).answer
  · obtain ⟨done, hdone⟩ := hconsumed k
    refine ⟨done, hdone.split, hdone.reads, hdone.place, fun j t hk ht hkind => ?_⟩
    subst hk
    obtain ⟨done₀, hbefore⟩ := hconsumed j
    exact token_of_answer hbefore hdone ht hkind
  · obtain ⟨done, hdone⟩ := hconsumed k
    have hsome : 0 < ((opened options (.scripted chunks failing onClosing) observer).asked
        k).ahead.reader.reads := by
      rw [hdone.reads]
      exact Nat.succ_pos _
    obtain ⟨s', hopen, hanswers, hbeside⟩ :=
      asked_of_agrees hreliable rfl options observer k hsome hagrees
    exact ⟨s', hopen, hanswers, hbeside.observer.symm, hbeside.ahead.current,
      hbeside.ahead.place, hbeside.ahead.reads⟩

/-- A lone slash and an illegal character before a word; the second reader, cut otherwise, fails as
    soon as it is read once more. -/
theorem reads_one_ahead_failing :
    let failing : Nat → Bool := fun _ => false
    let reader : Reader := .scripted [['/', '#'], ['a', ';', 'b']] failing none
    let reader' : Reader := .scripted [['/', '#', 'a', ';']] (fun n => decide (3 < n)) none
    (∀ n, failing n = false) ∧ (1 : Int) ≤ 2 ∧ Willing ({} : Collector) ∧
      reader.Agrees 4 reader' ∧
      ∃ s s', openReader { line := 2 } reader ({} : Collector) = .ok s ∧
        openReader { line := 2 } reader' ({} : Collector) = .ok s' ∧
        (∃ t, s.answer 0 = .ok t ∧ s'.answer 0 = .ok t ∧ t.kind ≠ .eof ∧
          ∃ before, (s.asked 1).ahead.place = (⟨2, 1⟩ : Place).afterAll (before ++ t.spelling)) ∧
        (s.asked 1).ahead.reader.reads = 4 ∧ (s'.asked 1).ahead.reader.reads = 4 ∧
        (s'.asked 1).observer = (s.asked 1).observer := by
  intro failing reader reader'
  have hsound : ∀ n, failing n = false := fun _ => rfl
  have hwilling : Willing ({} : Collector) := fun log y hlog => hlog.collector.1
  have hagrees : reader.Agrees 4 reader' := by
    intro i hi
    match i, hi with
    | 0, _ | 1, _ | 2, _ | 3, _ => rfl
  obtain ⟨s, hopen, htokens, hcalls⟩ :=
    reads_one_ahead { line := 2 } [['/', '#'], ['a', ';', 'b']] hsound none ({} : Collector)
  obtain ⟨⟨done, -, -, hplace, hlast⟩, hother⟩ := hcalls 1
  have hvalues : ((openReader { line := 2 } reader ({} : Collector)).toOption.map fun s =>
      ((s.asked 1).ahead.reader.reads, (s.answer 0).toOption.map Token.kind)) =
        some (4, some .identifier) := by decide +kernel
  rw [hopen] at hvalues
  obtain ⟨hreads, hkind⟩ := Prod.mk.inj (Option.some.inj hvalues)
  obtain ⟨t, ht⟩ := htokens (by decide) hwilling 0
  rw [ht] at hkind
  have hnot : t.kind ≠ .eof := by
    rw [Option.some.inj hkind]
    decide
  rw [hreads] at hother
  obtain ⟨s', hopen', hanswers, hobserver, -, -, hreads'⟩ := hother reader' hagrees
  obtain ⟨before, hdone, -⟩ := hlast 0 t rfl ht hnot
  rw [hdone] at hplace
  exact ⟨hsound, by decide, hwilling, hagrees, s, s', hopen, hopen',
    ⟨t, ht, (hanswers 0 Nat.one_pos).trans ht, hnot, before, hplace⟩, hreads, hreads', hobserver⟩

end Machine

end YaslLexis
