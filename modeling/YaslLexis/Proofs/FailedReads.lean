import YaslLexis.Proofs.Chunks
import YaslLexis.Proofs.Splitting

/-!
# Reads that fail

A look-ahead over a script of which some reads fail, where every failure is caught, and advances are
tried again as often as one likes, with closings in between. Every character comes once and in order.
Not so the place: it moves before the read, so each read that fails has moved it past a character
that is still the one looked at.

* `Attempt`, `LookAhead.tried`, `LookAhead.tries` -- what may be tried, once and any number of times;
* `LookAhead.takes`, `LookAhead.fails`, `LookAhead.tally` -- the advances that consume a character,
  those that fail, and how many there were of a kind;
* `LookAhead.Follows` -- the invariant: how much of a script's text was consumed;
  `Follows.tried`, `Follows.tries` -- one attempt keeps it, and so does any number of them;
* `reads_tries` -- every advance before the end is one read;
* **`delivers_in_order`** -- each character comes once and in order, whatever reads fail;
* `LookAhead.passed`, `place_tries` -- the place moves past a character as often as one tries to
  consume it;
* **`place_counts_failures`** -- so the place is right as long as no read has failed, and is then
  too far by the reads that have.
-/

namespace YaslLexis

/-- What may be tried with a look-ahead. -/
inductive Attempt where
  | advance
  | close
deriving DecidableEq, Repr

namespace LookAhead

/-! ## 1. Attempts -/

/-- The look-ahead after an attempt, whose failure is caught. -/
def tried (s : LookAhead) : Attempt → LookAhead
  | .advance => s.advance.1
  | .close => s.close.1

/-- The look-ahead after any number of attempts. -/
def tries (s : LookAhead) (attempts : List Attempt) : LookAhead := attempts.foldl tried s

/-- The attempt is an advance that returns, made before the end was found. -/
def takes (s : LookAhead) : Attempt → Bool
  | .advance => !s.atEnd && s.advance.2.isNone
  | .close => false

/-- The attempt is an advance that fails. -/
def fails (s : LookAhead) : Attempt → Bool
  | .advance => s.advance.2.isSome
  | .close => false

/-- The attempt is an advance past the character that fails. -/
def failsAt (c : Char) (s : LookAhead) (a : Attempt) : Bool := s.fails a && s.current = some c

/-- The number of attempts of a kind, each of them judged when its turn comes. -/
def tally (kind : LookAhead → Attempt → Bool) (s : LookAhead) : List Attempt → Nat
  | [] => 0
  | a :: rest => tally kind (s.tried a) rest + (kind s a).toNat

@[simp] theorem tries_nil (s : LookAhead) : s.tries [] = s := rfl

@[simp] theorem tries_cons (s : LookAhead) (a : Attempt) (rest : List Attempt) :
    s.tries (a :: rest) = (s.tried a).tries rest := rfl

/-! ## 2. One advance -/

/-- **The three ways in which an advance goes**: at the end nothing happens; before it the place moves
    and there is one read, which fails and leaves all that is still to come, or takes the character
    off it. -/
theorem advance_cases (s : LookAhead) :
    (s.current = none ∧ s.advance = (s, none)) ∨
    (∃ c f, s.current = some c ∧ s.reader.refusal = some f ∧
      s.advance = (⟨s.reader.read.2, some c, s.place.after c⟩, some f) ∧
      s.advance.1.rest = s.rest) ∨
    (∃ c, s.current = some c ∧ s.reader.refusal = none ∧ s.advance.2 = none ∧
      s.advance.1.reader = s.reader.read.2 ∧ s.rest = c :: s.advance.1.rest) := by
  cases hcurrent : s.current with
  | none => exact .inl ⟨rfl, advance_atEnd hcurrent⟩
  | some c =>
    cases hrefusal : s.reader.refusal with
    | some f =>
      have hadvance : s.advance = (⟨s.reader.read.2, some c, s.place.after c⟩, some f) := by
        unfold advance
        rw [hcurrent, Reader.read_refused hrefusal]
      refine .inr (.inl ⟨c, f, rfl, rfl, hadvance, ?_⟩)
      rw [hadvance, Reader.read_refused hrefusal]
      unfold rest
      rw [hcurrent]
    | none =>
      have hadvance : s.advance =
          (⟨s.reader.read.2, s.reader.pending.head?.join, s.place.after c⟩, none) := by
        unfold advance
        rw [hcurrent, Reader.read_allowed hrefusal]
      refine .inr (.inr ⟨c, rfl, rfl, by rw [hadvance], by rw [hadvance], ?_⟩)
      exact rest_advance hcurrent (Prod.ext rfl (by rw [hadvance]))

section Kinds

variable {s : LookAhead}

theorem kinds_atEnd (h : s.current = none) :
    s.takes .advance = false ∧ s.fails .advance = false ∧
      ∀ c, s.failsAt c .advance = false := by
  simp [takes, fails, failsAt, atEnd, h, advance_atEnd h]

theorem kinds_failed {c : Char} {f : Failure} (h : s.current = some c)
    (hanswer : s.advance.2 = some f) :
    s.takes .advance = false ∧ s.fails .advance = true ∧
      ∀ d, s.failsAt d .advance = decide (c = d) := by
  simp [takes, fails, failsAt, h, hanswer]

theorem kinds_took {c : Char} (h : s.current = some c) (hanswer : s.advance.2 = none) :
    s.takes .advance = true ∧ s.fails .advance = false ∧
      ∀ d, s.failsAt d .advance = false := by
  simp [takes, fails, failsAt, atEnd, h, hanswer]

end Kinds

/-- An attempt changes nothing of how the reads to come fail. -/
theorem fault_tried (s : LookAhead) (a : Attempt) :
    (s.tried a).reader.fault = s.reader.fault ∧
      (s.tried a).reader.faultOnceClosed = s.reader.faultOnceClosed := by
  have hread : s.reader.read.2.fault = s.reader.fault ∧
      s.reader.read.2.faultOnceClosed = s.reader.faultOnceClosed := by
    unfold Reader.read
    split <;> exact ⟨rfl, rfl⟩
  cases a with
  | close => exact ⟨rfl, rfl⟩
  | advance =>
    unfold tried
    rcases advance_cases s with ⟨-, hadvance⟩ | ⟨c, f, -, -, hadvance, -⟩ | ⟨c, -, -, -, hreader, -⟩
    · rw [hadvance]
      exact ⟨rfl, rfl⟩
    · rw [hadvance]
      exact hread
    · rw [hreader]
      exact hread

/-- An advance before the end is one read, and no other attempt is. -/
theorem reads_tried (s : LookAhead) (a : Attempt) :
    (s.tried a).reader.reads = s.reader.reads + (s.takes a).toNat + (s.fails a).toNat := by
  cases a with
  | close => rfl
  | advance =>
    unfold tried
    rcases advance_cases s with ⟨hcurrent, hadvance⟩ | ⟨c, f, hcurrent, -, hadvance, -⟩ |
      ⟨c, hcurrent, -, hanswer, hreader, -⟩
    · obtain ⟨htakes, hfails, -⟩ := kinds_atEnd hcurrent
      rw [htakes, hfails, hadvance]
      rfl
    · obtain ⟨htakes, hfails, -⟩ := kinds_failed hcurrent (by rw [hadvance])
      rw [htakes, hfails, hadvance, Reader.reads_read]
      rfl
    · obtain ⟨htakes, hfails, -⟩ := kinds_took hcurrent hanswer
      rw [htakes, hfails, hreader, Reader.reads_read]
      rfl

/-- **Reads are counted by the advances that take a character and those that fail.** -/
theorem reads_tries (s : LookAhead) (attempts : List Attempt) :
    (s.tries attempts).reader.reads =
      s.reader.reads + s.tally takes attempts + s.tally fails attempts := by
  induction attempts generalizing s with
  | nil => rfl
  | cons a rest ih =>
    rw [tries_cons, ih, reads_tried, tally, tally]
    omega

/-! ## 3. Through a script -/

/-- The look-ahead is over a script of which so many characters were consumed. -/
structure Follows (s : LookAhead) (text : List Char) (failing : Nat → Bool) (k : Nat) : Prop where
  rest : s.rest = text.drop k
  within : k ≤ text.length
  fault : ∀ n, s.reader.fault n = if failing n then some (.read n) else none
  stays : s.reader.faultOnceClosed = none

namespace Follows

variable {s : LookAhead} {text : List Char} {failing : Nat → Bool} {k : Nat}

theorem current (h : s.Follows text failing k) : s.current = text[k]? := by
  rw [← head?_rest, h.rest, List.head?_drop]

theorem atEnd_iff (h : s.Follows text failing k) : s.atEnd = true ↔ k = text.length := by
  have hwithin := h.within
  rw [LookAhead.atEnd_iff, h.current, List.getElem?_eq_none_iff]
  omega

/-- The next read fails if the script says so, however often the reader was closed. -/
theorem refusal (h : s.Follows text failing k) :
    s.reader.refusal = if failing s.reader.reads then some (.read s.reader.reads) else none := by
  unfold Reader.refusal
  rw [h.stays, h.fault]
  split <;> rfl

/-- A character is taken off what is left of the text. -/
theorem drop_of_took (h : s.Follows text failing k) {c : Char}
    (hrest : s.rest = c :: s.advance.1.rest) :
    text.drop k = c :: text.drop (k + 1) ∧ s.advance.1.rest = text.drop (k + 1) := by
  have hdrop : text.drop k = c :: s.advance.1.rest := h.rest.symm.trans hrest
  have htail : s.advance.1.rest = text.drop (k + 1) := by
    rw [← List.tail_drop, hdrop, List.tail_cons]
  rw [← htail]
  exact ⟨hdrop, rfl⟩

/-- **An attempt keeps the invariant**: an advance that returns before the end takes the next
    character of the text, and nothing else takes any. -/
theorem tried (h : s.Follows text failing k) (a : Attempt) :
    (s.tried a).Follows text failing (k + (s.takes a).toNat) := by
  obtain ⟨hfault, hstays⟩ := fault_tried s a
  suffices hgone : (s.tried a).rest = text.drop (k + (s.takes a).toNat) ∧
      k + (s.takes a).toNat ≤ text.length by
    exact ⟨hgone.1, hgone.2, fun n => by rw [hfault, h.fault], by rw [hstays, h.stays]⟩
  cases a with
  | close => exact ⟨h.rest, h.within⟩
  | advance =>
    show s.advance.1.rest = _ ∧ _
    rcases advance_cases s with ⟨hcurrent, hadvance⟩ | ⟨c, f, hcurrent, -, hadvance, hsame⟩ |
      ⟨c, hcurrent, -, hanswer, -, hrest⟩
    · rw [(kinds_atEnd hcurrent).1, hadvance]
      exact ⟨h.rest, h.within⟩
    · rw [(kinds_failed hcurrent (by rw [hadvance])).1, hsame]
      exact ⟨h.rest, h.within⟩
    · obtain ⟨hdrop, htail⟩ := h.drop_of_took hrest
      rw [(kinds_took hcurrent hanswer).1, htail]
      refine ⟨rfl, ?_⟩
      have hlength := congrArg List.length hdrop
      rw [List.length_drop, List.length_cons] at hlength
      show k + 1 ≤ text.length
      omega

/-- **Any number of attempts keep it.** -/
theorem tries (h : s.Follows text failing k) (attempts : List Attempt) :
    (s.tries attempts).Follows text failing (k + s.tally takes attempts) := by
  induction attempts generalizing s k with
  | nil => exact h
  | cons a rest ih =>
    rw [tries_cons, tally, Nat.add_comm (tally _ _ _), ← Nat.add_assoc]
    exact ih (h.tried a)

end Follows

theorem start_scripted (chunks : List (List Char)) {failing : Nat → Bool}
    (hfirst : failing 0 = false) (onClosing : Option Failure) (line : Int) :
    ∃ s, start (.scripted chunks failing onClosing) line = .ok s ∧
      s.Follows (Reader.uncut chunks) failing 0 ∧ s.reader.reads = 1 ∧ s.place = ⟨line, 1⟩ := by
  have hallowed : (Reader.scripted chunks failing onClosing).refusal = none := by
    show (if failing 0 then some (Failure.read 0) else none) = none
    rw [hfirst]
    rfl
  refine ⟨_, start_allowed hallowed line, ⟨?_, Nat.zero_le _, fun n => ?_, ?_⟩, ?_, rfl⟩
  · exact (rest_allowed hallowed _).trans (Reader.untilEmpty_chunks chunks)
  all_goals
    rw [Reader.read_allowed hallowed]
    rfl

/-! ## 4. Characters -/

/-- **Every character comes once and in order, whatever reads fail.** Over a script whose first read
    does not fail, after any attempts to advance and to close, of whose advances a number returned
    before the end was found:

    * the character looked at is the one with this number among those that come before the first
      empty read, and the end is found when there is none with it;
    * an advance before the end is one read more, and fails exactly when this read does;
    * an advance at the end does nothing at all, and a closing reads nothing. -/
theorem delivers_in_order (chunks : List (List Char)) {failing : Nat → Bool}
    (hfirst : failing 0 = false) (onClosing : Option Failure) (line : Int) :
    ∃ s, start (.scripted chunks failing onClosing) line = .ok s ∧
      ∀ attempts : List Attempt,
        s.tally takes attempts ≤ (Reader.uncut chunks).length ∧
        (s.tries attempts).current = (Reader.uncut chunks)[s.tally takes attempts]? ∧
        ((s.tries attempts).atEnd = true ↔
          s.tally takes attempts = (Reader.uncut chunks).length) ∧
        (s.tries attempts).reader.reads =
          1 + s.tally takes attempts + s.tally fails attempts ∧
        ((s.tries attempts).atEnd = false →
          (s.tries attempts).advance.1.reader.reads = (s.tries attempts).reader.reads + 1 ∧
          (s.tries attempts).advance.2 =
            if failing (s.tries attempts).reader.reads
            then some (.read (s.tries attempts).reader.reads) else none) ∧
        ((s.tries attempts).atEnd = true →
          (s.tries attempts).advance = (s.tries attempts, none)) ∧
        (s.tries attempts).close.1.reader.reads = (s.tries attempts).reader.reads := by
  obtain ⟨s, hstart, hbegin, hreads, -⟩ := start_scripted chunks hfirst onClosing line
  refine ⟨s, hstart, fun attempts => ?_⟩
  have hlater := hbegin.tries attempts
  rw [Nat.zero_add] at hlater
  refine ⟨hlater.within, hlater.current, hlater.atEnd_iff, ?_, ?_, ?_, rfl⟩
  · rw [reads_tries, hreads]
  · intro hbefore
    rw [← hlater.refusal]
    rcases advance_cases (s.tries attempts) with ⟨hcurrent, -⟩ | ⟨c, f, -, hrefusal, hadvance, -⟩ |
      ⟨c, -, hrefusal, hanswer, hreader, -⟩
    · rw [LookAhead.atEnd_iff.2 hcurrent] at hbefore
      cases hbefore
    · rw [hadvance, hrefusal, Reader.reads_read]
      exact ⟨rfl, rfl⟩
    · rw [hreader, hrefusal, Reader.reads_read]
      exact ⟨rfl, hanswer⟩
  · intro hend
    exact advance_atEnd (LookAhead.atEnd_iff.1 hend)

/-- Two failing reads and a closing that fails, in a script with an empty chunk. -/
theorem delivers_in_order_empty_chunk :
    let chunks : List (List Char) := [['a'], ['b'], [], ['c']]
    let failing : Nat → Bool := fun n => n == 1 || n == 3
    let attempts : List Attempt := [.advance, .close, .advance, .advance, .advance]
    failing 0 = false ∧
      ∃ s, start (.scripted chunks failing (some .closedText)) 1 = .ok s ∧
        s.tally takes attempts = 2 ∧ (s.tries attempts).current = none ∧
        (s.tries attempts).reader.reads = 5 ∧
        (s.tries attempts).advance = (s.tries attempts, none) := by
  intro chunks failing attempts
  have hfirst : failing 0 = false := by decide
  obtain ⟨s, hstart, hafter⟩ :=
    delivers_in_order chunks hfirst (some .closedText) 1
  obtain ⟨-, hcurrent, hend, hreads, -, hstill, -⟩ := hafter attempts
  have hcounts : ((start (.scripted chunks failing (some .closedText)) 1).toOption.map fun s =>
      (s.tally takes attempts, s.tally fails attempts)) = some (2, 2) := by decide +kernel
  rw [hstart] at hcounts
  obtain ⟨htakes, hfails⟩ := Prod.mk.inj (Option.some.inj hcounts)
  have hlast : (s.tries attempts).atEnd = true := hend.2 htakes
  refine ⟨hfirst, s, hstart, htakes, ?_, ?_, hstill hlast⟩
  · exact LookAhead.atEnd_iff.1 hlast
  · rw [hreads, htakes, hfails]

/-! ## 5. Places -/

/-- The character that an attempt tries to consume. -/
def aim (s : LookAhead) : Attempt → List Char
  | .advance => s.current.toList
  | .close => []

/-- The characters that one tried to consume, each as often as one did. -/
def passed (s : LookAhead) : List Attempt → List Char
  | [] => []
  | a :: rest => s.aim a ++ (s.tried a).passed rest

/-- An attempt moves the place past the character that it tries to consume, if it fails or not. -/
theorem place_tried (s : LookAhead) (a : Attempt) :
    (s.tried a).place = s.place.afterAll (s.aim a) := by
  cases a with
  | close => rfl
  | advance =>
    unfold tried aim
    cases hcurrent : s.current with
    | none =>
      rw [advance_atEnd hcurrent]
      rfl
    | some c =>
      rw [place_advance hcurrent]
      rfl

/-- **The place is past every character that one tried to consume**, as often as one did. -/
theorem place_tries (s : LookAhead) (attempts : List Attempt) :
    (s.tries attempts).place = s.place.afterAll (s.passed attempts) := by
  induction attempts generalizing s with
  | nil => rfl
  | cons a rest ih => rw [tries_cons, ih, place_tried, passed, Place.afterAll_append]

namespace Follows

variable {s : LookAhead} {text : List Char} {failing : Nat → Bool} {k : Nat}

/-- The characters that one tried to consume are those consumed, and each of them again for every
    advance past it that failed. -/
theorem count_passed (h : s.Follows text failing k) (c : Char) (attempts : List Attempt) :
    (s.passed attempts).count c =
      ((text.drop k).take (s.tally takes attempts)).count c + s.tally (failsAt c) attempts := by
  induction attempts generalizing s k with
  | nil => rfl
  | cons a rest ih =>
    rw [passed, tally, tally, List.count_append, ih (h.tried a)]
    cases a with
    | close => simp [aim, takes, failsAt, fails]
    | advance =>
      rcases advance_cases s with ⟨hcurrent, -⟩ | ⟨d, f, hcurrent, -, hadvance, -⟩ |
        ⟨d, hcurrent, -, hanswer, -, hgone⟩
      · obtain ⟨htakes, -, hfails⟩ := kinds_atEnd hcurrent
        simp [aim, hcurrent, htakes, hfails]
      · obtain ⟨htakes, -, hfails⟩ := kinds_failed hcurrent (by rw [hadvance])
        by_cases hd : d = c <;> simp [aim, hcurrent, htakes, hfails, hd]
        omega
      · obtain ⟨htakes, -, hfails⟩ := kinds_took hcurrent hanswer
        obtain ⟨hdrop, -⟩ := h.drop_of_took hgone
        rw [hdrop]
        simp [aim, hcurrent, htakes, hfails, List.count_cons]
        omega

/-- While no advance fails, the characters that one tried to consume are those consumed. -/
theorem passed_eq (h : s.Follows text failing k) {attempts : List Attempt}
    (hnone : s.tally fails attempts = 0) :
    s.passed attempts = (text.drop k).take (s.tally takes attempts) := by
  induction attempts generalizing s k with
  | nil => rfl
  | cons a rest ih =>
    rw [tally, Nat.add_eq_zero_iff] at hnone
    rw [passed, tally, ih (h.tried a) hnone.1]
    cases a with
    | close => simp [aim, takes]
    | advance =>
      rcases advance_cases s with ⟨hcurrent, -⟩ | ⟨d, f, hcurrent, -, hadvance, -⟩ |
        ⟨d, hcurrent, -, hanswer, -, hgone⟩
      · simp [aim, hcurrent, (kinds_atEnd hcurrent).1]
      · rw [(kinds_failed hcurrent (by rw [hadvance])).2.1] at hnone
        cases hnone.2
      · obtain ⟨hdrop, -⟩ := h.drop_of_took hgone
        rw [hdrop, (kinds_took hcurrent hanswer).1]
        simp [aim, hcurrent]

end Follows

/-- **The place counts the reads that failed.** Over a script whose first read does not fail, after
    any attempts to advance and to close:

    * an advance that fails keeps the character looked at, and moves the place past it all the same;
    * the place is past every character that one tried to consume, which are those that come before
      the one looked at, and each of all characters again for every advance past it that failed; so
      the line is too great by the failures at line feeds;
    * as long as no advance has failed, the place is that of the character looked at: past exactly
      the characters that come before it. -/
theorem place_counts_failures (chunks : List (List Char)) {failing : Nat → Bool}
    (hfirst : failing 0 = false) (onClosing : Option Failure) (line : Int) :
    ∃ s, start (.scripted chunks failing onClosing) line = .ok s ∧
      ∀ attempts : List Attempt,
        (∀ f, (s.tries attempts).advance.2 = some f →
          (s.tries attempts).advance.1.current = (s.tries attempts).current ∧
          (s.tries attempts).advance.1.atEnd = (s.tries attempts).atEnd ∧
          ∃ c, (s.tries attempts).current = some c ∧
            (s.tries attempts).advance.1.place = (s.tries attempts).place.after c ∧
            (s.tries attempts).advance.1.place ≠ (s.tries attempts).place) ∧
        (s.tries attempts).place = (⟨line, 1⟩ : Place).afterAll (s.passed attempts) ∧
        (∀ c, (s.passed attempts).count c =
          ((Reader.uncut chunks).take (s.tally takes attempts)).count c +
            s.tally (failsAt c) attempts) ∧
        (s.tries attempts).place.line =
          ((⟨line, 1⟩ : Place).afterAll
            ((Reader.uncut chunks).take (s.tally takes attempts))).line +
              s.tally (failsAt '\n') attempts ∧
        (s.tally fails attempts = 0 → (s.tries attempts).place =
          (⟨line, 1⟩ : Place).afterAll
            ((Reader.uncut chunks).take (s.tally takes attempts))) := by
  obtain ⟨s, hstart, hbegin, -, hplace⟩ := start_scripted chunks hfirst onClosing line
  refine ⟨s, hstart, fun attempts => ?_⟩
  have hpassed : (s.tries attempts).place = (⟨line, 1⟩ : Place).afterAll (s.passed attempts) := by
    rw [← hplace]
    exact place_tries s attempts
  have hcount := fun c => hbegin.count_passed c attempts
  refine ⟨?_, hpassed, hcount, ?_, ?_⟩
  · intro f hanswer
    rcases advance_cases (s.tries attempts) with ⟨-, hadvance⟩ | ⟨c, g, hcurrent, -, hadvance, -⟩ |
      ⟨c, -, -, hnone, -⟩
    · rw [hadvance] at hanswer
      cases hanswer
    · have hsame : (s.tries attempts).advance.1.current = (s.tries attempts).current := by
        rw [hadvance, hcurrent]
      have hmoved : (s.tries attempts).advance.1.place = (s.tries attempts).place.after c :=
        place_advance hcurrent
      refine ⟨hsame, congrArg Option.isNone hsame, c, hcurrent, hmoved, fun hstays => ?_⟩
      have hbefore := Place.before_after (s.tries attempts).place c
      rw [← hmoved, hstays] at hbefore
      exact Place.not_before_self _ hbefore
    · rw [hnone] at hanswer
      cases hanswer
  · rw [hpassed, Place.line_afterAll, Place.line_afterAll, hcount, List.drop_zero]
    omega
  · intro hnone
    rw [hpassed, hbegin.passed_eq hnone, List.drop_zero]

/-- The read behind a line feed fails once: the line is one too great from then on. -/
theorem place_counts_failed_line_feed :
    let failing : Nat → Bool := fun n => n == 2
    let attempts : List Attempt := [.advance, .advance, .close, .advance]
    failing 0 = false ∧
      ∃ s, start (.scripted [['a', '\n'], ['b']] failing none) 1 = .ok s ∧
        s.tally takes attempts = 2 ∧ s.tally (failsAt '\n') attempts = 1 ∧
        (s.tries attempts).place.line = 3 ∧ (s.tries [.advance]).place = ⟨1, 2⟩ := by
  intro failing attempts
  have hfirst : failing 0 = false := by decide
  obtain ⟨s, hstart, hafter⟩ :=
    place_counts_failures [['a', '\n'], ['b']] hfirst none 1
  obtain ⟨-, -, -, hline, -⟩ := hafter attempts
  obtain ⟨-, -, -, -, hright⟩ := hafter [.advance]
  have hcounts : ((start (.scripted [['a', '\n'], ['b']] failing none) 1).toOption.map fun s =>
      (s.tally takes attempts, s.tally (failsAt '\n') attempts, s.tally takes [.advance],
        s.tally fails [.advance])) = some (2, 1, 1, 0) := by decide +kernel
  rw [hstart] at hcounts
  obtain ⟨htakes, hcounts⟩ := Prod.mk.inj (Option.some.inj hcounts)
  obtain ⟨hfailsAt, hcounts⟩ := Prod.mk.inj hcounts
  obtain ⟨hone, hnone⟩ := Prod.mk.inj hcounts
  refine ⟨hfirst, s, hstart, htakes, hfailsAt, ?_, ?_⟩
  · rw [hline, htakes, hfailsAt]
    decide
  · rw [hright hnone, hone]
    decide

/-- So a failed read does not leave the look-ahead as it was, and the place is not for ever that of
    the character looked at. -/
theorem failed_read_moves_place :
    ∃ s, start (.scripted [['a', '\n'], ['b']] (fun n => n == 2) none) 1 = .ok s ∧
      (s.tries [.advance]).advance.2.isSome = true ∧
      (s.tries [.advance]).advance.1.current = (s.tries [.advance]).current ∧
      (s.tries [.advance]).advance.1.place ≠ (s.tries [.advance]).place ∧
      s.tally takes [.advance, .advance, .advance] = 2 ∧
      (s.tries [.advance, .advance, .advance]).current = some 'b' ∧
      (s.tries [.advance, .advance, .advance]).place ≠
        (⟨1, 1⟩ : Place).afterAll ((Reader.uncut [['a', '\n'], ['b']]).take 2) :=
  ⟨_, rfl, by decide +kernel⟩

end LookAhead

end YaslLexis
