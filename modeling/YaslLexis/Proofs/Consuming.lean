import YaslLexis.Machine.Run

/-!
# Consuming a text without failures

A reader that never refuses a read makes the look-ahead a plain cursor: it is at what is still to
come and at a place, and consuming a stretch of the text moves both.

* `Reader.Reliable` -- no read fails; texts in memory and unclosed files are so;
* `LookAhead.start_allowed`, `rest_allowed` -- what is looked at once the first read has not failed;
* `LookAhead.At` -- what is still to come, and where;
* `LookAhead.At.past` -- consuming the beginning of a text leaves the look-ahead at the remainder;
* `Machine.Run.consume_eq` -- so the automaton goes on whenever it consumes.
-/

namespace YaslLexis

/-! ## 1. Readers that do not fail -/

namespace Reader

/-- Reads never fail. -/
structure Reliable (r : Reader) : Prop where
  fault : ∀ n, r.fault n = none
  closed : r.closes = 0 ∨ r.faultOnceClosed = none

namespace Reliable

variable {r : Reader}

theorem refusal (h : r.Reliable) : r.refusal = none := by
  unfold Reader.refusal
  rw [h.fault]
  rcases h.closed with hc | hc
  · rw [if_pos hc]
    rfl
  · rw [hc]
    split <;> rfl

theorem read (h : r.Reliable) : r.read.2.Reliable := by
  rw [read_allowed h.refusal]
  exact ⟨h.fault, h.closed⟩

end Reliable

theorem reliable_ofText (text : List Char) : (ofText text).Reliable := ⟨fun _ => rfl, .inl rfl⟩

theorem reliable_ofFile (text : List Char) : (ofFile text).Reliable := ⟨fun _ => rfl, .inl rfl⟩

end Reader

/-! ## 2. Where a look-ahead is -/

namespace LookAhead

theorem head?_rest (s : LookAhead) : s.rest.head? = s.current := by
  unfold rest
  cases s.current <;> rfl

/-- A reader whose first read does not fail is looked at from its first character on. -/
theorem start_allowed {r : Reader} (h : r.refusal = none) (line : Int) :
    start r line = .ok ⟨r.read.2, r.pending.head?.join, ⟨line, 1⟩⟩ := by
  unfold start
  rw [Reader.read_allowed h]

/-- All that it gives before its first empty read is then still to come. -/
theorem rest_allowed {r : Reader} (h : r.refusal = none) (place : Place) :
    (⟨r.read.2, r.pending.head?.join, place⟩ : LookAhead).rest = Reader.untilEmpty r.pending := by
  unfold rest
  rw [Reader.read_allowed h]
  cases r.pending with
  | nil => rfl
  | cons c pending => cases c <;> rfl

/-- What every read keeps of the reader, an advance keeps. -/
theorem kept_advance {P : Reader → Prop} (h : ∀ r, P r → P r.read.2) {s : LookAhead}
    (hs : P s.reader) : P s.advance.1.reader := by
  have hread := h s.reader hs
  unfold LookAhead.advance
  split
  · exact hs
  · split <;> (rename_i heq; rw [heq] at hread; exact hread)

/-- The text is what is still to come, from the place on, and no read of it fails. -/
structure At (s : LookAhead) (text : List Char) (place : Place) : Prop where
  reliable : s.reader.Reliable
  rest : s.rest = text
  place : s.place = place

/-- Advances once for each character of a text. -/
def past (s : LookAhead) (text : List Char) : LookAhead := text.foldl (fun s _ => s.advance.1) s

theorem past_append (s : LookAhead) (a b : List Char) : s.past (a ++ b) = (s.past a).past b :=
  List.foldl_append

theorem at_ofText (text : List Char) (line : Int) : (ofText text line).At text ⟨line, 1⟩ :=
  ⟨(Reader.reliable_ofText text).read, rest_ofText text line, rfl⟩

namespace At

variable {s : LookAhead} {text : List Char} {place : Place} {c : Char}

theorem current (h : s.At text place) : s.current = text.head? := by
  rw [← h.rest, head?_rest]

/-- An advance succeeds. -/
theorem advance_eq (h : s.At text place) : s.advance = (s.advance.1, none) := by
  unfold LookAhead.advance
  split
  · rfl
  · rw [Reader.read_allowed h.reliable.refusal]

theorem advance (h : s.At (c :: text) place) : s.advance.1.At text (place.after c) := by
  have hc : s.current = some c := h.current
  refine ⟨?_, ?_, ?_⟩
  · unfold LookAhead.advance
    rw [hc, Reader.read_allowed h.reliable.refusal]
    exact ⟨h.reliable.fault, h.reliable.closed⟩
  · have hrest := rest_advance hc h.advance_eq
    rw [h.rest, List.cons.injEq] at hrest
    exact hrest.2.symm
  · rw [place_advance hc, h.place]

/-- **Consuming the beginning of a text leaves the look-ahead at the remainder.** -/
theorem past (done : List Char) (h : s.At (done ++ text) place) :
    (s.past done).At text (place.afterAll done) := by
  induction done generalizing s place with
  | nil => exact h
  | cons c done ih => exact ih h.advance

end At

end LookAhead

/-! ## 3. The automaton consumes -/

namespace Machine

variable {σ : Type}

/-- Consumes a text without looking at it. -/
def Scan.past (s : Scan σ) (text : List Char) : Scan σ := { s with ahead := s.ahead.past text }

@[simp] theorem Scan.past_nil (s : Scan σ) : s.past [] = s := rfl

/-- Consuming the character looked at does not fail. -/
theorem Run.consume_eq {r : Run σ} {c : Char} {text : List Char} {place : Place}
    (h : r.scan.ahead.At (c :: text) place) (next : State) :
    r.consume next = .goes { r with state := next, scan := r.scan.past [c] } := by
  unfold Run.consume
  rw [h.advance_eq]
  rfl

variable [Observer σ]

theorem run_of_goes {r r' : Run σ} (h : r.step = .goes r') : run r = run r' := by
  fun_cases run r with
  | case1 scan result hstep =>
    rw [h] at hstep
    cases hstep
  | case2 r₁ hstep =>
    rw [h] at hstep
    cases hstep
    rfl

theorem run_of_ends {r : Run σ} {scan : Scan σ} {result : Except Failure Token}
    (h : r.step = .ends scan result) : run r = (scan, result) := by
  fun_cases run r with
  | case1 scan₁ result₁ hstep =>
    rw [h] at hstep
    cases hstep
    rfl
  | case2 r₁ hstep =>
    rw [h] at hstep
    cases hstep

end Machine

end YaslLexis
