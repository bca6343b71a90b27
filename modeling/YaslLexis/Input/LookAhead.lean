import YaslLexis.Input.Reader

/-!
# One character of look-ahead

A `LookAhead` looks one character ahead of what was consumed and knows the place of that character.
The first character is read when it is made; the first empty read is the end, after which the
reader is left alone.

`advance` moves the place first and reads afterwards. If the read fails, the place has moved and
the character is still the old one; this is why `advance` has a result also when it fails.

Main statements: the view `rest` is what has not been consumed (`rest_advance`), and each advance
that succeeds leaves less to come (`remaining_advance_lt`), which is what makes scanning end.
-/

namespace YaslLexis

/-- A reader, the character looked at (`none` at the end) and its place. -/
structure LookAhead where
  reader : Reader
  current : Option Char
  place : Place

namespace LookAhead

/-! ## 1. Operations -/

/-- Looks at the first character of a reader, which stands at the beginning of a line. -/
def start (reader : Reader) (line : Int) : Except Failure LookAhead :=
  match reader.read with
  | (.error f, _) => .error f
  | (.ok c, reader) => .ok ⟨reader, c, ⟨line, 1⟩⟩

/-- Looks at the first character of a text in memory. -/
def ofText (text : List Char) (line : Int) : LookAhead :=
  ⟨(Reader.ofText text).read.2, text.head?, ⟨line, 1⟩⟩

/-- The end has been found. -/
def atEnd (s : LookAhead) : Bool := s.current.isNone

/-- Consumes the character looked at, if there is one: the place moves past it, then the next one
    is read. -/
def advance (s : LookAhead) : LookAhead × Option Failure :=
  match s.current with
  | none => (s, none)
  | some c =>
    match s.reader.read with
    | (.error f, reader) => (⟨reader, some c, s.place.after c⟩, some f)
    | (.ok next, reader) => (⟨reader, next, s.place.after c⟩, none)

/-- Advances a number of times, or until one of them fails. -/
def advanceBy : Nat → LookAhead → LookAhead × Option Failure
  | 0, s => (s, none)
  | n + 1, s =>
    match s.advance with
    | (s, some f) => (s, some f)
    | (s, none) => advanceBy n s

/-- Closes the reader. -/
def close (s : LookAhead) : LookAhead × Option Failure :=
  ({ s with reader := s.reader.close.2 }, s.reader.close.1.map Failure.onClosing)

/-! ## 2. Views -/

/-- The characters not yet consumed, up to the first empty read. -/
def rest (s : LookAhead) : List Char :=
  match s.current with
  | none => []
  | some c => c :: Reader.untilEmpty s.reader.pending

/-- A bound on the advances that can still succeed. -/
def remaining (s : LookAhead) : Nat :=
  match s.current with
  | none => 0
  | some _ => s.reader.pending.length + 1

theorem atEnd_iff {s : LookAhead} : s.atEnd = true ↔ s.current = none := by
  simp [atEnd]

theorem start_ofText (text : List Char) (line : Int) :
    start (Reader.ofText text) line = .ok (ofText text line) := by
  cases text <;> rfl

@[simp] theorem rest_ofText (text : List Char) (line : Int) : (ofText text line).rest = text := by
  cases text <;> simp [ofText, rest, Reader.read, Reader.refusal, Reader.ofText]

@[simp] theorem place_ofText (text : List Char) (line : Int) :
    (ofText text line).place = ⟨line, 1⟩ := rfl

/-- Whatever comes of it, an advance moves the place past the character. -/
theorem place_advance {s : LookAhead} {c : Char} (h : s.current = some c) :
    s.advance.1.place = s.place.after c := by
  unfold advance
  rw [h]
  dsimp only
  split <;> rfl

/-- At the end nothing happens. -/
theorem advance_atEnd {s : LookAhead} (h : s.current = none) : s.advance = (s, none) := by
  unfold advance
  rw [h]

/-- **An advance that succeeds takes exactly the first character off the rest.** -/
theorem rest_advance {s s' : LookAhead} {c : Char} (h : s.current = some c)
    (done : s.advance = (s', none)) : s.rest = c :: s'.rest := by
  unfold advance at done
  rw [h] at done
  dsimp only at done
  split at done
  · cases done
  · rename_i next reader eq
    cases done
    unfold Reader.read at eq
    split at eq
    · cases eq
    · cases eq
      unfold rest
      rw [h]
      cases s.reader.pending with
      | nil => rfl
      | cons p ps => cases p <;> rfl

/-- **An advance that succeeds leaves less to come.** -/
theorem remaining_advance_lt {s s' : LookAhead} {c : Char} (h : s.current = some c)
    (done : s.advance = (s', none)) : s'.remaining < s.remaining := by
  unfold advance at done
  rw [h] at done
  dsimp only at done
  split at done
  · cases done
  · rename_i next reader eq
    cases done
    unfold Reader.read at eq
    split at eq
    · cases eq
    · cases eq
      unfold remaining
      rw [h]
      cases s.reader.pending with
      | nil => simp
      | cons p ps => cases p <;> simp

end LookAhead

end YaslLexis
