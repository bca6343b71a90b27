import YaslLexis.Failure

/-!
# Readers

A reader gives one character a read. What it will give is a list of outcomes, `pending`: a
character, or `none` for a read that finds nothing. Single reads may fail, and then use up nothing;
closing may fail, and may or may not make later reads fail. Reads and closings are counted.

Main statements: a read counts itself whatever comes of it (`reads_read`), and fails exactly when
the reader refuses it (`read_refused`, `read_allowed`).
-/

namespace YaslLexis

/-- A supply of characters, one a read. -/
structure Reader where
  /-- What the next reads give; when all are used up, every read finds nothing. -/
  pending : List (Option Char)
  /-- How the read with a number fails, if it does. Reads are numbered from zero. -/
  fault : Nat → Option Failure := fun _ => none
  /-- How reads fail once the reader was closed, if they do. -/
  faultOnceClosed : Option Failure := none
  /-- How each closing fails, if it does. -/
  faultOnClosing : Option Failure := none
  /-- The reads so far. -/
  reads : Nat := 0
  /-- The closings so far. -/
  closes : Nat := 0

namespace Reader

/-! ## 1. Kinds of reader -/

/-- A text in memory. -/
def ofText (text : List Char) : Reader :=
  { pending := text.map some, faultOnceClosed := some .closedText }

/-- An opened file that holds a text. -/
def ofFile (text : List Char) : Reader :=
  { pending := text.map some, faultOnceClosed := some .closedFile }

/-- An opened file of which nothing can be read. -/
def unreadable (f : Failure) : Reader :=
  { pending := [], fault := fun _ => some f, faultOnceClosed := some .closedFile }

/-- The reads that a chunk stands for: its characters, or one empty read for the empty chunk. -/
def readsOfChunk (chunk : List Char) : List (Option Char) :=
  if chunk.isEmpty then [none] else chunk.map some

/-- A reader that follows a script: what each chunk gives in turn, which reads fail, and how
    closing fails. Closing does not stop it. -/
def scripted (chunks : List (List Char)) (failing : Nat → Bool) (onClosing : Option Failure) :
    Reader :=
  { pending := chunks.flatMap readsOfChunk
    fault := fun n => if failing n then some (.read n) else none
    faultOnClosing := onClosing }

/-! ## 2. Reading and closing -/

/-- How the next read fails, if it does. -/
def refusal (r : Reader) : Option Failure :=
  (if r.closes = 0 then none else r.faultOnceClosed) <|> r.fault r.reads

/-- One read. A read that fails uses up nothing. -/
def read (r : Reader) : Except Failure (Option Char) × Reader :=
  match r.refusal with
  | some f => (.error f, { r with reads := r.reads + 1 })
  | none => (.ok r.pending.head?.join, { r with pending := r.pending.tail, reads := r.reads + 1 })

/-- One closing. -/
def close (r : Reader) : Option Failure × Reader :=
  (r.faultOnClosing, { r with closes := r.closes + 1 })

/-- What the reader gives before its first empty read, failing reads left out. -/
def untilEmpty : List (Option Char) → List Char
  | some c :: rest => c :: untilEmpty rest
  | _ => []

/-! ## 3. What one read and one closing do -/

theorem read_refused {r : Reader} {f : Failure} (h : r.refusal = some f) :
    r.read = (.error f, { r with reads := r.reads + 1 }) := by
  simp [read, h]

theorem read_allowed {r : Reader} (h : r.refusal = none) :
    r.read = (.ok r.pending.head?.join,
      { r with pending := r.pending.tail, reads := r.reads + 1 }) := by
  simp [read, h]

@[simp] theorem reads_read (r : Reader) : r.read.2.reads = r.reads + 1 := by
  unfold read
  split <;> rfl

@[simp] theorem closes_read (r : Reader) : r.read.2.closes = r.closes := by
  unfold read
  split <;> rfl

@[simp] theorem reads_close (r : Reader) : r.close.2.reads = r.reads := rfl

@[simp] theorem closes_close (r : Reader) : r.close.2.closes = r.closes + 1 := rfl

@[simp] theorem untilEmpty_nil : untilEmpty [] = [] := rfl

@[simp] theorem untilEmpty_none (rest : List (Option Char)) : untilEmpty (none :: rest) = [] := rfl

@[simp] theorem untilEmpty_some (c : Char) (rest : List (Option Char)) :
    untilEmpty (some c :: rest) = c :: untilEmpty rest := rfl

@[simp] theorem untilEmpty_map_some (text : List Char) : untilEmpty (text.map some) = text := by
  induction text with
  | nil => rfl
  | cons c text ih => simp [ih]

end Reader

end YaslLexis
