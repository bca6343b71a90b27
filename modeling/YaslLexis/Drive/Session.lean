import YaslLexis.Machine.Drain
import YaslLexis.Drive.Step

/-!
# Playing a session

`play` carries out one step after the other. The failure of a step is kept in its entry and does not
end the session. Iterators share the one scan; an iterator is finished once it gave the end token or
failed, and then leaves the scan alone.

A block closes the input at its end, however it ends. If closing fails, that failure leaves the
block, otherwise the one raised by the block itself, if any.
-/

namespace YaslLexis.Drive

open Machine Report

/-- A scan, the names of its sinks, and for each iterator whether it is finished. -/
structure Session where
  scan : Scan Post
  names : Names := []
  iterators : Array Bool := #[]

/-! ## 1. Opening -/

/-- What is scanned. -/
inductive Input where
  /-- Nothing: only sinks are of interest. -/
  | nothing
  | reader (reader : Reader)
  | path (path : String)

/-- Opens a session. Without a plan diagnostics are logged. -/
def start (tree : Files.Tree) (input : Input) (options : Option Options) (plan : Option Plan) :
    Except Failure Session :=
  let (desk, names, sink) := (plan.getD (.leaf none (.log diagnosticLog))).build {} []
  let scan : Except Failure (Scan Post) :=
    match input with
    | .nothing => openReader (options.getD {}) (.ofText []) ⟨sink, desk⟩
    | .reader reader => openReader (options.getD {}) reader ⟨sink, desk⟩
    | .path path => (openFile tree.openFile path options ⟨sink, desk⟩).mapError Prod.fst
  scan.map fun scan => { scan, names }

namespace Session

/-! ## 2. Sinks -/

/-- The desk. -/
def desk (s : Session) : Desk := s.scan.observer.desk

/-- The session with another desk. -/
def withDesk (s : Session) (desk : Desk) : Session :=
  { s with scan := { s.scan with observer := { s.scan.observer with desk } } }

/-- The sink of a name, or else that of the scan. -/
def sink (s : Session) (name : Option String) : Sink :=
  match name with
  | none => s.scan.observer.sink
  | some name => (s.names.lookup name).getD (.tee [])

/-- Gives the scan another sink. -/
def redirect (s : Session) (plan : Plan) : Session :=
  let (desk, names, sink) := plan.build s.desk s.names
  { s with scan := { s.scan with observer := ⟨sink, desk⟩ }, names }

/-- Closes the text of a stream sink. -/
def closeStream (s : Session) : Sink → Session
  | .leaf index => s.withDesk <| s.desk.change index fun
    | .stream text _ => .stream text false
    | leaf => leaf
  | .tee _ => s

/-- Changes a collector. -/
def changeCollector (s : Session) (index : Nat) (f : Collector → Collector) : Session :=
  s.withDesk <| s.desk.change index fun
    | .collector c => .collector (f c)
    | leaf => leaf

/-- Asks a collector. -/
def ask (s : Session) (sink : Sink) (query : Query) : Session × Except Failure Answer :=
  match sink with
  | .tee _ => (s, .ok .nothing)
  | .leaf index =>
    match s.desk.collector? index with
    | none => (s, .ok .nothing)
    | some c =>
      match query with
      | .all => (s, .ok (.diagnostics c.kept.toList))
      | .hasAny => (s, .ok (.truth c.hasAny))
      | .isFull => (s, .ok (.truth c.isFull))
      | .count => (s, .ok (.number c.count))
      | .report => (s, .ok (.text c.report))
      | .clear => (s.changeCollector index Collector.clear, .ok .nothing)
      | .setLimit limit => (s.changeCollector index ({ · with limit }), .ok .nothing)
      | .fail => (s, match c.failure? with | none => .ok .nothing | some f => .error f)

/-! ## 3. Tokens -/

/-- The next token. -/
def next (s : Session) : Session × Except Failure Token :=
  let (scan, result) := s.scan.next
  ({ s with scan }, result)

/-- The next token of an iterator, unless it is finished. -/
def iteratorNext (s : Session) (index : Nat) : Session × Except Failure Answer :=
  if s.iterators.getD index true then (s, .ok .finished)
  else
    match s.next with
    | (s, .error f) => ({ s with iterators := s.iterators.setIfInBounds index true }, .error f)
    | (s, .ok t) =>
      ({ s with iterators := s.iterators.setIfInBounds index (t.kind = .eof) }, .ok (.token t))

/-- The tokens through the end; a failure loses those taken before it. -/
def drain (s : Session) : Session × Except Failure Answer :=
  let drained := s.scan.drain
  ({ s with scan := drained.scan },
    match drained.failure with
    | some f => .error f
    | none => .ok (.tokens drained.tokens))

/-- Closes the input. -/
def close (s : Session) : Session × Option Failure :=
  let (scan, failure) := Report.close s.scan
  ({ s with scan }, failure)

/-! ## 4. Entries -/

/-- Where the scan stands. -/
def view (s : Session) : View :=
  ⟨s.scan.ahead.place, s.scan.ahead.current, s.scan.ahead.reader.reads, s.scan.ahead.reader.closes⟩

/-- The session with the events told. -/
def hush (s : Session) : Session := s.withDesk { s.desk with events := #[] }

/-- What was left behind since the events were last told. -/
def trail (s : Session) : Trail := ⟨s.desk.events.toList, s.view⟩

/-- The entry of a step without a block. -/
def entry (result : Session × Except Failure Answer) : Session × Entry :=
  (result.1.hush, .plain result.2 result.1.trail)

/-- An answer that says nothing, unless there is a failure. -/
def nothingOr : Option Failure → Except Failure Answer
  | none => .ok .nothing
  | some f => .error f

/-- What leaves a block that raised one failure and whose closing made another. A failure of the
    operating system arises while its own cause is handled. -/
def escape (raised closing : Option Failure) : Option Escape :=
  match closing, raised with
  | some (.closing cause), _ => some ⟨.closing cause, some cause⟩
  | some f, _ => some ⟨f, raised⟩
  | none, some f => some ⟨f, none⟩
  | none, none => none

end Session

open Session in
mutual

/-- Carries out one step. -/
def perform : Step → Session → Session × Entry
  | .next, s =>
    let (s, result) := s.next
    entry (s, result.map .token)
  | .drain, s => entry s.drain
  | .iterate, s =>
    entry ({ s with iterators := s.iterators.push false }, .ok (.number s.iterators.size))
  | .iteratorNext index, s => entry (s.iteratorNext index)
  | .close, s =>
    let (s, failure) := s.close
    entry (s, nothingOr failure)
  | .block steps raise, s =>
    let (s, body) := performAll steps s
    let (s, failure) := s.close
    (s.hush, .block body (escape raise failure) s.trail)
  | .rename file, s => entry ({ s with scan := { s.scan with file } }, .ok .nothing)
  | .idle, s => entry (s, .ok .nothing)
  | .redirect plan, s => entry (s.redirect plan, .ok .nothing)
  | .picture name, s => entry (s, (s.desk.picture (s.sink name)).map .picture)
  | .closeStream name, s => entry (s.closeStream (s.sink name), .ok .nothing)
  | .add name d, s =>
    let (desk, failure) := s.desk.offer (s.sink name) d
    entry (s.withDesk desk, nothingOr failure)
  | .ask name query, s => entry (s.ask (s.sink name) query)

/-- Carries out several steps. -/
def performAll : List Step → Session → Session × List Entry
  | [], s => (s, [])
  | step :: rest, s =>
    let (s, first) := perform step s
    let (s, others) := performAll rest s
    (s, first :: others)

end

/-- Plays a session that was opened: the events of opening, and the entries. -/
def play (s : Session) (steps : List Step) : List Report.Event × List Entry :=
  (s.desk.events.toList, (performAll steps s.hush).2)

end YaslLexis.Drive
