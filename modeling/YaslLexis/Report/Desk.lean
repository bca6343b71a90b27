import YaslLexis.Machine.Run
import YaslLexis.Report.Sink

/-!
# The desk

The leaves of all sinks, and the events so far. A `Post` is a desk with the sink that a scan reports
to; it is what watches a scan.
-/

namespace YaslLexis.Report

/-- The leaves and the events so far. -/
structure Desk where
  leaves : Array Leaf := #[]
  events : Array Event := #[]

namespace Desk

/-- Puts a leaf on the desk. -/
def put (desk : Desk) (leaf : Leaf) : Desk × Nat :=
  ({ desk with leaves := desk.leaves.push leaf }, desk.leaves.size)

/-- Changes a leaf. -/
def change (desk : Desk) (index : Nat) (f : Leaf → Leaf) : Desk :=
  { desk with leaves := desk.leaves.modify index f }

/-- Makes an event visible. -/
def emit (desk : Desk) (event : Event) : Desk := { desk with events := desk.events.push event }

/-- Makes a record. -/
def note (desk : Desk) (logger : String) (message : String) : Desk :=
  desk.emit (.logged ⟨logger, .debug, message⟩)

/-- Gives a diagnostic to a leaf, which refuses it or takes it. -/
def give (d : Diagnostic) (index : Nat) (desk : Desk) : Desk × Option Failure :=
  match desk.leaves[index]? with
  | none => (desk, none)
  | some leaf =>
    match leaf.refusal with
    | some f => (desk, some f)
    | none =>
      match leaf.event? d with
      | none => (desk.change index (Leaf.take d), none)
      | some event => ((desk.change index (Leaf.take d)).emit event, none)

/-- Gives a diagnostic to a sink. -/
def offer (desk : Desk) (sink : Sink) (d : Diagnostic) : Desk × Option Failure :=
  sink.deliver (give d) desk

/-- The collector at an index. -/
def collector? (desk : Desk) (index : Nat) : Option Collector :=
  match desk.leaves[index]? with
  | some (.collector c) => some c
  | _ => none

end Desk

/-- A desk and the sink that is reported to. -/
structure Post where
  sink : Sink
  desk : Desk

instance : Machine.Observer Post where
  offer d post :=
    let answer := post.desk.offer post.sink d
    ({ post with desk := answer.1 }, answer.2)
  heard token post := { post with desk := post.desk.note tokenLog ("Scanned " ++ token.shown) }

instance : Machine.Observer Collector where
  offer d c := (c.add d, none)
  heard _ c := c

/-! ## What a sink holds -/

/-- What a sink holds, for showing. -/
inductive Picture where
  | collector (texts : List String)
  | stream (text : String)
  | errorOutput
  | log (logger : String)
  | failing (texts : List String)
  | tee (parts : List Picture)

/-- What a leaf holds. A closed stream cannot be asked. -/
def Leaf.picture : Leaf → Except Failure Picture
  | .collector c => .ok (.collector (c.kept.toList.map Diagnostic.text))
  | .stream text true => .ok (.stream text)
  | .stream _ false => .error .closedText
  | .errorOutput => .ok .errorOutput
  | .log logger => .ok (.log logger)
  | .failing _ kept => .ok (.failing (kept.toList.map Diagnostic.text))

namespace Desk

mutual

/-- What a sink on the desk holds. -/
def picture (desk : Desk) : Sink → Except Failure Picture
  | .leaf index =>
    match desk.leaves[index]? with
    | none => .ok (.tee [])
    | some leaf => leaf.picture
  | .tee parts => (pictureAll desk parts).map .tee

/-- What several sinks hold. -/
def pictureAll (desk : Desk) : List Sink → Except Failure (List Picture)
  | [] => .ok []
  | s :: rest => do
    let first ← picture desk s
    let others ← pictureAll desk rest
    return first :: others

end

end Desk

end YaslLexis.Report
