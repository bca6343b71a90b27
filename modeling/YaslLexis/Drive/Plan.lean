import YaslLexis.Report.Desk

/-!
# Plans of sinks

A plan says which sinks to make and how to name them. Carrying it out puts the leaves on the desk;
a plan may also name a sink that was made before, which is then that very sink.
-/

namespace YaslLexis.Drive

open Report

/-- Sinks to be made. -/
inductive Plan where
  /-- A leaf, under a name if it is to be found again. -/
  | leaf (name : Option String) (leaf : Leaf)
  | tee (name : Option String) (parts : List Plan)
  /-- The sink made earlier under the name. -/
  | same (name : String)

/-- The sinks that have names, the latest first. -/
abbrev Names := List (String × Sink)

/-- Names a sink, if it is to have a name. -/
def Names.add (names : Names) (name : Option String) (sink : Sink) : Names :=
  match name with
  | none => names
  | some name => (name, sink) :: names

namespace Plan

mutual

/-- Makes the sinks of a plan. -/
def build : Plan → Desk → Names → Desk × Names × Sink
  | leaf name made, desk, names =>
    let (desk, index) := desk.put made
    (desk, names.add name (.leaf index), .leaf index)
  | tee name parts, desk, names =>
    let (desk, names, sinks) := buildAll parts desk names
    (desk, names.add name (.tee sinks), .tee sinks)
  | same name, desk, names => (desk, names, (names.lookup name).getD (.tee []))

/-- Makes the sinks of several plans. -/
def buildAll : List Plan → Desk → Names → Desk × Names × List Sink
  | [], desk, names => (desk, names, [])
  | plan :: rest, desk, names =>
    let (desk, names, sink) := build plan desk names
    let (desk, names, sinks) := buildAll rest desk names
    (desk, names, sink :: sinks)

end

end Plan

end YaslLexis.Drive
