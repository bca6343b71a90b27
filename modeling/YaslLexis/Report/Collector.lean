import YaslLexis.Failure

/-!
# Collectors

A collector keeps diagnostics in the order in which they come. Its limit is only a mark to ask
about; it keeps what comes after, too.
-/

namespace YaslLexis.Report

/-- Kept diagnostics, and the number of them from which on a scan should stop. -/
structure Collector where
  kept : Array Diagnostic := #[]
  limit : Int := 100

namespace Collector

/-- Keeps a diagnostic. -/
def add (c : Collector) (d : Diagnostic) : Collector := { c with kept := c.kept.push d }

/-- The number of diagnostics kept. -/
def count (c : Collector) : Nat := c.kept.size

/-- There are diagnostics. -/
def hasAny (c : Collector) : Bool := 0 < c.count

/-- There are as many diagnostics as the limit, or more. -/
def isFull (c : Collector) : Bool := c.limit ≤ c.count

/-- `n errors`, in the singular for one. -/
def summary (n : Nat) : String := toString n ++ if n = 1 then " error" else " errors"

/-- Every diagnostic and then the summary, each on lines of its own. -/
def report (c : Collector) : String :=
  "\n".intercalate (c.kept.toList.map Diagnostic.text ++ [summary c.count])

/-- Forgets the diagnostics. -/
def clear (c : Collector) : Collector := { c with kept := #[] }

/-- The failure of a scan that had to be free of diagnostics, if it was not. -/
def failure? (c : Collector) : Option Failure :=
  if c.hasAny then some (.scanFailed c.report) else none

@[simp] theorem kept_add (c : Collector) (d : Diagnostic) :
    (c.add d).kept.toList = c.kept.toList ++ [d] := by
  simp [add]

@[simp] theorem limit_add (c : Collector) (d : Diagnostic) : (c.add d).limit = c.limit := rfl

@[simp] theorem count_add (c : Collector) (d : Diagnostic) : (c.add d).count = c.count + 1 := by
  simp [add, count]

end Collector

end YaslLexis.Report
