import YaslLexis.Report.Collector
import YaslLexis.Report.Event

/-!
# Sinks

A sink takes diagnostics. Its leaves stand on a desk and are named by their index, so that one leaf
may occur in several sinks, or several times in one; a tee passes on to its parts from left to right
and stops at the first that refuses.

Main statement: a sink delivers to its leaves, depth first and from left to right, each occurrence
once, up to the first that refuses (`deliver_eq`).
-/

namespace YaslLexis.Report

/-! ## 1. Leaves -/

/-- A sink without parts, with what it holds. -/
inductive Leaf where
  /-- Keeps the diagnostics. -/
  | collector (c : Collector)
  /-- Writes them to a text of its own, which may be closed. -/
  | stream (text : String) (isOpen : Bool)
  /-- Writes them to the error output. -/
  | errorOutput
  /-- Logs them as errors. -/
  | log (logger : String)
  /-- Keeps a number of them and refuses the rest. -/
  | failing (room : Nat) (kept : Array Diagnostic)

namespace Leaf

/-- Why the leaf takes no diagnostic, if it takes none. -/
def refusal : Leaf → Option Failure
  | stream _ false => some .closedText
  | failing room kept => if room ≤ kept.size then some .sinkFull else none
  | _ => none

/-- The leaf after it took a diagnostic. -/
def take (d : Diagnostic) : Leaf → Leaf
  | collector c => collector (c.add d)
  | stream text isOpen => stream (text ++ d.text ++ "\n") isOpen
  | failing room kept => failing room (kept.push d)
  | leaf => leaf

/-- What becomes visible when the leaf takes a diagnostic. -/
def event? (d : Diagnostic) : Leaf → Option Event
  | errorOutput => some (.written (d.text ++ "\n"))
  | log logger => some (.logged ⟨logger, .error, d.text⟩)
  | _ => none

end Leaf

/-! ## 2. Sinks -/

/-- A leaf, named by its index, or a tee. -/
inductive Sink where
  | leaf (index : Nat)
  | tee (parts : List Sink)

namespace Sink

mutual

/-- The leaves in the order of delivery, one entry for each occurrence. -/
def leaves : Sink → List Nat
  | leaf index => [index]
  | tee parts => leavesAll parts

/-- The leaves of several sinks. -/
def leavesAll : List Sink → List Nat
  | [] => []
  | s :: rest => leaves s ++ leavesAll rest

end

variable {δ : Type}

mutual

/-- Delivers through a sink; `give` is delivery to a leaf. -/
def deliver (give : Nat → δ → δ × Option Failure) : Sink → δ → δ × Option Failure
  | leaf index, desk => give index desk
  | tee parts, desk => deliverAll give parts desk

/-- Delivers through several sinks, up to the first that refuses. -/
def deliverAll (give : Nat → δ → δ × Option Failure) : List Sink → δ → δ × Option Failure
  | [], desk => (desk, none)
  | s :: rest, desk =>
    match deliver give s desk with
    | (desk, some f) => (desk, some f)
    | (desk, none) => deliverAll give rest desk

end

/-- Delivers to leaves one after the other, up to the first that refuses. -/
def deliverTo (give : Nat → δ → δ × Option Failure) : List Nat → δ → δ × Option Failure
  | [], desk => (desk, none)
  | index :: rest, desk =>
    match give index desk with
    | (desk, some f) => (desk, some f)
    | (desk, none) => deliverTo give rest desk

theorem deliverTo_append (give : Nat → δ → δ × Option Failure) (a b : List Nat) (desk : δ) :
    deliverTo give (a ++ b) desk =
      match deliverTo give a desk with
      | (desk, some f) => (desk, some f)
      | (desk, none) => deliverTo give b desk := by
  induction a generalizing desk with
  | nil => rfl
  | cons index a ih =>
    simp only [List.cons_append, deliverTo]
    split
    · rfl
    · exact ih _

theorem deliverTo_single (give : Nat → δ → δ × Option Failure) (index : Nat) (desk : δ) :
    deliverTo give [index] desk = give index desk := by
  unfold deliverTo
  split
  · rename_i h
    exact h.symm
  · rename_i h
    exact h.symm

mutual

/-- **A sink delivers to its leaves in order.** -/
theorem deliver_eq (give : Nat → δ → δ × Option Failure) (s : Sink) (desk : δ) :
    s.deliver give desk = deliverTo give s.leaves desk := by
  cases s with
  | leaf index => rw [deliver, leaves, deliverTo_single]
  | tee parts => rw [deliver, leaves, deliverAll_eq give parts desk]

theorem deliverAll_eq (give : Nat → δ → δ × Option Failure) (parts : List Sink) (desk : δ) :
    deliverAll give parts desk = deliverTo give (leavesAll parts) desk := by
  cases parts with
  | nil => rfl
  | cons s rest =>
    rw [deliverAll, leavesAll, deliverTo_append, deliver_eq give s desk]
    split
    · rfl
    · exact deliverAll_eq give rest _

end

end Sink

end YaslLexis.Report
