import YaslLexis.Proofs.Asking
import YaslLexis.Report.Desk

/-!
# Leaves that refuse nothing

Collectors, open streams, the error output and the log take every diagnostic, and taking one does
not change that. A sink whose leaves are all of this kind never disturbs a scan.

* `Leaf.Patient`, `Desk.Patient` -- such leaves, and a desk with no others;
* `Desk.Patient.deliverTo` -- a delivery to them is taken, and they stay so;
* **`Observed.patient`** -- whatever a scan offers is taken, and so such a sink is a willing one.
-/

namespace YaslLexis.Report

open Machine

/-! ## 1. Leaves -/

/-- The leaf refuses nothing, now or later. -/
def Leaf.Patient : Leaf → Prop
  | .stream _ isOpen => isOpen = true
  | .failing _ _ => False
  | _ => True

/-- No leaf on the desk refuses anything, now or later. -/
def Desk.Patient (desk : Desk) : Prop := ∀ leaf ∈ desk.leaves, leaf.Patient

theorem Leaf.Patient.refusal {leaf : Leaf} (h : leaf.Patient) : leaf.refusal = none := by
  cases leaf with
  | collector | errorOutput | log => rfl
  | stream text isOpen =>
    obtain rfl : isOpen = true := h
    rfl
  | failing => cases h

theorem Leaf.Patient.take {leaf : Leaf} (h : leaf.Patient) (d : Diagnostic) :
    (leaf.take d).Patient := by
  cases leaf with
  | collector | errorOutput | log => exact trivial
  | stream => exact h
  | failing => cases h

/-! ## 2. Desks -/

namespace Desk.Patient

variable {desk : Desk}

theorem change (h : desk.Patient) (d : Diagnostic) (index : Nat) :
    (desk.change index (Leaf.take d)).Patient := by
  intro leaf hmem
  obtain ⟨i, hi⟩ := Array.mem_iff_getElem?.1 hmem
  have hmodify : (desk.leaves.modify index (Leaf.take d))[i]? = some leaf := hi
  rw [Array.getElem?_modify] at hmodify
  split at hmodify
  · obtain ⟨old, hold, rfl⟩ := Option.map_eq_some_iff.1 hmodify
    exact (h old (Array.mem_of_getElem? hold)).take d
  · exact h leaf (Array.mem_of_getElem? hmodify)

theorem give (h : desk.Patient) (d : Diagnostic) (index : Nat) :
    (desk.give d index).2 = none ∧ (desk.give d index).1.Patient := by
  unfold Desk.give
  cases hleaf : desk.leaves[index]? with
  | none => exact ⟨rfl, h⟩
  | some leaf =>
    have hpatient : leaf.Patient := h leaf (Array.mem_of_getElem? hleaf)
    dsimp only
    rw [hpatient.refusal]
    cases leaf.event? d with
    | none => exact ⟨rfl, h.change d index⟩
    | some event => exact ⟨rfl, h.change d index⟩

theorem deliverTo (h : desk.Patient) (d : Diagnostic) (leaves : List Nat) :
    (Sink.deliverTo (Desk.give d) leaves desk).2 = none ∧
      (Sink.deliverTo (Desk.give d) leaves desk).1.Patient := by
  induction leaves generalizing desk with
  | nil => exact ⟨rfl, h⟩
  | cons index leaves ih =>
    obtain ⟨hnone, hpatient⟩ := h.give d index
    unfold Sink.deliverTo
    cases hgive : desk.give d index with
    | mk desk' failure =>
      rw [hgive] at hnone hpatient
      obtain rfl : failure = none := hnone
      exact ih hpatient

end Desk.Patient

end YaslLexis.Report

namespace YaslLexis.Machine

open Report

/-- Whatever is offered to such leaves is taken, and they stay so. -/
theorem Observed.patient {x y : Post} {log : List Offer} (h : Observed x log y)
    (hpatient : x.desk.Patient) : AllTaken log ∧ y.desk.Patient := by
  induction h with
  | rest => exact ⟨by simp [AllTaken], hpatient⟩
  | @offered d x y z refusal log hoffer _ ih =>
    have hdeliver := hpatient.deliverTo d x.sink.leaves
    rw [← Sink.deliver_eq] at hdeliver
    cases hoffer
    obtain ⟨htaken, hlater⟩ := ih hdeliver.2
    refine ⟨?_, hlater⟩
    have hnone : (x.desk.offer x.sink d).2 = none := hdeliver.1
    show AllTaken (⟨d, (x.desk.offer x.sink d).2⟩ :: log)
    rw [hnone]
    exact htaken.cons
  | heard _ ih => exact ih hpatient

theorem willing_of_patient {x : Post} (h : x.desk.Patient) : Willing x :=
  fun _ _ hlog => (hlog.patient h).1

end YaslLexis.Machine
