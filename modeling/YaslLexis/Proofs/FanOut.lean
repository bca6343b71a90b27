import Mathlib.Logic.Function.Iterate
import YaslLexis.Report.Desk

/-!
# Tees over many leaves

What reaches the leaves of a sink, however its tees are nested and however often a leaf occurs in
them: of one diagnostic, which may be refused on the way, and of many that are not.

* `Sink.TakenBy`, `deliverTo_cases` -- leaves that take what they are given one after the other, and
  where a delivery stops;
* `Desk.give_leaves`, `Desk.offer_leaves` -- a delivery that is not refused changes a leaf once for
  each time that it occurs in the sink, and no other leaf;
* `Desk.offerAll`, `Desk.offerAll_leaves` -- many diagnostics, one after the other;
* `written`, `Collector.report_eq` -- what a stream holds of diagnostics, and a collector reports;
* **`fan_out`** -- where each diagnostic goes, and what collectors and streams have in common.
-/

namespace YaslLexis.Report

/-! ## 1. One delivery -/

namespace Sink

variable {δ : Type} {give : Nat → δ → δ × Option Failure}

/-- The leaves take what they are given, one after the other. -/
inductive TakenBy (give : Nat → δ → δ × Option Failure) : List Nat → δ → δ → Prop where
  | none (desk : δ) : TakenBy give [] desk desk
  | next {index : Nat} {rest : List Nat} {desk mid desk' : δ} :
      give index desk = (mid, .none) → TakenBy give rest mid desk' →
      TakenBy give (index :: rest) desk desk'

/-- A delivery ends past the last leaf, or with the first that refuses. -/
theorem deliverTo_cases (give : Nat → δ → δ × Option Failure) (leaves : List Nat) (desk : δ) :
    (∃ desk', TakenBy give leaves desk desk' ∧ deliverTo give leaves desk = (desk', none)) ∨
      ∃ before index later mid desk' f, leaves = before ++ index :: later ∧
        TakenBy give before desk mid ∧ give index mid = (desk', some f) ∧
        deliverTo give leaves desk = (desk', some f) := by
  induction leaves generalizing desk with
  | nil => exact .inl ⟨desk, .none desk, rfl⟩
  | cons index rest ih =>
    unfold deliverTo
    cases hgive : give index desk with
    | mk mid failure =>
      cases failure with
      | some f => exact .inr ⟨[], index, rest, desk, mid, f, rfl, .none desk, hgive, rfl⟩
      | none =>
        rcases ih mid with
          ⟨desk', htaken, hend⟩ | ⟨before, i, later, m, desk', f, rfl, htaken, hstop⟩
        · exact .inl ⟨desk', .next hgive htaken, hend⟩
        · exact .inr ⟨index :: before, i, later, m, desk', f, rfl, .next hgive htaken, hstop⟩

end Sink

/-! ## 2. What is left with each leaf -/

/-- The leaf after it took diagnostics one after the other. -/
def Leaf.takeAll (ds : List Diagnostic) (leaf : Leaf) : Leaf :=
  ds.foldl (fun leaf d => leaf.take d) leaf

namespace Desk

variable {d : Diagnostic} {ds : List Diagnostic} {s : Sink} {desk desk' : Desk}

/-- A leaf that does not refuse takes the diagnostic, and no other leaf changes. -/
theorem give_leaves {index : Nat} (h : desk.give d index = (desk', none)) (j : Nat) :
    desk'.leaves[j]? =
      if index = j then desk.leaves[j]?.map (Leaf.take d) else desk.leaves[j]? := by
  unfold give at h
  cases hleaf : desk.leaves[index]? with
  | none =>
    rw [hleaf] at h
    cases h
    split
    · rename_i heq
      rw [← heq, hleaf]
      rfl
    · rfl
  | some leaf =>
    rw [hleaf] at h
    dsimp only at h
    cases hrefusal : leaf.refusal with
    | some f =>
      rw [hrefusal] at h
      cases h
    | none =>
      rw [hrefusal] at h
      cases hevent : leaf.event? d with
      | none | some event =>
        rw [hevent] at h
        cases h
        exact Array.getElem?_modify

/-- What was taken changed a leaf as often as it stands among those that took it. -/
theorem leaves_of_takenBy {leaves : List Nat} (h : Sink.TakenBy (give d) leaves desk desk')
    (j : Nat) : desk'.leaves[j]? = desk.leaves[j]?.map (Leaf.take d)^[leaves.count j] := by
  induction h with
  | none desk => simp
  | @next index rest desk mid desk' hgive _ ih =>
    rw [ih, give_leaves hgive, List.count_cons]
    by_cases hj : index = j
    · -- The first occurrence takes before the others do.
      subst hj
      rw [if_pos rfl, beq_self_eq_true, if_pos rfl, Option.map_map]
      rfl
    · rw [if_neg hj, if_neg (by simpa using hj)]
      rfl

/-- **A diagnostic that is not refused** changes each leaf once for each time that it occurs. -/
theorem offer_leaves (h : desk.offer s d = (desk', none)) (j : Nat) :
    desk'.leaves[j]? = desk.leaves[j]?.map (Leaf.take d)^[s.leaves.count j] := by
  unfold offer at h
  rw [Sink.deliver_eq] at h
  rcases Sink.deliverTo_cases (give d) s.leaves desk with
    ⟨last, htaken, hend⟩ | ⟨before, i, later, m, last, f, -, -, -, hend⟩
  · rw [hend] at h
    cases h
    exact leaves_of_takenBy htaken j
  · rw [hend] at h
    cases h

/-- Gives diagnostics to a sink one after the other, up to the first that is refused. -/
def offerAll (desk : Desk) (s : Sink) : List Diagnostic → Desk × Option Failure
  | [] => (desk, none)
  | d :: ds =>
    match desk.offer s d with
    | (desk, some f) => (desk, some f)
    | (desk, none) => desk.offerAll s ds

theorem offerAll_cons_eq_none (h : desk.offerAll s (d :: ds) = (desk', none)) :
    ∃ mid, desk.offer s d = (mid, none) ∧ mid.offerAll s ds = (desk', none) := by
  unfold offerAll at h
  split at h
  · cases h
  · rename_i mid hoffer
    exact ⟨mid, hoffer, h⟩

/-- A leaf that occurs once takes each of the diagnostics once, in their order. -/
theorem offerAll_leaves {j : Nat} (hj : s.leaves.count j = 1)
    (h : desk.offerAll s ds = (desk', none)) :
    desk'.leaves[j]? = desk.leaves[j]?.map (Leaf.takeAll ds) := by
  induction ds generalizing desk with
  | nil =>
    cases h
    exact Option.map_id'.symm
  | cons d ds ih =>
    obtain ⟨mid, hoffer, hrest⟩ := offerAll_cons_eq_none h
    rw [ih hrest, offer_leaves hoffer, hj, Option.map_map]
    rfl

end Desk

/-! ## 3. Collectors and streams -/

/-- Diagnostics as a stream sink writes them. -/
def written (ds : List Diagnostic) : String := String.join (ds.map fun d => d.text ++ "\n")

@[simp] theorem written_nil : written [] = "" := rfl

@[simp] theorem written_cons (d : Diagnostic) (ds : List Diagnostic) :
    written (d :: ds) = d.text ++ "\n" ++ written ds := String.join_cons

theorem Leaf.takeAll_stream (ds : List Diagnostic) (text : String) (isOpen : Bool) :
    (stream text isOpen).takeAll ds = stream (text ++ written ds) isOpen := by
  induction ds generalizing text with
  | nil => exact congrArg (stream · isOpen) String.append_empty.symm
  | cons d ds ih =>
    show (stream (text ++ d.text ++ "\n") isOpen).takeAll ds = _
    rw [ih, written_cons]
    simp only [String.append_assoc]

theorem Leaf.takeAll_collector (ds : List Diagnostic) (c : Collector) :
    ∃ c', (collector c).takeAll ds = collector c' ∧ c'.kept.toList = c.kept.toList ++ ds := by
  induction ds generalizing c with
  | nil => exact ⟨c, rfl, (List.append_nil _).symm⟩
  | cons d ds ih =>
    obtain ⟨c', hc', hkept⟩ := ih (c.add d)
    refine ⟨c', hc', ?_⟩
    rw [hkept, Collector.kept_add, List.append_assoc]
    rfl

theorem Collector.summary_eq (n : Nat) :
    summary n = if n = 1 then "1 error" else toString n ++ " errors" := by
  unfold summary
  split
  · rename_i hone
    subst hone
    rfl
  · rfl

/-- Lines with a last one behind them are the lines as written and the last one. -/
theorem intercalate_written (ds : List Diagnostic) (last : String) :
    "\n".intercalate (ds.map Diagnostic.text ++ [last]) = written ds ++ last := by
  induction ds with
  | nil => simp
  | cons d ds ih =>
    rw [List.map_cons, List.cons_append, String.intercalate_cons_of_ne_nil (by simp), ih,
      written_cons]
    simp only [String.append_assoc]

/-- A collector reports what a stream would hold of its diagnostics, and then the summary. -/
theorem Collector.report_eq (c : Collector) :
    c.report = written c.kept.toList ++ summary c.kept.toList.length := by
  unfold report
  rw [intercalate_written, Array.length_toList]
  rfl

/-! ## 4. Where diagnostics go -/

/-- **Nested tees.** Whatever the leaves do, a sink gives a diagnostic to its leaves depth first and
    from left to right, once for each time that they occur: either all of them take it, or it goes
    no further than to the first that refuses, and the failure that comes out is the one of that
    leaf. And over diagnostics none of which is refused, a collector that occurs once in the sink
    keeps just these, a stream that occurs once has them written to it, and a collector that began
    empty reports what is written to the streams, with the summary behind it. -/
theorem fan_out (s : Sink) :
    (∀ {δ : Type} (give : Nat → δ → δ × Option Failure) (desk : δ),
      (∃ desk', Sink.TakenBy give s.leaves desk desk' ∧ s.deliver give desk = (desk', none)) ∨
        ∃ before index later mid desk' f, s.leaves = before ++ index :: later ∧
          Sink.TakenBy give before desk mid ∧ give index mid = (desk', some f) ∧
          s.deliver give desk = (desk', some f)) ∧
      ∀ (ds : List Diagnostic) (desk desk' : Desk), desk.offerAll s ds = (desk', none) →
        (∀ (i : Nat) (c : Collector), desk.leaves[i]? = some (.collector c) →
          s.leaves.count i = 1 → ∃ c', desk'.leaves[i]? = some (.collector c') ∧
            c'.kept.toList = c.kept.toList ++ ds ∧
            (c.kept.toList = [] → c'.report = written ds ++
              if ds.length = 1 then "1 error" else toString ds.length ++ " errors")) ∧
        ∀ (i : Nat) (text : String) (isOpen : Bool),
          desk.leaves[i]? = some (.stream text isOpen) → s.leaves.count i = 1 →
            desk'.leaves[i]? = some (.stream (text ++ written ds) isOpen) := by
  refine ⟨fun give desk => ?_, fun ds desk desk' h => ⟨fun i c hleaf honce => ?_,
    fun i text isOpen hleaf honce => ?_⟩⟩
  · rw [Sink.deliver_eq]
    exact Sink.deliverTo_cases give s.leaves desk
  · obtain ⟨c', hc', hkept⟩ := Leaf.takeAll_collector ds c
    refine ⟨c', ?_, hkept, fun hempty => ?_⟩
    · rw [Desk.offerAll_leaves honce h, hleaf, Option.map_some, hc']
    · rw [c'.report_eq, hkept, hempty, List.nil_append, Collector.summary_eq]
  · rw [Desk.offerAll_leaves honce h, hleaf, Option.map_some, Leaf.takeAll_stream]

/-- Two diagnostics, and a third leaf that takes each of them twice. -/
theorem fan_out_nested :
    ∃ desk' c',
      (Desk.mk #[.collector {}, .stream "" true, .failing 4 #[]] #[]).offerAll
        (.tee [.leaf 0, .tee [.leaf 2, .leaf 1], .leaf 2])
        [⟨.unclosedComment, none⟩, ⟨.illegalCharacter "#", none⟩] = (desk', none) ∧
      desk'.leaves[0]? = some (.collector c') ∧
      c'.report = "Unclosed comment at end of file\nIllegal character: #\n" ++ "2 errors" ∧
      desk'.leaves[1]? =
        some (.stream "Unclosed comment at end of file\nIllegal character: #\n" true) := by
  obtain ⟨hcollectors, hstreams⟩ :=
    (fan_out (.tee [.leaf 0, .tee [.leaf 2, .leaf 1], .leaf 2])).2
      [⟨.unclosedComment, none⟩, ⟨.illegalCharacter "#", none⟩]
      (Desk.mk #[.collector {}, .stream "" true, .failing 4 #[]] #[]) _ rfl
  obtain ⟨c', hc', -, hreport⟩ := hcollectors 0 {} rfl (by decide)
  exact ⟨_, c', rfl, hc', hreport rfl, hstreams 1 "" true rfl (by decide)⟩

end YaslLexis.Report
