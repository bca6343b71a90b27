/-!
# Character classes as ascending spans of code points

A character class, `CodeSet`, is a list of `Span`s that goes upward. Membership (`has`) walks the
list and stops at the first span that begins above the code point, which is why the order matters.

Main statements: membership is lying in one of the spans (`CodeSet.has_iff`), and two classes whose
spans do not meet share no code point (`CodeSet.has_apart`).
-/

namespace YaslLexis.Text

/-- A run of code points, both ends included. -/
structure Span where
  first : Nat
  last : Nat
deriving DecidableEq, Repr

namespace Span

/-- The code point lies in the span. -/
def Holds (s : Span) (n : Nat) : Prop := s.first ≤ n ∧ n ≤ s.last

instance (s : Span) (n : Nat) : Decidable (s.Holds n) :=
  inferInstanceAs (Decidable (_ ∧ _))

end Span

/-- The code point lies in one of the spans: the first that begins above it ends the search. -/
def covers : List Span → Nat → Bool
  | [], _ => false
  | s :: rest, n => if n < s.first then false else n ≤ s.last || covers rest n

/-- The spans go upward from `low` on, none of them empty. -/
def ascendsFrom (low : Nat) : List Span → Bool
  | [] => true
  | s :: rest => low ≤ s.first && s.first ≤ s.last && ascendsFrom (s.last + 1) rest

theorem exists_holds_of_covers {spans : List Span} {n : Nat} (h : covers spans n = true) :
    ∃ s ∈ spans, s.Holds n := by
  induction spans with
  | nil => simp [covers] at h
  | cons s rest ih =>
    unfold covers at h
    split at h
    · simp at h
    · rename_i low
      simp only [Bool.or_eq_true, decide_eq_true_eq] at h
      rcases h with h | h
      · exact ⟨s, by simp, Nat.le_of_not_lt low, h⟩
      · obtain ⟨t, mem, holds⟩ := ih h
        exact ⟨t, by simp [mem], holds⟩

theorem ascendsFrom_cons {s : Span} {rest : List Span} {low : Nat} :
    ascendsFrom low (s :: rest) = true ↔
      low ≤ s.first ∧ s.first ≤ s.last ∧ ascendsFrom (s.last + 1) rest = true := by
  simp only [ascendsFrom, Bool.and_eq_true, decide_eq_true_eq, and_assoc]

theorem le_of_ascendsFrom {spans : List Span} {low : Nat} (up : ascendsFrom low spans = true)
    {s : Span} (mem : s ∈ spans) : low ≤ s.first ∧ s.first ≤ s.last := by
  induction spans generalizing low with
  | nil => simp at mem
  | cons t rest ih =>
    obtain ⟨above, filled, later⟩ := ascendsFrom_cons.1 up
    rcases List.mem_cons.1 mem with rfl | mem
    · exact ⟨above, filled⟩
    · have := ih later mem
      omega

/-- The first span of an ascending list begins first. -/
theorem first_le_of_ascendsFrom {s t : Span} {rest : List Span} {low : Nat}
    (up : ascendsFrom low (s :: rest) = true) (mem : t ∈ s :: rest) : s.first ≤ t.first := by
  obtain ⟨-, filled, later⟩ := ascendsFrom_cons.1 up
  rcases List.mem_cons.1 mem with rfl | mem
  · exact Nat.le_refl _
  · have := le_of_ascendsFrom later mem
    omega

/-- **On an ascending list, membership is lying in one of the spans.** -/
theorem covers_eq_true_iff {spans : List Span} {low : Nat} (up : ascendsFrom low spans = true)
    (n : Nat) : covers spans n = true ↔ ∃ s ∈ spans, s.Holds n := by
  refine ⟨exists_holds_of_covers, ?_⟩
  rintro ⟨s, mem, above, below⟩
  induction spans generalizing low with
  | nil => simp at mem
  | cons t rest ih =>
    have begins := first_le_of_ascendsFrom up mem
    unfold covers
    rw [if_neg (by omega)]
    rcases List.mem_cons.1 mem with rfl | mem
    · simp [below]
    · rw [ih (ascendsFrom_cons.1 up).2.2 mem, Bool.or_true]

/-- No span of the first list meets one of the second, if both go upward: what ends before a span of
    the first begins is out of the way of all later ones. -/
def apart : List Span → List Span → Bool
  | [], _ => true
  | s :: rest, spans =>
    let ahead := spans.dropWhile fun t => t.last < s.first
    ahead.head?.all (fun t => s.last < t.first) && apart rest ahead

theorem ascendsFrom_dropWhile {spans : List Span} {low : Nat} (up : ascendsFrom low spans = true)
    (p : Span → Bool) : ∃ low', ascendsFrom low' (spans.dropWhile p) = true := by
  induction spans generalizing low with
  | nil => exact ⟨low, rfl⟩
  | cons t rest ih =>
    rw [List.dropWhile_cons]
    split
    · exact ih (ascendsFrom_cons.1 up).2.2
    · exact ⟨low, up⟩

/-- On ascending lists that are apart, no two spans have a code point in common. -/
theorem not_holds_of_apart {a b : List Span} {low low' : Nat} (upa : ascendsFrom low a = true)
    (upb : ascendsFrom low' b = true) (h : apart a b = true) {s t : Span} (mems : s ∈ a)
    (memt : t ∈ b) {n : Nat} (hs : s.Holds n) : ¬ t.Holds n := by
  intro ht
  unfold Span.Holds at hs ht
  induction a generalizing b low low' with
  | nil => simp at mems
  | cons first rest ih =>
    simp only [apart, Bool.and_eq_true] at h
    obtain ⟨clear, later⟩ := h
    obtain ⟨low'', upb'⟩ := ascendsFrom_dropWhile upb fun t => t.last < first.first
    have begins := first_le_of_ascendsFrom upa mems
    rw [← List.takeWhile_append_dropWhile (p := fun t => t.last < first.first) (l := b)] at memt
    rcases List.mem_append.1 memt with before | ahead
    · -- It ends before the first span of `a` begins, and so before `s` does.
      have ends := List.all_eq_true.1 List.all_takeWhile _ before
      simp only [decide_eq_true_eq] at ends
      omega
    rcases List.mem_cons.1 mems with rfl | mems
    · -- The first one that does not begins behind `s`, and so do all behind it.
      obtain ⟨u, us, split⟩ := List.exists_cons_of_ne_nil (List.ne_nil_of_mem ahead)
      rw [split] at clear upb' ahead
      simp only [List.head?_cons, Option.all_some, decide_eq_true_eq] at clear
      have := first_le_of_ascendsFrom upb' ahead
      omega
    · exact ih (ascendsFrom_cons.1 upa).2.2 upb' later mems ahead

/-- A class of characters: spans of code points that go upward. -/
structure CodeSet where
  spans : List Span
  ascends : ascendsFrom 0 spans = true

namespace CodeSet

/-- Membership of a code point. -/
def has (k : CodeSet) (n : Nat) : Bool := covers k.spans n

/-- Since the spans go upward, membership is lying in one of them. -/
theorem has_iff {k : CodeSet} {n : Nat} : k.has n = true ↔ ∃ s ∈ k.spans, s.Holds n :=
  covers_eq_true_iff k.ascends n

/-- Classes whose spans do not meet have no code point in common. -/
theorem has_apart {a b : CodeSet} (h : apart a.spans b.spans = true) {n : Nat}
    (left : a.has n = true) : b.has n = false := by
  refine Bool.eq_false_iff.2 fun right => ?_
  obtain ⟨s, mems, hs⟩ := has_iff.1 left
  obtain ⟨t, memt, ht⟩ := has_iff.1 right
  exact not_holds_of_apart a.ascends b.ascends h mems memt hs ht

end CodeSet

end YaslLexis.Text
