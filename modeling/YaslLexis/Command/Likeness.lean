/-!
# Likeness of words

How much two words have in common: the longest block that stands in both, and then the same again
to its left and to its right. Words are alike if twice the characters so matched are at least three
fifths of all their characters. It serves to suggest an option for one that does not exist.
-/

namespace YaslLexis.Command

/-- The length of the common beginning. -/
def commonStart : List Char → List Char → Nat
  | a :: as, b :: bs => if a = b then commonStart as bs + 1 else 0
  | _, _ => 0

/-- A block that stands in two words: where it begins in each, and how long it is. -/
structure Block where
  left : Nat
  right : Nat
  length : Nat

/-- The longest common block; of several the first in `a`, and of those the first in `b`. -/
def longestBlock (a b : List Char) : Block :=
  let blocks := (List.range a.length).flatMap fun i => (List.range b.length).map fun j =>
    (⟨i, j, commonStart (a.drop i) (b.drop j)⟩ : Block)
  blocks.foldl (fun best block => if best.length < block.length then block else best) ⟨0, 0, 0⟩

/-- The characters matched by the longest block and by those on either side of it. -/
def matched (a b : List Char) : Nat :=
  match longestBlock a b with
  | ⟨left, right, length⟩ =>
    if _inside : 0 < length ∧ left + length ≤ a.length then
      length + matched (a.take left) (b.take right) +
        matched (a.drop (left + length)) (b.drop (right + length))
    else 0
termination_by a.length
decreasing_by
  · simp only [List.length_take]
    omega
  · simp only [List.length_drop]
    omega

/-- How alike a known word is to another, as a fraction. -/
structure Likeness where
  word : String
  matched : Nat
  total : Nat

namespace Likeness

/-- The likeness of a known word to another. -/
def of (known word : String) : Likeness :=
  ⟨known, Command.matched known.toList word.toList, known.length + word.length⟩

/-- The words are alike. -/
def isEnough (l : Likeness) : Bool := 3 * l.total ≤ 10 * l.matched

/-- The one is more alike, or as alike and later in the alphabet. -/
def above (a b : Likeness) : Bool :=
  let x := a.matched * b.total
  let y := b.matched * a.total
  y < x || (x = y && b.word ≤ a.word)

end Likeness

/-- The known words most like another, three at most, in alphabetical order. -/
def suggestions (known : List String) (word : String) : List String :=
  let alike := (known.map fun k => Likeness.of k word).filter Likeness.isEnough
  (((alike.mergeSort Likeness.above).take 3).map Likeness.word).mergeSort fun a b => a ≤ b

end YaslLexis.Command
