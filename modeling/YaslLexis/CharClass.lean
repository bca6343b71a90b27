import YaslLexis.Kind
import YaslLexis.Text.Blank
import YaslLexis.Text.Digit
import YaslLexis.Text.Letter

/-!
# Classes of characters

What a character can begin. The classes are tried in a fixed order, the zero before the other
digits; every character has exactly one.

Main statements: what a class says about its characters (`classOf_spec`); letters, digits and blanks
have no character in common (`letter_not_digit`, `letter_not_blank`, `digit_not_blank`), so that the
order matters for the zero alone.
-/

namespace YaslLexis

/-- What a character can begin. -/
inductive CharClass where
  | zero | digit | letter | operator | slash | blank | illegal
deriving DecidableEq, Repr

/-- The class of a character: the first that it fits. -/
def classOf (c : Char) : CharClass :=
  if c = '0' then .zero
  else if Text.isDigit c then .digit
  else if Text.isLetter c then .letter
  else if (Kind.ofOperator? c).isSome then .operator
  else if c = '/' then .slash
  else if Text.isBlank c then .blank
  else .illegal

open Text in
/-- What the class says about a character: it fits the class, and no earlier one. -/
theorem classOf_spec (c : Char) :
    match classOf c with
    | .zero => c = '0'
    | .digit => c ≠ '0' ∧ isDigit c = true
    | .letter => c ≠ '0' ∧ isDigit c = false ∧ isLetter c = true
    | .operator =>
      c ≠ '0' ∧ isDigit c = false ∧ isLetter c = false ∧ (Kind.ofOperator? c).isSome = true
    | .slash => c = '/'
    | .blank =>
      c ≠ '0' ∧ isDigit c = false ∧ isLetter c = false ∧ Kind.ofOperator? c = none ∧ c ≠ '/' ∧
        isBlank c = true
    | .illegal =>
      c ≠ '0' ∧ isDigit c = false ∧ isLetter c = false ∧ Kind.ofOperator? c = none ∧ c ≠ '/' ∧
        isBlank c = false := by
  unfold classOf
  by_cases hzero : c = '0'
  · rw [if_pos hzero]
    exact hzero
  rw [if_neg hzero]
  by_cases hdigit : isDigit c = true
  · rw [if_pos hdigit]
    exact ⟨hzero, hdigit⟩
  rw [if_neg hdigit]
  by_cases hletter : isLetter c = true
  · rw [if_pos hletter]
    exact ⟨hzero, Bool.eq_false_iff.2 hdigit, hletter⟩
  rw [if_neg hletter]
  by_cases hoperator : (Kind.ofOperator? c).isSome = true
  · rw [if_pos hoperator]
    exact ⟨hzero, Bool.eq_false_iff.2 hdigit, Bool.eq_false_iff.2 hletter, hoperator⟩
  rw [if_neg hoperator]
  have hnone : Kind.ofOperator? c = none := Option.not_isSome_iff_eq_none.1 hoperator
  by_cases hslash : c = '/'
  · rw [if_pos hslash]
    exact hslash
  rw [if_neg hslash]
  by_cases hblank : isBlank c = true
  · rw [if_pos hblank]
    exact ⟨hzero, Bool.eq_false_iff.2 hdigit, Bool.eq_false_iff.2 hletter, hnone, hslash, hblank⟩
  · rw [if_neg hblank]
    exact ⟨hzero, Bool.eq_false_iff.2 hdigit, Bool.eq_false_iff.2 hletter, hnone, hslash,
      Bool.eq_false_iff.2 hblank⟩

namespace Text

theorem letter_not_digit {c : Char} (h : isLetter c = true) : isDigit c = false :=
  CodeSet.has_apart (show apart letters.spans digits.spans = true by decide +kernel) h

theorem letter_not_blank {c : Char} (h : isLetter c = true) : isBlank c = false :=
  CodeSet.has_apart (show apart letters.spans blanks.spans = true by decide +kernel) h

theorem digit_not_blank {c : Char} (h : isDigit c = true) : isBlank c = false :=
  CodeSet.has_apart (show apart digits.spans blanks.spans = true by decide +kernel) h

end Text

end YaslLexis
