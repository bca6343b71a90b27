import YaslLexis.Kind

/-!
# The vocabulary, written out

The seven words that the language reserves, its six operator characters, and how the kinds without
text are spelled, all in so many words. What the tokens of a text are is said with these and not
with the tables of the automaton, which agree with them.

* `reserved`, `operator` -- the kind of a reserved word and of an operator character;
* `ofWord?_eq`, `ofOperator?_eq` -- looking up in the tables comes to the same;
* `Kind.sign` -- the spelling of a kind, from which `reserved` and `operator` lead back to it.
-/

namespace YaslLexis

namespace Vocabulary

/-- The kind of a reserved word. -/
def reserved : String → Option Kind
  | "program" => some .program
  | "val" => some .val
  | "begin" => some .begin
  | "print" => some .print
  | "end" => some .finish
  | "div" => some .div
  | "mod" => some .mod
  | _ => none

/-- The kind of an operator character. -/
def operator : Char → Option Kind
  | '+' => some .plus
  | '-' => some .minus
  | '*' => some .star
  | '=' => some .assign
  | ';' => some .semicolon
  | '.' => some .period
  | _ => none

end Vocabulary

open Vocabulary

namespace Kind

/-- The table of words holds the reserved words and no others. -/
theorem ofWord?_eq (word : String) : ofWord? word = reserved word := by
  unfold reserved
  split
  case h_8 => simp_all [ofWord?, keywords, List.lookup_eq_none_iff]
  all_goals rfl

/-- The table of operators holds the operator characters and no others. -/
theorem ofOperator?_eq (c : Char) : ofOperator? c = operator c := by
  unfold operator
  split
  case h_7 => simp_all [ofOperator?, operators, List.lookup_eq_none_iff]
  all_goals rfl

/-- How a kind without text is spelled, the end and the kinds with text not at all. -/
def sign : Kind → String
  | program => "program"
  | val => "val"
  | begin => "begin"
  | print => "print"
  | finish => "end"
  | div => "div"
  | mod => "mod"
  | plus => "+"
  | minus => "-"
  | star => "*"
  | assign => "="
  | semicolon => ";"
  | period => "."
  | number | identifier | eof => ""

theorem sign_of_reserved {word : String} {kind : Kind} (h : reserved word = some kind) :
    kind.sign = word := by
  unfold reserved at h
  split at h <;> cases h <;> rfl

theorem sign_of_operator {c : Char} {kind : Kind} (h : operator c = some kind) :
    kind.sign.toList = [c] := by
  unfold operator at h
  split at h <;> cases h <;> rfl

end Kind

end YaslLexis
