/-!
# Kinds of token

The vocabulary of the language: the sixteen kinds of token, the reserved words and the operator
characters. A number and an identifier keep their text; every other kind is its own spelling.

Main statements: a kind's spelling leads back to it (`ofWord?_eq_some_iff`,
`ofOperator?_eq_some_iff`).
-/

namespace YaslLexis

/-- The kinds of token, in the order in which they are listed. -/
inductive Kind where
  | number | identifier
  | semicolon | period
  | plus | minus | star | assign
  | program | val | begin | print | finish | div | mod
  | eof
deriving DecidableEq, Repr

namespace Kind

/-- All kinds. -/
def all : List Kind :=
  [number, identifier, semicolon, period, plus, minus, star, assign,
   program, val, begin, print, finish, div, mod, eof]

/-- The name of a kind in listings. -/
def name : Kind → String
  | number => "NUMBER"
  | identifier => "IDENTIFIER"
  | semicolon => "SEMICOLON"
  | period => "PERIOD"
  | plus => "PLUS"
  | minus => "MINUS"
  | star => "STAR"
  | assign => "ASSIGN"
  | program => "PROGRAM"
  | val => "VAL"
  | begin => "BEGIN"
  | print => "PRINT"
  | finish => "END"
  | div => "DIV"
  | mod => "MOD"
  | eof => "EOF"

/-- The kind of a name in listings. -/
def ofName? (name : String) : Option Kind := all.find? fun k => k.name = name

/-- The reserved words. -/
def keywords : List (String × Kind) :=
  [("program", program), ("val", val), ("begin", begin), ("print", print), ("end", finish),
   ("div", div), ("mod", mod)]

/-- The operator and punctuation characters. -/
def operators : List (Char × Kind) :=
  [('+', plus), ('-', minus), ('*', star), ('=', assign), (';', semicolon), ('.', period)]

/-- The kind of a reserved word. -/
def ofWord? (word : String) : Option Kind := keywords.lookup word

/-- The kind of an operator character. -/
def ofOperator? (c : Char) : Option Kind := operators.lookup c

/-- The kind of an operator, written as a text. -/
def ofSign? (sign : String) : Option Kind :=
  match sign.toList with
  | [c] => ofOperator? c
  | _ => none

/-- The kind is that of a reserved word. -/
def isKeyword (k : Kind) : Bool := keywords.any fun entry => entry.2 = k

/-- Tokens of the kind keep their text. -/
def carriesText (k : Kind) : Bool := k = number || k = identifier

theorem mem_all (k : Kind) : k ∈ all := by cases k <;> decide

/-- Names tell kinds apart. -/
theorem name_injective {a b : Kind} (h : a.name = b.name) : a = b := by
  have tell : ∀ a ∈ all, ∀ b ∈ all, a.name = b.name → a = b := by decide
  exact tell a (mem_all a) b (mem_all b) h

theorem ofOperator?_eq_some_iff {c : Char} {k : Kind} :
    ofOperator? c = some k ↔ (c, k) ∈ operators := by
  unfold ofOperator? operators
  simp only [List.lookup_cons, List.lookup_nil, List.mem_cons, Prod.mk.injEq, List.not_mem_nil,
    or_false]
  constructor
  · intro h
    repeat' split at h
    all_goals simp_all
  · rintro (h | h | h | h | h | h) <;> obtain ⟨rfl, rfl⟩ := h <;> rfl

theorem ofWord?_eq_some_iff {word : String} {k : Kind} :
    ofWord? word = some k ↔ (word, k) ∈ keywords := by
  unfold ofWord? keywords
  simp only [List.lookup_cons, List.lookup_nil, List.mem_cons, Prod.mk.injEq, List.not_mem_nil,
    or_false]
  constructor
  · intro h
    repeat' split at h
    all_goals simp_all
  · rintro (h | h | h | h | h | h | h) <;> obtain ⟨rfl, rfl⟩ := h <;> decide

end Kind

end YaslLexis
