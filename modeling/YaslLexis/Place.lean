/-!
# Places in a text

A `Place` is a line and a column, both counted from one; a `Location` names the text as well.
Numbers are integers, since a text may be declared to begin at any line.
-/

namespace YaslLexis

/-- A line and a column. -/
structure Place where
  line : Int
  column : Int
deriving DecidableEq, Repr, Inhabited

namespace Place

/-- The place just past a character: a line feed ends the line, all else takes one column. -/
def after (p : Place) (c : Char) : Place :=
  if c = '\n' then ⟨p.line + 1, 1⟩ else ⟨p.line, p.column + 1⟩

/-- The place just past a text. -/
def afterAll (p : Place) (text : List Char) : Place := text.foldl after p

/-- Both numbers count from one. -/
def Counted (p : Place) : Prop := 1 ≤ p.line ∧ 1 ≤ p.column

instance (p : Place) : Decidable p.Counted := inferInstanceAs (Decidable (_ ∧ _))

/-- `line:column`. -/
def text (p : Place) : String := toString p.line ++ ":" ++ toString p.column

@[simp] theorem after_lineFeed (p : Place) : p.after '\n' = ⟨p.line + 1, 1⟩ := rfl

theorem after_of_ne {p : Place} {c : Char} (h : c ≠ '\n') :
    p.after c = ⟨p.line, p.column + 1⟩ := if_neg h

@[simp] theorem afterAll_nil (p : Place) : p.afterAll [] = p := rfl

@[simp] theorem afterAll_cons (p : Place) (c : Char) (text : List Char) :
    p.afterAll (c :: text) = (p.after c).afterAll text := rfl

theorem afterAll_append (p : Place) (a b : List Char) :
    p.afterAll (a ++ b) = (p.afterAll a).afterAll b := List.foldl_append

end Place

/-- A place in a named text. -/
structure Location where
  file : String
  place : Place
deriving DecidableEq, Repr

namespace Location

/-- `file:line:column`. -/
def text (l : Location) : String := l.file ++ ":" ++ l.place.text

end Location

/-- The name of a text that comes from no file. -/
def unnamed : String := "<input>"

end YaslLexis
