import YaslLexis.Kind
import YaslLexis.Place
import YaslLexis.Text.Columns
import YaslLexis.Text.Quoted

/-!
# Tokens

A token is a kind at a place, with its text if the kind keeps one. The three conditions on a token
are fields of the type, and `Token.make` says which of them fails first: the place, then a missing
text, then a text that may not be there.

Two forms are written: `shown` for debugging, with the text quoted, and `listed` for the listing,
where the place fills eight columns and a kind followed by a text twelve.

Main statement: `make` succeeds exactly on what meets the conditions (`make_eq_ok_iff`).
-/

namespace YaslLexis

/-- A kind at a place, with a text exactly if the kind keeps one. -/
structure Token where
  place : Place
  kind : Kind
  text : Option String
  counted : place.Counted
  text_isSome : text.isSome = kind.carriesText
deriving DecidableEq

namespace Token

/-- Why there is no such token. -/
inductive Refusal where
  /-- The line or the column is below one. -/
  | misplaced (place : Place)
  /-- The kind keeps a text and none is given, not even the empty one. -/
  | textMissing (kind : Kind)
  /-- A text is given and the kind keeps none. -/
  | textUnwanted (kind : Kind)
deriving DecidableEq, Repr

namespace Refusal

/-- The wording of a refusal. -/
def message : Refusal → String
  | misplaced place => "token position must be 1-based, got " ++ place.text
  | textMissing kind => kind.name ++ " token requires text"
  | textUnwanted kind => kind.name ++ " token cannot carry text"

end Refusal

/-- The token of these parts, or the first condition that fails. -/
def make (place : Place) (kind : Kind) (text : Option String) : Except Refusal Token :=
  if counted : place.Counted then
    if same : text.isSome = kind.carriesText then .ok ⟨place, kind, text, counted, same⟩
    else if kind.carriesText then .error (.textMissing kind)
    else .error (.textUnwanted kind)
  else .error (.misplaced place)

theorem make_eq_ok_iff {place : Place} {kind : Kind} {text : Option String} {t : Token} :
    make place kind text = .ok t ↔ t.place = place ∧ t.kind = kind ∧ t.text = text := by
  constructor
  · intro h
    unfold make at h
    split at h
    · split at h
      · cases h
        exact ⟨rfl, rfl, rfl⟩
      · split at h <;> cases h
    · cases h
  · rintro ⟨rfl, rfl, rfl⟩
    simp [make, t.counted, t.text_isSome]

/-- Where the token begins in a named text. -/
def location (t : Token) (file : String) : Location := ⟨file, t.place⟩

/-- The debugging form. -/
def shown (t : Token) : String :=
  match t.text with
  | some text => "Token(" ++ t.kind.name ++ ", " ++ Text.quoted text ++ ", " ++ t.place.text ++ ")"
  | none => "Token(" ++ t.kind.name ++ ", " ++ t.place.text ++ ")"

/-- The columns that the place fills in a listing. -/
def placeWidth : Nat := 8

/-- The columns that the kind fills in a listing when a text follows. -/
def kindWidth : Nat := 12

/-- The line of a listing. -/
def listed (t : Token) : String :=
  match t.text with
  | some text => Text.padRight placeWidth t.place.text ++ Text.padRight kindWidth t.kind.name ++ text
  | none => Text.padRight placeWidth t.place.text ++ t.kind.name

end Token

end YaslLexis
