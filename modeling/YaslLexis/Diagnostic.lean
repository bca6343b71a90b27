import YaslLexis.Place

/-!
# Diagnostics

What a scan complains about and goes on after. A diagnostic is a complaint with, usually, the
location of the character that was looked at when it arose.
-/

namespace YaslLexis

/-- What is wrong with the text. -/
inductive Complaint where
  /-- A character outside every class. -/
  | illegalCharacter (char : String)
  /-- A slash that opens no comment; `found` is what follows it, `none` at the end of the text. -/
  | malformedComment (found : Option String)
  /-- The text ends inside a block comment. -/
  | unclosedComment
  /-- Anything else, in its own words. -/
  | other (message : String)
deriving DecidableEq, Repr

namespace Complaint

/-- How the character after a slash is named; nothing and an empty text both are the end. -/
def foundText (found : Option String) : String :=
  match found with
  | none => "end of input"
  | some s => if s.isEmpty then "end of input" else s

/-- The wording of a complaint. -/
def message : Complaint → String
  | illegalCharacter char => "Illegal character: " ++ char
  | malformedComment found => "Malformed comment: found " ++ foundText found ++ " after /"
  | unclosedComment => "Unclosed comment at end of file"
  | other message => message

end Complaint

/-- A complaint, with its location if it has one. -/
structure Diagnostic where
  complaint : Complaint
  location : Option Location
deriving DecidableEq, Repr

namespace Diagnostic

/-- The wording without the location. -/
def message (d : Diagnostic) : String := d.complaint.message

/-- The wording, and on a line of its own the place if there is one. -/
def text (d : Diagnostic) : String :=
  match d.location with
  | none => d.message
  | some l => d.message ++ "\n  at " ++ l.place.text

end Diagnostic

end YaslLexis
