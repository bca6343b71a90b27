import YaslLexis.CharClass
import YaslLexis.Failure

/-!
# States and moves

The automaton that cuts a text into tokens has nine states. What it does next depends on the state
and on the character looked at alone; the table is `move`. Everything else (consuming, collecting
the lexeme, reporting) is carried out by `Machine/Run.lean`.

A zero is a number by itself, so the digits after it begin another one. A slash that opens no
comment is reported without consuming what follows it, and so is a block comment that the text does
not close.
-/

namespace YaslLexis.Machine

/-- Where the automaton stands. -/
inductive State where
  /-- Looking for the beginning of a token. -/
  | start
  /-- Past a zero. -/
  | zero
  /-- Inside a number. -/
  | number
  /-- Inside a word. -/
  | word
  /-- Past an operator character. -/
  | operator
  /-- Past a slash. -/
  | slash
  /-- Inside a block comment. -/
  | block
  /-- Inside a block comment, past a star. -/
  | blockStar
  /-- Inside a line comment. -/
  | line
deriving DecidableEq, Repr

namespace State

/-- All states. -/
def all : List State :=
  [start, zero, number, word, operator, slash, block, blockStar, line]

/-- The name of a state in traces. -/
def name : State → String
  | start => "START"
  | zero => "ZERO"
  | number => "NUMBER"
  | word => "WORD"
  | operator => "OPERATOR"
  | slash => "SLASH"
  | block => "BLOCK_COMMENT"
  | blockStar => "BLOCK_COMMENT_STAR"
  | line => "LINE_COMMENT"

end State

/-- What a finished lexeme is. -/
inductive LexemeClass where
  | number | word | operator
deriving DecidableEq, Repr

/-- What the automaton does in a state, given the character looked at. -/
inductive Move where
  /-- Begins a lexeme with the character and consumes it. -/
  | begin (c : Char) (next : State)
  /-- Adds the character to the lexeme and consumes it. -/
  | keep (c : Char) (next : State)
  /-- Consumes the character. -/
  | drop (next : State)
  /-- Reports the character as illegal, consumes it and starts again. -/
  | reject (c : Char)
  /-- Reports the complaint and starts again, consuming nothing. -/
  | complain (complaint : Complaint)
  /-- Starts again, consuming nothing. -/
  | turn
  /-- Gives the token of the lexeme. -/
  | finish (sort : LexemeClass)
  /-- Gives the token of the end. -/
  | stop
deriving DecidableEq, Repr

/-- The character may go on a word. -/
def continuesWord (c : Char) : Bool := Text.isLetter c || Text.isDigit c

/-- The moves at the beginning of a token. -/
def startMove (c : Char) : Move :=
  match classOf c with
  | .zero => .begin c .zero
  | .digit => .begin c .number
  | .letter => .begin c .word
  | .operator => .begin c .operator
  | .slash => .drop .slash
  | .blank => .drop .start
  | .illegal => .reject c

/-- The table of the automaton. No character (`none`) is the end of the text. -/
def move : State → Option Char → Move
  | .start, none => .stop
  | .start, some c => startMove c
  | .zero, _ => .finish .number
  | .number, none => .finish .number
  | .number, some c => if Text.isDigit c then .keep c .number else .finish .number
  | .word, none => .finish .word
  | .word, some c => if continuesWord c then .keep c .word else .finish .word
  | .operator, _ => .finish .operator
  | .slash, none => .complain (.malformedComment none)
  | .slash, some c =>
    if c = '*' then .drop .block
    else if c = '/' then .drop .line
    else .complain (.malformedComment (some c.toString))
  | .block, none => .complain .unclosedComment
  | .block, some c => if c = '*' then .drop .blockStar else .drop .block
  | .blockStar, none => .complain .unclosedComment
  | .blockStar, some c =>
    if c = '/' then .drop .start else if c = '*' then .drop .blockStar else .drop .block
  | .line, none => .turn
  | .line, some c => if c = '\n' then .turn else .drop .line

namespace Move

/-- The move consumes the character looked at. -/
def consumes : Move → Bool
  | begin _ _ | keep _ _ | drop _ | reject _ => true
  | _ => false

/-- The move goes back to the beginning of a token and consumes nothing. -/
def returns : Move → Bool
  | complain _ | turn => true
  | _ => false

end Move

/-- There is a character to consume wherever the table says so. -/
theorem isSome_of_consumes {state : State} {look : Option Char}
    (h : (move state look).consumes = true) : look.isSome = true := by
  cases look with
  | some c => rfl
  | none => cases state <;> simp [move, Move.consumes] at h

/-- The table consumes, or ends the token, wherever a token begins. -/
theorem ne_start_of_returns {state : State} {look : Option Char}
    (h : (move state look).returns = true) : state ≠ .start := by
  rintro rfl
  cases look with
  | none => simp [move, Move.returns] at h
  | some c =>
    simp only [move, startMove] at h
    split at h <;> simp [Move.returns] at h

/-- No lexeme is finished where a token begins. -/
theorem ne_start_of_finish {state : State} {look : Option Char} {sort : LexemeClass}
    (h : move state look = .finish sort) : state ≠ .start := by
  rintro rfl
  cases look with
  | none => simp [move] at h
  | some c =>
    simp only [move, startMove] at h
    split at h <;> cases h

/-- The kind and the text of the token that a lexeme makes. A reserved word is its own kind and
    keeps no text. -/
def classify (sort : LexemeClass) (lexeme : String) : Except Failure (Kind × Option String) :=
  match sort with
  | .number => .ok (.number, some lexeme)
  | .word =>
    match Kind.ofWord? lexeme with
    | some kind => .ok (kind, none)
    | none => .ok (.identifier, some lexeme)
  | .operator =>
    match Kind.ofSign? lexeme with
    | some kind => .ok (kind, none)
    | none => .error (.noOperator lexeme)

end YaslLexis.Machine
