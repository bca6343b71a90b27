import YaslLexis.Report.Lifetime
import YaslLexis.Drive.Plan

/-!
# Steps of a session and what they answer

A session drives one scan and its sinks step by step. A step may hold a block of further steps, at
whose end the input is closed. An entry is what a step answers, with what became visible meanwhile
and where the scan stands afterwards.
-/

namespace YaslLexis.Drive

open Report

/-- A question to a collector, or a wish. -/
inductive Query where
  | all | hasAny | isFull | count | report | clear | fail
  | setLimit (limit : Int)

/-- One step. Sink steps go to the sink of the name, or else to that of the scan. -/
inductive Step where
  /-- The next token. -/
  | next
  /-- The tokens through the end. -/
  | drain
  /-- Makes an iterator over the tokens. -/
  | iterate
  /-- The next token of an iterator. -/
  | iteratorNext (index : Nat)
  /-- Closes the input. -/
  | close
  /-- Runs the steps, fails in the end if told to, and closes the input. -/
  | block (steps : List Step) (raise : Option Failure)
  /-- Names the text for the diagnostics to come. -/
  | rename (file : String)
  /-- Changes an option that no longer matters. -/
  | idle
  /-- Gives the scan another sink. -/
  | redirect (plan : Plan)
  /-- What the sink holds. -/
  | picture (name : Option String)
  /-- Closes the text of a stream sink. -/
  | closeStream (name : Option String)
  /-- Hands a diagnostic to the sink. -/
  | add (name : Option String) (d : Diagnostic)
  /-- Asks a collector. -/
  | ask (name : Option String) (query : Query)

/-- What a step answers. -/
inductive Answer where
  | nothing
  | token (t : Token)
  | tokens (ts : List Token)
  /-- An iterator that is past its end. -/
  | finished
  | truth (b : Bool)
  | number (n : Nat)
  | text (s : String)
  | diagnostics (ds : List Diagnostic)
  | picture (p : Picture)

/-- Where a scan stands. -/
structure View where
  place : Place
  current : Option Char
  reads : Nat
  closes : Nat

/-- What a step leaves behind: the events during it and where the scan stands after it. -/
structure Trail where
  events : List Event
  view : View

/-- The failure that leaves a block, and the one during whose handling it arose. -/
structure Escape where
  failure : Failure
  during : Option Failure

/-- The record of one step. -/
inductive Entry where
  /-- A step that answered, or failed. -/
  | plain (outcome : Except Failure Answer) (trail : Trail)
  /-- A block: the entries of its steps, and what left it. -/
  | block (body : List Entry) (escape : Option Escape) (trail : Trail)

end YaslLexis.Drive
