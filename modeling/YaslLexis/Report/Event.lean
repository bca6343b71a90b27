/-!
# Events

What becomes visible while a text is scanned, apart from the results: texts written to the error
output and records of the log, in the order in which they are made.
-/

namespace YaslLexis.Report

/-- How much a record matters. -/
inductive Level where
  | debug | error
deriving DecidableEq, Repr

/-- The name of a level. -/
def Level.name : Level → String
  | debug => "DEBUG"
  | error => "ERROR"

/-- A record of the log. -/
structure Record where
  logger : String
  level : Level
  message : String
deriving DecidableEq, Repr

/-- Something visible. -/
inductive Event where
  /-- A text on the error output. -/
  | written (text : String)
  /-- A record of the log. -/
  | logged (record : Record)
deriving DecidableEq, Repr

namespace Event

/-- The text on the error output, nothing for a record. -/
def text : Event → String
  | written text => text
  | logged _ => ""

/-- The record, if the event is one that is kept: a debugging record only if asked for. -/
def record? (debugging : Bool) : Event → Option Record
  | written _ => none
  | logged record => if record.level = .debug && !debugging then none else some record

end Event

/-- The log of the tokens given and of the files opened. -/
def tokenLog : String := "yasl.scanner.lexer"

/-- The log of the inputs closed. -/
def inputLog : String := "yasl.scanner.source"

/-- The log of the diagnostics, where no other is named. -/
def diagnosticLog : String := "yasl.scanner.diagnostics"

end YaslLexis.Report
