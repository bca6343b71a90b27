import YaslLexis.Diagnostic
import YaslLexis.Text.Quoted
import YaslLexis.Token

/-!
# Failures

What ends an operation without a result. A `Failure` is a cause; its wording is `message`, and its
`family` is what a caller goes by: whether it comes from the operating system, from the language
itself or from somewhere else.
-/

namespace YaslLexis

/-- The families of failures of the operating system. -/
inductive SystemFamily where
  | general
  | notFound | alreadyExists | permission | isDirectory | notDirectory
  | wouldBlock | timedOut | interrupted
  | noChild | noProcess
  | connection | brokenPipe | connectionAborted | connectionRefused | connectionReset
  /-- Any other family of such failures, by its name. -/
  | other (name : String)
deriving DecidableEq, Repr

namespace SystemFamily

/-- The families that have error numbers of their own, with these. -/
def numbered : List (SystemFamily × List Int) :=
  [(notFound, [2]), (alreadyExists, [17]), (permission, [1, 13]), (isDirectory, [21]),
   (notDirectory, [20]), (wouldBlock, [11, 114, 115]), (timedOut, [110]), (interrupted, [4]),
   (noChild, [10]), (noProcess, [3]), (brokenPipe, [32, 108]), (connectionAborted, [103]),
   (connectionRefused, [111]), (connectionReset, [104])]

/-- The family that goes with an error number. -/
def ofNumber (number : Int) : SystemFamily :=
  ((numbered.find? fun entry => entry.2.contains number).map Prod.fst).getD general

/-- The wording of a numbered failure, with the path it is about. -/
def message (number : Int) (text : String) (path : Option String) : String :=
  "[Errno " ++ toString number ++ "] " ++ text ++
    match path with
    | none => ""
    | some p => ": " ++ Text.quoted p

end SystemFamily

/-- What a caller goes by when something fails. -/
inductive Family where
  /-- An improper value, or a use at an improper time. -/
  | value
  | runtime
  | wrongType
  | missingKey
  | system (which : SystemFamily)
  /-- A failure of the language without a family of its own. -/
  | language
  | diagnostic
  /-- The input could not be released. -/
  | channel
  /-- A scan that had to be free of diagnostics was not. -/
  | scanFailed
  /-- A command-line argument that does not fit. -/
  | argument
  /-- Any other misuse of the command line. -/
  | usage
  /-- Any other failure of the command line. -/
  | command
  /-- A change to what cannot change. -/
  | unchanging
  /-- Any other family, neither of the operating system nor of the language, by its name. -/
  | foreign (name : String)
deriving DecidableEq, Repr

namespace Family

/-- The failure comes from the operating system. -/
def isSystem : Family → Bool
  | system _ => true
  | _ => false

theorem isSystem_iff {family : Family} :
    family.isSystem = true ↔ ∃ which, family = system which := by
  cases family <;> simp [isSystem]

/-- The failure is one of the language's own. -/
def isLanguage : Family → Bool
  | language | diagnostic | channel | scanFailed => true
  | _ => false

end Family

/-- What ended an operation. -/
inductive Failure where
  /-- The parts of a token do not fit. -/
  | token (refusal : Token.Refusal)
  /-- A text in memory was used after it was closed. -/
  | closedText
  /-- A file was used after it was closed. -/
  | closedFile
  /-- A path holds the character NUL. -/
  | nulInPath
  /-- An operator character without a kind. -/
  | noOperator (text : String)
  /-- A read that was scripted to fail. -/
  | read (number : Nat)
  /-- A sink that takes no more. -/
  | sinkFull
  /-- A numbered failure of the operating system, about a path or not. -/
  | system (number : Int) (text : String) (path : Option String)
  /-- The input could not be closed, for this reason. -/
  | closing (cause : Failure)
  /-- The diagnostics of a scan that had to be free of them, as one report. -/
  | scanFailed (report : String)
  /-- A diagnostic that is raised and not reported. -/
  | diagnostic (d : Diagnostic)
  /-- A part of a value was to be changed that is made once and for all. -/
  | fixedPart (name : String)
  /-- A failure from outside: its family and its wording. -/
  | outside (family : Family) (message : String)
deriving Repr

namespace Failure

/-- The wording of a failure. -/
def message : Failure → String
  | token refusal => refusal.message
  | closedText => "I/O operation on closed file"
  | closedFile => "I/O operation on closed file."
  | nulInPath => "embedded null byte"
  | noOperator text => Text.quoted text
  | read number => "read " ++ toString number ++ " failed"
  | sinkFull => "sink full"
  | system number text path => SystemFamily.message number text path
  | closing cause => "cannot close input: " ++ cause.message
  | scanFailed report => report
  | diagnostic d => d.text
  | fixedPart name => "cannot assign to field " ++ Text.quoted name
  | outside .missingKey message => Text.quoted message
  | outside _ message => message

/-- The family of a failure. -/
def family : Failure → Family
  | token _ | closedText | closedFile | nulInPath => .value
  | noOperator _ => .missingKey
  | read _ => .system .general
  | sinkFull => .runtime
  | system number _ _ => .system (.ofNumber number)
  | closing _ => .channel
  | scanFailed _ => .scanFailed
  | diagnostic _ => .diagnostic
  | fixedPart _ => .unchanging
  | outside family _ => family

/-- What a failure becomes when it arises from closing the input: a failure of the operating system
    is reported as one of the language, with the former as its cause; others stay. -/
def onClosing (f : Failure) : Failure := if f.family.isSystem then closing f else f

end Failure

end YaslLexis
