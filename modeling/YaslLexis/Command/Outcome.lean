import YaslLexis.Command.Arguments
import YaslLexis.Text.Plain

/-!
# Outcomes of the command

What a command leaves: a code, what it wrote, and whether the trace of an unexpected failure
follows. The code tells complaints about the text (and about the language in general) from
arguments that do not fit and from what nobody expected.
-/

namespace YaslLexis.Command

/-- The codes with which a command ends. -/
inductive ExitCode where
  | success | complaints | arguments | unexpected
deriving DecidableEq, Repr

namespace ExitCode

/-- All codes. -/
def all : List ExitCode := [success, complaints, arguments, unexpected]

/-- The number of a code. -/
def number : ExitCode → Nat
  | success => 0
  | complaints => 1
  | arguments => 2
  | unexpected => 3

/-- The name of a code. -/
def name : ExitCode → String
  | success => "SUCCESS"
  | complaints => "BUILD_ERROR"
  | arguments => "INVALID_ARGS"
  | unexpected => "INTERNAL_ERROR"

/-- The code for a failure. -/
def ofFamily : Family → ExitCode
  | .argument | .system .notFound | .system .permission => arguments
  | family => if family.isLanguage then complaints else unexpected

end ExitCode

/-- What a command leaves. -/
structure Outcome where
  code : ExitCode
  output : String
  errorOutput : String
  /-- The trace of the failure follows. -/
  traced : Bool := false
deriving DecidableEq, Repr

/-- The line for a failure. -/
def failureLine (f : Failure) : String :=
  let lead := if ExitCode.ofFamily f.family = .unexpected then "Internal error: " else "Error: "
  Text.plain (lead ++ f.message) ++ "\n"

/-- The outcome of a failure after something was written. -/
def failed (f : Failure) (verbose : Bool) (output errorOutput : String) : Outcome :=
  let code := ExitCode.ofFamily f.family
  ⟨code, output, errorOutput ++ failureLine f, verbose && code = .unexpected⟩

/-- The name of the command. -/
def commandName : String := "yasl-lex"

/-- The version of the command. -/
def versionNumber : String := "1.0.0"

/-- The first line of the help. -/
def usageLine : String := "Usage: " ++ commandName ++ " [OPTIONS] INPUT_FILE\n"

/-- What recalls the usage. -/
def usageReminder : String := usageLine ++ "Try '" ++ commandName ++ " --help' for help.\n\n"

/-- The outcome of a wrong use. -/
def misused (m : Misuse) : Outcome :=
  ⟨.arguments, "",
    (if m.recallsUsage then usageReminder else "") ++ Text.plain ("Error: " ++ m.message) ++ "\n",
    false⟩

/-- The text of the help. -/
def helpText : String :=
  usageLine ++
  "\n" ++
  "  Print the token stream of a YASL source file.\n" ++
  "\n" ++
  "  INPUT_FILE is the YASL source file to scan.\n" ++
  "\n" ++
  "  Examples:\n" ++
  "      yasl-lex demo.yasl               # One token per line\n" ++
  "      yasl-lex --no-summary demo.yasl  # Tokens only\n" ++
  "\n" ++
  "Options:\n" ++
  "  --summary / --no-summary  Print token and diagnostic counts to stderr\n" ++
  "                            (default: on)\n" ++
  "  -v, --verbose             Verbose output\n" ++
  "  --version                 Show the version and exit.\n" ++
  "  --help                    Show this message and exit.\n"

/-- The line with the version. -/
def versionText : String := commandName ++ ", version " ++ versionNumber ++ "\n"

end YaslLexis.Command
