import YaslLexis.Command.Likeness
import YaslLexis.Failure

/-!
# Arguments of the command

The arguments are read from left to right. Options may stand before or after the file, short ones
may be bundled, two hyphens end the options, and one hyphen is a plain name. An option that does not
exist, or that is given a value, is misuse before anything else is looked at.

Of what was read, a request for the help or the version counts first (the earlier of the two), then
the file, then names too many.
-/

namespace YaslLexis.Command

/-- A wrong use of the command. -/
inductive Misuse where
  /-- There is no such option; some are like it. -/
  | noSuchOption (option : String) (alike : List String)
  /-- The option was given a value. -/
  | valueGiven (option : String)
  /-- No file is named. -/
  | noFile
  /-- The file is not there. -/
  | fileMissing (path : String)
  /-- The file is a directory. -/
  | fileIsDirectory (path : String)
  /-- The file may not be read. -/
  | fileUnreadable (path : String)
  /-- More than the file is named. -/
  | extra (names : List String)
deriving DecidableEq, Repr

namespace Misuse

/-- What is added to a message if some options are like the one given. -/
def hint : List String → String
  | [] => ""
  | [one] => " Did you mean " ++ one ++ "?"
  | several => " (Possible options: " ++ ", ".intercalate several ++ ")"

/-- The wording of a wrong use. -/
def message : Misuse → String
  | noSuchOption option alike => "No such option: " ++ option ++ hint alike
  | valueGiven option => "Option " ++ Text.quoted option ++ " does not take a value."
  | noFile => "Missing argument 'INPUT_FILE'."
  | fileMissing path =>
    "Invalid value for 'INPUT_FILE': File " ++ Text.quoted path ++ " does not exist."
  | fileIsDirectory path =>
    "Invalid value for 'INPUT_FILE': File " ++ Text.quoted path ++ " is a directory."
  | fileUnreadable path =>
    "Invalid value for 'INPUT_FILE': File " ++ Text.quoted path ++ " is not readable."
  | extra [name] => "Got unexpected extra argument (" ++ name ++ ")"
  | extra names => "Got unexpected extra arguments (" ++ " ".intercalate names ++ ")"

/-- The usage is recalled along with the message. Whoever gives a value to an option knows that the
    option exists, and gets the message alone. -/
def recallsUsage : Misuse → Bool
  | valueGiven _ => false
  | _ => true

end Misuse

/-- An option of the command. -/
inductive Flag where
  | summary (on : Bool)
  | verbose
  | version
  | help
deriving DecidableEq, Repr

/-- The options by their long names. -/
def longOptions : List (String × Flag) :=
  [("--summary", .summary true), ("--no-summary", .summary false), ("--verbose", .verbose),
   ("--version", .version), ("--help", .help)]

/-- The options by their letters. -/
def shortOptions : List (Char × Flag) := [('v', .verbose)]

/-- What the arguments say. -/
structure Arguments where
  flags : List Flag
  names : List String

/-- A long option: its name, and a value if there is an equals sign. -/
def longOption (argument : String) : Except Misuse Flag :=
  let name := String.ofList (argument.toList.takeWhile (· ≠ '='))
  match longOptions.lookup name with
  | none => .error (.noSuchOption name (suggestions (longOptions.map Prod.fst) name))
  | some flag => if name = argument then .ok flag else .error (.valueGiven name)

/-- The letters of a bundle. -/
def shortFlags : List Char → Except Misuse (List Flag)
  | [] => .ok []
  | c :: rest =>
    match shortOptions.lookup c with
    | none => .error (.noSuchOption (String.ofList ['-', c]) [])
    | some flag => (shortFlags rest).map (flag :: ·)

/-- Reads the arguments. -/
def readArguments : List String → Except Misuse Arguments
  | [] => .ok ⟨[], []⟩
  | argument :: rest =>
    match argument.toList with
    | ['-', '-'] => .ok ⟨[], rest⟩
    | '-' :: '-' :: _ => do
      let flag ← longOption argument
      let later ← readArguments rest
      return { later with flags := flag :: later.flags }
    | '-' :: c :: letters => do
      let flags ← shortFlags (c :: letters)
      let later ← readArguments rest
      return { later with flags := flags ++ later.flags }
    | _ => do
      let later ← readArguments rest
      return { later with names := argument :: later.names }

/-- What the command is asked to do. -/
structure Request where
  summary : Bool
  verbose : Bool
  path : String
  /-- Names after that of the file, which is one too many each. -/
  extra : List String

/-- What the arguments ask for. -/
inductive Wish where
  | help
  | version
  | scan (request : Request)
deriving Inhabited

namespace Arguments

/-- The help or the version, whichever comes first. -/
def information? (a : Arguments) : Option Wish :=
  a.flags.findSome? fun
    | .help => some .help
    | .version => some .version
    | _ => none

/-- The last word on the summary, which is given unless told otherwise. -/
def summary (a : Arguments) : Bool :=
  (a.flags.reverse.findSome? fun
    | .summary on => some on
    | _ => none).getD true

/-- What the arguments ask for, or why they ask for nothing. -/
def wish (a : Arguments) : Except Misuse Wish :=
  match a.information? with
  | some wish => .ok wish
  | none =>
    match a.names with
    | [] => .error .noFile
    | path :: extra => .ok (.scan ⟨a.summary, a.flags.contains .verbose, path, extra⟩)

end Arguments

/-- What a command line asks for. -/
def wishOf (arguments : List String) : Except Misuse Wish :=
  match readArguments arguments with
  | .error m => .error m
  | .ok a => a.wish

end YaslLexis.Command
