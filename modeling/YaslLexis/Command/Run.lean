import YaslLexis.Command.Outcome
import YaslLexis.Report.Lifetime

/-!
# The command

`yasl-lex` lists the tokens of a file, one a line, and writes diagnostics to the error output as
they come. After each token it looks whether there are as many diagnostics as the limit; it then
says so and stops. At the end it may say how many tokens and diagnostics there were.

All diagnostics go to a collector and to the error output, in this order.

What goes wrong leaves an outcome, with one exception: a path with a NUL cannot even be looked up,
and that failure leaves the command as it is.
-/

namespace YaslLexis.Command

open Machine Report

/-! ## 1. Where diagnostics go -/

/-- The index of the collector. -/
def collectorIndex : Nat := 0

/-- The index of the error output. -/
def outputIndex : Nat := 1

/-- A collector and the error output, nothing collected yet. -/
def openingPost (limit : Int) : Post :=
  { sink := .tee [.leaf collectorIndex, .leaf outputIndex]
    desk := { leaves := #[.collector { limit }, .errorOutput] } }

/-- What was collected. -/
def collected (s : Scan Post) : Collector := (s.observer.desk.collector? collectorIndex).getD {}

/-- Writes a line to the error output. -/
def say (s : Scan Post) (line : String) : Scan Post :=
  { s with observer := { s.observer with
      desk := s.observer.desk.emit (.written (Text.plain line ++ "\n")) } }

/-! ## 2. The listing -/

/-- The lines of a listing, and what the scan was left as. -/
structure Listing where
  lines : List String
  failure : Option Failure
  scan : Scan Post

/-- Lists tokens through the end, until one fails, or until there are too many diagnostics. -/
def list (s : Scan Post) : Listing :=
  match _h : s.next with
  | (s', .error f) => ⟨[], some f, s'⟩
  | (s', .ok t) =>
    let line := Text.plain t.listed
    if (collected s').isFull then
      ⟨[line], none,
        say s' ("too many diagnostics (" ++ toString (collected s').limit ++ "), stopping")⟩
    else if _other : t.kind = .eof then ⟨[line], none, s'⟩
    else
      let later := list s'
      { later with lines := line :: later.lines }
termination_by s.ahead.remaining
decreasing_by exact remaining_next_lt _h _other

/-- Lists tokens and closes the input, whatever came of the listing. A failure of closing hides one
    of the listing. -/
def listAndClose (s : Scan Post) : Listing :=
  let listing := list s
  let (scan, failure) := close listing.scan
  { listing with scan, failure := failure <|> listing.failure }

/-! ## 3. What is written -/

/-- A record as it is written when records are asked for. -/
def recordLine (record : Record) : String := record.level.name ++ ": " ++ record.message ++ "\n"

/-- An event as it is written. -/
def eventText (verbose : Bool) : Event → String
  | .written text => text
  | .logged record => if verbose then recordLine record else ""

/-- The events as they are written. -/
def eventTexts (verbose : Bool) (events : Array Event) : String :=
  String.join (events.toList.map (eventText verbose))

/-- The lines of the standard output. -/
def outputText (lines : List String) : String := String.join (lines.map (· ++ "\n"))

/-- `n tokens, m diagnostics`. -/
def summaryLine (tokens diagnostics : Nat) : String :=
  toString tokens ++ " tokens, " ++ toString diagnostics ++ " diagnostics"

/-! ## 4. The whole command -/

/-- The log of the command. -/
def commandLog : String := "yasl.cli.yasllex"

/-- Scans an opened file. -/
def scanOpened (request : Request) (s : Scan Post) : Outcome :=
  let listing := listAndClose s
  let output := outputText listing.lines
  let written := fun (s : Scan Post) => eventTexts request.verbose s.observer.desk.events
  let diagnostics := (collected listing.scan).count
  match listing.failure with
  | some f => failed f request.verbose output (written listing.scan)
  | none =>
    let s := if request.summary then say listing.scan (summaryLine listing.lines.length diagnostics)
      else listing.scan
    ⟨if (collected s).hasAny then .complaints else .success, output, written s, false⟩

/-- Scans the file of a request that was checked. -/
def scanFile (openPath : String → Except Files.OpenError Files.Content) (request : Request) :
    Outcome :=
  let path := Files.tidy request.path
  let options : Options := { file := path }
  let post := openingPost options.limit
  let desk := post.desk.note commandLog ("Scanning " ++ path)
  match openFile openPath path (some options) { post with desk } with
  | .error (f, desk) => failed f request.verbose "" (eventTexts request.verbose desk.events)
  | .ok s => scanOpened request s

/-- What is wrong with the file of a request or with the names after it, unless the file cannot be
    looked up. -/
def misuseOf (openPath : String → Except Files.OpenError Files.Content) (request : Request) :
    Except Failure (Option Misuse) :=
  match openPath request.path with
  | .error .nulInPath => .error (Files.OpenError.nulInPath.failure request.path)
  | .error .isDirectory => .ok (some (.fileIsDirectory request.path))
  | .error .denied => .ok (some (.fileUnreadable request.path))
  | .error _ => .ok (some (.fileMissing request.path))
  | .ok _ => .ok (if request.extra.isEmpty then none else some (.extra request.extra))

/-- Carries out the command. -/
def run (openPath : String → Except Files.OpenError Files.Content) (arguments : List String) :
    Except Failure Outcome :=
  match wishOf arguments with
  | .error m => .ok (misused m)
  | .ok .help => .ok ⟨.success, helpText, "", false⟩
  | .ok .version => .ok ⟨.success, versionText, "", false⟩
  | .ok (.scan request) =>
    match misuseOf openPath request with
    | .error f => .error f
    | .ok (some m) => .ok (misused m)
    | .ok none => .ok (scanFile openPath request)

end YaslLexis.Command
