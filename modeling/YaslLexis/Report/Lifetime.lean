import YaslLexis.Files.Tree
import YaslLexis.Report.Desk

/-!
# Opening and closing

A scan that reports to a desk is opened over a reader or over a file and can be closed as often as
one likes. Opening a file and closing without failure leave a record.
-/

namespace YaslLexis.Report

open Machine

/-- What a scan is opened with. -/
structure Options where
  /-- The name of the text in locations. -/
  file : String := unnamed
  /-- The number of the first line. -/
  line : Int := 1
  /-- The limit of a collector that is made with the options. -/
  limit : Int := 100

/-- A scan over a reader. -/
def openReader {σ : Type} (options : Options) (reader : Reader) (observer : σ) :
    Except Failure (Scan σ) :=
  match LookAhead.start reader options.line with
  | .error f => .error f
  | .ok ahead => .ok ⟨ahead, options.file, observer⟩

/-- A scan over a file. Without options the path is the name of the text. A failure comes with the
    desk that it leaves, since the file may have been opened when its first read fails. -/
def openFile (openPath : String → Except Files.OpenError Files.Content) (path : String)
    (options : Option Options) (post : Post) : Except (Failure × Desk) (Scan Post) :=
  match openPath path with
  | .error e => .error (e.failure path, post.desk)
  | .ok content =>
    let desk := post.desk.note tokenLog ("Opened " ++ path ++ " for scanning")
    (openReader (options.getD { file := path }) content.reader { post with desk }).mapError (·, desk)

/-- Closes the input. Nothing else changes but the record that is left. -/
def close (s : Scan Post) : Scan Post × Option Failure :=
  match s.ahead.close with
  | (ahead, some f) => ({ s with ahead }, some f)
  | (ahead, none) =>
    let message := "Character source closed at " ++ ahead.place.text
    ({ s with ahead, observer := { s.observer with
        desk := s.observer.desk.note inputLog message } }, none)

end YaslLexis.Report
