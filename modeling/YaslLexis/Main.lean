import YaslLexis.Command.Run

/-!
# The program

Reads the file that the command line names, lets the command do its work on the bytes, and prints
what came of it.
-/

namespace YaslLexis.Command

/-- What opening a file of the machine gives. A path that runs through a file is refused by name, a
    directory only when it is read. -/
def contentAt (path : String) : IO (Except Files.OpenError Files.Content) := do
  try
    let bytes ← IO.FS.readBinFile path
    return .ok (.bytes bytes.toList)
  catch
    | .noFileOrDirectory .. => return .error .notFound
    | .permissionDenied .. => return .error .denied
    | .inappropriateType name .. =>
      return .error (if name.isSome then .notDirectory else .isDirectory)
    | .hardwareFault .. => return .ok .unreadable
    | _ => return .error .notFound

/-- Runs the command on the machine's files; the result is the code with which the program ends. -/
def runOnFiles (arguments : List String) : IO UInt32 := do
  let content ← match wishOf arguments with
    | .ok (.scan request) => contentAt request.path
    | _ => pure (.error .notFound)
  match run (fun _ => content) arguments with
  | .error f =>
    (← IO.getStderr).putStr (f.message ++ "\n")
    return 1
  | .ok outcome =>
    (← IO.getStdout).putStr outcome.output
    (← IO.getStderr).putStr outcome.errorOutput
    return UInt32.ofNat outcome.code.number

end YaslLexis.Command

def main (arguments : List String) : IO UInt32 := YaslLexis.Command.runOnFiles arguments
