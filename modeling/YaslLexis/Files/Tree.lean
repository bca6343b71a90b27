import YaslLexis.Files.Path
import YaslLexis.Input.Reader
import YaslLexis.Text.LineEnds
import YaslLexis.Text.Utf8

/-!
# A tree of files

The files that can be opened, by the parts of their paths from the root. A directory is there if it
was made or if something lies below it. A path is walked part by part: whatever is followed by
another part, be it an idle one, has to be a directory.

Before any walk the path as a whole is looked at: it may hold no NUL, may not be empty and has to be
shorter than a limit, wherever it would have led.
-/

namespace YaslLexis.Files

/-- What opening a file gives. -/
inductive Content where
  /-- Bytes to be read. -/
  | bytes (held : List UInt8)
  /-- A file that opens but cannot be read. -/
  | unreadable

namespace Content

/-- The text of the bytes: UTF-8, every line end one line feed. -/
def text (held : List UInt8) : List Char := Text.unifyLineEnds (Text.Utf8.decode held)

/-- The opened file. -/
def reader : Content → Reader
  | bytes held => .ofFile (text held)
  | unreadable => .unreadable (.system 5 "Input/output error" none)

end Content

/-- Why a path does not open. -/
inductive OpenError where
  | notFound | denied | isDirectory | notDirectory | nameTooLong | nulInPath
deriving DecidableEq, Repr

namespace OpenError

/-- The failure of opening a path. -/
def failure (path : String) : OpenError → Failure
  | notFound => .system 2 "No such file or directory" (some path)
  | denied => .system 13 "Permission denied" (some path)
  | isDirectory => .system 21 "Is a directory" (some path)
  | notDirectory => .system 20 "Not a directory" (some path)
  | nameTooLong => .system 36 "File name too long" (some path)
  | nulInPath => .nulInPath

end OpenError

/-- Files and directories, each by the parts of its path from the root. -/
structure Tree where
  files : List (List String × Content)
  directories : List (List String)
  /-- The directory at which paths begin that do not begin at the root. -/
  working : List String

/-- What stands at the end of a path. -/
inductive Node where
  | directory
  | file (content : Content)

namespace Tree

/-- The longest name of a file, in bytes. -/
def nameLimit : Nat := 255

/-- The longest path, in bytes. -/
def pathLimit : Nat := 4095

/-- The node at the end of these parts. -/
def node? (tree : Tree) (steps : List String) : Option Node :=
  match tree.files.lookup steps with
  | some content => some (.file content)
  | none =>
    let below := tree.working :: tree.directories ++ tree.files.map Prod.fst
    if below.any fun path => steps.isPrefixOf path then some .directory else none

/-- The steps from the root after walking more parts. -/
def walk (tree : Tree) : List String → List String → Except OpenError (List String)
  | here, [] => .ok here
  | here, part :: rest =>
    match tree.node? here with
    | none => .error .notFound
    | some (.file _) => .error .notDirectory
    | some .directory =>
      if nameLimit < part.utf8ByteSize then .error .nameTooLong
      else if isIdle part then tree.walk here rest
      else if part = ".." then tree.walk here.dropLast rest
      else if (tree.node? (here ++ [part])).isNone then .error .notFound
      else tree.walk (here ++ [part]) rest

/-- Opens the file at a path. -/
def openFile (tree : Tree) (path : String) : Except OpenError Content := do
  if path.toList.contains '\x00' then throw .nulInPath
  if path.isEmpty then throw .notFound
  if pathLimit < path.utf8ByteSize then throw .nameTooLong
  let steps ← tree.walk (if isAbsolute path then [] else tree.working) (parts path)
  match tree.node? steps with
  | none => throw .notFound
  | some .directory => throw .isDirectory
  | some (.file content) => return content

/-- Makes a directory, by its path from the working directory. -/
def addDirectory (tree : Tree) (path : String) : Tree :=
  let steps := (parts path).filter fun part => !isIdle part
  { tree with directories := (tree.working ++ steps) :: tree.directories }

/-- Makes a file and the directories above it, by its path from the working directory. -/
def addFile (tree : Tree) (path : String) (content : Content) : Tree :=
  let steps := (parts path).filter fun part => !isIdle part
  { tree with files := (tree.working ++ steps, content) :: tree.files }

end Tree

end YaslLexis.Files
