/-!
# Paths

A path is a text of parts with slashes between them. The tidy form drops the parts that say nothing,
which are the empty ones and the single dots; two dots stay, since what they lead to depends on the
files. A path that begins with exactly two slashes keeps both.
-/

namespace YaslLexis.Files

/-- The parts between the slashes, empty ones included. -/
def parts (path : String) : List String := path.splitOn "/"

/-- The part leads nowhere else. -/
def isIdle (part : String) : Bool := part = "" || part = "."

/-- The path begins at the root. -/
def isAbsolute (path : String) : Bool := path.toList.head? = some '/'

/-- The slashes that a tidy path begins with. -/
def root (path : String) : String :=
  match (path.toList.takeWhile (· = '/')).length with
  | 0 => ""
  | 2 => "//"
  | _ => "/"

/-- The tidy form. What would be empty is the single dot. -/
def tidy (path : String) : String :=
  let kept := root path ++ "/".intercalate ((parts path).filter fun part => !isIdle part)
  if kept.isEmpty then "." else kept

end YaslLexis.Files
