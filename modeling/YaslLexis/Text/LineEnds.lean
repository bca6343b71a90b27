/-!
# Line ends

A file may end its lines by a line feed, by a carriage return, or by a carriage return and a line
feed together. All three are read as one line feed.
-/

namespace YaslLexis.Text

/-- The text with every line end written as one line feed. -/
def unifyLineEnds : List Char → List Char
  | [] => []
  | '\r' :: '\n' :: rest => '\n' :: unifyLineEnds rest
  | '\r' :: rest => '\n' :: unifyLineEnds rest
  | c :: rest => c :: unifyLineEnds rest

end YaslLexis.Text
