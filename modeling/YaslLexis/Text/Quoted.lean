import YaslLexis.Text.Printable

/-!
# Quoted text

The one-line form in which a text is shown between quotes. The quote is the single one unless the
text holds a single and no double quote. The backslash and the quote in use are escaped, tab, line
feed and carriage return have letters of their own, and whatever else cannot be printed is written
by its number in lower-case hexadecimal: two digits after `\x`, four after `\u`, eight after `\U`.
-/

namespace YaslLexis.Text.Quoted

/-- The last `width` hexadecimal digits of a number. -/
def hex : Nat → Nat → List Char
  | 0, _ => []
  | width + 1, n => hex width (n / 16) ++ [Nat.digitChar (n % 16)]

/-- The quote for a text: double only where that saves escaping single ones. -/
def mark (text : List Char) : Char :=
  if text.contains '\'' && !text.contains '"' then '"' else '\''

/-- The escape by number, of the shortest kind that holds the code point. -/
def numbered (n : Nat) : List Char :=
  if n < 0x100 then '\\' :: 'x' :: hex 2 n
  else if n < 0x10000 then '\\' :: 'u' :: hex 4 n
  else '\\' :: 'U' :: hex 8 n

/-- One character between quotes `q`. -/
def escape (q c : Char) : List Char :=
  if c = q || c = '\\' then ['\\', c]
  else if c = '\t' then ['\\', 't']
  else if c = '\n' then ['\\', 'n']
  else if c = '\r' then ['\\', 'r']
  else if isPrintable c then [c]
  else numbered c.toNat

/-- The quoted form: quote, escaped characters, quote. -/
def encode (text : List Char) : List Char :=
  mark text :: text.flatMap (escape (mark text)) ++ [mark text]

end Quoted

/-- The quoted form of a text. -/
def quoted (text : String) : String := String.ofList (Quoted.encode text.toList)

end YaslLexis.Text
