/-!
# UTF-8, read without refusing

Bytes become characters whatever they are: a part that is not well formed becomes one replacement
character. The part is as long as possible, that is, the bytes that could still have become a
character when the next byte ruled that out; this next byte is then looked at afresh.

`feed` takes one byte, `decode` all of them.
-/

namespace YaslLexis.Text.Utf8

/-- The character that stands for an ill-formed part. -/
def replacement : Char := '\uFFFD'

/-- A character of which some bytes have come: the number they spell so far, how many bytes are
missing after the next one, and the bounds of the next one. -/
structure Begun where
  value : Nat
  missing : Nat
  low : Nat
  high : Nat
deriving DecidableEq, Repr

/-- A byte at the start of a character. The bounds of the second byte exclude the spellings that
are longer than needed (after `E0` and `F0`), the surrogates (after `ED`) and the numbers beyond
the last code point (after `F4`). -/
def first (b : Nat) : List Char × Option Begun :=
  if b < 0x80 then ([Char.ofNat b], none)
  else if b < 0xC2 then ([replacement], none)
  else if b < 0xE0 then ([], some ⟨b - 0xC0, 0, 0x80, 0xBF⟩)
  else if b < 0xF0 then
    ([], some ⟨b - 0xE0, 1, if b = 0xE0 then 0xA0 else 0x80, if b = 0xED then 0x9F else 0xBF⟩)
  else if b < 0xF5 then
    ([], some ⟨b - 0xF0, 2, if b = 0xF0 then 0x90 else 0x80, if b = 0xF4 then 0x8F else 0xBF⟩)
  else ([replacement], none)

/-- One more byte: the characters that are settled by it, and the character it leaves begun. -/
def feed : Option Begun → Nat → List Char × Option Begun
  | none, b => first b
  | some p, b =>
    if p.low ≤ b ∧ b ≤ p.high then
      match p.missing with
      | 0 => ([Char.ofNat (p.value * 64 + (b - 0x80))], none)
      | m + 1 => ([], some ⟨p.value * 64 + (b - 0x80), m, 0x80, 0xBF⟩)
    else (replacement :: (first b).1, (first b).2)

/-- The characters of the bytes that follow a begun character. -/
def decodeFrom : Option Begun → List UInt8 → List Char
  | none, [] => []
  | some _, [] => [replacement]
  | begun, b :: rest => (feed begun b.toNat).1 ++ decodeFrom (feed begun b.toNat).2 rest

/-- The characters of a sequence of bytes. -/
def decode (bytes : List UInt8) : List Char := decodeFrom none bytes

end YaslLexis.Text.Utf8
