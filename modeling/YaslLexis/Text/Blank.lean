import YaslLexis.Text.Span

/-!
# Blanks

The characters that separate lexemes and mean nothing else: Unicode's white space together with the
four information separators.
-/

namespace YaslLexis.Text

/-- The blanks. -/
def blanks : CodeSet where
  spans :=
    [⟨0x9, 0xD⟩, ⟨0x1C, 0x20⟩, ⟨0x85, 0x85⟩, ⟨0xA0, 0xA0⟩, ⟨0x1680, 0x1680⟩, ⟨0x2000, 0x200A⟩,
     ⟨0x2028, 0x2029⟩, ⟨0x202F, 0x202F⟩, ⟨0x205F, 0x205F⟩, ⟨0x3000, 0x3000⟩]
  ascends := by decide +kernel

/-- The character is a blank. -/
def isBlank (c : Char) : Bool := blanks.has c.toNat

end YaslLexis.Text
