import YaslLexis.Text.LineEnds
import YaslLexis.Text.Utf8

/-!
# What reading a file does to its bytes

Decoding undoes encoding, and a byte that never stands in a character becomes one replacement
character wherever it stands between characters. Unifying line ends is what two replacements do one
after the other.

* `encoded` -- the bytes of a text;
* `decodeFrom_encodeChar` -- the bytes of one character, in any of the four lengths, are decoded to
  it, and what follows is looked at afresh;
* **`decode_encoded`** -- the bytes of a text, of bytes `FF` and of another text are decoded so;
* **`unifyLineEnds_eq`** -- all line ends are unified by joining the pairs first.
-/

namespace YaslLexis.Text

namespace Utf8

/-! ## 1. One byte -/

/-- The bytes of a text. -/
def encoded (text : List Char) : List UInt8 := text.flatMap String.utf8EncodeChar

theorem decodeFrom_cons (begun : Option Begun) (b : UInt8) (rest : List UInt8) :
    decodeFrom begun (b :: rest) =
      (feed begun b.toNat).1 ++ decodeFrom (feed begun b.toNat).2 rest := by
  cases begun <;> rfl

theorem toNat_ofNat {n : Nat} (h : n < 256) : (UInt8.ofNat n).toNat = n :=
  (UInt8.toNat_ofNat').trans (Nat.mod_eq_of_lt h)

/-- A byte within its bounds, after which more are missing. -/
theorem decodeFrom_more {p : Begun} {n m : Nat} (hlow : p.low ≤ n) (hhigh : n ≤ p.high)
    (hbyte : n < 256) (hmissing : p.missing = m + 1) (rest : List UInt8) :
    decodeFrom (some p) (UInt8.ofNat n :: rest) =
      decodeFrom (some ⟨p.value * 64 + (n - 0x80), m, 0x80, 0xBF⟩) rest := by
  rw [decodeFrom_cons, toNat_ofNat hbyte, feed, if_pos ⟨hlow, hhigh⟩, hmissing]
  rfl

/-- A byte within its bounds that is the last of its character. -/
theorem decodeFrom_last {p : Begun} {n : Nat} (hlow : p.low ≤ n) (hhigh : n ≤ p.high)
    (hbyte : n < 256) (hmissing : p.missing = 0) (rest : List UInt8) :
    decodeFrom (some p) (UInt8.ofNat n :: rest) =
      Char.ofNat (p.value * 64 + (n - 0x80)) :: decodeFrom none rest := by
  rw [decodeFrom_cons, toNat_ofNat hbyte, feed, if_pos ⟨hlow, hhigh⟩, hmissing]
  rfl

/-- A byte at which no character can begin becomes one replacement character. -/
theorem decodeFrom_ff (rest : List UInt8) :
    decodeFrom none (0xFF :: rest) = replacement :: decodeFrom none rest := rfl

/-! ## 2. One character -/

section Lengths

variable {n : Nat} (rest : List UInt8)

theorem decodeFrom_one (h : n ≤ 127) :
    decodeFrom none (UInt8.ofNat n :: rest) = Char.ofNat n :: decodeFrom none rest := by
  have hbyte : n < 256 := by omega
  have hfirst : n < 0x80 := by omega
  rw [decodeFrom_cons, toNat_ofNat hbyte, feed, first, if_pos hfirst]
  rfl

theorem decodeFrom_two (hlow : 127 < n) (hhigh : n ≤ 2047) :
    decodeFrom none (UInt8.ofNat (n / 64 % 32 + 192) :: UInt8.ofNat (n % 64 + 128) :: rest) =
      Char.ofNat n :: decodeFrom none rest := by
  have hbyte : n / 64 % 32 + 192 < 256 := by omega
  rw [decodeFrom_cons, toNat_ofNat hbyte, feed, first, if_neg (by omega), if_neg (by omega),
    if_pos (by omega), List.nil_append]
  have hvalue : (n / 64 % 32 + 192 - 0xC0) * 64 + (n % 64 + 128 - 0x80) = n := by omega
  rw [decodeFrom_last (by dsimp only; omega) (by dsimp only; omega) (by omega) rfl, hvalue]

theorem decodeFrom_three (hlow : 2047 < n) (hhigh : n ≤ 65535) (hvalid : n < 0xD800 ∨ 0xDFFF < n) :
    decodeFrom none (UInt8.ofNat (n / 4096 % 16 + 224) :: UInt8.ofNat (n / 64 % 64 + 128) ::
        UInt8.ofNat (n % 64 + 128) :: rest) =
      Char.ofNat n :: decodeFrom none rest := by
  have hbyte : n / 4096 % 16 + 224 < 256 := by omega
  rw [decodeFrom_cons, toNat_ofNat hbyte, feed, first, if_neg (by omega), if_neg (by omega),
    if_neg (by omega), if_pos (by omega), List.nil_append]
  have hvalue : ((n / 4096 % 16 + 224 - 0xE0) * 64 + (n / 64 % 64 + 128 - 0x80)) * 64 +
      (n % 64 + 128 - 0x80) = n := by omega
  -- The bounds of the second byte leave out what is too long and the surrogates.
  rw [decodeFrom_more (by dsimp only; split <;> omega) (by dsimp only; split <;> omega) (by omega)
      rfl,
    decodeFrom_last (by dsimp only; omega) (by dsimp only; omega) (by omega) rfl, hvalue]

theorem decodeFrom_four (hlow : 65535 < n) (hhigh : n < 0x110000) :
    decodeFrom none (UInt8.ofNat (n / 262144 % 8 + 240) :: UInt8.ofNat (n / 4096 % 64 + 128) ::
        UInt8.ofNat (n / 64 % 64 + 128) :: UInt8.ofNat (n % 64 + 128) :: rest) =
      Char.ofNat n :: decodeFrom none rest := by
  have hbyte : n / 262144 % 8 + 240 < 256 := by omega
  rw [decodeFrom_cons, toNat_ofNat hbyte, feed, first, if_neg (by omega), if_neg (by omega),
    if_neg (by omega), if_neg (by omega), if_pos (by omega), List.nil_append]
  have hvalue : (((n / 262144 % 8 + 240 - 0xF0) * 64 + (n / 4096 % 64 + 128 - 0x80)) * 64 +
      (n / 64 % 64 + 128 - 0x80)) * 64 + (n % 64 + 128 - 0x80) = n := by omega
  -- The bounds of the second byte leave out what is too long and what is past the last character.
  rw [decodeFrom_more (by dsimp only; split <;> omega) (by dsimp only; split <;> omega) (by omega)
      rfl,
    decodeFrom_more (by dsimp only; omega) (by dsimp only; omega) (by omega) rfl,
    decodeFrom_last (by dsimp only; omega) (by dsimp only; omega) (by omega) rfl, hvalue]

end Lengths

/-- **The bytes of a character are decoded to it**, whatever follows. -/
theorem decodeFrom_encodeChar (c : Char) (rest : List UInt8) :
    decodeFrom none (String.utf8EncodeChar c ++ rest) = c :: decodeFrom none rest := by
  have hvalid : c.toNat < 0xD800 ∨ 0xDFFF < c.toNat ∧ c.toNat < 0x110000 := c.valid
  have hsame : Char.ofNat c.toNat = c := Char.ofNat_toNat c
  unfold String.utf8EncodeChar
  change decodeFrom none ((if c.toNat ≤ 127 then _ else if c.toNat ≤ 2047 then _
    else if c.toNat ≤ 65535 then _ else _) ++ rest) = _
  by_cases hone : c.toNat ≤ 127
  · have hdecode := decodeFrom_one rest hone
    rw [if_pos hone]
    rwa [hsame] at hdecode
  rw [if_neg hone]
  by_cases htwo : c.toNat ≤ 2047
  · have hdecode := decodeFrom_two rest (Nat.lt_of_not_le hone) htwo
    rw [if_pos htwo]
    rwa [hsame] at hdecode
  rw [if_neg htwo]
  by_cases hthree : c.toNat ≤ 65535
  · have hdecode := decodeFrom_three rest (Nat.lt_of_not_le htwo) hthree (by omega)
    rw [if_pos hthree]
    rwa [hsame] at hdecode
  · have hdecode := decodeFrom_four rest (Nat.lt_of_not_le hthree) (by omega)
    rw [if_neg hthree]
    rwa [hsame] at hdecode

/-! ## 3. Whole texts -/

theorem decodeFrom_encoded (text : List Char) (rest : List UInt8) :
    decodeFrom none (encoded text ++ rest) = text ++ decodeFrom none rest := by
  induction text with
  | nil => rfl
  | cons c text ih =>
    have hcons : encoded (c :: text) = String.utf8EncodeChar c ++ encoded text := rfl
    rw [hcons, List.append_assoc, decodeFrom_encodeChar, ih, List.cons_append]

/-- The bytes of a text are decoded to it. -/
theorem decode_encoded_alone (text : List Char) : decode (encoded text) = text := by
  have h := decodeFrom_encoded text []
  rwa [List.append_nil, decodeFrom, List.append_nil] at h

theorem decodeFrom_replicate (n : Nat) (rest : List UInt8) :
    decodeFrom none (List.replicate n 0xFF ++ rest) =
      List.replicate n replacement ++ decodeFrom none rest := by
  induction n with
  | zero => rfl
  | succ n ih =>
    rw [List.replicate_succ, List.cons_append, decodeFrom_ff, ih, List.replicate_succ,
      List.cons_append]

/-- **Decoding undoes encoding, also around bytes that are not well formed.** -/
theorem decode_encoded (u v : List Char) (n : Nat) :
    decode (encoded u ++ List.replicate n 0xFF ++ encoded v) =
      u ++ List.replicate n replacement ++ v := by
  have hlast : decodeFrom none (encoded v) = v := decode_encoded_alone v
  unfold decode
  rw [List.append_assoc, decodeFrom_encoded, decodeFrom_replicate, hlast, List.append_assoc]

end Utf8

/-! ## 4. Line ends -/

/-- The text with each carriage return that a line feed follows taken out. -/
def joinPairs : List Char → List Char
  | [] => []
  | '\r' :: '\n' :: rest => '\n' :: joinPairs rest
  | c :: rest => c :: joinPairs rest

/-- The text with a line feed for each carriage return. -/
def replaceReturns (text : List Char) : List Char :=
  text.map fun c => if c = '\r' then '\n' else c

/-- **All line ends are unified by joining the pairs first** and then replacing the carriage returns
    that are left. -/
theorem unifyLineEnds_eq (text : List Char) :
    unifyLineEnds text = replaceReturns (joinPairs text) := by
  fun_induction unifyLineEnds text with
  | case1 => rfl
  | case2 rest ih =>
    rw [ih, joinPairs]
    rfl
  | case3 rest hpair ih =>
    rw [ih, joinPairs]
    · rfl
    · exact fun rest' _ => hpair rest'
  | case4 c rest hpair hreturn ih =>
    have hjoin : joinPairs (c :: rest) = c :: joinPairs rest := by
      rw [joinPairs]
      exact hpair
    have hc : c ≠ '\r' := fun heq => hreturn heq
    rw [ih, hjoin]
    unfold replaceReturns
    rw [List.map_cons, if_neg hc]

/-- A text without carriage returns stays as it is. -/
theorem unifyLineEnds_eq_self {text : List Char} (h : '\r' ∉ text) : unifyLineEnds text = text := by
  fun_induction unifyLineEnds text with
  | case1 => rfl
  | case2 | case3 => exact absurd List.mem_cons_self h
  | case4 c rest _ _ ih => rw [ih fun hmem => h (List.mem_cons_of_mem _ hmem)]

end YaslLexis.Text
