import Mathlib.Algebra.Group.Nat.Defs
import YaslLexis.Proofs.Delimiting

/-!
# The debugging form of a token

The form in which a token is shown for debugging has the text between quotes in its middle, and the
text may hold quotes, commas, parentheses and whatever looks like an escape. It can be read back all
the same: a quoted text shows where it ends, and each of its characters where the next one begins.

* `Escaped` -- the three ways in which a character is written between quotes: as it is, with a
  letter of its own, or by its number in as many digits as the letter says;
* `Escaped.append_inj` -- none of them is the beginning of another;
* **`encode_append_inj`** -- a quoted text can be read off the front of any text;
* **`shown_tells`** -- the debugging form tells the token.
-/

namespace YaslLexis

namespace Text.Quoted

/-! ## 1. Hexadecimal digits -/

@[simp] theorem length_hex (width n : Nat) : (hex width n).length = width := by
  induction width generalizing n with
  | zero => rfl
  | succ width ih => simp [hex, ih]

theorem digitChar_inj {a b : Nat} (ha : a < 16) (hb : b < 16)
    (h : Nat.digitChar a = Nat.digitChar b) : a = b := by
  have hall : ∀ a < 16, ∀ b < 16, Nat.digitChar a = Nat.digitChar b → a = b := by decide
  exact hall a ha b hb h

/-- As many digits as the number needs tell the number. -/
theorem hex_inj {width n m : Nat} (hn : n < 16 ^ width) (hm : m < 16 ^ width)
    (h : hex width n = hex width m) : n = m := by
  induction width generalizing n m with
  | zero =>
    rw [Nat.pow_zero] at hn hm
    omega
  | succ width ih =>
    obtain ⟨hfront, hlast⟩ := List.append_inj' h rfl
    rw [Nat.pow_succ] at hn hm
    have hhigh : n / 16 = m / 16 := ih (by omega) (by omega) hfront
    have hlow : n % 16 = m % 16 := digitChar_inj (Nat.mod_lt _ (by decide))
      (Nat.mod_lt _ (by decide)) (List.cons_eq_cons.1 hlast).1
    omega

/-! ## 2. One character -/

/-- The character is a quote. -/
def IsMark (q : Char) : Prop := q = '\'' ∨ q = '"'

theorem isMark_mark (text : List Char) : IsMark (mark text) := by
  unfold mark
  split
  · exact .inr rfl
  · exact .inl rfl

/-- The characters that have a letter of their own between quotes `q`, by this letter. -/
def letters (q : Char) : List (Char × Char) :=
  [(q, q), ('\\', '\\'), ('t', '\t'), ('n', '\n'), ('r', '\r')]

/-- The numbers of digits of the escapes by number, by the letter before them. -/
def widths : List (Char × Nat) := [('x', 2), ('u', 4), ('U', 8)]

/-- The ways in which a character is written between quotes `q`. -/
inductive Escaped (q : Char) : Char → List Char → Prop where
  | plain {c : Char} : c ≠ q → c ≠ '\\' → Escaped q c [c]
  | letter {a c : Char} : (letters q).lookup a = some c → Escaped q c ['\\', a]
  | number {a c : Char} {width : Nat} : widths.lookup a = some width → c.toNat < 16 ^ width →
      Escaped q c ('\\' :: a :: hex width c.toNat)

theorem escaped_numbered (q c : Char) : Escaped q c (numbered c.toNat) := by
  have hvalid : c.toNat < 0x110000 := by
    have hc := c.valid
    simp only [UInt32.isValidChar, Nat.isValidChar] at hc
    change c.toNat < _ ∨ _ < c.toNat ∧ c.toNat < _ at hc
    omega
  unfold numbered
  split
  · exact .number rfl (by omega)
  · split
    · exact .number rfl (by omega)
    · exact .number rfl (by omega)

/-- Every character is written in one of these ways. -/
theorem escaped_escape {q : Char} (hq : IsMark q) (c : Char) : Escaped q c (escape q c) := by
  have hself : (letters q).lookup q = some q := by simp [letters]
  have hown : (letters q).lookup '\\' = some '\\' ∧ (letters q).lookup 't' = some '\t' ∧
      (letters q).lookup 'n' = some '\n' ∧ (letters q).lookup 'r' = some '\r' := by
    rcases hq with rfl | rfl <;> decide
  obtain ⟨hback, htab, hfeed, hreturn⟩ := hown
  unfold escape
  simp only [Bool.or_eq_true, decide_eq_true_eq]
  split_ifs with hspecial istab isfeed isreturn hprints
  · rcases hspecial with rfl | rfl
    · exact .letter hself
    · exact .letter hback
  · rw [istab]
    exact .letter htab
  · rw [isfeed]
    exact .letter hfeed
  · rw [isreturn]
    exact .letter hreturn
  · obtain ⟨hquote, hplain⟩ := not_or.1 hspecial
    exact .plain hquote hplain
  · exact escaped_numbered q c

/-- No letter begins both kinds of escape. -/
theorem lookup_letters_of_widths {q a : Char} (hq : IsMark q) {width : Nat}
    (h : widths.lookup a = some width) : (letters q).lookup a = none := by
  have hlist : a = 'x' ∨ a = 'u' ∨ a = 'U' := by
    unfold widths at h
    simp only [List.lookup_cons, List.lookup_nil] at h
    repeat' split at h
    all_goals simp_all
  rcases hlist with rfl | rfl | rfl <;> rcases hq with rfl | rfl <;> decide

/-- **No way of writing a character begins another one.** -/
theorem Escaped.append_inj {q : Char} (hq : IsMark q) {c d : Char} {e f rest rest' : List Char}
    (h : Escaped q c e) (h' : Escaped q d f) (heq : e ++ rest = f ++ rest') :
    c = d ∧ rest = rest' := by
  cases h with
  | plain _ hplain =>
    cases h' with
    | plain => exact List.cons_eq_cons.1 heq
    | letter | number => exact absurd (List.cons_eq_cons.1 heq).1 hplain
  | letter ha =>
    cases h' with
    | plain _ hplain => exact absurd (List.cons_eq_cons.1 heq).1.symm hplain
    | letter hb =>
      obtain ⟨rfl, hrest⟩ := List.cons_eq_cons.1 (List.cons_eq_cons.1 heq).2
      exact ⟨Option.some.inj (ha.symm.trans hb), hrest⟩
    | number hb =>
      obtain ⟨rfl, -⟩ := List.cons_eq_cons.1 (List.cons_eq_cons.1 heq).2
      rw [lookup_letters_of_widths hq hb] at ha
      cases ha
  | number ha hlt =>
    cases h' with
    | plain _ hplain => exact absurd (List.cons_eq_cons.1 heq).1.symm hplain
    | letter hb =>
      obtain ⟨rfl, -⟩ := List.cons_eq_cons.1 (List.cons_eq_cons.1 heq).2
      rw [lookup_letters_of_widths hq ha] at hb
      cases hb
    | number hb hlt' =>
      -- The letter tells the number of digits, and so where they end.
      obtain ⟨rfl, hdigits⟩ := List.cons_eq_cons.1 (List.cons_eq_cons.1 heq).2
      obtain rfl := Option.some.inj (ha.symm.trans hb)
      obtain ⟨hhex, hrest⟩ := List.append_inj hdigits (by rw [length_hex, length_hex])
      exact ⟨Char.toNat_inj.1 (hex_inj hlt hlt' hhex), hrest⟩

/-- What is written for a character does not begin with the quote. -/
theorem Escaped.begins {q c : Char} (hq : IsMark q) {e : List Char} (h : Escaped q c e) :
    ∃ a as, e = a :: as ∧ a ≠ q := by
  have hback : '\\' ≠ q := by rcases hq with rfl | rfl <;> decide
  cases h with
  | plain hne => exact ⟨c, [], rfl, hne⟩
  | letter | number => exact ⟨'\\', _, rfl, hback⟩

/-! ## 3. Quoted texts -/

/-- The characters between quotes are known up to the closing one. -/
theorem escapes_append_inj {q : Char} (hq : IsMark q) {text text' rest rest' : List Char}
    (h : text.flatMap (escape q) ++ q :: rest = text'.flatMap (escape q) ++ q :: rest') :
    text = text' ∧ rest = rest' := by
  induction text generalizing text' with
  | nil =>
    cases text' with
    | nil => exact ⟨rfl, (List.cons_eq_cons.1 h).2⟩
    | cons d ds =>
      obtain ⟨a, as, hescape, hne⟩ := (escaped_escape hq d).begins hq
      rw [List.flatMap_cons, hescape] at h
      exact absurd (List.cons_eq_cons.1 h).1.symm hne
  | cons c cs ih =>
    cases text' with
    | nil =>
      obtain ⟨a, as, hescape, hne⟩ := (escaped_escape hq c).begins hq
      rw [List.flatMap_cons, hescape] at h
      exact absurd (List.cons_eq_cons.1 h).1 hne
    | cons d ds =>
      rw [List.flatMap_cons, List.flatMap_cons, List.append_assoc, List.append_assoc] at h
      obtain ⟨rfl, hlater⟩ := (escaped_escape hq c).append_inj hq (escaped_escape hq d) h
      obtain ⟨rfl, hrest⟩ := ih hlater
      exact ⟨rfl, hrest⟩

/-- **A quoted text can be read off the front of any text.** -/
theorem encode_append_inj {text text' rest rest' : List Char}
    (h : encode text ++ rest = encode text' ++ rest') : text = text' ∧ rest = rest' := by
  unfold encode at h
  rw [List.append_assoc, List.append_assoc] at h
  obtain ⟨hmark, hbetween⟩ := List.cons_eq_cons.1 h
  rw [← hmark] at hbetween
  exact escapes_append_inj (isMark_mark text) hbetween

end Text.Quoted

/-! ## 4. Shown tokens -/

open Text

namespace Token

/-- What is shown between the kind and the place: nothing, or the quoted text. -/
def middle (t : Token) : List Char :=
  match t.text with
  | some text => Quoted.encode text.toList ++ [',', ' ']
  | none => []

theorem toList_shown (t : Token) :
    t.shown.toList = "Token(".toList ++ (t.kind.name.toList ++
      (", ".toList ++ (t.middle ++ (t.place.text.toList ++ ")".toList)))) := by
  unfold shown middle quoted
  cases t.text <;> simp

/-- **A shown token can be read off the front of any text.** -/
theorem shown_append_inj {t t' : Token} {rest rest' : List Char}
    (h : t.shown.toList ++ rest = t'.shown.toList ++ rest') : t = t' ∧ rest = rest' := by
  rw [t.toList_shown, t'.toList_shown] at h
  simp only [List.append_assoc] at h
  obtain ⟨hkind, hcomma⟩ := Kind.name_append_inj (by rfl) (by rfl) (List.append_cancel_left h)
  have hmiddle := List.append_cancel_left hcomma
  have hparts : t.text = t'.text ∧ t.place.text.toList ++ (")".toList ++ rest) =
      t'.place.text.toList ++ (")".toList ++ rest') := by
    unfold middle at hmiddle
    rcases texts_of_kind hkind with ⟨hnone, hnone'⟩ | ⟨text, text', hsome, hsome'⟩
    · rw [hnone, hnone'] at hmiddle ⊢
      exact ⟨rfl, hmiddle⟩
    · rw [hsome, hsome'] at hmiddle ⊢
      simp only [List.append_assoc] at hmiddle
      obtain ⟨hchars, hafter⟩ := Quoted.encode_append_inj hmiddle
      exact ⟨congrArg some (String.toList_inj.1 hchars), List.append_cancel_left hafter⟩
  obtain ⟨hplace, hrest⟩ :=
    Place.text_append_inj t.counted t'.counted (by rfl) (by rfl) hparts.2
  exact ⟨eq_of_parts hplace hkind hparts.1, List.append_cancel_left hrest⟩

/-- **The debugging form tells the token**, whatever its place and its text. -/
theorem shown_tells (t t' : Token) : t.shown = t'.shown ↔ t = t' := by
  refine ⟨fun h => ?_, congrArg shown⟩
  have hchars : t.shown.toList ++ [] = t'.shown.toList ++ [] := by rw [h]
  exact (shown_append_inj hchars).1

end Token

end YaslLexis
