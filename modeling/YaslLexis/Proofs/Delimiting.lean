import YaslLexis.Proofs.Fitting
import YaslLexis.Token

/-!
# Forms that show where they end

A token is written as the parts of which it consists, one behind the other. A part can be read off
the front of what was written if it is made of characters of a class and what comes behind it begins
with another character: the digits of a number, the capitals of a kind's name.

* `run_append_inj` -- a run of a class is known from the text that it begins;
* `number_append_inj` -- so is a counted number in decimal digits, whatever its size;
* **`Place.text_append_inj`**, **`Kind.name_append_inj`** -- so are a counted place and the name of
  a kind.
-/

namespace YaslLexis

/-! ## 1. Runs -/

/-- Runs of a class with something else behind them, which make the same text, are the same. -/
theorem run_append_inj {p : Char → Bool} {a b rest rest' : List Char} (ha : ∀ c ∈ a, p c = true)
    (hb : ∀ c ∈ b, p c = true) (hrest : rest.head?.any p = false)
    (hrest' : rest'.head?.any p = false) (h : a ++ rest = b ++ rest') : a = b ∧ rest = rest' := by
  have hrun : a = b := by
    rw [← Machine.takeWhile_append_stop ha hrest, h, Machine.takeWhile_append_stop hb hrest']
  subst hrun
  exact ⟨rfl, List.append_cancel_left h⟩

/-! ## 2. Numbers -/

/-- A counted number is written in decimal digits, without a sign. -/
theorem toList_toString_of_counted {n : Int} (h : 1 ≤ n) :
    (toString n).toList = Nat.toDigits 10 n.toNat := by
  show n.repr.toList = _
  rw [Int.repr_eq_if, if_pos (Int.le_trans (by decide) h), Nat.toList_repr]

theorem isDigit_of_mem_number {n : Int} (h : 1 ≤ n) :
    ∀ c ∈ (toString n).toList, c.isDigit = true := by
  intro c hmem
  rw [toList_toString_of_counted h] at hmem
  exact Nat.isDigit_of_mem_toDigits (by decide) (by decide) hmem

/-- A counted number can be read off the front of a text that goes on with no digit. -/
theorem number_append_inj {n m : Int} (hn : 1 ≤ n) (hm : 1 ≤ m) {rest rest' : List Char}
    (hrest : rest.head?.any Char.isDigit = false) (hrest' : rest'.head?.any Char.isDigit = false)
    (h : (toString n).toList ++ rest = (toString m).toList ++ rest') : n = m ∧ rest = rest' := by
  obtain ⟨hdigits, hlater⟩ :=
    run_append_inj (isDigit_of_mem_number hn) (isDigit_of_mem_number hm) hrest hrest' h
  rw [toList_toString_of_counted hn, toList_toString_of_counted hm] at hdigits
  have hnat : n.toNat = m.toNat := by
    rw [← Nat.ofDigitChars_ten_toDigits (n := n.toNat), hdigits, Nat.ofDigitChars_ten_toDigits]
  exact ⟨by omega, hlater⟩

/-! ## 3. Places -/

theorem Place.toList_text (p : Place) :
    p.text.toList = (toString p.line).toList ++ ':' :: (toString p.column).toList := by
  unfold Place.text
  rw [String.toList_append, String.toList_append, List.append_assoc]
  rfl

/-- A counted place is written with digits and a colon. -/
theorem Place.mem_text {p : Place} (hp : p.Counted) {c : Char} (h : c ∈ p.text.toList) :
    c.isDigit = true ∨ c = ':' := by
  rw [p.toList_text] at h
  rcases List.mem_append.1 h with hline | hmem
  · exact .inl (isDigit_of_mem_number hp.1 c hline)
  · rcases List.mem_cons.1 hmem with hcolon | hcolumn
    · exact .inr hcolon
    · exact .inl (isDigit_of_mem_number hp.2 c hcolumn)

/-- **A counted place can be read off the front of a text** that goes on with no digit. -/
theorem Place.text_append_inj {p q : Place} (hp : p.Counted) (hq : q.Counted)
    {rest rest' : List Char} (hrest : rest.head?.any Char.isDigit = false)
    (hrest' : rest'.head?.any Char.isDigit = false)
    (h : p.text.toList ++ rest = q.text.toList ++ rest') : p = q ∧ rest = rest' := by
  rw [p.toList_text, q.toList_text, List.append_assoc, List.append_assoc] at h
  obtain ⟨hline, hbehind⟩ := number_append_inj hp.1 hq.1 (by rfl) (by rfl) h
  have hcolumns := (List.cons_eq_cons.1 hbehind).2
  obtain ⟨hcolumn, hlater⟩ := number_append_inj hp.2 hq.2 hrest hrest' hcolumns
  exact ⟨by cases p; cases q; simp_all, hlater⟩

/-! ## 4. Kinds -/

/-- The name of a kind is written in capitals. -/
theorem Kind.name_upper (k : Kind) : ∀ c ∈ k.name.toList, c.isUpper = true := by
  have hall : ∀ k ∈ all, k.name.toList.all Char.isUpper = true := by decide
  exact List.all_eq_true.1 (hall k (mem_all k))

theorem Kind.name_ne_nil (k : Kind) : k.name.toList ≠ [] := by
  cases k <;> decide

/-- **The name of a kind can be read off the front of a text** that goes on with no capital. -/
theorem Kind.name_append_inj {j k : Kind} {rest rest' : List Char}
    (hrest : rest.head?.any Char.isUpper = false) (hrest' : rest'.head?.any Char.isUpper = false)
    (h : j.name.toList ++ rest = k.name.toList ++ rest') : j = k ∧ rest = rest' := by
  obtain ⟨hname, hlater⟩ := run_append_inj j.name_upper k.name_upper hrest hrest' h
  exact ⟨name_injective (String.toList_inj.1 hname), hlater⟩

/-- Tokens of one kind both have a text or both have none. -/
theorem Token.texts_of_kind {t t' : Token} (h : t.kind = t'.kind) :
    (t.text = none ∧ t'.text = none) ∨
      ∃ text text', t.text = some text ∧ t'.text = some text' := by
  have hsame : t.text.isSome = t'.text.isSome := by rw [t.text_isSome, t'.text_isSome, h]
  cases htext : t.text with
  | none =>
    rw [htext] at hsame
    exact .inl ⟨rfl, Option.isNone_iff_eq_none.1 (Option.isSome_eq_false_iff.1 hsame.symm)⟩
  | some text =>
    rw [htext] at hsame
    obtain ⟨text', htext'⟩ := Option.isSome_iff_exists.1 hsame.symm
    exact .inr ⟨text, text', rfl, htext'⟩

/-- A token is known from its parts. -/
theorem Token.eq_of_parts {t t' : Token} (hplace : t.place = t'.place) (hkind : t.kind = t'.kind)
    (htext : t.text = t'.text) : t = t' := by
  cases t
  cases t'
  cases hplace
  cases hkind
  cases htext
  rfl

end YaslLexis
