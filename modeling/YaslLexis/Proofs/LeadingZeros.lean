import YaslLexis.Proofs.Spelling

/-!
# Zeros in front of numbers

A zero is a number by itself, and no number begins with one. But the character `0` alone is a zero to
the automaton, while every decimal digit may stand in a number. So a zero of another script begins a
number like any other digit, and takes the digits behind it along.

* `Text.NoLeadingZero` -- the numerals that the rule allows, by the values of their digits in any
  script; `Text.isDigit_iff_value` -- the digits are the characters with a value;
* `Text.ZeroLed`, `Lexical.noLeadingZero_iff` -- the numbers that break the rule;
* `number_mem_iff` -- the number tokens of a scan are the numbers among the lexemes of the text;
* `next_of_number`, `next_of_foreign_zero` -- what a call in front of a number gives;
* **`leading_zeros`** -- a scan keeps the rule exactly if no number in the text begins with a zero of
  another script and goes on.
-/

namespace YaslLexis

/-! ## 1. Values of digits -/

namespace Text

/-- One zero, or digits of which the first is none, in any script. -/
inductive NoLeadingZero : List Char → Prop where
  | zero {c : Char} : digitValue c = some 0 → NoLeadingZero [c]
  | other {c : Char} {cs : List Char} {value : Nat} : digitValue c = some value → value ≠ 0 →
      NoLeadingZero (c :: cs)

/-- It begins with a zero that is not `0`, and goes on. -/
def ZeroLed (ds : List Char) : Prop :=
  ∃ c cs, ds = c :: cs ∧ cs ≠ [] ∧ c ≠ '0' ∧ digitValue c = some 0

/-- The digits are the characters that have a value. -/
theorem isDigit_iff_value {c : Char} : isDigit c = true ↔ ∃ value, digitValue c = some value := by
  have hsome : (digitValue c).isSome = true ↔ ∃ s ∈ digits.spans, s.Holds c.toNat := by
    unfold digitValue
    rw [Option.isSome_map, List.find?_isSome]
    simp
  rw [← Option.isSome_iff_exists, hsome]
  exact CodeSet.has_iff

theorem digitValue_zero : digitValue '0' = some 0 := by decide +kernel

/-- Where the first digit is a zero there may be no other one. -/
theorem noLeadingZero_cons_iff {c : Char} {cs : List Char} (h : isDigit c = true) :
    NoLeadingZero (c :: cs) ↔ (digitValue c = some 0 → cs = []) := by
  obtain ⟨value, hvalue⟩ := isDigit_iff_value.1 h
  constructor
  · intro hrule hzero
    cases hrule with
    | zero => rfl
    | other hother hne =>
      rw [hzero] at hother
      exact absurd (Option.some.inj hother).symm hne
  · intro hrule
    by_cases hne : value = 0
    · subst hne
      obtain rfl := hrule hvalue
      exact .zero hvalue
    · exact .other hvalue hne

end Text

namespace Machine

open Report Text

/-! ## 2. Numbers -/

namespace Lexical

variable {lexeme : List Char} (h : Lexical .number lexeme)
include h

theorem digits : ∀ d ∈ lexeme, isDigit d = true := by
  cases h with
  | zero => exact List.forall_mem_singleton.2 (isDigit_iff_value.2 ⟨0, digitValue_zero⟩)
  | number _ hdigits => exact hdigits

/-- A number that begins with `0` is that zero. -/
theorem alone (hhead : lexeme.head? = some '0') : lexeme = ['0'] := by
  cases h with
  | zero => rfl
  | number hzero => exact absurd (Option.some.inj hhead) hzero

/-- **A number keeps the rule unless it begins with a zero other than `0`** and goes on. -/
theorem noLeadingZero_iff : NoLeadingZero lexeme ↔ ¬ ZeroLed lexeme := by
  obtain ⟨c, cs, rfl⟩ := List.exists_cons_of_ne_nil h.ne_nil
  have hdigit : isDigit c = true := h.digits c List.mem_cons_self
  rw [noLeadingZero_cons_iff hdigit]
  constructor
  · rintro hrule ⟨d, ds, heq, hne, -, hzero⟩
    obtain ⟨rfl, rfl⟩ := List.cons_eq_cons.1 heq
    exact hne (hrule hzero)
  · intro hnot hzero
    by_cases hc : c = '0'
    · subst hc
      exact (List.cons_eq_cons.1 (h.alone rfl)).2
    · exact Classical.byContradiction fun hne => hnot ⟨c, cs, rfl, hne, hc, hzero⟩

end Lexical

/-- What spells a number token is a number, and its text. -/
theorem Spells.lexical_number {lexeme : List Char} {text : Option String}
    (h : Spells lexeme .number text) :
    Lexical .number lexeme ∧ text = some (String.ofList lexeme) := by
  generalize hkind : Kind.number = kind at h
  cases h with
  | zero => exact ⟨.zero, rfl⟩
  | number hzero hdigits => exact ⟨.number hzero hdigits, rfl⟩
  | identifier => cases hkind
  | keyword hword =>
    subst hkind
    rw [← Kind.ofWord?_eq] at hword
    exact absurd (Kind.ofWord?_spec hword).1 (by decide)
  | operator hsign =>
    subst hkind
    rw [← Kind.ofOperator?_eq] at hsign
    exact absurd (Kind.ofOperator?_spec hsign).1 (by decide)

/-- A number spells a number token alone. -/
theorem Lexical.kind_number {lexeme : List Char} (h : Lexical .number lexeme) {kind : Kind}
    {text : Option String} (hspells : Spells lexeme kind text) :
    kind = .number ∧ text = some (String.ofList lexeme) := by
  obtain ⟨sort, hlexical, hclass⟩ := hspells.classify
  obtain rfl : sort = .number := hlexical.unique h
  cases hclass
  exact ⟨rfl, rfl⟩

/-! ## 3. The numbers of a scan -/

theorem lexical_of_mem_lexemes {text lexeme : List Char} {sort : LexemeClass}
    (h : (sort, lexeme) ∈ lexemes text) : Lexical sort lexeme ∧ lexeme <:+: text := by
  obtain ⟨piece, hmem, hpiece⟩ := List.mem_filterMap.1 h
  cases piece with
  | lexeme sort' lexeme' =>
    cases hpiece
    obtain ⟨before, later, hsplit⟩ := List.append_of_mem hmem
    refine ⟨lexical_of_mem hmem, before.flatMap Piece.text, later.flatMap Piece.text, ?_⟩
    rw [← flatMap_text_pieces text, hsplit, List.flatMap_append, List.flatMap_cons,
      List.append_assoc]
    rfl
  | blank | block | line | illegal | stray | unclosed => cases hpiece

/-- **The number tokens of a scan are the numbers among the lexemes of the text.** -/
theorem number_mem_iff {options : Options} (hline : 1 ≤ options.line) {text lexeme : List Char} :
    (.number, lexeme) ∈ lexemes text ↔ ∃ t ∈ (collected options text).tokens,
      t.kind = .number ∧ t.text = some (String.ofList lexeme) := by
  obtain ⟨tokens, stop, hsplit, hstop, hspelled⟩ := tokens_spell hline text
  obtain ⟨hgiven, hread⟩ := exists_of_forall₂ hspelled
  rw [hsplit]
  constructor
  · intro hmem
    obtain ⟨t, ht, hspells⟩ := hgiven _ hmem
    obtain ⟨hlexical, -⟩ := lexical_of_mem_lexemes hmem
    exact ⟨t, List.mem_append_left _ ht, hlexical.kind_number hspells⟩
  · rintro ⟨t, hmem, hkind, htext⟩
    rcases List.mem_append.1 hmem with ht | ht
    · obtain ⟨⟨sort, found⟩, hfound, hspells⟩ := hread t ht
      rw [hkind] at hspells
      obtain ⟨hlexical, hsame⟩ := hspells.lexical_number
      obtain rfl : sort = .number := (lexical_of_mem_lexemes hfound).1.unique hlexical
      rw [htext] at hsame
      obtain rfl : lexeme = found := String.ofList_injective (Option.some.inj hsame)
      exact hfound
    · rw [List.mem_singleton.1 ht, hstop] at hkind
      cases hkind

/-- Each number token has a number of the text as its text. -/
theorem exists_number {options : Options} (hline : 1 ≤ options.line) {text : List Char} {t : Token}
    (h : t ∈ (collected options text).tokens) (hkind : t.kind = .number) :
    ∃ lexeme, t.text = some (String.ofList lexeme) ∧ (.number, lexeme) ∈ lexemes text := by
  have hcarries : t.text.isSome = true := by
    rw [t.text_isSome, hkind]
    rfl
  obtain ⟨txt, htxt⟩ := Option.isSome_iff_exists.1 hcarries
  have htext : t.text = some (String.ofList txt.toList) := by rw [htxt, String.ofList_toList]
  exact ⟨txt.toList, htext, (number_mem_iff hline).2 ⟨t, h, hkind, htext⟩⟩

/-! ## 4. Calls in front of a number -/

section Calls

variable {σ : Type} [Observer σ] {s : Scan σ} {place : Place}

/-- A call in front of a number gives its token, unless what follows makes the number longer. -/
theorem next_of_number {lexeme rest : List Char} (h : s.ahead.At (lexeme ++ rest) place)
    (hplace : place.Counted) (hlexical : Lexical .number lexeme)
    (hstop : rest.head?.any (goesOn .number lexeme) = false) :
    ∃ t, s.next.2 = .ok t ∧ t.place = place ∧ t.content = (.number, some (String.ofList lexeme)) ∧
      s.next.1.ahead.At rest (place.afterAll lexeme) := by
  have hfits : (Piece.lexeme .number lexeme).Fits rest := ⟨hlexical, hstop⟩
  obtain ⟨c, cs, htext, hfront⟩ := front_of_fits hfits
  have hcut : c :: cs = (front c cs).text ++ rest := by rw [hfront, ← htext]
  have hclass : classify .number (String.ofList lexeme) =
      .ok (.number, some (String.ofList lexeme)) := rfl
  obtain ⟨t, ht, hat, hkind, hkept⟩ :=
    token_of_classify (l := ⟨place, String.ofList lexeme⟩) hplace hclass
  have hrun : run s.opening = (s.past lexeme, .ok t) := by
    have hfollow : run s.opening = follow (pieces (lexeme ++ rest)) s := run_eq_follow h rfl
    rw [hfollow, show lexeme ++ rest = c :: cs from htext, pieces_cons hcut, hfront, follow,
      h.place, ht]
  have hpast : (s.past lexeme).ahead.At rest (place.afterAll lexeme) := LookAhead.At.past lexeme h
  unfold Scan.next
  rw [hrun]
  exact ⟨t, rfl, hat, congrArg₂ Prod.mk hkind hkept, hpast⟩

/-- A zero `0` is a token by itself, whatever follows it. -/
theorem next_of_zero {rest : List Char} (h : s.ahead.At ('0' :: rest) place)
    (hplace : place.Counted) :
    ∃ t, s.next.2 = .ok t ∧ t.place = place ∧ t.content = (.number, some "0") ∧
      s.next.1.ahead.At rest (place.after '0') := by
  have hstop : rest.head?.any (goesOn .number ['0']) = false := by
    cases rest <;> rfl
  have hcut : s.ahead.At (['0'] ++ rest) place := h
  exact next_of_number hcut hplace .zero hstop

/-- A zero of another script takes all the digits behind it along. -/
theorem next_of_foreign_zero {c : Char} {cs rest : List Char}
    (h : s.ahead.At (c :: cs ++ rest) place) (hplace : place.Counted) (hother : c ≠ '0')
    (hzero : digitValue c = some 0) (hcs : ∀ d ∈ cs, isDigit d = true)
    (hrest : rest.head?.any isDigit = false) :
    ∃ t, s.next.2 = .ok t ∧ t.place = place ∧
      t.content = (.number, some (String.ofList (c :: cs))) ∧
      s.next.1.ahead.At rest (place.afterAll (c :: cs)) := by
  have hdigits : ∀ d ∈ c :: cs, isDigit d = true :=
    List.forall_mem_cons.2 ⟨isDigit_iff_value.2 ⟨0, hzero⟩, hcs⟩
  have hstop : rest.head?.any (goesOn .number (c :: cs)) = false := by
    cases rest with
    | nil => rfl
    | cons d ds =>
      have hd : isDigit d = false := hrest
      simp [goesOn, hd]
  exact next_of_number h hplace (.number hother hdigits) hstop

end Calls

/-! ## 5. All scans -/

/-- **Leading zeros.** The whole scan of a text, from a counted line on, has no number token with a
    leading zero exactly if no number among the lexemes of the text begins with a zero of another
    script than that of `0` and goes on; so there is none if the text holds no other zeros than `0`.
    The text of every number token is a part of the scanned one and made of digits, and it is `0` if
    it begins with `0`.

    And wherever a call begins from a counted place on: in front of `0` it gives that zero alone,
    whatever follows; in front of a zero of another script it gives one number with all the digits
    that follow, which has a leading zero if there are any. -/
theorem leading_zeros {options : Options} (hline : 1 ≤ options.line) (text : List Char) :
    ((∀ t ∈ (collected options text).tokens, t.kind = .number →
        ∃ ds, t.text = some (String.ofList ds) ∧ NoLeadingZero ds) ↔
      ∀ ds, (.number, ds) ∈ lexemes text → ¬ ZeroLed ds) ∧
    ((∀ c ∈ text, digitValue c = some 0 → c = '0') →
      ∀ ds, (.number, ds) ∈ lexemes text → ¬ ZeroLed ds) ∧
    (∀ t ∈ (collected options text).tokens, t.kind = .number →
      ∃ ds, t.text = some (String.ofList ds) ∧ ds <:+: text ∧ (∀ d ∈ ds, isDigit d = true) ∧
        (ds.head? = some '0' → ds = ['0'])) ∧
    ∀ (σ : Type) [Observer σ] (s : Scan σ) (place : Place), place.Counted →
      (∀ rest, s.ahead.At ('0' :: rest) place → ∃ t, s.next.2 = .ok t ∧ t.place = place ∧
        t.content = (.number, some "0") ∧ s.next.1.ahead.At rest (place.after '0')) ∧
      ∀ c cs rest, s.ahead.At (c :: cs ++ rest) place → c ≠ '0' → digitValue c = some 0 →
        (∀ d ∈ cs, isDigit d = true) → rest.head?.any isDigit = false →
        ∃ t, s.next.2 = .ok t ∧ t.place = place ∧
          t.content = (.number, some (String.ofList (c :: cs))) ∧
          s.next.1.ahead.At rest (place.afterAll (c :: cs)) ∧
          (NoLeadingZero (c :: cs) ↔ cs = []) := by
  refine ⟨⟨?_, ?_⟩, ?_, ?_, fun σ _ s place hplace => ⟨?_, ?_⟩⟩
  · intro hrule ds hmem
    obtain ⟨t, ht, hkind, htext⟩ := (number_mem_iff hline).1 hmem
    obtain ⟨ds', htext', hkept⟩ := hrule t ht hkind
    rw [htext] at htext'
    obtain rfl : ds = ds' := String.ofList_injective (Option.some.inj htext')
    exact (lexical_of_mem_lexemes hmem).1.noLeadingZero_iff.1 hkept
  · intro hrule t ht hkind
    obtain ⟨ds, htext, hmem⟩ := exists_number hline ht hkind
    exact ⟨ds, htext, (lexical_of_mem_lexemes hmem).1.noLeadingZero_iff.2 (hrule ds hmem)⟩
  · rintro hzeros ds hmem ⟨c, cs, rfl, -, hother, hzero⟩
    have hpart := (lexical_of_mem_lexemes hmem).2
    exact hother (hzeros c (hpart.subset List.mem_cons_self) hzero)
  · intro t ht hkind
    obtain ⟨ds, htext, hmem⟩ := exists_number hline ht hkind
    obtain ⟨hlexical, hpart⟩ := lexical_of_mem_lexemes hmem
    exact ⟨ds, htext, hpart, hlexical.digits, hlexical.alone⟩
  · intro rest h
    exact next_of_zero h hplace
  · intro c cs rest h hother hzero hcs hrest
    obtain ⟨t, ht, hat, hcontent, hlater⟩ := next_of_foreign_zero h hplace hother hzero hcs hrest
    have hdigit : isDigit c = true := isDigit_iff_value.2 ⟨0, hzero⟩
    refine ⟨t, ht, hat, hcontent, hlater, ?_⟩
    rw [noLeadingZero_cons_iff hdigit]
    simp [hzero]

/-- A number that a zero of another script begins, on line five; and `007` there, which has no zeros
    but `0`. -/
theorem leading_zeros_two_scripts :
    let options : Options := { line := 5 }
    let s : Scan Collector := openText options ['\u0660', '\u0667', ';'] {}
    (1 : Int) ≤ options.line ∧ (⟨5, 1⟩ : Place).Counted ∧
      s.ahead.At ['\u0660', '\u0667', ';'] ⟨5, 1⟩ ∧ digitValue '\u0660' = some 0 ∧
      (∃ t, s.next.2 = .ok t ∧ t.content = (.number, some "\u0660\u0667")) ∧
      ¬ NoLeadingZero ['\u0660', '\u0667'] ∧
      (∀ c ∈ ['0', '0', '7'], digitValue c = some 0 → c = '0') ∧
      (∃ t ∈ (collected options ['0', '0', '7']).tokens, t.kind = .number) ∧
      ∀ t ∈ (collected options ['0', '0', '7']).tokens, t.kind = .number →
        ∃ ds, t.text = some (String.ofList ds) ∧ NoLeadingZero ds := by
  intro options s
  have hline : (1 : Int) ≤ options.line := by decide
  have hplace : (⟨5, 1⟩ : Place).Counted := by decide
  have hat : s.ahead.At ['\u0660', '\u0667', ';'] ⟨5, 1⟩ := at_openText _ _ _
  have hzero : digitValue '\u0660' = some 0 := by decide +kernel
  have hstop : [';'].head?.any isDigit = false := by decide +kernel
  have hdigits : ∀ d ∈ ['\u0667'], isDigit d = true :=
    List.forall_mem_singleton.2 (by decide +kernel)
  have honly : ∀ c ∈ ['0', '0', '7'], digitValue c = some 0 → c = '0' := by
    intro c hc hvalue
    obtain rfl | rfl : c = '0' ∨ c = '7' := by simpa using hc
    · rfl
    · exact absurd hvalue (by decide +kernel)
  have hfound : ∃ t ∈ (collected options ['0', '0', '7']).tokens, t.kind = .number := by
    decide +kernel
  obtain ⟨-, -, -, hcalls⟩ := leading_zeros hline ['\u0660', '\u0667', ';']
  obtain ⟨hrule, hplain, -⟩ := leading_zeros hline ['0', '0', '7']
  obtain ⟨-, hforeign⟩ := hcalls Collector s ⟨5, 1⟩ hplace
  obtain ⟨t, ht, -, hcontent, -, halone⟩ :=
    hforeign '\u0660' ['\u0667'] [';'] hat (by decide) hzero hdigits hstop
  refine ⟨hline, hplace, hat, hzero, ⟨t, ht, hcontent⟩, ?_, honly, hfound, hrule.2 (hplain honly)⟩
  simp [halone]

/-- Two zeros and a seven: with `0` they are three numbers, and in another script they are one, which
    has leading zeros. So there are scans that do not keep the rule. -/
theorem foreign_zeros_lead :
    (collected {} ['0', '0', '7']).tokens.map Token.content =
        [(.number, some "0"), (.number, some "0"), (.number, some "7"), (.eof, none)] ∧
      (collected {} ['\u0660', '\u0660', '\u0667']).tokens.map Token.content =
        [(.number, some "\u0660\u0660\u0667"), (.eof, none)] ∧
      ¬ ∀ (options : Options) (text : List Char), 1 ≤ options.line →
        ∀ t ∈ (collected options text).tokens, t.kind = .number →
          ∃ ds, t.text = some (String.ofList ds) ∧ NoLeadingZero ds := by
  have hone : (collected {} ['\u0660', '\u0660', '\u0667']).tokens.map Token.content =
      [(.number, some "\u0660\u0660\u0667"), (.eof, none)] := by decide +kernel
  refine ⟨by decide +kernel, hone, fun hrule => ?_⟩
  obtain ⟨t, hmem, hcontent⟩ : ∃ t ∈ (collected {} ['\u0660', '\u0660', '\u0667']).tokens,
      t.content = (.number, some "\u0660\u0660\u0667") := by
    rw [← List.mem_map, hone]
    exact List.mem_cons_self
  have hkind : t.kind = .number := congrArg Prod.fst hcontent
  have htext : t.text = some "\u0660\u0660\u0667" := congrArg Prod.snd hcontent
  obtain ⟨ds, hds, hkept⟩ := hrule {} _ (by decide) t hmem hkind
  obtain rfl : ['\u0660', '\u0660', '\u0667'] = ds := by
    rw [htext] at hds
    rw [← String.toList_ofList (l := ds), ← Option.some.inj hds]
    decide +kernel
  have hdigit : isDigit '\u0660' = true := by decide +kernel
  have hzero : digitValue '\u0660' = some 0 := by decide +kernel
  have hnone := (noLeadingZero_cons_iff hdigit).1 hkept hzero
  cases hnone

end Machine

end YaslLexis
