import Mathlib.Data.List.TakeWhile
import YaslLexis.Proofs.Pieces
import YaslLexis.Proofs.Vocabulary

/-!
# Pieces that fit

Which lists of pieces a text can be cut into. Whether a piece is cut off as it stands depends on its
own characters and on the first character behind it; so the pieces of a text can be changed one by
one, or written down in the first place, and the cut of the new text is known.

* `Lexical`, `goesOn` -- the lexemes, and the characters that would make one longer;
* `Piece.Fits` -- the piece in front of a text;
* `front_fits`, `front_of_fits` -- the front piece of a text is the one that fits;
* **`pieces_eq_iff`** -- the pieces of a text are those that spell it and fit one before the other.
-/

namespace YaslLexis

/-! ## 1. The class of a character, from what it is -/

theorem classOf_of_digit {c : Char} (h : Text.isDigit c = true) (hzero : c ≠ '0') :
    classOf c = .digit := by
  unfold classOf
  rw [if_neg hzero, if_pos h]

theorem classOf_of_letter {c : Char} (h : Text.isLetter c = true) : classOf c = .letter := by
  have hdigit : Text.isDigit c = false := Text.letter_not_digit h
  have hzero : c ≠ '0' := by
    rintro rfl
    exact absurd hdigit (by decide +kernel)
  unfold classOf
  rw [if_neg hzero, hdigit, if_neg Bool.false_ne_true, if_pos h]

theorem classOf_of_operator {c : Char} {kind : Kind} (h : Vocabulary.operator c = some kind) :
    classOf c = .operator := by
  have hall : ∀ entry ∈ Kind.operators, classOf entry.1 = .operator := by decide +kernel
  rw [← Kind.ofOperator?_eq] at h
  exact hall (c, kind) (Kind.ofOperator?_eq_some_iff.1 h)

theorem classOf_of_blank {c : Char} (h : Text.isBlank c = true) : classOf c = .blank := by
  have hspec := classOf_spec c
  cases hc : classOf c with
  | blank => rfl
  | illegal =>
    rw [hc] at hspec
    exact absurd (h.symm.trans hspec.2.2.2.2.2) (by decide)
  | zero =>
    rw [hc] at hspec
    obtain rfl : c = '0' := hspec
    exact absurd h (by decide +kernel)
  | slash =>
    rw [hc] at hspec
    obtain rfl : c = '/' := hspec
    exact absurd h (by decide +kernel)
  | digit =>
    rw [hc] at hspec
    exact absurd (h.symm.trans (Text.digit_not_blank hspec.2)) (by decide)
  | letter =>
    rw [hc] at hspec
    exact absurd (h.symm.trans (Text.letter_not_blank hspec.2.2)) (by decide)
  | operator =>
    rw [hc] at hspec
    obtain ⟨kind, hkind⟩ := Option.isSome_iff_exists.1 hspec.2.2.2
    have hall : ∀ entry ∈ Kind.operators, Text.isBlank entry.1 = false := by decide +kernel
    have hnot := hall (c, kind) (Kind.ofOperator?_eq_some_iff.1 hkind)
    exact absurd (h.symm.trans hnot) (by decide)

theorem classOf_slash : classOf '/' = .slash := by decide +kernel

namespace Machine

/-! ## 2. Lexemes -/

/-- The lexemes of a class. A zero is a number by itself. -/
inductive Lexical : LexemeClass → List Char → Prop where
  | zero : Lexical .number ['0']
  | number {c : Char} {cs : List Char} : c ≠ '0' → (∀ d ∈ c :: cs, Text.isDigit d = true) →
      Lexical .number (c :: cs)
  | word {c : Char} {cs : List Char} : Text.isLetter c = true →
      (∀ d ∈ cs, continuesWord d = true) → Lexical .word (c :: cs)
  | operator {c : Char} {kind : Kind} : Vocabulary.operator c = some kind → Lexical .operator [c]

/-- The character would make the lexeme longer. -/
def goesOn (sort : LexemeClass) (text : List Char) (c : Char) : Bool :=
  match sort with
  | .number => text ≠ ['0'] && Text.isDigit c
  | .word => continuesWord c
  | .operator => false

/-- Nothing but a letter or a digit makes a lexeme longer. -/
theorem goesOn_eq_false {c : Char} (h : continuesWord c = false) (sort : LexemeClass)
    (text : List Char) : goesOn sort text c = false := by
  cases sort with
  | number =>
    have hdigit : Text.isDigit c = false := (Bool.or_eq_false_iff.1 h).2
    rw [goesOn, hdigit, Bool.and_false]
  | word => exact h
  | operator => rfl

theorem Lexical.ne_nil {sort : LexemeClass} {text : List Char} (h : Lexical sort text) :
    text ≠ [] := by
  cases h <;> exact List.cons_ne_nil _ _

/-- A lexeme is on one line. -/
theorem Lexical.lineFeed_not_mem {sort : LexemeClass} {text : List Char} (h : Lexical sort text) :
    '\n' ∉ text := by
  have hdigit : Text.isDigit '\n' = false := by decide +kernel
  have hword : continuesWord '\n' = false := by decide +kernel
  have hletter : Text.isLetter '\n' = false := (Bool.or_eq_false_iff.1 hword).1
  intro hmem
  cases h with
  | zero => exact absurd hmem (by decide)
  | number _ hdigits =>
    have hyes := hdigits _ hmem
    rw [hdigit] at hyes
    cases hyes
  | word hfirst hlater =>
    rcases List.mem_cons.1 hmem with rfl | hmem
    · rw [hletter] at hfirst
      cases hfirst
    · have hyes := hlater _ hmem
      rw [hword] at hyes
      cases hyes
  | operator hkind =>
    obtain rfl := List.mem_singleton.1 hmem
    cases hkind

/-! ## 3. Pieces in front of a text -/

/-- The piece may stand in front of the text. -/
def Piece.Fits (rest : List Char) : Piece → Prop
  | lexeme sort text => Lexical sort text ∧ rest.head?.any (goesOn sort text) = false
  | blank c => classOf c = .blank
  | block body => ¬ closer <:+: body
  | line body => '\n' ∉ body ∧ rest.head?.all (· = '\n') = true
  | illegal c => classOf c = .illegal
  | stray found => rest.head? = found ∧ found ≠ some '*' ∧ found ≠ some '/'
  | unclosed body => rest = [] ∧ ¬ closer <:+: body

section Runs

variable {p : Char → Bool}

theorem head?_dropWhile (text : List Char) : (text.dropWhile p).head?.any p = false := by
  have hhead := List.head?_dropWhile_not p text
  cases hc : (text.dropWhile p).head? with
  | none => rfl
  | some c =>
    rw [hc] at hhead
    exact hhead

/-- A run of a class ends where the text goes on with a character outside it. -/
theorem takeWhile_append_stop {run rest : List Char} (hrun : ∀ c ∈ run, p c = true)
    (hrest : rest.head?.any p = false) : (run ++ rest).takeWhile p = run := by
  have hnone : rest.takeWhile p = [] := by
    cases rest with
    | nil => rfl
    | cons d ds => exact List.takeWhile_cons_of_neg (Bool.eq_false_iff.1 hrest)
  rw [List.takeWhile_append_of_pos hrun, hnone, List.append_nil]

/-- What follows the longest run is what is left when the run is dropped. -/
theorem eq_dropWhile_of_takeWhile {text rest : List Char} (h : text = text.takeWhile p ++ rest) :
    rest = text.dropWhile p := by
  have hboth : text.takeWhile p ++ text.dropWhile p = text := List.takeWhile_append_dropWhile
  exact List.append_cancel_left (h.symm.trans hboth.symm)

end Runs

/-! ## 4. The front piece is the one that fits -/

theorem not_mem_iff_forall_ne {body : List Char} :
    '\n' ∉ body ↔ ∀ c ∈ body, decide (c ≠ '\n') = true := by
  simp only [decide_eq_true_eq]
  constructor
  · intro h c hc heq
    exact h (heq ▸ hc)
  · intro h hmem
    exact h '\n' hmem rfl

theorem any_ne_eq_false_iff {head : Option Char} :
    head.any (· ≠ '\n') = false ↔ head.all (· = '\n') = true := by
  cases head <;> simp

/-- What a slash begins fits in front of what follows it. -/
theorem slashPiece_fits {cs rest : List Char} (h : '/' :: cs = (slashPiece cs).text ++ rest) :
    (slashPiece cs).Fits rest := by
  cases cs with
  | nil =>
    obtain rfl : rest = [] := by simpa [slashPiece, Piece.text] using h
    exact ⟨rfl, by decide, by decide⟩
  | cons d ds =>
    by_cases hstar : d = '*'
    · subst hstar
      rw [slashPiece, if_pos rfl] at h ⊢
      cases hbody : untilClosed ds with
      | some body => exact (untilClosed_eq_some_iff.1 hbody).1
      | none =>
        rw [hbody] at h
        obtain rfl : rest = [] := by simpa [Piece.text] using h
        exact ⟨rfl, untilClosed_eq_none_iff.1 hbody⟩
    · by_cases hslash : d = '/'
      · subst hslash
        rw [slashPiece, if_neg hstar, if_pos rfl] at h ⊢
        have hsplit : ds = ds.takeWhile (· ≠ '\n') ++ rest := by simpa [Piece.text] using h
        have hbody : ∀ c ∈ ds.takeWhile (· ≠ '\n'), decide (c ≠ '\n') = true :=
          fun c hc => List.mem_takeWhile_imp (p := (· ≠ '\n')) hc
        refine ⟨not_mem_iff_forall_ne.2 hbody, ?_⟩
        rw [eq_dropWhile_of_takeWhile hsplit]
        exact any_ne_eq_false_iff.1 (head?_dropWhile ds)
      · rw [slashPiece, if_neg hstar, if_neg hslash] at h ⊢
        obtain rfl : d :: ds = rest := by simpa [Piece.text] using h
        exact ⟨rfl, by simpa using hstar, by simpa using hslash⟩

/-- The longest run from a character on stops at what follows it. -/
theorem run_stops {p : Char → Bool} {c : Char} {cs rest : List Char}
    (h : c :: cs = (c :: cs.takeWhile p) ++ rest) : rest.head?.any p = false := by
  have hsplit : cs = cs.takeWhile p ++ rest := by simpa using h
  rw [eq_dropWhile_of_takeWhile hsplit]
  exact head?_dropWhile cs

/-- **The front piece fits.** -/
theorem front_fits {c : Char} {cs rest : List Char} (h : c :: cs = (front c cs).text ++ rest) :
    (front c cs).Fits rest := by
  have hspec := classOf_spec c
  cases hc : classOf c with
  | zero =>
    rw [hc] at hspec
    obtain rfl : c = '0' := hspec
    rw [front_zero cs hc]
    refine ⟨.zero, ?_⟩
    cases rest.head? <;> rfl
  | digit =>
    rw [hc] at hspec
    obtain ⟨hzero, hdigit⟩ := hspec
    rw [front_digit cs hc] at h ⊢
    have hstop := run_stops h
    refine ⟨.number hzero (List.forall_mem_cons.2 ⟨hdigit, fun d => List.mem_takeWhile_imp⟩), ?_⟩
    cases hhead : rest.head? with
    | none => rfl
    | some d =>
      rw [hhead] at hstop
      have hd : Text.isDigit d = false := hstop
      simp [goesOn, hd]
  | letter =>
    rw [hc] at hspec
    obtain ⟨-, -, hletter⟩ := hspec
    rw [front_letter cs hc] at h ⊢
    exact ⟨.word hletter fun d => List.mem_takeWhile_imp, run_stops h⟩
  | operator =>
    rw [hc] at hspec
    obtain ⟨kind, hkind⟩ := Option.isSome_iff_exists.1 hspec.2.2.2
    rw [Kind.ofOperator?_eq] at hkind
    rw [front_operator cs hc]
    refine ⟨.operator hkind, ?_⟩
    cases rest.head? <;> rfl
  | slash =>
    obtain rfl := eq_slash_of_classOf hc
    rw [front_slash cs hc] at h ⊢
    exact slashPiece_fits h
  | blank =>
    rw [front_blank cs hc]
    exact hc
  | illegal =>
    rw [front_illegal cs hc]
    exact hc

/-- **What fits is the front piece.** -/
theorem front_of_fits {piece : Piece} {rest : List Char} (h : piece.Fits rest) :
    ∃ c cs, piece.text ++ rest = c :: cs ∧ front c cs = piece := by
  cases piece with
  | lexeme sort text =>
    obtain ⟨hlexical, hstop⟩ := h
    cases hlexical with
    | zero => exact ⟨'0', rest, rfl, front_zero rest (by decide +kernel)⟩
    | @number c cs hzero hdigits =>
      obtain ⟨hdigit, hdigits'⟩ := List.forall_mem_cons.1 hdigits
      refine ⟨c, cs ++ rest, rfl, ?_⟩
      have hstop' : rest.head?.any Text.isDigit = false := by
        cases hhead : rest.head? with
        | none => rfl
        | some d =>
          rw [hhead] at hstop
          simpa [goesOn, hzero] using hstop
      rw [front_digit _ (classOf_of_digit hdigit hzero), takeWhile_append_stop hdigits' hstop']
    | @word c cs hletter hcs =>
      refine ⟨c, cs ++ rest, rfl, ?_⟩
      rw [front_letter _ (classOf_of_letter hletter), takeWhile_append_stop hcs hstop]
    | @operator c kind hkind =>
      exact ⟨c, rest, rfl, front_operator rest (classOf_of_operator hkind)⟩
  | blank c => exact ⟨c, rest, rfl, front_blank rest h⟩
  | illegal c => exact ⟨c, rest, rfl, front_illegal rest h⟩
  | block body =>
    refine ⟨'/', '*' :: (body ++ '*' :: '/' :: rest), by simp [Piece.text], ?_⟩
    rw [front_slash _ classOf_slash, slashPiece, if_pos rfl, untilClosed_append h]
  | line body =>
    obtain ⟨hbody, hstop⟩ := h
    refine ⟨'/', '/' :: (body ++ rest), rfl, ?_⟩
    rw [front_slash _ classOf_slash, slashPiece, if_neg (by decide), if_pos rfl,
      takeWhile_append_stop (not_mem_iff_forall_ne.1 hbody) (any_ne_eq_false_iff.2 hstop)]
  | stray found =>
    obtain ⟨rfl, hstar, hslash⟩ := h
    refine ⟨'/', rest, rfl, ?_⟩
    rw [front_slash _ classOf_slash]
    cases rest with
    | nil => rfl
    | cons d ds =>
      rw [slashPiece, if_neg (by simpa using hstar), if_neg (by simpa using hslash),
        List.head?_cons]
  | unclosed body =>
    obtain ⟨rfl, hbody⟩ := h
    refine ⟨'/', '*' :: body, by simp [Piece.text], ?_⟩
    rw [front_slash _ classOf_slash, slashPiece, if_pos rfl, untilClosed_eq_none_iff.2 hbody]

/-! ## 5. Lists of pieces -/

/-- Each piece fits in front of the text of the later ones. -/
inductive Fitting : List Piece → Prop where
  | nil : Fitting []
  | cons {piece : Piece} {later : List Piece} : piece.Fits (later.flatMap Piece.text) →
      Fitting later → Fitting (piece :: later)

theorem fitting_pieces (text : List Char) : Fitting (pieces text) := by
  induction text using pieces_induction with
  | nil =>
    rw [pieces_nil]
    exact .nil
  | cons c cs rest h ih =>
    rw [pieces_cons h]
    refine .cons ?_ ih
    rw [flatMap_text_pieces]
    exact front_fits h

/-- Each of the pieces fits in front of those behind it. -/
theorem Fitting.fits {before later : List Piece} {piece : Piece}
    (h : Fitting (before ++ piece :: later)) : piece.Fits (later.flatMap Piece.text) := by
  induction before with
  | nil =>
    obtain _ | ⟨hfits, -⟩ := h
    exact hfits
  | cons first before ih =>
    obtain _ | ⟨-, hlater⟩ := h
    exact ih hlater

/-- The lexemes among the pieces of a text are such. -/
theorem lexical_of_mem {text lexeme : List Char} {sort : LexemeClass}
    (h : Piece.lexeme sort lexeme ∈ pieces text) : Lexical sort lexeme := by
  obtain ⟨before, later, hsplit⟩ := List.append_of_mem h
  have hfits : (Piece.lexeme sort lexeme).Fits (later.flatMap Piece.text) :=
    Fitting.fits (hsplit ▸ fitting_pieces text)
  exact hfits.1

theorem Fitting.pieces_eq {ps : List Piece} (h : Fitting ps) :
    pieces (ps.flatMap Piece.text) = ps := by
  induction h with
  | nil => rw [List.flatMap_nil, pieces_nil]
  | @cons piece later hfits _ ih =>
    obtain ⟨c, cs, htext, hfront⟩ := front_of_fits hfits
    have hcut : c :: cs = (front c cs).text ++ later.flatMap Piece.text := by
      rw [hfront, htext]
    rw [List.flatMap_cons, htext, pieces_cons hcut, hfront, ih]

/-- **The pieces of a text** are those that spell it and fit one before the other. -/
theorem pieces_eq_iff {text : List Char} {ps : List Piece} :
    pieces text = ps ↔ Fitting ps ∧ ps.flatMap Piece.text = text := by
  constructor
  · rintro rfl
    exact ⟨fitting_pieces text, flatMap_text_pieces text⟩
  · rintro ⟨hfit, rfl⟩
    exact hfit.pieces_eq

end Machine

end YaslLexis
