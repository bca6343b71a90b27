import Mathlib.Data.List.TakeWhile
import YaslLexis.Proofs.WholeScans

/-!
# The lexical grammar

Which texts a scan has nothing to complain about, said as a grammar: a text is legal characters,
closed block comments and ended line comments one after the other, and at most one line comment
that runs to the end of the text.

* `Legal`, `Element`, `Last`, `Lawful` -- the grammar;
* `lawful_iff` -- a lawful text is a last comment, or an element in front of a lawful text;
* `lawful_legal_cons`, `lawful_block_iff`, `lawful_line_iff` -- what the first characters decide;
* `lawful_iff_pieces` -- a text is lawful if and only if no piece of it has a complaint;
* **`no_diagnostics_iff_lawful`** -- a scan reports nothing exactly on the lawful texts.
-/

namespace YaslLexis.Grammar

open Machine Report

/-! ## 1. The grammar -/

/-- A character that may stand by itself. -/
def Legal (c : Char) : Prop :=
  Text.isDigit c = true ∨ Text.isLetter c = true ∨ Text.isBlank c = true ∨
    c ∈ ['+', '-', '*', '=', ';', '.']

/-- What a text is made of. -/
inductive Element : List Char → Prop where
  | char {c : Char} : Legal c → Element [c]
  | block {body : List Char} : ¬ ['*', '/'] <:+: body →
      Element ('/' :: '*' :: (body ++ ['*', '/']))
  | line {body : List Char} : '\n' ∉ body → Element ('/' :: '/' :: (body ++ ['\n']))

/-- What may stand at the end of a text: nothing, or a line comment that no line feed ends. -/
inductive Last : List Char → Prop where
  | nothing : Last []
  | line {body : List Char} : '\n' ∉ body → Last ('/' :: '/' :: body)

/-- The texts of the grammar. -/
def Lawful (text : List Char) : Prop :=
  ∃ (elements : List (List Char)) (last : List Char),
    (∀ e ∈ elements, Element e) ∧ Last last ∧ text = elements.flatten ++ last

/-! ## 2. Legal characters -/

theorem mem_operators_iff {c : Char} :
    c ∈ ['+', '-', '*', '=', ';', '.'] ↔ (Kind.ofOperator? c).isSome = true := by
  constructor
  · intro h
    simp only [List.mem_cons, List.not_mem_nil, or_false] at h
    rcases h with rfl | rfl | rfl | rfl | rfl | rfl <;> rfl
  · intro h
    obtain ⟨kind, hkind⟩ := Option.isSome_iff_exists.1 h
    have hall : ∀ entry ∈ Kind.operators, entry.1 ∈ ['+', '-', '*', '=', ';', '.'] := by decide
    exact hall (c, kind) (Kind.ofOperator?_eq_some_iff.1 hkind)

/-- The legal characters are those of every class but two. -/
theorem legal_iff {c : Char} : Legal c ↔ classOf c ≠ .slash ∧ classOf c ≠ .illegal := by
  have hspec := classOf_spec c
  unfold Legal
  rw [mem_operators_iff]
  cases hc : classOf c with
  | zero =>
    rw [hc] at hspec
    obtain rfl : c = '0' := hspec
    exact ⟨fun _ => ⟨by decide, by decide⟩, fun _ => .inl (by decide +kernel)⟩
  | digit =>
    rw [hc] at hspec
    exact ⟨fun _ => ⟨by decide, by decide⟩, fun _ => .inl hspec.2⟩
  | letter =>
    rw [hc] at hspec
    exact ⟨fun _ => ⟨by decide, by decide⟩, fun _ => .inr (.inl hspec.2.2)⟩
  | operator =>
    rw [hc] at hspec
    exact ⟨fun _ => ⟨by decide, by decide⟩, fun _ => .inr (.inr (.inr hspec.2.2.2))⟩
  | blank =>
    rw [hc] at hspec
    obtain ⟨-, -, -, -, -, hblank⟩ := hspec
    exact ⟨fun _ => ⟨by decide, by decide⟩, fun _ => .inr (.inr (.inl hblank))⟩
  | slash =>
    rw [hc] at hspec
    obtain rfl : c = '/' := hspec
    exact ⟨fun h => absurd h (by decide +kernel), fun h => absurd rfl h.1⟩
  | illegal =>
    rw [hc] at hspec
    obtain ⟨-, hdigit, hletter, hoperator, -, hblank⟩ := hspec
    constructor
    · intro h
      simp [hdigit, hletter, hblank, hoperator] at h
    · intro h
      exact absurd rfl h.2

theorem not_legal_slash : ¬ Legal '/' := fun h =>
  (legal_iff.1 h).1 (by decide +kernel)

theorem legal_of_digit {c : Char} (h : Text.isDigit c = true) : Legal c := .inl h

theorem legal_of_continuesWord {c : Char} (h : continuesWord c = true) : Legal c := by
  rcases Bool.or_eq_true_iff.1 h with h | h
  · exact .inr (.inl h)
  · exact .inl h

theorem legal_lineFeed : Legal '\n' := .inr (.inr (.inl (by decide)))

/-! ## 3. What the first characters decide -/

/-- A lawful text is a last comment, or an element in front of a lawful text. -/
theorem lawful_iff {text : List Char} :
    Lawful text ↔ Last text ∨ ∃ e rest, Element e ∧ Lawful rest ∧ text = e ++ rest := by
  constructor
  · intro h
    obtain ⟨elements, last, hall, hlast, rfl⟩ := h
    cases elements with
    | nil => exact .inl hlast
    | cons e es =>
      refine .inr ⟨e, es.flatten ++ last, hall e List.mem_cons_self, ⟨es, last, ?_, hlast, rfl⟩, ?_⟩
      · exact fun e' hmem => hall e' (List.mem_cons_of_mem _ hmem)
      · rw [List.flatten_cons, List.append_assoc]
  · intro h
    rcases h with hlast | ⟨e, rest, he, ⟨elements, last, hall, hlast, rfl⟩, rfl⟩
    · exact ⟨[], text, by simp, hlast, rfl⟩
    · refine ⟨e :: elements, last, ?_, hlast, by rw [List.flatten_cons, List.append_assoc]⟩
      intro e' hmem
      rcases List.mem_cons.1 hmem with rfl | hmem
      · exact he
      · exact hall e' hmem

theorem lawful_nil : Lawful [] := lawful_iff.2 (.inl .nothing)

section Cons

variable {c : Char} {t : List Char}

/-- Nothing but a legal character or a comment begins a lawful text. -/
theorem lawful_cons_of_ne_slash (hc : c ≠ '/') : Lawful (c :: t) ↔ Legal c ∧ Lawful t := by
  constructor
  · intro h
    rcases lawful_iff.1 h with hlast | ⟨e, rest, he, hrest, heq⟩
    · cases hlast
      exact absurd rfl hc
    · cases he with
      | char hlegal =>
        obtain ⟨rfl, rfl⟩ := List.cons_eq_cons.1 heq
        exact ⟨hlegal, hrest⟩
      | block | line => exact absurd (List.cons_eq_cons.1 heq).1 hc
  · intro h
    exact lawful_iff.2 (.inr ⟨[c], t, .char h.1, h.2, rfl⟩)

theorem lawful_legal_cons (hc : Legal c) : Lawful (c :: t) ↔ Lawful t := by
  have hne : c ≠ '/' := by
    intro heq
    exact not_legal_slash (heq ▸ hc)
  rw [lawful_cons_of_ne_slash hne]
  exact and_iff_right hc

theorem lawful_legal_append {run : List Char} (hrun : ∀ c ∈ run, Legal c) :
    Lawful (run ++ t) ↔ Lawful t := by
  induction run with
  | nil => exact Iff.rfl
  | cons c run ih =>
    rw [List.cons_append, lawful_legal_cons (hrun c List.mem_cons_self)]
    exact ih fun d hd => hrun d (List.mem_cons_of_mem _ hd)

theorem lawful_block_iff : Lawful ('/' :: '*' :: t) ↔
    ∃ body rest, ¬ closer <:+: body ∧ t = body ++ '*' :: '/' :: rest ∧ Lawful rest := by
  constructor
  · intro h
    rcases lawful_iff.1 h with hlast | ⟨e, rest, he, hrest, heq⟩
    · cases hlast
    · cases he with
      | char hlegal =>
        obtain ⟨rfl, -⟩ := List.cons_eq_cons.1 heq
        exact absurd hlegal not_legal_slash
      | block hbody => exact ⟨_, rest, hbody, by simpa using heq, hrest⟩
      | line => simp at heq
  · intro h
    obtain ⟨body, rest, hbody, rfl, hrest⟩ := h
    exact lawful_iff.2 (.inr ⟨_, rest, .block hbody, hrest, by simp⟩)

theorem lawful_line_iff : Lawful ('/' :: '/' :: t) ↔
    '\n' ∉ t ∨ ∃ body rest, '\n' ∉ body ∧ t = body ++ '\n' :: rest ∧ Lawful rest := by
  constructor
  · intro h
    rcases lawful_iff.1 h with hlast | ⟨e, rest, he, hrest, heq⟩
    · cases hlast with
      | line hbody => exact .inl hbody
    · cases he with
      | char hlegal =>
        obtain ⟨rfl, -⟩ := List.cons_eq_cons.1 heq
        exact absurd hlegal not_legal_slash
      | block => simp at heq
      | line hbody => exact .inr ⟨_, rest, hbody, by simpa using heq, hrest⟩
  · intro h
    rcases h with ht | ⟨body, rest, hbody, rfl, hrest⟩
    · exact lawful_iff.2 (.inl (.line ht))
    · exact lawful_iff.2 (.inr ⟨_, rest, .line hbody, hrest, by simp⟩)

/-- A slash with anything else behind it is not lawful. -/
theorem not_lawful_slash (hstar : t.head? ≠ some '*') (hslash : t.head? ≠ some '/') :
    ¬ Lawful ('/' :: t) := by
  intro h
  rcases lawful_iff.1 h with hlast | ⟨e, rest, he, -, heq⟩
  · cases hlast
    exact hslash rfl
  · cases he with
    | char hlegal =>
      obtain ⟨rfl, -⟩ := List.cons_eq_cons.1 heq
      exact not_legal_slash hlegal
    | block =>
      obtain ⟨-, rfl⟩ := List.cons_eq_cons.1 heq
      exact hstar rfl
    | line =>
      obtain ⟨-, rfl⟩ := List.cons_eq_cons.1 heq
      exact hslash rfl

end Cons

/-! ## 4. Comments, to where they end -/

theorem dropWhile_line {body : List Char} (h : '\n' ∉ body) (rest : List Char) :
    (body ++ '\n' :: rest).dropWhile (· ≠ '\n') = '\n' :: rest := by
  have hall : ∀ c ∈ body, decide (c ≠ '\n') = true := by
    intro c hc
    have hne : c ≠ '\n' := by
      intro heq
      exact h (heq ▸ hc)
    exact decide_eq_true hne
  rw [List.dropWhile_append_of_pos hall, List.dropWhile_cons_of_neg (by simp)]

/-- A line comment ends at its line feed, which may stand by itself. -/
theorem lawful_line_cons (t : List Char) :
    Lawful ('/' :: '/' :: t) ↔ Lawful (t.dropWhile (· ≠ '\n')) := by
  rw [lawful_line_iff]
  by_cases hmem : '\n' ∈ t
  · obtain ⟨body, rest, rfl, hbody⟩ := List.eq_append_cons_of_mem hmem
    rw [dropWhile_line hbody, lawful_legal_cons legal_lineFeed]
    constructor
    · intro h
      rcases h with hnot | ⟨body', rest', hbody', heq, hrest'⟩
      · exact absurd hmem hnot
      · have hdrop : '\n' :: rest = '\n' :: rest' := by
          rw [← dropWhile_line hbody rest, heq, dropWhile_line hbody']
        obtain ⟨-, rfl⟩ := List.cons_eq_cons.1 hdrop
        exact hrest'
    · intro hrest
      exact .inr ⟨body, rest, hbody, rfl, hrest⟩
  · have hdrop : t.dropWhile (· ≠ '\n') = [] := by
      rw [List.dropWhile_eq_nil_iff]
      intro c hc
      have hne : c ≠ '\n' := by
        intro heq
        exact hmem (heq ▸ hc)
      exact decide_eq_true hne
    rw [hdrop]
    exact ⟨fun _ => lawful_nil, fun _ => .inl hmem⟩

/-- A block comment ends at the first star and slash. -/
theorem lawful_block_append {body : List Char} (hbody : ¬ closer <:+: body) (rest : List Char) :
    Lawful ('/' :: '*' :: (body ++ '*' :: '/' :: rest)) ↔ Lawful rest := by
  rw [lawful_block_iff]
  constructor
  · intro h
    obtain ⟨body', rest', hbody', heq, hrest'⟩ := h
    have huntil : some body = some body' := by
      rw [← untilClosed_append hbody rest, heq, untilClosed_append hbody' rest']
    obtain rfl := Option.some.inj huntil
    have htail : '*' :: '/' :: rest = '*' :: '/' :: rest' := List.append_cancel_left heq
    obtain rfl : rest = rest' := by simpa using htail
    exact hrest'
  · intro hrest
    exact ⟨body, rest, hbody, rfl, hrest⟩

theorem not_lawful_unclosed {t : List Char} (h : ¬ closer <:+: t) : ¬ Lawful ('/' :: '*' :: t) := by
  rw [lawful_block_iff]
  intro hlawful
  obtain ⟨body, rest, -, rfl, -⟩ := hlawful
  exact h ⟨body, rest, by simp [closer]⟩

/-! ## 5. Pieces without complaints -/

/-- What a slash begins is lawful if it is a comment that ends. -/
theorem lawful_slash_iff {cs rest : List Char} (h : '/' :: cs = (slashPiece cs).text ++ rest) :
    Lawful ('/' :: cs) ↔ (slashPiece cs).complaint? = none ∧ Lawful rest := by
  cases cs with
  | nil => simpa [slashPiece, Piece.complaint?] using not_lawful_slash (t := []) (by simp) (by simp)
  | cons d ds =>
    by_cases hstar : d = '*'
    · subst hstar
      rw [slashPiece, if_pos rfl] at h ⊢
      cases hbody : untilClosed ds with
      | none =>
        have hnot := not_lawful_unclosed (untilClosed_eq_none_iff.1 hbody)
        simpa [Piece.complaint?] using hnot
      | some body =>
        obtain ⟨hfree, rest', rfl⟩ := untilClosed_eq_some_iff.1 hbody
        rw [hbody] at h
        obtain rfl : rest' = rest := by simpa [Piece.text] using h
        rw [lawful_block_append hfree]
        exact (and_iff_right rfl).symm
    · by_cases hslash : d = '/'
      · subst hslash
        rw [slashPiece, if_neg hstar, if_pos rfl] at h ⊢
        obtain rfl : ds.dropWhile (· ≠ '\n') = rest := by
          have hsplit : ds = ds.takeWhile (· ≠ '\n') ++ rest := by simpa [Piece.text] using h
          have hboth := List.takeWhile_append_dropWhile (p := (· ≠ '\n')) (l := ds)
          exact List.append_cancel_left (hboth.trans hsplit)
        rw [lawful_line_cons]
        exact (and_iff_right rfl).symm
      · have hnot : ¬ Lawful ('/' :: d :: ds) :=
          not_lawful_slash (by simpa using hstar) (by simpa using hslash)
        rw [slashPiece, if_neg hstar, if_neg hslash]
        simpa [Piece.complaint?] using hnot

/-- A front piece without a complaint may stand in front of a lawful text, and no other may. -/
theorem lawful_front_iff {c : Char} {cs rest : List Char}
    (h : c :: cs = (front c cs).text ++ rest) :
    Lawful (c :: cs) ↔ (front c cs).complaint? = none ∧ Lawful rest := by
  have hclass (hs : classOf c ≠ .slash) (hi : classOf c ≠ .illegal) : Legal c :=
    legal_iff.2 ⟨hs, hi⟩
  cases hc : classOf c with
  | slash =>
    obtain rfl := eq_slash_of_classOf hc
    rw [front_slash cs hc] at h ⊢
    exact lawful_slash_iff h
  | illegal =>
    have hillegal : ¬ Legal c := fun hlegal => (legal_iff.1 hlegal).2 hc
    have hne : c ≠ '/' := by
      intro heq
      rw [heq] at hc
      exact absurd hc (by decide +kernel)
    rw [front_illegal cs hc, lawful_cons_of_ne_slash hne]
    simp [hillegal, Piece.complaint?]
  | zero | operator | blank =>
    have hlegal : Legal c := hclass (by rw [hc]; decide) (by rw [hc]; decide)
    simp only [front, hc] at h ⊢
    obtain rfl : cs = rest := by simpa [Piece.text] using h
    rw [lawful_legal_cons hlegal]
    exact (and_iff_right rfl).symm
  | digit =>
    have hlegal : Legal c := hclass (by rw [hc]; decide) (by rw [hc]; decide)
    rw [front_digit cs hc] at h ⊢
    rw [h, Piece.text, List.cons_append, lawful_legal_cons hlegal,
      lawful_legal_append fun d hd => legal_of_digit (List.mem_takeWhile_imp hd)]
    exact (and_iff_right rfl).symm
  | letter =>
    have hlegal : Legal c := hclass (by rw [hc]; decide) (by rw [hc]; decide)
    rw [front_letter cs hc] at h ⊢
    rw [h, Piece.text, List.cons_append, lawful_legal_cons hlegal,
      lawful_legal_append fun d hd => legal_of_continuesWord (List.mem_takeWhile_imp hd)]
    exact (and_iff_right rfl).symm

theorem lawful_iff_pieces (text : List Char) :
    Lawful text ↔ ∀ piece ∈ pieces text, piece.complaint? = none := by
  induction text using pieces_induction with
  | nil => simp [lawful_nil]
  | cons c cs rest h ih => rw [lawful_front_iff h, pieces_cons h, List.forall_mem_cons, ih]

theorem reports_eq_nil_iff (file : String) (text : List Char) (place : Place) :
    reports file text place = [] ↔ ∀ piece ∈ pieces text, piece.complaint? = none := by
  unfold reports
  induction pieces text generalizing place with
  | nil => simp [along]
  | cons piece later ih =>
    rw [along, List.append_eq_nil_iff, ih, List.forall_mem_cons]
    simp [Piece.report?]

/-- **A scan reports nothing exactly on the lawful texts**, and it always comes to the end. -/
theorem no_diagnostics_iff_lawful {options : Options} (hline : 1 ≤ options.line)
    (text : List Char) :
    (collected options text).failure = none ∧
      ((collected options text).diagnostics = [] ↔ Lawful text) := by
  obtain ⟨hfail, -, hdiag⟩ := collected_spec hline text
  rw [hdiag, reports_eq_nil_iff]
  exact ⟨hfail, (lawful_iff_pieces text).symm⟩

/-- A block comment whose body ends in a star, and a line comment at the end. -/
theorem no_diagnostics_of_comments :
    (1 : Int) ≤ 3 ∧
      (collected { line := 3 } ['/', '*', '*', '*', '/', '/', '/']).diagnostics = [] := by
  have hblock : Element ['/', '*', '*', '*', '/'] :=
    Element.block (show ¬ ['*', '/'] <:+: ['*'] by decide)
  have hlast : Last ['/', '/'] := Last.line (show '\n' ∉ [] by simp)
  have hlawful : Lawful ['/', '*', '*', '*', '/', '/', '/'] :=
    ⟨[['/', '*', '*', '*', '/']], ['/', '/'], by simpa using hblock, hlast, rfl⟩
  have hline : (1 : Int) ≤ ({ line := 3 } : Options).line := by decide
  exact ⟨by decide, (no_diagnostics_iff_lawful hline _).2.2 hlawful⟩

end YaslLexis.Grammar
