import YaslLexis.Proofs.Grammar
import YaslLexis.Proofs.Spelling

/-!
# Scanning undoes writing

Lexemes written one after the other, with blanks and comments between them wherever two of them
would become one, are found again, and nothing else is.

* `Trivium`, `Written`, `Entry` -- gaps, lexemes, and lexemes with the gap before them;
* `Written.Merges`, `Separated` -- which lexemes need a gap between them;
* `pieces_written` -- what is written is cut into the trivia and lexemes of which it was made;
* `written_spaced` -- lexemes joined by single spaces are written so;
* **`collected_written`** -- the scan of what is written gives its lexemes, and the lexemes of any
  scan, joined by spaces, are read again as they were.
-/

namespace YaslLexis.Writing

open Machine Report

/-! ## 1. What is written -/

/-- Something between lexemes that means nothing. -/
inductive Trivium where
  | blank (c : Char) (isBlank : Text.isBlank c = true)
  /-- A block comment, whose body does not close it. -/
  | block (body : List Char) (free : ¬ ['*', '/'] <:+: body)
  /-- A line comment with its line feed. -/
  | line (body : List Char) (free : '\n' ∉ body)

/-- The characters of a trivium. -/
def Trivium.text : Trivium → List Char
  | blank c _ => [c]
  | block body _ => '/' :: '*' :: (body ++ ['*', '/'])
  | line body _ => '/' :: '/' :: (body ++ ['\n'])

/-- The characters of a gap, which is any number of trivia. -/
def gapText (gap : List Trivium) : List Char := gap.flatMap Trivium.text

/-- A lexeme to be written. -/
structure Written where
  sort : LexemeClass
  text : List Char
  lexical : Lexical sort text

/-- Side by side the two would be read otherwise: the first is a number other than zero and the
    second begins with a digit, or the first is a word and the second begins with a letter or a
    digit. -/
def Written.Merges (a b : Written) : Prop := b.text.head?.any (goesOn a.sort a.text) = true

/-- A lexeme, and the gap before it. -/
structure Entry where
  gap : List Trivium
  lexeme : Written

/-- The characters of an entry. -/
def Entry.text (e : Entry) : List Char := gapText e.gap ++ e.lexeme.text

/-- The entries, and a gap behind the last of them. -/
def written (entries : List Entry) (last : List Trivium) : List Char :=
  entries.flatMap Entry.text ++ gapText last

/-- There is a gap wherever two lexemes would merge. -/
def Separated (entries : List Entry) : Prop :=
  entries.IsChain fun a b => a.lexeme.Merges b.lexeme → b.gap ≠ []

/-! ## 2. The pieces of what is written -/

/-- The pieces of a trivium: the line feed of a line comment is a blank behind it. -/
def Trivium.pieces : Trivium → List Piece
  | blank c _ => [.blank c]
  | block body _ => [.block body]
  | line body _ => [.line body, .blank '\n']

/-- The pieces of an entry. -/
def Entry.pieces (e : Entry) : List Piece :=
  e.gap.flatMap Trivium.pieces ++ [.lexeme e.lexeme.sort e.lexeme.text]

/-- The pieces of what is written. -/
def writtenPieces (entries : List Entry) (last : List Trivium) : List Piece :=
  entries.flatMap Entry.pieces ++ last.flatMap Trivium.pieces

theorem text_gap (gap : List Trivium) :
    (gap.flatMap Trivium.pieces).flatMap Piece.text = gapText gap := by
  unfold gapText
  induction gap with
  | nil => rfl
  | cons v gap ih =>
    rw [List.flatMap_cons, List.flatMap_append, ih, List.flatMap_cons]
    cases v <;> simp [Trivium.pieces, Trivium.text, Piece.text]

theorem text_writtenPieces (entries : List Entry) (last : List Trivium) :
    (writtenPieces entries last).flatMap Piece.text = written entries last := by
  unfold writtenPieces written
  rw [List.flatMap_append, text_gap]
  congr 1
  induction entries with
  | nil => rfl
  | cons e entries ih =>
    rw [List.flatMap_cons, List.flatMap_append, ih, List.flatMap_cons]
    congr 1
    rw [Entry.pieces, List.flatMap_append, text_gap]
    simp [Entry.text, Piece.text]

/-- A gap fits in front of anything. -/
theorem fitting_gap (gap : List Trivium) {later : List Piece} (h : Fitting later) :
    Fitting (gap.flatMap Trivium.pieces ++ later) := by
  induction gap with
  | nil => exact h
  | cons v gap ih =>
    rw [List.flatMap_cons, List.append_assoc]
    cases v with
    | blank c hblank => exact .cons (classOf_of_blank hblank) ih
    | block body hfree => exact .cons hfree ih
    | line body hfree =>
      have hfeed : classOf '\n' = .blank := by decide +kernel
      exact .cons ⟨hfree, rfl⟩ (.cons hfeed ih)

/-- A gap begins with a character that no lexeme goes on with. -/
theorem gap_stops {gap : List Trivium} (h : gap ≠ []) (rest : List Char) (sort : LexemeClass)
    (text : List Char) : (gapText gap ++ rest).head?.any (goesOn sort text) = false := by
  obtain ⟨v, gap, rfl⟩ := List.exists_cons_of_ne_nil h
  cases v with
  | blank c hblank =>
    have hletter : Text.isLetter c = false := by
      rw [← Bool.not_eq_true]
      intro hletter
      exact absurd (hblank.symm.trans (Text.letter_not_blank hletter)) (by decide)
    have hdigit : Text.isDigit c = false := by
      rw [← Bool.not_eq_true]
      intro hdigit
      exact absurd (hblank.symm.trans (Text.digit_not_blank hdigit)) (by decide)
    have hword : continuesWord c = false := Bool.or_eq_false_iff.2 ⟨hletter, hdigit⟩
    exact goesOn_eq_false hword sort text
  | block | line =>
    have hword : continuesWord '/' = false := by decide +kernel
    exact goesOn_eq_false hword sort text

/-- The entries behind a lexeme do not make it longer. -/
theorem lexeme_stops {a : Written} {entries : List Entry} (last : List Trivium)
    (h : ∀ e ∈ entries.head?, a.Merges e.lexeme → e.gap ≠ []) :
    (written entries last).head?.any (goesOn a.sort a.text) = false := by
  cases entries with
  | nil =>
    by_cases hlast : last = []
    · rw [hlast]
      rfl
    · have hstop := gap_stops hlast [] a.sort a.text
      rwa [List.append_nil] at hstop
  | cons e entries =>
    have htext : written (e :: entries) last =
        gapText e.gap ++ (e.lexeme.text ++ written entries last) := by
      simp [written, Entry.text]
    rw [htext]
    by_cases hgap : e.gap = []
    · have hmerges : ¬ a.Merges e.lexeme := fun hmerges => h e rfl hmerges hgap
      obtain ⟨c, cs, hcons⟩ := List.exists_cons_of_ne_nil e.lexeme.lexical.ne_nil
      rw [Written.Merges, Bool.not_eq_true, hcons] at hmerges
      rw [hgap, hcons]
      exact hmerges
    · exact gap_stops hgap _ a.sort a.text

theorem fitting_writtenPieces {entries : List Entry} (h : Separated entries)
    (last : List Trivium) : Fitting (writtenPieces entries last) := by
  induction entries with
  | nil =>
    have hlast := fitting_gap last .nil
    rwa [List.append_nil] at hlast
  | cons e entries ih =>
    have hnext : ∀ e' ∈ entries.head?, e.lexeme.Merges e'.lexeme → e'.gap ≠ [] := by
      intro e' hmem
      obtain ⟨rest, rfl⟩ := List.head?_eq_some_iff.1 hmem
      exact (List.isChain_cons_cons.1 h).1
    have hstop := lexeme_stops last hnext
    rw [← text_writtenPieces] at hstop
    have hlater : Fitting (writtenPieces entries last) := ih h.of_cons
    have hpieces : writtenPieces (e :: entries) last =
        e.gap.flatMap Trivium.pieces ++
          .lexeme e.lexeme.sort e.lexeme.text :: writtenPieces entries last := by
      simp [writtenPieces, Entry.pieces]
    rw [hpieces]
    exact fitting_gap e.gap (.cons ⟨e.lexeme.lexical, hstop⟩ hlater)

/-- **What is written is cut into what it was made of.** -/
theorem pieces_written {entries : List Entry} (h : Separated entries) (last : List Trivium) :
    pieces (written entries last) = writtenPieces entries last :=
  pieces_eq_iff.2 ⟨fitting_writtenPieces h last, text_writtenPieces entries last⟩

theorem mem_gap_pieces {gap : List Trivium} {piece : Piece}
    (h : piece ∈ gap.flatMap Trivium.pieces) :
    piece.complaint? = none ∧ piece.lexeme? = none := by
  obtain ⟨v, -, hmem⟩ := List.mem_flatMap.1 h
  cases v with
  | blank | block =>
    obtain rfl := List.mem_singleton.1 hmem
    exact ⟨rfl, rfl⟩
  | line =>
    simp only [Trivium.pieces, List.mem_cons, List.not_mem_nil, or_false] at hmem
    rcases hmem with rfl | rfl <;> exact ⟨rfl, rfl⟩

/-- Nothing that is written is complained about. -/
theorem complaint?_written {entries : List Entry} {last : List Trivium} {piece : Piece}
    (h : piece ∈ writtenPieces entries last) : piece.complaint? = none := by
  unfold writtenPieces at h
  rcases List.mem_append.1 h with h | h
  · obtain ⟨e, -, hmem⟩ := List.mem_flatMap.1 h
    rcases List.mem_append.1 hmem with hmem | hmem
    · exact (mem_gap_pieces hmem).1
    · obtain rfl := List.mem_singleton.1 hmem
      rfl
  · exact (mem_gap_pieces h).1

/-- The lexemes of what is written are those of its entries. -/
theorem lexemes_written {entries : List Entry} (h : Separated entries) (last : List Trivium) :
    lexemes (written entries last) = entries.map fun e => (e.lexeme.sort, e.lexeme.text) := by
  have hgap (gap : List Trivium) : (gap.flatMap Trivium.pieces).filterMap Piece.lexeme? = [] :=
    List.filterMap_eq_nil_iff.2 fun piece hmem => (mem_gap_pieces hmem).2
  unfold lexemes
  rw [pieces_written h, writtenPieces, List.filterMap_append, hgap, List.append_nil]
  clear h
  induction entries with
  | nil => rfl
  | cons e entries ih =>
    rw [List.flatMap_cons, List.filterMap_append, ih, Entry.pieces, List.filterMap_append, hgap]
    rfl

/-! ## 3. Scanning what is written -/

theorem reports_written (file : String) {entries : List Entry} (h : Separated entries)
    (last : List Trivium) (place : Place) : reports file (written entries last) place = [] := by
  rw [Grammar.reports_eq_nil_iff, pieces_written h]
  exact fun piece => complaint?_written

/-- The scan of what is written has no diagnostic, and its tokens are spelled by the lexemes of the
    entries. -/
theorem written_spells {options : Options} (hline : 1 ≤ options.line) {entries : List Entry}
    (h : Separated entries) (last : List Trivium) :
    (collected options (written entries last)).failure = none ∧
      (collected options (written entries last)).diagnostics = [] ∧
      ∃ tokens stop, (collected options (written entries last)).tokens = tokens ++ [stop] ∧
        stop.kind = .eof ∧
        List.Forall₂ (fun e t => Spells e.lexeme.text t.kind t.text) entries tokens := by
  obtain ⟨hfail, -, hdiag⟩ := collected_spec hline (written entries last)
  obtain ⟨tokens, stop, htokens, hstop, hspells⟩ := tokens_spell hline (written entries last)
  rw [lexemes_written h, List.forall₂_map_left_iff] at hspells
  refine ⟨hfail, ?_, tokens, stop, htokens, hstop, hspells⟩
  rw [hdiag, reports_written options.file h]

/-! ## 4. Lexemes joined by spaces -/

/-- A single space. -/
def space : Trivium := .blank ' ' (by decide +kernel)

/-- The lexemes with a single space before each but the first. -/
def spaced : List Written → List Entry
  | [] => []
  | w :: ws => ⟨[], w⟩ :: ws.map fun w => ⟨[space], w⟩

theorem separated_spaced (ws : List Written) : Separated (spaced ws) := by
  have hspaces (ws : List Written) : Separated (ws.map fun w => ⟨[space], w⟩) := by
    induction ws with
    | nil => exact .nil
    | cons w ws ih =>
      cases ws with
      | nil => exact .singleton _
      | cons w' ws => exact .cons_cons (fun _ => List.cons_ne_nil _ _) ih
  cases ws with
  | nil => exact .nil
  | cons w ws =>
    cases ws with
    | nil => exact .singleton _
    | cons w' ws => exact .cons_cons (fun _ => List.cons_ne_nil _ _) (hspaces (w' :: ws))

theorem written_spaced (ws : List Written) :
    written (spaced ws) [] = [' '].intercalate (ws.map Written.text) := by
  cases ws with
  | nil => rfl
  | cons w ws =>
    induction ws generalizing w with
    | nil => simp [written, spaced, Entry.text, gapText]
    | cons w' ws ih =>
      have hstep : written (spaced (w :: w' :: ws)) [] =
          w.text ++ ' ' :: written (spaced (w' :: ws)) [] := by
        simp [written, spaced, Entry.text, gapText, space, Trivium.text]
      rw [hstep, ih w', List.map_cons, List.map_cons, List.map_cons, List.intercalate_cons_cons,
        List.append_assoc, List.singleton_append]

theorem lexeme_spaced (ws : List Written) : (spaced ws).map Entry.lexeme = ws := by
  cases ws with
  | nil => rfl
  | cons w ws => simp [spaced, Function.comp_def]

/-- The lexemes of a text can be written. -/
theorem lexemes_lexical (text : List Char) :
    ∃ ws : List Written, lexemes text = ws.map fun w => (w.sort, w.text) := by
  unfold lexemes
  have h := fitting_pieces text
  generalize pieces text = ps at h
  induction h with
  | nil => exact ⟨[], rfl⟩
  | @cons piece later hfits _ ih =>
    obtain ⟨ws, hws⟩ := ih
    cases piece with
    | lexeme sort text => exact ⟨⟨sort, text, hfits.1⟩ :: ws, congrArg ((sort, text) :: ·) hws⟩
    | blank | block | line | illegal | stray | unclosed => exact ⟨ws, hws⟩

theorem exists_written {ws : List Written} {ts : List Token}
    (h : List.Forall₂ (fun w t => Spells w.text t.kind t.text) ws ts) :
    ∀ t ∈ ts, ∃ w : Written, w.text = t.spelling ∧ Spells w.text t.kind t.text := by
  intro t hmem
  obtain ⟨w, -, hspells⟩ := (exists_of_forall₂ h).2 t hmem
  exact ⟨w, hspells.spelling.symm, hspells⟩

theorem map_spelling {ws : List Written} {ts : List Token}
    (h : List.Forall₂ (fun w t => Spells w.text t.kind t.text) ws ts) :
    ts.map Token.spelling = ws.map Written.text := by
  induction h with
  | nil => rfl
  | cons hspells _ ih => rw [List.map_cons, List.map_cons, ih, hspells.spelling]

/-- Lexemes make one list of kinds and texts. -/
theorem map_content {ws : List Written} {ts : List Token} {contents : List (Kind × Option String)}
    (h : List.Forall₂ (fun w t => Spells w.text t.kind t.text) ws ts)
    (h' : List.Forall₂ (fun w content => Spells w.text content.1 content.2) ws contents) :
    ts.map Token.content = contents := by
  induction h generalizing contents with
  | nil =>
    cases h'
    rfl
  | cons hspells _ ih =>
    cases h' with
    | cons hspells' hlater' => exact List.cons_eq_cons.2 ⟨hspells.unique hspells', ih hlater'⟩

/-- The lexemes of a scan, joined by single spaces, are read again as they were. -/
theorem rescanned {options : Options} (hline : 1 ≤ options.line) (text : List Char) :
    ∃ tokens stop, (collected options text).tokens = tokens ++ [stop] ∧ stop.kind = .eof ∧
      (∀ t ∈ tokens, ∃ w : Written, w.text = t.spelling ∧ Spells w.text t.kind t.text) ∧
      (collected options ([' '].intercalate (tokens.map Token.spelling))).failure = none ∧
      (collected options ([' '].intercalate (tokens.map Token.spelling))).diagnostics = [] ∧
      (collected options ([' '].intercalate (tokens.map Token.spelling))).tokens.map
        Token.content = (collected options text).tokens.map Token.content := by
  obtain ⟨tokens, stop, htokens, hstop, hspells⟩ := tokens_spell hline text
  obtain ⟨ws, hws⟩ := lexemes_lexical text
  rw [hws, List.forall₂_map_left_iff] at hspells
  obtain ⟨hfail, hdiag, tokens', stop', htokens', hstop', hspells'⟩ :=
    written_spells hline (separated_spaced ws) []
  have hspells'' : List.Forall₂ (fun w t => Spells w.text t.kind t.text) ws tokens' := by
    rw [← lexeme_spaced ws, List.forall₂_map_left_iff]
    exact hspells'
  rw [written_spaced, ← map_spelling hspells] at hfail hdiag htokens'
  have hcontent : tokens'.map Token.content = tokens.map Token.content :=
    map_content hspells'' (List.forall₂_map_right_iff.2 hspells)
  refine ⟨tokens, stop, htokens, hstop, exists_written hspells, hfail, hdiag, ?_⟩
  rw [htokens', htokens, List.map_append, List.map_append, hcontent]
  simp [Token.content_of_eof, hstop, hstop']

/-- **Scanning undoes writing.** Lexemes that are written one after the other, with gaps where two
    of them would merge and anywhere else, are scanned without a diagnostic, and the tokens before
    the end token have their kinds and texts. The tokens of every scan are spelled by such lexemes;
    joined by single spaces, these are scanned to the same kinds and texts. -/
theorem collected_written {options : Options} (hline : 1 ≤ options.line) :
    (∀ (entries : List Entry) (last : List Trivium), Separated entries →
      (collected options (written entries last)).failure = none ∧
      (collected options (written entries last)).diagnostics = [] ∧
      ∃ tokens stop, (collected options (written entries last)).tokens = tokens ++ [stop] ∧
        stop.kind = .eof ∧
        List.Forall₂ (fun e t => Spells e.lexeme.text t.kind t.text) entries tokens) ∧
    (∀ text, ∃ tokens stop, (collected options text).tokens = tokens ++ [stop] ∧
      stop.kind = .eof ∧
      (∀ t ∈ tokens, ∃ w : Written, w.text = t.spelling ∧ Spells w.text t.kind t.text) ∧
      (collected options ([' '].intercalate (tokens.map Token.spelling))).failure = none ∧
      (collected options ([' '].intercalate (tokens.map Token.spelling))).diagnostics = [] ∧
      (collected options ([' '].intercalate (tokens.map Token.spelling))).tokens.map
        Token.content = (collected options text).tokens.map Token.content) :=
  ⟨fun _ last h => written_spells hline h last, rescanned hline⟩

/-- A zero, a digit, a reserved word and an operator side by side, and a word behind a comment that
    ends in a star. -/
theorem collected_written_words :
    (1 : Int) ≤ 2 ∧
      ∃ entries, Separated entries ∧
        written entries [space] =
          ['0', '5', 'e', 'n', 'd', '=', '/', '*', '*', '*', '/', 'x', '1', ' '] ∧
        (collected { line := 2 } (written entries [space])).diagnostics = [] ∧
        ∃ tokens stop, (collected { line := 2 } (written entries [space])).tokens =
          tokens ++ [stop] ∧ stop.kind = .eof ∧
          tokens.map Token.content =
            [(.number, some "0"), (.number, some "5"), (.finish, none), (.assign, none),
              (.identifier, some "x1")] := by
  have hline : (1 : Int) ≤ ({ line := 2 } : Options).line := by decide
  let zero : Written := ⟨.number, ['0'], .zero⟩
  let five : Written :=
    ⟨.number, ['5'], .number (by decide) (List.all_eq_true.1 (by decide +kernel))⟩
  let word : Written :=
    ⟨.word, ['e', 'n', 'd'], .word (by decide +kernel) (List.all_eq_true.1 (by decide +kernel))⟩
  let sign : Written := ⟨.operator, ['='], .operator rfl⟩
  let name : Written :=
    ⟨.word, ['x', '1'], .word (by decide +kernel) (List.all_eq_true.1 (by decide +kernel))⟩
  let entries : List Entry :=
    [⟨[], zero⟩, ⟨[], five⟩, ⟨[], word⟩, ⟨[], sign⟩, ⟨[.block ['*'] (by decide)], name⟩]
  have hzero : ¬ zero.Merges five := by unfold Written.Merges; decide +kernel
  have hfive : ¬ five.Merges word := by unfold Written.Merges; decide +kernel
  have hword : ¬ word.Merges sign := by unfold Written.Merges; decide +kernel
  have hseparated : Separated entries :=
    .cons_cons (fun h => absurd h hzero) (.cons_cons (fun h => absurd h hfive)
      (.cons_cons (fun h => absurd h hword)
        (.cons_cons (fun _ => List.cons_ne_nil _ _) (.singleton _))))
  obtain ⟨-, hdiag, tokens, stop, htokens, hstop, hspells⟩ :=
    (collected_written hline).1 entries [space] hseparated
  have hfive' : Spells five.text .number (some "5") :=
    .number (by decide) (List.all_eq_true.1 (by decide +kernel))
  have hname : Spells name.text .identifier (some "x1") :=
    .identifier (by decide +kernel) (List.forall_mem_singleton.2 (by decide +kernel)) rfl
  let contents : List (Kind × Option String) :=
    [(.number, some "0"), (.number, some "5"), (.finish, none), (.assign, none),
      (.identifier, some "x1")]
  have hcontents : List.Forall₂ (fun w content => Spells w.text content.1 content.2)
      (entries.map Entry.lexeme) contents :=
    .cons .zero (.cons hfive' (.cons (.keyword rfl) (.cons (.operator rfl) (.cons hname .nil))))
  exact ⟨by decide, entries, hseparated, rfl, hdiag, tokens, stop, htokens, hstop,
    map_content (List.forall₂_map_left_iff.2 hspells) hcontents⟩

end YaslLexis.Writing
