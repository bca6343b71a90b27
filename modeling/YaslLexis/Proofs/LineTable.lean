import YaslLexis.Proofs.Deliveries
import YaslLexis.Proofs.Spelling

/-!
# Places in the table of lines

The places that a scan gives were counted while characters were consumed. Here they are read in the
table of the lines of the whole text: what stands there is what the token or the diagnostic is
about.

* `linesOf` -- the lines of a text; `lines_past` -- the place past the beginning of a text, in the
  table of its lines;
* `SliceAt`, `charAt` -- what stands at a place of a table (`slice_past`, `charAt_past`), and
  `end_past` -- the place past the last line;
* `report_past` -- where the diagnostics about a text are found, and what they say of it;
* `Token.Precedes` -- a token ends before the other begins; `outcomes_ascend`, `reports_ascend`;
* **`positions_point`** -- every token and every diagnostic of a scan points at what it reports.
-/

namespace YaslLexis

open Report

/-! ## 1. Lines -/

/-- The lines of a text: what stands before, between and after its line feeds. -/
def linesOf (text : List Char) : List (List Char) := text.splitOn '\n'

theorem linesOf_lineFeed (rest : List Char) : linesOf ('\n' :: rest) = [] :: linesOf rest := by
  unfold linesOf
  rw [List.splitOn_cons_eq_if_modifyHead, if_pos (beq_self_eq_true _)]

theorem linesOf_cons {c : Char} (h : c ≠ '\n') (rest : List Char) :
    linesOf (c :: rest) = (linesOf rest).modifyHead (c :: ·) := by
  unfold linesOf
  rw [List.splitOn_cons_eq_if_modifyHead, if_neg (by simpa using h)]

theorem length_linesOf (text : List Char) : (linesOf text).length = text.count '\n' + 1 := by
  induction text with
  | nil => rfl
  | cons c rest ih =>
    by_cases hc : c = '\n'
    · subst hc
      rw [linesOf_lineFeed, List.length_cons, ih, List.count_cons_self]
    · rw [linesOf_cons hc, List.length_modifyHead, ih, List.count_cons_of_ne hc]

theorem head_linesOf (text : List Char) :
    (linesOf text)[0]? = some (text.takeWhile (· ≠ '\n')) := by
  induction text with
  | nil => rfl
  | cons c rest ih =>
    by_cases hc : c = '\n'
    · subst hc
      rw [linesOf_lineFeed]
      rfl
    · rw [linesOf_cons hc, List.getElem?_modifyHead_zero, ih, List.takeWhile_cons_of_pos (by simpa)]
      rfl

/-! ## 2. Places in a table of lines -/

/-- The place past the beginning of a text is on the line with the index `i`, past `j` of its
    characters, and the rest of that line is the rest of the text as far as the line goes. -/
theorem lines_past (done rest : List Char) (p : Place) :
    ∃ (i j : Nat) (line : List Char),
      p.afterAll done = ⟨p.line + i, (if i = 0 then p.column else 1) + j⟩ ∧
      (linesOf (done ++ rest))[i]? = some line ∧ line.drop j = rest.takeWhile (· ≠ '\n') ∧
      j ≤ line.length ∧ (linesOf (done ++ rest)).length = i + 1 + rest.count '\n' := by
  induction done generalizing p with
  | nil =>
    refine ⟨0, 0, _, ?_, head_linesOf rest, rfl, Nat.zero_le _, ?_⟩
    · simp
    · rw [List.nil_append, length_linesOf]
      omega
  | cons c done ih =>
    obtain ⟨i, j, line, hplace, hline, hdrop, hle, hlength⟩ := ih (p.after c)
    rw [Place.afterAll_cons, hplace, List.cons_append]
    -- A line feed puts an empty line before the others, any other character goes to the first line.
    by_cases hc : c = '\n'
    · subst hc
      rw [linesOf_lineFeed]
      refine ⟨i + 1, j, line, ?_, hline, hdrop, hle, ?_⟩
      · rw [if_neg (Nat.succ_ne_zero i), Place.after_lineFeed, ite_self]
        congr 1
        push_cast
        omega
      · rw [List.length_cons, hlength]
        omega
    · rw [linesOf_cons hc, Place.after_of_ne hc]
      by_cases hi : i = 0
      · subst hi
        refine ⟨0, j + 1, c :: line, ?_, ?_, hdrop, Nat.succ_le_succ hle, ?_⟩
        · rw [if_pos rfl, if_pos rfl]
          congr 1
          push_cast
          omega
        · rw [List.getElem?_modifyHead_zero, hline]
          rfl
        · rw [List.length_modifyHead, hlength]
      · refine ⟨i, j, line, ?_, ?_, hdrop, hle, ?_⟩
        · rw [if_neg hi, if_neg hi]
        · rw [List.getElem?_modifyHead, if_neg hi, hline]
        · rw [List.length_modifyHead, hlength]

/-- The same where the text begins a line. -/
theorem lines_past_start (done rest : List Char) (first : Int) :
    ∃ (i j : Nat) (line : List Char),
      (⟨first, 1⟩ : Place).afterAll done = ⟨first + i, 1 + j⟩ ∧
      (linesOf (done ++ rest))[i]? = some line ∧ line.drop j = rest.takeWhile (· ≠ '\n') ∧
      j ≤ line.length ∧ (linesOf (done ++ rest)).length = i + 1 + rest.count '\n' := by
  obtain ⟨i, j, line, hplace, hlater⟩ := lines_past done rest ⟨first, 1⟩
  dsimp only at hplace
  rw [ite_self] at hplace
  exact ⟨i, j, line, hplace, hlater⟩

/-- In a table of lines whose first has the number `first`, the characters stand at the place, on
    one line. -/
def SliceAt (lines : List (List Char)) (first : Int) (p : Place) (slice : List Char) : Prop :=
  ∃ (i j : Nat) (line : List Char),
    p = ⟨first + i, 1 + j⟩ ∧ lines[i]? = some line ∧ slice <+: line.drop j

/-- The character at a place of such a table, where each line but the last is followed by its line
    feed. -/
def charAt (lines : List (List Char)) (first : Int) (p : Place) : Option Char :=
  if first ≤ p.line ∧ 1 ≤ p.column then
    let i := (p.line - first).toNat
    let j := (p.column - 1).toNat
    lines[i]?.bind fun line => (if i + 1 < lines.length then line ++ ['\n'] else line)[j]?
  else none

theorem charAt_eq (lines : List (List Char)) (first : Int) (i j : Nat) :
    charAt lines first ⟨first + i, 1 + j⟩ =
      lines[i]?.bind fun line => (if i + 1 < lines.length then line ++ ['\n'] else line)[j]? := by
  have hline : (first + i - first).toNat = i := by omega
  have hcolumn : (1 + (j : Int) - 1).toNat = j := by omega
  have hinside : first ≤ first + i ∧ 1 ≤ 1 + (j : Int) := by omega
  unfold charAt
  dsimp only
  rw [if_pos hinside, hline, hcolumn]

/-- Characters on one line stand at the place past what comes before them. -/
theorem slice_past {done slice rest : List Char} (h : '\n' ∉ slice) (first : Int) :
    SliceAt (linesOf (done ++ (slice ++ rest))) first ((⟨first, 1⟩ : Place).afterAll done)
      slice := by
  obtain ⟨i, j, line, hplace, hline, hdrop, -⟩ := lines_past_start done (slice ++ rest) first
  refine ⟨i, j, line, hplace, hline, ?_⟩
  have hslice : ∀ c ∈ slice, (decide (c ≠ '\n')) = true := by
    intro c hc
    exact decide_eq_true fun heq => h (heq ▸ hc)
  rw [hdrop, List.takeWhile_append_of_pos hslice]
  exact List.prefix_append ..

/-- **The character at the place past the beginning of a text is the next one.** -/
theorem charAt_past (done rest : List Char) (first : Int) :
    charAt (linesOf (done ++ rest)) first ((⟨first, 1⟩ : Place).afterAll done) = rest.head? := by
  obtain ⟨i, j, row, hplace, hrow, hdrop, hle, hlength⟩ := lines_past_start done rest first
  rw [hplace, charAt_eq, hrow, Option.bind_some, hlength]
  cases rest with
  | nil =>
    have hend : row.length ≤ j := List.drop_eq_nil_iff.1 hdrop
    rw [if_neg (by simp), List.head?_nil]
    exact List.getElem?_eq_none hend
  | cons c rest =>
    by_cases hc : c = '\n'
    · subst hc
      have hend : row.length ≤ j := List.drop_eq_nil_iff.1 hdrop
      obtain rfl : j = row.length := Nat.le_antisymm hle hend
      rw [if_pos (by rw [List.count_cons_self]; omega), List.head?_cons]
      exact List.getElem?_concat_length
    · rw [List.takeWhile_cons_of_pos (by simpa using hc)] at hdrop
      have hget : row[j]? = some c := by
        rw [← List.head?_drop, hdrop, List.head?_cons]
      have hlt : j < row.length := (List.getElem?_eq_some_iff.1 hget).1
      rw [List.head?_cons]
      split
      · rw [List.getElem?_append_left hlt, hget]
      · exact hget

/-- **The place past a text** is one column past the end of its last line. -/
theorem end_past (text : List Char) (first : Int) :
    ∃ last, (linesOf text).getLast? = some last ∧
      (⟨first, 1⟩ : Place).afterAll text =
        ⟨first + (linesOf text).length - 1, last.length + 1⟩ := by
  obtain ⟨i, j, line, hplace, hline, hdrop, hle, hlength⟩ := lines_past_start text [] first
  rw [List.append_nil] at hline hlength
  have hlast : (linesOf text).length - 1 = i := by
    rw [hlength]
    simp
  have hend : line.length ≤ j := List.drop_eq_nil_iff.1 hdrop
  obtain rfl : j = line.length := Nat.le_antisymm hle hend
  refine ⟨line, ?_, ?_⟩
  · rw [List.getLast?_eq_getElem?, hlast, hline]
  · rw [hplace, hlength, List.count_nil]
    congr 1
    · push_cast
      omega
    · omega

/-! ## 3. Where diagnostics are found -/

namespace Machine

/-- What a diagnostic says of the text before and behind its location. -/
def SaysOf (done rest : List Char) : Complaint → Prop
  | .illegalCharacter char => ∃ c, rest.head? = some c ∧ char = c.toString
  | .malformedComment found =>
    (∃ before, done = before ++ ['/']) ∧ found = rest.head?.map Char.toString
  | .unclosedComment => rest = []
  | .other _ => False

/-- Each diagnostic is at the place past a part of the text and speaks of what is around it. -/
theorem report_past {file : String} {text : List Char} {place : Place} {d : Diagnostic}
    (h : d ∈ reports file text place) :
    ∃ done rest, text = done ++ rest ∧ d.location = some ⟨file, place.afterAll done⟩ ∧
      SaysOf done rest d.complaint := by
  obtain ⟨before, piece, later, hsplit, hfound⟩ := mem_along h
  have hfits : piece.Fits (later.flatMap Piece.text) := Fitting.fits (hsplit ▸ fitting_pieces text)
  have htext : text = (before.flatMap Piece.text ++ piece.lead) ++
      (piece.tail ++ later.flatMap Piece.text) := by
    rw [List.append_assoc, ← List.append_assoc piece.lead, Piece.lead_append_tail,
      ← flatMap_text_pieces text, hsplit, List.flatMap_append, List.flatMap_cons]
  obtain ⟨complaint, hcomplaint, rfl⟩ := Option.map_eq_some_iff.1 hfound
  refine ⟨_, _, htext, by rw [Place.afterAll_append], ?_⟩
  cases piece with
  | lexeme | blank | block | line => cases hcomplaint
  | illegal c =>
    obtain rfl := Option.some.inj hcomplaint
    exact ⟨c, rfl, rfl⟩
  | stray found =>
    obtain rfl := Option.some.inj hcomplaint
    exact ⟨⟨_, rfl⟩, congrArg (Option.map Char.toString) hfits.1.symm⟩
  | unclosed body =>
    obtain rfl := Option.some.inj hcomplaint
    exact hfits.1

end Machine

/-! ## 4. Order -/

theorem Place.afterAll_of_not_mem {slice : List Char} (h : '\n' ∉ slice) (p : Place) :
    p.afterAll slice = ⟨p.line, p.column + slice.length⟩ := by
  induction slice generalizing p with
  | nil => simp
  | cons c slice ih =>
    obtain ⟨hc, hslice⟩ := not_or.1 (mt List.mem_cons.2 h)
    rw [Place.afterAll_cons, Place.after_of_ne (Ne.symm hc), ih hslice, List.length_cons]
    congr 1
    push_cast
    omega

theorem Place.not_afterAll_before (p : Place) (text : List Char) : ¬ (p.afterAll text).Before p := by
  intro hbefore
  by_cases htext : text = []
  · subst htext
    exact p.not_before_self hbefore
  · exact p.not_before_self ((p.before_afterAll htext).trans hbefore)

/-- One token is before the other, and its lexeme ends on an earlier line than the other's or on the
    same one before the other's begins. -/
def Token.Precedes (t u : Token) : Prop :=
  t.place.Before u.place ∧
    (t.place.line < u.place.line ∨
      t.place.line = u.place.line ∧ t.place.column + t.spelling.length ≤ u.place.column)

/-- The one diagnostic is not at an earlier place than the other. -/
def Diagnostic.NotBefore (e d : Diagnostic) : Prop :=
  ∀ l ∈ d.location, ∀ l' ∈ e.location, ¬ l'.place.Before l.place

theorem Token.precedes_of_past {t u : Token} (hne : t.spelling ≠ []) (hline : '\n' ∉ t.spelling)
    {mid : List Char} (hu : u.place = (t.place.afterAll t.spelling).afterAll mid) :
    t.Precedes u := by
  have hnot := (t.place.afterAll t.spelling).not_afterAll_before mid
  have hpos : 0 < t.spelling.length := List.length_pos_iff.2 hne
  rw [← hu, Place.afterAll_of_not_mem hline] at hnot
  unfold Token.Precedes
  unfold Place.Before at *
  dsimp only at hnot
  omega

namespace Machine

/-- A token comes before all that is found behind its lexeme. -/
theorem precedes_of_spells {sort : LexemeClass} {lexeme mid : List Char} {t u : Token}
    (hlexical : Lexical sort lexeme) (hspells : Spells lexeme t.kind t.text)
    (hu : u.place = (t.place.afterAll lexeme).afterAll mid) : t.Precedes u := by
  have hspelling : t.spelling = lexeme := hspells.spelling
  rw [← hspelling] at hlexical hu
  exact Token.precedes_of_past hlexical.ne_nil hlexical.lineFeed_not_mem hu

/-- **The tokens of a text, the end token included, ascend.** -/
theorem outcomes_ascend (text : List Char) (place : Place) :
    (outcomes text place).Pairwise fun r r' =>
      ∀ t u, r = .ok t → r' = .ok u → Token.Precedes t u := by
  refine List.pairwise_append.2 ⟨pairwise_along ?_ place, List.pairwise_singleton .., ?_⟩
  · -- Of two pieces that are lexemes the later is past the text of the former.
    intro piece hpiece next _ p mid r r' hr hr' t u ht hu
    subst ht hu
    cases piece with
    | lexeme sort lexeme =>
      have hlexical := lexical_of_mem hpiece
      obtain ⟨hplace, hspells⟩ := hlexical.token (Option.some.inj hr)
      cases next with
      | lexeme sort' lexeme' =>
        have hlater : u.place = (t.place.afterAll lexeme).afterAll mid :=
          hplace ▸ place_of_token (Option.some.inj hr')
        exact precedes_of_spells hlexical hspells hlater
      | blank | block | line | illegal | stray | unclosed => cases hr'
    | blank | block | line | illegal | stray | unclosed => cases hr
  · -- The end token is past the whole text.
    intro r hr r' hr' t u ht hu
    subst ht hu
    have hend := place_of_endAt (List.mem_singleton.1 hr').symm
    obtain ⟨done, sort, lexeme, rest, rfl, hlexical, hplace, hspells⟩ := spelled_of_mem hr
    rw [Place.afterAll_append, Place.afterAll_append, ← hplace] at hend
    exact precedes_of_spells hlexical hspells hend

/-- **The diagnostics about a text do not descend.** -/
theorem reports_ascend (file : String) (text : List Char) (place : Place) :
    (reports file text place).Pairwise fun d e => e.NotBefore d := by
  refine pairwise_along ?_ place
  intro piece _ next _ p mid d e hd he l hl l' hl'
  obtain ⟨complaint, -, rfl⟩ := Option.map_eq_some_iff.1 hd
  obtain ⟨complaint', -, rfl⟩ := Option.map_eq_some_iff.1 he
  obtain rfl := Option.some.inj hl
  obtain rfl := Option.some.inj hl'
  rw [← piece.lead_append_tail, Place.afterAll_append, ← Place.afterAll_append,
    ← Place.afterAll_append]
  exact Place.not_afterAll_before _ _

/-! ## 5. The whole scan -/

/-- What a diagnostic says of the text is so in the table of lines: an illegal character stands at
    its location; a slash stands one column before it and what was found there instead is the
    character at it, or nothing at the place of the end; an unclosed comment is at the end. -/
def PointsIn (lines : List (List Char)) (first : Int) (stop p : Place) : Complaint → Prop
  | .illegalCharacter char => ∃ c, charAt lines first p = some c ∧ char = c.toString
  | .malformedComment found =>
    charAt lines first ⟨p.line, p.column - 1⟩ = some '/' ∧
      found = (charAt lines first p).map Char.toString ∧ (found = none ↔ p = stop)
  | .unclosedComment => p = stop
  | .other _ => False

/-- What a diagnostic says of the text around its location is so in the table of lines. -/
theorem SaysOf.pointsIn {done rest : List Char} {complaint : Complaint}
    (h : SaysOf done rest complaint) (first : Int) :
    PointsIn (linesOf (done ++ rest)) first ((⟨first, 1⟩ : Place).afterAll (done ++ rest))
      ((⟨first, 1⟩ : Place).afterAll done) complaint := by
  have hchar := charAt_past done rest first
  cases complaint with
  | illegalCharacter char =>
    obtain ⟨c, hhead, hc⟩ := h
    exact ⟨c, hchar.trans hhead, hc⟩
  | malformedComment found =>
    obtain ⟨⟨before, rfl⟩, hfound⟩ := h
    refine ⟨?_, hchar ▸ hfound, ?_⟩
    · have hslash := charAt_past before ('/' :: rest) first
      have hafter : ((⟨first, 1⟩ : Place).afterAll (before ++ ['/'])) =
          ((⟨first, 1⟩ : Place).afterAll before).after '/' := by
        rw [Place.afterAll_append]
        rfl
      rw [hafter, Place.after_of_ne (by decide), Int.add_sub_cancel, List.append_assoc]
      exact hslash
    · rw [hfound, Option.map_eq_none_iff, List.head?_eq_none_iff,
        Place.afterAll_append _ (before ++ ['/']) rest]
      constructor
      · rintro rfl
        rfl
      · -- Past a character the place is later, so only the end is at the place of the end.
        intro hsame
        by_contra hrest
        have hbefore := ((⟨first, 1⟩ : Place).afterAll (before ++ ['/'])).before_afterAll hrest
        rw [← hsame] at hbefore
        exact Place.not_before_self _ hbefore
  | unclosedComment =>
    obtain rfl : rest = [] := h
    rw [List.append_nil]
    rfl
  | other message => exact h

/-- **Positions point at what they report.** In the table of the lines of a text, cut at its line
    feeds and numbered from the first line on:

    * the lexeme of each token stands at its place, on one line;
    * the end token is at the last line, one column past its end;
    * what each diagnostic says of the text is so at its location;
    * the tokens ascend, the end token included, and no two lexemes meet; the diagnostics do not
      descend. -/
theorem positions_point {options : Options} (hline : 1 ≤ options.line) (text : List Char) :
    (collected options text).failure = none ∧
      ∃ tokens stop last,
        (collected options text).tokens = tokens ++ [stop] ∧ stop.kind = .eof ∧
        (∀ t ∈ tokens, t.kind ≠ .eof ∧ t.spelling ≠ [] ∧
          SliceAt (linesOf text) options.line t.place t.spelling) ∧
        (linesOf text).getLast? = some last ∧
        stop.place = ⟨options.line + (linesOf text).length - 1, last.length + 1⟩ ∧
        (∀ d ∈ (collected options text).diagnostics, ∃ p,
          d.location = some ⟨options.file, p⟩ ∧
          PointsIn (linesOf text) options.line stop.place p d.complaint) ∧
        (collected options text).tokens.Pairwise Token.Precedes ∧
        (collected options text).diagnostics.Pairwise fun d e => e.NotBefore d := by
  obtain ⟨hfailure, hresults, hdiagnostics⟩ := collected_spec hline text
  obtain ⟨tokens, stop, hsplit, hstop, hproper, hgiven⟩ := collected_ends hline text
  obtain ⟨last, hlast, hend⟩ := end_past text options.line
  have hplace : stop.place = (⟨options.line, 1⟩ : Place).afterAll text := by
    rw [hsplit, List.map_append, hgiven] at hresults
    exact place_of_endAt (List.singleton_inj.1 (List.append_cancel_left hresults)).symm
  refine ⟨hfailure, tokens, stop, last, hsplit, hstop, fun t hmem => ?_, hlast,
    hplace.trans hend, fun d hmem => ?_, ?_, ?_⟩
  · have hfound : .ok t ∈ along Piece.outcome? (pieces text) ⟨options.line, 1⟩ :=
      hgiven ▸ List.mem_map_of_mem hmem
    obtain ⟨done, sort, lexeme, rest, htext, hlexical, hat, hspells⟩ := spelled_of_mem hfound
    rw [hspells.spelling]
    refine ⟨hproper t hmem, hlexical.ne_nil, ?_⟩
    rw [hat, htext]
    exact slice_past hlexical.lineFeed_not_mem options.line
  · rw [hdiagnostics] at hmem
    obtain ⟨done, rest, htext, hlocation, hsays⟩ := report_past hmem
    refine ⟨_, hlocation, ?_⟩
    rw [hplace, htext]
    exact hsays.pointsIn options.line
  · have hascend := outcomes_ascend text ⟨options.line, 1⟩
    rw [← hresults, List.pairwise_map] at hascend
    exact hascend.imp fun h => h _ _ rfl rfl
  · rw [hdiagnostics]
    exact reports_ascend options.file text ⟨options.line, 1⟩

/-- A word, a stray slash before a line feed, an illegal character after a tab, and a comment that
    is not closed. -/
theorem positions_point_mixed :
    (1 : Int) ≤ 3 ∧ ∃ (tokens : List Token) (stop : Token),
      linesOf "ab /\n\t?c\n/*".toList = ["ab /".toList, "\t?c".toList, "/*".toList] ∧
      (collected { line := 3 } "ab /\n\t?c\n/*".toList).tokens = tokens ++ [stop] ∧
      tokens.map (fun t => (t.place, t.spelling)) = [(⟨3, 1⟩, ['a', 'b']), (⟨4, 3⟩, ['c'])] ∧
      stop.place = ⟨5, 3⟩ ∧
      (collected { line := 3 } "ab /\n\t?c\n/*".toList).diagnostics.map
          (fun d => (d.complaint, d.location.map Location.place)) =
        [(.malformedComment (some "\n"), some ⟨3, 5⟩), (.illegalCharacter "?", some ⟨4, 2⟩),
          (.unclosedComment, some ⟨5, 3⟩)] ∧
      (∀ t ∈ tokens, SliceAt (linesOf "ab /\n\t?c\n/*".toList) 3 t.place t.spelling) ∧
      charAt (linesOf "ab /\n\t?c\n/*".toList) 3 ⟨3, 5⟩ = some '\n' := by
  have hline : (1 : Int) ≤ ({ line := 3 } : Options).line := by decide
  have htokens : (collected { line := 3 } "ab /\n\t?c\n/*".toList).tokens.map
      (fun t => (t.place, t.spelling)) =
        [(⟨3, 1⟩, ['a', 'b'])] ++ [(⟨4, 3⟩, ['c'])] ++ [(⟨5, 3⟩, [])] := by decide +kernel
  obtain ⟨-, tokens, stop, last, hsplit, -, hslices, -, hstop, -⟩ :=
    positions_point hline "ab /\n\t?c\n/*".toList
  rw [hsplit, List.map_append] at htokens
  obtain ⟨hfirst, hlast⟩ := List.append_inj' htokens rfl
  have hplace : stop.place = ⟨5, 3⟩ := congrArg Prod.fst (List.singleton_inj.1 hlast)
  exact ⟨by decide, tokens, stop, by decide, hsplit, hfirst, hplace, by decide +kernel,
    fun t hmem => (hslices t hmem).2.2, by decide⟩

end Machine

end YaslLexis
