import YaslLexis.Proofs.Fitting
import YaslLexis.Proofs.WholeScans

/-!
# Carriage returns before line feeds

A text whose lines end with a carriage return and a line feed is scanned like the text whose lines
end with the line feed alone. The carriage return begins no lexeme and makes none longer, and as it
is the last character of its line, no other character stands further to the right because of it.
It shows in one place only, behind a slash at the end of a line that opens no comment.

* `withReturns` -- the text with a carriage return before every line feed;
* `returned` -- the pieces of such a text, from those of the text without; a line comment takes the
  carriage return of its line with it;
* `pieces_withReturns` -- the pieces of the text with returns are the returned pieces;
* `along_returned` -- walking them finds what walking the pieces of the text finds;
* **`collected_withReturns`** -- the two scans have the same tokens and, up to what is found behind
  a slash, the same diagnostics.
-/

namespace YaslLexis

/-! ## 1. Texts with carriage returns -/

/-- The text with a carriage return before every line feed. -/
def withReturns (text : List Char) : List Char :=
  text.flatMap fun c => if c = '\n' then ['\r', '\n'] else [c]

/-- What is met with returns where a character is met without. -/
def returnFor (c : Char) : Char := if c = '\n' then '\r' else c

@[simp] theorem withReturns_nil : withReturns [] = [] := rfl

@[simp] theorem withReturns_lineFeed (text : List Char) :
    withReturns ('\n' :: text) = '\r' :: '\n' :: withReturns text := rfl

theorem withReturns_cons {c : Char} (hc : c ≠ '\n') (text : List Char) :
    withReturns (c :: text) = c :: withReturns text := by
  unfold withReturns
  rw [List.flatMap_cons, if_neg hc]
  rfl

theorem withReturns_append (a b : List Char) :
    withReturns (a ++ b) = withReturns a ++ withReturns b := List.flatMap_append

/-- A text on one line stays as it is. -/
theorem withReturns_eq_self {text : List Char} (h : '\n' ∉ text) : withReturns text = text := by
  induction text with
  | nil => rfl
  | cons c cs ih =>
    obtain ⟨hc, hcs⟩ := not_or.1 (List.mem_cons.not.1 h)
    rw [withReturns_cons (Ne.symm hc), ih hcs]

theorem head?_withReturns (text : List Char) :
    (withReturns text).head? = text.head?.map returnFor := by
  cases text with
  | nil => rfl
  | cons c cs =>
    by_cases hc : c = '\n'
    · subst hc
      rfl
    · rw [withReturns_cons hc, List.head?_cons, List.head?_cons, Option.map_some, returnFor,
        if_neg hc]

/-- A carriage return takes a column of a line that has no more characters. -/
theorem Place.afterAll_withReturns (p : Place) (text : List Char) :
    p.afterAll (withReturns text) = p.afterAll text := by
  induction text generalizing p with
  | nil => rfl
  | cons c cs ih =>
    by_cases hc : c = '\n'
    · subst hc
      exact ih _
    · rw [withReturns_cons hc]
      exact ih _

/-- What is found with returns, in a complaint about a slash. -/
def Complaint.withReturn : Complaint → Complaint
  | malformedComment found => malformedComment (found.map fun s => if s = "\n" then "\r" else s)
  | complaint => complaint

/-- The diagnostic with returns, at the same location. -/
def Diagnostic.withReturn (d : Diagnostic) : Diagnostic :=
  { d with complaint := d.complaint.withReturn }

theorem toString_returnFor (c : Char) :
    (returnFor c).toString = if c.toString = "\n" then "\r" else c.toString := by
  unfold returnFor
  by_cases hc : c = '\n'
  · subst hc
    rfl
  · have hne : c.toString ≠ "\n" := fun h => hc (String.singleton_inj.1 h)
    rw [if_neg hc, if_neg hne]

namespace Machine

open Report

/-! ## 2. Pieces with carriage returns -/

/-- A block comment has the returns in its body, and a slash finds the return of its line. -/
def Piece.withReturns : Piece → Piece
  | block body => block (YaslLexis.withReturns body)
  | unclosed body => unclosed (YaslLexis.withReturns body)
  | stray found => stray (found.map returnFor)
  | piece => piece

@[simp] theorem Piece.withReturns_blank (c : Char) : (blank c).withReturns = blank c := rfl

@[simp] theorem Piece.withReturns_line (body : List Char) :
    (line body).withReturns = line body := rfl

/-- The pieces of the text with returns. The return of a line is a blank, unless a line comment in
    front of it takes it along. -/
def returned : List Piece → List Piece
  | [] => []
  | .blank '\n' :: later => .blank '\r' :: .blank '\n' :: returned later
  | .line body :: .blank '\n' :: later => .line (body ++ ['\r']) :: .blank '\n' :: returned later
  | piece :: later => piece.withReturns :: returned later

theorem head?_withReturns_eq_slash_iff (text : List Char) :
    (withReturns text).head? = some '/' ↔ text.head? = some '/' := by
  rw [head?_withReturns]
  cases text.head? with
  | none => simp
  | some c =>
    by_cases hc : c = '\n'
    · subst hc
      decide
    · rw [Option.map_some, returnFor, if_neg hc]

/-- Returns neither part a star and a slash nor bring them together. -/
theorem closer_infix_withReturns_iff {text : List Char} :
    closer <:+: withReturns text ↔ closer <:+: text := by
  induction text with
  | nil => rfl
  | cons c cs ih =>
    by_cases hc : c = '\n'
    · subst hc
      rw [withReturns_lineFeed, List.infix_cons_iff, List.infix_cons_iff, List.infix_cons_iff,
        closer_prefix_cons_iff, closer_prefix_cons_iff, closer_prefix_cons_iff]
      simp [ih]
    · rw [withReturns_cons hc, List.infix_cons_iff, List.infix_cons_iff, closer_prefix_cons_iff,
        closer_prefix_cons_iff, head?_withReturns_eq_slash_iff]
      exact or_congr_right ih

/-- A piece that fits, other than a line feed, has its returns inside. -/
theorem text_withReturns {piece : Piece} {rest : List Char} (hfits : piece.Fits rest)
    (hpiece : piece ≠ .blank '\n') : piece.withReturns.text = withReturns piece.text := by
  cases piece with
  | lexeme sort text => exact (withReturns_eq_self hfits.1.lineFeed_not_mem).symm
  | blank c =>
    have hc : c ≠ '\n' := by
      rintro rfl
      exact hpiece rfl
    exact (withReturns_cons hc []).symm
  | block body =>
    show '/' :: '*' :: (withReturns body ++ ['*', '/']) = _
    rw [Piece.text, withReturns_cons (by decide), withReturns_cons (by decide), withReturns_append]
    rfl
  | line body =>
    have hline : '\n' ∉ '/' :: '/' :: body := by simpa using hfits.1
    exact (withReturns_eq_self hline).symm
  | illegal c =>
    have hc : c ≠ '\n' := by
      rintro rfl
      exact absurd hfits (show classOf '\n' ≠ .illegal by decide +kernel)
    exact (withReturns_cons hc []).symm
  | stray found => rfl
  | unclosed body =>
    show '/' :: '*' :: withReturns body = _
    rw [Piece.text, withReturns_cons (by decide), withReturns_cons (by decide)]

/-- The returned pieces spell the text with returns. -/
theorem flatMap_text_returned {ps : List Piece} (h : Fitting ps) :
    (returned ps).flatMap Piece.text = withReturns (ps.flatMap Piece.text) := by
  induction ps using returned.induct with
  | case1 => rfl
  | case2 later ih =>
    obtain _ | ⟨-, hlater⟩ := h
    rw [returned, List.flatMap_cons, List.flatMap_cons, ih hlater]
    rfl
  | case3 body later ih =>
    obtain _ | ⟨hfits, _ | ⟨-, hlater⟩⟩ := h
    have hline : '\n' ∉ '/' :: '/' :: body := by simpa using hfits.1
    have hspelled : withReturns ('/' :: '/' :: body ++ '\n' :: later.flatMap Piece.text) =
        '/' :: '/' :: body ++ '\r' :: '\n' :: withReturns (later.flatMap Piece.text) := by
      rw [withReturns_append, withReturns_eq_self hline, withReturns_lineFeed]
    rw [returned, List.flatMap_cons, List.flatMap_cons, ih hlater]
    refine Eq.trans ?_ hspelled.symm
    simp [Piece.text]
  | case4 piece later hblank hline ih =>
    obtain _ | ⟨hfits, hlater⟩ := h
    rw [returned, List.flatMap_cons, List.flatMap_cons, withReturns_append, ih hlater,
      text_withReturns hfits hblank]
    · exact hblank
    · exact hline

/-- Where pieces that fit go on with a line feed, the first of them is that blank. -/
theorem Fitting.eq_blank_cons {ps : List Piece} (h : Fitting ps)
    (hhead : (ps.flatMap Piece.text).head? = some '\n') : ∃ later, ps = .blank '\n' :: later := by
  obtain ⟨cs, hcs⟩ := List.head?_eq_some_iff.1 hhead
  have hfront : front '\n' cs = .blank '\n' := front_blank cs (by decide +kernel)
  have hcut : '\n' :: cs = (front '\n' cs).text ++ cs := by
    rw [hfront]
    rfl
  refine ⟨pieces cs, ?_⟩
  rw [← h.pieces_eq, hcs, pieces_cons hcut, hfront]

/-- A piece that fits, fits with its returns in front of a text with returns, unless the return of
    its own line is still to come. -/
theorem fits_withReturns {piece : Piece} {rest : List Char} (hfits : piece.Fits rest)
    (hblank : piece ≠ .blank '\n')
    (hline : ∀ body, piece = .line body → rest.head? ≠ some '\n') :
    piece.withReturns.Fits (withReturns rest) := by
  have hword : continuesWord '\r' = false := by decide +kernel
  cases piece with
  | lexeme sort text =>
    refine ⟨hfits.1, ?_⟩
    have hstop := hfits.2
    rw [head?_withReturns]
    cases hhead : rest.head? with
    | none => rfl
    | some c =>
      rw [hhead] at hstop
      rw [Option.map_some, returnFor]
      split
      · exact goesOn_eq_false hword sort text
      · exact hstop
  | blank | illegal => exact hfits
  | block body => exact closer_infix_withReturns_iff.not.2 hfits
  | line body =>
    -- What ends a line comment is the end of the text or a line feed, and here it is the former.
    refine ⟨hfits.1, ?_⟩
    have hstop := hfits.2
    have hnot := hline body rfl
    cases hhead : rest.head? with
    | none =>
      rw [head?_withReturns, hhead]
      rfl
    | some c =>
      rw [hhead] at hstop hnot
      exact absurd (congrArg some (of_decide_eq_true hstop)) hnot
  | stray found =>
    obtain ⟨hhead, hstar, hslash⟩ := hfits
    refine ⟨by rw [head?_withReturns, hhead], ?_, ?_⟩
    all_goals
      cases found with
      | none => decide
      | some c =>
        rw [Option.map_some, returnFor]
        split
        · decide
        · assumption
  | unclosed body =>
    obtain ⟨rfl, hbody⟩ := hfits
    exact ⟨rfl, closer_infix_withReturns_iff.not.2 hbody⟩

/-- The returned pieces fit one before the other. -/
theorem fitting_returned {ps : List Piece} (h : Fitting ps) : Fitting (returned ps) := by
  have hreturn : classOf '\r' = .blank := by decide +kernel
  induction ps using returned.induct with
  | case1 => exact .nil
  | case2 later ih =>
    obtain _ | ⟨hfeed, hlater⟩ := h
    exact .cons hreturn (.cons hfeed (ih hlater))
  | case3 body later ih =>
    obtain _ | ⟨hfits, _ | ⟨hfeed, hlater⟩⟩ := h
    refine .cons ⟨?_, rfl⟩ (.cons hfeed (ih hlater))
    simpa using hfits.1
  | case4 piece later hblank hline ih =>
    -- The piece is no line comment at the end of a line: the line feed behind it would be a piece.
    obtain _ | ⟨hfits, hlater⟩ := h
    rw [returned]
    · refine .cons ?_ (ih hlater)
      rw [flatMap_text_returned hlater]
      refine fits_withReturns hfits hblank fun body hbody hhead => ?_
      obtain ⟨more, hmore⟩ := hlater.eq_blank_cons hhead
      exact hline body more hbody hmore
    · exact hblank
    · exact hline

/-- **The pieces of the text with returns.** -/
theorem pieces_withReturns (text : List Char) :
    pieces (withReturns text) = returned (pieces text) := by
  refine pieces_eq_iff.2 ⟨fitting_returned (fitting_pieces text), ?_⟩
  rw [flatMap_text_returned (fitting_pieces text), flatMap_text_pieces]

/-! ## 3. Walking them -/

theorem Piece.afterAll_withReturns (piece : Piece) (place : Place) :
    place.afterAll piece.withReturns.text = place.afterAll piece.text := by
  cases piece with
  | lexeme | blank | line | illegal | stray => rfl
  | block body =>
    show ((place.after '/').after '*').afterAll (_ ++ _) = _
    rw [Place.afterAll_append, Place.afterAll_withReturns, ← Place.afterAll_append]
    rfl
  | unclosed body => exact Place.afterAll_withReturns _ body

/-- Walking the returned pieces is walking the pieces, if nothing is to be found in blanks and line
    comments. -/
theorem along_returned {α : Type} {f : Piece → Place → Option α}
    (hblank : ∀ c place, f (.blank c) place = none)
    (hline : ∀ body place, f (.line body) place = none) (ps : List Piece) (place : Place) :
    along f (returned ps) place = along (fun piece => f piece.withReturns) ps place := by
  induction ps using returned.induct generalizing place with
  | case1 => rfl
  | case2 later ih =>
    rw [returned, along, along, along, hblank, hblank, Piece.withReturns_blank, hblank, ih]
    rfl
  | case3 body later ih =>
    have hplace : (place.afterAll (Piece.line (body ++ ['\r'])).text).afterAll ['\n'] =
        (place.afterAll (Piece.line body).text).afterAll ['\n'] := by
      show (((place.after '/').after '/').afterAll (body ++ ['\r'])).after '\n' = _
      rw [Place.afterAll_append]
      rfl
    rw [returned, along, along, along, along, hline, hblank, Piece.withReturns_line, hline,
      Piece.withReturns_blank, hblank, ih, Piece.text, hplace]
  | case4 piece later hb hl ih =>
    rw [returned, along, along, ih, Piece.afterAll_withReturns]
    · exact hb
    · exact hl

theorem outcome?_withReturns (piece : Piece) : piece.withReturns.outcome? = piece.outcome? := by
  cases piece <;> rfl

theorem report?_withReturns (file : String) (piece : Piece) :
    piece.withReturns.report? file =
      fun place => (piece.report? file place).map Diagnostic.withReturn := by
  funext place
  cases piece with
  | lexeme | blank | block | line | illegal => rfl
  | stray found =>
    cases found with
    | none => rfl
    | some c =>
      show some (Diagnostic.mk (.malformedComment (some (returnFor c).toString)) _) = _
      rw [toString_returnFor]
      rfl
  | unclosed body =>
    have hplace := (Piece.unclosed body).afterAll_withReturns place
    exact congrArg (fun p => some (Diagnostic.mk .unclosedComment (some ⟨file, p⟩))) hplace

theorem outcomes_withReturns (text : List Char) (place : Place) :
    outcomes (withReturns text) place = outcomes text place := by
  unfold outcomes
  rw [pieces_withReturns, along_returned (fun _ _ => rfl) (fun _ _ => rfl),
    Place.afterAll_withReturns]
  simp only [outcome?_withReturns]

theorem reports_withReturns (file : String) (text : List Char) (place : Place) :
    reports file (withReturns text) place =
      (reports file text place).map Diagnostic.withReturn := by
  unfold reports
  rw [pieces_withReturns, along_returned (fun _ _ => rfl) (fun _ _ => rfl), ← along_map]
  simp only [report?_withReturns]

/-! ## 4. Two scans -/

/-- **Carriage returns before line feeds change nothing.** From a counted line on, the scan of the
    text with returns goes through like that of the text, with the same tokens at the same places
    and the same diagnostics at the same locations; only a slash at the end of a line finds the
    carriage return where it found the line feed. -/
theorem collected_withReturns {options : Options} (hline : 1 ≤ options.line) (text : List Char) :
    (collected options text).failure = none ∧
      (collected options (withReturns text)).failure = none ∧
      (collected options (withReturns text)).tokens = (collected options text).tokens ∧
      (collected options (withReturns text)).diagnostics =
        (collected options text).diagnostics.map Diagnostic.withReturn := by
  obtain ⟨hfail, htokens, hdiag⟩ := collected_spec hline text
  obtain ⟨hfail', htokens', hdiag'⟩ := collected_spec hline (withReturns text)
  refine ⟨hfail, hfail', eq_of_map_ok_eq ?_, ?_⟩
  · rw [htokens', outcomes_withReturns, htokens]
  · rw [hdiag', reports_withReturns, hdiag]

/-- Behind a comment of each sort, a slash at the end of a line finds the carriage return. -/
theorem collected_withReturns_slash :
    (1 : Int) ≤ 3 ∧
      (collected { line := 3 } (withReturns "a//\n/*\n*/ /\n".toList)).tokens =
        (collected { line := 3 } "a//\n/*\n*/ /\n".toList).tokens ∧
      (collected { line := 3 } (withReturns "a//\n/*\n*/ /\n".toList)).diagnostics =
        [⟨.malformedComment (some "\r"), some ⟨unnamed, ⟨5, 5⟩⟩⟩] := by
  have hline : (1 : Int) ≤ ({ line := 3 } : Options).line := by decide
  obtain ⟨-, -, htokens, hdiag⟩ := collected_withReturns hline "a//\n/*\n*/ /\n".toList
  refine ⟨hline, htokens, ?_⟩
  rw [hdiag, (collected_spec hline _).2.2]
  decide +kernel

end Machine

end YaslLexis
