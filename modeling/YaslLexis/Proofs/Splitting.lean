import YaslLexis.Proofs.WholeScans

/-!
# A text split at a line feed

A line feed ends every piece but a block comment, and no place behind it depends on what stands
before it, apart from the number of its lines. So the two parts of a text that is split at a line
feed can be scanned one by one, unless the first part ends inside a block comment or with a slash
that opens no comment.

* `Piece.Cut` -- the pieces that the end of the text cuts off;
* `front_append_lineFeed`, `pieces_append_lineFeed` -- the other pieces end before a line feed;
* `place_after_lineFeed` -- the place behind a line feed;
* **`collected_append_lineFeed`** -- the tokens and the diagnostics of both parts, one after the
  other, are those of the text.
-/

namespace YaslLexis

/-! ## 1. Places behind a line feed -/

theorem Place.line_afterAll (p : Place) (text : List Char) :
    (p.afterAll text).line = p.line + text.count '\n' := by
  induction text generalizing p with
  | nil => simp
  | cons c cs ih =>
    rw [Place.afterAll_cons, ih]
    by_cases hc : c = '\n'
    · subst hc
      rw [Place.after_lineFeed, List.count_cons_self]
      push_cast
      omega
    · rw [Place.after_of_ne hc, List.count_cons_of_ne hc]

/-- Behind a line feed a line begins, and only its number depends on what stood before. -/
theorem place_after_lineFeed (p : Place) (text : List Char) :
    (p.afterAll text).after '\n' = ⟨p.line + text.count '\n' + 1, 1⟩ := by
  rw [Place.after_lineFeed, Place.line_afterAll]

namespace Machine

open Report

/-! ## 2. Pieces behind a line feed -/

/-- The end of the text cuts the piece off: with more text it may be another. -/
def Piece.Cut (piece : Piece) : Prop := piece = .stray none ∨ ∃ body, piece = .unclosed body

theorem takeWhile_append_cons {p : Char → Bool} {c : Char} (hc : p c = false) (a b : List Char) :
    (a ++ c :: b).takeWhile p = a.takeWhile p := by
  rw [List.takeWhile_append, List.takeWhile_cons_of_neg (by simp [hc]), List.append_nil]
  split
  · rename_i hlength
    exact ((List.takeWhile_prefix p).eq_of_length hlength).symm
  · rfl

/-- A comment that is closed stays so with more text. -/
theorem untilClosed_append_right {s body : List Char} (h : untilClosed s = some body)
    (more : List Char) : untilClosed (s ++ more) = some body := by
  obtain ⟨hfree, rest, rfl⟩ := untilClosed_eq_some_iff.1 h
  exact untilClosed_eq_some_iff.2 ⟨hfree, rest ++ more, by simp⟩

section LineFeed

variable (v : List Char)

theorem slashPiece_append_lineFeed {cs : List Char} (h : ¬ (slashPiece cs).Cut) :
    slashPiece (cs ++ '\n' :: v) = slashPiece cs := by
  cases cs with
  | nil => exact absurd (.inl rfl) h
  | cons d ds =>
    rw [slashPiece] at h
    rw [List.cons_append, slashPiece, slashPiece]
    by_cases hstar : d = '*'
    · rw [if_pos hstar] at h
      rw [if_pos hstar, if_pos hstar]
      cases hbody : untilClosed ds with
      | none =>
        rw [hbody] at h
        exact absurd (.inr ⟨ds, rfl⟩) h
      | some body => rw [untilClosed_append_right hbody]
    · by_cases hslash : d = '/'
      · rw [if_neg hstar, if_neg hstar, if_pos hslash, if_pos hslash,
          takeWhile_append_cons (by decide)]
      · rw [if_neg hstar, if_neg hstar, if_neg hslash, if_neg hslash]

/-- Whatever stands at the front of a text, a line feed at the end of the text does not change it,
    unless the end cuts it off. -/
theorem front_append_lineFeed {c : Char} {cs : List Char} (h : ¬ (front c cs).Cut) :
    front c (cs ++ '\n' :: v) = front c cs := by
  have hdigit : Text.isDigit '\n' = false := by decide +kernel
  have hword : continuesWord '\n' = false := by decide +kernel
  unfold front at h ⊢
  cases hc : classOf c with
  | zero | operator | blank | illegal => rfl
  | digit =>
    dsimp only
    rw [takeWhile_append_cons hdigit]
  | letter =>
    dsimp only
    rw [takeWhile_append_cons hword]
  | slash =>
    rw [hc] at h
    exact slashPiece_append_lineFeed v h

/-- **The pieces of a text that goes on behind a line feed.** -/
theorem pieces_append_lineFeed {u : List Char} (h : ∀ piece ∈ pieces u, ¬ piece.Cut) :
    pieces (u ++ '\n' :: v) = pieces u ++ .blank '\n' :: pieces v := by
  induction u using pieces_induction with
  | nil =>
    have hfront : front '\n' v = .blank '\n' := front_blank v (by decide +kernel)
    have hrest : '\n' :: v = (front '\n' v).text ++ v := by
      rw [hfront]
      rfl
    rw [List.nil_append, pieces_cons hrest, hfront, pieces_nil, List.nil_append]
  | cons c cs rest hrest ih =>
    rw [pieces_cons hrest, List.forall_mem_cons] at h
    have hfront := front_append_lineFeed v h.1
    have hmore : c :: (cs ++ '\n' :: v) =
        (front c (cs ++ '\n' :: v)).text ++ (rest ++ '\n' :: v) := by
      rw [hfront, ← List.append_assoc, ← hrest]
      rfl
    rw [List.cons_append, pieces_cons hmore, hfront, ih h.2, pieces_cons hrest, List.cons_append]

theorem along_append_lineFeed {α : Type} (f : Piece → Place → Option α)
    (hf : ∀ place, f (.blank '\n') place = none) {u : List Char}
    (h : ∀ piece ∈ pieces u, ¬ piece.Cut) (place : Place) :
    along f (pieces (u ++ '\n' :: v)) place =
      along f (pieces u) place ++ along f (pieces v) ⟨place.line + u.count '\n' + 1, 1⟩ := by
  rw [pieces_append_lineFeed v h, along_append, flatMap_text_pieces, along, hf,
    ← place_after_lineFeed]
  rfl

theorem outcomes_append_lineFeed {u : List Char} (h : ∀ piece ∈ pieces u, ¬ piece.Cut)
    (place : Place) :
    outcomes (u ++ '\n' :: v) place =
      along Piece.outcome? (pieces u) place ++
        outcomes v ⟨place.line + u.count '\n' + 1, 1⟩ := by
  unfold outcomes
  rw [along_append_lineFeed v _ (fun _ => rfl) h, List.append_assoc, Place.afterAll_append,
    Place.afterAll_cons, place_after_lineFeed]

theorem reports_append_lineFeed (file : String) {u : List Char}
    (h : ∀ piece ∈ pieces u, ¬ piece.Cut) (place : Place) :
    reports file (u ++ '\n' :: v) place =
      reports file u place ++ reports file v ⟨place.line + u.count '\n' + 1, 1⟩ :=
  along_append_lineFeed v _ (fun _ => rfl) h place

end LineFeed

/-! ## 3. What is cut off is reported -/

theorem exists_report {piece : Piece} {complaint : Complaint}
    (hc : piece.complaint? = some complaint) (file : String) {ps : List Piece}
    (hmem : piece ∈ ps) (place : Place) :
    ∃ d ∈ along (Piece.report? file) ps place, d.complaint = complaint := by
  induction ps generalizing place with
  | nil => cases hmem
  | cons p ps ih =>
    rw [along]
    rcases List.mem_cons.1 hmem with rfl | hmem
    · exact ⟨⟨complaint, some ⟨file, place.afterAll piece.lead⟩⟩, by simp [Piece.report?, hc], rfl⟩
    · obtain ⟨d, hd, heq⟩ := ih hmem (place.afterAll p.text)
      exact ⟨d, List.mem_append_right _ hd, heq⟩

/-- A text without the two complaints has no piece that its end cuts off. -/
theorem not_cut_of_reports {file : String} {text : List Char} {place : Place}
    (h : ∀ d ∈ reports file text place,
      d.complaint ≠ .unclosedComment ∧ d.complaint ≠ .malformedComment none) :
    ∀ piece ∈ pieces text, ¬ piece.Cut := by
  intro piece hmem hcut
  rcases hcut with rfl | ⟨body, rfl⟩
  · obtain ⟨d, hd, heq⟩ := exists_report rfl file hmem place
    exact (h d hd).2 heq
  · obtain ⟨d, hd, heq⟩ := exists_report rfl file hmem place
    exact (h d hd).1 heq

/-! ## 4. Three scans -/

/-- **A text split at a line feed.** If the scan of `u` finds neither an unclosed comment nor a
    slash at the end, then the scan of `u`, a line feed and `v` gives the tokens of `u` without the
    end token and then those of `v`, scanned by itself from the line on which it begins; and its
    diagnostics are those of `u` and then those of `v`. -/
theorem collected_append_lineFeed {options : Options} (hline : 1 ≤ options.line)
    {u : List Char} (v : List Char)
    (hwhole : ∀ d ∈ (collected options u).diagnostics,
      d.complaint ≠ .unclosedComment ∧ d.complaint ≠ .malformedComment none) :
    (collected options (u ++ '\n' :: v)).failure = none ∧
      (∃ tokens stop, (collected options u).tokens = tokens ++ [stop] ∧ stop.kind = .eof ∧
        (collected options (u ++ '\n' :: v)).tokens =
          tokens ++ (collected { options with line := options.line + u.count '\n' + 1 } v).tokens) ∧
      (collected options (u ++ '\n' :: v)).diagnostics =
        (collected options u).diagnostics ++
          (collected { options with line := options.line + u.count '\n' + 1 } v).diagnostics := by
  have hline' : 1 ≤ ({ options with line := options.line + u.count '\n' + 1 } : Options).line := by
    show 1 ≤ options.line + u.count '\n' + 1
    omega
  obtain ⟨-, htokens, hdiag⟩ := collected_spec hline u
  obtain ⟨hfail, htokens', hdiag'⟩ := collected_spec hline (u ++ '\n' :: v)
  obtain ⟨-, htokens'', hdiag''⟩ := collected_spec hline' v
  rw [hdiag] at hwhole
  have hcut := not_cut_of_reports hwhole
  refine ⟨hfail, ?_, ?_⟩
  · obtain ⟨tokens, last, hsplit, hgiven, hlast⟩ := List.map_eq_append_iff.1 htokens
    obtain ⟨stop, rfl, hstop⟩ := List.map_eq_singleton_iff.1 hlast
    refine ⟨tokens, stop, hsplit, kind_of_endAt hstop.symm, ?_⟩
    apply eq_of_map_ok_eq
    rw [htokens', outcomes_append_lineFeed v hcut, List.map_append, hgiven, htokens'']
  · rw [hdiag, hdiag', hdiag'']
    exact reports_append_lineFeed v options.file hcut _

/-- A line comment may run to the end of the first part. -/
theorem collected_comment_lineFeed :
    (1 : Int) ≤ 5 ∧ (collected { line := 5 } ['a', '/', '/']).diagnostics = [] ∧
      (collected { line := 5 } ['a', '/', '/', '\n', '#']).diagnostics =
        (collected { line := 6 } ['#']).diagnostics := by
  have hline : (1 : Int) ≤ ({ line := 5 } : Options).line := by decide
  have hnone : (collected { line := 5 } ['a', '/', '/']).diagnostics = [] := by
    rw [(collected_spec hline _).2.2]
    decide +kernel
  obtain ⟨-, -, hdiag⟩ := collected_append_lineFeed hline ['#'] (by rw [hnone]; simp)
  rw [hnone] at hdiag
  exact ⟨by decide, hnone, hdiag⟩

end Machine

end YaslLexis
