import YaslLexis.Proofs.Deliveries
import YaslLexis.Proofs.Fitting
import YaslLexis.Proofs.WholeScans

/-!
# Recovery from bad characters

A scan that goes on after a bad character loses that character and nothing else: with a space in its
place the text has the same tokens, and the complaint is gone.

* `Diagnostic.spot?`, `mended` -- where the bad characters stand, and the text with spaces there;
* `Piece.mend` -- the piece that a mended piece becomes;
* `mended_reports` -- mending by places is mending piece by piece;
* `pieces_mended` -- the pieces of the mended text are the mended pieces;
* **`collected_repaired`** -- the scan of the mended text has the tokens of the scan of the text,
  and of its diagnostics only that about an unclosed comment, if there is one.
-/

namespace YaslLexis

/-! ## 1. Bad characters and their places -/

/-- Where the bad character of a diagnostic stands: an illegal character at the location, a slash
    that opens no comment just before it. -/
def Diagnostic.spot? (d : Diagnostic) : Option Place :=
  match d.complaint, d.location with
  | .illegalCharacter _, some l => some l.place
  | .malformedComment _, some l => some ⟨l.place.line, l.place.column - 1⟩
  | _, _ => none

/-- A diagnostic has its bad character at the place. -/
def marked (ds : List Diagnostic) (p : Place) : Bool := ds.any fun d => d.spot? = some p

/-- The text from a place on, with a space in place of every bad character. -/
def mended (ds : List Diagnostic) : Place → List Char → List Char
  | _, [] => []
  | p, c :: cs => (if marked ds p then ' ' else c) :: mended ds (p.after c) cs

theorem mended_append (ds : List Diagnostic) (p : Place) (a b : List Char) :
    mended ds p (a ++ b) = mended ds p a ++ mended ds (p.afterAll a) b := by
  induction a generalizing p with
  | nil => rfl
  | cons c a ih => rw [List.cons_append, mended, ih, mended, Place.afterAll_cons, List.cons_append]

theorem marked_eq_false_iff {ds : List Diagnostic} {p : Place} :
    marked ds p = false ↔ ∀ d ∈ ds, d.spot? ≠ some p := by
  simp [marked]

/-- Where nothing is marked, nothing is changed. -/
theorem mended_eq_self {ds : List Diagnostic} {p : Place} {text : List Char}
    (h : ∀ q : Place, ¬ q.Before p → q.Before (p.afterAll text) → marked ds q = false) :
    mended ds p text = text := by
  induction text generalizing p with
  | nil => rfl
  | cons c cs ih =>
    have hhere : marked ds p = false :=
      h p p.not_before_self (p.before_afterAll (List.cons_ne_nil c cs))
    have hlater : mended ds (p.after c) cs = cs := by
      refine ih fun q hge hlt => h q (fun hbefore => hge ?_) hlt
      exact hbefore.trans (p.before_after c)
    rw [mended, hhere, if_neg Bool.false_ne_true, hlater]

namespace Machine

open Report

/-! ## 2. Mending piece by piece -/

/-- The piece with a space in place of its bad character. -/
def Piece.mend : Piece → Piece
  | illegal _ | stray _ => blank ' '
  | piece => piece

/-- The bad character of a diagnostic stands where its piece begins, and a piece without one stays
    as it is. -/
theorem spot?_of_report? {file : String} {piece : Piece} {place : Place} {d : Diagnostic}
    (h : piece.report? file place = some d) :
    (d.spot? = some place ∧ piece.mend = .blank ' ' ∧ ∃ c, piece.text = [c]) ∨
      (d.spot? = none ∧ piece.mend = piece) := by
  cases piece with
  | lexeme | blank | block | line => cases h
  | illegal c =>
    cases h
    exact .inl ⟨rfl, rfl, c, rfl⟩
  | stray found =>
    cases h
    have hplace : place.afterAll (Piece.stray found).lead = ⟨place.line, place.column + 1⟩ := rfl
    refine .inl ⟨?_, rfl, '/', rfl⟩
    show some (Place.mk _ ((place.afterAll (Piece.stray found).lead).column - 1)) = some place
    rw [hplace]
    show some (Place.mk place.line (place.column + 1 - 1)) = some place
    rw [Int.add_sub_cancel]
  | unclosed body =>
    cases h
    exact .inr ⟨rfl, rfl⟩

theorem mend_of_report?_eq_none {file : String} {piece : Piece} {place : Place}
    (h : piece.report? file place = none) : piece.mend = piece := by
  cases piece with
  | lexeme | blank | block | line => rfl
  | illegal | stray | unclosed => cases h

/-- No bad character of a text stands before the text. -/
theorem not_before_of_spot? {file : String} {text : List Char} {place q : Place} {d : Diagnostic}
    (hmem : d ∈ reports file text place) (hspot : d.spot? = some q) : ¬ q.Before place := by
  induction text using pieces_induction generalizing place with
  | nil => simp at hmem
  | cons c cs rest hrest ih =>
    rw [reports_cons hrest, List.mem_append, Option.mem_toList] at hmem
    rcases hmem with hmem | hmem
    · rcases spot?_of_report? hmem with ⟨hhere, -⟩ | ⟨hnone, -⟩
      · obtain rfl : place = q := Option.some.inj (hhere.symm.trans hspot)
        exact place.not_before_self
      · rw [hnone] at hspot
        cases hspot
    · intro hbefore
      exact ih hmem (hbefore.trans (place.before_afterAll (front_text_ne_nil c cs)))

/-- The mended text of the front piece, whatever was marked before it and is marked behind it. -/
theorem mended_front (file : String) {before after : List Diagnostic} {piece : Piece}
    {place : Place}
    (hbefore : ∀ d ∈ before, ∀ q, d.spot? = some q → q.Before place)
    (hafter : ∀ d ∈ after, ∀ q, d.spot? = some q → ¬ q.Before (place.afterAll piece.text)) :
    mended (before ++ ((piece.report? file place).toList ++ after)) place piece.text =
      piece.mend.text := by
  have hothers (own : List Diagnostic) (hown : ∀ d ∈ own, d.spot? = none) :
      mended (before ++ (own ++ after)) place piece.text = piece.text := by
    refine mended_eq_self fun q hge hlt => marked_eq_false_iff.2 fun d hmem hspot => ?_
    rw [List.mem_append, List.mem_append] at hmem
    rcases hmem with hmem | hmem | hmem
    · exact hge (hbefore d hmem q hspot)
    · exact absurd ((hown d hmem).symm.trans hspot) (Option.some_ne_none q).symm
    · exact hafter d hmem q hspot hlt
  cases hreport : piece.report? file place with
  | none =>
    rw [mend_of_report?_eq_none hreport]
    exact hothers [] (by simp)
  | some d =>
    rcases spot?_of_report? hreport with ⟨hspot, hmend, c, htext⟩ | ⟨hspot, hmend⟩
    · have hmarked : marked (before ++ ([d] ++ after)) place = true := by
        simp [marked, hspot]
      rw [htext, hmend, Option.toList_some, mended, hmarked, if_pos rfl]
      rfl
    · rw [hmend]
      exact hothers [d] (by simpa using hspot)

/-- **Mending by places is mending piece by piece.** -/
theorem mended_reports (file : String) (text : List Char) {before : List Diagnostic}
    {place : Place} (hbefore : ∀ d ∈ before, ∀ q, d.spot? = some q → q.Before place) :
    mended (before ++ reports file text place) place text =
      ((pieces text).map Piece.mend).flatMap Piece.text := by
  induction text using pieces_induction generalizing before place with
  | nil =>
    rw [pieces_nil]
    rfl
  | cons c cs rest hrest ih =>
    have hafter : ∀ d ∈ reports file rest (place.afterAll (front c cs).text), ∀ q,
        d.spot? = some q → ¬ q.Before (place.afterAll (front c cs).text) :=
      fun d hmem q hspot => not_before_of_spot? hmem hspot
    have hfront := mended_front file hbefore hafter
    have hlater : ∀ d ∈ before ++ ((front c cs).report? file place).toList, ∀ q,
        d.spot? = some q → q.Before (place.afterAll (front c cs).text) := by
      have hadvance := place.before_afterAll (front_text_ne_nil c cs)
      intro d hmem q hspot
      rw [List.mem_append, Option.mem_toList] at hmem
      rcases hmem with hmem | hmem
      · exact (hbefore d hmem q hspot).trans hadvance
      · rcases spot?_of_report? hmem with ⟨hhere, -⟩ | ⟨hnone, -⟩
        · obtain rfl : place = q := Option.some.inj (hhere.symm.trans hspot)
          exact hadvance
        · rw [hnone] at hspot
          cases hspot
    rw [reports_cons hrest, pieces_cons hrest, List.map_cons, List.flatMap_cons, ← hfront,
      ← ih hlater, List.append_assoc]
    conv => lhs; rw [hrest]
    exact mended_append _ place _ rest

/-! ## 3. The pieces of the mended text -/

/-- A mended text begins as the text does, or with a space in place of a character that is not a
    line feed. -/
theorem head?_mend {ps : List Piece} (h : Fitting ps) :
    ((ps.map Piece.mend).flatMap Piece.text).head? = (ps.flatMap Piece.text).head? ∨
      (((ps.map Piece.mend).flatMap Piece.text).head? = some ' ' ∧
        ∃ c, (ps.flatMap Piece.text).head? = some c ∧ c ≠ '\n') := by
  cases h with
  | nil => exact .inl rfl
  | @cons piece later hfits =>
    cases piece with
    | lexeme sort text =>
      obtain ⟨c, cs, rfl⟩ := List.exists_cons_of_ne_nil hfits.1.ne_nil
      exact .inl rfl
    | blank | block | line | unclosed => exact .inl rfl
    | illegal c =>
      have hne : c ≠ '\n' := by
        rintro rfl
        exact absurd hfits (show classOf '\n' ≠ .illegal by decide +kernel)
      exact .inr ⟨rfl, c, rfl, hne⟩
    | stray found => exact .inr ⟨rfl, '/', rfl, by decide⟩

/-- A piece that fits in front of a text fits, mended, in front of the mended text. -/
theorem fits_mend {piece : Piece} {ps : List Piece} (h : Fitting ps)
    (hfits : piece.Fits (ps.flatMap Piece.text)) :
    piece.mend.Fits ((ps.map Piece.mend).flatMap Piece.text) := by
  have hspace : classOf ' ' = .blank := by decide +kernel
  have hword : continuesWord ' ' = false := by decide +kernel
  cases piece with
  | lexeme sort text =>
    refine ⟨hfits.1, ?_⟩
    rcases head?_mend h with hsame | ⟨hhead, -⟩
    · rw [hsame]
      exact hfits.2
    · rw [hhead]
      exact goesOn_eq_false hword sort text
  | blank | block => exact hfits
  | line body =>
    refine ⟨hfits.1, ?_⟩
    rcases head?_mend h with hsame | ⟨-, c, hc, hne⟩
    · rw [hsame]
      exact hfits.2
    · have hfeed := hfits.2
      rw [hc] at hfeed
      exact absurd (of_decide_eq_true hfeed) hne
  | illegal | stray => exact hspace
  | unclosed body =>
    refine ⟨?_, hfits.2⟩
    rcases head?_mend h with hsame | ⟨-, c, hc, -⟩
    · rw [hfits.1] at hsame
      exact List.head?_eq_none_iff.1 hsame
    · rw [hfits.1] at hc
      cases hc

theorem fitting_mend {ps : List Piece} (h : Fitting ps) : Fitting (ps.map Piece.mend) := by
  induction h with
  | nil => exact .nil
  | cons hfits hlater ih => exact .cons (fits_mend hlater hfits) ih

/-- A space takes up what the bad character did. -/
theorem afterAll_mend {piece : Piece} {rest : List Char} (h : piece.Fits rest) (place : Place) :
    place.afterAll piece.mend.text = place.afterAll piece.text := by
  cases piece with
  | lexeme | blank | block | line | unclosed => rfl
  | stray => rfl
  | illegal c =>
    have hne : c ≠ '\n' := by
      rintro rfl
      exact absurd h (show classOf '\n' ≠ .illegal by decide +kernel)
    show place.after ' ' = place.after c
    rw [Place.after_of_ne (by decide), Place.after_of_ne hne]

/-- Walking the mended pieces is walking the pieces, with the same places. -/
theorem along_mend {α : Type} (f : Piece → Place → Option α) {ps : List Piece} (h : Fitting ps)
    (place : Place) :
    along f (ps.map Piece.mend) place = along (fun piece => f piece.mend) ps place ∧
      place.afterAll ((ps.map Piece.mend).flatMap Piece.text) =
        place.afterAll (ps.flatMap Piece.text) := by
  induction h generalizing place with
  | nil => exact ⟨rfl, rfl⟩
  | @cons piece later hfits _ ih =>
    obtain ⟨hwalk, hend⟩ := ih (place.afterAll piece.text)
    rw [List.map_cons, along, along, List.flatMap_cons, List.flatMap_cons, Place.afterAll_append,
      Place.afterAll_append, afterAll_mend hfits, hwalk, hend]
    exact ⟨rfl, rfl⟩

/-! ## 4. What is left to complain about -/

theorem outcome?_mend (piece : Piece) : piece.mend.outcome? = piece.outcome? := by
  cases piece <;> rfl

/-- The text ends inside a block comment. -/
def unclosed (d : Diagnostic) : Bool := d.complaint = .unclosedComment

theorem report?_mend (file : String) (piece : Piece) (place : Place) :
    (piece.mend.report? file place).toList =
      (piece.report? file place).toList.filter unclosed := by
  cases piece <;> rfl

theorem along_report?_mend (file : String) (ps : List Piece) (place : Place) :
    along (fun piece => piece.mend.report? file) ps place =
      (along (Piece.report? file) ps place).filter unclosed := by
  induction ps generalizing place with
  | nil => rfl
  | cons piece later ih => rw [along, along, List.filter_append, report?_mend, ih]

/-- An unclosed comment is the last piece, so that there is at most one. -/
theorem length_filter_unclosed_le {ps : List Piece} (h : Fitting ps) (file : String)
    (place : Place) :
    ((along (Piece.report? file) ps place).filter unclosed).length ≤ 1 := by
  induction h generalizing place with
  | nil => exact Nat.zero_le 1
  | @cons piece later hfits hlater ih =>
    rw [along, List.filter_append, List.length_append]
    cases piece with
    | unclosed body =>
      have hnone : later = [] := by
        have heq := hlater.pieces_eq
        rw [hfits.1, pieces_nil] at heq
        exact heq.symm
      rw [hnone]
      exact Nat.le_refl 1
    | lexeme | blank | block | line | illegal | stray =>
      simpa [Piece.report?, Piece.complaint?, unclosed] using ih _

/-- The text with a space in place of every bad character that its scan finds. -/
def repaired (options : Options) (text : List Char) : List Char :=
  mended (collected options text).diagnostics ⟨options.line, 1⟩ text

theorem pieces_mended (file : String) (text : List Char) (place : Place) :
    pieces (mended (reports file text place) place text) = (pieces text).map Piece.mend := by
  have hnone : ∀ d ∈ ([] : List Diagnostic), ∀ q, d.spot? = some q → q.Before place := by simp
  have hmended := mended_reports file text hnone
  rw [List.nil_append] at hmended
  rw [hmended]
  exact (fitting_mend (fitting_pieces text)).pieces_eq

theorem outcomes_mended (file : String) (text : List Char) (place : Place) :
    outcomes (mended (reports file text place) place text) place = outcomes text place := by
  obtain ⟨hwalk, hend⟩ := along_mend Piece.outcome? (fitting_pieces text) place
  rw [← pieces_mended file text place, flatMap_text_pieces, flatMap_text_pieces] at hend
  unfold outcomes
  rw [pieces_mended, hwalk, hend]
  simp only [outcome?_mend]

theorem reports_mended (file : String) (text : List Char) (place : Place) :
    reports file (mended (reports file text place) place text) place =
      (reports file text place).filter unclosed := by
  unfold reports
  rw [← along_report?_mend, ← (along_mend _ (fitting_pieces text) place).1, ← pieces_mended file]
  rfl

/-- **Recovery damages nothing but the bad characters.** With a space in place of every illegal
    character and of every slash that opens no comment, as the diagnostics of the scan locate them,
    a text has the same tokens, each at the same place, and its only diagnostic is that of an
    unclosed comment, if the scan of the text had it. -/
theorem collected_repaired {options : Options} (hline : 1 ≤ options.line) (text : List Char) :
    (collected options (repaired options text)).failure = none ∧
      (collected options (repaired options text)).tokens = (collected options text).tokens ∧
      (collected options (repaired options text)).diagnostics =
        (collected options text).diagnostics.filter (fun d => d.complaint = .unclosedComment) ∧
      (collected options (repaired options text)).diagnostics.length ≤ 1 := by
  obtain ⟨-, htokens, hdiag⟩ := collected_spec hline text
  obtain ⟨hfail, htokens', hdiag'⟩ := collected_spec hline (repaired options text)
  have hrepaired : repaired options text =
      mended (reports options.file text ⟨options.line, 1⟩) ⟨options.line, 1⟩ text := by
    rw [repaired, hdiag]
  rw [hrepaired] at htokens' hdiag'
  rw [outcomes_mended, ← htokens] at htokens'
  rw [reports_mended] at hdiag'
  rw [hrepaired, hdiag', hdiag]
  refine ⟨hrepaired ▸ hfail, eq_of_map_ok_eq htokens', rfl, ?_⟩
  exact length_filter_unclosed_le (fitting_pieces text) options.file _

/-- A slash in front of an illegal character, and a comment that is not closed. -/
theorem collected_repaired_slash :
    (1 : Int) ≤ 4 ∧ repaired { line := 4 } ['a', '/', '#', 'b', '/', '*'] =
        ['a', ' ', ' ', 'b', '/', '*'] ∧
      (collected { line := 4 } ['a', ' ', ' ', 'b', '/', '*']).tokens =
        (collected { line := 4 } ['a', '/', '#', 'b', '/', '*']).tokens := by
  have hline : (1 : Int) ≤ ({ line := 4 } : Options).line := by decide
  have hrepaired : repaired { line := 4 } ['a', '/', '#', 'b', '/', '*'] =
      ['a', ' ', ' ', 'b', '/', '*'] := by decide +kernel
  obtain ⟨-, htokens, -, -⟩ := collected_repaired hline ['a', '/', '#', 'b', '/', '*']
  rw [hrepaired] at htokens
  exact ⟨by decide, hrepaired, htokens⟩

end Machine

end YaslLexis
