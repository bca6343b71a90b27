import YaslLexis.Proofs.Calls

/-!
# What becomes of the diagnostics that are due

Every diagnostic about a text is offered until it is taken, but for the complaints about comments,
which are offered once. Read off a log of offers, this is an account of the diagnostics.

* `offered`, `accepted`, `refused` -- what a log says;
* `Place.Before` -- the order of places in a text;
* `nodup_comments_reports` -- no two complaints about comments of a text are the same;
* **`Delivery.comments_eq`** -- the complaints about comments are offered in order, each once;
* **`Delivery.kept_eq`** -- what is taken are the diagnostics that were due, without the complaints
  about comments that were refused.
-/

namespace YaslLexis

/-! ## 1. The order of places -/

namespace Place

/-- One place comes before another. -/
def Before (p q : Place) : Prop := p.line < q.line ∨ (p.line = q.line ∧ p.column < q.column)

variable {p q r : Place}

theorem Before.trans (h : p.Before q) (h' : q.Before r) : p.Before r := by
  unfold Before at *
  omega

theorem not_before_self (p : Place) : ¬ p.Before p := by
  unfold Before
  omega

theorem before_after (p : Place) (c : Char) : p.Before (p.after c) := by
  by_cases hc : c = '\n'
  · subst hc
    exact .inl (Int.lt_succ p.line)
  · rw [after_of_ne hc]
    exact .inr ⟨rfl, Int.lt_succ p.column⟩

theorem before_afterAll (p : Place) {text : List Char} (h : text ≠ []) :
    p.Before (p.afterAll text) := by
  induction text generalizing p with
  | nil => exact absurd rfl h
  | cons c cs ih =>
    rw [afterAll_cons]
    by_cases hcs : cs = []
    · subst hcs
      exact p.before_after c
    · exact (p.before_after c).trans (ih (p.after c) hcs)

end Place

namespace Machine

/-! ## 2. What a log says -/

/-- The diagnostics that were offered, each as often as it was. -/
def offered (log : List Offer) : List Diagnostic := log.map Offer.diagnostic

/-- The diagnostics that were taken. -/
def accepted (log : List Offer) : List Diagnostic :=
  (log.filter fun offer => offer.refusal.isNone).map Offer.diagnostic

/-- An offer of the diagnostic was refused. -/
def refused (log : List Offer) (d : Diagnostic) : Bool :=
  log.any fun offer => offer.diagnostic = d && offer.refusal.isSome

/-- The number of refusals. -/
def refusals (log : List Offer) : Nat := log.countP fun offer => offer.refusal.isSome

/-- The diagnostics about comments. -/
def comments (ds : List Diagnostic) : List Diagnostic := ds.filter Diagnostic.aboutComment

theorem comments_append (a b : List Diagnostic) : comments (a ++ b) = comments a ++ comments b :=
  List.filter_append ..

theorem comments_cons_of_true {d : Diagnostic} (h : d.aboutComment = true)
    (ds : List Diagnostic) : comments (d :: ds) = d :: comments ds := List.filter_cons_of_pos h

theorem comments_cons_of_false {d : Diagnostic} (h : d.aboutComment = false)
    (ds : List Diagnostic) : comments (d :: ds) = comments ds :=
  List.filter_cons_of_neg (by simp [h])

theorem refusals_append (a b : List Offer) : refusals (a ++ b) = refusals a + refusals b :=
  List.countP_append ..

theorem mem_offered_of_refused {log : List Offer} {d : Diagnostic} (h : refused log d = true) :
    d ∈ offered log := by
  obtain ⟨offer, hmem, hoffer⟩ := List.any_eq_true.1 h
  have hd : offer.diagnostic = d := by simpa using (Bool.and_eq_true_iff.1 hoffer).1
  exact List.mem_map.2 ⟨offer, hmem, hd⟩

/-! ## 3. Accounts of a delivery -/

/-- A diagnostic that is not a complaint about a comment that was refused. -/
def kept (log : List Offer) (d : Diagnostic) : Bool := !(d.aboutComment && refused log d)

namespace Delivery

variable {due later : List Diagnostic} {log : List Offer}

/-- **The complaints about comments are offered in order, each once.** -/
theorem comments_eq (h : Delivery due log later) :
    comments due = comments (offered log) ++ comments later := by
  induction h with
  | rest => rfl
  | @taken d due later log _ ih =>
    have hlog : offered (⟨d, none⟩ :: log) = d :: offered log := rfl
    rw [hlog]
    cases hd : d.aboutComment with
    | true => rw [comments_cons_of_true hd, comments_cons_of_true hd, ih, List.cons_append]
    | false => rw [comments_cons_of_false hd, comments_cons_of_false hd, ih]
  | @again d due later log f hd _ ih =>
    have hlog : offered (⟨d, some f⟩ :: log) = d :: offered log := rfl
    rw [hlog, comments_cons_of_false hd (offered log), ih]
  | @lost d due later log f hd _ ih =>
    have hlog : offered (⟨d, some f⟩ :: log) = d :: offered log := rfl
    rw [hlog, comments_cons_of_true hd, comments_cons_of_true hd, ih, List.cons_append]

/-- A comment that is due once more is not among those offered. -/
theorem not_refused (h : Delivery due log later) {d : Diagnostic} (hd : d.aboutComment = true)
    (hnot : d ∉ comments due) : refused log d = false := by
  rw [h.comments_eq, List.mem_append, not_or] at hnot
  rw [← Bool.not_eq_true]
  intro hrefused
  exact hnot.1 (List.mem_filter.2 ⟨mem_offered_of_refused hrefused, hd⟩)

/-- **What is taken is what was due**, without the complaints about comments that were refused. -/
theorem kept_eq (h : Delivery due log later) (hnodup : (comments due).Nodup) :
    due.filter (kept log) = accepted log ++ later := by
  induction h with
  | rest due =>
    rw [List.filter_eq_self.2 fun d _ => by simp [kept, refused]]
    rfl
  | @taken d due later log hrest ih =>
    have hsame : kept (⟨d, none⟩ :: log) = kept log := by
      funext e
      simp [kept, refused]
    have hkept : kept log d = true := by
      cases hd : d.aboutComment with
      | false => simp [kept, hd]
      | true =>
        rw [comments_cons_of_true hd, List.nodup_cons] at hnodup
        simp [kept, hrest.not_refused hd hnodup.1]
    have hdue : (comments due).Nodup := hnodup.sublist ((List.sublist_cons_self d due).filter _)
    rw [hsame, List.filter_cons_of_pos hkept, ih hdue]
    rfl
  | @again d due later log f hd hrest ih =>
    have hsame : kept (⟨d, some f⟩ :: log) = kept log := by
      funext e
      unfold kept
      by_cases he : d = e
      · rw [← he, hd, Bool.false_and, Bool.false_and]
      · simp [refused, he]
    rw [hsame, ih hnodup]
    rfl
  | @lost d due later log f hd hrest ih =>
    rw [comments_cons_of_true hd, List.nodup_cons] at hnodup
    have hkept : ¬ kept (⟨d, some f⟩ :: log) d = true := by simp [kept, refused, hd]
    have hsame : due.filter (kept (⟨d, some f⟩ :: log)) = due.filter (kept log) := by
      refine List.filter_congr fun e hmem => ?_
      unfold kept
      by_cases he : d = e
      · subst he
        exact absurd (List.mem_filter.2 ⟨hmem, hd⟩) hnodup.1
      · simp [refused, he]
    rw [List.filter_cons_of_neg hkept, hsame, ih hnodup.2]
    rfl

end Delivery

/-! ## 4. No complaint about a comment comes twice -/

/-- The complaints about comments in a text have places behind its beginning. -/
theorem before_of_mem_comments {file : String} {text : List Char} {place : Place} {d : Diagnostic}
    (hmem : d ∈ comments (reports file text place)) :
    ∃ p, d.location = some ⟨file, p⟩ ∧ place.Before p := by
  induction text using pieces_induction generalizing place with
  | nil => simp [comments] at hmem
  | cons c cs rest hrest ih =>
    have hbefore := place.before_afterAll (front_text_ne_nil c cs)
    rw [reports_cons hrest, comments_append, List.mem_append] at hmem
    rcases hmem with hmem | hmem
    · obtain ⟨hd, hcomment⟩ := List.mem_filter.1 hmem
      rcases (front c cs).cases_complaint with ⟨sort, text, hp⟩ | ⟨hnone, -⟩ | ⟨k, hk, -, hwhen⟩
      · simp [hp, Piece.report?, Piece.complaint?] at hd
      · simp [Piece.report?, hnone] at hd
      · obtain rfl : d = ⟨k, some ⟨file, place.afterAll (front c cs).lead⟩⟩ := by
          simpa [Piece.report?, hk] using hd
        rcases hwhen with ⟨hchar, -⟩ | ⟨-, hlead, -⟩
        · exact absurd (hchar.symm.trans hcomment) (by decide)
        · exact ⟨_, rfl, hlead ▸ hbefore⟩
    · obtain ⟨p, hp, hlater⟩ := ih hmem
      exact ⟨p, hp, hbefore.trans hlater⟩

/-- **No two complaints about comments of a text are the same**, for their places ascend. -/
theorem nodup_comments_reports (file : String) (text : List Char) (place : Place) :
    (comments (reports file text place)).Nodup := by
  induction text using pieces_induction generalizing place with
  | nil => simp [comments]
  | cons c cs rest hrest ih =>
    rw [reports_cons hrest]
    rcases (front c cs).cases_complaint with ⟨sort, text, hp⟩ | ⟨hnone, -⟩ | ⟨k, hk, -, hwhen⟩
    · have hnone : (front c cs).report? file place = none := by rw [hp]; rfl
      rw [hnone]
      exact ih _
    · have hnone : (front c cs).report? file place = none := by rw [Piece.report?, hnone]; rfl
      rw [hnone]
      exact ih _
    · have hsome : ((front c cs).report? file place).toList =
          [⟨k, some ⟨file, place.afterAll (front c cs).lead⟩⟩] := by
        rw [Piece.report?, hk]
        rfl
      rw [hsome, List.singleton_append]
      rcases hwhen with ⟨hchar, -⟩ | ⟨hcomment, hlead, -⟩
      · rw [comments_cons_of_false (show Diagnostic.aboutComment ⟨k, _⟩ = false from hchar)]
        exact ih _
      · rw [comments_cons_of_true (show Diagnostic.aboutComment ⟨k, _⟩ = true from hcomment),
          List.nodup_cons, hlead]
        refine ⟨fun hmem => ?_, ih _⟩
        obtain ⟨p, hp, hlater⟩ := before_of_mem_comments hmem
        obtain rfl : place.afterAll (front c cs).text = p := by simpa using hp
        exact Place.not_before_self _ hlater

end Machine

end YaslLexis
