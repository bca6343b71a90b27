import YaslLexis.Proofs.Following
import YaslLexis.Proofs.Outcomes

/-!
# One call for a token

What `Scan.next` does, for any observer, in terms of the text still to come: it offers the
diagnostics of a stretch of the text, in order, and stops at the first that is refused, at the first
lexeme, or at the end.

* `Observed` -- what an observer was offered and how it answered;
* `Delivery` -- how the offers use up the diagnostics that are due: a refused complaint about a
  comment is lost, a refused illegal character comes again;
* `Passage` -- where a call begins and where it leaves the scan;
* `Ending` -- the three ways in which a call ends;
* **`next_spec`** -- every call is such a passage with such an ending.
-/

namespace YaslLexis

/-! ## 1. Offers -/

/-- The complaint is about a comment. What is consumed is then consumed before the report. -/
def Complaint.aboutComment : Complaint → Bool
  | malformedComment _ | unclosedComment => true
  | _ => false

/-- The diagnostic is about a comment. -/
def Diagnostic.aboutComment (d : Diagnostic) : Bool := d.complaint.aboutComment

namespace Machine

/-- A diagnostic that was offered, and how it was refused, if it was. -/
structure Offer where
  diagnostic : Diagnostic
  refusal : Option Failure
deriving Repr

/-- None of the offers was refused. -/
def AllTaken (log : List Offer) : Prop := ∀ offer ∈ log, offer.refusal = none

theorem AllTaken.cons {d : Diagnostic} {log : List Offer} (h : AllTaken log) :
    AllTaken (⟨d, none⟩ :: log) := by
  intro offer hmem
  rcases List.mem_cons.1 hmem with rfl | hmem
  · rfl
  · exact h offer hmem

/-- Between two states the observer was offered these diagnostics and answered so; the tokens that
    it heard of are left out. -/
inductive Observed {σ : Type} [Observer σ] : σ → List Offer → σ → Prop where
  | rest (x : σ) : Observed x [] x
  | offered {d : Diagnostic} {x y z : σ} {refusal : Option Failure} {log : List Offer} :
      Observer.offer d x = (y, refusal) → Observed y log z → Observed x (⟨d, refusal⟩ :: log) z
  | heard {t : Token} {x z : σ} {log : List Offer} :
      Observed (Observer.heard t x) log z → Observed x log z

/-- The offers use up the diagnostics that are due, from the first on, and leave `later`. -/
inductive Delivery : List Diagnostic → List Offer → List Diagnostic → Prop where
  | rest (due : List Diagnostic) : Delivery due [] due
  /-- A diagnostic that is taken is not offered again. -/
  | taken {d : Diagnostic} {due later : List Diagnostic} {log : List Offer} :
      Delivery due log later → Delivery (d :: due) (⟨d, none⟩ :: log) later
  /-- A refused complaint about a character stays due. -/
  | again {d : Diagnostic} {due later : List Diagnostic} {log : List Offer} {f : Failure} :
      d.aboutComment = false → Delivery (d :: due) log later →
      Delivery (d :: due) (⟨d, some f⟩ :: log) later
  /-- A refused complaint about a comment does not. -/
  | lost {d : Diagnostic} {due later : List Diagnostic} {log : List Offer} {f : Failure} :
      d.aboutComment = true → Delivery due log later →
      Delivery (d :: due) (⟨d, some f⟩ :: log) later

section Trans

variable {σ : Type} [Observer σ] {x y z : σ} {due mid later : List Diagnostic}
  {log more : List Offer}

theorem Observed.trans (h : Observed x log y) (h' : Observed y more z) :
    Observed x (log ++ more) z := by
  induction h with
  | rest => exact h'
  | offered hoffer _ ih => exact .offered hoffer (ih h')
  | heard _ ih => exact .heard (ih h')

theorem Delivery.trans (h : Delivery due log mid) (h' : Delivery mid more later) :
    Delivery due (log ++ more) later := by
  induction h with
  | rest => exact h'
  | taken _ ih => exact .taken (ih h')
  | again hd _ ih => exact .again hd (ih h')
  | lost hd _ ih => exact .lost hd (ih h')

end Trans

/-! ## 2. Passages and endings -/

section Passage

variable {σ : Type} [Observer σ]

/-- From a scan that is at a text and a place to one that is at others: the log tells what was
    offered between them, and of the diagnostics about the first text those about the second are
    still due. -/
structure Passage (s : Scan σ) (text : List Char) (place : Place) (log : List Offer)
    (s' : Scan σ) (text' : List Char) (place' : Place) : Prop where
  file : s'.file = s.file
  at' : s'.ahead.At text' place'
  observed : Observed s.observer log s'.observer
  delivery : Delivery (reports s.file text place) log (reports s.file text' place')

/-- How a call ends that begins at a text and a place and leaves the scan at others. -/
inductive Ending (file : String) (text : List Char) (place : Place) (text' : List Char)
    (place' : Place) (log : List Offer) (result : Except Failure Token) : Prop where
  /-- With the token of a lexeme, or the failure to make one. -/
  | lexeme (l : Lexeme) (sort : LexemeClass) :
      AllTaken log → result = l.token sort → outcomes text place = result :: outcomes text' place' →
      text'.length < text.length → Ending file text place text' place' log result
  /-- With the end token. -/
  | atEnd : AllTaken log → result = endAt place' → outcomes text place = [result] → text' = [] →
      Ending file text place text' place' log result
  /-- With the refusal of the last offer. -/
  | refused (taken : List Offer) (d : Diagnostic) (f : Failure) :
      log = taken ++ [⟨d, some f⟩] → AllTaken taken → result = .error f →
      outcomes text place = outcomes text' place' →
      (d.aboutComment = false → ∃ c cs, text' = c :: cs ∧ classOf c = .illegal ∧
        d = ⟨.illegalCharacter c.toString, some ⟨file, place'⟩⟩) →
      Ending file text place text' place' log result

/-- What a call does that begins at a text and a place: its passage and its ending. -/
def Call (s : Scan σ) (text : List Char) (place : Place) (answer : Scan σ × Except Failure Token) :
    Prop :=
  ∃ log text' place', Passage s text place log answer.1 text' place' ∧
    Ending s.file text place text' place' log answer.2

end Passage

namespace Ending

variable {file : String} {text rest text' : List Char} {place mid place' : Place}
  {log : List Offer} {result : Except Failure Token}

/-- A stretch without lexemes may come before. -/
theorem widen (h : Ending file rest mid text' place' log result)
    (hout : outcomes text place = outcomes rest mid) (hle : rest.length ≤ text.length) :
    Ending file text place text' place' log result := by
  cases h with
  | lexeme l sort htaken hres heq hlt =>
    exact .lexeme l sort htaken hres (hout.trans heq) (by omega)
  | atEnd htaken hres heq hnil => exact .atEnd htaken hres (hout.trans heq) hnil
  | refused taken d f hlog htaken hres heq hwhere =>
    exact .refused taken d f hlog htaken hres (hout.trans heq) hwhere

/-- An offer that was taken may come before. -/
theorem cons {d : Diagnostic} (h : Ending file text place text' place' log result) :
    Ending file text place text' place' (⟨d, none⟩ :: log) result := by
  cases h with
  | lexeme l sort htaken hres heq hlt => exact .lexeme l sort htaken.cons hres heq hlt
  | atEnd htaken hres heq hnil => exact .atEnd htaken.cons hres heq hnil
  | refused taken e f hlog htaken hres heq hwhere =>
    exact .refused (⟨d, none⟩ :: taken) e f (congrArg _ hlog) htaken.cons hres heq hwhere

/-- Where every lexeme has a token, a call ends with a token or with a refusal. -/
theorem token_or_refusal (h : Ending file text place text' place' log result)
    (hok : ∀ r ∈ outcomes text place, ∃ t, r = .ok t) :
    (∃ t, result = .ok t ∧ AllTaken log ∧
      ((t.kind ≠ .eof ∧ outcomes text place = .ok t :: outcomes text' place' ∧
          text'.length < text.length) ∨
        (t.kind = .eof ∧ outcomes text place = [.ok t] ∧ text' = []))) ∨
    (∃ taken d f, result = .error f ∧ log = taken ++ [⟨d, some f⟩] ∧ AllTaken taken ∧
      outcomes text place = outcomes text' place' ∧
      (d.aboutComment = false → ∃ c cs, text' = c :: cs ∧ classOf c = .illegal ∧
        d = ⟨.illegalCharacter c.toString, some ⟨file, place'⟩⟩)) := by
  cases h with
  | lexeme l sort htaken hres heq hlt =>
    obtain ⟨t, rfl⟩ := hok result (by rw [heq]; exact List.mem_cons_self)
    exact .inl ⟨t, rfl, htaken, .inl ⟨kind_token_ne_eof hres.symm, heq, hlt⟩⟩
  | atEnd htaken hres heq hnil =>
    obtain ⟨t, rfl⟩ := hok result (by rw [heq]; exact List.mem_cons_self)
    exact .inl ⟨t, rfl, htaken, .inr ⟨kind_of_endAt hres.symm, heq, hnil⟩⟩
  | refused taken d f hlog htaken hres heq hwhere =>
    exact .inr ⟨taken, d, f, hres, hlog, htaken, heq, hwhere⟩

/-- Where every lexeme has a token, so does every one that a call leaves to come. -/
theorem tokens_to_come (h : Ending file text place text' place' log result)
    (hok : ∀ r ∈ outcomes text place, ∃ t, r = .ok t) :
    ∀ r ∈ outcomes text' place', ∃ t, r = .ok t := by
  cases h with
  | lexeme l sort _ _ heq _ =>
    rw [heq, List.forall_mem_cons] at hok
    exact hok.2
  | atEnd _ hres heq hnil =>
    rw [hnil, outcomes_nil, ← hres, ← heq]
    exact hok
  | refused _ _ _ _ _ _ heq _ =>
    rw [← heq]
    exact hok

end Ending

/-! ## 3. A stretch before a call -/

namespace Call

variable {σ : Type} [Observer σ] {s s₁ : Scan σ} {text rest : List Char} {place mid : Place}
  {answer : Scan σ × Except Failure Token}

/-- Nothing is due about the stretch before. -/
theorem of_silent (h : Call s₁ rest mid answer) (hobserver : s₁.observer = s.observer)
    (hfile : s₁.file = s.file) (hout : outcomes text place = outcomes rest mid)
    (hrep : reports s.file text place = reports s.file rest mid)
    (hle : rest.length ≤ text.length) : Call s text place answer := by
  obtain ⟨log, text', place', hpass, hend⟩ := h
  have hobserved := hpass.observed
  have hdelivery := hpass.delivery
  rw [hobserver] at hobserved
  rw [hfile, ← hrep] at hdelivery
  rw [hfile] at hend
  exact ⟨log, text', place', ⟨hpass.file.trans hfile, hpass.at', hobserved, hdelivery⟩,
    hend.widen hout hle⟩

/-- The diagnostic about the stretch before was taken. -/
theorem of_taken (h : Call s₁ rest mid answer) {d : Diagnostic}
    (hoffer : Observer.offer d s.observer = (s₁.observer, none)) (hfile : s₁.file = s.file)
    (hout : outcomes text place = outcomes rest mid)
    (hrep : reports s.file text place = d :: reports s.file rest mid)
    (hle : rest.length ≤ text.length) : Call s text place answer := by
  obtain ⟨log, text', place', hpass, hend⟩ := h
  have hdelivery := hpass.delivery
  rw [hfile] at hdelivery hend
  refine ⟨⟨d, none⟩ :: log, text', place',
    ⟨hpass.file.trans hfile, hpass.at', .offered hoffer hpass.observed, ?_⟩,
    (hend.widen hout hle).cons⟩
  rw [hrep]
  exact .taken hdelivery

/-- An illegal character was refused, and the call ends before it. -/
theorem of_refused_illegal {c : Char} {cs : List Char} {f : Failure}
    (hat : s₁.ahead.At (c :: cs) place) (hfile : s₁.file = s.file) (hc : classOf c = .illegal)
    {d : Diagnostic} (hd : d = ⟨.illegalCharacter c.toString, some ⟨s.file, place⟩⟩)
    (hoffer : Observer.offer d s.observer = (s₁.observer, some f)) {due : List Diagnostic}
    (hrep : reports s.file (c :: cs) place = d :: due) :
    Call s (c :: cs) place (s₁, .error f) := by
  refine ⟨[⟨d, some f⟩], c :: cs, place, ⟨hfile, hat, .offered hoffer (.rest _), ?_⟩,
    .refused [] d f rfl (by simp [AllTaken]) rfl rfl fun _ => ⟨c, cs, rfl, hc, hd⟩⟩
  rw [hrep]
  exact .again (by rw [hd]; rfl) (.rest _)

/-- A complaint about a comment was refused, and the call ends behind the comment. -/
theorem of_refused_comment {d : Diagnostic} {f : Failure} (hat : s₁.ahead.At rest mid)
    (hfile : s₁.file = s.file) (hd : d.aboutComment = true)
    (hoffer : Observer.offer d s.observer = (s₁.observer, some f))
    (hout : outcomes text place = outcomes rest mid)
    (hrep : reports s.file text place = d :: reports s.file rest mid) :
    Call s text place (s₁, .error f) := by
  refine ⟨[⟨d, some f⟩], rest, mid, ⟨hfile, hat, .offered hoffer (.rest _), ?_⟩,
    .refused [] d f rfl (by simp [AllTaken]) rfl hout fun hnot => ?_⟩
  · rw [hrep]
    exact .lost hd (.rest _)
  · exact absurd (hd.symm.trans hnot) (by decide)

end Call

/-! ## 4. Following a piece -/

namespace Piece

/-- A piece is a lexeme, or it is passed over, or there is a complaint about it; the complaint comes
    before the piece is consumed if it is about a character, and afterwards if about a comment. -/
theorem cases_complaint (piece : Piece) :
    (∃ sort text, piece = .lexeme sort text) ∨
    (piece.complaint? = none ∧ ∀ place, piece.outcome? place = none) ∨
    (∃ complaint, piece.complaint? = some complaint ∧ (∀ place, piece.outcome? place = none) ∧
      ((complaint.aboutComment = false ∧ ∃ c, piece = .illegal c) ∨
        (complaint.aboutComment = true ∧ piece.lead = piece.text ∧ piece.tail = []))) := by
  cases piece with
  | lexeme sort text => exact .inl ⟨sort, text, rfl⟩
  | blank | block | line => exact .inr (.inl ⟨rfl, fun _ => rfl⟩)
  | illegal c => exact .inr (.inr ⟨_, rfl, fun _ => rfl, .inl ⟨rfl, c, rfl⟩⟩)
  | stray | unclosed => exact .inr (.inr ⟨_, rfl, fun _ => rfl, .inr ⟨rfl, rfl, rfl⟩⟩)

end Piece

section Front

variable {c : Char} {cs rest : List Char}

theorem front_eq_illegal {d : Char} (h : front c cs = .illegal d) :
    c = d ∧ classOf c = .illegal := by
  unfold front at h
  split at h
  case h_7 hc =>
    cases h
    exact ⟨rfl, hc⟩
  case h_5 =>
    cases cs with
    | nil => cases h
    | cons e es =>
      rw [slashPiece] at h
      repeat' split at h
      all_goals cases h
  all_goals cases h

/-- The part of the front piece that comes before the complaint is consumed. -/
theorem place_past_lead {s : LookAhead} {place : Place}
    (hrest : c :: cs = (front c cs).text ++ rest) (h : s.At (c :: cs) place) :
    (s.past (front c cs).lead).place = place.afterAll (front c cs).lead := by
  have hsplit : c :: cs = (front c cs).lead ++ ((front c cs).tail ++ rest) := by
    rw [← List.append_assoc, Piece.lead_append_tail, ← hrest]
  exact (LookAhead.At.past _ (hsplit ▸ h)).place

end Front

section Follow

variable {σ : Type} [Observer σ] {s : Scan σ} {piece : Piece} {later : List Piece}

theorem follow_silent (hc : piece.complaint? = none) (hl : ∀ place, piece.outcome? place = none) :
    follow (piece :: later) s = follow later (s.past piece.text) := by
  cases piece with
  | lexeme sort text => cases hl ⟨1, 1⟩
  | blank | block | line => rfl
  | illegal | stray | unclosed => cases hc

theorem follow_complaint {complaint : Complaint} (hc : piece.complaint? = some complaint) :
    follow (piece :: later) s =
      (s.past piece.lead).complaining complaint fun s => follow later (s.past piece.tail) := by
  cases piece with
  | lexeme | blank | block | line => cases hc
  | illegal | stray | unclosed =>
    cases hc
    rfl

theorem complaining_taken {complaint : Complaint} {y : σ}
    {go : Scan σ → Scan σ × Except Failure Token}
    (h : Observer.offer ⟨complaint, some ⟨s.file, s.ahead.place⟩⟩ s.observer = (y, none)) :
    s.complaining complaint go = go { s with observer := y } := by
  unfold Scan.complaining Scan.report
  rw [h]

theorem complaining_refused {complaint : Complaint} {y : σ} {f : Failure}
    {go : Scan σ → Scan σ × Except Failure Token}
    (h : Observer.offer ⟨complaint, some ⟨s.file, s.ahead.place⟩⟩ s.observer = (y, some f)) :
    s.complaining complaint go = ({ s with observer := y }, .error f) := by
  unfold Scan.complaining Scan.report
  rw [h]

/-- A piece with a complaint: the complaint is offered; if it is taken, the call goes on behind the
    piece, and if it is refused, the call ends before an illegal character, else behind the
    piece. -/
theorem call_of_complaint {c : Char} {cs rest : List Char} {place : Place} {complaint : Complaint}
    (hrest : c :: cs = (front c cs).text ++ rest) (h : s.ahead.At (c :: cs) place)
    (hc : (front c cs).complaint? = some complaint)
    (hl : ∀ place, (front c cs).outcome? place = none)
    (ih : ∀ {s : Scan σ} {place : Place}, s.ahead.At rest place →
      Call s rest place (follow (pieces rest) s)) :
    Call s (c :: cs) place (follow (pieces (c :: cs)) s) := by
  have hpast : (s.ahead.past (front c cs).text).At rest (place.afterAll (front c cs).text) :=
    LookAhead.At.past _ (hrest ▸ h)
  have hout : outcomes (c :: cs) place = outcomes rest (place.afterAll (front c cs).text) := by
    rw [outcomes_cons hrest, hl]
    rfl
  have hrep := reports_cons hrest s.file place
  rw [Piece.report?, hc, ← place_past_lead hrest h] at hrep
  have hle := Nat.le_of_lt (length_after_front_lt hrest)
  rw [pieces_cons hrest, follow_complaint hc]
  cases hoffer : Observer.offer
      ⟨complaint, some ⟨s.file, (s.ahead.past (front c cs).lead).place⟩⟩ s.observer with
  | mk y refusal =>
    cases refusal with
    | none =>
      rw [complaining_taken hoffer]
      have hsplit : s.ahead.past (front c cs).text =
          (s.ahead.past (front c cs).lead).past (front c cs).tail := by
        rw [← LookAhead.past_append, Piece.lead_append_tail]
      rw [hsplit] at hpast
      have hcall := ih (s := ({ s.past (front c cs).lead with observer := y } : Scan σ).past
        (front c cs).tail) hpast
      exact hcall.of_taken hoffer rfl hout hrep hle
    | some f =>
      rw [complaining_refused hoffer]
      rcases (front c cs).cases_complaint with ⟨sort, text, hp⟩ | ⟨hnone, -⟩ | ⟨k, hk, -, hwhen⟩
      · rw [hp] at hc
        cases hc
      · rw [hnone] at hc
        cases hc
      · obtain rfl : k = complaint := Option.some.inj (hk.symm.trans hc)
        rcases hwhen with ⟨-, d, hp⟩ | ⟨hcomment, hlead, -⟩
        · obtain ⟨rfl, hclass⟩ := front_eq_illegal hp
          rw [hp] at hc hoffer hrep ⊢
          cases hc
          exact .of_refused_illegal h rfl hclass (by rw [← h.place]; rfl) hoffer hrep
        · rw [hlead] at hoffer hrep ⊢
          have hd : Diagnostic.aboutComment
              ⟨k, some ⟨s.file, (s.ahead.past (front c cs).text).place⟩⟩ = true := hcomment
          exact .of_refused_comment hpast rfl hd hoffer hout hrep

/-- **Following the pieces of a text is a call.** -/
theorem follow_spec {text : List Char} {place : Place} (h : s.ahead.At text place) :
    Call s text place (follow (pieces text) s) := by
  induction text using pieces_induction generalizing s place with
  | nil =>
    refine ⟨[], [], place, ⟨by rw [pieces_nil]; rfl, ?_, ?_, .rest _⟩, ?_⟩
    · rw [pieces_nil]
      exact h
    · rw [pieces_nil]
      exact .rest _
    · have hend : (follow (pieces []) s).2 = endAt place := by
        rw [pieces_nil, ← h.place]
        rfl
      exact .atEnd (by simp [AllTaken]) hend (by rw [hend, outcomes_nil]) rfl
  | cons c cs rest hrest ih =>
    have hpast : (s.past (front c cs).text).ahead.At rest (place.afterAll (front c cs).text) :=
      LookAhead.At.past _ (hrest ▸ h)
    have hout := outcomes_cons hrest place
    have hrep := reports_cons hrest s.file place
    have hlt := length_after_front_lt hrest
    rcases (front c cs).cases_complaint with ⟨sort, text, hp⟩ | ⟨hc, hl⟩ | ⟨complaint, hc, hl, -⟩
    · rw [pieces_cons hrest]
      rw [hp] at hpast hout hrep ⊢
      refine ⟨[], rest, place.afterAll text, ⟨rfl, hpast, .rest _, ?_⟩, ?_⟩
      · rw [hrep]
        exact .rest _
      · rw [← h.place] at hout ⊢
        exact .lexeme _ sort (by simp [AllTaken]) rfl hout hlt
    · rw [pieces_cons hrest, follow_silent hc hl]
      rw [hl] at hout
      rw [Piece.report?, hc] at hrep
      exact (ih hpast).of_silent rfl rfl hout hrep (Nat.le_of_lt hlt)
    · exact call_of_complaint hrest h hc hl ih

/-- Hearing of the token is no offer. -/
theorem observed_next {log : List Offer}
    (h : Observed s.observer log (run s.opening).1.observer) :
    Observed s.observer log s.next.1.observer := by
  unfold Scan.next
  cases heq : run s.opening with
  | mk s' result =>
    rw [heq] at h
    cases result with
    | error f => exact h
    | ok t =>
      have hheard : Observed s.observer (log ++ []) (Observer.heard t s'.observer) :=
        h.trans (.heard (.rest _))
      rwa [List.append_nil] at hheard

/-- **What a call for a token does**, whoever watches the scan. -/
theorem next_spec {text : List Char} {place : Place} (h : s.ahead.At text place) :
    Call s text place s.next := by
  have hrun : run s.opening = follow (pieces text) s := run_eq_follow h rfl
  obtain ⟨log, text', place', hpass, hend⟩ := follow_spec h
  rw [← hrun] at hpass hend
  have hobserved := observed_next hpass.observed
  refine ⟨log, text', place', ?_⟩
  unfold Scan.next at hobserved ⊢
  cases heq : run s.opening with
  | mk s' result =>
    rw [heq] at hpass hend hobserved
    cases result with
    | error f => exact ⟨hpass, hend⟩
    | ok t => exact ⟨⟨hpass.file, hpass.at', hobserved, hpass.delivery⟩, hend⟩

/-- A call that begins at an illegal character offers it first. -/
theorem next_of_illegal {c : Char} {cs : List Char} {place : Place}
    (h : s.ahead.At (c :: cs) place) (hc : classOf c = .illegal) :
    ∃ answer log, Observed s.observer
      (⟨⟨.illegalCharacter c.toString, some ⟨s.file, place⟩⟩, answer⟩ :: log)
      s.next.1.observer := by
  have hfront := front_illegal cs hc
  have hrest : c :: cs = (front c cs).text ++ cs := by rw [hfront]; rfl
  have hfollow : run s.opening = s.complaining (.illegalCharacter c.toString)
      fun s => follow (pieces cs) (s.past [c]) := by
    have hrun : run s.opening = follow (pieces (c :: cs)) s := run_eq_follow h rfl
    rw [hrun, pieces_cons hrest, hfront]
    rfl
  rw [← h.place]
  cases hoffer : Observer.offer ⟨.illegalCharacter c.toString, some ⟨s.file, s.ahead.place⟩⟩
      s.observer with
  | mk y refusal =>
    cases refusal with
    | some f =>
      rw [complaining_refused hoffer] at hfollow
      refine ⟨some f, [], observed_next ?_⟩
      rw [hfollow]
      exact .offered hoffer (.rest _)
    | none =>
      rw [complaining_taken hoffer] at hfollow
      have hnext : (({ s with observer := y } : Scan σ).past [c]).ahead.At cs (place.after c) :=
        h.advance
      obtain ⟨log, _, _, hpass, -⟩ := follow_spec hnext
      refine ⟨none, log, observed_next ?_⟩
      rw [hfollow]
      exact .offered hoffer hpass.observed

end Follow

end Machine

end YaslLexis
