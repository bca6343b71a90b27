import YaslLexis.Proofs.Consuming
import YaslLexis.Proofs.Pieces

/-!
# What a text comes to

The tokens of a text and the diagnostics about it, read off its pieces from a place on. A token may
be missing where the place is not counted from one; then what stands for it is the failure.

* `along` -- walks the pieces of a text with the place of each;
* `outcomes` -- the results of the calls for a token, the end token last;
* `reports` -- the diagnostics;
* `outcomes_ok` -- from a counted place on, every lexeme has a token.
-/

namespace YaslLexis

/-! ## 1. Counted places -/

namespace Place.Counted

variable {p : Place}

theorem after (h : p.Counted) (c : Char) : (p.after c).Counted := by
  obtain ⟨hl, hc⟩ := h
  unfold Place.after
  split
  · exact ⟨by dsimp only; omega, by dsimp only; omega⟩
  · exact ⟨hl, by dsimp only; omega⟩

theorem afterAll (h : p.Counted) (text : List Char) : (p.afterAll text).Counted := by
  induction text generalizing p with
  | nil => exact h
  | cons c cs ih => exact ih (h.after c)

end Place.Counted

/-! ## 2. Kinds and tokens -/

namespace Kind

theorem ofWord?_spec {word : String} {kind : Kind} (h : ofWord? word = some kind) :
    kind.carriesText = false ∧ kind ≠ .eof := by
  have hall : ∀ entry ∈ keywords, entry.2.carriesText = false ∧ entry.2 ≠ .eof := by decide
  exact hall _ (ofWord?_eq_some_iff.1 h)

theorem ofOperator?_spec {c : Char} {kind : Kind} (h : ofOperator? c = some kind) :
    kind.carriesText = false ∧ kind ≠ .eof := by
  have hall : ∀ entry ∈ operators, entry.2.carriesText = false ∧ entry.2 ≠ .eof := by decide
  exact hall _ (ofOperator?_eq_some_iff.1 h)

theorem ofSign?_spec {sign : String} {kind : Kind} (h : ofSign? sign = some kind) :
    kind.carriesText = false ∧ kind ≠ .eof := by
  unfold ofSign? at h
  split at h
  · exact ofOperator?_spec h
  · cases h

end Kind

/-- A token has the parts of which it was made. -/
theorem Token.make_eq_ok {place : Place} {kind : Kind} {text : Option String} (hp : place.Counted)
    (h : text.isSome = kind.carriesText) :
    Token.make place kind text = .ok ⟨place, kind, text, hp, h⟩ :=
  Token.make_eq_ok_iff.2 ⟨rfl, rfl, rfl⟩

/-- The tokens are known from the results. -/
theorem eq_of_map_ok_eq {ts ts' : List Token}
    (h : ts.map (Except.ok : Token → Except Failure Token) = ts'.map .ok) : ts = ts' :=
  (List.map_inj_right fun _ _ => Except.ok.inj).1 h

namespace Machine

/-! ## 3. The token of a lexeme -/

/-- The token of the end at a place. -/
def endAt (place : Place) : Except Failure Token := (Token.make place .eof none).mapError .token

/-- A lexeme has a text exactly if its kind keeps one, and never makes the end token. -/
theorem classify_spec {sort : LexemeClass} {lexeme : String} {kind : Kind} {text : Option String}
    (h : classify sort lexeme = .ok (kind, text)) :
    text.isSome = kind.carriesText ∧ kind ≠ .eof := by
  unfold classify at h
  split at h
  · cases h
    exact ⟨rfl, by decide⟩
  · split at h
    · rename_i hkind
      cases h
      exact ⟨(Kind.ofWord?_spec hkind).1.symm, (Kind.ofWord?_spec hkind).2⟩
    · cases h
      exact ⟨rfl, by decide⟩
  · split at h
    · rename_i hkind
      cases h
      exact ⟨(Kind.ofSign?_spec hkind).1.symm, (Kind.ofSign?_spec hkind).2⟩
    · cases h

theorem ok_of_mapError {ε ε' α : Type} {x : Except ε α} {f : ε → ε'} {a : α}
    (h : x.mapError f = .ok a) : x = .ok a := by
  cases x with
  | error e => cases h
  | ok b =>
    cases h
    rfl

theorem kind_of_endAt {place : Place} {t : Token} (h : endAt place = .ok t) : t.kind = .eof :=
  (Token.make_eq_ok_iff.1 (ok_of_mapError h)).2.1

theorem endAt_ok {place : Place} (hp : place.Counted) :
    ∃ t, endAt place = .ok t ∧ t.place = place ∧ t.kind = .eof ∧ t.text = none := by
  unfold endAt
  rw [Token.make_eq_ok hp (by rfl)]
  exact ⟨_, rfl, rfl, rfl, rfl⟩

theorem token_of_classify {l : Lexeme} {sort : LexemeClass} {kind : Kind} {text : Option String}
    (hp : l.place.Counted) (h : classify sort l.text = .ok (kind, text)) :
    ∃ t, l.token sort = .ok t ∧ t.place = l.place ∧ t.kind = kind ∧ t.text = text := by
  unfold Lexeme.token
  rw [h]
  dsimp only
  rw [Token.make_eq_ok hp (classify_spec h).1]
  exact ⟨_, rfl, rfl, rfl, rfl⟩

/-- A token is at the place of its lexeme. -/
theorem place_of_token {l : Lexeme} {sort : LexemeClass} {t : Token}
    (h : l.token sort = .ok t) : t.place = l.place := by
  unfold Lexeme.token at h
  split at h
  · cases h
  · exact (Token.make_eq_ok_iff.1 (ok_of_mapError h)).1

theorem place_of_endAt {place : Place} {t : Token} (h : endAt place = .ok t) : t.place = place :=
  (Token.make_eq_ok_iff.1 (ok_of_mapError h)).1

/-- No lexeme makes the end token. -/
theorem kind_token_ne_eof {l : Lexeme} {sort : LexemeClass} {t : Token}
    (h : l.token sort = .ok t) : t.kind ≠ .eof := by
  unfold Lexeme.token at h
  split at h
  · cases h
  · rename_i kind text hclass
    rw [(Token.make_eq_ok_iff.1 (ok_of_mapError h)).2.1]
    exact (classify_spec hclass).2

/-! ## 4. Walking the pieces -/

namespace Piece

/-- The result of the call that comes to the piece, if it is a lexeme. -/
def outcome? : Piece → Place → Option (Except Failure Token)
  | lexeme sort text, place => some ((⟨place, String.ofList text⟩ : Lexeme).token sort)
  | _, _ => none

/-- The diagnostic about a piece. -/
def report? (file : String) (piece : Piece) (place : Place) : Option Diagnostic :=
  piece.complaint?.map fun complaint => ⟨complaint, some ⟨file, place.afterAll piece.lead⟩⟩

end Piece

/-- What `f` finds in the pieces, each with its place. -/
def along {α : Type} (f : Piece → Place → Option α) : List Piece → Place → List α
  | [], _ => []
  | piece :: later, place =>
    (f piece place).toList ++ along f later (place.afterAll piece.text)

theorem along_append {α : Type} (f : Piece → Place → Option α) (ps qs : List Piece)
    (place : Place) :
    along f (ps ++ qs) place =
      along f ps place ++ along f qs (place.afterAll (ps.flatMap Piece.text)) := by
  induction ps generalizing place with
  | nil => rfl
  | cons piece ps ih =>
    rw [List.cons_append, along, ih, along, List.flatMap_cons, Place.afterAll_append,
      List.append_assoc]

theorem along_map {α β : Type} (f : Piece → Place → Option α) (g : α → β) (ps : List Piece)
    (place : Place) :
    along (fun piece p => (f piece p).map g) ps place = (along f ps place).map g := by
  induction ps generalizing place with
  | nil => rfl
  | cons piece ps ih =>
    rw [along, along, ih, List.map_append]
    cases f piece place <;> rfl

/-- What is found belongs to one of the pieces, at the place past those before it. -/
theorem mem_along {α : Type} {f : Piece → Place → Option α} {ps : List Piece} {place : Place}
    {a : α} (h : a ∈ along f ps place) :
    ∃ before piece later, ps = before ++ piece :: later ∧
      f piece (place.afterAll (before.flatMap Piece.text)) = some a := by
  induction ps generalizing place with
  | nil => cases h
  | cons piece ps ih =>
    rcases List.mem_append.1 h with hmem | hmem
    · exact ⟨[], piece, ps, rfl, Option.mem_toList.1 hmem⟩
    · obtain ⟨before, found, later, rfl, hfound⟩ := ih hmem
      refine ⟨piece :: before, found, later, rfl, ?_⟩
      rw [List.flatMap_cons, Place.afterAll_append]
      exact hfound

/-- What is found in one piece is related to what is found in a later one if it is so wherever the
    pieces are, the later one behind the earlier one. -/
theorem pairwise_along {α : Type} {f : Piece → Place → Option α} {R : α → α → Prop}
    {ps : List Piece} (h : ∀ piece ∈ ps, ∀ next ∈ ps, ∀ (p : Place) (mid : List Char) (a b : α),
      f piece p = some a → f next ((p.afterAll piece.text).afterAll mid) = some b → R a b)
    (place : Place) : (along f ps place).Pairwise R := by
  induction ps generalizing place with
  | nil => exact .nil
  | cons piece ps ih =>
    have hlater := ih (fun one hone next hnext =>
      h one (List.mem_cons_of_mem _ hone) next (List.mem_cons_of_mem _ hnext))
      (place.afterAll piece.text)
    refine List.pairwise_append.2 ⟨?_, hlater, fun a ha b hb => ?_⟩
    · cases f piece place with
      | none => exact .nil
      | some a => exact List.pairwise_singleton R a
    · obtain ⟨before, next, later, rfl, hnext⟩ := mem_along hb
      have hmem : next ∈ piece :: (before ++ next :: later) :=
        List.mem_cons_of_mem _ (List.mem_append_right _ List.mem_cons_self)
      exact h piece List.mem_cons_self next hmem place _ a b (Option.mem_toList.1 ha) hnext

/-- The results of the calls for a token of a text, up to the end token. -/
def outcomes (text : List Char) (place : Place) : List (Except Failure Token) :=
  along Piece.outcome? (pieces text) place ++ [endAt (place.afterAll text)]

/-- The diagnostics about a text. -/
def reports (file : String) (text : List Char) (place : Place) : List Diagnostic :=
  along (Piece.report? file) (pieces text) place

@[simp] theorem outcomes_nil (place : Place) : outcomes [] place = [endAt place] := by
  simp [outcomes, along]

@[simp] theorem reports_nil (file : String) (place : Place) : reports file [] place = [] := by
  simp [reports, along]

section Cons

variable {c : Char} {cs rest : List Char} (h : c :: cs = (front c cs).text ++ rest)
include h

theorem outcomes_cons (place : Place) :
    outcomes (c :: cs) place =
      ((front c cs).outcome? place).toList ++
        outcomes rest (place.afterAll (front c cs).text) := by
  unfold outcomes
  rw [pieces_cons h, along, List.append_assoc]
  conv => lhs; rw [h, Place.afterAll_append]

theorem reports_cons (file : String) (place : Place) :
    reports file (c :: cs) place =
      ((front c cs).report? file place).toList ++
        reports file rest (place.afterAll (front c cs).text) := by
  unfold reports
  rw [pieces_cons h, along]

end Cons

/-! ## 5. Every lexeme has a token -/

theorem ofOperator?_isSome_of_classOf {c : Char} (h : classOf c = .operator) :
    (Kind.ofOperator? c).isSome = true := by
  have hspec := classOf_spec c
  rw [h] at hspec
  exact hspec.2.2.2

theorem slashPiece_outcome? (cs : List Char) (place : Place) :
    (slashPiece cs).outcome? place = none := by
  cases cs with
  | nil => rfl
  | cons c cs =>
    rw [slashPiece]
    repeat' split
    all_goals rfl

/-- The lexeme at the front of a text has a kind. -/
theorem classify_of_front {c : Char} {cs text : List Char} {sort : LexemeClass}
    (h : front c cs = .lexeme sort text) : ∃ r, classify sort (String.ofList text) = .ok r := by
  have hoperator (hc : classOf c = .operator) :
      ∃ r, classify .operator (String.ofList [c]) = .ok r := by
    obtain ⟨kind, hkind⟩ := Option.isSome_iff_exists.1 (ofOperator?_isSome_of_classOf hc)
    exact ⟨(kind, none), by simp [classify, Kind.ofSign?, hkind]⟩
  unfold front at h
  split at h
  case h_1 | h_2 =>
    cases h
    exact ⟨_, rfl⟩
  case h_3 =>
    cases h
    unfold classify
    dsimp only
    split <;> exact ⟨_, rfl⟩
  case h_4 hc =>
    cases h
    exact hoperator hc
  case h_5 =>
    have hnone := slashPiece_outcome? cs ⟨1, 1⟩
    rw [h] at hnone
    cases hnone
  case h_6 | h_7 => cases h

/-- **From a counted place on, every call for a token has one.** -/
theorem outcomes_ok (text : List Char) {place : Place} (hp : place.Counted) :
    ∀ outcome ∈ outcomes text place, ∃ t, outcome = .ok t := by
  induction text using pieces_induction generalizing place with
  | nil =>
    intro outcome hmem
    obtain rfl : outcome = endAt place := by simpa using hmem
    obtain ⟨t, ht, -⟩ := endAt_ok hp
    exact ⟨t, ht⟩
  | cons c cs rest hrest ih =>
    intro outcome hmem
    rw [outcomes_cons hrest, List.mem_append] at hmem
    rcases hmem with hmem | hmem
    · cases hfront : front c cs with
      | lexeme sort text =>
        rw [hfront] at hmem
        obtain rfl : outcome = (⟨place, String.ofList text⟩ : Lexeme).token sort := by
          simpa [Piece.outcome?] using hmem
        obtain ⟨⟨kind, txt⟩, hclass⟩ := classify_of_front hfront
        obtain ⟨t, ht, -⟩ := token_of_classify (l := ⟨place, String.ofList text⟩) hp hclass
        exact ⟨t, ht⟩
      | _ => simp [hfront, Piece.outcome?] at hmem
    · exact ih (hp.afterAll _) outcome hmem

end Machine

end YaslLexis
