import Mathlib.Data.List.Forall2
import YaslLexis.Proofs.Fitting
import YaslLexis.Proofs.WholeScans

/-!
# What a token spells

The lexemes of the language and the kind and text of the token that each of them makes, said without
the automaton; and the lexeme of a token, read back off its kind and text.

* `Spells` -- the lexeme makes a token of this kind with this text;
* `Spells.unique` -- one lexeme makes one kind and text; `Spells.spelling` -- which tell the lexeme;
* `Lexical.spells` -- every lexeme makes a token; `spelled_of_mem` -- every token has its lexeme;
* **`tokens_spell`** -- the tokens of a scan before the end token are spelled by the lexemes among
  the pieces of the text, one by one.
-/

namespace YaslLexis

/-! ## 1. The spelling of a token -/

/-- The lexeme of a token: its text, or how its kind is spelled. -/
def Token.spelling (t : Token) : List Char :=
  match t.text with
  | some text => text.toList
  | none => t.kind.sign.toList

/-- The kind and the text of a token. -/
def Token.content (t : Token) : Kind × Option String := (t.kind, t.text)

/-- A token of the end has no text. -/
theorem Token.content_of_eof {t : Token} (h : t.kind = .eof) : t.content = (.eof, none) := by
  have hnone : t.text = none := by
    have hcarries := t.text_isSome
    rw [h] at hcarries
    exact Option.not_isSome_iff_eq_none.1 (by rw [hcarries]; decide)
  unfold Token.content
  rw [h, hnone]

namespace Machine

open Report

/-! ## 2. Lexemes and what they make -/

/-- The lexeme makes a token of the kind, with the text if the kind keeps one. -/
inductive Spells : List Char → Kind → Option String → Prop where
  | zero : Spells ['0'] .number (some "0")
  | number {c : Char} {cs : List Char} : c ≠ '0' → (∀ d ∈ c :: cs, Text.isDigit d = true) →
      Spells (c :: cs) .number (some (String.ofList (c :: cs)))
  | keyword {word : List Char} {kind : Kind} :
      Vocabulary.reserved (String.ofList word) = some kind → Spells word kind none
  | identifier {c : Char} {cs : List Char} : Text.isLetter c = true →
      (∀ d ∈ cs, Text.isLetter d = true ∨ Text.isDigit d = true) →
      Vocabulary.reserved (String.ofList (c :: cs)) = none →
      Spells (c :: cs) .identifier (some (String.ofList (c :: cs)))
  | operator {c : Char} {kind : Kind} : Vocabulary.operator c = some kind → Spells [c] kind none

theorem continuesWord_iff {c : Char} :
    continuesWord c = true ↔ Text.isLetter c = true ∨ Text.isDigit c = true :=
  Bool.or_eq_true_iff

/-- The class of a lexeme is known from its characters. -/
theorem Lexical.unique {sort sort' : LexemeClass} {text : List Char} (h : Lexical sort text)
    (h' : Lexical sort' text) : sort = sort' := by
  have hfits : (Piece.lexeme sort text).Fits [] := ⟨h, rfl⟩
  have hfits' : (Piece.lexeme sort' text).Fits [] := ⟨h', rfl⟩
  obtain ⟨c, cs, htext, hfront⟩ := front_of_fits hfits
  obtain ⟨d, ds, htext', hfront'⟩ := front_of_fits hfits'
  have hsame : c :: cs = d :: ds := htext.symm.trans htext'
  obtain ⟨rfl, rfl⟩ := List.cons_eq_cons.1 hsame
  have hpiece : Piece.lexeme sort text = .lexeme sort' text := hfront.symm.trans hfront'
  cases hpiece
  rfl

/-- The reserved words are words. -/
theorem lexical_of_reserved {word : List Char} {kind : Kind}
    (h : Vocabulary.reserved (String.ofList word) = some kind) : Lexical .word word := by
  have hall : (Kind.keywords.all fun entry =>
      !entry.1.toList.isEmpty && entry.1.toList.all Text.isLetter) = true := by decide +kernel
  rw [← Kind.ofWord?_eq] at h
  have hword := List.all_eq_true.1 hall _ (Kind.ofWord?_eq_some_iff.1 h)
  rw [String.toList_ofList, Bool.and_eq_true, List.all_eq_true] at hword
  obtain ⟨hne, hletters⟩ := hword
  cases word with
  | nil => cases hne
  | cons c cs =>
    obtain ⟨hletter, hletters'⟩ := List.forall_mem_cons.1 hletters
    exact .word hletter fun d hd => continuesWord_iff.2 (.inl (hletters' d hd))

/-- What spells a kind and text is a lexeme, and the automaton classifies it so. -/
theorem Spells.classify {text : List Char} {kind : Kind} {txt : Option String}
    (h : Spells text kind txt) :
    ∃ sort, Lexical sort text ∧ classify sort (String.ofList text) = .ok (kind, txt) := by
  cases h with
  | zero => exact ⟨.number, .zero, rfl⟩
  | number hzero hdigits => exact ⟨.number, .number hzero hdigits, rfl⟩
  | keyword hword =>
    refine ⟨.word, lexical_of_reserved hword, ?_⟩
    unfold Machine.classify
    rw [Kind.ofWord?_eq, hword]
  | @identifier c cs hletter hcs hnot =>
    refine ⟨.word, .word hletter fun d hd => continuesWord_iff.2 (hcs d hd), ?_⟩
    unfold Machine.classify
    rw [Kind.ofWord?_eq, hnot]
  | @operator c kind hkind =>
    refine ⟨.operator, .operator hkind, ?_⟩
    simp [Machine.classify, Kind.ofSign?, Kind.ofOperator?_eq, hkind]

/-- **Every lexeme makes a token**, and the automaton finds its kind and text. -/
theorem Lexical.spells {sort : LexemeClass} {text : List Char} (h : Lexical sort text) :
    ∃ kind txt, classify sort (String.ofList text) = .ok (kind, txt) ∧ Spells text kind txt := by
  cases h with
  | zero => exact ⟨.number, some "0", rfl, .zero⟩
  | number hzero hdigits => exact ⟨.number, _, rfl, .number hzero hdigits⟩
  | @word c cs hletter hcs =>
    unfold classify
    dsimp only
    rw [Kind.ofWord?_eq]
    cases hkind : Vocabulary.reserved (String.ofList (c :: cs)) with
    | some kind => exact ⟨kind, none, rfl, .keyword hkind⟩
    | none =>
      have hlater (d : Char) (hd : d ∈ cs) := continuesWord_iff.1 (hcs d hd)
      exact ⟨.identifier, _, rfl, .identifier hletter hlater hkind⟩
  | @operator c kind hkind =>
    refine ⟨kind, none, ?_, .operator hkind⟩
    simp [classify, Kind.ofSign?, Kind.ofOperator?_eq, hkind]

/-- One lexeme makes one kind and text. -/
theorem Spells.unique {text : List Char} {kind kind' : Kind} {txt txt' : Option String}
    (h : Spells text kind txt) (h' : Spells text kind' txt') : (kind, txt) = (kind', txt') := by
  obtain ⟨sort, hlexical, hclass⟩ := h.classify
  obtain ⟨sort', hlexical', hclass'⟩ := h'.classify
  obtain rfl : sort = sort' := hlexical.unique hlexical'
  exact Except.ok.inj (hclass.symm.trans hclass')

/-- The kind and the text tell the lexeme. -/
theorem Spells.spelling {text : List Char} {t : Token} (h : Spells text t.kind t.text) :
    t.spelling = text := by
  unfold Token.spelling
  cases htxt : t.text with
  | some txt =>
    rw [htxt] at h
    cases hkind : t.kind <;> rw [hkind] at h <;> cases h <;> simp
  | none =>
    rw [htxt] at h
    generalize t.kind = kind at h
    cases h with
    | keyword hword => rw [Kind.sign_of_reserved hword, String.toList_ofList]
    | operator hsign => exact Kind.sign_of_operator hsign

/-- What a lexeme gives a token as its text is the lexeme itself, made of letters and digits. -/
theorem Spells.text_eq {lexeme : List Char} {kind : Kind} {text : String}
    (h : Spells lexeme kind (some text)) :
    text.toList = lexeme ∧ lexeme ≠ [] ∧ ∀ c ∈ lexeme, continuesWord c = true := by
  generalize htext : some text = txt at h
  cases h with
  | keyword | operator => cases htext
  | zero =>
    obtain rfl := Option.some.inj htext
    exact ⟨rfl, by decide, List.forall_mem_singleton.2 (by decide +kernel)⟩
  | number _ hdigits =>
    obtain rfl := Option.some.inj htext
    exact ⟨String.toList_ofList, List.cons_ne_nil _ _,
      fun c hc => continuesWord_iff.2 (.inr (hdigits c hc))⟩
  | identifier hfirst hlater _ =>
    obtain rfl := Option.some.inj htext
    exact ⟨String.toList_ofList, List.cons_ne_nil _ _, List.forall_mem_cons.2
      ⟨continuesWord_iff.2 (.inl hfirst), fun c hc => continuesWord_iff.2 (hlater c hc)⟩⟩

/-- The token of a lexeme is at its place and is spelled by it. -/
theorem Lexical.token {sort : LexemeClass} {text : List Char} (h : Lexical sort text)
    {place : Place} {t : Token}
    (ht : (⟨place, String.ofList text⟩ : Lexeme).token sort = .ok t) :
    t.place = place ∧ Spells text t.kind t.text := by
  obtain ⟨kind, txt, hclass, hspells⟩ := h.spells
  unfold Lexeme.token at ht
  rw [hclass] at ht
  obtain ⟨hplace, hkind, htxt⟩ := Token.make_eq_ok_iff.1 (ok_of_mapError ht)
  rw [hkind, htxt]
  exact ⟨hplace, hspells⟩

/-! ## 3. The tokens of a scan -/

/-- Each token found in a text before its end is spelled by a lexeme that is part of the text, at the
    place past what comes before it. -/
theorem spelled_of_mem {text : List Char} {place : Place} {t : Token}
    (h : .ok t ∈ along Piece.outcome? (pieces text) place) :
    ∃ done sort lexeme rest, text = done ++ (lexeme ++ rest) ∧ Lexical sort lexeme ∧
      t.place = place.afterAll done ∧ Spells lexeme t.kind t.text := by
  obtain ⟨before, piece, later, hsplit, hfound⟩ := mem_along h
  cases piece with
  | lexeme sort lexeme =>
    have hlexical : Lexical sort lexeme := lexical_of_mem (hsplit ▸ List.mem_append_right _
      List.mem_cons_self)
    obtain ⟨hplace, hspells⟩ := hlexical.token (Option.some.inj hfound)
    refine ⟨_, sort, lexeme, later.flatMap Piece.text, ?_, hlexical, hplace, hspells⟩
    rw [← flatMap_text_pieces text, hsplit, List.flatMap_append, List.flatMap_cons]
    rfl
  | blank | block | line | illegal | stray | unclosed => cases hfound

/-- The text of each token found in a text is made of letters and digits. -/
theorem text_of_mem_outcomes {text : List Char} {place : Place} {t : Token}
    (h : .ok t ∈ outcomes text place) :
    ∀ txt ∈ t.text, txt.toList ≠ [] ∧ ∀ c ∈ txt.toList, continuesWord c = true := by
  intro txt htxt
  rcases List.mem_append.1 h with hmem | hmem
  · obtain ⟨done, sort, lexeme, rest, -, -, -, hspells⟩ := spelled_of_mem hmem
    rw [Option.mem_def.1 htxt] at hspells
    obtain ⟨rfl, hne, hword⟩ := hspells.text_eq
    exact ⟨hne, hword⟩
  · have hcontent := Token.content_of_eof (kind_of_endAt (List.mem_singleton.1 hmem).symm)
    have hnone : t.text = none := congrArg Prod.snd hcontent
    rw [hnone] at htxt
    cases htxt

/-- The lexeme that a piece is, if it is one, with its class. -/
def Piece.lexeme? : Piece → Option (LexemeClass × List Char)
  | lexeme sort text => some (sort, text)
  | _ => none

/-- The lexemes of a text, in order. -/
def lexemes (text : List Char) : List (LexemeClass × List Char) :=
  (pieces text).filterMap Piece.lexeme?

/-- From a counted place on, each lexeme has a token, which it spells. -/
theorem spelled_along {ps : List Piece} (h : Fitting ps) {place : Place} (hp : place.Counted) :
    List.Forall₂ (fun (l : LexemeClass × List Char) (r : Except Failure Token) =>
        ∃ t, r = .ok t ∧ Spells l.2 t.kind t.text)
      (ps.filterMap Piece.lexeme?) (along Piece.outcome? ps place) := by
  induction h generalizing place with
  | nil => exact .nil
  | @cons piece later hfits _ ih =>
    have hlater := ih (hp.afterAll piece.text)
    cases piece with
    | lexeme sort text =>
      obtain ⟨kind, txt, hclass, hspells⟩ := hfits.1.spells
      obtain ⟨t, ht, -, hkind, htxt⟩ :=
        token_of_classify (l := ⟨place, String.ofList text⟩) hp hclass
      have hspells' : Spells text t.kind t.text := by rwa [hkind, htxt]
      exact .cons ⟨t, ht, hspells'⟩ hlater
    | blank | block | line | illegal | stray | unclosed => exact hlater

theorem forall₂_ok_of_map {α : Type} {R : α → Token → Prop} {ls : List α} {ts : List Token}
    (h : List.Forall₂ (fun l (r : Except Failure Token) => ∃ t, r = .ok t ∧ R l t) ls
      (ts.map .ok)) : List.Forall₂ R ls ts := by
  rw [List.forall₂_map_right_iff] at h
  refine h.imp fun l t hlt => ?_
  obtain ⟨t', heq, hR⟩ := hlt
  obtain rfl : t = t' := Except.ok.inj heq
  exact hR

/-- Of two lists that are related one by one, each member of either has one in the other. -/
theorem exists_of_forall₂ {α β : Type} {R : α → β → Prop} {as : List α} {bs : List β}
    (h : List.Forall₂ R as bs) :
    (∀ a ∈ as, ∃ b ∈ bs, R a b) ∧ ∀ b ∈ bs, ∃ a ∈ as, R a b := by
  induction h with
  | nil => simp
  | @cons a b as bs hab _ ih =>
    obtain ⟨hleft, hright⟩ := ih
    constructor
    · intro x hx
      rcases List.mem_cons.1 hx with rfl | hx
      · exact ⟨b, List.mem_cons_self, hab⟩
      · obtain ⟨y, hy, hxy⟩ := hleft x hx
        exact ⟨y, List.mem_cons_of_mem b hy, hxy⟩
    · intro y hy
      rcases List.mem_cons.1 hy with rfl | hy
      · exact ⟨a, List.mem_cons_self, hab⟩
      · obtain ⟨x, hx, hxy⟩ := hright y hy
        exact ⟨x, List.mem_cons_of_mem a hx, hxy⟩

/-- **The tokens of a scan** are spelled by the lexemes of the text, one by one, and the end token
    is the last. -/
theorem tokens_spell {options : Options} (hline : 1 ≤ options.line) (text : List Char) :
    ∃ tokens stop, (collected options text).tokens = tokens ++ [stop] ∧ stop.kind = .eof ∧
      List.Forall₂ (fun l t => Spells l.2 t.kind t.text) (lexemes text) tokens := by
  obtain ⟨tokens, stop, hsplit, hstop, -, hgiven⟩ := collected_ends hline text
  have hcounted : (⟨options.line, 1⟩ : Place).Counted := ⟨hline, Int.le_refl 1⟩
  have hspelled := spelled_along (fitting_pieces text) hcounted
  rw [← hgiven] at hspelled
  exact ⟨tokens, stop, hsplit, hstop, forall₂_ok_of_map hspelled⟩

end Machine

end YaslLexis
