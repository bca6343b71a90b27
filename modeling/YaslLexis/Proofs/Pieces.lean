import YaslLexis.Machine.Move

/-!
# The pieces of a text

A scan cuts its text into pieces: lexemes, blanks, comments, and what it complains about. This file
says what the pieces are, looking at the text as a whole and not through the automaton.

* `untilClosed` -- the body of a block comment, up to the first star and slash
  (`untilClosed_eq_some_iff`);
* `front` -- the piece at the front of a text, `pieces` -- all of them;
* `flatMap_text_pieces` -- nothing is lost: the pieces, written one after the other, are the text;
* `pieces_induction` -- what holds of the empty text, and passes from what follows a front piece to
  the whole, holds of every text.
-/

namespace YaslLexis.Machine

/-! ## 1. Pieces -/

/-- A stretch of text that the scan deals with as one. -/
inductive Piece where
  /-- The characters of a token. -/
  | lexeme (sort : LexemeClass) (text : List Char)
  | blank (c : Char)
  /-- A block comment; the body is what stands between the marks. -/
  | block (body : List Char)
  /-- A line comment, without the line feed that ends it. -/
  | line (body : List Char)
  /-- A character outside every class. -/
  | illegal (c : Char)
  /-- A slash that opens no comment; `found` is what follows it. -/
  | stray (found : Option Char)
  /-- A block comment that the text does not close. -/
  | unclosed (body : List Char)
deriving DecidableEq, Repr

namespace Piece

/-- The characters of a piece. -/
def text : Piece → List Char
  | lexeme _ text => text
  | blank c => [c]
  | block body => '/' :: '*' :: (body ++ ['*', '/'])
  | line body => '/' :: '/' :: body
  | illegal c => [c]
  | stray _ => ['/']
  | unclosed body => '/' :: '*' :: body

/-- What is wrong with a piece, if anything is. -/
def complaint? : Piece → Option Complaint
  | illegal c => some (.illegalCharacter c.toString)
  | stray found => some (.malformedComment (found.map Char.toString))
  | unclosed _ => some .unclosedComment
  | _ => none

/-- The part of a piece that is consumed before the complaint about it. -/
def lead : Piece → List Char
  | illegal _ => []
  | piece => piece.text

/-- The part of a piece that is consumed after the complaint about it. -/
def tail : Piece → List Char
  | illegal c => [c]
  | _ => []

@[simp] theorem lead_append_tail (piece : Piece) : piece.lead ++ piece.tail = piece.text := by
  cases piece <;> simp [lead, tail, text]

end Piece

/-! ## 2. The body of a block comment -/

/-- The body of a block comment, given what follows its opening: all before the first star and
    slash, if there are any. -/
def untilClosed : List Char → Option (List Char)
  | [] => none
  | c :: cs =>
    if c = '*' ∧ cs.head? = some '/' then some [] else (untilClosed cs).map (c :: ·)

/-- The two characters that close a block comment. -/
def closer : List Char := ['*', '/']

theorem closer_prefix_cons_iff {c : Char} {cs : List Char} :
    closer <+: c :: cs ↔ c = '*' ∧ cs.head? = some '/' := by
  unfold closer
  cases cs with
  | nil => simp
  | cons d ds => simp [List.cons_prefix_cons, eq_comm]

/-- A star at the end of a body does not close the comment early. -/
theorem untilClosed_append {body : List Char} (h : ¬ closer <:+: body) (rest : List Char) :
    untilClosed (body ++ '*' :: '/' :: rest) = some body := by
  induction body with
  | nil => rfl
  | cons c cs ih =>
    rw [List.infix_cons_iff, not_or, closer_prefix_cons_iff] at h
    have hc : ¬ (c = '*' ∧ (cs ++ '*' :: '/' :: rest).head? = some '/') := by
      cases cs with
      | nil => simp
      | cons d ds => exact h.1
    rw [List.cons_append, untilClosed, if_neg hc, ih h.2]
    rfl

/-- **The body ends at the first star and slash.** -/
theorem untilClosed_eq_some_iff {s body : List Char} :
    untilClosed s = some body ↔ ¬ closer <:+: body ∧ ∃ rest, s = body ++ '*' :: '/' :: rest := by
  constructor
  · intro h
    induction s generalizing body with
    | nil => simp [untilClosed] at h
    | cons c cs ih =>
      unfold untilClosed at h
      split at h
      · rename_i hc
        cases h
        obtain ⟨rfl, hd⟩ := hc
        obtain ⟨rest, rfl⟩ := List.head?_eq_some_iff.1 hd
        exact ⟨by simp [closer], rest, rfl⟩
      · rename_i hc
        obtain ⟨b, hb, rfl⟩ := Option.map_eq_some_iff.1 h
        obtain ⟨hfree, rest, rfl⟩ := ih hb
        refine ⟨?_, rest, rfl⟩
        rw [List.infix_cons_iff, not_or, closer_prefix_cons_iff]
        refine ⟨fun hopen => hc ⟨hopen.1, ?_⟩, hfree⟩
        obtain ⟨r, rfl⟩ := List.head?_eq_some_iff.1 hopen.2
        rfl
  · intro h
    obtain ⟨hfree, rest, rfl⟩ := h
    exact untilClosed_append hfree rest

/-- Without a closing there is no star and slash anywhere. -/
theorem untilClosed_eq_none_iff {s : List Char} : untilClosed s = none ↔ ¬ closer <:+: s := by
  induction s with
  | nil => simp [untilClosed, closer]
  | cons c cs ih =>
    rw [List.infix_cons_iff, not_or, closer_prefix_cons_iff, ← ih, untilClosed]
    by_cases hc : c = '*' ∧ cs.head? = some '/'
    · simp [hc]
    · simp [hc]

/-! ## 3. Cutting a text -/

/-- The piece that a slash begins, given what follows it. -/
def slashPiece : List Char → Piece
  | [] => .stray none
  | c :: cs =>
    if c = '*' then
      match untilClosed cs with
      | some body => .block body
      | none => .unclosed cs
    else if c = '/' then .line (cs.takeWhile (· ≠ '\n'))
    else .stray (some c)

/-- The piece at the front of the text that begins with `c`. -/
def front (c : Char) (cs : List Char) : Piece :=
  match classOf c with
  | .zero => .lexeme .number [c]
  | .digit => .lexeme .number (c :: cs.takeWhile Text.isDigit)
  | .letter => .lexeme .word (c :: cs.takeWhile continuesWord)
  | .operator => .lexeme .operator [c]
  | .slash => slashPiece cs
  | .blank => .blank c
  | .illegal => .illegal c

section Front

variable {c : Char} (cs : List Char)

theorem front_zero (hc : classOf c = .zero) : front c cs = .lexeme .number [c] := by
  unfold front
  rw [hc]

theorem front_digit (hc : classOf c = .digit) :
    front c cs = .lexeme .number (c :: cs.takeWhile Text.isDigit) := by
  unfold front
  rw [hc]

theorem front_letter (hc : classOf c = .letter) :
    front c cs = .lexeme .word (c :: cs.takeWhile continuesWord) := by
  unfold front
  rw [hc]

theorem front_operator (hc : classOf c = .operator) : front c cs = .lexeme .operator [c] := by
  unfold front
  rw [hc]

theorem front_slash (hc : classOf c = .slash) : front c cs = slashPiece cs := by
  unfold front
  rw [hc]

theorem front_blank (hc : classOf c = .blank) : front c cs = .blank c := by
  unfold front
  rw [hc]

theorem front_illegal (hc : classOf c = .illegal) : front c cs = .illegal c := by
  unfold front
  rw [hc]

end Front

theorem eq_slash_of_classOf {c : Char} (h : classOf c = .slash) : c = '/' := by
  have hspec := classOf_spec c
  rw [h] at hspec
  exact hspec

theorem slashPiece_begins (cs : List Char) : (slashPiece cs).text <+: '/' :: cs := by
  cases cs with
  | nil => exact List.prefix_rfl
  | cons c cs =>
    rw [slashPiece]
    split
    · rename_i hc
      subst hc
      split
      · rename_i body hbody
        obtain ⟨-, rest, rfl⟩ := untilClosed_eq_some_iff.1 hbody
        exact ⟨rest, by simp [Piece.text]⟩
      · exact List.prefix_rfl
    · split
      · rename_i hc
        subst hc
        simp [Piece.text, List.cons_prefix_cons, List.takeWhile_prefix]
      · exact ⟨c :: cs, rfl⟩

/-- The front piece stands at the front. -/
theorem front_begins (c : Char) (cs : List Char) : (front c cs).text <+: c :: cs := by
  unfold front
  split
  case h_5 hc =>
    rw [eq_slash_of_classOf hc]
    exact slashPiece_begins cs
  all_goals simp [Piece.text, List.cons_prefix_cons, List.takeWhile_prefix]

theorem front_text_ne_nil (c : Char) (cs : List Char) : (front c cs).text ≠ [] := by
  unfold front slashPiece
  repeat' split
  all_goals simp [Piece.text]

/-- The text that follows the front piece is shorter. -/
theorem length_after_front_lt {c : Char} {cs rest : List Char}
    (h : c :: cs = (front c cs).text ++ rest) : rest.length < (c :: cs).length := by
  have hpos := List.length_pos_iff.2 (front_text_ne_nil c cs)
  rw [h, List.length_append]
  omega

/-- The pieces of a text. -/
def pieces : List Char → List Piece
  | [] => []
  | c :: cs => front c cs :: pieces ((c :: cs).drop (front c cs).text.length)
termination_by text => text.length
decreasing_by exact length_after_front_lt (List.prefix_iff_eq_append.1 (front_begins c cs)).symm

@[simp] theorem pieces_nil : pieces [] = [] := by rw [pieces]

theorem pieces_cons {c : Char} {cs rest : List Char} (h : c :: cs = (front c cs).text ++ rest) :
    pieces (c :: cs) = front c cs :: pieces rest := by
  have hrest : (c :: cs).drop (front c cs).text.length = rest := by
    conv => lhs; rw [h]
    exact List.drop_left
  rw [pieces, hrest]

/-- Induction along the pieces of a text. -/
@[elab_as_elim]
theorem pieces_induction {motive : List Char → Prop} (nil : motive [])
    (cons : ∀ c cs rest, c :: cs = (front c cs).text ++ rest → motive rest → motive (c :: cs))
    (text : List Char) : motive text := by
  induction h : text.length using Nat.strongRecOn generalizing text with
  | ind n ih =>
    cases text with
    | nil => exact nil
    | cons c cs =>
      obtain ⟨rest, hrest⟩ := front_begins c cs
      have hlt := length_after_front_lt hrest.symm
      exact cons c cs rest hrest.symm (ih rest.length (by omega) rest rfl)

/-- **Nothing is lost**: the pieces of a text, one after the other, are the text. -/
theorem flatMap_text_pieces (text : List Char) : (pieces text).flatMap Piece.text = text := by
  induction text using pieces_induction with
  | nil => rw [pieces_nil, List.flatMap_nil]
  | cons c cs rest h ih => rw [pieces_cons h, List.flatMap_cons, ih, h]

end YaslLexis.Machine
