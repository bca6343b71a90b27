import YaslLexis.Proofs.Vocabulary
import YaslLexis.Proofs.WholeScans

/-!
# The whole-text account of a scan

What a scan finds in a text, said with offsets into the whole text and without an automaton: the
longest run of a class, the first closing of a comment, the first line feed, and places counted over
all that stands before.

* `firstFrom`, `runEnd`, `commentEnd`, `lineEnd` -- searches in the whole text;
* `findingsFrom` -- what is found from an offset on;
* `placeOf` -- the place of an offset;
* `findingsFrom_eq` -- the findings from an offset on are the front piece of what is left there, and
  then the findings behind it;
* **`drain_eq_findings`** -- the scan of a text gives exactly the tokens and the diagnostics of its
  findings.
-/

namespace YaslLexis

/-- A token without the proof that it is one. -/
abbrev Token.Parts := Place × Kind × Option String

/-- The place, the kind and the text of a token. -/
def Token.parts (t : Token) : Token.Parts := (t.place, t.kind, t.text)

namespace WholeText

open Machine Report

/-! ## 1. Searches -/

/-- The first offset from `i` on, before the end of the text, at which `p` holds. -/
def firstFrom (text : List Char) (i : Nat) (p : Nat → Bool) : Option Nat :=
  (List.range' i (text.length - i)).find? p

/-- The end of the longest run of characters of a class from `i` on. -/
def runEnd (text : List Char) (i : Nat) (inClass : Char → Bool) : Nat :=
  (firstFrom text i fun j => !text[j]?.any inClass).getD text.length

/-- Just past the first star and slash that begin at `i` or later. -/
def commentEnd (text : List Char) (i : Nat) : Option Nat :=
  (firstFrom text i fun j => text[j]? = some '*' && text[j + 1]? = some '/').map (· + 2)

/-- The first line feed at `i` or later, or the end of the text. -/
def lineEnd (text : List Char) (i : Nat) : Nat :=
  (firstFrom text i fun j => text[j]? = some '\n').getD text.length

/-- The characters from one offset up to another. -/
def slice (text : List Char) (i j : Nat) : String := String.ofList ((text.take j).drop i)

/-- The place of an offset: the line feeds before it count lines, the characters since the last one
    count columns. -/
def placeOf (text : List Char) (line : Int) (i : Nat) : Place :=
  ⟨line + (text.take i).count '\n', 1 + ((text.take i).reverse.takeWhile (· ≠ '\n')).length⟩

theorem firstFrom_spec {text : List Char} {i j : Nat} {p : Nat → Bool}
    (h : firstFrom text i p = some j) : i ≤ j ∧ j < text.length ∧ p j = true := by
  unfold firstFrom at h
  have hmem := List.mem_range'_1.1 (List.mem_of_find?_eq_some h)
  exact ⟨hmem.1, by omega, List.find?_some h⟩

theorem le_getD_firstFrom {text : List Char} {i : Nat} (hi : i ≤ text.length) (p : Nat → Bool) :
    i ≤ (firstFrom text i p).getD text.length ∧
      (firstFrom text i p).getD text.length ≤ text.length := by
  cases h : firstFrom text i p with
  | none => exact ⟨hi, Nat.le_refl _⟩
  | some j =>
    have hj := firstFrom_spec h
    exact ⟨hj.1, Nat.le_of_lt hj.2.1⟩

theorem lt_runEnd {text : List Char} {i : Nat} {c : Char} {inClass : Char → Bool}
    (hc : text[i]? = some c) (hin : inClass c = true) : i < runEnd text i inClass := by
  have hi := (List.getElem?_eq_some_iff.1 hc).1
  unfold runEnd
  cases h : firstFrom text i fun j => !text[j]?.any inClass with
  | none => exact hi
  | some j =>
    obtain ⟨hle, -, hout⟩ := firstFrom_spec h
    refine Nat.lt_of_le_of_ne hle fun heq => ?_
    subst heq
    simp [hc, hin] at hout

/-! ## 2. Findings -/

/-- What is found in a text, with its offset. -/
inductive Finding where
  | token (offset : Nat) (kind : Kind) (text : Option String)
  | problem (offset : Nat) (complaint : Complaint)
deriving DecidableEq, Repr

namespace Finding

/-- A word: a reserved one has a kind of its own and keeps no text. -/
def ofWord (offset : Nat) (word : String) : Finding :=
  match Vocabulary.reserved word with
  | some kind => token offset kind none
  | none => token offset .identifier (some word)

/-- The parts of the token, if one was found. -/
def parts? (place : Nat → Place) : Finding → Option Token.Parts
  | token offset kind text => some (place offset, kind, text)
  | problem _ _ => none

/-- The diagnostic, if there is one. -/
def diagnostic? (file : String) (place : Nat → Place) : Finding → Option Diagnostic
  | token _ _ _ => none
  | problem offset complaint => some ⟨complaint, some ⟨file, place offset⟩⟩

end Finding

/-- The characters of a word behind the first. -/
def inWord (c : Char) : Bool := Text.isLetter c || Text.isDigit c

/-- What is found in a text from an offset on. -/
def findingsFrom (text : List Char) (i : Nat) : List Finding :=
  match _hc : text[i]? with
  | none => [.token i .eof none]
  | some c =>
    if c = '0' then .token i .number (some "0") :: findingsFrom text (i + 1)
    else if _hd : Text.isDigit c then
      .token i .number (some (slice text i (runEnd text i Text.isDigit))) ::
        findingsFrom text (runEnd text i Text.isDigit)
    else if _hl : Text.isLetter c then
      .ofWord i (slice text i (runEnd text i inWord)) ::
        findingsFrom text (runEnd text i inWord)
    else match Vocabulary.operator c with
    | some kind => .token i kind none :: findingsFrom text (i + 1)
    | none =>
      if c = '/' then
        if text[i + 1]? = some '*' then
          match _hj : commentEnd text (i + 2) with
          | some j => findingsFrom text j
          | none => .problem text.length .unclosedComment :: findingsFrom text text.length
        else if _hs : text[i + 1]? = some '/' then findingsFrom text (lineEnd text (i + 2))
        else
          .problem (i + 1) (.malformedComment (text[i + 1]?.map Char.toString)) ::
            findingsFrom text (i + 1)
      else if Text.isBlank c then findingsFrom text (i + 1)
      else .problem i (.illegalCharacter c.toString) :: findingsFrom text (i + 1)
termination_by text.length - i
decreasing_by
  all_goals have hi : i < text.length := (List.getElem?_eq_some_iff.1 _hc).1
  · omega
  · have := lt_runEnd _hc _hd
    omega
  · have : i < runEnd text i inWord := lt_runEnd _hc (by simp [inWord, _hl])
    omega
  · omega
  · obtain ⟨k, hk, rfl⟩ := Option.map_eq_some_iff.1 _hj
    have := firstFrom_spec hk
    omega
  · omega
  · have hi' : i + 1 < text.length := (List.getElem?_eq_some_iff.1 _hs).1
    have : i + 2 ≤ lineEnd text (i + 2) := (le_getD_firstFrom hi' _).1
    omega
  all_goals omega

/-- The definition, at an offset where a character stands. -/
theorem findingsFrom_of_getElem? {text : List Char} {i : Nat} {c : Char}
    (hget : text[i]? = some c) :
    findingsFrom text i =
      if c = '0' then .token i .number (some "0") :: findingsFrom text (i + 1)
      else if Text.isDigit c then
        .token i .number (some (slice text i (runEnd text i Text.isDigit))) ::
          findingsFrom text (runEnd text i Text.isDigit)
      else if Text.isLetter c then
        .ofWord i (slice text i (runEnd text i inWord)) ::
          findingsFrom text (runEnd text i inWord)
      else match Vocabulary.operator c with
      | some kind => .token i kind none :: findingsFrom text (i + 1)
      | none =>
        if c = '/' then
          if text[i + 1]? = some '*' then
            match commentEnd text (i + 2) with
            | some j => findingsFrom text j
            | none => .problem text.length .unclosedComment :: findingsFrom text text.length
          else if text[i + 1]? = some '/' then findingsFrom text (lineEnd text (i + 2))
          else
            .problem (i + 1) (.malformedComment (text[i + 1]?.map Char.toString)) ::
              findingsFrom text (i + 1)
        else if Text.isBlank c then findingsFrom text (i + 1)
        else .problem i (.illegalCharacter c.toString) :: findingsFrom text (i + 1) := by
  conv => lhs; rw [findingsFrom]
  split
  · rename_i heq
    rw [hget] at heq
    cases heq
  · rename_i d heq
    obtain rfl : d = c := Option.some.inj (heq.symm.trans hget)
    simp only [dite_eq_ite]
    cases Vocabulary.operator d with
    | some kind => rfl
    | none =>
      -- the match on the end of the comment keeps its equation, for termination
      dsimp only
      congr 5
      split <;> rename_i hj <;> rw [hj]

/-! ## 3. Searches from the end of a prefix -/

section Append

variable (done : List Char)

theorem getElem?_append_length (t : List Char) (k : Nat) :
    (done ++ t)[done.length + k]? = t[k]? := by
  rw [List.getElem?_append_right (Nat.le_add_right _ _), Nat.add_sub_cancel_left]

theorem firstFrom_nil (p : Nat → Bool) : firstFrom (done ++ []) done.length p = none := by
  simp [firstFrom]

theorem firstFrom_cons (c : Char) (cs : List Char) (p : Nat → Bool) :
    firstFrom (done ++ c :: cs) done.length p =
      if p done.length then some done.length
      else firstFrom (done ++ [c] ++ cs) (done ++ [c]).length p := by
  have hlen : (done ++ c :: cs).length - done.length = cs.length + 1 := by simp
  have hlen' : (done ++ [c] ++ cs).length - (done ++ [c]).length = cs.length := by
    simp
    omega
  unfold firstFrom
  rw [hlen, hlen', List.range'_succ, List.find?_cons]
  cases p done.length <;> simp

/-- A search for the first character outside a class ends where the run of the class ends. -/
theorem getD_firstFrom (t : List Char) {p : Nat → Bool} {inClass : Char → Bool}
    (h : ∀ j c, (done ++ t)[j]? = some c → p j = !inClass c) :
    (firstFrom (done ++ t) done.length p).getD (done ++ t).length =
      done.length + (t.takeWhile inClass).length := by
  induction t generalizing done with
  | nil =>
    rw [firstFrom_nil]
    simp
  | cons c cs ih =>
    have hp : p done.length = !inClass c := h _ c (by simp)
    rw [firstFrom_cons, hp]
    cases hc : inClass c with
    | true =>
      have hsplit : done ++ c :: cs = done ++ [c] ++ cs := by simp
      rw [hsplit] at h ⊢
      rw [List.takeWhile_cons_of_pos hc, if_neg (by simp), ih _ h]
      simp
      omega
    | false =>
      rw [List.takeWhile_cons_of_neg (by simp [hc]), if_pos (by simp)]
      rfl

theorem runEnd_append (t : List Char) (inClass : Char → Bool) :
    runEnd (done ++ t) done.length inClass = done.length + (t.takeWhile inClass).length :=
  getD_firstFrom done t fun j c hc => by simp [hc]

theorem lineEnd_append (t : List Char) :
    lineEnd (done ++ t) done.length = done.length + (t.takeWhile (· ≠ '\n')).length :=
  getD_firstFrom done t fun j c hc => by simp [hc]

theorem commentEnd_append (t : List Char) :
    commentEnd (done ++ t) done.length =
      (untilClosed t).map fun body => done.length + (body.length + 2) := by
  unfold commentEnd
  induction t generalizing done with
  | nil =>
    rw [firstFrom_nil]
    rfl
  | cons c cs ih =>
    have hsplit : done ++ c :: cs = done ++ [c] ++ cs := by simp
    have hhere : (done ++ c :: cs)[done.length]? = some c := getElem?_append_length done (c :: cs) 0
    have hnext : (done ++ c :: cs)[done.length + 1]? = cs.head? := by
      rw [getElem?_append_length, List.head?_eq_getElem?]
      rfl
    rw [firstFrom_cons, hhere, hnext, untilClosed]
    by_cases hc : c = '*' ∧ cs.head? = some '/'
    · rw [if_pos hc, if_pos (by simp [hc])]
      rfl
    · rw [if_neg hc, if_neg (by simpa using hc), hsplit, ih, Option.map_map]
      congr 1
      funext body
      simp
      omega

theorem slice_append (t : List Char) (k : Nat) :
    slice (done ++ t) done.length (done.length + k) = String.ofList (t.take k) := by
  unfold slice
  rw [List.take_length_add_append, List.drop_left]

theorem slice_run (t : List Char) (inClass : Char → Bool) :
    slice (done ++ t) done.length (done.length + (t.takeWhile inClass).length) =
      String.ofList (t.takeWhile inClass) := by
  rw [slice_append, ← List.prefix_iff_eq_take.1 (List.takeWhile_prefix inClass)]

/-- Places count the same character by character and over the whole prefix. -/
theorem placeOf_append (t : List Char) (line : Int) :
    placeOf (done ++ t) line done.length = (⟨line, 1⟩ : Place).afterAll done := by
  unfold placeOf
  rw [List.take_left]
  induction hn : done.length generalizing done with
  | zero =>
    obtain rfl := List.length_eq_zero_iff.1 hn
    simp
  | succ n ih =>
    rcases List.eq_nil_or_concat done with rfl | ⟨front, c, rfl⟩
    · cases hn
    · rw [List.concat_eq_append] at hn ⊢
      rw [Place.afterAll_append, ← ih front (by simpa using hn), Place.afterAll_cons,
        Place.afterAll_nil]
      by_cases hc : c = '\n'
      · subst hc
        simp
        omega
      · rw [Place.after_of_ne hc]
        simp [hc]
        omega

end Append

/-! ## 4. Findings are pieces -/

/-- What is found in a piece, given its offset. -/
def finding? (offset : Nat) : Piece → Option Finding
  | .lexeme sort text =>
    (classify sort (String.ofList text)).toOption.map fun r => .token offset r.1 r.2
  | piece => piece.complaint?.map fun complaint => .problem (offset + piece.lead.length) complaint

theorem ofWord_eq (offset : Nat) (text : List Char) :
    some (Finding.ofWord offset (String.ofList text)) =
      finding? offset (.lexeme .word text) := by
  unfold Finding.ofWord finding? classify
  dsimp only
  rw [Kind.ofWord?_eq]
  cases Vocabulary.reserved (String.ofList text) <;> rfl

/-- A slash begins a comment or is a problem. -/
theorem findingsFrom_slash (done cs : List Char) :
    findingsFrom (done ++ '/' :: cs) done.length =
      (finding? done.length (slashPiece cs)).toList ++
        findingsFrom (done ++ '/' :: cs) (done.length + (slashPiece cs).text.length) := by
  have hget : (done ++ '/' :: cs)[done.length]? = some '/' :=
    getElem?_append_length done ('/' :: cs) 0
  have hnext : (done ++ '/' :: cs)[done.length + 1]? = cs.head? := by
    rw [getElem?_append_length, List.head?_eq_getElem?]
    rfl
  have hoperator : Vocabulary.operator '/' = none := rfl
  rw [findingsFrom_of_getElem? hget, if_neg (by decide), if_neg (by decide), if_neg (by decide),
    hoperator]
  dsimp only
  rw [if_pos rfl, hnext]
  cases cs with
  | nil => rfl
  | cons e es =>
    have hsplit : done ++ '/' :: e :: es = done ++ ['/', e] ++ es := by simp
    have hlen : done.length + 2 = (done ++ ['/', e]).length := by simp
    rw [List.head?_cons]
    by_cases hstar : e = '*'
    · subst hstar
      have hend := commentEnd_append (done ++ ['/', '*']) es
      rw [← hsplit, ← hlen] at hend
      rw [if_pos rfl, slashPiece, if_pos rfl, hend]
      cases hbody : untilClosed es with
      | none =>
        have hall : done.length + (Piece.unclosed es).text.length =
            (done ++ '/' :: '*' :: es).length := by simp [Piece.text]
        dsimp only [Option.map_none]
        rw [← hall]
        rfl
      | some body =>
        have hall : done.length + 2 + (body.length + 2) =
            done.length + (Piece.block body).text.length := by
          simp [Piece.text]
          omega
        dsimp only [Option.map_some]
        rw [hall]
        rfl
    · rw [if_neg (by simpa using hstar)]
      by_cases hslash : e = '/'
      · subst hslash
        have hline := lineEnd_append (done ++ ['/', '/']) es
        rw [← hsplit, ← hlen] at hline
        rw [if_pos rfl, hline, slashPiece, if_neg (by decide), if_pos rfl, Nat.add_assoc,
          Nat.add_comm 2]
        rfl
      · rw [if_neg (by simpa using hslash), slashPiece, if_neg hstar, if_neg hslash]
        rfl

/-- **From an offset on, the front piece is found, and then what is behind it.** -/
theorem findingsFrom_eq (done : List Char) (c : Char) (cs : List Char) :
    findingsFrom (done ++ c :: cs) done.length =
      (finding? done.length (front c cs)).toList ++
        findingsFrom (done ++ c :: cs) (done.length + (front c cs).text.length) := by
  have hget : (done ++ c :: cs)[done.length]? = some c := getElem?_append_length done (c :: cs) 0
  have hspec := classOf_spec c
  rw [Kind.ofOperator?_eq] at hspec
  cases hc : classOf c with
  | zero =>
    rw [hc] at hspec
    obtain rfl : c = '0' := hspec
    rw [findingsFrom_of_getElem? hget, if_pos rfl, front_zero cs hc]
    rfl
  | digit =>
    rw [hc] at hspec
    obtain ⟨hzero, hdigit⟩ := hspec
    rw [findingsFrom_of_getElem? hget, if_neg hzero, if_pos hdigit, front_digit cs hc,
      runEnd_append, slice_run, List.takeWhile_cons_of_pos hdigit]
    rfl
  | letter =>
    rw [hc] at hspec
    obtain ⟨hzero, hdigit, hletter⟩ := hspec
    have hword : continuesWord c = true := by simp [continuesWord, hletter]
    have hsame : inWord = continuesWord := rfl
    rw [findingsFrom_of_getElem? hget, if_neg hzero, hdigit, if_neg Bool.false_ne_true,
      if_pos hletter, hsame, front_letter cs hc, runEnd_append, slice_run,
      List.takeWhile_cons_of_pos hword, ← ofWord_eq]
    rfl
  | operator =>
    rw [hc] at hspec
    obtain ⟨hzero, hdigit, hletter, hoperator⟩ := hspec
    obtain ⟨kind, hkind⟩ := Option.isSome_iff_exists.1 hoperator
    have hfind : finding? done.length (.lexeme .operator [c]) =
        some (.token done.length kind none) := by
      simp [finding?, classify, Kind.ofSign?, Kind.ofOperator?_eq, hkind, Except.toOption]
    rw [findingsFrom_of_getElem? hget, if_neg hzero, hdigit, hletter, hkind,
      if_neg Bool.false_ne_true, if_neg Bool.false_ne_true, front_operator cs hc, hfind]
    rfl
  | slash =>
    rw [hc] at hspec
    obtain rfl : c = '/' := hspec
    rw [front_slash cs hc]
    exact findingsFrom_slash done cs
  | blank =>
    rw [hc] at hspec
    obtain ⟨hzero, hdigit, hletter, hoperator, hslash, hblank⟩ := hspec
    rw [findingsFrom_of_getElem? hget, if_neg hzero, hdigit, hletter, hoperator,
      if_neg Bool.false_ne_true, if_neg Bool.false_ne_true]
    dsimp only
    rw [if_neg hslash, if_pos hblank, front_blank cs hc]
    rfl
  | illegal =>
    rw [hc] at hspec
    obtain ⟨hzero, hdigit, hletter, hoperator, hslash, hblank⟩ := hspec
    rw [findingsFrom_of_getElem? hget, if_neg hzero, hdigit, hletter, hoperator,
      if_neg Bool.false_ne_true, if_neg Bool.false_ne_true]
    dsimp only
    rw [if_neg hslash, hblank, if_neg Bool.false_ne_true, front_illegal cs hc]
    rfl

/-- The parts of the token that a call gave. -/
def partsOf (result : Except Failure Token) : Option Token.Parts := result.toOption.map Token.parts

theorem partsOf_endAt {place : Place} (hp : place.Counted) :
    partsOf (endAt place) = some (place, .eof, none) := by
  obtain ⟨t, ht, hplace, hkind, htext⟩ := endAt_ok hp
  rw [ht, ← hplace, ← hkind, ← htext]
  rfl

theorem partsOf_token {l : Lexeme} {sort : LexemeClass} {kind : Kind} {txt : Option String}
    (hp : l.place.Counted) (hc : classify sort l.text = .ok (kind, txt)) :
    partsOf (l.token sort) = some (l.place, kind, txt) := by
  obtain ⟨t, ht, hplace, hkind, htext⟩ := token_of_classify hp hc
  rw [ht, ← hplace, ← hkind, ← htext]
  rfl

section Sides

variable (options : Options) (text : List Char)

/-- The parts of the tokens among findings. -/
def tokensOf (found : List Finding) : List Token.Parts :=
  found.filterMap (Finding.parts? (placeOf text options.line))

/-- The diagnostics among findings. -/
def diagnosticsOf (found : List Finding) : List Diagnostic :=
  found.filterMap (Finding.diagnostic? options.file (placeOf text options.line))

end Sides

/-- The finding of a piece has the parts of its token. -/
theorem parts?_of_front {options : Options} {text done cs : List Char} {c : Char}
    (hline : 1 ≤ options.line) (htext : text = done ++ c :: cs) :
    ((front c cs).outcome? ((⟨options.line, 1⟩ : Place).afterAll done)).toList.filterMap partsOf =
      tokensOf options text (finding? done.length (front c cs)).toList := by
  have hp : ((⟨options.line, 1⟩ : Place).afterAll done).Counted :=
    Place.Counted.afterAll ⟨hline, Int.le_refl 1⟩ done
  unfold tokensOf
  cases hfront : front c cs with
  | lexeme sort txt =>
    obtain ⟨⟨kind, t⟩, hclass⟩ := classify_of_front hfront
    have hparts : partsOf ((⟨(⟨options.line, 1⟩ : Place).afterAll done, String.ofList txt⟩ :
        Lexeme).token sort) = some ((⟨options.line, 1⟩ : Place).afterAll done, kind, t) :=
      partsOf_token hp hclass
    have hfind : finding? done.length (.lexeme sort txt) = some (.token done.length kind t) := by
      rw [finding?, hclass]
      rfl
    rw [hfind, Piece.outcome?, Option.toList_some, Option.toList_some, List.filterMap_cons, hparts,
      List.filterMap_cons, Finding.parts?, htext, placeOf_append]
    rfl
  | _ => simp [finding?, Piece.complaint?, Piece.outcome?, Finding.parts?]

/-- The finding of a piece is its diagnostic. -/
theorem diagnostic?_of_front {options : Options} {text done cs : List Char} {c : Char}
    (htext : text = done ++ c :: cs) :
    ((front c cs).report? options.file ((⟨options.line, 1⟩ : Place).afterAll done)).toList =
      diagnosticsOf options text (finding? done.length (front c cs)).toList := by
  obtain ⟨rest, hrest⟩ := front_begins c cs
  have hplace : placeOf text options.line (done.length + (front c cs).lead.length) =
      ((⟨options.line, 1⟩ : Place).afterAll done).afterAll (front c cs).lead := by
    have hsplit : text = done ++ (front c cs).lead ++ ((front c cs).tail ++ rest) := by
      rw [htext, ← hrest, List.append_assoc, ← List.append_assoc (front c cs).lead,
        Piece.lead_append_tail]
    rw [hsplit, ← List.length_append, placeOf_append, Place.afterAll_append]
  unfold diagnosticsOf Piece.report?
  cases hfront : front c cs with
  | lexeme sort txt =>
    cases hclass : classify sort (String.ofList txt) <;>
      simp [finding?, Piece.complaint?, Finding.diagnostic?, hclass, Except.toOption]
  | _ =>
    rw [hfront] at hplace
    simp [finding?, Piece.complaint?, Finding.diagnostic?, ← hplace]

/-- What a text comes to is what is found in it. -/
theorem findings_spec {options : Options} (hline : 1 ≤ options.line) {text : List Char}
    (done t : List Char) (htext : text = done ++ t) :
    (outcomes t ((⟨options.line, 1⟩ : Place).afterAll done)).filterMap partsOf =
        tokensOf options text (findingsFrom text done.length) ∧
      reports options.file t ((⟨options.line, 1⟩ : Place).afterAll done) =
        diagnosticsOf options text (findingsFrom text done.length) := by
  induction t using pieces_induction generalizing done with
  | nil =>
    have hp : ((⟨options.line, 1⟩ : Place).afterAll done).Counted :=
      Place.Counted.afterAll ⟨hline, Int.le_refl 1⟩ done
    have hfound : findingsFrom text done.length = [.token done.length .eof none] := by
      rw [findingsFrom]
      split
      · rfl
      · rename_i heq
        simp [htext] at heq
    have hplace := placeOf_append done [] options.line
    rw [← htext] at hplace
    rw [hfound, outcomes_nil, reports_nil]
    simp [tokensOf, diagnosticsOf, Finding.parts?, Finding.diagnostic?, partsOf_endAt hp, hplace]
  | cons c cs rest hrest ih =>
    have hstep := findingsFrom_eq done c cs
    rw [← htext, ← List.length_append] at hstep
    obtain ⟨htok, hdiag⟩ := ih (done ++ (front c cs).text) (by rw [htext, hrest]; simp)
    rw [Place.afterAll_append] at htok hdiag
    rw [hstep, outcomes_cons hrest, reports_cons hrest]
    constructor
    · rw [List.filterMap_append, parts?_of_front hline htext, htok]
      simp [tokensOf]
    · rw [diagnostic?_of_front htext, hdiag]
      simp [diagnosticsOf]

/-- **The scan of a text gives exactly what is found in it**: opening it succeeds, no call for a
    token fails, the tokens are those found, place, kind and text, and the collector holds the
    diagnostics found, each in order. -/
theorem drain_eq_findings {options : Options} (hline : 1 ≤ options.line) (text : List Char) :
    ∃ s, openReader options (Reader.ofText text) ({ limit := options.limit } : Collector) = .ok s ∧
      s.drain.failure = none ∧
      s.drain.tokens.map Token.parts = tokensOf options text (findingsFrom text 0) ∧
      s.drain.scan.observer.kept.toList = diagnosticsOf options text (findingsFrom text 0) := by
  obtain ⟨hfail, htok, hdiag⟩ := collected_spec hline text
  obtain ⟨hparts, hrep⟩ := findings_spec hline [] text rfl
  refine ⟨_, openReader_ofText options text _, hfail, ?_, hdiag.trans hrep⟩
  rw [Place.afterAll_nil, ← htok, List.filterMap_map] at hparts
  rw [← List.filterMap_eq_map]
  exact hparts

/-- A reserved word, an operator, a longer word that begins with a reserved one, and a slash that
    begins nothing. -/
theorem drain_eq_findings_words_stray :
    let text := ['e', 'n', 'd', '=', '\n', 'e', 'n', 'd', '1', '/']
    (1 : Int) ≤ 7 ∧
      ∃ s, openReader { line := 7 } (Reader.ofText text) ({ limit := 100 } : Collector) = .ok s ∧
        s.drain.failure = none ∧
        s.drain.tokens.map Token.parts =
          [(⟨7, 1⟩, .finish, none), (⟨7, 4⟩, .assign, none), (⟨8, 1⟩, .identifier, some "end1"),
            (⟨8, 6⟩, .eof, none)] ∧
        s.drain.scan.observer.kept.toList =
          [⟨.malformedComment none, some ⟨unnamed, ⟨8, 6⟩⟩⟩] := by
  intro text
  have hline : (1 : Int) ≤ ({ line := 7 } : Options).line := by decide
  have hfound : findingsFrom text 0 =
      [.token 0 .finish none, .token 3 .assign none, .token 5 .identifier (some "end1"),
        .problem 10 (.malformedComment none), .token 10 .eof none] := by decide +kernel
  obtain ⟨s, hopen, hfail, htok, hdiag⟩ := drain_eq_findings hline text
  rw [hfound] at htok hdiag
  exact ⟨by decide, s, hopen, hfail, htok, hdiag⟩

end WholeText

end YaslLexis
