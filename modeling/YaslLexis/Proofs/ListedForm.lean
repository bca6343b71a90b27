import YaslLexis.Proofs.Delimiting
import YaslLexis.Proofs.Spelling

/-!
# Lines of a listing

What can be read back from the lines in which tokens are listed. The place fills eight columns, the
kind twelve if a text follows; a field that is longer than its columns takes what it needs and no
blank comes after it. The name of a kind is never that long, but a place may be.

* `Token.rear`, `Token.toList_listed` -- the parts of a line;
* `Text.fields` -- a line cut at its runs of blanks;
* **`fields_listed`** -- the fields of the line of a scanned token are its place, its kind and its
  text as long as the place is shorter than its columns, and from there on the place and the kind
  are one field;
* **`listed_tells`** -- a line tells the token all the same, and a listing the tokens of the scan.
-/

namespace YaslLexis

open Machine Report

/-! ## 1. The parts of a line -/

theorem Kind.length_name_lt (k : Kind) : k.name.length < Token.kindWidth := by
  cases k <;> decide

namespace Token

/-- What comes after the name of the kind: nothing, or blanks and the text. -/
def rear (t : Token) : List Char :=
  match t.text with
  | some text => List.replicate (kindWidth - t.kind.name.length) ' ' ++ text.toList
  | none => []

theorem toList_listed (t : Token) :
    t.listed.toList = t.place.text.toList ++
      (List.replicate (placeWidth - t.place.text.length) ' ' ++
        (t.kind.name.toList ++ t.rear)) := by
  unfold listed rear
  cases t.text <;> simp

/-- A kind with a text is followed by a blank at least. -/
theorem rear_eq (t : Token) {text : String} (h : t.text = some text) :
    ∃ n, t.rear = List.replicate (n + 1) ' ' ++ text.toList := by
  have hlt := t.kind.length_name_lt
  unfold rear
  rw [h]
  refine ⟨kindWidth - t.kind.name.length - 1, ?_⟩
  rw [Nat.sub_add_cancel (Nat.sub_pos_of_lt hlt)]

theorem rear_stops (t : Token) : t.rear.head?.any Char.isUpper = false := by
  cases htext : t.text with
  | none =>
    unfold rear
    rw [htext]
    rfl
  | some text =>
    obtain ⟨n, hrear⟩ := t.rear_eq htext
    rw [hrear, List.replicate_succ]
    rfl

/-- The kind and what comes after its name tell the text, whatever it is. -/
theorem text_of_rear {t t' : Token} (hkind : t.kind = t'.kind) (h : t.rear = t'.rear) :
    t.text = t'.text := by
  unfold rear at h
  rw [hkind] at h
  rcases texts_of_kind hkind with ⟨hnone, hnone'⟩ | ⟨text, text', hsome, hsome'⟩
  · rw [hnone, hnone']
  · rw [hsome, hsome'] at h ⊢
    rw [String.toList_inj.1 (List.append_cancel_left h)]

/-- No digit comes right after the place. -/
theorem place_stops (t : Token) (n : Nat) (rest : List Char) :
    (List.replicate n ' ' ++ (t.kind.name.toList ++ rest)).head?.any Char.isDigit = false := by
  cases n with
  | zero =>
    have hall : ∀ k ∈ Kind.all, k.name.toList.head?.any Char.isDigit = false ∧
        k.name.toList.head?.isSome = true := by decide
    obtain ⟨hstop, hsome⟩ := hall t.kind (Kind.mem_all _)
    obtain ⟨c, hc⟩ := Option.isSome_iff_exists.1 hsome
    rw [List.replicate_zero, List.nil_append, List.head?_append, hc]
    rw [hc] at hstop
    exact hstop
  | succ n => rfl

/-- **The line of a token tells the token**, whatever its place and its text. -/
theorem listed_inj {t t' : Token} (h : t.listed = t'.listed) : t = t' := by
  have hchars := congrArg String.toList h
  rw [t.toList_listed, t'.toList_listed] at hchars
  obtain ⟨hplace, hafter⟩ := Place.text_append_inj t.counted t'.counted (t.place_stops _ _)
    (t'.place_stops _ _) hchars
  -- The same place leaves the same number of blanks.
  rw [hplace] at hafter
  obtain ⟨hkind, hrear⟩ :=
    Kind.name_append_inj t.rear_stops t'.rear_stops (List.append_cancel_left hafter)
  exact eq_of_parts hplace hkind (text_of_rear hkind hrear)

end Token

/-! ## 2. Fields -/

namespace Text

/-- The parts of a line between its runs of blanks. -/
def fieldsOf (line : List Char) : List (List Char) :=
  (line.splitOnP isBlank).filter fun part => !part.isEmpty

/-- The fields of a line: what stands between its runs of blanks. -/
def fields (line : String) : List String := (fieldsOf line.toList).map String.ofList

/-- No blank is in the text. -/
def Solid (text : List Char) : Prop := ∀ c ∈ text, isBlank c = false

/-- Between the space and the first control beyond it there are no blanks. -/
theorem isBlank_of_visible {c : Char} (hlow : 0x20 < c.toNat) (hhigh : c.toNat < 0x7F) :
    isBlank c = false := by
  have hall : ∀ s ∈ blanks.spans, s.last ≤ 0x20 ∨ 0x7F ≤ s.first := by decide
  refine Bool.eq_false_iff.2 fun hblank => ?_
  obtain ⟨s, hs, habove, hbelow⟩ := CodeSet.has_iff.1 hblank
  rcases hall s hs with hbefore | hbehind <;> omega

theorem fieldsOf_append_blank {c : Char} (h : isBlank c = true) (a b : List Char) :
    fieldsOf (a ++ c :: b) = fieldsOf a ++ fieldsOf b := by
  unfold fieldsOf
  rw [List.splitOnP_append_cons a b h, List.filter_append]

theorem fieldsOf_blanks (n : Nat) (b : List Char) :
    fieldsOf (List.replicate n ' ' ++ b) = fieldsOf b := by
  induction n with
  | zero => rfl
  | succ n ih =>
    have hone := fieldsOf_append_blank (c := ' ') (by decide +kernel) []
      (List.replicate n ' ' ++ b)
    rw [List.nil_append, ih] at hone
    rw [List.replicate_succ, List.cons_append]
    exact hone

/-- Blanks part two fields. -/
theorem fieldsOf_append (a : List Char) (n : Nat) (b : List Char) :
    fieldsOf (a ++ (List.replicate (n + 1) ' ' ++ b)) = fieldsOf a ++ fieldsOf b := by
  rw [List.replicate_succ, List.cons_append, fieldsOf_append_blank (by decide +kernel),
    fieldsOf_blanks]

theorem fieldsOf_solid {a : List Char} (hne : a ≠ []) (h : Solid a) : fieldsOf a = [a] := by
  unfold fieldsOf
  rw [List.splitOnP_eq_singleton h]
  simp [hne]

theorem Solid.append {a b : List Char} (ha : Solid a) (hb : Solid b) : Solid (a ++ b) :=
  fun c hc => (List.mem_append.1 hc).elim (ha c) (hb c)

end Text

open Text

theorem Place.text_solid {p : Place} (hp : p.Counted) : Solid p.text.toList := by
  intro c hc
  rcases p.mem_text hp hc with hdigit | rfl
  · simp only [Char.isDigit, Bool.and_eq_true, decide_eq_true_eq, ge_iff_le,
      UInt32.le_iff_toNat_le] at hdigit
    change 48 ≤ c.toNat ∧ c.toNat ≤ 57 at hdigit
    exact isBlank_of_visible (by omega) (by omega)
  · decide +kernel

theorem Kind.name_solid (k : Kind) : Solid k.name.toList := by
  have hall : ∀ k ∈ all, (k.name.toList.all fun c => !isBlank c) = true := by decide +kernel
  intro c hc
  have hnot := List.all_eq_true.1 (hall k (mem_all k)) c hc
  simpa using hnot

theorem Place.text_ne_nil (p : Place) : p.text.toList ≠ [] := by
  rw [p.toList_text]
  exact List.append_ne_nil_of_right_ne_nil _ (List.cons_ne_nil _ _)

theorem solid_of_continuesWord {text : List Char}
    (h : ∀ c ∈ text, continuesWord c = true) : Solid text := by
  intro c hc
  rcases continuesWord_iff.1 (h c hc) with hletter | hdigit
  · exact letter_not_blank hletter
  · exact digit_not_blank hdigit

/-- The text of the token, if it has one, is a field by itself. -/
def Token.Fielded (t : Token) : Prop := ∀ text ∈ t.text, text.toList ≠ [] ∧ Solid text.toList

theorem fielded_of_mem {text : List Char} {place : Place} {t : Token}
    (h : .ok t ∈ outcomes text place) : t.Fielded := by
  intro txt htxt
  obtain ⟨hne, hword⟩ := text_of_mem_outcomes h txt htxt
  exact ⟨hne, solid_of_continuesWord hword⟩

namespace Token.Fielded

variable {t : Token} (h : t.Fielded)
include h

/-- The text is a field of its own behind whatever solid field comes before it. -/
theorem fieldsOf_rear {a : List Char} (hne : a ≠ []) (ha : Solid a) :
    fieldsOf (a ++ t.rear) = a :: t.text.toList.map String.toList := by
  cases htext : t.text with
  | none =>
    have hrear : t.rear = [] := by
      unfold rear
      rw [htext]
    rw [hrear, List.append_nil, fieldsOf_solid hne ha]
    rfl
  | some text =>
    obtain ⟨n, hrear⟩ := t.rear_eq htext
    obtain ⟨hsome, htextSolid⟩ := h text htext
    rw [hrear, fieldsOf_append, fieldsOf_solid hne ha, fieldsOf_solid hsome htextSolid]
    rfl

/-- A place shorter than its columns is a field of its own. -/
theorem fields_of_short (hshort : t.place.text.length < placeWidth) :
    fields t.listed = t.place.text :: t.kind.name :: t.text.toList := by
  obtain ⟨n, hn⟩ := Nat.exists_eq_add_of_lt hshort
  have hblanks : placeWidth - t.place.text.length = n + 1 := by omega
  unfold fields
  rw [t.toList_listed, hblanks, fieldsOf_append,
    fieldsOf_solid t.place.text_ne_nil (Place.text_solid t.counted),
    h.fieldsOf_rear t.kind.name_ne_nil t.kind.name_solid]
  simp

/-- A place that fills its columns is one field with the kind. -/
theorem fields_of_long (hlong : placeWidth ≤ t.place.text.length) :
    fields t.listed = (t.place.text ++ t.kind.name) :: t.text.toList := by
  have hsolid := (Place.text_solid t.counted).append t.kind.name_solid
  unfold fields
  rw [t.toList_listed, Nat.sub_eq_zero_of_le hlong, List.replicate_zero, List.nil_append,
    ← List.append_assoc,
    h.fieldsOf_rear (List.append_ne_nil_of_right_ne_nil _ t.kind.name_ne_nil) hsolid]
  simp

/-- The first field begins with the place and goes on with no digit. -/
theorem head?_fields : ∃ rest, (fields t.listed).head?.map String.toList =
    some (t.place.text.toList ++ rest) ∧ rest.head?.any Char.isDigit = false := by
  by_cases hshort : t.place.text.length < placeWidth
  · refine ⟨[], ?_, rfl⟩
    rw [h.fields_of_short hshort, List.append_nil]
    rfl
  · have hstops := t.place_stops 0 []
    rw [List.replicate_zero, List.nil_append, List.append_nil] at hstops
    refine ⟨t.kind.name.toList, ?_, hstops⟩
    rw [h.fields_of_long (Nat.le_of_not_lt hshort), ← String.toList_append]
    rfl

/-- The fields tell the token, also where the place and the kind are one of them. -/
theorem fields_inj {t' : Token} (h' : t'.Fielded) (heq : fields t.listed = fields t'.listed) :
    t = t' := by
  obtain ⟨rest, hhead, hrest⟩ := h.head?_fields
  obtain ⟨rest', hhead', hrest'⟩ := h'.head?_fields
  rw [heq] at hhead
  have hfirst := Option.some.inj (hhead.symm.trans hhead')
  have hplace := (Place.text_append_inj t.counted t'.counted hrest hrest' hfirst).1
  have hparts : t.kind.name = t'.kind.name ∧ t.text.toList = t'.text.toList := by
    by_cases hshort : t.place.text.length < placeWidth
    · rw [h.fields_of_short hshort, h'.fields_of_short (hplace ▸ hshort), hplace] at heq
      simpa using heq
    · have hlong := Nat.le_of_not_lt hshort
      rw [h.fields_of_long hlong, h'.fields_of_long (hplace ▸ hlong), hplace] at heq
      simpa using heq
  refine eq_of_parts hplace (Kind.name_injective hparts.1) ?_
  rw [← Option.head?_toList (o := t.text), hparts.2, Option.head?_toList]

/-- The line of the token is one line. -/
theorem lineFeed_not_mem : '\n' ∉ t.listed.toList := by
  have hblank : isBlank '\n' = true := by decide +kernel
  have hnot {a : List Char} (ha : Solid a) : '\n' ∉ a := by
    intro hmem
    rw [ha _ hmem] at hblank
    cases hblank
  have hspaces (n : Nat) : '\n' ∉ List.replicate n ' ' :=
    fun hmem => absurd (List.eq_of_mem_replicate hmem) (by decide)
  have hrear : '\n' ∉ t.rear := by
    unfold rear
    cases htext : t.text with
    | none => exact List.not_mem_nil
    | some text => exact List.not_mem_append (hspaces _) (hnot (h text htext).2)
  rw [t.toList_listed]
  exact List.not_mem_append (hnot (Place.text_solid t.counted))
    (List.not_mem_append (hspaces _) (List.not_mem_append (hnot t.kind.name_solid) hrear))

end Token.Fielded

theorem fielded_of_collected {options : Options} {text : List Char} {t : Token}
    (h : t ∈ (collected options text).tokens) : t.Fielded :=
  fielded_of_mem (mem_outcomes_of_drain (at_openText options text _) h)

/-- **The fields of a line.** Cut at its runs of blanks, the line of a scanned token gives the place,
    the kind and the text if there is one, exactly if the place is written with fewer characters than
    it has columns. If it takes them all, the place and the kind are one field. Either way the fields
    tell the token. -/
theorem fields_listed (options : Options) (text : List Char) :
    ∀ t ∈ (collected options text).tokens,
      (fields t.listed = t.place.text :: t.kind.name :: t.text.toList ↔
        t.place.text.length < Token.placeWidth) ∧
      (Token.placeWidth ≤ t.place.text.length →
        fields t.listed = (t.place.text ++ t.kind.name) :: t.text.toList) ∧
      ∀ (options' : Options) (text' : List Char), ∀ t' ∈ (collected options' text').tokens,
        fields t.listed = fields t'.listed → t = t' := by
  intro t ht
  have hfielded := fielded_of_collected ht
  refine ⟨⟨fun hfields => ?_, hfielded.fields_of_short⟩, hfielded.fields_of_long,
    fun _ _ t' ht' => hfielded.fields_inj (fielded_of_collected ht')⟩
  refine Nat.lt_of_not_le fun hlong => ?_
  rw [hfielded.fields_of_long hlong] at hfields
  have hlength := congrArg List.length hfields
  simp at hlength

/-- The name in the last line whose number leaves a blank behind the place. -/
theorem fields_listed_last_short :
    ∃ t ∈ (collected { line := 99999 } ['x']).tokens,
      t.place.text.length < Token.placeWidth ∧ fields t.listed = ["99999:1", "IDENTIFIER", "x"] := by
  have hscan : ((collected { line := 99999 } ['x']).tokens.head?.map fun t =>
      (t.place.text, t.kind, t.text)) = some ("99999:1", .identifier, some "x") := by
    decide +kernel
  obtain ⟨t, hhead, hparts⟩ := Option.map_eq_some_iff.1 hscan
  obtain ⟨hplace, hrest⟩ := Prod.mk.inj hparts
  obtain ⟨hkind, htext⟩ := Prod.mk.inj hrest
  have ht := List.mem_of_mem_head? hhead
  have hshort : t.place.text.length < Token.placeWidth := by
    rw [hplace]
    decide
  have hfields := (fields_listed { line := 99999 } ['x'] t ht).1.2 hshort
  rw [hplace, hkind, htext] at hfields
  exact ⟨t, ht, hshort, hfields⟩

/-- In the next line the place and the kind run into each other. -/
theorem place_runs_into_kind :
    ((collected { line := 100000 } ['x']).tokens.map fun t => fields t.listed) =
        [["100000:1IDENTIFIER", "x"], ["100000:2EOF"]] ∧
      ((collected { line := 100000 } ['x']).tokens.map fun t =>
          t.place.text :: t.kind.name :: t.text.toList) =
        [["100000:1", "IDENTIFIER", "x"], ["100000:2", "EOF"]] := by
  decide +kernel

/-! ## 3. Listings -/

/-- A listing: the lines of the tokens, with line feeds between them. -/
def dump (tokens : List Token) : String := "\n".intercalate (tokens.map Token.listed)

/-- Lines that are not empty are known from the text in which line feeds join them. -/
theorem lines_inj {ls ls' : List (List Char)} (h : ∀ l ∈ ls, l ≠ [] ∧ '\n' ∉ l)
    (h' : ∀ l ∈ ls', l ≠ [] ∧ '\n' ∉ l)
    (heq : ['\n'].intercalate ls = ['\n'].intercalate ls') : ls = ls' := by
  have hsplit {ms : List (List Char)} (hms : ∀ l ∈ ms, l ≠ [] ∧ '\n' ∉ l) :
      (['\n'].intercalate ms).splitOn '\n' = if ms = [] then [[]] else ms := by
    split
    · rename_i hnil
      rw [hnil]
      rfl
    · rename_i hne
      exact List.splitOn_intercalate '\n' (fun l hl => (hms l hl).2) hne
  have hnever {ms : List (List Char)} (hms : ∀ l ∈ ms, l ≠ [] ∧ '\n' ∉ l) : ms ≠ [[]] := by
    rintro rfl
    exact (hms [] List.mem_cons_self).1 rfl
  have hboth := hsplit h
  rw [heq, hsplit h'] at hboth
  split at hboth <;> split at hboth
  · simp_all
  · exact absurd hboth.symm (hnever h)
  · exact absurd hboth (hnever h')
  · exact hboth.symm

theorem dump_inj {ts ts' : List Token} (h : ∀ t ∈ ts, t.Fielded) (h' : ∀ t ∈ ts', t.Fielded)
    (heq : dump ts = dump ts') : ts = ts' := by
  have hline {us : List Token} (hus : ∀ t ∈ us, t.Fielded) :
      ∀ l ∈ (us.map Token.listed).map String.toList, l ≠ [] ∧ '\n' ∉ l := by
    simp only [List.forall_mem_map]
    intro t ht
    refine ⟨?_, (hus t ht).lineFeed_not_mem⟩
    rw [t.toList_listed]
    exact List.append_ne_nil_of_left_ne_nil t.place.text_ne_nil _
  have hchars := congrArg String.toList heq
  unfold dump at hchars
  rw [String.toList_intercalate, String.toList_intercalate] at hchars
  have hlines := lines_inj (hline h) (hline h') hchars
  rw [List.map_map, List.map_map] at hlines
  refine (List.map_inj_right fun t t' hsame => ?_).1 hlines
  exact Token.listed_inj (String.toList_inj.1 hsame)

/-- **A listing determines the tokens.** Two tokens whatever, with texts that may be empty or have
    blanks in them, have the same line only if they are the same; and two scans whatever have the
    same listing only if they have the same tokens. -/
theorem listed_tells :
    (∀ t t' : Token, t.listed = t'.listed ↔ t = t') ∧
    (∀ (options options' : Options) (text text' : List Char),
      dump (collected options text).tokens = dump (collected options' text').tokens ↔
        (collected options text).tokens = (collected options' text').tokens) :=
  ⟨fun _ _ => ⟨Token.listed_inj, congrArg _⟩, fun _ _ _ _ =>
    ⟨dump_inj (fun _ => fielded_of_collected) (fun _ => fielded_of_collected), congrArg _⟩⟩

end YaslLexis
