import YaslLexis.Proofs.Encoding
import YaslLexis.Proofs.Listing

/-!
# More diagnostics than the limit

The command looks whether there are too many diagnostics after each token that it has printed, and
nowhere else. A call for a token may report any number of diagnostics before it has one, so the limit
is where the command stops and not the most that it reports.

* `pieces_illegal`, `reports_illegal`, `outcomes_illegal` -- a text of illegal characters alone has
  a diagnostic for each of them and no token before the end token;
* `asked_drain` -- as many calls as a whole scan has tokens are the whole scan;
* `run_illegal` -- what the command prints about a file of illegal characters alone;
* **`limit_between_tokens`** -- before its last token the command has reported fewer diagnostics than
  the limit; with its last token, as many as there may be.
-/

namespace YaslLexis

open Machine Report Text

/-! ## 1. Illegal characters alone -/

namespace Machine

section Illegal

variable {text : List Char} (h : ∀ c ∈ text, classOf c = .illegal)
include h

theorem pieces_illegal : pieces text = text.map .illegal := by
  induction text with
  | nil => exact pieces_nil
  | cons c cs ih =>
    obtain ⟨hc, hcs⟩ := List.forall_mem_cons.1 h
    have hfront : front c cs = .illegal c := front_illegal cs hc
    have hbegins : c :: cs = (front c cs).text ++ cs := by
      rw [hfront]
      rfl
    rw [pieces_cons hbegins, hfront, ih hcs, List.map_cons]

theorem reports_illegal (file : String) (place : Place) :
    (reports file text place).length = text.length := by
  unfold reports
  rw [pieces_illegal h]
  clear h
  induction text generalizing place with
  | nil => rfl
  | cons c cs ih =>
    rw [List.map_cons, along, List.length_append, ih, List.length_cons, Nat.add_comm]
    rfl

theorem outcomes_illegal (place : Place) : outcomes text place = [endAt (place.afterAll text)] := by
  unfold outcomes
  rw [pieces_illegal h]
  have hnone : along Piece.outcome? (text.map .illegal) place = [] := by
    clear h
    induction text generalizing place with
    | nil => rfl
    | cons c cs ih =>
      rw [List.map_cons, along, ih]
      rfl
  rw [hnone, List.nil_append]

/-- The file that holds such a text is read as it is. -/
theorem content_illegal : Files.Content.text (Utf8.encoded text) = text := by
  have hreturn : classOf '\r' ≠ .illegal := by decide +kernel
  unfold Files.Content.text
  rw [Utf8.decode_encoded_alone, unifyLineEnds_eq_self fun hmem => hreturn (h '\r' hmem)]

end Illegal

/-! ## 2. As many calls as tokens -/

/-- As many calls as a whole scan has tokens leave what the whole scan leaves. -/
theorem asked_drain {σ : Type} [Observer σ] {s : Scan σ} (h : s.drain.failure = none) :
    s.asked s.drain.tokens.length = s.drain.scan := by
  fun_induction Scan.drain s with
  | case1 s s' f hnext => cases h
  | case2 s s' t hnext hend =>
    show s.next.1 = s'
    rw [hnext]
  | case3 s s' t hnext hother later ih =>
    show s.asked (later.tokens.length + 1) = later.scan
    rw [Scan.asked_succ, hnext]
    exact ih h

/-- A scan of illegal characters alone reports all of them with its only token. -/
theorem asked_one_illegal {text : List Char} (h : ∀ c ∈ text, classOf c = .illegal)
    {s : Scan Collector} {place : Place} (hready : Ready s text place)
    (hempty : s.observer.kept.toList = []) :
    s.drain.tokens.length = 1 ∧ (s.asked 1).observer.count = text.length ∧
      (s.asked 1).observer.kept.toList = reports s.file text place := by
  obtain ⟨hfailure, htokens, hdiagnostics⟩ := drain_spec hready.at' hready.tokens
  have hone : s.drain.tokens.length = 1 := by
    have hlength := congrArg List.length htokens
    rwa [List.length_map, outcomes_illegal h] at hlength
  have hasked := asked_drain hfailure
  rw [hone] at hasked
  rw [hempty, List.nil_append] at hdiagnostics
  have hkept : (s.asked 1).observer.kept.toList = reports s.file text place := by
    rw [hasked]
    exact hdiagnostics
  refine ⟨hone, ?_, hkept⟩
  rw [← reports_illegal h s.file place, ← hkept]
  exact Array.length_toList.symm

end Machine

namespace Command

/-! ## 3. The limit of the command -/

/-- A scan of a file with a collector alone has a token for every call. -/
theorem ready_file (options : Options) (hline : 1 ≤ options.line) (text : List Char) :
    Ready (opened options (.ofFile text) ({} : Collector)) text ⟨options.line, 1⟩ := by
  have hwilling : Willing ({} : Collector) := fun log c hlog => hlog.collector.1
  have hall : Reader.untilEmpty (Reader.ofFile text).pending = text := Reader.untilEmpty_map_some _
  have hready := ready_opened (Reader.reliable_ofFile text) hwilling options hline
  rwa [hall] at hready

section Run

variable {openPath : String → Except Files.OpenError Files.Content} {arguments : List String}
  {request : Request} {held : List UInt8}

/-- What the command does with a file of bytes. -/
theorem run_of_bytes (hwish : wishOf arguments = .ok (.scan request)) (hextra : request.extra = [])
    (hopens : openPath request.path = .ok (.bytes held))
    (htidy : openPath (Files.tidy request.path) = openPath request.path) :
    run openPath arguments =
      .ok (scanOpened request (opened { file := Files.tidy request.path }
        (.ofFile (Files.Content.text held)) (postFor (Files.tidy request.path)))) := by
  have hnone : misuseOf openPath request = .ok none := by
    unfold misuseOf
    rw [hopens, hextra]
    rfl
  unfold run
  rw [hwish]
  dsimp only
  rw [hnone, ← scanFile_bytes (htidy.trans hopens)]

/-- What the command prints about a file of illegal characters alone: all of them are reported. -/
theorem run_illegal {text : List Char} (hillegal : ∀ c ∈ text, classOf c = .illegal)
    (hwish : wishOf arguments = .ok (.scan request)) (hextra : request.extra = [])
    (hopens : openPath request.path = .ok (.bytes (Utf8.encoded text)))
    (htidy : openPath (Files.tidy request.path) = openPath request.path) :
    ∃ (outcome : Outcome) (events : Array Event), run openPath arguments = .ok outcome ∧
      outcome.errorOutput = eventTexts request.verbose events ∧
      eventTexts false events =
        printed (reports (Files.tidy request.path) text ⟨1, 1⟩) ++ tooMany text.length ++
          (if request.summary then
            toString 1 ++ " tokens, " ++ toString text.length ++ " diagnostics\n"
          else "") := by
  let options : Options := { file := Files.tidy request.path }
  have hready := ready_file options (Int.le_refl 1) text
  obtain ⟨k, events, hstops, -, hwritten, hscanned⟩ :=
    scanOpened_leaves request (mirrors_opened options text (Files.tidy request.path)) hready
  obtain ⟨hone, hcount, hkept⟩ := asked_one_illegal hillegal hready rfl
  obtain rfl : k = 1 := Nat.le_antisymm (hone ▸ hstops.le) hstops.pos
  have hrun := run_of_bytes hwish hextra hopens htidy
  rw [content_illegal hillegal, hscanned] at hrun
  refine ⟨_, events, hrun, rfl, ?_⟩
  rw [hwritten, hkept, hcount]
  rfl

/-- **The limit is looked at between tokens.** Of a file that its path names as given and as tidied
    the command asks for some number of tokens, and then no more: either these are all, or there are
    a hundred diagnostics or more.

    * The error output has, but for the records that may be asked for, the diagnostics of these
      calls, then the line about too many of them if there are, and then the two counts if they are
      asked for.
    * Before the last of these calls there were fewer than a hundred.
    * There is no bound for those of the last call: of a file that has nothing but illegal characters
      all are reported. -/
theorem limit_between_tokens (hwish : wishOf arguments = .ok (.scan request))
    (hextra : request.extra = []) (hopens : openPath request.path = .ok (.bytes held))
    (htidy : openPath (Files.tidy request.path) = openPath request.path) :
    ∃ (u : Scan Collector) (k : Nat) (outcome : Outcome) (events : Array Event),
      openReader { file := Files.tidy request.path } (Files.Content.bytes held).reader {} =
        .ok u ∧
      run openPath arguments = .ok outcome ∧
      outcome.output = outputText ((u.drain.tokens.take k).map Token.listed) ∧
      outcome.errorOutput = eventTexts request.verbose events ∧
      eventTexts false events =
        printed (u.asked k).observer.kept.toList ++ tooMany (u.asked k).observer.count ++
          (if request.summary then
            toString k ++ " tokens, " ++ toString (u.asked k).observer.count ++ " diagnostics\n"
          else "") ∧
      1 ≤ k ∧ k ≤ u.drain.tokens.length ∧
      (100 ≤ (u.asked k).observer.count ∨ k = u.drain.tokens.length) ∧
      (u.asked (k - 1)).observer.count < 100 ∧
      ∀ text : List Char, (∀ c ∈ text, classOf c = .illegal) → held = Utf8.encoded text →
        (u.asked k).observer.count = text.length := by
  let options : Options := { file := Files.tidy request.path }
  have hready := ready_file options (Int.le_refl 1) (Files.Content.text held)
  have hmirrors := mirrors_opened options (Files.Content.text held) (Files.tidy request.path)
  obtain ⟨k, events, hstops, -, hwritten, hscanned⟩ := scanOpened_leaves request hmirrors hready
  have hrun := run_of_bytes hwish hextra hopens htidy
  rw [hscanned] at hrun
  refine ⟨_, k, _, events, openReader_reliable (Reader.reliable_ofFile _) options _, hrun, rfl, rfl,
    hwritten, hstops.pos, hstops.le, hstops.reached, ?_, fun text hillegal hheld => ?_⟩
  · by_cases hfirst : k = 1
    · subst hfirst
      show (0 : Nat) < 100
      decide
    · have hpos := hstops.pos
      exact hstops.before (k - 1) (by omega) (by omega)
  · subst hheld
    rw [content_illegal hillegal] at hready hstops ⊢
    obtain ⟨hone, hcount, -⟩ := asked_one_illegal hillegal hready rfl
    obtain rfl : k = 1 := Nat.le_antisymm (hone ▸ hstops.le) hstops.pos
    exact hcount

end Run

/-- There is one file, which its path names as given and as tidied. -/
def oneFile (path : String) (held : List UInt8) (asked : String) :
    Except Files.OpenError Files.Content :=
  if asked = path ∨ asked = Files.tidy path then .ok (.bytes held) else .error .notFound

theorem oneFile_given (path : String) (held : List UInt8) :
    oneFile path held path = .ok (.bytes held) := if_pos (.inl rfl)

theorem oneFile_tidy (path : String) (held : List UInt8) :
    oneFile path held (Files.tidy path) = oneFile path held path :=
  (if_pos (.inr rfl)).trans (oneFile_given path held).symm

theorem illegal_hashes (n : Nat) : ∀ c ∈ List.replicate n '#', classOf c = .illegal := by
  have hclass : classOf '#' = .illegal := by decide +kernel
  exact fun c hc => List.eq_of_mem_replicate hc ▸ hclass

/-- One illegal character more than the limit, with records. -/
theorem limit_between_tokens_one_more :
    let held := Utf8.encoded (List.replicate 101 '#')
    let arguments := ["-v", "--no-summary", "a.yasl"]
    let request : Request := ⟨false, true, "a.yasl", []⟩
    wishOf arguments = .ok (.scan request) ∧
      oneFile "a.yasl" held request.path = .ok (.bytes held) ∧
      oneFile "a.yasl" held (Files.tidy request.path) = oneFile "a.yasl" held request.path ∧
      ∃ (u : Scan Collector) (k : Nat) (outcome : Outcome) (events : Array Event),
        run (oneFile "a.yasl" held) arguments = .ok outcome ∧
        outcome.errorOutput = eventTexts true events ∧
        eventTexts false events = printed (u.asked k).observer.kept.toList ++
          "too many diagnostics (100), stopping\n" ∧
        (u.asked (k - 1)).observer.count < 100 ∧ (u.asked k).observer.count = 101 := by
  intro held arguments request
  have hwish : wishOf arguments = .ok (.scan request) := rfl
  have hopens := oneFile_given "a.yasl" held
  have htidy := oneFile_tidy "a.yasl" held
  obtain ⟨u, k, outcome, events, -, hrun, -, herror, hwritten, -, -, -, hbefore, hall⟩ :=
    limit_between_tokens hwish rfl hopens htidy
  have hcount := (hall _ (illegal_hashes 101) rfl).trans List.length_replicate
  rw [hcount] at hwritten
  exact ⟨hwish, hopens, htidy, u, k, outcome, events, hrun, herror,
    hwritten.trans String.append_empty, hbefore, hcount⟩

/-- So more diagnostics than the limit may be printed. -/
theorem limit_passed :
    let text := List.replicate 101 '#'
    let ds := reports (Files.tidy "a.yasl") text ⟨1, 1⟩
    ∃ outcome : Outcome,
      run (oneFile "a.yasl" (Utf8.encoded text)) ["--no-summary", "a.yasl"] = .ok outcome ∧
      outcome.errorOutput = printed ds ++ "too many diagnostics (100), stopping\n" ∧
      100 < ds.length := by
  intro text ds
  have hillegal := illegal_hashes 101
  have hwish : wishOf ["--no-summary", "a.yasl"] = .ok (.scan ⟨false, false, "a.yasl", []⟩) := rfl
  obtain ⟨outcome, events, hrun, herror, hwritten⟩ :=
    run_illegal hillegal hwish rfl (oneFile_given _ _) (oneFile_tidy _ _)
  have hlength : ds.length = 101 := (reports_illegal hillegal _ _).trans List.length_replicate
  exact ⟨outcome, hrun, (herror.trans hwritten).trans String.append_empty, by omega⟩

end Command

end YaslLexis
