import YaslLexis.Drive.Session
import YaslLexis.Proofs.Patience
import YaslLexis.Proofs.WholeScans

/-!
# Iterators that share one scan

Direct calls for tokens and any number of iterators over the same scan, in any order. The scan does
not know who asks: what it gives are the tokens of the text, one after the other, and then the end
token as often as it is asked for.

* `Request`, `shared` -- the steps of a schedule, and what carrying them out comes to;
* `delivered`, `deliveredBy` -- the tokens delivered, by all and by one iterator;
* `Owed` -- the invariant: what was given and what is to come are the tokens of the text with the
  end token repeated; `Owed.next` -- a call keeps it, `Owed.schedule` -- so does a schedule;
* `iterator_request` -- what a request does to one iterator; `iterator_shared` -- the end token is
  the last that it delivers;
* `Owed.schedule_patient` -- nothing but the end token finishes it, where no leaf refuses;
* **`iterators_share`** -- nothing is lost and nothing comes twice, whatever the schedule.
-/

namespace YaslLexis.Drive

open Machine Report

/-! ## 1. Schedules -/

/-- What is asked of a shared scan. -/
inductive Request where
  /-- The next token. -/
  | direct
  /-- A new iterator. -/
  | create
  /-- The next token of an iterator. -/
  | pull (index : Nat)
deriving DecidableEq

/-- The step of a request. -/
def Request.step : Request → Step
  | direct => .next
  | create => .iterate
  | pull index => .iteratorNext index

/-- Carries out a schedule. -/
def shared (s : Session) (requests : List Request) : Session × List Entry :=
  performAll (requests.map Request.step) s

/-- The token that a step delivered, if it did. -/
def Entry.token? : Entry → Option Token
  | plain (.ok (.token t)) _ => some t
  | _ => none

/-- The tokens delivered, whoever asked for them. -/
def delivered (entries : List Entry) : List Token := entries.filterMap Entry.token?

/-- The tokens that an iterator delivered. -/
def deliveredBy (index : Nat) (requests : List Request) (entries : List Entry) : List Token :=
  delivered (((requests.zip entries).filter fun p => p.1 = .pull index).map Prod.snd)

/-- The request asks the scan for a token: an iterator that is finished, or not made, does not. -/
def Request.asks (s : Session) : Request → Bool
  | direct => true
  | create => false
  | pull index => s.iterators[index]? = some false

/-- The iterator is finished by what came of its call. -/
def finishes : Except Failure Token → Bool
  | .ok t => t.kind = .eof
  | .error _ => true

theorem shared_cons (s : Session) (r : Request) (requests : List Request) :
    shared s (r :: requests) =
      ((shared (perform r.step s).1 requests).1,
        (perform r.step s).2 :: (shared (perform r.step s).1 requests).2) := by
  unfold shared
  rw [List.map_cons, performAll]

/-! ## 2. One request -/

theorem token?_plain (result : Except Failure Token) (trail : Trail) :
    (Entry.plain (result.map .token) trail).token? = result.toOption := by
  cases result <;> rfl

theorem iteratorNext_of_live {s : Session} {index : Nat} (h : s.iterators[index]? = some false) :
    s.iteratorNext index =
      ({ s with
          scan := s.scan.next.1
          iterators := s.iterators.setIfInBounds index (finishes s.scan.next.2) },
        s.scan.next.2.map .token) := by
  have hlive : s.iterators.getD index true = false := by
    rw [Array.getD_eq_getD_getElem?, h]
    rfl
  unfold Session.iteratorNext Session.next
  rw [hlive, if_neg Bool.false_ne_true]
  cases s.scan.next with
  | mk scan result => cases result <;> rfl

theorem iteratorNext_of_not_live {s : Session} {index : Nat}
    (h : s.iterators[index]? ≠ some false) : s.iteratorNext index = (s, .ok .finished) := by
  have hnot : s.iterators.getD index true = true := by
    rw [Array.getD_eq_getD_getElem?]
    cases hget : s.iterators[index]? with
    | none => rfl
    | some b =>
      cases b with
      | true => rfl
      | false => exact absurd hget h
  unfold Session.iteratorNext
  rw [hnot, if_pos rfl]

/-- A request that asks is a call for a token, and any other leaves the scan alone. -/
theorem perform_request (r : Request) (s : Session) :
    (r.asks s = true ∧
      (perform r.step s).1.scan = ({ s with scan := s.scan.next.1 } : Session).hush.scan ∧
      (perform r.step s).2.token? = s.scan.next.2.toOption) ∨
    (r.asks s = false ∧ (perform r.step s).1.scan = s.hush.scan ∧
      (perform r.step s).2.token? = none) := by
  cases r with
  | direct =>
    refine .inl ⟨rfl, ?_, ?_⟩
    · rw [Request.step, perform]
      rfl
    · rw [Request.step, perform]
      exact token?_plain _ _
  | create =>
    refine .inr ⟨rfl, ?_, ?_⟩ <;> rw [Request.step, perform] <;> rfl
  | pull index =>
    by_cases hlive : s.iterators[index]? = some false
    · refine .inl ⟨decide_eq_true hlive, ?_, ?_⟩
      · rw [Request.step, perform, iteratorNext_of_live hlive]
        rfl
      · rw [Request.step, perform, iteratorNext_of_live hlive]
        exact token?_plain _ _
    · refine .inr ⟨decide_eq_false hlive, ?_, ?_⟩ <;>
        rw [Request.step, perform, iteratorNext_of_not_live hlive] <;> rfl

/-- What a request does to the iterators. -/
theorem iterators_request (r : Request) (s : Session) :
    (perform r.step s).1.iterators =
      match r with
      | .direct => s.iterators
      | .create => s.iterators.push false
      | .pull index =>
        if s.iterators[index]? = some false then
          s.iterators.setIfInBounds index (finishes s.scan.next.2)
        else s.iterators := by
  cases r with
  | direct | create =>
    rw [Request.step, perform]
    rfl
  | pull index =>
    dsimp only
    by_cases hlive : s.iterators[index]? = some false
    · rw [if_pos hlive, Request.step, perform, iteratorNext_of_live hlive]
      rfl
    · rw [if_neg hlive, Request.step, perform, iteratorNext_of_not_live hlive]
      rfl

/-! ## 3. The stream -/

/-- The scan is at a text and a place. The tokens given and those of the text are together those of
    the whole stream: some tokens, and the end token once or more often. -/
structure Owed {σ : Type} (s : Scan σ) (tokens : List Token) (stop : Token) (given : List Token)
    (text : List Char) (place : Place) : Prop where
  at' : s.ahead.At text place
  stream : ∃ n, given.map .ok ++ outcomes text place =
    (tokens ++ List.replicate (n + 1) stop).map .ok

section Stream

variable {σ : Type} {s : Scan σ} {tokens given : List Token} {stop : Token}
  {text : List Char} {place : Place}

/-- Everything in a stream is a token. -/
theorem Owed.outcomes_ok (h : Owed s tokens stop given text place) :
    ∀ r ∈ outcomes text place, ∃ t, r = .ok t := by
  obtain ⟨n, hstream⟩ := h.stream
  intro r hmem
  have hall : r ∈ (tokens ++ List.replicate (n + 1) stop).map .ok := by
    rw [← hstream]
    exact List.mem_append_right _ hmem
  obtain ⟨t, -, ht⟩ := List.mem_map.1 hall
  exact ⟨t, ht.symm⟩

/-- At the end of the text the end token is due, once more than the stream has it. -/
theorem stream_at_end {n : Nat} {t : Token}
    (h : given.map Except.ok ++ [Except.ok t] =
      ((tokens ++ List.replicate (n + 1) stop).map .ok : List (Except Failure Token))) :
    (given ++ [t]).map Except.ok ++ [Except.ok t] =
      ((tokens ++ List.replicate (n + 1 + 1) stop).map .ok : List (Except Failure Token)) := by
  have hlast : t = stop := by
    rw [List.replicate_succ', ← List.append_assoc, List.map_append] at h
    exact Except.ok.inj (List.cons_eq_cons.1 (List.append_inj' h rfl).2).1
  rw [List.map_append, List.map_singleton, h, hlast, List.replicate_succ' (n := n + 1),
    ← List.append_assoc]
  show _ ++ List.map Except.ok [stop] = _
  rw [← List.map_append]

variable [Observer σ]

/-- **A call keeps the stream**: it gives the next token, or it fails and gives none. -/
theorem Owed.next (h : Owed s tokens stop given text place) :
    ∃ text' place',
      Owed s.next.1 tokens stop (given ++ s.next.2.toOption.toList) text' place' := by
  obtain ⟨n, hstream⟩ := h.stream
  obtain ⟨log, text', place', hpass, hend⟩ := next_spec h.at'
  refine ⟨text', place', hpass.at', ?_⟩
  cases hend with
  | lexeme l sort _ _ hout _ =>
    obtain ⟨t, ht⟩ := h.outcomes_ok s.next.2 (by rw [hout]; exact List.mem_cons_self)
    rw [hout, ht] at hstream
    refine ⟨n, ?_⟩
    rw [← hstream, ht, List.map_append, List.append_assoc]
    rfl
  | atEnd _ hresult hout hnil =>
    obtain ⟨t, ht⟩ := h.outcomes_ok s.next.2 (by rw [hout]; exact List.mem_cons_self)
    rw [hout, ht] at hstream
    refine ⟨n + 1, ?_⟩
    rw [hnil, outcomes_nil, ← hresult, ht]
    exact stream_at_end hstream
  | refused taken d f _ _ hresult hout _ =>
    refine ⟨n, ?_⟩
    rw [← hstream, ← hout, hresult]
    simp [Except.toOption]

end Stream

section Run

variable {s : Session} {tokens given : List Token} {stop : Token}

/-- A request keeps the stream. -/
theorem Owed.request {text : List Char} {place : Place}
    (h : Owed s.scan tokens stop given text place) (r : Request) :
    ∃ text' place', Owed (perform r.step s).1.scan tokens stop
      (given ++ (perform r.step s).2.token?.toList) text' place' := by
  rcases perform_request r s with ⟨-, hscan, htoken⟩ | ⟨-, hscan, htoken⟩
  · obtain ⟨text', place', hnext⟩ := h.next
    rw [hscan, htoken]
    exact ⟨text', place', hnext.at', hnext.stream⟩
  · rw [hscan, htoken]
    refine ⟨text, place, h.at', ?_⟩
    rw [Option.toList_none, List.append_nil]
    exact h.stream

/-- **A schedule keeps the stream.** -/
theorem Owed.schedule {text : List Char} {place : Place}
    (h : Owed s.scan tokens stop given text place) (requests : List Request) :
    ∃ text' place', Owed (shared s requests).1.scan tokens stop
      (given ++ delivered (shared s requests).2) text' place' := by
  induction requests generalizing s given text place with
  | nil =>
    refine ⟨text, place, h.at', ?_⟩
    rw [show delivered (shared s []).2 = [] from rfl, List.append_nil]
    exact h.stream
  | cons r requests ih =>
    obtain ⟨text₁, place₁, h₁⟩ := h.request r
    obtain ⟨text', place', h'⟩ := ih h₁
    have hdelivered : (perform r.step s).2.token?.toList ++
        delivered (shared (perform r.step s).1 requests).2 =
          delivered (shared s (r :: requests)).2 := by
      rw [shared_cons]
      unfold delivered
      rw [List.filterMap_cons]
      cases (perform r.step s).2.token? <;> rfl
    rw [List.append_assoc, hdelivered] at h'
    rw [shared_cons] at h' ⊢
    exact ⟨text', place', h'⟩

end Run

/-! ## 4. One iterator -/

theorem deliveredBy_cons (index : Nat) (r : Request) (requests : List Request) (e : Entry)
    (entries : List Entry) :
    deliveredBy index (r :: requests) (e :: entries) =
      deliveredBy index [r] [e] ++ deliveredBy index requests entries := by
  unfold deliveredBy delivered
  rw [List.zip_cons_cons, ← List.singleton_append, List.filter_append, List.map_append,
    List.filterMap_append]
  rfl

theorem deliveredBy_singleton (index : Nat) (r : Request) (e : Entry) :
    deliveredBy index [r] [e] = if r = .pull index then e.token?.toList else [] := by
  by_cases h : r = .pull index
  · cases htoken : e.token? <;> simp [deliveredBy, delivered, h, htoken]
  · simp [deliveredBy, delivered, h]

theorem deliveredBy_one (index : Nat) (r : Request) (e : Entry) :
    ∃ found : Option Token, deliveredBy index [r] [e] = found.toList := by
  rw [deliveredBy_singleton]
  split
  · exact ⟨_, rfl⟩
  · exact ⟨none, rfl⟩

theorem mem_dropLast_cons {t u : Token} {ts : List Token} (h : u ∈ (t :: ts).dropLast) :
    u = t ∨ u ∈ ts.dropLast := by
  cases ts with
  | nil => cases h
  | cons => exact List.mem_cons.1 h

section Iterator

variable {s : Session} {index : Nat}

/-- **What a request does to one iterator**: either the iterator is live and asked, delivers what
    the scan gives and is finished by that or not; or it delivers nothing and is left as it is,
    unless it is the one that is made. -/
theorem iterator_request (r : Request) (s : Session) (index : Nat) :
    (s.iterators[index]? = some false ∧
      deliveredBy index [r] [(perform r.step s).2] = s.scan.next.2.toOption.toList ∧
      (perform r.step s).1.iterators[index]? = some (finishes s.scan.next.2)) ∨
    (deliveredBy index [r] [(perform r.step s).2] = [] ∧
      ((perform r.step s).1.iterators[index]? = s.iterators[index]? ∨
        (s.iterators[index]? = none ∧
          (perform r.step s).1.iterators[index]? = some false))) := by
  rw [deliveredBy_singleton, iterators_request]
  cases r with
  | direct => exact .inr ⟨if_neg (by simp), .inl rfl⟩
  | create =>
    refine .inr ⟨if_neg (by simp), ?_⟩
    dsimp only
    rw [Array.getElem?_push]
    split
    · rename_i heq
      subst heq
      exact .inr ⟨Array.getElem?_size, rfl⟩
    · exact .inl rfl
  | pull other =>
    dsimp only
    by_cases hother : other = index
    · subst hother
      rw [if_pos rfl]
      rcases perform_request (.pull other) s with ⟨hasks, -, htoken⟩ | ⟨hasks, -, htoken⟩
      · have hlive : s.iterators[other]? = some false := of_decide_eq_true hasks
        have hsize : other < s.iterators.size := (Array.getElem?_eq_some_iff.1 hlive).1
        rw [htoken, if_pos hlive, Array.getElem?_setIfInBounds_self_of_lt hsize]
        exact .inl ⟨hlive, rfl, rfl⟩
      · have hnot : ¬ s.iterators[other]? = some false := of_decide_eq_false hasks
        rw [htoken, if_neg hnot]
        exact .inr ⟨rfl, .inl rfl⟩
    · refine .inr ⟨if_neg fun heq => hother (Request.pull.inj heq), .inl ?_⟩
      split
      · rw [Array.getElem?_setIfInBounds_ne hother]
      · rfl

/-- A finished iterator delivers nothing and stays finished. -/
theorem finished_request (h : s.iterators[index]? = some true) (r : Request) :
    deliveredBy index [r] [(perform r.step s).2] = [] ∧
      (perform r.step s).1.iterators[index]? = some true := by
  rcases iterator_request r s index with ⟨hlive, -⟩ | ⟨hnone, hsame | ⟨hmissing, -⟩⟩
  · rw [h] at hlive
    cases hlive
  · exact ⟨hnone, hsame.trans h⟩
  · rw [h] at hmissing
    cases hmissing

/-- The end token finishes the iterator that delivers it. -/
theorem finished_of_end {r : Request} {t : Token}
    (hmem : t ∈ deliveredBy index [r] [(perform r.step s).2]) (hend : t.kind = .eof) :
    (perform r.step s).1.iterators[index]? = some true := by
  rcases iterator_request r s index with ⟨-, hfound, hfinishes⟩ | ⟨hnone, -⟩
  · rw [hfound, Option.mem_toList] at hmem
    rw [hfinishes]
    cases hresult : s.scan.next.2 with
    | error => rfl
    | ok t' =>
      rw [hresult] at hmem
      obtain rfl : t' = t := Option.some.inj hmem
      exact congrArg some (decide_eq_true hend)
  · rw [hnone] at hmem
    cases hmem

/-- A finished iterator delivers nothing, whatever the schedule. -/
theorem finished_shared (h : s.iterators[index]? = some true) (requests : List Request) :
    deliveredBy index requests (shared s requests).2 = [] ∧
      (shared s requests).1.iterators[index]? = some true := by
  induction requests generalizing s with
  | nil => exact ⟨rfl, h⟩
  | cons r requests ih =>
    obtain ⟨hnone, hstays⟩ := finished_request h r
    rw [shared_cons, deliveredBy_cons, hnone]
    exact ih hstays

/-- **An iterator delivers the end token last**, and is finished then. -/
theorem iterator_shared (s : Session) (index : Nat) (requests : List Request) :
    (∀ t ∈ (deliveredBy index requests (shared s requests).2).dropLast, t.kind ≠ .eof) ∧
      ((∃ t ∈ deliveredBy index requests (shared s requests).2, t.kind = .eof) →
        (shared s requests).1.iterators[index]? = some true) := by
  induction requests generalizing s with
  | nil =>
    refine ⟨fun t hmem => ?_, fun hend => ?_⟩
    · cases hmem
    · obtain ⟨t, hmem, -⟩ := hend
      cases hmem
  | cons r requests ih =>
    obtain ⟨hbefore, hfinished⟩ := ih (perform r.step s).1
    obtain ⟨found, hfound⟩ := deliveredBy_one index r (perform r.step s).2
    rw [shared_cons, deliveredBy_cons, hfound]
    cases found with
    | none => exact ⟨hbefore, hfinished⟩
    | some t =>
      have hmem : t ∈ deliveredBy index [r] [(perform r.step s).2] := by
        rw [hfound]
        exact List.mem_singleton_self t
      by_cases hkind : t.kind = .eof
      · obtain ⟨hnone, hstays⟩ := finished_shared (finished_of_end hmem hkind) requests
        dsimp only
        rw [hnone]
        exact ⟨fun u hdrop => absurd hdrop List.not_mem_nil, fun _ => hstays⟩
      · refine ⟨fun u hdrop => ?_, fun ⟨u, hu, hend⟩ => ?_⟩
        · rcases mem_dropLast_cons hdrop with rfl | hdrop
          · exact hkind
          · exact hbefore u hdrop
        · rcases List.mem_cons.1 hu with rfl | hu
          · exact absurd hend hkind
          · exact hfinished ⟨u, hu, hend⟩

end Iterator

/-- As many iterators are there as were made. -/
theorem size_shared (s : Session) (requests : List Request) :
    (shared s requests).1.iterators.size = s.iterators.size + requests.count .create := by
  induction requests generalizing s with
  | nil => rfl
  | cons r requests ih =>
    rw [shared_cons, ih, iterators_request]
    cases r with
    | direct => simp
    | create =>
      rw [List.count_cons_self, Array.size_push]
      omega
    | pull index =>
      rw [List.count_cons_of_ne (by simp)]
      dsimp only
      split
      · rw [Array.size_setIfInBounds]
      · rfl

/-! ## 5. Leaves that refuse nothing -/

section Patient

variable {s : Session} {tokens given : List Token} {stop : Token} {text : List Char} {place : Place}
  (h : Owed s.scan tokens stop given text place) (hpatient : s.desk.Patient)
include h hpatient

/-- Every call gives a token, and the leaves stay such. -/
theorem Owed.next_patient :
    (∃ t, s.scan.next.2 = .ok t) ∧ s.scan.next.1.observer.desk.Patient := by
  have hready : Ready s.scan text place := ⟨willing_of_patient hpatient, h.at', h.outcomes_ok⟩
  obtain ⟨log, text', place', hpass, -⟩ := next_spec h.at'
  exact ⟨hready.next.1, (hpass.observed.patient hpatient).2⟩

/-- Every request that asks delivers a token, and the leaves stay such. -/
theorem Owed.request_patient (r : Request) :
    (r.asks s = true → ∃ t, (perform r.step s).2.token? = some t) ∧
      (perform r.step s).1.desk.Patient := by
  obtain ⟨⟨t, ht⟩, hlater⟩ := h.next_patient hpatient
  rcases perform_request r s with ⟨-, hscan, htoken⟩ | ⟨hasks, hscan, -⟩
  · refine ⟨fun _ => ⟨t, by rw [htoken, ht]; rfl⟩, ?_⟩
    show (perform r.step s).1.scan.observer.desk.Patient
    rw [hscan]
    exact hlater
  · refine ⟨fun hyes => ?_, ?_⟩
    · rw [hasks] at hyes
      cases hyes
    · show (perform r.step s).1.scan.observer.desk.Patient
      rw [hscan]
      exact hpatient

/-- Only the end token finishes an iterator. -/
theorem Owed.end_of_finished {r : Request} {index : Nat}
    (hfinished : (perform r.step s).1.iterators[index]? = some true) :
    s.iterators[index]? = some true ∨
      ∃ t ∈ deliveredBy index [r] [(perform r.step s).2], t.kind = .eof := by
  obtain ⟨⟨t, ht⟩, -⟩ := h.next_patient hpatient
  rcases iterator_request r s index with ⟨-, hfound, hfinishes⟩ | ⟨-, hsame | ⟨-, hlive⟩⟩
  · rw [hfinishes, ht] at hfinished
    rw [hfound, ht]
    exact .inr ⟨t, List.mem_singleton_self t, of_decide_eq_true (Option.some.inj hfinished)⟩
  · exact .inl (hsame.symm.trans hfinished)
  · rw [hlive] at hfinished
    cases hfinished

/-- The leaves stay such, and an iterator that was not finished before is finished only if it
    delivered the end token. -/
theorem Owed.schedule_patient (requests : List Request) :
    (shared s requests).1.desk.Patient ∧
      ∀ index, (shared s requests).1.iterators[index]? = some true →
        s.iterators[index]? = some true ∨
          ∃ t ∈ deliveredBy index requests (shared s requests).2, t.kind = .eof := by
  induction requests generalizing s given text place with
  | nil => exact ⟨hpatient, fun _ hfinished => .inl hfinished⟩
  | cons r requests ih =>
    obtain ⟨text', place', h'⟩ := h.request r
    obtain ⟨hlater, hends⟩ := ih h' (h.request_patient hpatient r).2
    rw [shared_cons]
    refine ⟨hlater, fun index hfinished => ?_⟩
    rw [deliveredBy_cons]
    rcases hends index hfinished with hfinished | ⟨t, hmem, hend⟩
    · refine (h.end_of_finished hpatient hfinished).imp_right fun ⟨t, hmem, hend⟩ => ?_
      exact ⟨t, List.mem_append_left _ hmem, hend⟩
    · exact .inr ⟨t, List.mem_append_right _ hmem, hend⟩

/-- Where no iterator was there before, each that was made since is live until it delivers the end
    token. -/
theorem Owed.live_of_made (hempty : s.iterators = #[]) {requests : List Request} {index : Nat}
    (hmade : index < requests.count .create)
    (hnone : ∀ t ∈ deliveredBy index requests (shared s requests).2, t.kind ≠ .eof) :
    (shared s requests).1.iterators[index]? = some false := by
  have hsize : index < (shared s requests).1.iterators.size := by
    rw [size_shared, hempty]
    simpa using hmade
  cases hget : (shared s requests).1.iterators[index]? with
  | none => exact absurd hsize (Nat.not_lt.2 (Array.getElem?_eq_none_iff.1 hget))
  | some finished =>
    cases finished with
    | false => rfl
    | true =>
      rcases (h.schedule_patient hpatient requests).2 index hget with hbefore | ⟨t, hmem, hend⟩
      · rw [hempty] at hbefore
        cases hbefore
      · exact absurd hend (hnone t hmem)

end Patient

/-! ## 6. Any schedule -/

theorem hush_request (r : Request) (s : Session) :
    (perform r.step s).1.hush = (perform r.step s).1 := by
  cases r <;> rw [Request.step, perform] <;> rfl

theorem hush_shared {s : Session} (h : s.hush = s) (requests : List Request) :
    (shared s requests).1.hush = (shared s requests).1 := by
  induction requests generalizing s with
  | nil => exact h
  | cons r requests ih =>
    rw [shared_cons]
    exact ih (hush_request r s)

/-- A finished iterator answers so, and nothing else happens. -/
theorem perform_finished {s : Session} {index : Nat} (hhush : s.hush = s)
    (h : s.iterators[index]? = some true) :
    perform (.iteratorNext index) s = (s, .plain (.ok .finished) ⟨[], s.view⟩) := by
  have hlive : s.iterators[index]? ≠ some false := by
    rw [h]
    simp
  have hevents : s.desk.events = #[] := by
    rw [← hhush]
    rfl
  rw [perform, iteratorNext_of_not_live hlive, Session.entry]
  dsimp only
  rw [hhush, Session.trail, hevents]

/-- The session that is opened over a text. -/
theorem start_ofText (tree : Files.Tree) (text : List Char) (options : Options)
    (plan : Option Plan) :
    ∃ s, start tree (.reader (.ofText text)) (some options) plan = .ok s ∧ s.iterators = #[] ∧
      s.scan.ahead.At text ⟨options.line, 1⟩ := by
  unfold start
  dsimp only [Option.getD_some]
  rw [openReader_ofText]
  exact ⟨_, rfl, rfl, at_openText options text _⟩

/-- **Direct calls and any number of iterators share one scan without loss or duplication.** For any
    text, any line and any sink, after any schedule:

    * the tokens delivered, whoever asked for them, are the first of the scan, followed by the end
      token as often as it was asked for;
    * an iterator delivers nothing after the end token; it answers that it is finished from then on,
      and the session is left as it is;
    * where no leaf of the sink refuses, a call delivers a token, and so does each iterator that was
      made and did not deliver the end token. -/
theorem iterators_share {options : Options} (hline : 1 ≤ options.line) (text : List Char)
    (tree : Files.Tree) (plan : Option Plan) :
    ∃ s tokens stop,
      start tree (.reader (.ofText text)) (some options) plan = .ok s ∧
      (collected options text).tokens = tokens ++ [stop] ∧ stop.kind = .eof ∧
      (∀ t ∈ tokens, t.kind ≠ .eof) ∧
      ∀ requests : List Request,
        (∃ n, delivered (shared s.hush requests).2 <+: tokens ++ List.replicate n stop) ∧
        (∀ index,
          (∀ t ∈ (deliveredBy index requests (shared s.hush requests).2).dropLast,
            t.kind ≠ .eof) ∧
          ((∃ t ∈ deliveredBy index requests (shared s.hush requests).2, t.kind = .eof) →
            perform (.iteratorNext index) (shared s.hush requests).1 =
              ((shared s.hush requests).1,
                .plain (.ok .finished) ⟨[], (shared s.hush requests).1.view⟩))) ∧
        (s.desk.Patient →
          (∃ t, (perform .next (shared s.hush requests).1).2.token? = some t) ∧
          ∀ index < requests.count .create,
            (∀ t ∈ deliveredBy index requests (shared s.hush requests).2, t.kind ≠ .eof) →
            ∃ t, (perform (.iteratorNext index) (shared s.hush requests).1).2.token? = some t) := by
  obtain ⟨s, hstart, hiterators, hat⟩ := start_ofText tree text options plan
  obtain ⟨tokens, stop, hsplit, hstop, hproper, -⟩ := collected_ends hline text
  obtain ⟨-, htokens, -⟩ := collected_spec hline text
  rw [hsplit] at htokens
  have howed : Owed s.hush.scan tokens stop [] text ⟨options.line, 1⟩ := ⟨hat, 0, htokens.symm⟩
  refine ⟨s, tokens, stop, hstart, hsplit, hstop, hproper, fun requests => ?_⟩
  obtain ⟨text', place', hlater⟩ := howed.schedule requests
  refine ⟨?_, fun index => ?_, fun hpatient => ?_⟩
  · obtain ⟨n, hstream⟩ := hlater.stream
    obtain ⟨before, after, hsplit', hbefore, -⟩ := List.map_eq_append_iff.1 hstream.symm
    refine ⟨n + 1, after, ?_⟩
    rw [hsplit', eq_of_map_ok_eq hbefore]
    rfl
  · obtain ⟨hbefore, hfinished⟩ := iterator_shared s.hush index requests
    exact ⟨hbefore, fun hend => perform_finished (hush_shared rfl requests) (hfinished hend)⟩
  · obtain ⟨hstays, -⟩ := howed.schedule_patient hpatient requests
    refine ⟨(hlater.request_patient hstays .direct).1 rfl, fun index hmade hnone => ?_⟩
    have hlive := howed.live_of_made hpatient hiterators hmade hnone
    exact (hlater.request_patient hstays (.pull index)).1 (decide_eq_true hlive)

/-- Of two iterators the first takes everything; the second still delivers the end token. -/
theorem iterators_share_two :
    (1 : Int) ≤ 3 ∧ ∃ (s : Session) (requests : List Request),
      start ⟨[], [], []⟩ (.reader (.ofText ['a'])) (some { line := 3 }) none = .ok s ∧
      s.desk.Patient ∧ 1 < requests.count .create ∧
      (∃ t ∈ deliveredBy 0 requests (shared s.hush requests).2, t.kind = .eof) ∧
      (∀ t ∈ deliveredBy 1 requests (shared s.hush requests).2, t.kind ≠ .eof) ∧
      perform (.iteratorNext 0) (shared s.hush requests).1 =
        ((shared s.hush requests).1,
          .plain (.ok .finished) ⟨[], (shared s.hush requests).1.view⟩) ∧
      ∃ t, (perform (.iteratorNext 1) (shared s.hush requests).1).2.token? = some t := by
  let requests : List Request := [.create, .create, .pull 0, .pull 0]
  have hline : (1 : Int) ≤ ({ line := 3 } : Options).line := by decide
  obtain ⟨s, tokens, stop, hstart, -, -, -, hshared⟩ :=
    iterators_share hline ['a'] ⟨[], [], []⟩ none
  obtain ⟨-, hiterators, hcalls⟩ := hshared requests
  have hkinds :
      ((start ⟨[], [], []⟩ (.reader (.ofText ['a'])) (some { line := 3 }) none).toOption.map
        fun s => ((deliveredBy 0 requests (shared s.hush requests).2).map Token.kind,
          (deliveredBy 1 requests (shared s.hush requests).2).map Token.kind)) =
        some ([.identifier, .eof], []) := by decide +kernel
  have hpatient : s.desk.Patient := by
    obtain rfl := Except.ok.inj hstart
    intro leaf hmem
    obtain rfl : leaf = .log diagnosticLog := Array.mem_singleton.1 hmem
    exact trivial
  rw [hstart] at hkinds
  obtain ⟨hfirst, hsecond⟩ := Prod.mk.inj (Option.some.inj hkinds)
  have hend : ∃ t ∈ deliveredBy 0 requests (shared s.hush requests).2, t.kind = .eof := by
    refine List.mem_map.1 ?_
    rw [hfirst]
    exact List.mem_cons_of_mem _ List.mem_cons_self
  have hnone : deliveredBy 1 requests (shared s.hush requests).2 = [] :=
    List.map_eq_nil_iff.1 hsecond
  have hnoend : ∀ t ∈ deliveredBy 1 requests (shared s.hush requests).2, t.kind ≠ .eof := by
    rw [hnone]
    exact fun t hmem => absurd hmem List.not_mem_nil
  exact ⟨by decide, s, requests, hstart, hpatient, by decide, hend, hnoend,
    (hiterators 0).2 hend, (hcalls hpatient).2 1 (by decide) hnoend⟩

end YaslLexis.Drive
