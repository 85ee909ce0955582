import Mathlib.Data.List.Forall2
import SourceSpan.Batch
import SourceSpan.Proofs.Rule

/-!
# Batches on a pool of workers

A batch is given to a pool. The caller hands in the values one after the other, each with its place
in the batch. Workers take them from the queue in that order, and the values that are being measured
are finished in any order. Once everything is handed in, the caller collects the outcomes in the
order of the values. At the first fault it stops collecting and withdraws what is still in the
queue, value by value, while the workers go on. It returns when no worker is busy any more.

Steps of the caller and of the workers may follow each other in any order that the pool allows. What
comes out is always the same: what computing one value after the other gives. The invariant behind
this says where every value is at any time: the first ones are finished or being measured, the
others wait in their order, and what has been collected so far is what the first values give.
-/

namespace SourceSpan

/-- A batch while it is being worked on. A value is kept together with its place in the batch. -/
structure Pool where
  /-- What has not been handed in yet. -/
  waiting : List (Value × Nat)
  /-- What has been handed in and not been taken yet, first in first out. -/
  queue : List (Value × Nat)
  /-- What is being measured. -/
  running : List (Value × Nat)
  /-- What came out of the values that have been measured, by their places. -/
  finished : List (Nat × Except Fault Span)
  /-- The places whose outcomes the caller has not collected, in order. -/
  awaited : List Nat
  /-- The spans that the caller has collected. -/
  collected : List Span
  /-- What the caller is going to return. -/
  outcome : Option (Except Fault (List Span))

namespace Pool

/-- A batch before anything has been handed in. -/
def start (values : List Value) : Pool where
  waiting := values.zipIdx
  queue := []
  running := []
  finished := []
  awaited := []
  collected := []
  outcome := none

/-- What the caller or one of the workers can do next, if values are measured by `measure`. -/
inductive Step (measure : Value → Except Fault Span) (workers : Nat) : Pool → Pool → Prop
  | submit {s : Pool} {job : Value × Nat} {rest : List (Value × Nat)}
      (hwaiting : s.waiting = job :: rest) :
      Step measure workers s
        { s with waiting := rest, queue := s.queue ++ [job], awaited := s.awaited ++ [job.2] }
  | take {s : Pool} {job : Value × Nat} {rest : List (Value × Nat)} (hqueue : s.queue = job :: rest)
      (hidle : s.running.length < workers) :
      Step measure workers s { s with queue := rest, running := s.running ++ [job] }
  | finish {s : Pool} {job : Value × Nat} {front back : List (Value × Nat)}
      (hrunning : s.running = front ++ job :: back) :
      Step measure workers s
        { s with running := front ++ back, finished := (job.2, measure job.1) :: s.finished }
  | collect {s : Pool} {i : Nat} {rest : List Nat} {span : Span} (hwaiting : s.waiting = [])
      (hopen : s.outcome = none) (hawaited : s.awaited = i :: rest)
      (hfinished : (i, .ok span) ∈ s.finished) :
      Step measure workers s { s with awaited := rest, collected := s.collected ++ [span] }
  | fail {s : Pool} {i : Nat} {rest : List Nat} {fault : Fault} (hwaiting : s.waiting = [])
      (hopen : s.outcome = none) (hawaited : s.awaited = i :: rest)
      (hfinished : (i, .error fault) ∈ s.finished) :
      Step measure workers s { s with awaited := [], outcome := some (.error fault) }
  | withdraw {s : Pool} {fault : Fault} {job : Value × Nat} {front back : List (Value × Nat)}
      (houtcome : s.outcome = some (.error fault)) (hqueue : s.queue = front ++ job :: back) :
      Step measure workers s { s with queue := front ++ back }
  | complete {s : Pool} (hwaiting : s.waiting = []) (hopen : s.outcome = none)
      (hawaited : s.awaited = []) :
      Step measure workers s { s with outcome := some (.ok s.collected) }

/-- Where a batch may be after a number of steps. -/
inductive Reached (measure : Value → Except Fault Span) (workers : Nat) (values : List Value) :
    Nat → Pool → Prop
  | start : Reached measure workers values 0 (start values)
  | step {steps : Nat} {s t : Pool} (h : Reached measure workers values steps s)
      (hstep : Step measure workers s t) : Reached measure workers values (steps + 1) t

/-- The caller has returned: it has an outcome, and there is no work left. -/
def Returned (s : Pool) (outcome : Except Fault (List Span)) : Prop :=
  s.outcome = some outcome ∧ s.waiting = [] ∧ s.queue = [] ∧ s.running = []

/-- Whatever order the steps are made in, there are only so many of them. As long as the caller has
not returned a step is possible, and when it has returned this is the outcome. -/
def Yields (measure : Value → Except Fault Span) (workers : Nat) (values : List Value)
    (outcome : Except Fault (List Span)) : Prop :=
  ∀ steps s, Reached measure workers values steps s →
    steps ≤ 4 * values.length + 1 ∧
      ((∃ t, Step measure workers s t) ∨ ∃ returned, s.Returned returned) ∧
      ∀ returned, s.Returned returned → returned = outcome

variable {measure : Value → Except Fault Span} {workers : Nat} {values : List Value} {s t : Pool}

/-! ### One value after the other -/

theorem mapM_eq_ok_iff {spans : List Span} : values.mapM measure = .ok spans ↔
    List.Forall₂ (fun v span => measure v = .ok span) values spans := by
  induction values generalizing spans with
  | nil =>
      rw [List.mapM_nil, List.forall₂_nil_left_iff]
      exact ⟨fun h => (Except.ok.inj h).symm, fun h => h ▸ rfl⟩
  | cons v rest ih =>
      simp only [List.mapM_cons, bind_eq_ok_iff, List.forall₂_cons_left_iff, ih]
      constructor
      · rintro ⟨span, hspan, others, hothers, h⟩
        cases h
        exact ⟨span, others, hspan, hothers, rfl⟩
      · rintro ⟨span, others, hspan, hothers, rfl⟩
        exact ⟨span, hspan, others, hothers, rfl⟩

theorem mapM_take_succ {k : Nat} {spans : List Span} {v : Value} {span : Span}
    (hspans : (values.take k).mapM measure = .ok spans) (hv : values[k]? = some v)
    (hspan : measure v = .ok span) :
    (values.take (k + 1)).mapM measure = .ok (spans ++ [span]) := by
  rw [List.take_add_one, hv, List.mapM_append, hspans, Option.toList_some, List.mapM_cons, hspan]
  rfl

theorem mapM_of_take {k : Nat} {spans : List Span} {v : Value} {fault : Fault}
    (hspans : (values.take k).mapM measure = .ok spans) (hv : values[k]? = some v)
    (hfault : measure v = .error fault) : values.mapM measure = .error fault := by
  obtain ⟨hk, hv⟩ := List.getElem?_eq_some_iff.mp hv
  have hcut : values = values.take k ++ v :: values.drop (k + 1) := by
    rw [← hv, ← List.drop_eq_getElem_cons hk, List.take_append_drop]
  rw [hcut, List.mapM_append, hspans, List.mapM_cons, hfault]
  rfl

theorem mapM_cons_eq_error_iff {v : Value} {fault : Fault} :
    (v :: values).mapM measure = .error fault ↔
      measure v = .error fault ∨
        (∃ span, measure v = .ok span) ∧ values.mapM measure = .error fault := by
  rw [List.mapM_cons]
  cases measure v with
  | error fault' => simp [bind, Except.bind]
  | ok span =>
      cases values.mapM measure with
      | error fault' => simp [bind, Except.bind]
      | ok spans => simp [bind, Except.bind, pure, Except.pure]

/-- The fault that comes out is that of the faulty value of least place. -/
theorem mapM_eq_error_iff {fault : Fault} : values.mapM measure = .error fault ↔
    ∃ (i : Nat) (v : Value), values[i]? = some v ∧ measure v = .error fault ∧
      ∀ j < i, ∀ u, values[j]? = some u → ∃ span, measure u = .ok span := by
  induction values with
  | nil => simp [pure, Except.pure]
  | cons v rest ih =>
      rw [mapM_cons_eq_error_iff, ih]
      constructor
      · rintro (hfault | ⟨hspan, i, w, hw, hfault, hbefore⟩)
        · exact ⟨0, v, rfl, hfault, fun j hj => absurd hj (Nat.not_lt_zero j)⟩
        · refine ⟨i + 1, w, hw, hfault, fun j hj u hu => ?_⟩
          cases j with
          | zero =>
              cases hu
              exact hspan
          | succ j => exact hbefore j (Nat.lt_of_succ_lt_succ hj) u hu
      · rintro ⟨i, w, hw, hfault, hbefore⟩
        cases i with
        | zero =>
            cases hw
            exact .inl hfault
        | succ i =>
            refine .inr ⟨hbefore 0 (Nat.succ_pos i) v rfl, i, w, hw, hfault, fun j hj u hu => ?_⟩
            exact hbefore (j + 1) (Nat.succ_lt_succ hj) u hu

/-! ### What every step keeps -/

/-- Where the values of a batch are, and what has come out of them. As long as the caller has no
outcome, the first values are finished or being measured, each of them once, and the others are
still waiting in their order. -/
structure Fits (measure : Value → Except Fault Span) (values : List Value) (s : Pool) : Prop where
  jobs : ∀ job ∈ s.waiting ++ s.queue ++ s.running, values[job.2]? = some job.1
  finished : ∀ i outcome, (i, outcome) ∈ s.finished → ∃ v, values[i]? = some v ∧ outcome = measure v
  behind : s.outcome = none →
    s.queue ++ s.waiting = values.zipIdx.drop (s.finished.length + s.running.length)
  taken : s.outcome = none → (s.finished.map Prod.fst ++ s.running.map Prod.snd).Perm
    (List.range (s.finished.length + s.running.length))
  awaited : s.outcome = none →
    s.awaited ++ s.waiting.map Prod.snd = (List.range values.length).drop s.collected.length
  collected : (values.take s.collected.length).mapM measure = .ok s.collected
  outcome : ∀ outcome, s.outcome = some outcome → outcome = values.mapM measure

theorem fits_start (measure : Value → Except Fault Span) (values : List Value) :
    (start values).Fits measure values where
  jobs job hjob := by
    simp only [start, List.append_nil] at hjob
    exact List.mem_zipIdx_iff_getElem?.mp hjob
  finished _ _ h := nomatch h
  behind _ := rfl
  taken _ := List.Perm.refl []
  awaited _ := by simp [start, List.zipIdx_map_snd, List.range_eq_range']
  collected := rfl
  outcome _ h := nomatch h

theorem getElem?_of_drop_eq_cons {α : Type} {l rest : List α} {a : α} {k : Nat}
    (h : l.drop k = a :: rest) : l[k]? = some a ∧ rest = l.drop (k + 1) := by
  rw [← List.head?_drop, ← List.tail_drop, h]
  exact ⟨rfl, rfl⟩

/-- The next outcome to be collected is that of the first value of which none has been collected. -/
theorem Fits.eq_of_awaited (hs : s.Fits measure values) (hopen : s.outcome = none) {i : Nat}
    {rest : List Nat} (hawaited : s.awaited = i :: rest) :
    i = s.collected.length ∧ i < values.length ∧
      rest ++ s.waiting.map Prod.snd =
        (List.range values.length).drop (s.collected.length + 1) := by
  have hdrop := hs.awaited hopen
  rw [hawaited] at hdrop
  obtain ⟨hhead, htail⟩ := getElem?_of_drop_eq_cons hdrop.symm
  obtain ⟨hlt, hi⟩ := List.getElem?_eq_some_iff.mp hhead
  rw [List.getElem_range] at hi
  rw [List.length_range] at hlt
  exact ⟨hi.symm, hi ▸ hlt, htail⟩

/-- The next value to be taken is the first one that is neither finished nor being measured. -/
theorem Fits.eq_of_queue (hs : s.Fits measure values) (hopen : s.outcome = none)
    {job : Value × Nat} {rest : List (Value × Nat)} (hqueue : s.queue = job :: rest) :
    job.2 = s.finished.length + s.running.length ∧
      rest ++ s.waiting = values.zipIdx.drop (s.finished.length + s.running.length + 1) := by
  have hdrop := hs.behind hopen
  rw [hqueue] at hdrop
  obtain ⟨hhead, htail⟩ := getElem?_of_drop_eq_cons hdrop.symm
  rw [List.getElem?_zipIdx, Nat.zero_add] at hhead
  obtain ⟨v, -, rfl⟩ := Option.map_eq_some_iff.mp hhead
  exact ⟨rfl, htail⟩

/-- What is collected for the first value of which nothing has been collected. -/
theorem Fits.outcome_of_awaited (hs : s.Fits measure values) (hopen : s.outcome = none) {i : Nat}
    {rest : List Nat} {outcome : Except Fault Span} (hawaited : s.awaited = i :: rest)
    (hfinished : (i, outcome) ∈ s.finished) :
    ∃ v, values[s.collected.length]? = some v ∧ measure v = outcome := by
  obtain ⟨v, hv, houtcome⟩ := hs.finished i outcome hfinished
  rw [(hs.eq_of_awaited hopen hawaited).1] at hv
  exact ⟨v, hv, houtcome.symm⟩

/-- No step brings anything new into a batch. -/
theorem Step.jobs_subset (h : Step measure workers s t) :
    t.waiting ++ t.queue ++ t.running ⊆ s.waiting ++ s.queue ++ s.running := by
  intro job hjob
  cases h with
  | submit hwaiting =>
      rw [hwaiting]
      simp only [List.mem_append, List.mem_cons, List.not_mem_nil, or_false] at hjob ⊢
      tauto
  | take hqueue hidle =>
      rw [hqueue]
      simp only [List.mem_append, List.mem_cons, List.not_mem_nil, or_false] at hjob ⊢
      tauto
  | finish hrunning =>
      rw [hrunning]
      simp only [List.mem_append, List.mem_cons] at hjob ⊢
      tauto
  | withdraw houtcome hqueue =>
      rw [hqueue]
      simp only [List.mem_append, List.mem_cons] at hjob ⊢
      tauto
  | collect | fail | complete => exact hjob

theorem Step.fits (h : Step measure workers s t) (hs : s.Fits measure values) :
    t.Fits measure values := by
  have hjobs : ∀ job ∈ t.waiting ++ t.queue ++ t.running, values[job.2]? = some job.1 :=
    fun job hjob => hs.jobs job (h.jobs_subset hjob)
  cases h with
  | @submit job rest hwaiting =>
      refine { hs with jobs := hjobs, behind := ?_, awaited := ?_ }
      · intro hopen
        have hbehind := hs.behind hopen
        rw [hwaiting] at hbehind
        simpa only [List.append_assoc, List.singleton_append] using hbehind
      · intro hopen
        have hawaited := hs.awaited hopen
        rw [hwaiting, List.map_cons] at hawaited
        simpa only [List.append_assoc, List.singleton_append] using hawaited
  | @take job rest hqueue hidle =>
      refine { hs with jobs := hjobs, behind := ?_, taken := ?_ }
      · intro hopen
        rw [List.length_append, List.length_singleton, ← Nat.add_assoc]
        exact (hs.eq_of_queue hopen hqueue).2
      · intro hopen
        have hplace := (hs.eq_of_queue hopen hqueue).1
        rw [List.length_append, List.length_singleton, ← Nat.add_assoc, List.range_succ,
          List.map_append, ← List.append_assoc, List.map_singleton, hplace]
        exact (hs.taken hopen).append_right _
  | @finish job front back hrunning =>
      have hlength : (s.finished.length + 1) + (front ++ back).length =
          s.finished.length + s.running.length := by
        rw [hrunning, List.length_append, List.length_append, List.length_cons]
        omega
      refine { hs with jobs := hjobs, finished := ?_, behind := ?_, taken := ?_ }
      · intro i outcome hmem
        rcases List.mem_cons.mp hmem with heq | hmem
        · cases heq
          have hjob : job ∈ s.waiting ++ s.queue ++ s.running := by
            rw [hrunning]
            simp
          exact ⟨job.1, hs.jobs job hjob, rfl⟩
        · exact hs.finished i outcome hmem
      · intro hopen
        rw [List.length_cons, hlength]
        exact hs.behind hopen
      · intro hopen
        rw [List.length_cons, hlength]
        refine List.Perm.trans ?_ (hs.taken hopen)
        -- The finished job moves from its place among the running ones to the front.
        rw [hrunning, List.map_append, List.map_cons, List.map_append, List.map_cons,
          ← List.append_assoc, ← List.append_assoc, List.cons_append, List.cons_append]
        exact List.perm_middle.symm
  | @collect i rest span hwaiting hopen hawaited hfinished =>
      obtain ⟨v, hv, hspan⟩ := hs.outcome_of_awaited hopen hawaited hfinished
      refine { hs with awaited := ?_, collected := ?_ }
      · intro _
        rw [List.length_append, List.length_singleton]
        exact (hs.eq_of_awaited hopen hawaited).2.2
      · rw [List.length_append, List.length_singleton]
        exact mapM_take_succ hs.collected hv hspan
  | @fail i rest fault hwaiting hopen hawaited hfinished =>
      obtain ⟨v, hv, hfault⟩ := hs.outcome_of_awaited hopen hawaited hfinished
      refine { hs with behind := nofun, taken := nofun, awaited := nofun, outcome := ?_ }
      rintro outcome ⟨rfl⟩
      exact (mapM_of_take hs.collected hv hfault).symm
  | @withdraw fault job front back houtcome hqueue =>
      have hclosed : s.outcome ≠ none := by
        rw [houtcome]
        exact Option.some_ne_none _
      exact { hs with jobs := hjobs, behind := fun hopen => absurd hopen hclosed }
  | complete hwaiting hopen hawaited =>
      refine { hs with behind := nofun, taken := nofun, awaited := nofun, outcome := ?_ }
      rintro outcome ⟨rfl⟩
      have hall := hs.awaited hopen
      rw [hwaiting, hawaited] at hall
      have hlength : values.length ≤ s.collected.length := by
        have hnil := List.drop_eq_nil_iff.mp hall.symm
        rwa [List.length_range] at hnil
      rw [← hs.collected, List.take_of_length_le hlength]

theorem Reached.fits {steps : Nat} (h : Reached measure workers values steps s) :
    s.Fits measure values := by
  induction h with
  | start => exact fits_start measure values
  | step _ hstep ih => exact hstep.fits ih

/-! ### Runs come to an end -/

/-- How many steps are left at most. -/
def work (s : Pool) : Nat :=
  4 * s.waiting.length + 2 * s.queue.length + s.running.length + s.awaited.length +
    (if s.outcome.isNone then 1 else 0)

theorem Step.work_lt (h : Step measure workers s t) : t.work < s.work := by
  cases h with
  | submit hwaiting =>
      simp only [work, hwaiting, List.length_append, List.length_cons, List.length_nil]
      omega
  | take hqueue hidle =>
      simp only [work, hqueue, List.length_append, List.length_cons, List.length_nil]
      omega
  | finish hrunning =>
      simp only [work, hrunning, List.length_append, List.length_cons]
      omega
  | collect hwaiting hopen hawaited hfinished =>
      simp only [work, hawaited, List.length_cons]
      omega
  | fail hwaiting hopen hawaited hfinished =>
      simp only [work, hopen, hawaited, List.length_cons, List.length_nil, Option.isNone_none,
        Option.isNone_some, if_true, Bool.false_eq_true, if_false]
      omega
  | withdraw houtcome hqueue =>
      simp only [work, hqueue, List.length_append, List.length_cons]
      omega
  | complete hwaiting hopen hawaited =>
      simp only [work, hopen, Option.isNone_none, Option.isNone_some, if_true, Bool.false_eq_true,
        if_false]
      omega

theorem Reached.steps_le {steps : Nat} (h : Reached measure workers values steps s) :
    steps + s.work ≤ 4 * values.length + 1 := by
  induction h with
  | start => simp [work, Pool.start]
  | step _ hstep ih =>
      have hless := hstep.work_lt
      omega

/-- Once nothing is waiting and nobody is busy, every value is finished. -/
theorem Fits.exists_mem_finished (hs : s.Fits measure values) (hopen : s.outcome = none)
    (hwaiting : s.waiting = []) (hqueue : s.queue = []) (hrunning : s.running = []) {i : Nat}
    (hi : i < values.length) : ∃ outcome, (i, outcome) ∈ s.finished := by
  have hbehind := hs.behind hopen
  have htaken := hs.taken hopen
  rw [hwaiting, hqueue, hrunning] at hbehind
  rw [hrunning, List.map_nil, List.append_nil] at htaken
  have hlength : values.length ≤ s.finished.length := by
    have hnil := List.drop_eq_nil_iff.mp hbehind.symm
    rwa [List.length_zipIdx, List.length_nil, Nat.add_zero] at hnil
  have hmem : i ∈ s.finished.map Prod.fst := by
    apply htaken.mem_iff.mpr
    exact List.mem_range.mpr (Nat.lt_of_lt_of_le hi hlength)
  obtain ⟨⟨place, outcome⟩, hfinished, rfl⟩ := List.mem_map.mp hmem
  exact ⟨outcome, hfinished⟩

/-- As long as the caller has not returned, somebody can do something. -/
theorem Fits.exists_step (hs : s.Fits measure values) (hworkers : 0 < workers)
    (hopen : ∀ outcome, ¬s.Returned outcome) : ∃ t, Step measure workers s t := by
  cases hwaiting : s.waiting with
  | cons job rest => exact ⟨_, .submit hwaiting⟩
  | nil =>
      cases hrunning : s.running with
      | cons job rest =>
          have hfirst : s.running = [] ++ job :: rest := hrunning
          exact ⟨_, .finish hfirst⟩
      | nil =>
          cases hqueue : s.queue with
          | cons job rest =>
              have hidle : s.running.length < workers := by rwa [hrunning]
              exact ⟨_, .take hqueue hidle⟩
          | nil =>
              cases houtcome : s.outcome with
              | some outcome => exact absurd ⟨houtcome, hwaiting, hqueue, hrunning⟩ (hopen outcome)
              | none =>
                  cases hawaited : s.awaited with
                  | nil => exact ⟨_, .complete hwaiting houtcome hawaited⟩
                  | cons i rest =>
                      have hi := (hs.eq_of_awaited houtcome hawaited).2.1
                      obtain ⟨outcome, hfinished⟩ :=
                        hs.exists_mem_finished houtcome hwaiting hqueue hrunning hi
                      cases outcome with
                      | ok span => exact ⟨_, .collect hwaiting houtcome hawaited hfinished⟩
                      | error fault => exact ⟨_, .fail hwaiting houtcome hawaited hfinished⟩

theorem yields_mapM (hworkers : 0 < workers) :
    Yields measure workers values (values.mapM measure) := by
  intro steps s hreached
  have hfits := hreached.fits
  refine ⟨?_, ?_, ?_⟩
  · have hsteps := hreached.steps_le
    omega
  · by_cases hreturned : ∃ returned, s.Returned returned
    · exact .inr hreturned
    · exact .inl (hfits.exists_step hworkers (not_exists.mp hreturned))
  · intro returned hreturned
    exact hfits.outcome returned hreturned.1

end Pool

/-! ### Batches -/

/-- A batch is refused for its options before it is refused for want of workers. Otherwise it has
one outcome, however many workers there are and in whatever order they work: all spans, in the order
of the values, or the fault of the first value that has one. -/
theorem spansOf_any_schedule (settings : Settings) (given : GivenOptions) (workers : Option Int)
    (values : List Value) (machine : Machine) :
    (∀ rejection, given.resolve settings = .error rejection →
      spansOf settings given workers values machine = .error (.options rejection)) ∧
    ∀ options, given.resolve settings = .ok options →
      (workers.getD settings.maxWorkers ≤ 0 →
        spansOf settings given workers values machine = .error .noWorkers ∧
          BatchFault.noWorkers.report.typeName = "ValueError") ∧
      ∀ count : Nat, 0 < count → workers.getD settings.maxWorkers = count →
        ∃ outcome, Pool.Yields (options.spanOf · machine) count values outcome ∧
          spansOf settings given workers values machine = outcome.mapError .value ∧
          (∀ spans, outcome = .ok spans ↔
            List.Forall₂ (fun v span => options.spanOf v machine = .ok span) values spans) ∧
          ∀ fault, outcome = .error fault ↔
            ∃ (i : Nat) (v : Value), values[i]? = some v ∧ options.spanOf v machine = .error fault ∧
              ∀ j < i, ∀ u, values[j]? = some u → ∃ span, options.spanOf u machine = .ok span := by
  refine ⟨fun rejection hresolve => ?_, fun options hresolve => ⟨fun hnone => ?_, ?_⟩⟩
  · simp only [spansOf, hresolve]
  · simp only [spansOf, hresolve, if_pos hnone]
    exact ⟨trivial, rfl⟩
  · intro count hcount hworkers
    refine ⟨values.mapM (options.spanOf · machine), Pool.yields_mapM hcount, ?_,
      fun _ => Pool.mapM_eq_ok_iff, fun _ => Pool.mapM_eq_error_iff⟩
    simp only [spansOf, hresolve, hworkers]
    rw [if_neg (by omega)]

/-- A number that is not recorded as it is written, and an empty sequence. -/
def faultyValues : List Value :=
  [.node (.number { line := some 1, column := some 1 } (.whole 7)), .sequence []]

/-- Two workers measure the two values at the same time and the second one is finished first. Still
the fault of the first one comes out. -/
theorem spansOf_faultyValues :
    (∃ steps pool, Pool.Reached Options.default.spanOf 2 faultyValues steps pool ∧
      pool.finished = [(0, .error (.missing "number" .token)), (1, .error .emptySequence)] ∧
      pool.Returned (.error (.missing "number" .token))) ∧
    spansOf {} (.whole .default) (some 2) faultyValues =
      .error (.value (.missing "number" .token)) := by
  have hrun : ∃ steps pool, Pool.Reached Options.default.spanOf 2 faultyValues steps pool ∧
      pool.finished = [(0, .error (.missing "number" .token)), (1, .error .emptySequence)] ∧
      pool.Returned (.error (.missing "number" .token)) := by
    have hstart : Pool.Reached Options.default.spanOf 2 faultyValues 0 (.start faultyValues) :=
      .start
    have hsubmitted := (hstart.step (.submit rfl)).step (.submit rfl)
    have htaken := (hsubmitted.step (.take rfl (by decide))).step (.take rfl (by decide))
    have hsecond := htaken.step (.finish (show _ = [_] ++ _ :: [] from rfl))
    have hfirst := hsecond.step (.finish (show _ = [] ++ _ :: [] from rfl))
    have hfailed := hfirst.step (.fail rfl rfl rfl (List.mem_cons.mpr (.inl rfl)))
    exact ⟨_, _, hfailed, rfl, rfl, rfl, rfl, rfl⟩
  obtain ⟨steps, pool, hreached, hfinished, hreturned⟩ := hrun
  obtain ⟨outcome, hyields, hspans, -⟩ :=
    ((spansOf_any_schedule {} (.whole .default) (some 2) faultyValues .standard).2 .default rfl).2 2
      (by decide) rfl
  have houtcome := (hyields steps pool hreached).2.2 _ hreturned
  refine ⟨⟨steps, pool, hreached, hfinished, hreturned⟩, ?_⟩
  rw [hspans, ← houtcome]
  rfl

end SourceSpan
