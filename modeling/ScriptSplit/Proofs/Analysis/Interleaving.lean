import Mathlib
import ScriptSplit.Proofs.Analysis.Pool

/-!
# The calls of a worker pool

Whatever the workers do and whenever the batch is cancelled, every path is skipped without a call, or its
job is called once and the progress is told once; the slot then holds the answer that the job gave in its
turn. No schedule gets stuck, and none goes on for ever.

* `Answered`, `Untouched`: the calls for one path; `turns`: the jobs in the order in which they ended.
* `Pool.Traced`: what every move keeps; `Pool.Traced.step`, `Pool.Traced.watch`.
* `Pool.left`: the moves that are left to the workers; `Pool.left_run`, `Pool.exists_work`.
* `exists_moves_runBatch`: the batch that is run is one of the schedules.
* **`traced?_accounted`**: the outcomes and the calls of all schedules.
-/

namespace ScriptSplit.Batch

variable {σ ε α : Type}

/-! ## Calls -/

/-- The place that a call is about. -/
def Event.lane : Event → Nat
  | called i _ => i
  | told i _ => i

/-- The path with which the job is called for a lane. -/
def Event.calledFor? (lane : Nat) : Event → Option String
  | called i path => if i = lane then some path else none
  | told _ _ => none

/-- The path with which the progress callback is called for a lane. -/
def Event.toldFor? (lane : Nat) : Event → Option String
  | called _ _ => none
  | told i path => if i = lane then some path else none

/-- The lane and the path of a job that has ended. -/
def Event.ended? : Event → Option (Nat × String)
  | called _ _ => none
  | told i path => some (i, path)

/-- The paths with which the job is called for a lane. -/
def jobCalls (lane : Nat) (events : List Event) : List String := events.filterMap (Event.calledFor? lane)

/-- The paths with which the progress callback is called for a lane. -/
def progressCalls (lane : Nat) (events : List Event) : List String := events.filterMap (Event.toldFor? lane)

/-- The jobs in the order in which they ended. -/
def turns (events : List Event) : List (Nat × String) := events.filterMap Event.ended?

/-- What jobs that run one after the other make of what they share. -/
def sharedAfter (job : Job σ ε α) (s : σ) (turns : List (Nat × String)) : σ :=
  turns.foldl (fun t turn => (job turn.2 t).2) s

/-- Neither the job nor the progress callback was called for the lane. -/
structure Untouched (events : List Event) (lane : Nat) : Prop where
  called : jobCalls lane events = []
  told : progressCalls lane events = []

/-- The job and the progress callback were called once for the lane, with its path, and the slot holds what
the job answered to what the jobs before it had left. -/
structure Answered (job : Job σ ε α) (s : σ) (events : List Event) (lane : Nat) (path : String)
    (slot : Slot ε α) : Prop where
  called : jobCalls lane events = [path]
  told : progressCalls lane events = [path]
  answer : ∃ before after, turns events = before ++ (lane, path) :: after ∧
    slot = .ofAnswer (job path (sharedAfter job s before)).1

section Calls

variable {job : Job σ ε α} {s : σ} {events : List Event} {lane : Nat} {path : String} {e : Event}

theorem jobCalls_append (events events' : List Event) :
    jobCalls lane (events ++ events') = jobCalls lane events ++ jobCalls lane events' :=
  List.filterMap_append

theorem progressCalls_append (events events' : List Event) :
    progressCalls lane (events ++ events') = progressCalls lane events ++ progressCalls lane events' :=
  List.filterMap_append

theorem turns_append (events events' : List Event) : turns (events ++ events') = turns events ++ turns events' :=
  List.filterMap_append

theorem jobCalls_called (lane : Nat) (path : String) : jobCalls lane [.called lane path] = [path] := by
  simp [jobCalls, Event.calledFor?]

theorem progressCalls_told (lane : Nat) (path : String) : progressCalls lane [.told lane path] = [path] := by
  simp [progressCalls, Event.toldFor?]

theorem untouched_of_lane_ne (h : e.lane ≠ lane) : Untouched [e] lane := by
  cases e with
  | called i path =>
    have hi : ¬ i = lane := h
    exact ⟨by simp [jobCalls, Event.calledFor?, hi], rfl⟩
  | told i path =>
    have hi : ¬ i = lane := h
    exact ⟨rfl, by simp [progressCalls, Event.toldFor?, hi]⟩

theorem Untouched.append (h : Untouched events lane) {events' : List Event} (h' : Untouched events' lane) :
    Untouched (events ++ events') lane := by
  constructor
  · rw [jobCalls_append, h.called, h'.called, List.append_nil]
  · rw [progressCalls_append, h.told, h'.told, List.append_nil]

theorem Answered.append {slot : Slot ε α} (h : Answered job s events lane path slot) {events' : List Event}
    (h' : Untouched events' lane) : Answered job s (events ++ events') lane path slot := by
  obtain ⟨before, after, hturns, hslot⟩ := h.answer
  refine ⟨?_, ?_, before, after ++ turns events', ?_, hslot⟩
  · rw [jobCalls_append, h.called, h'.called, List.append_nil]
  · rw [progressCalls_append, h.told, h'.told, List.append_nil]
  · rw [turns_append, hturns, List.append_assoc, List.cons_append]

end Calls

/-! ## What every move keeps -/

/-- The calls for a lane agree with how far its path has come. -/
def Phase.Agrees (job : Job σ ε α) (s : σ) (events : List Event) (cancelled : Bool) (lane : Nat) (path : String) :
    Phase ε α → Prop
  | waiting => Untouched events lane
  | held => Untouched events lane
  | running => jobCalls lane events = [path] ∧ progressCalls lane events = []
  | settled slot =>
    (slot = .skipped ∧ cancelled = true ∧ Untouched events lane) ∨ Answered job s events lane path slot

theorem Phase.Agrees.append {job : Job σ ε α} {s : σ} {events : List Event} {cancelled : Bool} {lane : Nat}
    {path : String} {phase : Phase ε α} (h : phase.Agrees job s events cancelled lane path)
    {events' : List Event} (h' : Untouched events' lane) :
    phase.Agrees job s (events ++ events') cancelled lane path := by
  cases phase with
  | waiting => exact Untouched.append h h'
  | held => exact Untouched.append h h'
  | running =>
    obtain ⟨hcalled, htold⟩ := h
    refine ⟨?_, ?_⟩
    · rw [jobCalls_append, hcalled, h'.called, List.append_nil]
    · rw [progressCalls_append, htold, h'.told, List.append_nil]
  | settled slot =>
    obtain ⟨hskip, hc, hnone⟩ | hanswer := h
    · exact .inl ⟨hskip, hc, hnone.append h'⟩
    · exact .inr (hanswer.append h')

theorem Phase.Agrees.cancel {job : Job σ ε α} {s : σ} {events : List Event} {cancelled : Bool} {lane : Nat}
    {path : String} {phase : Phase ε α} (h : phase.Agrees job s events cancelled lane path) :
    phase.Agrees job s events true lane path := by
  cases phase with
  | waiting => exact h
  | held => exact h
  | running => exact h
  | settled slot => exact h.imp_left fun ⟨hskip, _, hnone⟩ => ⟨hskip, rfl, hnone⟩

namespace Pool

variable {workers : Nat} {job : Job σ ε α} {paths : List String} {s : σ} {events events' : List Event}
  {p p' : Pool σ ε α}

/-- The lanes belong to the paths in order, the calls agree with their phases, and what the jobs share is
what the ended jobs made of it in their turns. -/
structure Traced (job : Job σ ε α) (paths : List String) (s : σ) (events : List Event) (p : Pool σ ε α) :
    Prop where
  paths : p.lanes.map (·.1) = paths
  shared : p.shared = sharedAfter job s (turns events)
  agrees : ∀ i path (phase : Phase ε α), p.lanes[i]? = some (path, phase) →
    phase.Agrees job s events p.cancelled i path
  beyond : ∀ i, p.lanes.length ≤ i → Untouched events i

theorem Traced.new : Traced job paths s [] (Pool.new paths s) where
  paths := by
    rw [Pool.new, List.map_map]
    exact List.map_id paths
  shared := rfl
  agrees := by
    intro i path phase hlane
    obtain ⟨path', -, hpair⟩ := List.mem_map.mp (List.mem_of_getElem? hlane)
    cases hpair
    exact ⟨rfl, rfl⟩
  beyond := fun i _ => ⟨rfl, rfl⟩

/-- A lane goes on to a phase that agrees with the calls made for it. -/
theorem Traced.put (h : Traced job paths s events p) {i : Nat} {path : String} {phase phase' : Phase ε α}
    (hlane : p.lanes[i]? = some (path, phase)) {s' : σ} (hs : s' = sharedAfter job s (turns (events ++ events')))
    (hothers : ∀ j, j ≠ i → Untouched events' j)
    (hphase : phase'.Agrees job s (events ++ events') p.cancelled i path) :
    Traced job paths s (events ++ events') { p.put i path phase' with shared := s' } where
  paths := by
    rw [← h.paths]
    exact map_fst_put hlane
  shared := hs
  agrees := by
    intro j path' phase'' hget
    change (p.lanes.set i (path, phase'))[j]? = _ at hget
    rw [List.getElem?_set] at hget
    split_ifs at hget with hij hlt
    · subst hij
      cases hget
      exact hphase
    · exact (h.agrees j path' phase'' hget).append (hothers j (Ne.symm hij))
  beyond := by
    intro j hj
    change (p.lanes.set i (path, phase')).length ≤ j at hj
    rw [List.length_set] at hj
    have hi : i < p.lanes.length := (List.getElem?_eq_some_iff.mp hlane).1
    exact (h.beyond j hj).append (hothers j (by omega))

/-- **One move** keeps the account of the calls. -/
theorem Traced.step (h : Traced job paths s events p) {m : Move} (hstep : p.step? workers job m = some p') :
    Traced job paths s (events ++ p.calls m) p' := by
  obtain ⟨rfl, rfl⟩ | ⟨rfl, hc, rfl⟩ | ⟨i, path, rfl, hlane, -, rfl⟩ | ⟨i, path, rfl, hlane, rfl⟩ |
    ⟨i, path, rfl, hlane, rfl⟩ := step?_cases hstep
  · change Traced job paths s (events ++ []) _
    rw [List.append_nil]
    exact ⟨h.paths, h.shared, fun i path phase hget => (h.agrees i path phase hget).cancel, h.beyond⟩
  · change Traced job paths s (events ++ []) _
    rw [List.append_nil]
    refine ⟨?_, h.shared, fun i path phase hget => ?_, fun i hi => h.beyond i (by simpa using hi)⟩
    · rw [← h.paths, List.map_map]
      rfl
    · rw [List.getElem?_map, Option.map_eq_some_iff] at hget
      obtain ⟨⟨path', phase'⟩, hget, hpair⟩ := hget
      have hold := h.agrees i path' phase' hget
      cases hpair
      cases phase' with
      | waiting => exact .inl ⟨rfl, hc, hold⟩
      | held => exact hold
      | running => exact hold
      | settled slot => exact hold
  · have hnone : Untouched events i := h.agrees i path .waiting hlane
    exact h.put hlane (by simpa [calls] using h.shared) (fun j _ => ⟨rfl, rfl⟩) (hnone.append ⟨rfl, rfl⟩)
  · -- the worker asks: the job is called exactly when the batch is not cancelled
    have hnone : Untouched events i := h.agrees i path .held hlane
    cases hc : p.cancelled with
    | true =>
      have hcalls : p.calls (.enter i) = [] := by simp [calls, hlane, hc]
      rw [hcalls]
      exact h.put hlane (by simpa using h.shared) (fun j _ => ⟨rfl, rfl⟩) (.inl ⟨rfl, hc, hnone.append ⟨rfl, rfl⟩⟩)
    | false =>
      have hcalls : p.calls (.enter i) = [.called i path] := by simp [calls, hlane, hc]
      rw [hcalls]
      refine h.put hlane ?_ (fun j hj => untouched_of_lane_ne (Ne.symm hj)) ⟨?_, ?_⟩
      · rw [turns_append]
        exact h.shared.trans (congrArg (sharedAfter job s) (List.append_nil _).symm)
      · rw [jobCalls_append, hnone.called, jobCalls_called, List.nil_append]
      · rw [progressCalls_append, hnone.told]
        rfl
  · -- the job ends: its answer is the one to what the turns before it left
    obtain ⟨hcalled, htold⟩ := h.agrees i path .running hlane
    have hcalls : p.calls (.finish i) = [.told i path] := by simp [calls, hlane]
    have hturns : turns (events ++ [.told i path]) = turns events ++ [(i, path)] := turns_append _ _
    rw [hcalls]
    refine h.put hlane ?_ (fun j hj => untouched_of_lane_ne (Ne.symm hj)) (.inr ⟨?_, ?_, ?_⟩)
    · rw [hturns, sharedAfter, List.foldl_append, h.shared]
      rfl
    · rw [jobCalls_append, hcalled]
      rfl
    · rw [progressCalls_append, htold, progressCalls_told, List.nil_append]
    · exact ⟨turns events, [], hturns, by rw [h.shared]⟩

theorem watch?_cons {m : Move} {moves : List Move} {r : List Event × Pool σ ε α} :
    p.watch? workers job (m :: moves) events = some r ↔
      ∃ q, p.step? workers job m = some q ∧ q.watch? workers job moves (events ++ p.calls m) = some r :=
  Option.bind_eq_some_iff

/-- **A list of moves** keeps the account of the calls. -/
theorem Traced.watch {moves : List Move} (h : Traced job paths s events p)
    (hwatch : p.watch? workers job moves events = some (events', p')) : Traced job paths s events' p' := by
  induction moves generalizing events p with
  | nil =>
    cases hwatch
    exact h
  | cons m moves ih =>
    obtain ⟨q, hstep, hrest⟩ := watch?_cons.mp hwatch
    exact ih (h.step hstep) hrest

/-- To watch a run does not change it. -/
theorem map_snd_watch? (moves : List Move) (events : List Event) (p : Pool σ ε α) :
    (p.watch? workers job moves events).map Prod.snd = p.run? workers job moves := by
  induction moves generalizing events p with
  | nil => rfl
  | cons m moves ih =>
    rw [watch?, run?, List.foldlM_cons]
    cases p.step? workers job m with
    | none => rfl
    | some q => exact ih (events ++ p.calls m) q

end Pool

theorem traced?_eq_some_iff {workers : Nat} {job : Job σ ε α} {moves : List Move} {paths : List String}
    {s s' : σ} {events : List Event} {outcomes : List (Outcome ε α)} :
    traced? workers job moves paths s = some (events, outcomes, s') ↔
      ∃ p, (Pool.new paths s).watch? workers job moves [] = some (events, p) ∧
        p.lanes = outcomes.map laneOf ∧ p.shared = s' := by
  refine Option.bind_eq_some_iff.trans ⟨?_, ?_⟩
  · rintro ⟨⟨events', p⟩, hwatch, h⟩
    obtain ⟨os, hos, h⟩ := Option.bind_eq_some_iff.mp h
    cases h
    exact ⟨p, hwatch, Pool.outcomes?_eq_some_iff.mp hos, rfl⟩
  · rintro ⟨p, hwatch, hlanes, rfl⟩
    exact ⟨_, hwatch, Option.bind_eq_some_iff.mpr ⟨outcomes, Pool.outcomes?_eq_some_iff.mpr hlanes, rfl⟩⟩

/-- **The outcomes of a schedule are those of its trace.** -/
theorem schedule?_iff_traced? {workers : Nat} {job : Job σ ε α} {moves : List Move} {paths : List String}
    {s s' : σ} {outcomes : List (Outcome ε α)} :
    schedule? workers job moves paths s = some (outcomes, s') ↔
      ∃ events, traced? workers job moves paths s = some (events, outcomes, s') := by
  rw [schedule?_eq_some_iff]
  constructor
  · rintro ⟨p, hrun, hlanes, hshared⟩
    rw [← Pool.map_snd_watch? moves [], Option.map_eq_some_iff] at hrun
    obtain ⟨⟨events, q⟩, hwatch, rfl⟩ := hrun
    exact ⟨events, traced?_eq_some_iff.mpr ⟨q, hwatch, hlanes, hshared⟩⟩
  · rintro ⟨events, h⟩
    obtain ⟨p, hwatch, hlanes, hshared⟩ := traced?_eq_some_iff.mp h
    refine ⟨p, ?_, hlanes, hshared⟩
    rw [← Pool.map_snd_watch? moves [], hwatch]
    rfl

/-! ## Every schedule comes to an end -/

/-- The moves that a path still needs. -/
def Phase.left : Phase ε α → Nat
  | waiting => 3
  | held => 2
  | running => 1
  | settled _ => 0

/-- A move by which a path goes on. -/
def Move.isWork : Move → Bool
  | submit _ => true
  | enter _ => true
  | finish _ => true
  | giveUp => false
  | cancel => false

namespace Pool

variable {workers : Nat} {job : Job σ ε α} {p p' : Pool σ ε α}

/-- The moves that all paths still need. -/
def left (p : Pool σ ε α) : Nat := (p.lanes.map (·.2.left)).sum

theorem left_new (paths : List String) (s : σ) : (Pool.new paths s : Pool σ ε α).left = 3 * paths.length := by
  rw [left, Pool.new, List.map_map]
  change (paths.map fun _ => 3).sum = _
  rw [List.map_const', List.sum_replicate, smul_eq_mul, mul_comm]

theorem left_put {i : Nat} {path : String} {phase : Phase ε α} (phase' : Phase ε α)
    (hlane : p.lanes[i]? = some (path, phase)) :
    (p.put i path phase').left + phase.left = p.left + phase'.left := by
  obtain ⟨hi, hget⟩ := List.getElem?_eq_some_iff.mp hlane
  have hold : p.lanes = p.lanes.take i ++ (path, phase) :: p.lanes.drop (i + 1) := by
    rw [← hget, List.getElem_cons_drop, List.take_append_drop]
  have hnew : (p.put i path phase').lanes = p.lanes.take i ++ (path, phase') :: p.lanes.drop (i + 1) :=
    List.set_eq_take_append_cons_drop.trans (if_pos hi)
  rw [left, left, hnew]
  conv_rhs => rw [hold]
  simp only [List.map_append, List.map_cons, List.sum_append, List.sum_cons]
  omega

/-- Each move of a worker takes one from what is left, and no other move adds to it. -/
theorem left_step {m : Move} (h : p.step? workers job m = some p') :
    p'.left + (if m.isWork then 1 else 0) ≤ p.left := by
  obtain ⟨rfl, rfl⟩ | ⟨rfl, -, rfl⟩ | ⟨i, path, rfl, hlane, -, rfl⟩ | ⟨i, path, rfl, hlane, rfl⟩ |
    ⟨i, path, rfl, hlane, rfl⟩ := step?_cases h
  · exact le_refl p.left
  · change ((p.lanes.map fun l => (l.1, l.2.giveUp)).map (·.2.left)).sum ≤ p.left
    rw [List.map_map]
    refine List.sum_le_sum fun l _ => ?_
    change l.2.giveUp.left ≤ l.2.left
    cases l.2 <;> simp [Phase.giveUp, Phase.left]
  · have hput := left_put .held hlane
    change (p.put i path .held).left + 1 ≤ p.left
    simp only [Phase.left] at hput
    omega
  · have hput := left_put (if p.cancelled then .settled .skipped else .running) hlane
    change (p.put i path _).left + 1 ≤ p.left
    split_ifs at hput ⊢ <;> simp only [Phase.left] at hput <;> omega
  · have hput := left_put (.settled (.ofAnswer (job path p.shared).1)) hlane
    change (p.put i path _).left + 1 ≤ p.left
    simp only [Phase.left] at hput
    omega

/-- **The workers make only as many moves as are left to them.** -/
theorem left_run {moves : List Move} (h : p.run? workers job moves = some p') :
    p'.left + moves.countP (·.isWork) ≤ p.left := by
  induction moves generalizing p with
  | nil =>
    cases h
    exact le_refl p'.left
  | cons m moves ih =>
    obtain ⟨q, hstep, hrun⟩ := run?_cons.mp h
    have hfirst := left_step hstep
    have hrest := ih hrun
    rw [List.countP_cons]
    omega

/-- **No pool is stuck**: while a path is not settled, a worker can make a move. -/
theorem exists_work (hw : 0 < workers) (job : Job σ ε α) (h : p.left ≠ 0) :
    ∃ m p', m.isWork = true ∧ p.step? workers job m = some p' := by
  by_cases hheld : ∃ (i : Nat) (path : String), p.lanes[i]? = some (path, .held)
  · obtain ⟨i, path, hlane⟩ := hheld
    refine ⟨.enter i, p.put i path (if p.cancelled then .settled .skipped else .running), rfl, ?_⟩
    simp only [step?, hlane]
  by_cases hrunning : ∃ (i : Nat) (path : String), p.lanes[i]? = some (path, .running)
  · obtain ⟨i, path, hlane⟩ := hrunning
    refine ⟨.finish i, { p.put i path (.settled (.ofAnswer (job path p.shared).1)) with
      shared := (job path p.shared).2 }, rfl, ?_⟩
    simp only [step?, hlane]
  -- all workers are free, so the first path that waits can be handed out
  have hbusy : p.busy = 0 := by
    rw [busy, List.countP_eq_zero]
    intro l hl hbusy
    obtain ⟨i, hi⟩ := List.mem_iff_getElem?.mp hl
    obtain ⟨path, phase⟩ := l
    cases phase with
    | waiting => cases hbusy
    | held => exact hheld ⟨i, path, hi⟩
    | running => exact hrunning ⟨i, path, hi⟩
    | settled slot => cases hbusy
  have hwaiting : ∃ i : Nat, ∃ path : String, p.lanes[i]? = some (path, .waiting) := by
    by_contra hnone
    refine h (List.sum_eq_zero fun n hn => ?_)
    obtain ⟨⟨path, phase⟩, hl, rfl⟩ := List.mem_map.mp hn
    obtain ⟨i, hi⟩ := List.mem_iff_getElem?.mp hl
    cases phase with
    | waiting => exact absurd ⟨i, path, hi⟩ hnone
    | held => exact absurd ⟨i, path, hi⟩ hheld
    | running => exact absurd ⟨i, path, hi⟩ hrunning
    | settled slot => rfl
  classical
  obtain ⟨path, hlane⟩ := Nat.find_spec hwaiting
  have hfirst : (p.lanes.take (Nat.find hwaiting)).all (!·.2.isWaiting) = true := by
    rw [List.all_eq_true]
    rintro ⟨path', phase⟩ hl
    obtain ⟨j, hj⟩ := List.mem_iff_getElem?.mp hl
    rw [List.getElem?_take] at hj
    split_ifs at hj with hlt
    cases phase with
    | waiting => exact absurd ⟨path', hj⟩ (Nat.find_min hwaiting hlt)
    | held => rfl
    | running => rfl
    | settled slot => rfl
  refine ⟨.submit (Nat.find hwaiting), p.put (Nat.find hwaiting) path .held, rfl, ?_⟩
  simp only [step?, hlane, hbusy, hfirst, hw, decide_true, Bool.and_self, if_true]

theorem run?_append (moves moves' : List Move) (p : Pool σ ε α) :
    p.run? workers job (moves ++ moves') = (p.run? workers job moves).bind (run? workers job moves') :=
  List.foldlM_append

/-- **Every pool can be brought to its end** by moves of the workers alone. -/
theorem exists_completion (hw : 0 < workers) (job : Job σ ε α) (p : Pool σ ε α) :
    ∃ moves q, (∀ m ∈ moves, m.isWork = true) ∧ p.run? workers job moves = some q ∧ q.left = 0 := by
  -- by induction on what is left: each move of a worker makes it less
  induction hn : p.left using Nat.strong_induction_on generalizing p with
  | _ n ih =>
    by_cases h : p.left = 0
    · exact ⟨[], p, fun m hm => absurd hm List.not_mem_nil, rfl, h⟩
    · obtain ⟨m, p₁, hm, hstep⟩ := exists_work hw job h
      have hless := left_step hstep
      rw [if_pos hm] at hless
      obtain ⟨moves, q, hwork, hrun, hleft⟩ := ih p₁.left (by omega) p₁ rfl
      refine ⟨m :: moves, q, fun m' hm' => ?_, run?_cons.mpr ⟨p₁, hstep, hrun⟩, hleft⟩
      obtain rfl | hm' := List.mem_cons.mp hm'
      · exact hm
      · exact hwork m' hm'

/-- A pool in which nothing is left to do has the outcomes of all paths. -/
theorem exists_outcomes (h : p.left = 0) : ∃ outcomes : List (Outcome ε α), p.lanes = outcomes.map laneOf := by
  have hsettled : p.lanes ∈ Set.range (List.map (laneOf (ε := ε) (α := α))) := by
    rw [Set.range_list_map]
    rintro ⟨path, phase⟩ hl
    have hzero : phase.left = 0 := List.sum_eq_zero_iff.mp h _ (List.mem_map_of_mem hl)
    cases phase with
    | settled slot => exact ⟨⟨path, slot⟩, rfl⟩
    | waiting => cases hzero
    | held => cases hzero
    | running => cases hzero
  obtain ⟨outcomes, houtcomes⟩ := hsettled
  exact ⟨outcomes, houtcomes.symm⟩

end Pool

/-! ## The batch that is run -/

theorem runBatch_of_cancelled {cancelled : σ → Bool} {s : σ} (h : cancelled s = true) (job : Job σ ε α)
    (paths : List String) : runBatch cancelled job paths s = (paths.map fun path => ⟨path, .skipped⟩, s) := by
  induction paths with
  | nil => rfl
  | cons path rest ih => simp [runBatch, h, ih]

theorem run?_give_up {workers : Nat} (job : Job σ ε α) (done : List (Outcome ε α)) (rest : List String) (s : σ) :
    (midway done rest s).run? workers job [.cancel, .giveUp] =
      some ⟨(done ++ rest.map fun path => Outcome.mk path .skipped).map laneOf, true, s⟩ := by
  have hdone : (done.map laneOf).map (fun l => (l.1, l.2.giveUp)) = done.map laneOf := by
    rw [List.map_map]
    rfl
  have hlanes : (midway done rest s).lanes.map (fun l => (l.1, l.2.giveUp)) =
      (done ++ rest.map fun path => Outcome.mk path .skipped).map laneOf := by
    rw [midway, List.map_append, hdone, List.map_append, List.map_map, List.map_map]
    rfl
  rw [← hlanes]
  rfl

/-- **The batch that is run** is what one worker makes of it, up to where it finds the batch cancelled. -/
theorem exists_moves_runBatch {workers : Nat} (hw : 0 < workers) (cancelled : σ → Bool) (job : Job σ ε α)
    (paths : List String) (done : List (Outcome ε α)) (s : σ) :
    ∃ moves c, (midway done paths s).run? workers job moves =
      some ⟨(done ++ (runBatch cancelled job paths s).1).map laneOf, c, (runBatch cancelled job paths s).2⟩ := by
  induction paths generalizing done s with
  | nil => exact ⟨[], false, by simp [Pool.run?, runBatch, midway]⟩
  | cons path rest ih =>
    by_cases hc : cancelled s = true
    · rw [runBatch_of_cancelled hc]
      exact ⟨_, true, run?_give_up job done (path :: rest) s⟩
    · obtain ⟨moves, c, hrest⟩ := ih (done ++ [⟨path, .ofAnswer (job path s).1⟩]) (job path s).2
      refine ⟨[.submit done.length, .enter done.length, .finish done.length] ++ moves, c, ?_⟩
      rw [Pool.run?_append, run?_one hw]
      refine hrest.trans ?_
      simp [runBatch, hc]

theorem workerCount_pos (bound : Int) {cpus : Nat} (h : 0 < cpus) : 0 < workerCount bound cpus := by
  unfold workerCount
  split_ifs <;> omega

/-! ## All schedules -/

/-- The account of a batch: its outcomes stand in the order of the paths, each in one of three states that
the calls bear out, and what the jobs share is what they made of it one after the other. -/
structure Observed (job : Job σ ε α) (paths : List String) (s : σ) (moves : List Move) (events : List Event)
    (outcomes : List (Outcome ε α)) (s' : σ) : Prop where
  aligned : outcomes.map (·.path) = paths
  slots : ∀ i o, outcomes[i]? = some o →
    (o.slot = .skipped ∧ .cancel ∈ moves ∧ jobCalls i events = [] ∧ progressCalls i events = []) ∨
    (jobCalls i events = [o.path] ∧ progressCalls i events = [o.path] ∧
      ∃ before after, turns events = before ++ (i, o.path) :: after ∧
        ((∃ error, (job o.path (sharedAfter job s before)).1 = .error error ∧ o.slot = .failed error) ∨
          ∃ value, (job o.path (sharedAfter job s before)).1 = .ok value ∧ o.slot = .done value))
  beyond : ∀ i, paths.length ≤ i → jobCalls i events = [] ∧ progressCalls i events = []
  shared : s' = sharedAfter job s (turns events)

theorem observed_of_traced? {workers : Nat} {job : Job σ ε α} {paths : List String} {s s' : σ}
    {moves : List Move} {events : List Event} {outcomes : List (Outcome ε α)}
    (h : traced? workers job moves paths s = some (events, outcomes, s')) :
    Observed job paths s moves events outcomes s' := by
  obtain ⟨p, hwatch, hlanes, rfl⟩ := traced?_eq_some_iff.mp h
  have hp : p.Traced job paths s events := Pool.Traced.new.watch hwatch
  have hpaths : outcomes.map (·.path) = paths := by
    rw [← hp.paths, hlanes, List.map_map]
    rfl
  have hlength : p.lanes.length = paths.length := by rw [← hp.paths, List.length_map]
  refine ⟨hpaths, fun i o ho => ?_, fun i hi => ?_, hp.shared⟩
  · have hlane : p.lanes[i]? = some (o.path, .settled o.slot) := by
      rw [hlanes, List.getElem?_map, ho]
      rfl
    obtain ⟨hskip, hc, hnone⟩ | hanswer := hp.agrees i o.path _ hlane
    · refine .inl ⟨hskip, ?_, hnone.called, hnone.told⟩
      have hrun : (Pool.new paths s).run? workers job moves = some p := by
        rw [← Pool.map_snd_watch? moves [], hwatch]
        rfl
      obtain hnew | hcancel := Pool.cancelled_of_run hrun hc
      · cases hnew
      · exact hcancel
    · obtain ⟨before, after, hturns, hslot⟩ := hanswer.answer
      refine .inr ⟨hanswer.called, hanswer.told, before, after, hturns, ?_⟩
      cases hjob : (job o.path (sharedAfter job s before)).1 with
      | error error => exact .inl ⟨error, rfl, by rw [hslot, hjob]; rfl⟩
      | ok value => exact .inr ⟨value, rfl, by rw [hslot, hjob]; rfl⟩
  · obtain ⟨hcalled, htold⟩ := hp.beyond i (by omega)
    exact ⟨hcalled, htold⟩

/-- **All schedules of a batch**, for every bound on the workers, every job, all turns of the workers and
every moment of a cancellation: the workers make at most three moves a path and can always go on to the
end; at the end each path was skipped without a call, or its job was called once and answered, and the
progress was told once; without a cancellation the outcomes of jobs whose answers depend on the path alone
are always the same. The batch that is run is one of the schedules. -/
theorem traced?_accounted (bound : Int) {cpus : Nat} (hcpus : 0 < cpus) (job : Job σ ε α)
    (paths : List String) (s : σ) :
    (∀ moves p, (Pool.new paths s).run? (workerCount bound cpus) job moves = some p →
      moves.countP (·.isWork) ≤ 3 * paths.length ∧
      ∃ more, (∀ m ∈ more, m.isWork = true) ∧
        (traced? (workerCount bound cpus) job (moves ++ more) paths s).isSome = true) ∧
    (∀ moves events outcomes s',
      traced? (workerCount bound cpus) job moves paths s = some (events, outcomes, s') →
        Observed job paths s moves events outcomes s') ∧
    ((∀ path t u, (job path t).1 = (job path u).1) → ∀ moves events outcomes s', .cancel ∉ moves →
      traced? (workerCount bound cpus) job moves paths s = some (events, outcomes, s') →
        outcomes = paths.map fun path => ⟨path, .ofAnswer (job path s).1⟩) ∧
    ∀ cancelled, ∃ moves events, traced? (workerCount bound cpus) job moves paths s =
      some (events, runBatch cancelled job paths s) := by
  have hw := workerCount_pos bound hcpus
  refine ⟨fun moves p hrun => ⟨?_, ?_⟩, fun moves events outcomes s' => observed_of_traced?, ?_, ?_⟩
  · have hleft := Pool.left_run hrun
    rw [Pool.left_new] at hleft
    omega
  · obtain ⟨more, q, hwork, hmore, hleft⟩ := Pool.exists_completion hw job p
    obtain ⟨outcomes, hlanes⟩ := Pool.exists_outcomes hleft
    have hwhole : (Pool.new paths s).run? (workerCount bound cpus) job (moves ++ more) = some q := by
      rw [Pool.run?_append, hrun]
      exact hmore
    obtain ⟨events, h⟩ := schedule?_iff_traced?.mp (schedule?_eq_some_iff.mpr ⟨q, hwhole, hlanes, rfl⟩)
    exact ⟨more, hwork, by rw [h]; rfl⟩
  · intro hpure moves events outcomes s' hcancel h
    obtain ⟨hpaths, -, hslots⟩ := schedule?_sound (I := fun _ => True) (fun _ _ _ _ => trivial) trivial
      (schedule?_iff_traced?.mpr ⟨events, h⟩)
    rw [← hpaths, List.map_map]
    refine (List.map_id outcomes).symm.trans (List.map_congr_left fun o ho => ?_)
    obtain ⟨-, hmem⟩ | ⟨t, -, hslot⟩ := hslots o ho
    · exact absurd hmem hcancel
    · change o = ⟨o.path, .ofAnswer (job o.path s).1⟩
      rw [hpure o.path s t, ← hslot]
  · intro cancelled
    obtain ⟨moves, c, hrun⟩ := exists_moves_runBatch hw cancelled job paths [] s
    obtain ⟨events, h⟩ := schedule?_iff_traced?.mp (schedule?_eq_some_iff.mpr ⟨_, hrun, rfl, rfl⟩)
    exact ⟨moves, events, h⟩

/-- A job that counts its calls; it refuses one path and breaks down on another. -/
def countingJob : Job Nat String String := fun path count =>
  (if path = "b.js" then .error (.failed "refused")
    else if path = "c.js" then .error (.crashed "broken")
    else .ok path, count + 1)

/-- Two workers take turns on four paths; the batch is cancelled while two jobs run. -/
def cancelledMidway : List Move :=
  [.submit 0, .submit 1, .enter 1, .enter 0, .finish 1, .submit 2, .enter 2, .cancel, .finish 2, .finish 0,
    .giveUp]

theorem traced?_accounted_midway :
    ∃ events outcomes, traced? (workerCount 0 2) countingJob cancelledMidway ["a.js", "b.js", "c.js", "d.js"] 0 =
        some (events, outcomes, 3) ∧
      outcomes.map (·.slot) = [.done "a.js", .failed (.failed "refused"), .failed (.crashed "broken"), .skipped] ∧
      Observed countingJob ["a.js", "b.js", "c.js", "d.js"] 0 cancelledMidway events outcomes 3 := by
  have hshape : (traced? (workerCount 0 2) countingJob cancelledMidway ["a.js", "b.js", "c.js", "d.js"] 0).map
      (fun r => (r.2.1.map (·.slot), r.2.2)) =
        some ([.done "a.js", .failed (.failed "refused"), .failed (.crashed "broken"), .skipped], 3) := by
    decide
  obtain ⟨⟨events, outcomes, count⟩, h, hr⟩ := Option.map_eq_some_iff.mp hshape
  obtain ⟨hslots, rfl⟩ := Prod.mk.inj hr
  obtain ⟨-, hobserved, -⟩ :=
    traced?_accounted 0 Nat.two_pos countingJob ["a.js", "b.js", "c.js", "d.js"] 0
  exact ⟨events, outcomes, h, hslots, hobserved cancelledMidway events outcomes 3 h⟩

end ScriptSplit.Batch
