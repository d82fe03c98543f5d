import Mathlib
import ScriptSplit.Analysis.Pool

/-!
# Runs of the worker pool

Whatever the workers do, the outcomes stand in the order of the paths, and each one is the answer of
its own job, or was skipped because the batch was cancelled.

* `Pool.step?_cases`: what a move can do.
* `Pool.Sound`: what every move keeps; `Pool.Sound.step`, `Pool.Sound.run`.
* **`schedule?_sound`**: the outcomes of a schedule.
* `schedule?_congr`: two jobs with the same answers have the same outcomes.
* **`schedule?_sequential`**, `schedule?_given_up`: the batch that runs one path after the other is one
  of the schedules.
-/

namespace ScriptSplit.Batch

variable {σ τ ε α : Type}

namespace Pool

/-! ## One move -/

/-- Every move that is possible, with what it needs and what it does. -/
theorem step?_cases {workers : Nat} {job : Job σ ε α} {p p' : Pool σ ε α} {m : Move}
    (h : p.step? workers job m = some p') :
    (m = .cancel ∧ p' = { p with cancelled := true }) ∨
    (m = .giveUp ∧ p.cancelled = true ∧
      p' = { p with lanes := p.lanes.map fun l => (l.1, l.2.giveUp) }) ∨
    (∃ i path, m = .submit i ∧ p.lanes[i]? = some (path, .waiting) ∧ p.busy < workers ∧
      p' = p.put i path .held) ∨
    (∃ i path, m = .enter i ∧ p.lanes[i]? = some (path, .held) ∧
      p' = p.put i path (if p.cancelled then .settled .skipped else .running)) ∨
    (∃ i path, m = .finish i ∧ p.lanes[i]? = some (path, .running) ∧
      p' = { p.put i path (.settled (.ofAnswer (job path p.shared).1)) with
        shared := (job path p.shared).2 }) := by
  cases m with
  | cancel => exact .inl ⟨rfl, (Option.some.inj h).symm⟩
  | giveUp =>
    simp only [step?] at h
    split_ifs at h with hc
    exact .inr (.inl ⟨rfl, hc, (Option.some.inj h).symm⟩)
  | submit i =>
    simp only [step?] at h
    split at h
    case h_2 => cases h
    case h_1 path hlane =>
      split_ifs at h with hroom
      rw [Bool.and_eq_true, decide_eq_true_iff] at hroom
      exact .inr (.inr (.inl ⟨i, path, rfl, hlane, hroom.1, (Option.some.inj h).symm⟩))
  | enter i =>
    simp only [step?] at h
    split at h
    case h_2 => cases h
    case h_1 path hlane =>
      exact .inr (.inr (.inr (.inl ⟨i, path, rfl, hlane, (Option.some.inj h).symm⟩)))
  | finish i =>
    simp only [step?] at h
    split at h
    case h_2 => cases h
    case h_1 path hlane =>
      exact .inr (.inr (.inr (.inr ⟨i, path, rfl, hlane, (Option.some.inj h).symm⟩)))

theorem run?_cons {workers : Nat} {job : Job σ ε α} {m : Move} {moves : List Move} {p p' : Pool σ ε α} :
    p.run? workers job (m :: moves) = some p' ↔
      ∃ q, p.step? workers job m = some q ∧ q.run? workers job moves = some p' := by
  unfold run?
  rw [List.foldlM_cons]
  exact Option.bind_eq_some_iff

/-! ## What every move keeps -/

/-- The lanes belong to the paths in order, and a settled path was skipped by a cancelled batch or has
the answer of its own job, given in a state that satisfies `I`. -/
structure Sound (I : σ → Prop) (job : Job σ ε α) (paths : List String) (p : Pool σ ε α) : Prop where
  paths : p.lanes.map (·.1) = paths
  shared : I p.shared
  settled : ∀ l ∈ p.lanes, ∀ slot, l.2 = .settled slot →
    (slot = .skipped ∧ p.cancelled = true) ∨ ∃ s, I s ∧ slot = .ofAnswer (job l.1 s).1

section Sound

variable {I : σ → Prop} {workers : Nat} {job : Job σ ε α} {paths : List String} {p p' : Pool σ ε α}

theorem Sound.new {s : σ} (hs : I s) : Sound I job paths (Pool.new paths s) where
  paths := by
    rw [Pool.new, List.map_map]
    exact List.map_id paths
  shared := hs
  settled := by
    intro l hl slot hslot
    obtain ⟨path, -, rfl⟩ := List.mem_map.mp hl
    cases hslot

/-- A lane that changes its phase keeps its path. -/
theorem map_fst_put {i : Nat} {path : String} {phase phase' : Phase ε α}
    (h : p.lanes[i]? = some (path, phase)) : (p.put i path phase').lanes.map (·.1) = p.lanes.map (·.1) := by
  have hget : (p.lanes.map (·.1))[i]? = some path := by
    rw [List.getElem?_map, h]
    rfl
  obtain ⟨hi, rfl⟩ := List.getElem?_eq_some_iff.mp hget
  rw [put, List.map_set]
  exact List.set_getElem_self hi

theorem mem_put {i : Nat} {path : String} {phase : Phase ε α} {l : String × Phase ε α}
    (h : l ∈ (p.put i path phase).lanes) : l ∈ p.lanes ∨ l = (path, phase) :=
  List.mem_or_eq_of_mem_set h

theorem Sound.mem_paths (hp : Sound I job paths p) {i : Nat} {path : String} {phase : Phase ε α}
    (hlane : p.lanes[i]? = some (path, phase)) : path ∈ paths := by
  rw [← hp.paths]
  exact List.mem_map_of_mem (List.mem_of_getElem? hlane)

/-- A lane that changes to a phase which is justified leaves the pool sound. -/
theorem Sound.put (hp : Sound I job paths p) {i : Nat} {path : String} {phase phase' : Phase ε α}
    (hlane : p.lanes[i]? = some (path, phase))
    (hphase : ∀ slot, phase' = .settled slot →
      (slot = .skipped ∧ p.cancelled = true) ∨ ∃ s, I s ∧ slot = .ofAnswer (job path s).1) :
    Sound I job paths (p.put i path phase') where
  paths := by rw [map_fst_put hlane, hp.paths]
  shared := hp.shared
  settled := by
    intro l hl slot hslot
    obtain hl | rfl := mem_put hl
    · exact hp.settled l hl slot hslot
    · exact hphase slot hslot

theorem Sound.step (hjob : ∀ path ∈ paths, ∀ s, I s → I (job path s).2) (hp : Sound I job paths p) {m : Move}
    (h : p.step? workers job m = some p') : Sound I job paths p' := by
  obtain ⟨-, rfl⟩ | ⟨-, hc, rfl⟩ | ⟨i, path, -, hlane, -, rfl⟩ | ⟨i, path, -, hlane, rfl⟩ |
    ⟨i, path, -, hlane, rfl⟩ := step?_cases h
  · refine ⟨hp.paths, hp.shared, fun l hl slot hslot => ?_⟩
    exact (hp.settled l hl slot hslot).imp_left fun h => ⟨h.1, rfl⟩
  · refine ⟨?_, hp.shared, fun l hl slot hslot => ?_⟩
    · rw [← hp.paths, List.map_map]
      rfl
    · obtain ⟨⟨path, phase⟩, hmem, rfl⟩ := List.mem_map.mp hl
      cases phase with
      | waiting =>
        cases hslot
        exact .inl ⟨rfl, hc⟩
      | held => cases hslot
      | running => cases hslot
      | settled slot' => exact hp.settled _ hmem slot hslot
  · exact hp.put hlane fun slot hslot => by cases hslot
  · refine hp.put hlane fun slot hslot => ?_
    split_ifs at hslot with hc
    cases hslot
    exact .inl ⟨rfl, hc⟩
  · -- the only move that gives an answer and changes what the jobs share
    have hput : Sound I job paths (p.put i path (.settled (.ofAnswer (job path p.shared).1))) :=
      hp.put hlane fun slot hslot => .inr ⟨p.shared, hp.shared, (Phase.settled.inj hslot).symm⟩
    exact ⟨hput.paths, hjob path (hp.mem_paths hlane) p.shared hp.shared, hput.settled⟩

theorem Sound.run (hjob : ∀ path ∈ paths, ∀ s, I s → I (job path s).2) (hp : Sound I job paths p)
    {moves : List Move} (h : p.run? workers job moves = some p') : Sound I job paths p' := by
  induction moves generalizing p with
  | nil => exact Option.some.inj h ▸ hp
  | cons m moves ih =>
    obtain ⟨q, hstep, hrun⟩ := run?_cons.mp h
    exact ih (hp.step hjob hstep) hrun

/-- A batch is cancelled by nothing but a cancellation. -/
theorem cancelled_of_run {moves : List Move} (h : p.run? workers job moves = some p')
    (hp' : p'.cancelled = true) : p.cancelled = true ∨ .cancel ∈ moves := by
  induction moves generalizing p with
  | nil => exact .inl (Option.some.inj h ▸ hp')
  | cons m moves ih =>
    obtain ⟨q, hstep, hrun⟩ := run?_cons.mp h
    obtain hq | hmem := ih hrun
    · obtain ⟨rfl, -⟩ | ⟨-, -, rfl⟩ | ⟨i, path, -, -, -, rfl⟩ | ⟨i, path, -, -, rfl⟩ |
        ⟨i, path, -, -, rfl⟩ := step?_cases hstep
      · exact .inr List.mem_cons_self
      all_goals exact .inl hq
    · exact .inr (List.mem_cons_of_mem m hmem)

end Sound

end Pool

/-! ## The outcomes -/

/-- The settled lane of an outcome. -/
def laneOf (o : Outcome ε α) : String × Phase ε α := (o.path, .settled o.slot)

namespace Pool

theorem outcomes?_eq_some_iff {p : Pool σ ε α} {outcomes : List (Outcome ε α)} :
    p.outcomes? = some outcomes ↔ p.lanes = outcomes.map laneOf := by
  unfold outcomes?
  induction p.lanes generalizing outcomes with
  | nil =>
    rw [List.mapM_nil]
    cases outcomes <;> simp
  | cons l lanes ih =>
    obtain ⟨path, phase⟩ := l
    rw [List.mapM_cons]
    cases phase with
    | settled slot =>
      refine Option.bind_eq_some_iff.trans ⟨?_, ?_⟩
      · rintro ⟨o, ho, h⟩
        cases ho
        obtain ⟨os, hos, h⟩ := Option.bind_eq_some_iff.mp h
        cases h
        rw [ih.mp hos]
        rfl
      · intro h
        cases outcomes with
        | nil => cases h
        | cons o os =>
          obtain ⟨hhead, htail⟩ := List.cons.inj h
          cases hhead
          exact ⟨o, rfl, Option.bind_eq_some_iff.mpr ⟨os, ih.mpr htail, rfl⟩⟩
    | _ => cases outcomes <;> simp [Phase.slot?, laneOf]

end Pool

theorem schedule?_eq_some_iff {workers : Nat} {job : Job σ ε α} {moves : List Move} {paths : List String}
    {s s' : σ} {outcomes : List (Outcome ε α)} :
    schedule? workers job moves paths s = some (outcomes, s') ↔
      ∃ p, (Pool.new paths s).run? workers job moves = some p ∧ p.lanes = outcomes.map laneOf ∧
        p.shared = s' := by
  refine Option.bind_eq_some_iff.trans (exists_congr fun p => and_congr Iff.rfl ?_)
  rw [← Pool.outcomes?_eq_some_iff]
  refine Option.bind_eq_some_iff.trans ⟨?_, ?_⟩
  · rintro ⟨os, hos, h⟩
    obtain ⟨rfl, rfl⟩ := Prod.mk.inj (Option.some.inj h)
    exact ⟨hos, rfl⟩
  · rintro ⟨hos, rfl⟩
    exact ⟨outcomes, hos, rfl⟩

/-- **The outcomes of a schedule** stand in the order of the paths; each is the answer of its own job,
or the path was skipped by a cancelled batch. -/
theorem schedule?_sound {I : σ → Prop} {workers : Nat} {job : Job σ ε α} {paths : List String}
    (hjob : ∀ path ∈ paths, ∀ s, I s → I (job path s).2) {moves : List Move} {s s' : σ} (hs : I s)
    {outcomes : List (Outcome ε α)}
    (h : schedule? workers job moves paths s = some (outcomes, s')) :
    outcomes.map (·.path) = paths ∧ I s' ∧
      ∀ o ∈ outcomes, (o.slot = .skipped ∧ .cancel ∈ moves) ∨
        ∃ t, I t ∧ o.slot = .ofAnswer (job o.path t).1 := by
  obtain ⟨p, hrun, hlanes, rfl⟩ := schedule?_eq_some_iff.mp h
  have hp : p.Sound I job paths := (Pool.Sound.new hs).run hjob hrun
  refine ⟨?_, hp.shared, fun o ho => ?_⟩
  · rw [← hp.paths, hlanes, List.map_map]
    rfl
  · have hmem : (o.path, Phase.settled o.slot) ∈ p.lanes := by
      rw [hlanes]
      exact List.mem_map_of_mem ho
    obtain ⟨hskip, hc⟩ | hanswer := hp.settled _ hmem _ rfl
    · refine .inl ⟨hskip, ?_⟩
      obtain hnew | hcancel := Pool.cancelled_of_run hrun hc
      · cases hnew
      · exact hcancel
    · exact .inr hanswer

/-! ## Other jobs with the same answers -/

section Congr

variable {I : σ → Prop} {J : τ → Prop} {workers : Nat} {job : Job σ ε α} {job' : Job τ ε α}
  {paths : List String} (hjob : ∀ path ∈ paths, ∀ s, I s → I (job path s).2)
  (hjob' : ∀ path ∈ paths, ∀ t, J t → J (job' path t).2)
  (hanswer : ∀ path ∈ paths, ∀ s t, I s → J t → (job path s).1 = (job' path t).1)

include hjob' hanswer in
theorem Pool.step?_congr {p p' : Pool σ ε α} {q : Pool τ ε α} {m : Move} (hp : p.Sound I job paths)
    (ht : J q.shared) (hlanes : q.lanes = p.lanes) (hc : q.cancelled = p.cancelled)
    (h : p.step? workers job m = some p') :
    ∃ q', q.step? workers job' m = some q' ∧ J q'.shared ∧ q'.lanes = p'.lanes ∧
      q'.cancelled = p'.cancelled := by
  obtain ⟨lanes, cancelled, t⟩ := q
  obtain rfl : lanes = p.lanes := hlanes
  obtain rfl : cancelled = p.cancelled := hc
  cases m with
  | cancel =>
    cases h
    exact ⟨_, rfl, ht, rfl, rfl⟩
  | giveUp =>
    simp only [step?] at h ⊢
    split_ifs at h ⊢ with hcancel
    cases h
    exact ⟨_, rfl, ht, rfl, rfl⟩
  | submit i =>
    have hbusy : (⟨p.lanes, p.cancelled, t⟩ : Pool τ ε α).busy = p.busy := rfl
    simp only [step?, hbusy] at h ⊢
    split at h
    case h_2 => cases h
    case h_1 path hlane =>
      by_cases hroom : (p.busy < workers && (p.lanes.take i).all (!·.2.isWaiting)) = true
      · rw [if_pos hroom] at h ⊢
        cases h
        exact ⟨_, rfl, ht, rfl, rfl⟩
      · rw [if_neg hroom] at h
        cases h
  | enter i =>
    simp only [step?] at h ⊢
    split at h
    case h_2 => cases h
    case h_1 path hlane =>
      cases h
      exact ⟨_, rfl, ht, rfl, rfl⟩
  | finish i =>
    simp only [step?] at h ⊢
    split at h
    case h_2 => cases h
    case h_1 path hlane =>
      cases h
      have hmem := hp.mem_paths hlane
      refine ⟨_, rfl, hjob' path hmem t ht, ?_, rfl⟩
      rw [← hanswer path hmem p.shared t hp.shared ht]
      rfl

include hjob hjob' hanswer

theorem Pool.run?_congr {moves : List Move} {p p' : Pool σ ε α} {q : Pool τ ε α} (hp : p.Sound I job paths)
    (ht : J q.shared) (hlanes : q.lanes = p.lanes) (hc : q.cancelled = p.cancelled)
    (h : p.run? workers job moves = some p') :
    ∃ q', q.run? workers job' moves = some q' ∧ q'.lanes = p'.lanes := by
  induction moves generalizing p q with
  | nil => exact ⟨q, rfl, Option.some.inj h ▸ hlanes⟩
  | cons m moves ih =>
    obtain ⟨p₁, hstep, hrun⟩ := run?_cons.mp h
    obtain ⟨q₁, hstep', ht₁, hlanes₁, hc₁⟩ := step?_congr hjob' hanswer hp ht hlanes hc hstep
    obtain ⟨q', hrun', hlanes'⟩ := ih (hp.step hjob hstep) ht₁ hlanes₁ hc₁ hrun
    exact ⟨q', run?_cons.mpr ⟨q₁, hstep', hrun'⟩, hlanes'⟩

theorem schedule?_some_congr {moves : List Move} {s s' : σ} {t : τ} (hs : I s) (ht : J t)
    {outcomes : List (Outcome ε α)} (h : schedule? workers job moves paths s = some (outcomes, s')) :
    ∃ t', schedule? workers job' moves paths t = some (outcomes, t') := by
  obtain ⟨p, hrun, hlanes, rfl⟩ := schedule?_eq_some_iff.mp h
  obtain ⟨q, hrun', hlanes'⟩ :=
    Pool.run?_congr (q := Pool.new paths t) hjob hjob' hanswer (Pool.Sound.new hs) ht rfl rfl hrun
  exact ⟨q.shared, schedule?_eq_some_iff.mpr ⟨q, hrun', hlanes'.trans hlanes, rfl⟩⟩

/-- **Two jobs that give the same answers** have the same outcomes on every list of moves, or none. -/
theorem schedule?_congr {moves : List Move} {s : σ} {t : τ} (hs : I s) (ht : J t) :
    (schedule? workers job moves paths s).map Prod.fst =
      (schedule? workers job' moves paths t).map Prod.fst := by
  refine Option.ext fun outcomes => ?_
  rw [Option.map_eq_some_iff, Option.map_eq_some_iff]
  constructor
  · rintro ⟨⟨o, s'⟩, h, rfl⟩
    obtain ⟨t', h'⟩ := schedule?_some_congr hjob hjob' hanswer hs ht h
    exact ⟨_, h', rfl⟩
  · rintro ⟨⟨o, t'⟩, h, rfl⟩
    obtain ⟨s', h'⟩ := schedule?_some_congr hjob' hjob
      (fun path hpath t s ht hs => (hanswer path hpath s t hs ht).symm) ht hs h
    exact ⟨_, h', rfl⟩

end Congr

/-! ## One path after the other -/

/-- The moves of one worker that takes `count` paths from a place on. -/
def sequential : (place count : Nat) → List Move
  | _, 0 => []
  | place, count + 1 => .submit place :: .enter place :: .finish place :: sequential (place + 1) count

theorem cancel_not_mem_sequential (place count : Nat) : .cancel ∉ sequential place count := by
  induction count generalizing place with
  | zero => exact List.not_mem_nil
  | succ count ih => simpa [sequential] using ih (place + 1)

/-- The paths up to a place are settled, and the others wait. -/
def midway (done : List (Outcome ε α)) (rest : List String) (s : σ) : Pool σ ε α :=
  ⟨done.map laneOf ++ rest.map fun path => (path, .waiting), false, s⟩

theorem busy_midway (done : List (Outcome ε α)) (rest : List String) (s : σ) :
    (midway done rest s).busy = 0 := by
  unfold Pool.busy
  rw [List.countP_eq_zero]
  intro l hl
  obtain hl | hl := List.mem_append.mp hl
  · obtain ⟨o, -, rfl⟩ := List.mem_map.mp hl
    exact Bool.false_ne_true
  · obtain ⟨path, -, rfl⟩ := List.mem_map.mp hl
    exact Bool.false_ne_true

/-- The lanes while one path has its turn: those before it are settled, and those behind it wait. -/
def turn (done : List (Outcome ε α)) (path : String) (phase : Phase ε α) (rest : List String) :
    List (String × Phase ε α) :=
  done.map laneOf ++ (path, phase) :: rest.map fun path => (path, .waiting)

theorem getElem?_turn (done : List (Outcome ε α)) (path : String) (phase : Phase ε α) (rest : List String) :
    (turn done path phase rest)[done.length]? = some (path, phase) := by
  rw [turn, List.getElem?_append_right (by simp)]
  simp

theorem set_turn (done : List (Outcome ε α)) (path : String) (phase phase' : Phase ε α) (rest : List String) :
    (turn done path phase rest).set done.length (path, phase') = turn done path phase' rest := by
  rw [turn, List.set_append_right _ _ (by simp)]
  simp [turn]

section Sequential

variable {workers : Nat} (hw : 0 < workers) (job : Job σ ε α)
include hw

/-- One path is taken, and the paths before it stay settled. -/
theorem run?_one (done : List (Outcome ε α)) (path : String) (rest : List String) (s : σ) :
    (midway done (path :: rest) s).run? workers job
      [.submit done.length, .enter done.length, .finish done.length] =
    some (midway (done ++ [Outcome.mk path (.ofAnswer (job path s).1)]) rest (job path s).2) := by
  have hroom : ((midway done (path :: rest) s).busy < workers &&
      ((turn done path .waiting rest).take done.length).all (!·.2.isWaiting)) = true := by
    rw [busy_midway, turn, List.take_left' (by simp)]
    simp [hw, laneOf, Phase.isWaiting]
  refine Pool.run?_cons.mpr ⟨⟨turn done path .held rest, false, s⟩, ?_, ?_⟩
  · have hwaits : (midway done (path :: rest) s).lanes[done.length]? = some (path, .waiting) :=
      getElem?_turn done path .waiting rest
    simp only [Pool.step?, hwaits]
    refine (if_pos hroom).trans (congrArg some ?_)
    exact congrArg (Pool.mk · false s) (set_turn done path .waiting .held rest)
  refine Pool.run?_cons.mpr ⟨⟨turn done path .running rest, false, s⟩, ?_, ?_⟩
  · simp only [Pool.step?, getElem?_turn, Pool.put, set_turn]
    rfl
  refine Pool.run?_cons.mpr ⟨_, ?_, rfl⟩
  simp only [Pool.step?, getElem?_turn, Pool.put, set_turn]
  simp [midway, turn, laneOf]

theorem run?_sequential (paths : List String) (done : List (Outcome ε α)) (s : σ) :
    (midway done paths s).run? workers job (sequential done.length paths.length) =
    some (midway (done ++ (runBatch (fun _ => false) job paths s).1) []
      (runBatch (fun _ => false) job paths s).2) := by
  induction paths generalizing done s with
  | nil => simp [sequential, Pool.run?, runBatch]
  | cons path rest ih =>
    have hone := run?_one hw job done path rest s
    have hrest := ih (done ++ [⟨path, .ofAnswer (job path s).1⟩]) (job path s).2
    rw [List.length_append, List.length_singleton] at hrest
    unfold Pool.run? at hone hrest ⊢
    rw [List.length_cons, sequential]
    change List.foldlM _ _ ([_, _, _] ++ sequential _ _) = _
    rw [List.foldlM_append, hone]
    refine hrest.trans ?_
    simp [runBatch]

/-- **A batch without cancellation** is what one worker makes of it. -/
theorem schedule?_sequential (paths : List String) (s : σ) :
    schedule? workers job (sequential 0 paths.length) paths s =
      some (runBatch (fun _ => false) job paths s) :=
  schedule?_eq_some_iff.mpr ⟨_, run?_sequential hw job paths [] s, List.append_nil _, rfl⟩

omit hw in
/-- A batch that is cancelled beforehand is given up at once. -/
theorem schedule?_given_up (paths : List String) (s : σ) :
    schedule? workers job [.cancel, .giveUp] paths s = some (runBatch (fun _ => true) job paths s) := by
  have hbatch : runBatch (fun _ => true) job paths s = (paths.map fun path => ⟨path, .skipped⟩, s) := by
    induction paths with
    | nil => rfl
    | cons path rest ih => simp [runBatch, ih]
  have hrun : (Pool.new paths s).run? workers job [.cancel, .giveUp] =
      some ⟨paths.map fun path => (path, .settled .skipped), true, s⟩ := by
    simp [Pool.run?, Pool.step?, Pool.new, Phase.giveUp]
  rw [hbatch]
  refine schedule?_eq_some_iff.mpr ⟨_, hrun, ?_, rfl⟩
  rw [List.map_map]
  rfl

end Sequential

end ScriptSplit.Batch
