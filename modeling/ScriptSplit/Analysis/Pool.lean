import ScriptSplit.Analysis.Batch

/-!
# Batches on a pool of workers

The paths of a batch are handed to a bounded number of workers in order. A worker first asks whether
the batch is cancelled and then runs the job; the workers take turns in any way, and the batch may be
cancelled at any moment.

* `Phase`: how far a path has come; `Pool`: the paths of a batch, each in its phase.
* `Move`, `Pool.step?`: one move of the loop, of a worker or of the outside.
* `schedule?`: the outcomes after a list of moves.
* `Event`, `traced?`: the outcomes together with the calls of the job and of the progress callback.
-/

namespace ScriptSplit.Batch

/-- How far a path has come. -/
inductive Phase (ε α : Type) where
  /-- No worker has the path yet. -/
  | waiting
  /-- A worker has the path and has not asked yet whether the batch is cancelled. -/
  | held
  /-- The job runs. -/
  | running
  | settled (slot : Slot ε α)
  deriving DecidableEq, Repr

/-- The path keeps a worker busy. -/
def Phase.isBusy {ε α : Type} : Phase ε α → Bool
  | held => true
  | running => true
  | _ => false

/-- No worker has the path yet. -/
def Phase.isWaiting {ε α : Type} : Phase ε α → Bool
  | waiting => true
  | _ => false

/-- What became of the path, once it is settled. -/
def Phase.slot? {ε α : Type} : Phase ε α → Option (Slot ε α)
  | settled slot => some slot
  | _ => none

/-- A path that waits when the batch is given up is skipped. -/
def Phase.giveUp {ε α : Type} : Phase ε α → Phase ε α
  | waiting => settled .skipped
  | phase => phase

/-- The paths of a batch, each with how far it has come, and what the jobs share. -/
structure Pool (σ ε α : Type) where
  lanes : List (String × Phase ε α)
  cancelled : Bool
  shared : σ

/-- What can happen next. Lanes are given by their place. -/
inductive Move where
  /-- The first path that waits is handed to a free worker. -/
  | submit (lane : Nat)
  /-- The worker of the path asks whether the batch is cancelled. -/
  | enter (lane : Nat)
  /-- The job of the path gives its answer. -/
  | finish (lane : Nat)
  /-- The loop finds the batch cancelled and hands out no more paths. -/
  | giveUp
  | cancel
  deriving DecidableEq, Repr

/-- A call that a batch makes, with the place and the path that it is about. -/
inductive Event where
  /-- The job is called. -/
  | called (lane : Nat) (path : String)
  /-- The progress callback is called. -/
  | told (lane : Nat) (path : String)
  deriving DecidableEq, Repr

/-- The number of workers for a bound, on a machine with the given number of processors. -/
def workerCount (bound : Int) (cpus : Nat) : Nat := if bound ≤ 0 then cpus else bound.toNat

namespace Pool

variable {σ ε α : Type}

/-- All paths wait. -/
def new (paths : List String) (shared : σ) : Pool σ ε α := ⟨paths.map (·, .waiting), false, shared⟩

/-- The number of workers in use. -/
def busy (p : Pool σ ε α) : Nat := p.lanes.countP (·.2.isBusy)

/-- Puts a path into another phase. -/
def put (p : Pool σ ε α) (lane : Nat) (path : String) (phase : Phase ε α) : Pool σ ε α :=
  { p with lanes := p.lanes.set lane (path, phase) }

/-- The pool after a move, if the move is possible. The loop asks whether the batch is cancelled before
it waits for a worker, so a path may still be handed out after that. -/
def step? (workers : Nat) (job : Job σ ε α) (p : Pool σ ε α) : Move → Option (Pool σ ε α)
  | .cancel => some { p with cancelled := true }
  | .giveUp =>
    if p.cancelled then some { p with lanes := p.lanes.map fun l => (l.1, l.2.giveUp) } else none
  | .submit lane =>
    match p.lanes[lane]? with
    | some (path, .waiting) =>
      if p.busy < workers && (p.lanes.take lane).all (!·.2.isWaiting) then some (p.put lane path .held) else none
    | _ => none
  | .enter lane =>
    match p.lanes[lane]? with
    | some (path, .held) => some (p.put lane path (if p.cancelled then .settled .skipped else .running))
    | _ => none
  | .finish lane =>
    match p.lanes[lane]? with
    | some (path, .running) =>
      let (answer, shared) := job path p.shared
      some { p.put lane path (.settled (.ofAnswer answer)) with shared := shared }
    | _ => none

/-- The pool after a list of moves, if all are possible. -/
def run? (workers : Nat) (job : Job σ ε α) (moves : List Move) (p : Pool σ ε α) : Option (Pool σ ε α) :=
  moves.foldlM (step? workers job) p

/-- The calls that go with a move: a worker calls the job when it finds the batch not cancelled, and the
progress callback when the job has ended. -/
def calls (p : Pool σ ε α) : Move → List Event
  | .enter lane =>
    match p.lanes[lane]? with
    | some (path, _) => if p.cancelled then [] else [.called lane path]
    | none => []
  | .finish lane =>
    match p.lanes[lane]? with
    | some (path, _) => [.told lane path]
    | none => []
  | _ => []

/-- The calls of a list of moves and the pool after it, if all moves are possible; `events` are the calls
before. -/
def watch? (workers : Nat) (job : Job σ ε α) : List Move → (events : List Event) → Pool σ ε α →
    Option (List Event × Pool σ ε α)
  | [], events, p => some (events, p)
  | m :: moves, events, p => (p.step? workers job m).bind (watch? workers job moves (events ++ p.calls m))

/-- The outcome of each path, once all are settled. -/
def outcomes? (p : Pool σ ε α) : Option (List (Outcome ε α)) :=
  p.lanes.mapM fun l => l.2.slot?.map (Outcome.mk l.1)

end Pool

/-- The outcomes of a list of paths after a list of moves that settles every path. -/
def schedule? {σ ε α : Type} (workers : Nat) (job : Job σ ε α) (moves : List Move) (paths : List String)
    (s : σ) : Option (List (Outcome ε α) × σ) := do
  let p ← (Pool.new paths s).run? workers job moves
  let outcomes ← p.outcomes?
  some (outcomes, p.shared)

/-- The same with all calls in their order. -/
def traced? {σ ε α : Type} (workers : Nat) (job : Job σ ε α) (moves : List Move) (paths : List String)
    (s : σ) : Option (List Event × List (Outcome ε α) × σ) := do
  let (events, p) ← (Pool.new paths s).watch? workers job moves []
  let outcomes ← p.outcomes?
  some (events, outcomes, p.shared)

end ScriptSplit.Batch
