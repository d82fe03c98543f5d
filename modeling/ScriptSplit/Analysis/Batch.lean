/-!
# Batches of jobs

A batch runs one job for each path. The outcomes stand in the order of the paths, a job that fails
leaves the others alone, and once the batch is cancelled no job starts any more.

* `Outcome`: what became of one path: a value, a failure, or nothing because it was skipped.
* `runBatch`: the outcomes of a list of paths.
* `failures`, `failuresMessage`: the failed outcomes and their common text.
-/

namespace ScriptSplit.Batch

/-- Why a job gave no value: it refused with an error, or it stopped abruptly. -/
inductive JobError (ε : Type) where
  | failed (error : ε)
  | crashed (reason : String)
  deriving DecidableEq, Repr

/-- The text of a job error. -/
def JobError.message {ε : Type} (text : ε → String) : JobError ε → String
  | failed error => text error
  | crashed reason => "panic while processing file: " ++ reason

/-- What became of a path. -/
inductive Slot (ε α : Type) where
  | done (value : α)
  | failed (error : JobError ε)
  /-- The batch was cancelled before the job started. -/
  | skipped
  deriving DecidableEq, Repr

/-- A path with what became of it. -/
structure Outcome (ε α : Type) where
  path : String
  slot : Slot ε α
  deriving DecidableEq, Repr

/-- The job of the path was run. -/
def Outcome.started {ε α : Type} (o : Outcome ε α) : Bool :=
  match o.slot with
  | .skipped => false
  | _ => true

/-- A job gives a value or an error, and may change what the jobs share. -/
abbrev Job (σ ε α : Type) := String → σ → Except (JobError ε) α × σ

/-- The slot of a job's answer. -/
def Slot.ofAnswer {ε α : Type} : Except (JobError ε) α → Slot ε α
  | .ok value => .done value
  | .error error => .failed error

/-- Runs the job for each path; `cancelled` is asked before each start. -/
def runBatch {σ ε α : Type} (cancelled : σ → Bool) (job : Job σ ε α) :
    List String → σ → List (Outcome ε α) × σ
  | [], s => ([], s)
  | path :: rest, s =>
    if cancelled s then
      let (later, s) := runBatch cancelled job rest s
      (⟨path, .skipped⟩ :: later, s)
    else
      let (answer, s) := job path s
      let (later, s) := runBatch cancelled job rest s
      (⟨path, .ofAnswer answer⟩ :: later, s)

/-- The paths that failed, with their errors. -/
def failures {ε α : Type} (outcomes : List (Outcome ε α)) : List (String × JobError ε) :=
  outcomes.filterMap fun o =>
    match o.slot with
    | .failed error => some (o.path, error)
    | _ => none

/-- The text of one failure. -/
def failureMessage {ε : Type} (text : ε → String) (f : String × JobError ε) : String :=
  f.1 ++ ": " ++ f.2.message text

/-- The common text of failures: the only one, or their number and the first. -/
def failuresMessage {ε : Type} (text : ε → String) : List (String × JobError ε) → String
  | [] => "no errors"
  | [f] => failureMessage text f
  | f :: rest =>
    toString (rest.length + 1) ++ " files failed to process (first: " ++ failureMessage text f ++ ")"

end ScriptSplit.Batch
