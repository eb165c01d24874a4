import Acceptor.Batch.Job

/-!
# Workers

A pool of workers does the jobs of a batch.  Whenever a worker is free it takes the next job that
waits, and the workers do the parts of their jobs in any order.  A *schedule* says whose turn it is,
turn after turn: it lists the places of jobs, and the turn of a job that nobody has taken yet is
that of a free worker.  `Batch.pooled` follows a schedule and then finishes what the schedule has
left undone, job by job.
-/

namespace Acceptor

namespace Batch

/-- How far a worker has come with a job. -/
inductive Phase where
  /-- The job was taken. -/
  | fresh
  /-- The input is split into tokens. -/
  | tokenized (t : Tokenized)
  /-- The tokens are recognized. -/
  | recognized (found : Recognized)
  /-- The timing is taken down. -/
  | timed (found : Recognized)
  /-- The job is done, or it failed. -/
  | finished (result : Except BatchError Outcome)

namespace Phase

/-- What came of the job, if it is finished. -/
def result? : Phase → Option (Except BatchError Outcome)
  | .finished result => some result
  | _ => none

/-- A worker is at the job. -/
def isBusy (phase : Phase) : Bool := phase.result?.isNone

/-- Do the next part of a job. -/
def advance (r : Recognizer) (desk : Desk) (job : Job) : Phase → Phase × Desk
  | .fresh =>
    match desk.tokenize job with
    | (.error e, desk) => (.finished (.error e), desk)
    | (.ok t, desk) => (.tokenized t, desk)
  | .tokenized t =>
    match desk.recognize r job t with
    | (.error e, desk) => (.finished (.error e), desk)
    | (.ok found, desk) => (.recognized found, desk)
  | .recognized found => (.timed found, desk.addTiming found.timing)
  | .timed found => (.finished (.ok found.outcome), desk.addEntry found.entry)
  | .finished result => (.finished result, desk)

end Phase

/-- A job that was taken. -/
structure Run where
  /-- The job. -/
  job : Job
  /-- How far it has come. -/
  phase : Phase

/-- The workers of a batch, and what lies on their desk. -/
structure Pool where
  /-- The jobs that wait. -/
  waiting : List Job
  /-- The jobs that were taken, in order. -/
  runs : List Run
  /-- The desk. -/
  desk : Desk

namespace Pool

variable (r : Recognizer) (pool : Pool)

/-- How many workers are at a job. -/
def busy : Nat := pool.runs.countP fun run => run.phase.isBusy

/-- A worker is free. -/
def hasFree : Bool := Value.less (.int pool.busy) r.settings.maxWorkers

/-- A free worker takes the next job that waits. -/
def take : Pool :=
  match pool.waiting with
  | [] => pool
  | job :: waiting =>
    if pool.hasFree r then { pool with waiting := waiting, runs := pool.runs ++ [⟨job, .fresh⟩] }
    else pool

/-- The turn of the job at a place. -/
def turn (place : Nat) : Pool :=
  match pool.runs[place]? with
  | none => pool.take r
  | some run =>
    let (phase, desk) := run.phase.advance r pool.desk run.job
    { pool with runs := pool.runs.set place ⟨run.job, phase⟩, desk := desk }

/-- Follow a schedule. -/
def follow (schedule : List Nat) : Pool := schedule.foldl (fun pool place => pool.turn r place) pool

end Pool

/-- The schedule by which `n` jobs are done one after the other.  Each has five turns: it is taken,
and it has four parts. -/
def jobByJob (n : Nat) : List Nat := (List.range n).flatMap fun place => List.replicate 5 place

/-- Do all jobs by the schedule that `arrange` makes, and look at what came of them in the order in
which they were given. -/
def pooled (r : Recognizer) (desk : Desk) (jobs : List Job) (arrange : List Nat → List Nat) :
    Except BatchError (List Outcome) × Desk :=
  let plain := jobByJob jobs.length
  let pool := Pool.follow r ⟨jobs, [], desk⟩ (arrange plain ++ plain)
  ((pool.runs.filterMap fun run => run.phase.result?).mapM id, pool.desk)

end Batch

end Acceptor
