import Acceptor.Batch.Pool

/-!
# Batches

A batch recognizes many inputs by one recognizer.  Inputs do not depend on each other: each has its
own search, and what they share are the clock, the timings and the log.  They are recognized one
after the other or by several workers, who do their parts in an order that is not fixed;
`Batch.recognizeMany` takes it as an argument.
-/

namespace Acceptor

namespace Batch

variable (r : Recognizer)

/-- Recognize inputs one after the other, up to the first that fails. -/
def runInline (desk : Desk) : List Job → Except BatchError (List Outcome) × Desk
  | [] => (.ok [], desk)
  | job :: jobs =>
    match runOne r desk job with
    | (.error e, desk) => (.error e, desk)
    | (.ok o, desk) =>
      match runInline desk jobs with
      | (.error e, desk) => (.error e, desk)
      | (.ok os, desk) => (.ok (o :: os), desk)

/-- The batch is given to several workers. -/
def usesPool (settings : Settings) (jobs : List Job) : Bool :=
  decide (1 < jobs.length) && settings.severalWorkers

/-- What is logged about the outcomes. -/
def outcomesMessage (outcomes : List Outcome) : String :=
  let accepted := (outcomes.filter Outcome.accepted).length
  let failed := (outcomes.filter Outcome.failed).length
  let rejected := (Int.ofNat outcomes.length - accepted) - failed
  "Recognized " ++ toString outcomes.length ++ " inputs: " ++ toString accepted ++ " accepted, " ++
    toString rejected ++ " rejected, " ++ toString failed ++ " grammar errors"

/-- Recognize every input.  `arrange` makes the schedule of the workers, if there are several, from
the one by which inputs are recognized one after the other.  The time of the batch is noted if all
inputs are token streams. -/
def recognizeMany (inputs : List TokenSource) (arrange : List Nat → List Nat) (clock : Clock)
    (timing : TimingLog) : Except BatchError (List Outcome) × Desk :=
  let jobs := jobsOf inputs
  let ((outcomes, desk), watch, clock) := clock.timed fun c =>
    let desk : Desk := ⟨c, timing, []⟩
    let done :=
      if usesPool r.settings jobs then pooled r desk jobs arrange else runInline r desk jobs
    (done, done.2.clock)
  let desk := { desk with clock := clock }
  match outcomes with
  | .error e => (.error e, desk)
  | .ok outcomes =>
    let timing := desk.timing.finish watch.elapsed
    let summary : List LogEntry :=
      if r.settings.logs then [⟨.batch, .debug, timing.summary TimingLog.shown⟩] else []
    (.ok outcomes,
      ⟨clock, timing, desk.log ++ [⟨.batch, .info, outcomesMessage outcomes⟩] ++ summary⟩)

end Batch

end Acceptor
