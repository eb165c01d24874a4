import Acceptor.Batch.Timing
import Acceptor.Recognition.Recognizer

/-!
# The inputs of a batch

A job is one input of a batch.  It is done in parts: the input is split into tokens, the tokens are
recognized, the time it took is added to the timings, and the outcome is logged.  The clock, the
timings and the log lie on a `Batch.Desk`, which all inputs of a batch share.
-/

namespace Acceptor

/-- The outcome of one input of a batch. -/
structure Outcome where
  /-- Which input it is. -/
  index : Nat
  /-- The result, or the reason why the grammar has none. -/
  result : Except CyclicGrammar Result

namespace Outcome

/-- The input has a result, and it is accepted. -/
def accepted (o : Outcome) : Bool :=
  match o.result with
  | .ok result => result.verdict.isAccepted
  | .error _ => false

/-- The grammar has no result for the input. -/
def failed (o : Outcome) : Bool :=
  match o.result with
  | .ok _ => false
  | .error _ => true

end Outcome

/-- Why a batch has no outcomes. -/
inductive BatchError where
  /-- An input is no token stream. -/
  | tokens (e : TokenError)
  /-- A recognition failed otherwise than by a cyclic grammar. -/
  | recognition (e : RecognitionError)

namespace Batch

/-- An input with its index. -/
structure Job where
  /-- The index of the input. -/
  index : Nat
  /-- The input. -/
  input : TokenSource

/-- What the inputs of a batch share. -/
structure Desk where
  /-- The clock. -/
  clock : Clock
  /-- The timings. -/
  timing : TimingLog
  /-- The log. -/
  log : List LogEntry

/-- The jobs of some inputs, in order. -/
def jobsOf (inputs : List TokenSource) : List Job := inputs.zipIdx.map fun (input, i) => ⟨i, input⟩

/-- The name of an input. -/
def runId (index : Nat) : String := "input-" ++ toString index

/-- The tokens of an input. -/
structure Tokenized where
  /-- The tokens. -/
  stream : TokenStream
  /-- How long it took to find them. -/
  watch : Stopwatch

/-- The outcome of an input, with what is to be taken down about it. -/
structure Recognized where
  /-- The outcome. -/
  outcome : Outcome
  /-- The timing of the input. -/
  timing : RunTiming
  /-- The log entry about it. -/
  entry : LogEntry

namespace Desk

/-- Split an input into tokens. -/
def tokenize (desk : Desk) (job : Job) : Except BatchError Tokenized × Desk :=
  let (source, watch, clock) := desk.clock.timed fun c => (job.input.toStream, c)
  let desk := { desk with clock := clock }
  match source with
  | .error e => (.error (.tokens e), desk)
  | .ok w => (.ok ⟨w, watch⟩, desk)

/-- Recognize the tokens of an input. -/
def recognize (r : Recognizer) (desk : Desk) (job : Job) (tokenized : Tokenized) :
    Except BatchError Recognized × Desk :=
  let w := tokenized.stream
  let tokenizing := tokenized.watch.elapsed
  let (recognition, recognizing, clock) := desk.clock.timed fun c =>
    let done := r.recognize c w
    (done, done.clock)
  let desk := { desk with clock := clock, log := desk.log ++ recognition.log }
  let entry (level : LogLevel) (message : String) : LogEntry :=
    ⟨.batch, level, runId job.index ++ ": " ++ message⟩
  match recognition.outcome with
  | .error (.search (.cyclic c)) =>
    let t : RunTiming := ⟨runId job.index, w.length, tokenizing, recognizing.elapsed, none⟩
    (.ok ⟨⟨job.index, .error c⟩, t, entry .warning c.message⟩, desk)
  | .error e => (.error (.recognition e), desk)
  | .ok result =>
    let t := RunTiming.ofStats (runId job.index) w.length tokenizing result.stats
    (.ok ⟨⟨job.index, .ok result⟩, t, entry .debug result.verdict.message⟩, desk)

/-- Take down the timing of an input. -/
def addTiming (desk : Desk) (t : RunTiming) : Desk := { desk with timing := desk.timing.add t }

/-- Take down a log entry. -/
def addEntry (desk : Desk) (entry : LogEntry) : Desk := { desk with log := desk.log ++ [entry] }

end Desk

/-- Do all parts of a job. -/
def runOne (r : Recognizer) (desk : Desk) (job : Job) : Except BatchError Outcome × Desk :=
  match desk.tokenize job with
  | (.error e, desk) => (.error e, desk)
  | (.ok tokenized, desk) =>
    match desk.recognize r job tokenized with
    | (.error e, desk) => (.error e, desk)
    | (.ok found, desk) => (.ok found.outcome, (desk.addTiming found.timing).addEntry found.entry)

end Batch

end Acceptor
