import Acceptor.Recognition.Stats
import Acceptor.Text.Listing
import Acceptor.Token.Slice

/-!
# Timings of a batch

How long each input of a batch took, so that slow ones stand out.
-/

namespace Acceptor

/-- How long one input took. -/
structure RunTiming where
  /-- The name of the input. -/
  runId : String
  /-- How many tokens it has. -/
  tokens : Int
  /-- The seconds spent on splitting it into tokens. -/
  tokenize : Float
  /-- The seconds spent on recognizing it. -/
  recognize : Float
  /-- How many sub-problems were solved, if there is a result. -/
  memoEntries : Option Int

namespace RunTiming

/-- The timing of an input with the counters of its run. -/
def ofStats (runId : String) (tokens : Int) (tokenize : Float) (stats : Stats) : RunTiming :=
  ⟨runId, tokens, tokenize, stats.elapsed, some stats.memoEntries⟩

/-- All seconds spent on the input. -/
def total (t : RunTiming) : Float := t.tokenize + t.recognize

/-- The timing in words. -/
def describe (t : RunTiming) : String :=
  let memo :=
    match t.memoEntries with
    | some n => ", " ++ toString n ++ " memo entries"
    | none => ""
  t.runId ++ " " ++ Stats.seconds t.total ++ " (" ++ toString t.tokens ++ " tokens" ++ memo ++ ")"

end RunTiming

/-- The timings of a batch. -/
structure TimingLog where
  /-- The inputs, in the order in which they were finished. -/
  runs : List RunTiming := []
  /-- The seconds that the whole batch took. -/
  wallTime : Float := 0.0

namespace TimingLog

variable (log : TimingLog)

/-- Add an input that was finished. -/
def add (t : RunTiming) : TimingLog := { log with runs := log.runs ++ [t] }

/-- Note how long the whole batch took. -/
def finish (wallTime : Float) : TimingLog := { log with wallTime := wallTime }

/-- The seconds spent on all inputs, added up in order. -/
def busyTime : Float := log.runs.foldl (fun sum t => sum + t.total) 0.0

/-- How many inputs a summary shows if nothing else is said. -/
def shown : Option Int := some 3

/-- The inputs, the slowest first and equally slow ones in order, up to `n`.  A negative `n` leaves
out that many at the end, and no `n` leaves out none. -/
def slowest (n : Option Int) : List RunTiming :=
  Slice.pick ⟨none, n, 1⟩ (log.runs.mergeSort fun a b => !decide (a.total < b.total))

/-- The timings in words, with the slowest inputs. -/
def summary (n : Option Int) : String :=
  let slowest := log.slowest n
  toString log.runs.length ++ " inputs, " ++
    toString (log.runs.foldl (fun sum t => sum + t.tokens) 0) ++ " tokens in " ++
    Stats.seconds log.wallTime ++ " (" ++ Stats.seconds log.busyTime ++ " across runs)" ++
    if slowest.isEmpty then "" else "; slowest: " ++ Text.commas (slowest.map RunTiming.describe)

end TimingLog

end Acceptor
