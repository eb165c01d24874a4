import Acceptor.Value.Equality
import Acceptor.Value.Printer

/-!
# Settings

How recognizers work: how many workers a batch may use, whether expectations are collected, and
whether counters are logged.  Settings are plain values and are shown as they were given.  The
number of workers has to be a number and not below one; the switches are on if their value counts
as true.
-/

namespace Acceptor

/-- A kind of values that are ordered by size; truth values count as zero and one. -/
def Value.Kind.isNumeric : Value.Kind → Bool
  | .bool | .int | .double => true
  | _ => false

/-- The settings of a recognizer. -/
structure Settings where
  /-- How many workers a batch may use. -/
  maxWorkers : Value := .int 4
  /-- Collect what was expected at the frontier. -/
  collectExpected : Value := .bool true
  /-- Log the counters of every run. -/
  logStats : Value := .bool false
  /-- The number of workers is a number. -/
  numeric : maxWorkers.kind.isNumeric = true := by decide
  /-- There is at least one worker. -/
  positive : maxWorkers.less (.int 1) = false := by decide

namespace Settings

/-- Why a number of workers is refused. -/
inductive Refusal where
  /-- It is no number. -/
  | notNumeric (found : Value.Kind)
  /-- It is below one. -/
  | tooFew (maxWorkers : Value)

/-- The wording of a refusal. -/
def Refusal.message : Refusal → String
  | .notNumeric found =>
    "'<' not supported between instances of '" ++ found.name ++ "' and '" ++ Value.Kind.int.name ++
      "'"
  | .tooFew maxWorkers => "max_workers must be >= 1: " ++ maxWorkers.render

/-- The settings with some number of workers. -/
def make (maxWorkers collectExpected logStats : Value) : Except Refusal Settings :=
  if numeric : maxWorkers.kind.isNumeric = true then
    if positive : maxWorkers.less (.int 1) = false then
      .ok ⟨maxWorkers, collectExpected, logStats, numeric, positive⟩
    else .error (.tooFew maxWorkers)
  else .error (.notNumeric maxWorkers.kind)

/-- A batch may use more than one worker. -/
def severalWorkers (s : Settings) : Bool := Value.less (.int 1) s.maxWorkers

/-- Expectations are collected. -/
def collects (s : Settings) : Bool := s.collectExpected.holds

/-- Counters are logged. -/
def logs (s : Settings) : Bool := s.logStats.holds

/-- How messages show settings. -/
def render (s : Settings) : String :=
  "RecognizerConfig(max_workers=" ++ s.maxWorkers.render ++ ", collect_expected=" ++
    s.collectExpected.render ++ ", log_stats=" ++ s.logStats.render ++ ")"

end Settings

end Acceptor
