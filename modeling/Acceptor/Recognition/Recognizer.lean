import Acceptor.Clock
import Acceptor.Descriptor.Read
import Acceptor.Recognition.Result
import Acceptor.Recognition.Search
import Acceptor.Recognition.Settings

/-!
# Recognizers

A recognizer decides whether the start symbol of its grammar derives exactly a given token stream.

* `Recognizer.judge` decides it, and counts the work;
* `Recognizer.recognize` also measures the time and writes the log.
-/

namespace Acceptor

/-- A grammar with the settings to recognize by. -/
structure Recognizer where
  /-- The grammar. -/
  grammar : Grammar
  /-- The settings. -/
  settings : Settings := {}

/-- Why there is no verdict. -/
inductive RecognitionError where
  /-- The search failed. -/
  | search (f : Search.Failure)
  /-- The frontier lies outside the stream. -/
  | access (e : AccessError)
  deriving Repr, DecidableEq

/-- The wording of an error. -/
def RecognitionError.message : RecognitionError → String
  | .search f => f.message
  | .access e => e.message

/-- A verdict with what it took to find it. -/
structure Judgement where
  /-- The verdict. -/
  verdict : Verdict
  /-- How many sub-problems were solved. -/
  solved : Nat
  /-- How many terminals were tried. -/
  attempts : Nat
  /-- How many of them did not match. -/
  failures : Nat
  deriving Repr, DecidableEq

/-- The result of a judgement that took some seconds. -/
def Judgement.toResult (j : Judgement) (elapsed : Float) : Result :=
  ⟨j.verdict, ⟨j.solved, j.attempts, j.failures, elapsed⟩⟩

/-- The outcome of one recognition, with the clock after it and what was logged. -/
structure Recognition where
  /-- The result, if the search did not fail. -/
  outcome : Except RecognitionError Result
  /-- The clock after it. -/
  clock : Clock
  /-- What was logged. -/
  log : List LogEntry

namespace Recognizer

variable (r : Recognizer)

/-- The verdict on a stream whose derivations from the start symbol end at `ends`.  It is accepted
if they reach its end.  Otherwise the furthest end counts as a failure too: the input should have
stopped there. -/
def verdict (w : TokenStream) (run : Search.Run) (ends : List Nat) :
    Except AccessError Verdict :=
  if w.length ∈ ends then .ok (.accepted w.length)
  else
    let frontier := run.frontier r.settings.collects
    let frontier :=
      match ends.getLast? with
      | some furthest => frontier.recordEnd furthest
      | none => frontier
    (w.read frontier.resolved).map fun token =>
      .rejected frontier.resolved token frontier.expected

/-- The search for the ends of all derivations from the start symbol. -/
def search (w : TokenStream) : Search.Run × Except Search.Failure (List Nat) :=
  Search.solve r.grammar w .fresh ⟨r.grammar.start, 0⟩

/-- Decide whether the start symbol derives the whole stream. -/
def judge (w : TokenStream) : Except RecognitionError Judgement :=
  match r.search w with
  | (_, .error f) => .error (.search f)
  | (run, .ok ends) =>
    match r.verdict w run ends with
    | .error e => .error (.access e)
    | .ok verdict => .ok ⟨verdict, run.solved, run.attempts.length, run.failures.length⟩

/-- What is logged about a result. -/
def resultLog (result : Result) : List LogEntry :=
  if r.settings.logs then
    [⟨.recognizer, .debug, result.verdict.message ++ "; " ++ result.stats.summary⟩]
  else []

/-- Decide whether the start symbol derives the whole stream, and measure the time it takes. -/
def recognize (clock : Clock) (w : TokenStream) : Recognition :=
  let (judged, watch, clock) := clock.timed fun c => (r.judge w, c)
  match judged with
  | .error e => ⟨.error e, clock, []⟩
  | .ok j =>
    let result := j.toResult watch.elapsed
    ⟨.ok result, clock, r.resultLog result⟩

end Recognizer

/-- A value that is given in place of a grammar. -/
structure NotGrammar where
  /-- Its kind. -/
  found : Value.Kind

/-- The wording for a value that is no grammar. -/
def NotGrammar.message (e : NotGrammar) : String :=
  "grammar must be a Grammar, got " ++ e.found.name

/-- What may be given where a grammar is expected. -/
inductive GrammarSource where
  /-- A grammar. -/
  | grammar (g : Grammar)
  /-- A plain value. -/
  | value (v : Value)

/-- The recognizer of a grammar; plain values are refused. -/
def Recognizer.make (source : GrammarSource) (settings : Settings) :
    Except NotGrammar Recognizer :=
  match source with
  | .grammar g => .ok ⟨g, settings⟩
  | .value v => .error ⟨v.kind⟩

/-- The grammar that is meant, and what is logged about it; a plain value is read as a
descriptor. -/
def GrammarSource.toGrammar (validator : Descriptor.Validator) :
    GrammarSource → Except Descriptor.ReadError (Grammar × List LogEntry)
  | .grammar g => .ok (g, [])
  | .value v => Descriptor.load validator {} v

end Acceptor
