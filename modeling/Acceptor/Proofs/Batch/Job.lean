import Acceptor.Batch.Job
import Acceptor.Proofs.Recognizer.Outcome

/-!
# What comes of the inputs of a batch

A job that is done answers what recognizing its input alone answers (`Batch.Comes`), whatever lies
on the desk, and all it leaves there besides log entries that are no notices is its timing
(`Batch.Desk.Adds`).
-/

namespace Acceptor

namespace Batch

/-! ### The desk -/

/-- The entries of the log that concern the whole batch. -/
def Desk.notices (desk : Desk) : List LogEntry := desk.log.filter fun entry => entry.level = .info

/-- Between two states of the desk, timings were added and nothing was noted about the batch. -/
structure Desk.Adds (desk : Desk) (added : List RunTiming) (desk' : Desk) : Prop where
  runs : desk'.timing.runs = desk.timing.runs ++ added
  wallTime : desk'.timing.wallTime = desk.timing.wallTime
  notices : desk'.notices = desk.notices

theorem Desk.Adds.of_eq {desk desk' : Desk} (htiming : desk'.timing = desk.timing)
    (hnotices : desk'.notices = desk.notices) : desk.Adds [] desk' where
  runs := by rw [htiming, List.append_nil]
  wallTime := by rw [htiming]
  notices := hnotices

theorem Desk.Adds.trans {desk desk' desk'' : Desk} {added added' : List RunTiming}
    (h : desk.Adds added desk') (h' : desk'.Adds added' desk'') :
    desk.Adds (added ++ added') desk'' where
  runs := by rw [h'.runs, h.runs, List.append_assoc]
  wallTime := h'.wallTime.trans h.wallTime
  notices := h'.notices.trans h.notices

theorem Desk.adds_addTiming (desk : Desk) (t : RunTiming) : desk.Adds [t] (desk.addTiming t) :=
  ⟨rfl, rfl, rfl⟩

theorem Desk.adds_addEntry (desk : Desk) {entry : LogEntry} (h : entry.level ≠ .info) :
    desk.Adds [] (desk.addEntry entry) :=
  .of_eq rfl (by simp [notices, addEntry, h])

/-! ### Jobs -/

variable {r : Recognizer} {desk : Desk} {job : Job} {w : TokenStream}

/-- The name and the number of tokens that a timing has. -/
def size (t : RunTiming) : String × ℤ := (t.runId, t.tokens)

/-- Those of a job whose input is a token stream. -/
def Job.size? (job : Job) : Option (String × ℤ) :=
  match job.input.toStream with
  | .ok w => some (runId job.index, w.length)
  | .error _ => none

/-- But for the time, the outcome has the result or the error of recognizing the stream alone. -/
def Agrees (r : Recognizer) (w : TokenStream) (o : Outcome) : Prop :=
  ∀ clock, (r.recognize clock w).outcome.map Result.untimed =
    (o.result.map Result.untimed).mapError fun c => .search (.cyclic c)

/-- The outcome is that of a job with this stream. -/
structure Answers (r : Recognizer) (job : Job) (w : TokenStream) (o : Outcome) : Prop where
  index : o.index = job.index
  agrees : Agrees r w o

/-- What comes of a job. -/
inductive Comes (r : Recognizer) (job : Job) : Except BatchError Outcome → Prop where
  /-- Its input is no token stream. -/
  | fault {e : TokenError} (h : job.input.toStream = .error e) : Comes r job (.error (.tokens e))
  /-- It is, and has an outcome. -/
  | outcome {w : TokenStream} {o : Outcome} (h : job.input.toStream = .ok w)
      (ho : Answers r job w o) : Comes r job (.ok o)

/-- What is to be taken down about a job whose stream was recognized. -/
structure Finds (r : Recognizer) (job : Job) (w : TokenStream) (found : Recognized) : Prop where
  outcome : Answers r job w found.outcome
  size : size found.timing = (runId job.index, (w.length : ℤ))
  level : found.entry.level ≠ .info

theorem tokenize_of_error {e : TokenError} (h : job.input.toStream = .error e) (desk : Desk) :
    ∃ desk', desk.tokenize job = (.error (.tokens e), desk') ∧ desk.Adds [] desk' := by
  simp only [Desk.tokenize, Clock.timed, h]
  exact ⟨_, rfl, .of_eq rfl rfl⟩

theorem tokenize_of_ok (h : job.input.toStream = .ok w) (desk : Desk) :
    ∃ watch desk', desk.tokenize job = (.ok ⟨w, watch⟩, desk') ∧ desk.Adds [] desk' := by
  simp only [Desk.tokenize, Clock.timed, h]
  exact ⟨_, _, rfl, .of_eq rfl rfl⟩

/-- The recognizer's own log has no notices. -/
theorem filter_recognize_log (clock : Clock) (w : TokenStream) :
    (r.recognize clock w).log.filter (fun entry => entry.level = .info) = [] := by
  unfold Recognizer.recognize Clock.timed
  cases r.judge w with
  | error e => rfl
  | ok j =>
    simp only [Recognizer.resultLog]
    split <;> rfl

/-- The outcome of one recognition is that of all others. -/
theorem Answers.of_recognize {clock : Clock} {result : Except CyclicGrammar Result}
    (h : (r.recognize clock w).outcome = result.mapError fun c => .search (.cyclic c)) :
    Answers r job w ⟨job.index, result⟩ where
  index := rfl
  agrees clock' := by
    rw [r.recognize_untimed clock' w, ← r.recognize_untimed clock w, h]
    cases result <;> rfl

theorem recognize_finds (desk : Desk) (job : Job) (t : Tokenized) :
    ∃ found desk', desk.recognize r job t = (.ok found, desk') ∧ Finds r job t.stream found ∧
      desk.Adds [] desk' := by
  have hlog := filter_recognize_log (r := r) desk.clock.next t.stream
  have hnotices (clock : Clock) : Desk.notices ⟨clock, desk.timing,
      desk.log ++ (r.recognize desk.clock.next t.stream).log⟩ = desk.notices := by
    rw [Desk.notices, List.filter_append, hlog, List.append_nil]
    rfl
  rcases r.recognize_cases desk.clock.next t.stream with ⟨_, v, -, -, -, ho⟩ | ⟨c, _, ho, -⟩
  · have hanswers : Answers r job t.stream ⟨job.index, .ok _⟩ := .of_recognize ho
    simp only [Desk.recognize, Clock.timed, ho]
    exact ⟨_, _, rfl, ⟨hanswers, rfl, nofun⟩, .of_eq rfl (hnotices _)⟩
  · have hanswers : Answers r job t.stream ⟨job.index, .error c⟩ := .of_recognize ho
    simp only [Desk.recognize, Clock.timed, ho]
    exact ⟨_, _, rfl, ⟨hanswers, rfl, nofun⟩, .of_eq rfl (hnotices _)⟩

/-- A job that is done alone. -/
theorem runOne_comes (desk : Desk) (job : Job) :
    ∃ result added desk', runOne r desk job = (result, desk') ∧ Comes r job result ∧
      desk.Adds added desk' ∧ added.map size = job.size?.toList := by
  cases h : job.input.toStream with
  | error e =>
    obtain ⟨desk', htokenize, hadds⟩ := tokenize_of_error h desk
    exact ⟨_, [], desk', by simp only [runOne, htokenize], .fault h, hadds, by simp [Job.size?, h]⟩
  | ok w =>
    obtain ⟨watch, desk₁, htokenize, hadds₁⟩ := tokenize_of_ok h desk
    obtain ⟨found, desk₂, hrecognize, hfound, hadds₂⟩ := recognize_finds (r := r) desk₁ job ⟨w, watch⟩
    refine ⟨.ok found.outcome, [found.timing], (desk₂.addTiming found.timing).addEntry found.entry,
      ?_, .outcome h hfound.outcome, ?_, ?_⟩
    · simp only [runOne, htokenize, hrecognize]
    · exact ((hadds₁.trans hadds₂).trans (desk₂.adds_addTiming _)).trans
        (Desk.adds_addEntry _ hfound.level)
    · simp [Job.size?, h, hfound.size]

end Batch

end Acceptor
