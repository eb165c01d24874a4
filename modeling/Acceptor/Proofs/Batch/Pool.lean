import Acceptor.Batch.Pool
import Acceptor.Proofs.Batch.Job
import Mathlib.Data.List.Perm.Basic

/-!
# Pools of workers

What workers leave behind, by whatever schedule they work.

* `Batch.Pool.Sound.follow`: along every schedule the jobs stay what they were, every job is in a
  phase that fits its input, and on the desk are the timings of the jobs that have come that far.
* `Batch.Pool.left_follow_jobByJob`: after the turns of `Batch.jobByJob` nothing is left to do of any
  job, whatever state the pool was in before.
-/

namespace Acceptor

namespace Batch

open scoped List

variable {r : Recognizer} {job : Job} {phase : Phase} {desk : Desk}

/-! ### One job -/

/-- The phase fits the input of the job. -/
inductive Phase.Fits (r : Recognizer) (job : Job) : Phase → Prop where
  | fresh : Fits r job .fresh
  | tokenized {t : Tokenized} (h : job.input.toStream = .ok t.stream) : Fits r job (.tokenized t)
  | recognized {w : TokenStream} {found : Recognized} (h : job.input.toStream = .ok w)
      (hfound : Finds r job w found) : Fits r job (.recognized found)
  | timed {w : TokenStream} {found : Recognized} (h : job.input.toStream = .ok w)
      (hfound : Finds r job w found) : Fits r job (.timed found)
  | finished {result : Except BatchError Outcome} (h : Comes r job result) :
      Fits r job (.finished result)

/-- How many parts of the job are left. -/
def Phase.left : Phase → ℕ
  | .fresh => 4
  | .tokenized _ => 3
  | .recognized _ => 2
  | .timed _ => 1
  | .finished _ => 0

/-- The name and the number of tokens of a job whose timing was taken down. -/
def Run.timed? (run : Run) : Option (String × ℤ) := if run.phase.left ≤ 1 then run.job.size? else none

theorem Phase.left_advance (r : Recognizer) (desk : Desk) (job : Job) (phase : Phase) :
    (phase.advance r desk job).1.left ≤ phase.left - 1 := by
  fun_cases Phase.advance r desk job phase <;> simp [left]

theorem Phase.isBusy_eq_false_iff : phase.isBusy = false ↔ phase.left = 0 := by
  cases phase <;> simp [isBusy, result?, left]

/-- The next part of a job: the phase fits again, and its timing is taken down as soon as the phase
says so. -/
theorem Phase.Fits.advance (h : phase.Fits r job) (desk : Desk) :
    ∃ added, (phase.advance r desk job).1.Fits r job ∧
      desk.Adds added (phase.advance r desk job).2 ∧
      added.map size ++ (Run.timed? ⟨job, phase⟩).toList =
        (Run.timed? ⟨job, (phase.advance r desk job).1⟩).toList := by
  cases h with
  | fresh =>
    cases hstream : job.input.toStream with
    | error e =>
      obtain ⟨desk', htokenize, hadds⟩ := tokenize_of_error hstream desk
      simp only [Phase.advance, htokenize]
      exact ⟨[], .finished (.fault hstream), hadds, by simp [Run.timed?, left, Job.size?, hstream]⟩
    | ok w =>
      obtain ⟨watch, desk', htokenize, hadds⟩ := tokenize_of_ok hstream desk
      simp only [Phase.advance, htokenize]
      exact ⟨[], .tokenized hstream, hadds, by simp [Run.timed?, left]⟩
  | @tokenized t hstream =>
    obtain ⟨found, desk', hrecognize, hfound, hadds⟩ := recognize_finds (r := r) desk job t
    simp only [Phase.advance, hrecognize]
    exact ⟨[], .recognized hstream hfound, hadds, by simp [Run.timed?, left]⟩
  | @recognized w found hstream hfound =>
    refine ⟨[found.timing], .timed hstream hfound, desk.adds_addTiming _, ?_⟩
    simp [Run.timed?, left, Phase.advance, Job.size?, hstream, hfound.size]
  | timed hstream hfound =>
    refine ⟨[], .finished (.outcome hstream hfound.outcome), desk.adds_addEntry hfound.level, ?_⟩
    simp [Run.timed?, left, Phase.advance]
  | finished hcomes => exact ⟨[], .finished hcomes, .of_eq rfl rfl, by simp [Phase.advance]⟩

namespace Pool

variable {jobs : List Job} {pool : Pool} {place : ℕ}

/-! ### Turns -/

theorem take_cases (r : Recognizer) (pool : Pool) :
    pool.take r = pool ∨
      ∃ job waiting, pool.waiting = job :: waiting ∧ pool.hasFree r = true ∧
        pool.take r = ⟨waiting, pool.runs ++ [⟨job, .fresh⟩], pool.desk⟩ := by
  fun_cases Pool.take r pool with
  | case1 => exact .inl rfl
  | case2 job waiting hwaiting hfree => exact .inr ⟨job, waiting, hwaiting, hfree, rfl⟩
  | case3 => exact .inl rfl

/-- A turn is that of a free worker, or that of a job that was taken. -/
theorem turn_cases (r : Recognizer) (pool : Pool) (place : ℕ) :
    (pool.runs.length ≤ place ∧ pool.turn r place = pool.take r) ∨
      ∃ before run after, before.length = place ∧ pool.runs = before ++ run :: after ∧
        pool.turn r place =
          ⟨pool.waiting,
            before ++ ⟨run.job, (run.phase.advance r pool.desk run.job).1⟩ :: after,
            (run.phase.advance r pool.desk run.job).2⟩ := by
  cases hrun : pool.runs[place]? with
  | none => exact .inl ⟨List.getElem?_eq_none_iff.1 hrun, by simp only [Pool.turn, hrun]⟩
  | some run =>
    obtain ⟨hplace, rfl⟩ := List.getElem?_eq_some_iff.1 hrun
    refine .inr ⟨pool.runs.take place, pool.runs[place], pool.runs.drop (place + 1), ?_, ?_, ?_⟩
    · exact List.length_take_of_le hplace.le
    · rw [← List.drop_eq_getElem_cons hplace, List.take_append_drop]
    · simp only [Pool.turn, hrun, List.set_eq_take_append_cons_drop, hplace, ↓reduceIte]

/-! ### Soundness -/

/-- What holds of a pool that was given some jobs at a desk. -/
structure Sound (r : Recognizer) (jobs : List Job) (desk : Desk) (pool : Pool) : Prop where
  /-- The jobs that were taken and those that wait are the jobs. -/
  jobs : pool.runs.map Run.job ++ pool.waiting = jobs
  /-- All phases fit. -/
  fits : ∀ run ∈ pool.runs, run.phase.Fits r run.job
  /-- The timings were taken down, in some order, of the jobs that have come that far. -/
  desk : ∃ added, desk.Adds added pool.desk ∧ (added.map size).Perm (pool.runs.filterMap Run.timed?)

theorem Sound.init (r : Recognizer) (jobs : List Job) (desk : Desk) :
    Sound r jobs desk ⟨jobs, [], desk⟩ where
  jobs := rfl
  fits := by simp
  desk := ⟨[], .of_eq rfl rfl, .nil⟩

theorem Sound.take (h : Sound r jobs desk pool) : Sound r jobs desk (pool.take r) := by
  rcases take_cases r pool with hsame | ⟨job, waiting, hwaiting, -, htake⟩
  · rwa [hsame]
  · rw [htake]
    refine ⟨?_, ?_, ?_⟩
    · simpa [hwaiting] using h.jobs
    · rw [List.forall_mem_append, List.forall_mem_singleton]
      exact ⟨h.fits, .fresh⟩
    · simpa [Run.timed?, Phase.left] using h.desk

/-- **Every turn keeps a pool sound.** -/
theorem Sound.turn (h : Sound r jobs desk pool) (place : ℕ) :
    Sound r jobs desk (pool.turn r place) := by
  rcases turn_cases r pool place with ⟨-, htake⟩ | ⟨before, run, after, -, hruns, hturn⟩
  · rw [htake]
    exact h.take
  · have hfits := h.fits
    rw [hruns, List.forall_mem_append, List.forall_mem_cons] at hfits
    obtain ⟨hbefore, hrun, hafter⟩ := hfits
    obtain ⟨added, hadvance, hadds, htimed⟩ := hrun.advance pool.desk
    obtain ⟨sofar, hdesk, hperm⟩ := h.desk
    rw [hturn]
    refine ⟨?_, ?_, sofar ++ added, hdesk.trans hadds, ?_⟩
    · simpa [hruns] using h.jobs
    · rw [List.forall_mem_append, List.forall_mem_cons]
      exact ⟨hbefore, hadvance, hafter⟩
    · rw [hruns] at hperm
      simp only [List.filterMap_eq_flatMap_toList, List.flatMap_append, List.flatMap_cons] at hperm ⊢
      rw [← htimed, List.map_append]
      calc sofar.map size ++ added.map size
        _ ~ added.map size ++ sofar.map size := List.perm_append_comm
        _ ~ added.map size ++ (before.flatMap (fun run => run.timed?.toList) ++
              (run.timed?.toList ++ after.flatMap fun run => run.timed?.toList)) :=
          hperm.append_left _
        _ ~ _ := by
          rw [List.append_assoc]
          exact List.perm_append_comm_assoc ..

/-- **Along every schedule a pool stays sound.** -/
theorem Sound.follow (h : Sound r jobs desk pool) (schedule : List ℕ) :
    Sound r jobs desk (pool.follow r schedule) := by
  induction schedule generalizing pool with
  | nil => exact h
  | cons place schedule ih => exact ih (h.turn place)

/-! ### Progress -/

/-- How many turns of the job at a place are left. -/
def left (pool : Pool) (place : ℕ) : ℕ := (pool.runs[place]?.map fun run => run.phase.left).getD 5

theorem left_le (pool : Pool) (place : ℕ) : pool.left place ≤ 5 := by
  unfold left
  cases pool.runs[place]? with
  | none => simp
  | some run => cases hphase : run.phase <;> simp [hphase, Phase.left]

theorem lt_length_of_left_eq_zero (h : pool.left place = 0) : place < pool.runs.length := by
  by_contra hplace
  rw [left, List.getElem?_eq_none_iff.2 (not_lt.1 hplace)] at h
  cases h

/-- No turn undoes anything. -/
theorem left_turn_le (r : Recognizer) (pool : Pool) (place other : ℕ) :
    (pool.turn r place).left other ≤ pool.left other := by
  rcases turn_cases r pool place with ⟨-, htake⟩ | ⟨before, run, after, -, hruns, hturn⟩
  · rcases take_cases r pool with hsame | ⟨job, waiting, -, -, hadded⟩
    · rw [htake, hsame]
    · rw [htake, hadded]
      unfold left
      rcases lt_or_ge other pool.runs.length with hother | hother
      · rw [List.getElem?_append_left hother]
      · rw [List.getElem?_eq_none_iff.2 hother]
        exact left_le ⟨waiting, pool.runs ++ [⟨job, .fresh⟩], pool.desk⟩ other
  · have hadvance := run.phase.left_advance r pool.desk run.job
    rw [hturn]
    unfold left
    rw [hruns]
    rcases lt_trichotomy other before.length with hother | rfl | hother
    · rw [List.getElem?_append_left hother, List.getElem?_append_left hother]
    · simp
      omega
    · simp [List.getElem?_append_right hother.le, List.getElem?_cons, Nat.sub_ne_zero_of_lt hother]

theorem left_follow_le (r : Recognizer) (pool : Pool) (schedule : List ℕ) (place : ℕ) :
    (pool.follow r schedule).left place ≤ pool.left place := by
  induction schedule generalizing pool with
  | nil => exact le_rfl
  | cons next schedule ih => exact (ih _).trans (left_turn_le r pool next place)

theorem phase_left_eq_zero (h : ∀ place < pool.runs.length, pool.left place = 0) :
    ∀ run ∈ pool.runs, run.phase.left = 0 := by
  intro run hrun
  obtain ⟨place, hplace, rfl⟩ := List.getElem_of_mem hrun
  have hleft := h place hplace
  rwa [left, List.getElem?_eq_getElem hplace] at hleft

theorem busy_eq_zero (h : ∀ place < pool.runs.length, pool.left place = 0) : pool.busy = 0 := by
  rw [busy, List.countP_eq_zero]
  intro run hrun
  rw [Bool.not_eq_true, Phase.isBusy_eq_false_iff]
  exact phase_left_eq_zero h run hrun

/-- When no turns are left, all jobs were taken and are finished. -/
theorem Sound.finished (h : Sound r jobs desk pool)
    (hzero : ∀ place < jobs.length, pool.left place = 0) :
    pool.runs.map Run.job = jobs ∧ ∀ run ∈ pool.runs, run.phase.left = 0 := by
  have hjobs := congrArg List.length h.jobs
  rw [List.length_append, List.length_map] at hjobs
  have htaken : jobs.length ≤ pool.runs.length := by
    by_contra hlt
    exact absurd (lt_length_of_left_eq_zero (hzero _ (not_le.1 hlt))) (lt_irrefl _)
  have hwaiting : pool.waiting = [] := List.eq_nil_of_length_eq_zero (by omega)
  refine ⟨?_, phase_left_eq_zero fun place hplace => hzero place (by omega)⟩
  simpa [hwaiting] using h.jobs

section

variable (hworker : (Value.int 0).less r.settings.maxWorkers = true)
include hworker

/-- When all jobs before it are finished, the turn of a job does a part of it. -/
theorem left_turn (h : Sound r jobs desk pool) (hplace : place < jobs.length)
    (hbefore : ∀ other < place, pool.left other = 0) :
    (pool.turn r place).left place ≤ pool.left place - 1 := by
  rcases turn_cases r pool place with ⟨hlength, htake⟩ | ⟨before, run, after, rfl, hruns, hturn⟩
  · -- all workers are free, and this job is the next
    have hle : place ≤ pool.runs.length := by
      by_contra hlt
      exact absurd (lt_length_of_left_eq_zero (hbefore _ (not_le.1 hlt))) (lt_irrefl _)
    obtain rfl : place = pool.runs.length := le_antisymm hle hlength
    have hfree : pool.hasFree r = true := by
      rw [hasFree, busy_eq_zero hbefore]
      exact hworker
    cases hwaiting : pool.waiting with
    | nil =>
      have hjobs := congrArg List.length h.jobs
      simp only [hwaiting, List.append_nil, List.length_map] at hjobs
      omega
    | cons job waiting =>
      rw [htake]
      simp [take, hwaiting, hfree, left, Phase.left]
  · have hadvance := run.phase.left_advance r pool.desk run.job
    rw [hturn]
    simpa [left, hruns] using hadvance

theorem left_follow_replicate (h : Sound r jobs desk pool) (hplace : place < jobs.length)
    (hbefore : ∀ other < place, pool.left other = 0) (n : ℕ) :
    (pool.follow r (List.replicate n place)).left place ≤ pool.left place - n := by
  induction n generalizing pool with
  | zero => exact le_rfl
  | succ n ih =>
    have hturn := left_turn hworker h hplace hbefore
    have hrest := ih (h.turn place) fun other hother =>
      Nat.eq_zero_of_le_zero ((left_turn_le r pool place other).trans_eq (hbefore other hother))
    calc (pool.follow r (List.replicate (n + 1) place)).left place
      _ = ((pool.turn r place).follow r (List.replicate n place)).left place := rfl
      _ ≤ pool.left place - (n + 1) := by omega

/-- **Job by job, all jobs are finished**, whatever state the pool is in. -/
theorem left_follow_jobByJob (h : Sound r jobs desk pool) {n : ℕ} (hn : n ≤ jobs.length) :
    ∀ place < n, (pool.follow r (jobByJob n)).left place = 0 := by
  induction n with
  | zero => nofun
  | succ n ih =>
    have hsplit : pool.follow r (jobByJob (n + 1)) =
        (pool.follow r (jobByJob n)).follow r (List.replicate 5 n) := by
      simp [jobByJob, List.range_succ, follow]
    have hbefore := ih (by omega)
    intro place hplace
    rw [hsplit]
    rcases Nat.lt_succ_iff_lt_or_eq.1 hplace with hlt | rfl
    · exact Nat.eq_zero_of_le_zero ((left_follow_le r _ _ place).trans_eq (hbefore place hlt))
    · have hlast := left_follow_replicate hworker (h.follow _) hn hbefore 5
      have hle := left_le (pool.follow r (jobByJob place)) place
      omega

end

end Pool

end Batch

end Acceptor
