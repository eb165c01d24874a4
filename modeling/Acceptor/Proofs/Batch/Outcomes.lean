import Acceptor.Batch.Run
import Acceptor.Proofs.Batch.Pool
import Mathlib.Data.List.Forall2

/-!
# The outcomes of batches

Whether the inputs of a batch are recognized one after the other or by several workers, what comes
of them is the same (`Batch.Gathers`), and so is what they leave on the desk, but for its order.

* `Batch.recognizeMany_outcomes`: **a batch answers what recognizing each input alone answers**,
  whatever the schedule of its workers; and if some inputs are no token streams, it fails with the
  error of the first of them.
-/

namespace Acceptor

/-! ### Kinds of outcomes -/

namespace Outcome

/-- The input has a result, and it is rejected. -/
def rejected (o : Outcome) : Bool :=
  match o.result with
  | .ok result => !result.verdict.isAccepted
  | .error _ => false

/-- Every outcome is of exactly one kind. -/
theorem countP_kinds (outcomes : List Outcome) :
    outcomes.countP accepted + outcomes.countP rejected + outcomes.countP failed =
      outcomes.length := by
  induction outcomes with
  | nil => rfl
  | cons o outcomes ih =>
    have ho : (if o.accepted then 1 else 0) + (if o.rejected then 1 else 0) +
        (if o.failed then 1 else 0) = 1 := by
      cases hresult : o.result with
      | error c => simp [accepted, rejected, failed, hresult]
      | ok result => cases hv : result.verdict.isAccepted <;>
          simp [accepted, rejected, failed, hresult, hv]
    simp only [List.countP_cons, List.length_cons]
    omega

end Outcome

namespace Batch

open scoped List

variable {r : Recognizer} {desk : Desk} {jobs : List Job}

/-! ### Gathering -/

/-- What comes of a list of jobs, looked at in order: their outcomes, or the first fault. -/
inductive Gathers (r : Recognizer) : List Job → Except BatchError (List Outcome) → Prop where
  | nil : Gathers r [] (.ok [])
  | fault {job : Job} {jobs : List Job} {e : TokenError} (h : job.input.toStream = .error e) :
      Gathers r (job :: jobs) (.error (.tokens e))
  | later {job : Job} {jobs : List Job} {o : Outcome} {e : BatchError} (h : Comes r job (.ok o))
      (hjobs : Gathers r jobs (.error e)) : Gathers r (job :: jobs) (.error e)
  | cons {job : Job} {jobs : List Job} {o : Outcome} {os : List Outcome}
      (h : Comes r job (.ok o)) (hjobs : Gathers r jobs (.ok os)) :
      Gathers r (job :: jobs) (.ok (o :: os))

theorem gathers_mapM {results : List (Except BatchError Outcome)}
    (h : List.Forall₂ (Comes r) jobs results) : Gathers r jobs (results.mapM id) := by
  induction h with
  | nil => exact .nil
  | @cons job result jobs results hcomes _ ih =>
    rw [List.mapM_cons]
    cases hcomes with
    | fault hstream => exact .fault hstream
    | outcome hstream ho =>
      cases hrest : results.mapM id with
      | error e =>
        rw [hrest] at ih
        exact .later (.outcome hstream ho) ih
      | ok os =>
        rw [hrest] at ih
        exact .cons (.outcome hstream ho) ih

/-- If all inputs are token streams, there are outcomes, which agree with them. -/
theorem Gathers.exists_outcomes {result : Except BatchError (List Outcome)}
    {streams : List TokenStream} (h : Gathers r jobs result)
    (hstreams : List.Forall₂ (fun job w => job.input.toStream = .ok w) jobs streams) :
    ∃ os, result = .ok os ∧ os.map Outcome.index = jobs.map Job.index ∧
      List.Forall₂ (Agrees r) streams os := by
  induction h generalizing streams with
  | nil =>
    cases hstreams
    exact ⟨[], rfl, rfl, .nil⟩
  | fault hstream =>
    cases hstreams with
    | cons hw => cases hstream.symm.trans hw
  | later _ _ ih =>
    cases hstreams with
    | cons _ hrest =>
      obtain ⟨os, hos, -⟩ := ih hrest
      cases hos
  | cons hcomes _ ih =>
    cases hstreams with
    | cons hw hrest =>
      obtain ⟨os, hos, hindex, hagree⟩ := ih hrest
      cases hos
      cases hcomes with
      | outcome hstream ho =>
        cases hw.symm.trans hstream
        refine ⟨_, rfl, ?_, .cons ho.agrees hagree⟩
        rw [List.map_cons, List.map_cons, hindex, ho.index]

/-- Otherwise the first input that is none is the fault. -/
theorem Gathers.eq_error {before after : List Job} {job : Job} {e : TokenError}
    {result : Except BatchError (List Outcome)} (h : Gathers r (before ++ job :: after) result)
    (hbefore : ∀ job ∈ before, ∃ w, job.input.toStream = .ok w)
    (hjob : job.input.toStream = .error e) : result = .error (.tokens e) := by
  induction before generalizing result with
  | nil =>
    cases h with
    | fault hstream => rw [Except.error.inj (hjob.symm.trans hstream)]
    | later hcomes =>
      cases hcomes with
      | outcome hstream => cases hjob.symm.trans hstream
    | cons hcomes =>
      cases hcomes with
      | outcome hstream => cases hjob.symm.trans hstream
  | cons first before ih =>
    rw [List.forall_mem_cons] at hbefore
    obtain ⟨⟨w, hw⟩, hbefore⟩ := hbefore
    cases h with
    | fault hstream => cases hstream.symm.trans hw
    | later _ hrest => exact ih hrest hbefore
    | cons _ hrest => cases ih hrest hbefore

/-- The jobs were all gathered from a desk, and the timings of those with outcomes are on it. -/
structure Gathered (r : Recognizer) (desk : Desk) (jobs : List Job)
    (done : Except BatchError (List Outcome) × Desk) : Prop where
  result : Gathers r jobs done.1
  desk : ∃ added, desk.Adds added done.2 ∧
    ∀ os, done.1 = .ok os → added.map size ~ jobs.filterMap Job.size?

/-! ### One after the other -/

theorem runInline_gathered (r : Recognizer) (desk : Desk) (jobs : List Job) :
    Gathered r desk jobs (runInline r desk jobs) := by
  induction jobs generalizing desk with
  | nil => exact ⟨.nil, [], .of_eq rfl rfl, fun _ _ => .nil⟩
  | cons job jobs ih =>
    obtain ⟨result, added, desk', hrun, hcomes, hadds, hsize⟩ := runOne_comes (r := r) desk job
    cases hcomes with
    | fault hstream =>
      simp only [runInline, hrun]
      exact ⟨.fault hstream, added, hadds, nofun⟩
    | @outcome w o hstream ho =>
      obtain ⟨hgathers, others, hothers, hsizes⟩ := ih desk'
      generalize hrest : runInline r desk' jobs = rest at *
      obtain ⟨result, desk''⟩ := rest
      cases result with
      | error e =>
        simp only [runInline, hrun, hrest]
        exact ⟨.later (.outcome hstream ho) hgathers, _, hadds.trans hothers, nofun⟩
      | ok os =>
        simp only [runInline, hrun, hrest]
        refine ⟨.cons (.outcome hstream ho) hgathers, _, hadds.trans hothers, fun _ _ => ?_⟩
        rw [List.map_append, hsize, List.filterMap_eq_flatMap_toList, List.flatMap_cons,
          ← List.filterMap_eq_flatMap_toList]
        exact (hsizes os rfl).append_left _

/-! ### By several workers -/

theorem less_zero_of_less_one {v : Value} (h : (Value.int 1).less v = true) :
    (Value.int 0).less v = true := by
  have hint (n : ℤ) : (Value.int n).magnitude? = some (.finite n 1) := rfl
  unfold Value.less at h ⊢
  rw [hint] at h ⊢
  cases hv : v.magnitude? with
  | none => simp [hv] at h
  | some m =>
    cases m with
    | finite num den =>
      simp only [hv, Magnitude.less, decide_eq_true_eq] at h ⊢
      omega
    | infinite negative => simpa [hv, Magnitude.less] using h

theorem forall₂_of_finished {runs : List Run} (hfits : ∀ run ∈ runs, run.phase.Fits r run.job)
    (hleft : ∀ run ∈ runs, run.phase.left = 0) :
    List.Forall₂ (Comes r) (runs.map Run.job) (runs.filterMap fun run => run.phase.result?) := by
  induction runs with
  | nil => exact .nil
  | cons run runs ih =>
    rw [List.forall_mem_cons] at hfits hleft
    obtain ⟨job, phase⟩ := run
    cases phase with
    | finished result =>
      cases hfits.1 with
      | finished hcomes => exact .cons hcomes (ih hfits.2 hleft.2)
    | _ => cases hleft.1

theorem filterMap_timed?_of_finished {runs : List Run} (hleft : ∀ run ∈ runs, run.phase.left = 0) :
    runs.filterMap Run.timed? = (runs.map Run.job).filterMap Job.size? := by
  rw [List.filterMap_map]
  refine List.filterMap_congr fun run hrun => ?_
  simp [Run.timed?, hleft run hrun]

theorem pooled_gathered (hworkers : r.settings.severalWorkers = true) (desk : Desk)
    (jobs : List Job) (arrange : List ℕ → List ℕ) :
    Gathered r desk jobs (pooled r desk jobs arrange) := by
  have hstart := (Pool.Sound.init r jobs desk).follow (arrange (jobByJob jobs.length))
  have hzero := Pool.left_follow_jobByJob (less_zero_of_less_one hworkers) hstart le_rfl
  have hsound := hstart.follow (jobByJob jobs.length)
  unfold pooled
  simp only [Pool.follow, List.foldl_append] at hzero hsound ⊢
  generalize List.foldl _ (List.foldl _ _ _) _ = pool at hzero hsound ⊢
  obtain ⟨hjobs, hleft⟩ := hsound.finished hzero
  have hcomes := forall₂_of_finished hsound.fits hleft
  obtain ⟨added, hadds, hperm⟩ := hsound.desk
  rw [filterMap_timed?_of_finished hleft] at hperm
  rw [hjobs] at hcomes hperm
  exact ⟨gathers_mapM hcomes, added, hadds, fun _ _ => hperm⟩

/-! ### Whole batches -/

theorem outcomesMessage_eq (outcomes : List Outcome) :
    outcomesMessage outcomes =
      "Recognized " ++ toString outcomes.length ++ " inputs: " ++
        toString (outcomes.countP Outcome.accepted) ++ " accepted, " ++
        toString (outcomes.countP Outcome.rejected) ++ " rejected, " ++
        toString (outcomes.countP Outcome.failed) ++ " grammar errors" := by
  have hkinds := Outcome.countP_kinds outcomes
  simp only [List.countP_eq_length_filter] at hkinds ⊢
  have hrejected : Int.ofNat outcomes.length - (outcomes.filter Outcome.accepted).length -
      (outcomes.filter Outcome.failed).length = (outcomes.filter Outcome.rejected).length := by
    simp only [Int.ofNat_eq_natCast]
    omega
  have htext (n : ℕ) : toString (n : ℤ) = toString n := rfl
  unfold outcomesMessage
  dsimp only
  rw [hrejected, htext]

/-- A batch gathers what comes of its inputs and adds a notice if all of them have outcomes. -/
theorem recognizeMany_cases (r : Recognizer) (inputs : List TokenSource)
    (arrange : List ℕ → List ℕ) (clock : Clock) (timing : TimingLog) :
    ∃ result desk, Gathered r ⟨clock.next, timing, []⟩ (jobsOf inputs) (result, desk) ∧
      (∀ e, result = .error e → ∃ clock',
        recognizeMany r inputs arrange clock timing = (.error e, { desk with clock := clock' })) ∧
      ∀ os, result = .ok os → ∃ clock' wallTime summary,
        recognizeMany r inputs arrange clock timing =
          (.ok os, ⟨clock', desk.timing.finish wallTime,
            desk.log ++ [⟨.batch, .info, outcomesMessage os⟩] ++ summary⟩) ∧
        summary.filter (fun entry => entry.level = .info) = [] := by
  have hgathered : Gathered r ⟨clock.next, timing, []⟩ (jobsOf inputs)
      (if usesPool r.settings (jobsOf inputs) then
        pooled r ⟨clock.next, timing, []⟩ (jobsOf inputs) arrange
      else runInline r ⟨clock.next, timing, []⟩ (jobsOf inputs)) := by
    split
    · next huses => exact pooled_gathered (Bool.and_eq_true_iff.1 huses).2 _ _ _
    · exact runInline_gathered _ _ _
  simp only [recognizeMany, Clock.timed]
  generalize (if usesPool r.settings (jobsOf inputs) = true then _ else _) = done at hgathered ⊢
  obtain ⟨result, desk⟩ := done
  refine ⟨result, desk, hgathered, ?_, ?_⟩
  · rintro e rfl
    exact ⟨_, rfl⟩
  · rintro os rfl
    refine ⟨_, _, _, rfl, ?_⟩
    split <;> rfl

theorem jobsOf_index (inputs : List TokenSource) :
    (jobsOf inputs).map Job.index = List.range inputs.length := by
  rw [jobsOf, List.map_map, List.range_eq_range', ← List.zipIdx_map_snd]
  rfl

theorem jobsOf_split {inputs : List TokenSource} {i : ℕ} {input : TokenSource}
    (h : inputs[i]? = some input) :
    ∃ before after, jobsOf inputs = before ++ ⟨i, input⟩ :: after ∧
      ∀ job ∈ before, ∃ j < i, inputs[j]? = some job.input := by
  obtain ⟨hi, rfl⟩ := List.getElem?_eq_some_iff.1 h
  have hlength : i < (jobsOf inputs).length := by simpa [jobsOf] using hi
  have hjob : (jobsOf inputs)[i] = ⟨i, inputs[i]⟩ := by simp [jobsOf]
  refine ⟨(jobsOf inputs).take i, (jobsOf inputs).drop (i + 1), ?_, fun job hmem => ?_⟩
  · rw [← hjob, ← List.drop_eq_getElem_cons hlength, List.take_append_drop]
  · obtain ⟨j, hj, rfl⟩ := List.mem_take_iff_getElem.1 hmem
    refine ⟨j, by omega, ?_⟩
    simp [jobsOf]

theorem forall₂_jobsOf {inputs : List TokenSource} {streams : List TokenStream}
    (h : List.Forall₂ (fun input w => input.toStream = .ok w) inputs streams) :
    List.Forall₂ (fun job w => job.input.toStream = .ok w) (jobsOf inputs) streams := by
  rw [← List.zipIdx_map_fst 0 inputs, List.forall₂_map_left_iff] at h
  rwa [jobsOf, List.forall₂_map_left_iff]

theorem filterMap_size?_zipIdx {inputs : List TokenSource} {streams : List TokenStream}
    (h : List.Forall₂ (fun input w => input.toStream = .ok w) inputs streams) (n : ℕ) :
    ((inputs.zipIdx n).map fun (input, i) => (⟨i, input⟩ : Job)).filterMap Job.size? =
      (streams.zipIdx n).map fun (w, i) => (runId i, (w.length : ℤ)) := by
  induction h generalizing n with
  | nil => rfl
  | cons hw _ ih => simp [List.zipIdx_cons, Job.size?, hw, ih (n + 1)]

/-- **A batch answers what recognizing each input alone answers.**  If all inputs are token streams,
there is one outcome for each, in order, and but for the time it has the result or the error of the
recognition of that input; the timings of all inputs are added in some order; and the only notice
counts the outcomes of each kind, which are all inputs.  Otherwise the batch fails with the error of
the first input that is none, and takes down no time.  All this holds for every schedule of the
workers, as it does without any. -/
theorem recognizeMany_outcomes (r : Recognizer) (inputs : List TokenSource)
    (arrange : List ℕ → List ℕ) (clock : Clock) (timing : TimingLog) :
    (∀ streams, List.Forall₂ (fun input w => input.toStream = .ok w) inputs streams →
      ∃ outcomes desk, recognizeMany r inputs arrange clock timing = (.ok outcomes, desk) ∧
        outcomes.map Outcome.index = List.range inputs.length ∧
        List.Forall₂ (Agrees r) streams outcomes ∧
        (∃ added, desk.timing.runs = timing.runs ++ added ∧
          (added.map fun t => (t.runId, t.tokens)) ~
            streams.zipIdx.map fun (w, i) => (runId i, (w.length : ℤ))) ∧
        outcomes.countP Outcome.accepted + outcomes.countP Outcome.rejected +
          outcomes.countP Outcome.failed = inputs.length ∧
        desk.log.filter (fun entry => entry.level = .info) = [⟨.batch, .info,
          "Recognized " ++ toString inputs.length ++ " inputs: " ++
            toString (outcomes.countP Outcome.accepted) ++ " accepted, " ++
            toString (outcomes.countP Outcome.rejected) ++ " rejected, " ++
            toString (outcomes.countP Outcome.failed) ++ " grammar errors"⟩]) ∧
    ∀ (i : ℕ) (input : TokenSource) (e : TokenError),
      inputs[i]? = some input → input.toStream = .error e →
      (∀ j < i, ∀ other : TokenSource, inputs[j]? = some other → ∃ w, other.toStream = .ok w) →
      ∃ desk, recognizeMany r inputs arrange clock timing = (.error (.tokens e), desk) ∧
        desk.timing.wallTime = timing.wallTime := by
  obtain ⟨result, desk, ⟨hgathers, added, hadds, hsizes⟩, herror, hok⟩ :=
    recognizeMany_cases r inputs arrange clock timing
  constructor
  · intro streams hstreams
    obtain ⟨os, rfl, hindex, hagree⟩ := hgathers.exists_outcomes (forall₂_jobsOf hstreams)
    obtain ⟨clock', wallTime, summary, hrun, hsummary⟩ := hok os rfl
    rw [jobsOf_index] at hindex
    have hlength : os.length = inputs.length := by
      simpa using congrArg List.length hindex
    have hnotices : desk.log.filter (fun entry => entry.level = .info) = [] := hadds.notices
    refine ⟨os, _, hrun, hindex, hagree, ⟨added, hadds.runs, ?_⟩, ?_, ?_⟩
    · rw [← filterMap_size?_zipIdx hstreams 0]
      exact hsizes os rfl
    · rw [Outcome.countP_kinds, hlength]
    · simp [hnotices, hsummary, outcomesMessage_eq, hlength]
  · intro i input e hinput he hfirst
    obtain ⟨before, after, hsplit, hbefore⟩ := jobsOf_split hinput
    rw [hsplit] at hgathers
    have hfault : result = .error (.tokens e) := by
      refine hgathers.eq_error (fun job hjob => ?_) he
      obtain ⟨j, hj, hother⟩ := hbefore job hjob
      exact hfirst j hj _ hother
    obtain ⟨clock', hrun⟩ := herror _ hfault
    exact ⟨_, hrun, hadds.wallTime⟩

/-- A way to the left, and one to the right that leads nowhere. -/
def fork : Grammar where
  rules :=
    [⟨⟨"fork", by decide⟩,
      [[.literal ⟨"left", by decide⟩],
        [.literal ⟨"right", by decide⟩, .nonterminal ⟨"loop", by decide⟩]], by decide⟩,
      ⟨⟨"loop", by decide⟩, [[.nonterminal ⟨"loop", by decide⟩]], by decide⟩]
  start := "fork"
  distinct := by decide
  startDeclared := by decide
  closed := by decide

theorem recognizeMany_outcomes_fork :
    (∃ outcomes desk,
      recognizeMany ⟨fork, {}⟩
        [.value (.text "left"), .value (.text "up down"), .value (.text "right")] List.reverse
        (.start 1) {} = (.ok outcomes, desk) ∧
      outcomes.map Outcome.index = [0, 1, 2] ∧
      List.Forall₂ (Agrees ⟨fork, {}⟩) [.ofText "left", .ofText "up down", .ofText "right"] outcomes ∧
      (desk.timing.runs.map fun t => (t.runId, t.tokens)) ~
        [("input-0", 1), ("input-1", 2), ("input-2", 1)]) ∧
      ∃ desk,
        recognizeMany ⟨fork, {}⟩ [.value (.text "left"), .value .null, .value (.int 3)] List.reverse
          (.start 1) {} = (.error (.tokens (.notIterable .null)), desk) ∧
        desk.timing.wallTime = 0 := by
  obtain ⟨houtcomes, -⟩ := recognizeMany_outcomes ⟨fork, {}⟩
    [.value (.text "left"), .value (.text "up down"), .value (.text "right")] List.reverse (.start 1) {}
  obtain ⟨-, hfault⟩ := recognizeMany_outcomes ⟨fork, {}⟩
    [.value (.text "left"), .value .null, .value (.int 3)] List.reverse (.start 1) {}
  constructor
  · obtain ⟨outcomes, desk, hrun, hindex, hagree, ⟨added, hruns, hsizes⟩, -⟩ :=
      houtcomes _ (.cons rfl (.cons rfl (.cons rfl .nil)))
    refine ⟨outcomes, desk, hrun, hindex, hagree, ?_⟩
    rw [hruns]
    exact hsizes
  · refine hfault 1 _ _ rfl rfl fun j hj other hother => ?_
    obtain rfl : j = 0 := by omega
    cases hother
    exact ⟨_, rfl⟩

end Batch

end Acceptor
