import Acceptor.Proofs.Construction
import Acceptor.Proofs.Recognizer.Outcome

/-!
# Recognition without empty markers

An empty marker derives no token, so it can be left out of every alternative; an alternative that
has nothing else becomes the empty one.  `Grammar.stripped` is the grammar without the markers.

The searches in both grammars are in lock step.  A derivation passes over a marker within the turn
in which it comes to it, so the states of the two searches differ only in the markers among the
symbols that are still to come (`Search.State.stripped`), and one turn in one grammar is one turn in
the other (`Search.step_stripped`).  Hence the memo, the tries and the outcome are the same
(`Search.solve_stripped`), and so is the recognition (`Recognizer.recognize_stripped`).
-/

namespace Acceptor

/-! ### Alternatives, rules and grammars -/

/-- The symbols without the empty markers. -/
def Alternative.stripped (a : Alternative) : Alternative := a.filter (· ≠ .empty)

theorem Alternative.stripped_cons {s : Symbol} (hs : s ≠ .empty) (a : Alternative) :
    stripped (s :: a) = s :: a.stripped :=
  List.filter_cons_of_pos (decide_eq_true hs)

theorem Alternative.filterMap_stripped {f : Symbol → Option String} (hf : f .empty = none)
    (a : Alternative) : a.stripped.filterMap f = a.filterMap f := by
  rw [stripped, List.filterMap_filter]
  refine List.filterMap_congr fun s _ => ?_
  by_cases hs : s = .empty
  · simp [hs, hf]
  · simp [hs]

/-- The rule without the empty markers. -/
def Rule.stripped (r : Rule) : Rule where
  name := r.name
  alternatives := r.alternatives.map Alternative.stripped
  nonempty := by simpa using r.nonempty

theorem Rule.references_stripped (r : Rule) : r.stripped.references = r.references := by
  rw [references, references, stripped, List.flatMap_map]
  exact List.flatMap_congr fun a _ => a.filterMap_stripped rfl

theorem Rule.literals_stripped (r : Rule) : r.stripped.literals = r.literals := by
  rw [literals, literals, stripped, List.flatMap_map]
  exact List.flatMap_congr fun a _ => a.filterMap_stripped rfl

namespace Grammar

theorem ruleNames_stripped (rules : List Rule) :
    ruleNames (rules.map Rule.stripped) = ruleNames rules :=
  List.map_map

/-- The grammar without the empty markers. -/
def stripped (g : Grammar) : Grammar where
  rules := g.rules.map Rule.stripped
  start := g.start
  distinct := by
    rw [ruleNames_stripped]
    exact g.distinct
  startDeclared := by
    rw [ruleNames_stripped]
    exact g.startDeclared
  closed := by
    rw [ruleNames_stripped, List.forall_mem_map]
    intro r hr
    rw [Rule.references_stripped]
    exact g.closed r hr

variable (g : Grammar)

theorem ofRules_stripped :
    ofRules (g.rules.map Rule.stripped) (.text g.start) = .ok g.stripped :=
  ofRules_eq_ok_iff.2 ⟨rfl, rfl⟩

theorem reserved_stripped : g.stripped.reserved = g.reserved := by
  rw [reserved, reserved, stripped, List.flatMap_map]
  exact congrArg _ (List.flatMap_congr fun r _ => r.literals_stripped)

theorem alternatives?_stripped (name : String) :
    g.stripped.alternatives? name =
      (g.alternatives? name).map fun alternatives => alternatives.map Alternative.stripped := by
  have hrule : g.stripped.rule? name = (g.rule? name).map Rule.stripped := List.find?_map
  rw [alternatives?, alternatives?, hrule, Option.map_map, Option.map_map]
  rfl

end Grammar

/-! ### Derivations -/

/-- The pause without markers among the symbols behind the reference. -/
def Pause.stripped (p : Pause) : Pause := { p with rest := p.rest.stripped }

/-- The walk without markers among the symbols that are left. -/
def Walk.stripped : Walk → Walk
  | .through positions => .through positions
  | .waits pause => .waits pause.stripped

/-- The derivation without markers among the symbols that are left. -/
def Waiting.stripped (d : Waiting) : Waiting where
  ends := d.ends
  alternatives := d.alternatives.map Alternative.stripped
  pause := d.pause.stripped

theorem Waiting.request_stripped (d : Waiting) : d.stripped.request = d.request := rfl

/-- The progress without markers among the symbols that are left. -/
def Progress.stripped : Progress → Progress
  | .finished ends => .finished ends
  | .waits d => .waits d.stripped

namespace Derivation

variable {tokens : Array String} {reserved : List String}

theorem walk_stripped (a : Alternative) (starts : List ℕ) :
    walk tokens reserved a.stripped starts =
      ((walk tokens reserved a starts).1, (walk tokens reserved a starts).2.stripped) := by
  induction a generalizing starts with
  | nil => rfl
  | cons s rest ih =>
    by_cases hs : s.isTerminal = true
    · have hne : s ≠ .empty := by
        rintro rfl
        cases hs
      rw [Alternative.stripped_cons hne, walk_terminal hs, walk_terminal hs, ih]
    · cases s with
      | literal => exact absurd rfl hs
      | lexical => exact absurd rfl hs
      | empty => exact ih starts
      | nonterminal name =>
        have hne : Symbol.nonterminal name ≠ .empty := nofun
        rw [Alternative.stripped_cons hne]
        cases starts with
        | nil => exact ih []
        | cons start later => rfl

theorem explore_stripped (origin : ℕ) (ends : List ℕ) (alternatives : List Alternative) :
    explore tokens reserved origin ends (alternatives.map Alternative.stripped) =
      ((explore tokens reserved origin ends alternatives).1,
        (explore tokens reserved origin ends alternatives).2.stripped) := by
  induction alternatives generalizing ends with
  | nil => rfl
  | cons a alternatives ih =>
    rw [List.map_cons, explore, explore, walk_stripped]
    cases hwalk : walk tokens reserved a [origin] with
    | mk tried result =>
      cases result with
      | waits pause => rfl
      | through positions => simp only [Walk.stripped, ih]

theorem resume_stripped (origin : ℕ) (d : Waiting) (answer : List ℕ) :
    resume tokens reserved origin d.stripped answer =
      ((resume tokens reserved origin d answer).1,
        (resume tokens reserved origin d answer).2.stripped) := by
  obtain ⟨ends, alternatives, name, asked, later, reached, rest⟩ := d
  cases later with
  | cons start later => rfl
  | nil =>
    simp only [resume, Waiting.stripped, Pause.stripped, walk_stripped]
    cases hwalk : walk tokens reserved rest (Ascending.union reached answer) with
    | mk tried result =>
      cases result with
      | waits pause => rfl
      | through positions => simp only [Walk.stripped, explore_stripped]

end Derivation

/-! ### Turns -/

namespace Search

/-- The frame without markers among the symbols that are left. -/
def Frame.stripped (f : Frame) : Frame where
  key := f.key
  stage := match f.stage with
    | .fresh => .fresh
    | .waiting d => .waiting d.stripped

/-- The state without markers among the symbols that are left. -/
def State.stripped (s : State) : State := { s with stack := s.stack.map Frame.stripped }

/-- The move to the state without markers. -/
def Move.stripped : Move → Move
  | .next s => .next s.stripped
  | .stop run result => .stop run result

variable (g : Grammar) {tokens : Array String} {reserved : List String}

theorem Frame.advance_stripped (f : Frame) (reply : Option (List ℕ)) :
    f.stripped.advance g.stripped tokens reserved reply =
      (f.advance g tokens reserved reply).map fun moved => (moved.1, moved.2.stripped) := by
  obtain ⟨key, stage⟩ := f
  match stage, reply with
  | .waiting d, some answer =>
    simp only [advance, stripped, Derivation.resume_stripped]
    rfl
  | .waiting d, none => rfl
  | .fresh, some answer => rfl
  | .fresh, none =>
    simp only [advance, stripped, g.alternatives?_stripped]
    cases g.alternatives? key.name with
    | none => rfl
    | some alternatives =>
      simp only [Option.map_some, Derivation.explore_stripped]
      rfl

theorem reentry_stripped (stack : List Frame) (k : SubProblem) :
    reentry (stack.map Frame.stripped) k = reentry stack k := by
  have hkeys : (stack.map Frame.stripped).reverse.map Frame.key = stack.reverse.map Frame.key := by
    rw [List.map_reverse, List.map_map, List.map_reverse]
    rfl
  unfold reentry cycleTo
  rw [hkeys]

/-- **The searches are in lock step.** -/
theorem step_stripped (s : State) :
    step g.stripped tokens reserved s.stripped = (step g tokens reserved s).stripped := by
  obtain ⟨run, stack, reply⟩ := s
  cases stack with
  | nil => rfl
  | cons f below =>
    simp only [step, State.stripped, List.map_cons, Frame.advance_stripped]
    cases hadvance : f.advance g tokens reserved reply with
    | error failure => rfl
    | ok moved =>
      obtain ⟨tried, progress⟩ := moved
      cases progress with
      | finished ends => rfl
      | waits d =>
        simp only [Except.map, Progress.stripped, Waiting.request_stripped]
        cases hentry : run.memo.get? d.request with
        | none => rfl
        | some e =>
          cases e with
          | solved ends => rfl
          | inProgress =>
            simp only [Move.stripped]
            exact congrArg _ (congrArg _ (reentry_stripped (⟨f.key, .waiting d⟩ :: below) _))

theorem loop_stripped (fuel : ℕ) (s : State) :
    loop g.stripped tokens reserved fuel s.stripped = loop g tokens reserved fuel s := by
  induction fuel generalizing s with
  | zero => rfl
  | succ fuel ih =>
    rw [loop, loop, step_stripped]
    cases step g tokens reserved s with
    | stop run result => rfl
    | next s => exact ih s

theorem bound_stripped (length position : ℕ) :
    bound g.stripped length position = bound g length position := by
  have hrule : ∀ width r, ruleBound width r.stripped = ruleBound width r := by
    intro width r
    rw [ruleBound, ruleBound, Rule.references_stripped]
  simp only [bound, Grammar.stripped, List.foldr_map, hrule]

/-- **The whole searches are the same.** -/
theorem solve_stripped (w : TokenStream) (run : Run) (k : SubProblem) :
    solve g.stripped w run k = solve g w run k := by
  rw [solve, solve, bound_stripped, g.reserved_stripped]
  -- a search begins with a fresh frame, in which no symbols stand yet
  exact loop_stripped g _ (init run k)

end Search

/-! ### Recognition -/

namespace Recognizer

/-- **Recognition without empty markers.**  The rules without the markers make a grammar, and its
recognition of any stream has the same outcome, but for the time: the same verdict and counters, or
the same cycle. -/
theorem recognize_stripped (g : Grammar) :
    ∃ g', Grammar.ofRules (g.rules.map Rule.stripped) (.text g.start) = .ok g' ∧
      ∀ (s : Settings) (w : TokenStream) (clock clock' : Clock),
        (recognize ⟨g', s⟩ clock' w).outcome.map Result.untimed =
          (recognize ⟨g, s⟩ clock w).outcome.map Result.untimed := by
  refine ⟨g.stripped, g.ofRules_stripped, fun s w clock clock' => ?_⟩
  have hsearch : search ⟨g.stripped, s⟩ w = search ⟨g, s⟩ w :=
    Search.solve_stripped g w .fresh ⟨g.start, 0⟩
  rw [recognize_untimed, recognize_untimed, judge_congr hsearch]

end Recognizer

end Acceptor
