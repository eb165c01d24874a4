import Acceptor.Proofs.Course
import Mathlib.Data.Int.Order.Basic

/-!
# What the failure frontier holds

Of everything recorded, the frontier holds the furthest position and, if expectations are
collected, the texts that were recorded there (`Frontier.Holds`), in whatever order the records
came.  One record keeps this (`Frontier.Holds.record`), so the frontier of a run holds its failures
(`Search.Run.frontier_holds`).

Frontiers that hold the same records are equal (`Frontier.Holds.ext`).  So a sequence of notes can be
put in any order (`Frontier.ofNotes_furthest`): what was dropped when a further position came up
does not come back, and what is kept was recorded at the furthest position of all.
-/

namespace Acceptor

namespace Frontier

/-- Of some records, the frontier holds the furthest position and the texts recorded there. -/
structure Holds (collect : Bool) (records : List (ℤ × String)) (f : Frontier) : Prop where
  /-- Whether expectations are collected does not change. -/
  collect_eq : f.collect = collect
  /-- Without a position nothing was recorded. -/
  blank : f.position = none → records = []
  /-- The position was recorded. -/
  attained : ∀ m, f.position = some m → ∃ t, (m, t) ∈ records
  /-- No record is further than the position. -/
  furthest : ∀ m, f.position = some m → ∀ r ∈ records, r.1 ≤ m
  /-- The expectations are those recorded there, if they are collected at all. -/
  expected : ∀ t, t ∈ f.expected ↔ collect = true ∧ ∃ m, f.position = some m ∧ (m, t) ∈ records
  /-- They are in order. -/
  ascending : IsAscending f.expected

variable {collect : Bool} {records : List (ℤ × String)} {f : Frontier}

theorem holds_start : Holds collect [] (start collect) where
  collect_eq := rfl
  blank _ := rfl
  attained := by simp [start]
  furthest := by simp [start]
  expected := by simp [start]
  ascending := List.Pairwise.nil

theorem holds_only {p : ℤ} {t : String} (h : ∀ r ∈ records, r.1 < p) :
    Holds collect ((p, t) :: records) (only collect p t) where
  collect_eq := rfl
  blank := by simp [only]
  attained m hm := by
    obtain rfl := Option.some.inj hm
    exact ⟨t, List.mem_cons_self⟩
  furthest m hm r hr := by
    obtain rfl := Option.some.inj hm
    rcases List.mem_cons.1 hr with rfl | hr
    · exact le_rfl
    · exact le_of_lt (h r hr)
  expected t' := by
    have hnot : (p, t') ∉ records := fun hr => lt_irrefl p (h _ hr)
    cases collect <;> simp [only, hnot]
  ascending := by
    unfold only
    split
    · exact List.pairwise_singleton _ _
    · exact List.Pairwise.nil

/-- **One more record.** -/
theorem Holds.record (h : Holds collect records f) (p : ℤ) (t : String) :
    Holds collect ((p, t) :: records) (f.record p t) := by
  unfold Frontier.record
  rw [h.collect_eq]
  split
  · rename_i hnone
    rw [h.blank hnone]
    exact holds_only nofun
  · rename_i m hm
    split
    · rename_i hlt
      exact holds_only fun r hr => lt_of_le_of_lt (h.furthest m hm r hr) hlt
    · rename_i hlt
      -- the position stays: the new record stands there too, or behind it
      have hblank : f.position = none → (p, t) :: records = [] := by simp [hm]
      have hattained : ∀ m', f.position = some m' → ∃ t', (m', t') ∈ (p, t) :: records := by
        intro m' hm'
        obtain ⟨t', ht'⟩ := h.attained m' hm'
        exact ⟨t', List.mem_cons_of_mem _ ht'⟩
      have hfurthest : ∀ m', f.position = some m' → ∀ r ∈ (p, t) :: records, r.1 ≤ m' := by
        intro m' hm' r hr
        obtain rfl := Option.some.inj (hm.symm.trans hm')
        rcases List.mem_cons.1 hr with rfl | hr
        · exact not_lt.1 hlt
        · exact h.furthest m hm r hr
      split
      · rename_i heq
        obtain ⟨rfl, hcollect⟩ := heq
        refine ⟨rfl, hblank, hattained, hfurthest, fun t' => ?_,
          Ascending.isAscending_insert h.ascending⟩
        rw [Ascending.mem_insert, h.expected t']
        simp [hm, hcollect]
      · rename_i heq
        refine ⟨h.collect_eq, hblank, hattained, hfurthest, fun t' => ?_, h.ascending⟩
        rw [h.expected t']
        refine and_congr_right fun hcollect => ?_
        have hne : m ≠ p := fun he => heq ⟨he.symm, hcollect⟩
        simp [hm, hne]

theorem Holds.position_eq_max? (h : Holds collect records f) :
    f.position = (records.map Prod.fst).max? := by
  cases hf : f.position with
  | none => rw [h.blank hf, List.map_nil, List.max?_nil]
  | some m =>
    symm
    rw [List.max?_eq_some_iff]
    obtain ⟨t, ht⟩ := h.attained m hf
    refine ⟨List.mem_map_of_mem ht, fun p hp => ?_⟩
    obtain ⟨r, hr, rfl⟩ := List.mem_map.1 hp
    exact h.furthest m hf r hr

/-- The order of the records does not matter, nor how often each of them was made. -/
theorem Holds.congr {records' : List (ℤ × String)} (h : Holds collect records f)
    (hmem : ∀ r, r ∈ records ↔ r ∈ records') : Holds collect records' f where
  collect_eq := h.collect_eq
  blank hf := by
    refine List.eq_nil_iff_forall_not_mem.2 fun r hr => ?_
    rw [← hmem, h.blank hf] at hr
    cases hr
  attained m hm := by
    obtain ⟨t, ht⟩ := h.attained m hm
    exact ⟨t, (hmem _).1 ht⟩
  furthest m hm r hr := h.furthest m hm r ((hmem r).2 hr)
  expected t := by
    rw [h.expected]
    simp only [hmem]
  ascending := h.ascending

/-- Frontiers that hold the same records are equal. -/
theorem Holds.ext {records' : List (ℤ × String)} {f' : Frontier} (h : Holds collect records f)
    (h' : Holds collect records' f') (hmem : ∀ r, r ∈ records ↔ r ∈ records') : f = f' := by
  have h := h.congr hmem
  have hposition : f.position = f'.position :=
    h.position_eq_max?.trans h'.position_eq_max?.symm
  refine Frontier.ext (h.collect_eq.trans h'.collect_eq.symm) hposition ?_
  refine Ascending.ext h.ascending h'.ascending fun t => ?_
  rw [h.expected, h'.expected, hposition]

theorem Holds.eq_nil_of_not_collect (h : Holds false records f) : f.expected = [] := by
  refine List.eq_nil_iff_forall_not_mem.2 fun t ht => ?_
  cases ((h.expected t).1 ht).1

/-! ### Sequences of notes -/

/-- What a frontier is told. -/
inductive Note where
  /-- The text was expected at the position in vain. -/
  | missing (position : ℤ) (text : String)
  /-- A derivation ended at the position although tokens are left. -/
  | ended (position : ℤ)
  deriving Repr, DecidableEq

namespace Note

/-- The position that a note is about. -/
def position : Note → ℤ
  | .missing position _ => position
  | .ended position => position

/-- What was expected there; where a derivation ended, it is the end of the input. -/
def text : Note → String
  | .missing _ text => text
  | .ended _ => endOfInput

/-- The record that a note makes. -/
def toRecord (n : Note) : ℤ × String := (n.position, n.text)

end Note

/-- The frontier with one more note. -/
def note (f : Frontier) : Note → Frontier
  | .missing position text => f.record position text
  | .ended position => f.recordEnd position

/-- The frontier after some notes, the first of which came first. -/
def ofNotes (collect : Bool) (notes : List Note) : Frontier := notes.foldl note (start collect)

theorem Holds.note (h : Holds collect records f) (n : Note) :
    Holds collect (n.toRecord :: records) (f.note n) := by
  cases n with
  | missing position text => exact h.record position text
  | ended position => exact h.record position endOfInput

theorem Holds.foldl_note (h : Holds collect records f) (notes : List Note) :
    Holds collect ((notes.map Note.toRecord).reverse ++ records) (notes.foldl Frontier.note f) := by
  induction notes generalizing records f with
  | nil => exact h
  | cons n notes ih =>
    rw [List.map_cons, List.reverse_cons, List.append_assoc]
    exact ih (h.note n)

/-- **The frontier after some notes holds them.** -/
theorem holds_ofNotes (collect : Bool) (notes : List Note) :
    Holds collect (notes.map Note.toRecord) (ofNotes collect notes) := by
  have hstart : Holds collect [] (start collect) := holds_start
  refine (hstart.foldl_note notes).congr fun r => ?_
  rw [List.append_nil, List.mem_reverse]

/-- **A frontier keeps the furthest of its notes, in whatever order they came.**  Its position is
the greatest position noted, and there is none without notes.  Its expectations are the texts noted
there, each once, if they are collected at all. -/
theorem ofNotes_furthest (collect : Bool) (notes : List Note) :
    (ofNotes collect notes).position = (notes.map Note.position).max? ∧
      (∀ t, t ∈ (ofNotes collect notes).expected ↔ collect = true ∧
        ∃ n ∈ notes, (notes.map Note.position).max? = some n.position ∧ n.text = t) ∧
      IsAscending (ofNotes collect notes).expected ∧
      (∀ notes' : List Note, notes'.Perm notes →
        ofNotes collect notes' = ofNotes collect notes) ∧
      ∀ collect' : Bool, (ofNotes collect' notes).position = (ofNotes collect notes).position := by
  have h := holds_ofNotes collect notes
  have hmax : ∀ c, (ofNotes c notes).position = (notes.map Note.position).max? := by
    intro c
    rw [(holds_ofNotes c notes).position_eq_max?, List.map_map]
    rfl
  refine ⟨hmax collect, fun t => ?_, h.ascending, fun notes' hperm => ?_, fun collect' => ?_⟩
  · rw [h.expected, hmax]
    simp only [List.mem_map]
    constructor
    · rintro ⟨hcollect, m, hm, n, hn, hrecord⟩
      obtain ⟨rfl, rfl⟩ := Prod.mk.inj hrecord
      exact ⟨hcollect, n, hn, hm, rfl⟩
    · rintro ⟨hcollect, n, hn, hm, rfl⟩
      exact ⟨hcollect, n.position, hm, n, hn, rfl⟩
  · exact (holds_ofNotes collect notes').ext h fun _ => (hperm.map Note.toRecord).mem_iff
  · rw [hmax, hmax]

/-- What was noted at 2 is dropped and does not come back; what is noted at 4 is kept. -/
example : ofNotes true [.missing 2 "<word>", .ended 4, .missing 2 "<integer>", .missing 4 "<word>"] =
    ⟨true, some 4, ["<word>", "end of input"]⟩ := by
  decide

end Frontier

/-- The records that the failures of a run make. -/
def Search.Run.records (run : Search.Run) : List (ℤ × String) :=
  run.failures.map fun a => ((a.position : ℤ), a.terminal.text)

/-- **The frontier of a run holds its failures.** -/
theorem Search.Run.frontier_holds (run : Search.Run) (collect : Bool) :
    Frontier.Holds collect run.records (run.frontier collect) := by
  unfold Search.Run.records Search.Run.frontier
  induction run.failures with
  | nil => exact Frontier.holds_start
  | cons a failures ih => exact ih.record a.position a.terminal.text

end Acceptor
