import Blackbase.Kernel.Parallel

/-!
# Every branch is accounted for once

A turn of a collector moves branches from the pending ones to the successes and the failures, and
the loop ends when none is pending.  The batches partition the branches, and what an abort leaves
out is filled in, so that every branch is a success or a failure, and only one of them.
-/

namespace Blackbase.Kernel.Parallel

universe u

variable {V : Type u} {slot : Slot}

/-! ## Collectors -/

namespace Collector

variable {c d : Collector V} {batch : List ℕ}

/-- The branches that a collector knows of. -/
def known (c : Collector V) : Multiset ℕ :=
  ↑(c.successes.map Prod.fst) + ↑(c.failures.map ParallelBranchFailure.index) + ↑c.pending

theorem known_read {result : ℕ × Outcome V} (h : result.1 ∈ c.pending) :
    (c.read slot result).known = c.known := by
  obtain ⟨index, outcome⟩ := result
  have herase : (↑c.pending : Multiset ℕ) = {index} + ↑(c.pending.erase index) :=
    Multiset.coe_eq_coe.mpr (List.perm_cons_erase h)
  cases outcome with
  | value v =>
      simp only [known, read, List.map_append, List.map_cons, List.map_nil, ← Multiset.coe_add,
        Multiset.coe_singleton, herase]
      abel
  | raised errorType message cancelled =>
      simp only [known, read, List.map_append, List.map_cons, List.map_nil, ← Multiset.coe_add,
        Multiset.coe_singleton, herase]
      abel

theorem pending_read (result : ℕ × Outcome V) :
    (c.read slot result).pending = c.pending.erase result.1 := by
  obtain ⟨index, outcome⟩ := result
  cases outcome <;> rfl

theorem abort_read (result : ℕ × Outcome V) : (c.read slot result).abort = c.abort := by
  obtain ⟨index, outcome⟩ := result
  cases outcome <;> rfl

theorem known_foldl_read {results : List (ℕ × Outcome V)} (hnodup : (results.map Prod.fst).Nodup)
    (hsub : results.map Prod.fst ⊆ c.pending) :
    (results.foldl (read slot) c).known = c.known := by
  induction results generalizing c with
  | nil => rfl
  | cons result rest ih =>
      rw [List.map_cons, List.nodup_cons] at hnodup
      rw [List.map_cons, List.cons_subset] at hsub
      have hrest : rest.map Prod.fst ⊆ (c.read slot result).pending := by
        intro index hindex
        rw [pending_read]
        have hne : index ≠ result.1 := by
          rintro rfl
          exact hnodup.1 hindex
        exact (List.mem_erase_of_ne hne).mpr (hsub.2 hindex)
      rw [List.foldl_cons, ih hnodup.2 hrest, known_read hsub.1]

theorem known_cancelPending {reason : String} {timedOut : Bool} {answers : List Answer}
    (h : c.cancelPending slot reason timedOut answers = some d) :
    d.known = c.known ∧ d.pending = [] ∧ d.abort = true := by
  unfold cancelPending at h
  by_cases hperm : (answers.map Answer.index).Perm c.pending
  · rw [if_pos hperm] at h
    obtain rfl := Option.some.inj h
    refine ⟨?_, rfl, rfl⟩
    have hindices : (answers.map (cancelledFailure slot reason timedOut)).map
        ParallelBranchFailure.index = answers.map Answer.index := by
      rw [List.map_map]
      rfl
    simp only [known, List.map_append, hindices, ← Multiset.coe_add, Multiset.coe_nil, add_zero,
      Multiset.coe_eq_coe.mpr hperm, add_assoc]
  · rw [if_neg hperm] at h
    cases h

/-- What a turn does: it cancels what is pending, perhaps after it has read some results, or it only
reads results, or nothing. -/
theorem turn_cases {t : Turn V} (h : c.turn slot t = some d) :
    (∃ reason timedOut answers, (t = .control reason answers ∨ t = .expired answers) ∧
      c.cancelPending slot reason timedOut answers = some d) ∨
    (∃ results answers, t = .done results answers ∧ (results.map Prod.fst).Nodup ∧
      results.map Prod.fst ⊆ c.pending ∧
      (results.any (fun r ↦ r.2.failed) ∧ slot.strict ∧ slot.cancelOnError ∧
        (results.foldl (read slot) c).pending ≠ []) ∧
      (results.foldl (read slot) c).cancelPending slot "cancelled after strict branch failure" false
        answers = some d) ∨
    (∃ results answers, t = .done results answers ∧ (results.map Prod.fst).Nodup ∧
      results.map Prod.fst ⊆ c.pending ∧
      ¬ (results.any (fun r ↦ r.2.failed) ∧ slot.strict ∧ slot.cancelOnError ∧
        (results.foldl (read slot) c).pending ≠ []) ∧
      d = results.foldl (read slot) c) ∨
    t = .idle ∧ d = c := by
  cases t with
  | control reason answers => exact .inl ⟨reason, false, answers, .inl rfl, h⟩
  | expired answers =>
      simp only [turn] at h
      by_cases hdeadline : slot.deadline = true
      · rw [if_pos hdeadline] at h
        exact .inl ⟨_, true, answers, .inr rfl, h⟩
      · rw [if_neg hdeadline] at h
        cases h
  | done results answers =>
      simp only [turn] at h
      by_cases hguard : results ≠ [] ∧ (results.map Prod.fst).Nodup ∧
          results.map Prod.fst ⊆ c.pending
      · rw [if_pos hguard] at h
        obtain ⟨-, hnodup, hsub⟩ := hguard
        by_cases hstop : results.any (fun r ↦ r.2.failed) ∧ slot.strict ∧ slot.cancelOnError ∧
            (results.foldl (read slot) c).pending ≠ []
        · rw [if_pos hstop] at h
          exact .inr (.inl ⟨results, answers, rfl, hnodup, hsub, hstop, h⟩)
        · rw [if_neg hstop] at h
          exact .inr (.inr (.inl ⟨results, answers, rfl, hnodup, hsub, hstop,
            (Option.some.inj h).symm⟩))
      · rw [if_neg hguard] at h
        cases h
  | idle =>
      simp only [turn] at h
      by_cases hpool : slot.pool = true
      · rw [if_pos hpool] at h
        exact .inr (.inr (.inr ⟨rfl, (Option.some.inj h).symm⟩))
      · rw [if_neg hpool] at h
        cases h

/-- A turn loses no branch and counts none twice. -/
theorem known_turn {t : Turn V} (h : c.turn slot t = some d) : d.known = c.known := by
  obtain ⟨_, _, _, -, h⟩ | ⟨_, _, -, hnodup, hsub, -, h⟩ | ⟨_, _, -, hnodup, hsub, -, rfl⟩ |
    ⟨-, rfl⟩ := turn_cases h
  · exact (known_cancelPending h).1
  · exact (known_cancelPending h).1.trans (known_foldl_read hnodup hsub)
  · exact known_foldl_read hnodup hsub
  · rfl

/-- When the loop ends nothing is pending, and the same branches are known. -/
theorem known_collect {turns : List (Turn V)} (h : collect slot turns c = some d) :
    d.known = c.known ∧ d.pending = [] := by
  induction turns generalizing c with
  | nil =>
      unfold collect at h
      by_cases hpending : c.pending = []
      · rw [if_pos hpending] at h
        obtain rfl := Option.some.inj h
        exact ⟨rfl, hpending⟩
      · rw [if_neg hpending] at h
        cases h
  | cons t turns ih =>
      unfold collect at h
      by_cases hpending : c.pending = []
      · rw [if_pos hpending] at h
        cases h
      · rw [if_neg hpending, Option.bind_eq_some_iff] at h
        obtain ⟨e, hturn, hrest⟩ := h
        exact ⟨(ih hrest).1.trans (known_turn hturn), (ih hrest).2⟩

theorem known_start (batch : List ℕ) : (start batch : Collector V).known = ↑batch := by
  simp [known, start]

end Collector

/-! ## Batches -/

theorem flatten_batchesOf {limit : ℕ} (hlimit : 1 ≤ limit) (n : ℕ) (l : List ℕ)
    (hn : l.length ≤ n) : (batchesOf limit n l).flatten = l := by
  induction n generalizing l with
  | zero => exact (List.length_eq_zero_iff.mp (Nat.le_zero.mp hn)).symm
  | succ n ih =>
      cases l with
      | nil => rfl
      | cons index rest =>
          have hdrop : ((index :: rest).drop limit).length ≤ n := by
            rw [List.length_drop, List.length_cons] at *
            omega
          rw [batchesOf, List.flatten_cons, ih _ hdrop, List.take_append_drop]

/-- The batches of a slot are its branches, in order. -/
theorem flatten_batches (slot : Slot) :
    slot.batches.flatten = List.range slot.operators.length :=
  flatten_batchesOf slot.one_le_workerLimit _ _ List.length_range.le

/-! ## Runs -/

/-- The branches that a run knows of. -/
def Run.known (r : Run V) : Multiset ℕ :=
  ↑(r.successes.map Prod.fst) + ↑(r.failures.map ParallelBranchFailure.index)

theorem known_add {r : Run V} {batch : List ℕ} {turns : List (Turn V)} {c : Collector V}
    (h : Collector.collect slot turns (Collector.start batch) = some c) :
    (r.add batch c).known = r.known + ↑batch := by
  obtain ⟨hknown, hpending⟩ := Collector.known_collect h
  rw [Collector.known_start, Collector.known, hpending, Multiset.coe_nil, add_zero] at hknown
  rw [← hknown]
  simp only [Run.known, Run.add, List.map_append, ← Multiset.coe_add]
  abel

theorem runBatches_nil {script : List (List (Turn V))} {r s : Run V}
    (h : runBatches slot [] script r = some s) : script = [] ∧ s = r := by
  cases script with
  | nil => exact ⟨rfl, (Option.some.inj h).symm⟩
  | cons turns script => cases h

/-- A run collects a batch, and then it ends if it aborts, and goes on if not. -/
theorem runBatches_cons {batch : List ℕ} {batches : List (List ℕ)} {script : List (List (Turn V))}
    {r s : Run V} (h : runBatches slot (batch :: batches) script r = some s) :
    ∃ turns rest c, script = turns :: rest ∧
      Collector.collect slot turns (Collector.start batch) = some c ∧
      ((c.abort = true ∧ rest = [] ∧ s = r.add batch c) ∨
        c.abort = false ∧ runBatches slot batches rest (r.add batch c) = some s) := by
  cases script with
  | nil => cases h
  | cons turns rest =>
      rw [runBatches, Option.bind_eq_some_iff] at h
      obtain ⟨c, hcollect, h⟩ := h
      refine ⟨turns, rest, c, rfl, hcollect, ?_⟩
      by_cases habort : (r.add batch c).abort = true
      · rw [if_pos habort] at h
        by_cases hrest : rest = []
        · rw [if_pos hrest] at h
          exact .inl ⟨habort, hrest, (Option.some.inj h).symm⟩
        · rw [if_neg hrest] at h
          cases h
      · rw [if_neg habort] at h
        exact .inr ⟨Bool.eq_false_iff.mpr habort, h⟩

/-- A run knows of the branches of the batches it went through, which are all of them unless the
last one aborted. -/
theorem known_runBatches {batches : List (List ℕ)} {script : List (List (Turn V))} {r s : Run V}
    (h : runBatches slot batches script r = some s) :
    ∃ rest : List ℕ, s.known + ↑rest = r.known + ↑batches.flatten ∧
      (r.abort = false → s.abort = false → rest = []) := by
  induction batches generalizing script r with
  | nil =>
      obtain ⟨-, rfl⟩ := runBatches_nil h
      exact ⟨[], rfl, fun _ _ ↦ rfl⟩
  | cons batch batches ih =>
      obtain ⟨turns, script, c, rfl, hcollect, h⟩ := runBatches_cons h
      have hadd := known_add (r := r) hcollect
      rw [List.flatten_cons, ← Multiset.coe_add, ← add_assoc, ← hadd]
      rcases h with ⟨habort, -, rfl⟩ | ⟨habort, h⟩
      · refine ⟨batches.flatten, rfl, fun _ hno ↦ ?_⟩
        rw [Run.add, habort] at hno
        cases hno
      · obtain ⟨rest, hrest, hnone⟩ := ih h
        exact ⟨rest, hrest, fun _ ↦ hnone habort⟩

/-- The branches that are filled in after an abort are those that the run does not know of. -/
theorem known_backfilled {r : Run V} {rest all : List ℕ} (hall : all.Nodup)
    (h : r.known + ↑rest = ↑all) :
    ↑(all.filter fun index ↦ index ∉ r.successes.map Prod.fst ∧
      index ∉ r.failures.map ParallelBranchFailure.index) = (↑rest : Multiset ℕ) := by
  have hnodup : (r.known + ↑rest).Nodup := h ▸ Multiset.coe_nodup.mpr hall
  obtain ⟨-, hrest, hdisjoint⟩ := Multiset.nodup_add.mp hnodup
  refine (Multiset.Nodup.ext (Multiset.coe_nodup.mpr (hall.filter _)) hrest).mpr fun index ↦ ?_
  have hmem : index ∈ all ↔ index ∈ r.known ∨ index ∈ rest := by
    rw [← Multiset.mem_coe, ← h, Multiset.mem_add, Multiset.mem_coe]
  have hknown : index ∈ r.known ↔ index ∈ r.successes.map Prod.fst ∨
      index ∈ r.failures.map ParallelBranchFailure.index := by
    rw [Run.known, Multiset.mem_add, Multiset.mem_coe, Multiset.mem_coe]
  rw [Multiset.mem_coe, Multiset.mem_coe, List.mem_filter, hmem, decide_eq_true_iff, ← not_or,
    ← hknown]
  constructor
  · rintro ⟨hin, hout⟩
    exact hin.resolve_left hout
  · intro hin
    exact ⟨.inr hin, fun hother ↦ Multiset.disjoint_left.mp hdisjoint hother hin⟩

/-- After the loop the successes and the failures, with what an abort left out, are the branches. -/
theorem known_of_runBatches {script : List (List (Turn V))} {r : Run V}
    (h : runBatches slot slot.batches script Run.start = some r) :
    (r.successes.map Prod.fst ++
      (r.backfilled slot).map ParallelBranchFailure.index).Perm
        (List.range slot.operators.length) := by
  obtain ⟨rest, hknown, hnone⟩ := known_runBatches h
  have hstart : (Run.start : Run V).known = 0 := rfl
  rw [flatten_batches, hstart, zero_add] at hknown
  rw [← Multiset.coe_eq_coe, ← hknown, ← Multiset.coe_add, Run.backfilled, Run.known]
  by_cases habort : r.abort = true
  · have hindices (timedOut : Bool) (l : List ℕ) :
        (l.map (unsubmittedFailure slot timedOut)).map ParallelBranchFailure.index = l := by
      rw [List.map_map]
      exact List.map_id l
    rw [if_pos habort, List.map_append, hindices, ← Multiset.coe_add,
      known_backfilled List.nodup_range hknown, add_assoc]
  · rw [if_neg habort, hnone rfl (Bool.eq_false_iff.mpr habort), Multiset.coe_nil, add_zero]

/-- Every branch is accounted for once: as a success, whose result comes in the order of the
branches, or as a failure, in the order of the branches too, and the report counts them all.  This
holds for a run that returns and for one that raises. -/
theorem accounted_once (slot : Slot) (script : List (List (Turn V))) (result : Result V)
    (h : runParallel slot script = some result) :
    (result.successes.map Prod.fst ++
      result.failures.map ParallelBranchFailure.index).Perm (List.range slot.operators.length) ∧
    (∃ ordered : List (ℕ × V), ordered.Perm result.successes ∧
      (ordered.map Prod.fst).Pairwise (· < ·) ∧ result.results = ordered.map Prod.snd) ∧
    (result.failures.map ParallelBranchFailure.index).Pairwise (· < ·) ∧
    (result.report.failures = result.failures ∧
      result.report.completedCount = result.successes.length ∧
      result.report.failureCount = result.failures.length ∧
      result.report.branchCount = slot.operators.length ∧
      result.report.completedCount + result.report.failureCount = slot.operators.length) ∧
    (result.raised = true ↔ slot.strict = true ∧ result.failures ≠ []) := by
  obtain ⟨r, hrun, rfl⟩ := Option.map_eq_some_iff.mp h
  have hfailures : (r.finish slot).failures.Perm (r.backfilled slot) :=
    Selection.sorted_perm _ _
  have hall : (r.successes.map Prod.fst ++
      (r.finish slot).failures.map ParallelBranchFailure.index).Perm
        (List.range slot.operators.length) :=
    ((hfailures.map _).append_left _).trans (known_of_runBatches hrun)
  have hnodup := hall.nodup_iff.mpr List.nodup_range
  obtain ⟨hsuccesses, hfails, -⟩ := List.nodup_append.mp hnodup
  have hlength : r.successes.length + (r.finish slot).failures.length = slot.operators.length := by
    have hlen := hall.length_eq
    rwa [List.length_append, List.length_map, List.length_map, List.length_range] at hlen
  refine ⟨hall, ⟨Selection.sorted Prod.fst r.successes, Selection.sorted_perm _ _, ?_, rfl⟩, ?_,
    ⟨rfl, rfl, rfl, rfl, hlength⟩, ?_⟩
  · exact Selection.strict_of_nodup Prod.fst hsuccesses
  · exact Selection.strict_of_nodup ParallelBranchFailure.index
      (((hfailures.map _).nodup_iff).mp hfails)
  · change (decide ((r.finish slot).failures ≠ []) && slot.strict) = true ↔ _
    rw [Bool.and_eq_true, decide_eq_true_iff, and_comm]

/-- A strict slot that cancels on an error, with some branches and a worker limit. -/
def strictSlot (operators : List String) (limit : ℕ) : Slot where
  operators := operators
  workerLimit := limit + 1
  strict := true
  cancelOnError := true
  deadline := false
  pool := false
  one_le_workerLimit := Nat.le_add_left 1 limit

/-- The first branch fails, while the second is running. -/
def firstFails : List (List (Turn ℕ)) :=
  [[.done [(0, .raised "ValueError" "no" false)] [⟨1, false, false⟩]]]

/-- The first of three branches fails, while the second is running. -/
theorem accounted_once_three :
    ∃ result : Result ℕ, runParallel (strictSlot ["a", "b", "c"] 1) firstFails = some result ∧
      (result.successes.map Prod.fst ++
        result.failures.map ParallelBranchFailure.index).Perm [0, 1, 2] ∧
      result.raised = true :=
  ⟨_, rfl, (accounted_once (strictSlot ["a", "b", "c"] 1) firstFails _ rfl).1, rfl⟩

end Blackbase.Kernel.Parallel
