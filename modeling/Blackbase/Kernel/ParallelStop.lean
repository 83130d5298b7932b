import Blackbase.Kernel.ParallelAccount

/-!
# Stopping at the first failure

A strict slot that cancels on an error stops when a branch fails while others of its batch are
pending.  When the branches that a batch takes last have a failing one, nothing is pending any more,
nothing is cancelled, and the next batch is submitted.
-/

namespace Blackbase.Kernel.Parallel

universe u

variable {V : Type u} {slot : Slot}

/-- Once a failure has been collected, no branch is submitted, and those that had not been submitted
are reported as cancelled before their submission. -/
def StopsAtFailure (slot : Slot) (result : Result V) : Prop :=
  ∀ before failure after, result.events = before ++ Event.collected failure :: after →
    (∀ index, Event.submitted index ∉ after) ∧
    ∀ index < slot.operators.length, Event.submitted index ∉ before →
      ∃ timedOut, unsubmittedFailure slot timedOut index ∈ result.failures

/-- The branches that are taken last of a batch, when no other is pending, have a failing one. -/
def lastFails : List ℕ → List (Turn V) → Bool
  | pending, .done results _ :: turns =>
      let left := results.foldl (fun pending r ↦ pending.erase r.1) pending
      if left = [] then results.any fun r ↦ r.2.failed
      else if results.any fun r ↦ r.2.failed then false
      else lastFails left turns
  | pending, .idle :: turns => lastFails pending turns
  | _, _ => false

/-! ## Collectors -/

namespace Collector

variable {c d : Collector V}

theorem pending_foldl_read (results : List (ℕ × Outcome V)) :
    (results.foldl (read slot) c).pending =
      results.foldl (fun pending r ↦ pending.erase r.1) c.pending := by
  induction results generalizing c with
  | nil => rfl
  | cons result rest ih => rw [List.foldl_cons, ih, pending_read, List.foldl_cons]

theorem abort_foldl_read (results : List (ℕ × Outcome V)) :
    (results.foldl (read slot) c).abort = c.abort := by
  induction results generalizing c with
  | nil => rfl
  | cons result rest ih => rw [List.foldl_cons, ih, abort_read]

theorem failures_read_eq_nil (result : ℕ × Outcome V) :
    (c.read slot result).failures = [] ↔ c.failures = [] ∧ result.2.failed = false := by
  obtain ⟨index, outcome⟩ := result
  cases outcome <;> simp [read, Outcome.failed]

/-- A collector has no failures after it has read results, if it had none and none has failed. -/
theorem failures_foldl_read_eq_nil (results : List (ℕ × Outcome V)) :
    (results.foldl (read slot) c).failures = [] ↔
      c.failures = [] ∧ results.any (fun r ↦ r.2.failed) = false := by
  induction results generalizing c with
  | nil => simp
  | cons result rest ih =>
      rw [List.foldl_cons, ih, failures_read_eq_nil, List.any_cons, Bool.or_eq_false_iff, and_assoc]

theorem collect_of_pending_nil {turns : List (Turn V)} (hpending : c.pending = [])
    (h : collect slot turns c = some d) : d = c ∧ turns = [] := by
  cases turns with
  | nil =>
      rw [collect, if_pos hpending] at h
      exact ⟨(Option.some.inj h).symm, rfl⟩
  | cons t turns =>
      rw [collect, if_pos hpending] at h
      cases h

/-- A batch ends without an abort but with failures exactly when the branches it took last have a
failing one. -/
theorem collect_lastFails (hstrict : slot.strict = true) (hcancel : slot.cancelOnError = true)
    {turns : List (Turn V)} (habort : c.abort = false) (hfailures : c.failures = [])
    (h : collect slot turns c = some d) :
    lastFails c.pending turns = true ↔ d.abort = false ∧ d.failures ≠ [] := by
  induction turns generalizing c with
  | nil =>
      rw [collect] at h
      by_cases hpending : c.pending = []
      · rw [if_pos hpending] at h
        obtain rfl := Option.some.inj h
        simp [lastFails, hfailures]
      · rw [if_neg hpending] at h
        cases h
  | cons t turns ih =>
      rw [collect] at h
      by_cases hpending : c.pending = []
      · rw [if_pos hpending] at h
        cases h
      rw [if_neg hpending, Option.bind_eq_some_iff] at h
      obtain ⟨e, hturn, hrest⟩ := h
      obtain ⟨reason, timedOut, answers, ht, hcancelled⟩ |
        ⟨results, answers, rfl, -, -, ⟨hany, -, -, hleft⟩, hcancelled⟩ |
        ⟨results, answers, rfl, -, -, hgo, rfl⟩ | ⟨rfl, rfl⟩ := turn_cases hturn
      · obtain ⟨-, hnone, hset⟩ := known_cancelPending hcancelled
        obtain ⟨rfl, -⟩ := collect_of_pending_nil hnone hrest
        rcases ht with rfl | rfl <;> simp [lastFails, hset]
      · obtain ⟨-, hnone, hset⟩ := known_cancelPending hcancelled
        obtain ⟨rfl, -⟩ := collect_of_pending_nil hnone hrest
        rw [pending_foldl_read] at hleft
        simp [lastFails, hleft, hany, hset]
      · rw [lastFails]
        have hset : (results.foldl (read slot) c).abort = false := (abort_foldl_read _).trans habort
        by_cases hleft : results.foldl (fun pending r ↦ pending.erase r.1) c.pending = []
        · have hnone : (results.foldl (read slot) c).pending = [] :=
            (pending_foldl_read results).trans hleft
          obtain ⟨rfl, -⟩ := collect_of_pending_nil hnone hrest
          rw [if_pos hleft, ne_eq, failures_foldl_read_eq_nil]
          simp [hset, hfailures]
        · have hany : results.any (fun r ↦ r.2.failed) = false := by
            rw [pending_foldl_read] at hgo
            rw [← Bool.not_eq_true]
            exact fun hany ↦ hgo ⟨hany, hstrict, hcancel, hleft⟩
          have hrun := ih hset ((failures_foldl_read_eq_nil results).mpr ⟨hfailures, hany⟩) hrest
          rw [pending_foldl_read] at hrun
          simpa [hleft, hany] using hrun
      · exact ih habort hfailures hrest

end Collector

/-! ## Runs -/

theorem ne_nil_of_mem_batchesOf {limit : ℕ} (hlimit : 1 ≤ limit) {n : ℕ} {l batch : List ℕ}
    (h : batch ∈ batchesOf limit n l) : batch ≠ [] := by
  induction n generalizing l with
  | zero => cases h
  | succ n ih =>
      cases l with
      | nil => cases h
      | cons index rest =>
          rcases List.mem_cons.mp h with rfl | hrest
          · obtain ⟨m, rfl⟩ := Nat.exists_eq_succ_of_ne_zero (Nat.one_le_iff_ne_zero.mp hlimit)
            rw [Nat.succ_eq_add_one, List.take_succ_cons]
            exact List.cons_ne_nil _ _
          · exact ih hrest

/-- A run that goes on adds to its events, and it submits the next batch first. -/
theorem events_runBatches {batches : List (List ℕ)} {script : List (List (Turn V))} {r s : Run V}
    (h : runBatches slot batches script r = some s) :
    r.events ++ (batches.headD []).map .submitted <+: s.events := by
  induction batches generalizing script r with
  | nil =>
      obtain ⟨-, rfl⟩ := runBatches_nil h
      exact (List.append_nil _).symm ▸ List.prefix_rfl
  | cons batch batches ih =>
      obtain ⟨turns, script, c, rfl, -, h⟩ := runBatches_cons h
      have hfirst : r.events ++ batch.map .submitted <+: (r.add batch c).events :=
        List.prefix_append _ _
      rcases h with ⟨-, -, rfl⟩ | ⟨-, h⟩
      · exact hfirst
      · exact hfirst.trans ((List.prefix_append _ _).trans (ih h))

/-- When no batch but the last ends with a failing branch, a run submits some of the batches, and
collects all its failures after that; it leaves batches out only when it aborts. -/
theorem events_of_not_lastFails (hstrict : slot.strict = true) (hcancel : slot.cancelOnError = true)
    {batches : List (List ℕ)} {script : List (List (Turn V))} {r s : Run V}
    (hfailures : r.failures = [])
    (hlast : ∀ p ∈ batches.dropLast.zip script, lastFails p.1 p.2 = false)
    (h : runBatches slot batches script r = some s) :
    ∃ sent rest : List (List ℕ), batches = sent ++ rest ∧
      s.events = r.events ++ sent.flatten.map .submitted ++ s.failures.map .collected ∧
      s.known = r.known + ↑sent.flatten ∧ (rest ≠ [] → s.abort = true) := by
  induction batches generalizing script r with
  | nil =>
      obtain ⟨-, rfl⟩ := runBatches_nil h
      exact ⟨[], [], rfl, by simp [hfailures], (add_zero _).symm, fun hne ↦ absurd rfl hne⟩
  | cons batch batches ih =>
      obtain ⟨turns, script, c, rfl, hcollect, h⟩ := runBatches_cons h
      have hevents : (r.add batch c).events = r.events ++ [batch].flatten.map .submitted ++
          (r.add batch c).failures.map .collected := by
        simp [Run.add, hfailures]
      have hone : (r.add batch c).known = r.known + ↑[batch].flatten := by
        rw [known_add hcollect, List.flatten_cons, List.flatten_nil, List.append_nil]
      rcases h with ⟨habort, -, rfl⟩ | ⟨habort, h⟩
      · exact ⟨[batch], batches, rfl, hevents, hone, fun _ ↦ habort⟩
      cases batches with
      | nil =>
          obtain ⟨-, rfl⟩ := runBatches_nil h
          exact ⟨[batch], [], rfl, hevents, hone, fun hne ↦ absurd rfl hne⟩
      | cons next batches =>
          rw [List.dropLast_cons_cons, List.zip_cons_cons, List.forall_mem_cons] at hlast
          -- the batch has not aborted and does not end with a failing branch: it has no failures
          have hnone : c.failures = [] := by
            by_contra hne
            have hfails := (Collector.collect_lastFails hstrict hcancel rfl rfl hcollect).mpr
              ⟨habort, hne⟩
            exact Bool.false_ne_true (hlast.1.symm.trans hfails)
          have hadd : (r.add batch c).failures = [] := by
            rw [Run.add, hfailures, hnone, List.append_nil]
          obtain ⟨sent, rest, hbatches, hsent, hknown, hrest⟩ := ih hadd hlast.2 h
          refine ⟨batch :: sent, rest, by rw [hbatches, List.cons_append], ?_, ?_, hrest⟩
          · rw [hsent, hevents, hadd]
            simp
          · rw [hknown, known_add hcollect, List.flatten_cons, ← Multiset.coe_add, add_assoc]

/-- When a batch that is not the last ends with a failing branch, a branch is submitted after a
failure has been collected. -/
theorem submitted_after_lastFails (hstrict : slot.strict = true)
    (hcancel : slot.cancelOnError = true) {batches : List (List ℕ)} {script : List (List (Turn V))}
    {r s : Run V} (hne : ∀ batch ∈ batches, batch ≠ []) {p : List ℕ × List (Turn V)}
    (hp : p ∈ batches.dropLast.zip script) (hlast : lastFails p.1 p.2 = true)
    (h : runBatches slot batches script r = some s) :
    ∃ before failure after index, s.events = before ++ Event.collected failure :: after ∧
      Event.submitted index ∈ after := by
  induction batches generalizing script r with
  | nil => cases hp
  | cons batch batches ih =>
      obtain ⟨turns, script, c, rfl, hcollect, h⟩ := runBatches_cons h
      cases batches with
      | nil => cases hp
      | cons next batches =>
          rw [List.forall_mem_cons] at hne
          rw [List.dropLast_cons_cons, List.zip_cons_cons, List.mem_cons] at hp
          rcases hp with rfl | hp
          · obtain ⟨hgo, hfailures⟩ :=
              (Collector.collect_lastFails hstrict hcancel rfl rfl hcollect).mp hlast
            rw [hgo] at h
            obtain ⟨habort, -⟩ | ⟨-, h⟩ := h
            · cases habort
            obtain ⟨more, hmore⟩ := events_runBatches h
            obtain ⟨failure, failures, hcons⟩ := List.exists_cons_of_ne_nil hfailures
            obtain ⟨index, indices, hnext⟩ :=
              List.exists_cons_of_ne_nil (hne.2 next List.mem_cons_self)
            refine ⟨r.events ++ batch.map .submitted, failure,
              failures.map .collected ++ (next.map .submitted ++ more), index, ?_, ?_⟩
            · rw [← hmore, Run.add, hcons]
              simp
            · rw [hnext]
              simp
          · rcases h with ⟨-, rfl, -⟩ | ⟨-, h⟩
            · rw [List.zip_nil_right] at hp
              cases hp
            · exact ih hne.2 hp h

/-- Where events that are submissions and then collections are cut at a collection, the submissions
are before it. -/
theorem cut_events {sent : List ℕ} {failures : List ParallelBranchFailure}
    {before after : List Event} {failure : ParallelBranchFailure}
    (h : sent.map Event.submitted ++ failures.map Event.collected =
      before ++ Event.collected failure :: after) :
    (∀ index ∈ sent, Event.submitted index ∈ before) ∧
      ∀ index, Event.submitted index ∉ after := by
  have hcollected : ∀ index, Event.submitted index ∉ failures.map Event.collected := by
    intro index hmem
    obtain ⟨_, -, heq⟩ := List.mem_map.mp hmem
    cases heq
  rcases List.append_eq_append_iff.mp h with ⟨more, rfl, hrest⟩ | ⟨more, hsent, hrest⟩
  · refine ⟨fun index hindex ↦ List.mem_append_left _ (List.mem_map_of_mem hindex),
      fun index hmem ↦ hcollected index ?_⟩
    rw [hrest]
    exact List.mem_append_right _ (List.mem_cons_of_mem _ hmem)
  · cases more with
    | nil =>
        rw [List.append_nil] at hsent
        refine ⟨fun index hindex ↦ hsent ▸ List.mem_map_of_mem hindex,
          fun index hmem ↦ hcollected index ?_⟩
        rw [List.nil_append] at hrest
        exact hrest ▸ List.mem_cons_of_mem _ hmem
    | cons event more =>
        rw [List.cons_append] at hrest
        obtain ⟨rfl, -⟩ := List.cons.inj hrest
        have hmem : Event.collected failure ∈ sent.map Event.submitted := by
          rw [hsent]
          exact List.mem_append_right _ List.mem_cons_self
        obtain ⟨_, -, heq⟩ := List.mem_map.mp hmem
        cases heq

theorem stopsAtFailure_of_not_lastFails (hstrict : slot.strict = true)
    (hcancel : slot.cancelOnError = true) {script : List (List (Turn V))} {r : Run V}
    (hlast : ∀ p ∈ slot.batches.dropLast.zip script, lastFails p.1 p.2 = false)
    (h : runBatches slot slot.batches script Run.start = some r) :
    StopsAtFailure slot (r.finish slot) := by
  intro before failure after hevents
  obtain ⟨sent, rest, hbatches, hsplit, hknown, habort⟩ :=
    events_of_not_lastFails hstrict hcancel rfl hlast h
  have hstart : (Run.start : Run V).events = [] := rfl
  rw [hstart, List.nil_append] at hsplit
  obtain ⟨hbefore, hafter⟩ := cut_events (hsplit.symm.trans hevents)
  refine ⟨hafter, fun index hindex hnew ↦ ?_⟩
  have hout : index ∉ sent.flatten := fun hin ↦ hnew (hbefore index hin)
  have hall : sent.flatten ++ rest.flatten = List.range slot.operators.length := by
    rw [← List.flatten_append, ← hbatches, flatten_batches]
  have hrest : rest ≠ [] := by
    rintro rfl
    rw [List.flatten_nil, List.append_nil] at hall
    exact hout (hall ▸ List.mem_range.mpr hindex)
  -- what the run knows of is what it has submitted, so that the branch is filled in
  have hnone : index ∉ r.known := by
    have hzero : (Run.start : Run V).known = 0 := rfl
    rw [hknown, hzero, zero_add, Multiset.mem_coe]
    exact hout
  rw [Run.known, Multiset.mem_add, not_or, Multiset.mem_coe, Multiset.mem_coe] at hnone
  refine ⟨r.failures.any ParallelBranchFailure.timedOut, ?_⟩
  refine (Selection.sorted_perm ParallelBranchFailure.index _).symm.subset ?_
  rw [Run.backfilled, if_pos (habort hrest)]
  refine List.mem_append_right _ (List.mem_map_of_mem (List.mem_filter.mpr ?_))
  exact ⟨List.mem_range.mpr hindex, decide_eq_true hnone⟩

/-- A strict slot that cancels on an error stops at the first failure exactly when in no batch but
the last the branches that are taken last, when no other is pending, have a failing one. -/
theorem stopsAtFailure_iff (slot : Slot) (hstrict : slot.strict = true)
    (hcancel : slot.cancelOnError = true) (script : List (List (Turn V))) (result : Result V)
    (h : runParallel slot script = some result) :
    StopsAtFailure slot result ↔
      ∀ p ∈ slot.batches.dropLast.zip script, lastFails p.1 p.2 = false := by
  obtain ⟨r, hrun, rfl⟩ := Option.map_eq_some_iff.mp h
  constructor
  · intro hstops p hp
    by_contra hlast
    have hne : ∀ batch ∈ slot.batches, batch ≠ [] :=
      fun _ hmem ↦ ne_nil_of_mem_batchesOf slot.one_le_workerLimit hmem
    obtain ⟨before, failure, after, index, hevents, hmem⟩ := submitted_after_lastFails hstrict
      hcancel hne hp (Bool.not_eq_false _ ▸ hlast) hrun
    exact (hstops before failure after hevents).1 index hmem
  · intro hlast
    exact stopsAtFailure_of_not_lastFails hstrict hcancel hlast hrun

/-- The first branch of three fails while the second is running: the third is not submitted. -/
theorem stopsAtFailure_three :
    ∃ result : Result ℕ, runParallel (strictSlot ["a", "b", "c"] 1) firstFails = some result ∧
      StopsAtFailure (strictSlot ["a", "b", "c"] 1) result :=
  ⟨_, rfl, (stopsAtFailure_iff (strictSlot ["a", "b", "c"] 1) rfl rfl firstFails _ rfl).mpr
    (by decide)⟩

/-- With one worker, the second branch is submitted after the first has failed. -/
theorem submitted_after_failure :
    ∃ result : Result ℕ, runParallel (strictSlot ["a", "b"] 0)
        [[.done [(0, .raised "ValueError" "no" false)] []], [.done [(1, .value 7)] []]] =
          some result ∧
      ¬ StopsAtFailure (strictSlot ["a", "b"] 0) result := by
  refine ⟨_, rfl, fun hstops ↦ ?_⟩
  exact (hstops [.submitted 0] _ [.submitted 1] rfl).1 1 List.mem_cons_self

end Blackbase.Kernel.Parallel
