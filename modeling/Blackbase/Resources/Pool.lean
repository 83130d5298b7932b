import Mathlib

/-!
# Executor views of the shared pool

`_PoolExecutor` of `resources/pool.py`: a view on the shared scheduler that admits
at most `workerCount` tasks at a time and queues the others itself.

A submitted call has two sides.  Its *outer* future is what the client holds; its
task is what the scheduler's threads run once the view has launched it.  The two
meet in `start`, where the thread calls `set_running_or_notify_cancel` on the outer
future: this is the only place where a cancelled future becomes one that `wait`
reports.  A future that is cancelled while its call is still in the view's queue is
skipped by `_launch_available_locked`, so no thread ever gets to that call.
-/

universe u

namespace Blackbase.Resources

/-- The states of a `concurrent.futures.Future`. -/
inductive FutureState (α : Type u) where
  | pending
  | running
  | cancelled
  | cancelledAndNotified
  | finished (outcome : α)
deriving DecidableEq, Repr

namespace FutureState

variable {α : Type u}

/-- `Future.cancel`. -/
def cancel : FutureState α → FutureState α
  | .pending => .cancelled
  | state => state

/-- `Future.set_running_or_notify_cancel`. -/
def setRunningOrNotifyCancel : FutureState α → FutureState α
  | .pending => .running
  | .cancelled => .cancelledAndNotified
  | state => state

/-- The answer of `Future.set_running_or_notify_cancel`: the call is to be run. -/
def isPending : FutureState α → Bool
  | .pending => true
  | _ => false

/-- `Future.cancelled`. -/
def isCancelled : FutureState α → Bool
  | .cancelled | .cancelledAndNotified => true
  | _ => false

/-- `Future.done`. -/
def isDone : FutureState α → Bool
  | .pending | .running => false
  | _ => true

/-- The futures `concurrent.futures.wait` reports as done. -/
def isReported : FutureState α → Bool
  | .cancelledAndNotified | .finished _ => true
  | _ => false

theorem isReported_cancel {f : FutureState α} (h : f.isReported) : f.cancel = f := by
  cases f <;> simp_all [isReported, cancel]

theorem isReported_setRunningOrNotifyCancel {f : FutureState α} (h : f = .pending ∨ f = .cancelled)
    (hrun : f.isPending = false) : f.setRunningOrNotifyCancel.isReported := by
  rcases h with rfl | rfl
  · cases hrun
  · rfl

end FutureState

/-- How far the task behind an outer future has got. -/
inductive TaskStage where
  /-- The view has not handed the task to the scheduler. -/
  | unlaunched
  /-- The scheduler holds the task; no thread has taken it up. -/
  | launched
  /-- A thread runs the callable. -/
  | running
  /-- The outer future is settled; the underlying future is about to be. -/
  | settled
  /-- The underlying future is done and the view knows it. -/
  | done
deriving DecidableEq, Repr

/-- `_PoolExecutor`, with the outer futures and the tasks it manages; calls are
numbered in the order in which they were submitted. -/
structure ExecutorView (α : Type u) where
  workerCount : ℕ
  queue : List ℕ
  inflight : List ℕ
  futures : ℕ → FutureState α
  tasks : ℕ → TaskStage

namespace ExecutorView

variable {α : Type u}

/-- A view as `__enter__` leaves it. -/
def entered (workerCount : ℕ) : ExecutorView α where
  workerCount := workerCount
  queue := []
  inflight := []
  futures := fun _ ↦ .pending
  tasks := fun _ ↦ .unlaunched

/-- The loop of `_launch_available_locked` over the queue. -/
def launchFrom (v : ExecutorView α) : List ℕ → ExecutorView α
  | [] => { v with queue := [] }
  | i :: rest =>
      if v.inflight.length < v.workerCount then
        if (v.futures i).isCancelled then v.launchFrom rest
        else launchFrom { v with
          inflight := v.inflight ++ [i], tasks := Function.update v.tasks i .launched } rest
      else { v with queue := i :: rest }

/-- `_launch_available_locked`. -/
def launchAvailable (v : ExecutorView α) : ExecutorView α := v.launchFrom v.queue

/-- `submit` of call `i`. -/
def submit (v : ExecutorView α) (i : ℕ) : ExecutorView α :=
  launchAvailable { v with queue := v.queue ++ [i] }

/-- `Future.cancel` on the outer future of call `i`. -/
def cancel (v : ExecutorView α) (i : ℕ) : ExecutorView α :=
  { v with futures := Function.update v.futures i (v.futures i).cancel }

/-- A thread takes call `i` up: it runs unless its future was cancelled. -/
def start (v : ExecutorView α) (i : ℕ) : Option (ExecutorView α) :=
  if v.tasks i = .launched then
    some { v with
      futures := Function.update v.futures i (v.futures i).setRunningOrNotifyCancel
      tasks := Function.update v.tasks i
        (if (v.futures i).isPending then .running else .settled) }
  else none

/-- The callable of call `i` returns or raises. -/
def finish (v : ExecutorView α) (i : ℕ) (outcome : α) : Option (ExecutorView α) :=
  if v.tasks i = .running then
    some { v with
      futures := Function.update v.futures i (.finished outcome)
      tasks := Function.update v.tasks i .settled }
  else none

/-- `_underlying_done` of call `i`. -/
def underlyingDone (v : ExecutorView α) (i : ℕ) : Option (ExecutorView α) :=
  if v.tasks i = .settled then
    some (launchAvailable { v with
      inflight := v.inflight.erase i, tasks := Function.update v.tasks i .done })
  else none

/-! ## What launching does -/

@[simp] theorem launchFrom_workerCount (v : ExecutorView α) (queue : List ℕ) :
    (v.launchFrom queue).workerCount = v.workerCount := by
  induction queue generalizing v with
  | nil => rfl
  | cons i rest ih =>
      unfold launchFrom
      split
      · split
        · exact ih v
        · exact ih _
      · rfl

@[simp] theorem launchFrom_futures (v : ExecutorView α) (queue : List ℕ) :
    (v.launchFrom queue).futures = v.futures := by
  induction queue generalizing v with
  | nil => rfl
  | cons i rest ih =>
      unfold launchFrom
      split
      · split
        · exact ih v
        · exact ih _
      · rfl

/-- A cancelled call is never launched. -/
theorem launchFrom_tasks_of_cancelled (v : ExecutorView α) (queue : List ℕ) {i : ℕ}
    (hi : (v.futures i).isCancelled) : (v.launchFrom queue).tasks i = v.tasks i := by
  induction queue generalizing v with
  | nil => rfl
  | cons j rest ih =>
      unfold launchFrom
      split
      · split
        · exact ih v hi
        · next hj =>
            have hne : i ≠ j := fun h ↦ hj (h ▸ hi)
            refine Eq.trans ?_ (Function.update_of_ne hne .launched v.tasks)
            exact ih { v with inflight := _, tasks := _ } hi
      · rfl

/-- Launching only touches calls of the queue, and moves them to `launched`. -/
theorem launchFrom_tasks (v : ExecutorView α) (queue : List ℕ) (i : ℕ) :
    (v.launchFrom queue).tasks i = v.tasks i ∨
      i ∈ queue ∧ (v.launchFrom queue).tasks i = .launched := by
  induction queue generalizing v with
  | nil => exact .inl rfl
  | cons j rest ih =>
      unfold launchFrom
      split
      · split
        · exact (ih v).imp_right fun h ↦ ⟨List.mem_cons_of_mem _ h.1, h.2⟩
        · have h := ih { v with
            inflight := v.inflight ++ [j], tasks := Function.update v.tasks j .launched }
          rcases h with h | ⟨hmem, h⟩
          · by_cases hij : i = j
            · subst hij
              exact .inr ⟨List.mem_cons_self .., h.trans (Function.update_self ..)⟩
            · exact .inl (h.trans (Function.update_of_ne hij ..))
          · exact .inr ⟨List.mem_cons_of_mem _ hmem, h⟩
      · exact .inl rfl

/-! ## Lost calls -/

/-- A call whose future was cancelled before the view launched it. -/
def Lost (v : ExecutorView α) (i : ℕ) : Prop :=
  v.tasks i = .unlaunched ∧ v.futures i = .cancelled

section Lost

variable {v v' : ExecutorView α} {i : ℕ} (h : v.Lost i)

include h

theorem Lost.launchAvailable : v.launchAvailable.Lost i := by
  refine ⟨?_, ?_⟩
  · rw [ExecutorView.launchAvailable, launchFrom_tasks_of_cancelled _ _ (by rw [h.2]; rfl)]
    exact h.1
  · rw [ExecutorView.launchAvailable, launchFrom_futures]
    exact h.2

theorem Lost.cancel (j : ℕ) : (v.cancel j).Lost i := by
  refine ⟨h.1, ?_⟩
  by_cases hj : i = j
  · subst hj
    simp [ExecutorView.cancel, h.2, FutureState.cancel]
  · simpa [ExecutorView.cancel, hj] using h.2

/-- No thread ever gets to a lost call. -/
theorem Lost.start {j : ℕ} (hstep : v.start j = some v') : v'.Lost i := by
  unfold ExecutorView.start at hstep
  split at hstep
  · next hstage =>
      injection hstep with hstep
      subst hstep
      have hne : i ≠ j := fun hij ↦ by
        rw [← hij, h.1] at hstage
        cases hstage
      exact ⟨by simpa [hne] using h.1, by simpa [hne] using h.2⟩
  · cases hstep

theorem Lost.finish {j : ℕ} {outcome : α} (hstep : v.finish j outcome = some v') :
    v'.Lost i := by
  unfold ExecutorView.finish at hstep
  split at hstep
  · next hstage =>
      injection hstep with hstep
      subst hstep
      have hne : i ≠ j := fun hij ↦ by
        rw [← hij, h.1] at hstage
        cases hstage
      exact ⟨by simpa [hne] using h.1, by simpa [hne] using h.2⟩
  · cases hstep

theorem Lost.underlyingDone {j : ℕ} (hstep : v.underlyingDone j = some v') : v'.Lost i := by
  unfold ExecutorView.underlyingDone at hstep
  split at hstep
  · next hstage =>
      injection hstep with hstep
      subst hstep
      have hne : i ≠ j := fun hij ↦ by
        rw [← hij, h.1] at hstage
        cases hstage
      refine Lost.launchAvailable ⟨?_, h.2⟩
      simpa [hne] using h.1
  · cases hstep

end Lost

/-! ## Views that lose no call -/

/-- What the outer future of a call shows at each stage of its task, as long as no
queued call is cancelled. -/
def Agrees : TaskStage → FutureState α → Prop
  | .unlaunched, f => f = .pending
  | .launched, f => f = .pending ∨ f = .cancelled
  | .running, f => f = .running
  | .settled, f => f.isReported
  | .done, f => f.isReported

/-- The bookkeeping of a view to which calls `0, …, submitted - 1` were submitted,
whether or not it could launch more of them. -/
structure Books (v : ExecutorView α) (submitted : ℕ) : Prop where
  queue_nodup : v.queue.Nodup
  inflight_nodup : v.inflight.Nodup
  beyond : ∀ i, submitted ≤ i → v.tasks i = .unlaunched
  mem_queue : ∀ i, i ∈ v.queue ↔ i < submitted ∧ v.tasks i = .unlaunched
  mem_inflight : ∀ i, i ∈ v.inflight ↔
    v.tasks i = .launched ∨ v.tasks i = .running ∨ v.tasks i = .settled
  agrees : ∀ i, Agrees (v.tasks i) (v.futures i)

/-- A view that keeps its books and leaves no worker idle while calls are queued. -/
structure Sound (v : ExecutorView α) (submitted : ℕ) : Prop extends Books v submitted where
  busy : v.queue ≠ [] → v.workerCount ≤ v.inflight.length

theorem sound_entered (workerCount : ℕ) : (entered workerCount : ExecutorView α).Sound 0 := by
  constructor
  · constructor <;> simp [entered, Agrees]
  · simp [entered]

/-- Launching loses no call when none in the queue is cancelled, and leaves no worker
idle. -/
theorem Books.launchFrom {v : ExecutorView α} {queue : List ℕ} {submitted : ℕ}
    (h : Books { v with queue := queue } submitted) : (v.launchFrom queue).Sound submitted := by
  induction queue generalizing v with
  | nil => exact ⟨h, fun hne ↦ absurd rfl hne⟩
  | cons i rest ih =>
      unfold ExecutorView.launchFrom
      have hi : i < submitted ∧ v.tasks i = .unlaunched :=
        (h.mem_queue i).mp (List.mem_cons_self ..)
      have hpending : v.futures i = .pending := by
        have hagrees := h.agrees i
        rw [hi.2] at hagrees
        exact hagrees
      have hrest : i ∉ rest ∧ rest.Nodup := List.nodup_cons.mp h.queue_nodup
      split
      · rw [if_neg (by simp [hpending, FutureState.isCancelled])]
        have hfresh : i ∉ v.inflight := fun hmem ↦ by
          have := (h.mem_inflight i).mp hmem
          simp [hi.2] at this
        refine ih ⟨hrest.2, ?_, fun j hj ↦ ?_, fun j ↦ ?_, fun j ↦ ?_, fun j ↦ ?_⟩
        · exact List.Nodup.append h.inflight_nodup (List.nodup_singleton _) (by simpa using hfresh)
        · have hne : j ≠ i := by
            rintro rfl
            exact absurd hi.1 (not_lt.mpr hj)
          simpa [hne] using h.beyond j hj
        · by_cases hj : j = i
          · subst hj
            simp [hrest.1]
          · have := h.mem_queue j
            simpa [hj] using this
        · by_cases hj : j = i
          · subst hj
            simp
          · have := h.mem_inflight j
            simpa [hj] using this
        · by_cases hj : j = i
          · subst hj
            simp [Agrees, hpending]
          · simpa [hj] using h.agrees j
      · next hfull => exact ⟨h, fun _ ↦ not_lt.mp hfull⟩

theorem Books.launchAvailable {v : ExecutorView α} {submitted : ℕ} (h : Books v submitted) :
    v.launchAvailable.Sound submitted :=
  Books.launchFrom h

section Sound

variable {v v' : ExecutorView α} {submitted : ℕ} (h : v.Sound submitted)

include h

theorem Sound.submit : (v.submit submitted).Sound (submitted + 1) := by
  have hfresh : submitted ∉ v.queue := fun hmem ↦ ((h.mem_queue submitted).mp hmem).1.ne rfl
  refine Books.launchAvailable ⟨?_, h.inflight_nodup, fun i hi ↦ h.beyond i (by omega),
    fun i ↦ ?_, h.mem_inflight, h.agrees⟩
  · exact List.Nodup.append h.queue_nodup (List.nodup_singleton _) (by simpa using hfresh)
  · have hmem := h.mem_queue i
    rw [List.mem_append, List.mem_singleton, hmem]
    constructor
    · rintro (⟨hlt, hstage⟩ | rfl)
      · exact ⟨by omega, hstage⟩
      · exact ⟨by omega, h.beyond i le_rfl⟩
    · rintro ⟨hlt, hstage⟩
      by_cases hi : i = submitted
      · exact .inr hi
      · exact .inl ⟨by omega, hstage⟩

/-- Cancelling a call that is not in the queue of the view, nor still to be
submitted, keeps the books. -/
theorem Sound.cancel {i : ℕ} (hi : i < submitted) (hqueue : i ∉ v.queue) :
    (v.cancel i).Sound submitted := by
  refine ⟨⟨h.queue_nodup, h.inflight_nodup, h.beyond, h.mem_queue, h.mem_inflight,
    fun j ↦ ?_⟩, h.busy⟩
  by_cases hj : j = i
  · subst hj
    have hstage : v.tasks j ≠ .unlaunched := fun hstage ↦ hqueue ((h.mem_queue j).mpr ⟨hi, hstage⟩)
    have hagrees := h.agrees j
    simp only [ExecutorView.cancel, Function.update_self]
    cases htask : v.tasks j with
    | unlaunched => exact absurd htask hstage
    | launched =>
        rw [htask] at hagrees
        rcases hagrees with hf | hf <;> rw [hf] <;> exact .inr rfl
    | running =>
        rw [htask] at hagrees
        have hf : v.futures j = .running := hagrees
        rw [hf]
        rfl
    | settled =>
        rw [htask] at hagrees
        rw [FutureState.isReported_cancel hagrees]
        exact hagrees
    | done =>
        rw [htask] at hagrees
        rw [FutureState.isReported_cancel hagrees]
        exact hagrees
  · simpa [ExecutorView.cancel, hj] using h.agrees j

/-- Moving the task of one call on, from a stage in flight to a stage in flight. -/
theorem Sound.advance {i : ℕ} {f : FutureState α} {stage : TaskStage}
    (hi : i ∈ v.inflight) (hstage : stage = .running ∨ stage = .settled)
    (hagrees : Agrees stage f) :
    Sound { v with futures := Function.update v.futures i f,
                   tasks := Function.update v.tasks i stage } submitted := by
  have hold := (h.mem_inflight i).mp hi
  refine ⟨⟨h.queue_nodup, h.inflight_nodup, fun j hj ↦ ?_, fun j ↦ ?_, fun j ↦ ?_,
    fun j ↦ ?_⟩, h.busy⟩
  · by_cases hji : j = i
    · subst hji
      simp [h.beyond j hj] at hold
    · simpa [hji] using h.beyond j hj
  · by_cases hji : j = i
    · subst hji
      have hnot : j ∉ v.queue := fun hmem ↦ by
        simp [((h.mem_queue j).mp hmem).2] at hold
      rcases hstage with rfl | rfl <;> simp [hnot]
    · simpa [hji] using h.mem_queue j
  · by_cases hji : j = i
    · subst hji
      rcases hstage with rfl | rfl <;> simp [hi]
    · simpa [hji] using h.mem_inflight j
  · by_cases hji : j = i
    · subst hji
      simpa using hagrees
    · simpa [hji] using h.agrees j

theorem Sound.start {i : ℕ} (hstep : v.start i = some v') : v'.Sound submitted := by
  unfold ExecutorView.start at hstep
  split at hstep
  · next hlaunched =>
      injection hstep with hstep
      subst hstep
      have hagrees := h.agrees i
      rw [hlaunched] at hagrees
      refine h.advance ((h.mem_inflight i).mpr (.inl hlaunched)) ?_ ?_
      · split <;> simp
      · split
        · next hpending =>
            rcases hagrees with hf | hf
            · rw [hf]
              rfl
            · rw [hf] at hpending
              cases hpending
        · next hrun =>
            exact FutureState.isReported_setRunningOrNotifyCancel hagrees (by simpa using hrun)
  · cases hstep

theorem Sound.finish {i : ℕ} {outcome : α} (hstep : v.finish i outcome = some v') :
    v'.Sound submitted := by
  unfold ExecutorView.finish at hstep
  split at hstep
  · next hrunning =>
      injection hstep with hstep
      subst hstep
      exact h.advance ((h.mem_inflight i).mpr (.inr (.inl hrunning))) (.inr rfl) rfl
  · cases hstep

theorem Sound.underlyingDone {i : ℕ} (hstep : v.underlyingDone i = some v') :
    v'.Sound submitted := by
  unfold ExecutorView.underlyingDone at hstep
  split at hstep
  · next hsettled =>
      injection hstep with hstep
      subst hstep
      refine Books.launchAvailable ⟨h.queue_nodup, h.inflight_nodup.erase i, fun j hj ↦ ?_,
        fun j ↦ ?_, fun j ↦ ?_, fun j ↦ ?_⟩
      · by_cases hji : j = i
        · subst hji
          rw [h.beyond j hj] at hsettled
          cases hsettled
        · simpa [hji] using h.beyond j hj
      · by_cases hji : j = i
        · subst hji
          have hnot : j ∉ v.queue := fun hmem ↦ by
            rw [((h.mem_queue j).mp hmem).2] at hsettled
            cases hsettled
          simp [hnot]
        · simpa [hji] using h.mem_queue j
      · by_cases hji : j = i
        · subst hji
          simp [h.inflight_nodup.not_mem_erase]
        · simpa [hji, List.mem_erase_of_ne hji] using h.mem_inflight j
      · by_cases hji : j = i
        · subst hji
          have hagrees := h.agrees j
          rw [hsettled] at hagrees
          simpa [Agrees] using hagrees
        · simpa [hji] using h.agrees j
  · cases hstep

/-- A call in flight or beyond was submitted. -/
theorem Sound.lt_submitted {i : ℕ} (hi : v.tasks i ≠ .unlaunched) : i < submitted := by
  by_contra hge
  exact hi (h.beyond i (not_lt.mp hge))

/-- A future that `wait` reports stays as it is. -/
theorem Sound.start_reported {i j : ℕ} (hstep : v.start j = some v')
    (hi : (v.futures i).isReported) : v'.futures i = v.futures i := by
  unfold ExecutorView.start at hstep
  split at hstep
  · next hstage =>
      injection hstep with hstep
      subst hstep
      have hne : i ≠ j := fun hij ↦ by
        have hagrees := h.agrees j
        rw [hstage] at hagrees
        rw [hij] at hi
        rcases hagrees with hf | hf <;> simp [hf, FutureState.isReported] at hi
      exact Function.update_of_ne hne ..
  · cases hstep

theorem Sound.finish_reported {i j : ℕ} {outcome : α} (hstep : v.finish j outcome = some v')
    (hi : (v.futures i).isReported) : v'.futures i = v.futures i := by
  unfold ExecutorView.finish at hstep
  split at hstep
  · next hstage =>
      injection hstep with hstep
      subst hstep
      have hne : i ≠ j := fun hij ↦ by
        have hagrees := h.agrees j
        rw [hstage] at hagrees
        rw [hij] at hi
        have hf : v.futures j = .running := hagrees
        simp [hf, FutureState.isReported] at hi
      exact Function.update_of_ne hne ..
  · cases hstep

theorem Sound.launchAvailable : v.launchAvailable.Sound submitted :=
  Books.launchAvailable h.toBooks

/-- As long as a call in flight or in the queue is left, some thread has a step to
take. -/
theorem Sound.thread_step (hpos : 0 < v.workerCount) (outcome : α) {i : ℕ}
    (hi : i ∈ v.queue ∨ i ∈ v.inflight) :
    ∃ j, (v.start j).isSome ∨ (v.finish j outcome).isSome ∨ (v.underlyingDone j).isSome := by
  obtain ⟨j, hj⟩ : ∃ j, j ∈ v.inflight := by
    rcases hi with hi | hi
    · have hlength := h.busy (List.ne_nil_of_mem hi)
      exact List.exists_mem_of_length_pos (hpos.trans_le hlength)
    · exact ⟨i, hi⟩
  refine ⟨j, ?_⟩
  rcases (h.mem_inflight j).mp hj with hstage | hstage | hstage
  · exact .inl (by simp [ExecutorView.start, hstage])
  · exact .inr (.inl (by simp [ExecutorView.finish, hstage]))
  · exact .inr (.inr (by simp [ExecutorView.underlyingDone, hstage]))

end Sound

theorem cancel_reported (v : ExecutorView α) {i j : ℕ} (hi : (v.futures i).isReported) :
    (v.cancel j).futures i = v.futures i := by
  by_cases hij : i = j
  · subst hij
    simp [cancel, FutureState.isReported_cancel hi]
  · simp [cancel, hij]

theorem underlyingDone_futures {v v' : ExecutorView α} {i : ℕ}
    (hstep : v.underlyingDone i = some v') : v'.futures = v.futures := by
  unfold underlyingDone at hstep
  split at hstep
  · injection hstep with hstep
    subst hstep
    exact launchFrom_futures _ _
  · cases hstep

end ExecutorView

end Blackbase.Resources
