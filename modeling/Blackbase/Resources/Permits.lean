import Blackbase.Core.Machine
import Blackbase.Core.Shares

/-!
# The permits of the shared pool

`PoolScheduler` of `resources/pool.py` as the threads use it together: callers of `submit` and of
executor views, the threads of the pool, those that cancel and the one that shuts the pool down.
Every step is a stretch of code under one lock, or one call of a method of a future.

A direct submission and an executor view take permits when they are admitted and give them back
once.  Giving back is two steps: a flag is cleared under its own lock, and then the permits go back
under the lock of the pool, where a `min` keeps them from exceeding the total.
-/

namespace Blackbase.Resources.Permits

/-! ## Direct submissions -/

/-- How the reservation of a submission stands: its permits have not been taken, are held, are no
longer reserved but not given back, or have been given back. -/
inductive Reservation where
  | waiting
  | active
  | freed
  | released
deriving DecidableEq

/-- The `PoolTask` of a submission: `_started`, and `_done`. -/
inductive TaskState where
  | fresh
  | started
  | done
deriving DecidableEq

/-- How far a submission has got. -/
inductive Progress where
  /-- Its future has not been made. -/
  | unsubmitted
  /-- `executor.submit` has failed, or the pool was shut down before. -/
  | abandoned
  /-- Its future is pending. -/
  | queued
  /-- A thread of the pool has taken the future. -/
  | picked
  /-- The callable runs. -/
  | running
  /-- The wrapper is in its `finally`. -/
  | leaving
  /-- The future is cancelled, and `discard_future` has not run. -/
  | cancelled
  /-- Nothing is left to do. -/
  | ended
deriving DecidableEq

/-- A direct submission.  `owing` is set between a successful `cancel` of its task by the caller and
the callback that releases its reservation. -/
structure Job where
  permits : ℕ
  reservation : Reservation
  task : TaskState
  progress : Progress
  owing : Bool
deriving DecidableEq

/-- What happens to a submission. -/
inductive JobAct where
  /-- `_acquire_capacity` returns. -/
  | acquired
  /-- `_acquire_capacity` finds the pool shut down. -/
  | refuse
  /-- The future is made and registered. -/
  | enqueue
  /-- It is not, and the submission raises. -/
  | abandon
  /-- `PoolTask.cancel`, by the caller or by the thread that shuts the pool down. -/
  | cancelTask (caller : Bool)
  /-- `Future.cancel`. -/
  | cancelFuture
  /-- A thread takes the future. -/
  | pick
  /-- `_mark_started`. -/
  | mark
  /-- The callable returns or raises. -/
  | finish
  /-- `release_reservation`, up to the call of `_release_capacity`: for the caller that cancelled
  the task, or for whom the progress of the submission says. -/
  | free (caller : Bool)
  /-- `_release_capacity`. -/
  | giveBack
deriving DecidableEq

/-- The part of the pool that admission depends on. -/
structure Capacity where
  total : ℕ
  available : ℕ
  shutdown : Bool
deriving DecidableEq

namespace Capacity

/-- `_acquire_capacity`, when it returns true. -/
def acquire (c : Capacity) (permits : ℕ) : Option Capacity :=
  if c.shutdown = false ∧ permits ≤ c.available then
    some { c with available := c.available - permits }
  else none

/-- `_release_capacity` -/
def release (c : Capacity) (permits : ℕ) : Capacity :=
  { c with available := min c.total (c.available + permits) }

end Capacity

namespace Job

/-- A submission of so many permits, as many as the pool has at most. -/
def submitted (c : Capacity) (permits : ℤ) : Job where
  permits := (max 1 (min permits c.total)).toNat
  reservation := .waiting
  task := .fresh
  progress := .unsubmitted
  owing := false

/-- The flag of the reservation is cleared, if it is set. -/
def clear (j : Job) : Job :=
  if j.reservation = .active then { j with reservation := .freed } else j

/-- What an act does to a submission and to the capacity of the pool. -/
def act (c : Capacity) (j : Job) : JobAct → Option (Capacity × Job)
  | .acquired =>
      if j.reservation = .waiting ∧ j.progress = .unsubmitted then
        (c.acquire j.permits).map fun c ↦ (c, { j with reservation := .active })
      else none
  | .refuse =>
      if j.reservation = .waiting ∧ j.progress = .unsubmitted ∧ c.shutdown = true then
        some (c, { j with progress := .ended })
      else none
  | .enqueue =>
      if j.reservation = .active ∧ j.progress = .unsubmitted ∧ c.shutdown = false then
        some (c, { j with progress := .queued })
      else none
  | .abandon =>
      if j.reservation = .active ∧ j.progress = .unsubmitted then
        some (c, { j with progress := .abandoned })
      else none
  | .cancelTask caller =>
      if j.progress = .unsubmitted ∨ j.progress = .abandoned then none
      else if j.task = .fresh then some (c, { j with task := .done, owing := caller })
      else some (c, j)
  | .cancelFuture =>
      if j.progress = .queued then some (c, { j with progress := .cancelled }) else none
  | .pick => if j.progress = .queued then some (c, { j with progress := .picked }) else none
  | .mark =>
      if j.progress = .picked then
        if j.task = .fresh then some (c, { j with task := .started, progress := .running })
        else some (c, { j with progress := .leaving })
      else none
  | .finish =>
      if j.progress = .running then some (c, { j with task := .done, progress := .leaving })
      else none
  | .free caller =>
      if caller then if j.owing then some (c, { j.clear with owing := false }) else none
      else if j.progress = .leaving ∨ j.progress = .cancelled ∨ j.progress = .abandoned then
        some (c, { j.clear with progress := .ended })
      else none
  | .giveBack =>
      if j.reservation = .freed then some (c.release j.permits, { j with reservation := .released })
      else none

/-- The permits that a submission has taken and not given back. -/
def share (j : Job) : ℕ :=
  if j.reservation = .active ∨ j.reservation = .freed then j.permits else 0

/-- The permits that a running callable uses. -/
def load (j : Job) : ℕ := if j.progress = .running then j.permits else 0

end Job

/-! ## Executor views -/

/-- How far `__enter__` has got. -/
inductive Entering where
  | outside
  /-- It waits for permits. -/
  | waiting
  /-- It has permits. -/
  | admitted
  /-- `_reserved` and `_entered` are set. -/
  | flagged
  /-- The pool was shut down in between; the permits have not been given back. -/
  | failing
  /-- The view is registered, or never will be. -/
  | settled
deriving DecidableEq

/-- `_PoolExecutor`: the view, with the number of calls it queues and has handed to the pool.
`freed` is set between the clearing of `_reserved` when the view is idle and `_release_capacity`. -/
structure View where
  workerCount : ℕ
  entering : Entering
  entered : Bool
  closed : Bool
  reserved : Bool
  freed : Bool
  pending : ℕ
  inflight : ℕ
deriving DecidableEq

/-- What happens to a view.  In a loop of `_launch_available_locked` so many calls are handed to the
pool, and so many are dropped, because they were cancelled or the pool was shut down. -/
inductive ViewAct where
  /-- The first check of `__enter__`. -/
  | enter
  | acquired
  | refuse
  | flag
  | register
  | fail
  | giveBackFailed
  | submit (launched dropped : ℕ)
  | underlyingDone (launched dropped : ℕ)
  /-- The first part of `shutdown`. -/
  | close
  /-- `shutdown` drops cancelled calls. -/
  | drop (dropped : ℕ)
  /-- `shutdown` launches what is left. -/
  | launch (launched dropped : ℕ)
  /-- `_release_reservation_if_idle`, up to the call of `_release_capacity`. -/
  | releaseIfIdle
  | giveBack
deriving DecidableEq

namespace View

/-- `as_executor` -/
def made (c : Capacity) (workers : ℤ) : View where
  workerCount := (max 1 (min (max 1 workers) c.total)).toNat
  entering := .outside
  entered := false
  closed := false
  reserved := false
  freed := false
  pending := 0
  inflight := 0

/-- A loop of `_launch_available_locked`. -/
def launchAvailable (c : Capacity) (v : View) (launched dropped : ℕ) : Option View :=
  if launched + dropped ≤ v.pending ∧
      (launched + dropped = 0 ∨
        v.entered = true ∧ v.reserved = true ∧ v.inflight + launched ≤ v.workerCount) ∧
      (c.shutdown = true → launched = 0) ∧
      (v.entered = true → v.reserved = true → v.inflight + launched < v.workerCount →
        launched + dropped = v.pending) then
    some { v with
      pending := v.pending - (launched + dropped)
      inflight := v.inflight + launched }
  else none

/-- What an act does to a view and to the capacity of the pool. -/
def act (c : Capacity) (v : View) : ViewAct → Option (Capacity × View)
  | .enter =>
      if v.entering = .outside ∧ v.closed = false ∧ c.shutdown = false then
        some (c, { v with entering := .waiting })
      else none
  | .acquired =>
      if v.entering = .waiting then
        (c.acquire v.workerCount).map fun c ↦ (c, { v with entering := .admitted })
      else none
  | .refuse =>
      if v.entering = .waiting ∧ c.shutdown = true then some (c, { v with entering := .settled })
      else none
  | .flag =>
      if v.entering = .admitted then
        some (c, { v with entering := .flagged, reserved := true, entered := true })
      else none
  | .register =>
      if v.entering = .flagged ∧ c.shutdown = false then some (c, { v with entering := .settled })
      else none
  | .fail =>
      if v.entering = .flagged ∧ c.shutdown = true then
        some (c, { v with entering := .failing, reserved := false, entered := false, closed := true })
      else none
  | .giveBackFailed =>
      if v.entering = .failing then
        some (c.release v.workerCount, { v with entering := .settled })
      else none
  | .submit launched dropped =>
      -- the pool may have been shut down since `submit` looked
      if v.entered = true ∧ v.closed = false then
        (launchAvailable c { v with pending := v.pending + 1 } launched dropped).map fun v ↦ (c, v)
      else none
  | .underlyingDone launched dropped =>
      if 0 < v.inflight then
        (launchAvailable c { v with inflight := v.inflight - 1 } launched dropped).map fun v ↦ (c, v)
      else none
  | .close => some (c, { v with closed := true })
  | .drop dropped =>
      if v.closed = true ∧ dropped ≤ v.pending then
        some (c, { v with pending := v.pending - dropped })
      else none
  | .launch launched dropped =>
      if v.closed = true then (launchAvailable c v launched dropped).map fun v ↦ (c, v) else none
  | .releaseIfIdle =>
      if v.closed = true ∧ v.reserved = true ∧ v.pending = 0 ∧ v.inflight = 0 then
        some (c, { v with reserved := false, freed := true })
      else none
  | .giveBack =>
      if v.freed = true then some (c.release v.workerCount, { v with freed := false }) else none

/-- The permits that a view has taken and not given back. -/
def share (v : View) : ℕ :=
  if v.entering = .admitted ∨ v.entering = .failing ∨ v.reserved = true ∨ v.freed = true then
    v.workerCount
  else 0

/-- The permits that the calls of a view use; each that it has handed to the pool uses one. -/
def load (v : View) : ℕ := v.inflight

end View

/-! ## The pool -/

/-- `PoolScheduler`, with its submissions and views. -/
structure Pool where
  capacity : Capacity
  jobs : List Job
  views : List View
deriving DecidableEq

/-- The pool with so many threads. -/
def Pool.started (threads : ℕ) : Pool := ⟨⟨max 1 threads, max 1 threads, false⟩, [], []⟩

/-- What happens in the pool. -/
inductive Label where
  | submit (permits : ℤ)
  | job (index : ℕ) (a : JobAct)
  | asExecutor (workers : ℤ)
  | view (index : ℕ) (a : ViewAct)
  | shutdown

/-- One step. -/
def step (p : Pool) : Label → Option Pool
  | .submit permits => some { p with jobs := p.jobs ++ [Job.submitted p.capacity permits] }
  | .job index a =>
      (p.jobs[index]?).bind fun j ↦ (j.act p.capacity a).map fun (c, j) ↦
        { p with capacity := c, jobs := p.jobs.set index j }
  | .asExecutor workers => some { p with views := p.views ++ [View.made p.capacity workers] }
  | .view index a =>
      (p.views[index]?).bind fun v ↦ (v.act p.capacity a).map fun (c, v) ↦
        { p with capacity := c, views := p.views.set index v }
  | .shutdown => some { p with capacity := { p.capacity with shutdown := true } }

/-- While a thread registers a view it has entered, no other thread uses the view. -/
def exclusive (p : Pool) : Label → Bool
  | .view index a =>
      (p.views[index]?).all fun v ↦
        v.entering ≠ .flagged || decide (a = .register) || decide (a = .fail)
  | _ => true

/-- A step with which a thread goes on that has been admitted: not an admission, which waits for
others, and not a cancellation. -/
def Label.goesOn : Label → Bool
  | .job _ a => a ∈ [.enqueue, .abandon, .pick, .mark, .finish, .free true, .free false, .giveBack]
  | .view _ (.underlyingDone _ _) => true
  | .view _ a => a ∈ [.flag, .register, .fail, .giveBackFailed, .releaseIfIdle, .giveBack]
  | _ => false

/-- The permits that are held. -/
def Pool.held (p : Pool) : ℕ := Shares.held Job.share p.jobs + Shares.held View.share p.views

/-- The permits that running callables use. -/
def Pool.load (p : Pool) : ℕ := Shares.held Job.load p.jobs + Shares.held View.load p.views

end Blackbase.Resources.Permits
