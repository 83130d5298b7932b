import Blackbase.Resources.Transport.InMemoryQueue
import Blackbase.Resources.Transport.RedisQueue
import Blackbase.Resources.Transport.SQLiteQueue

/-!
# The three transports side by side

The same calls, at the same strictly increasing readings of the clock, on an in-memory, an
SQLite and a Redis transport.  The token of a claim is the same on all three, as tokens are
only compared.

`Transports.Good` leaves out the calls on which the transports part: the in-memory one
recovers a lease whose attempts are used up and cancels a task that is leased (and keeps no
result of a cancelled one), and the Redis one queues a task again behind tasks submitted
after it and recovers expired leases when it refuses a result.
-/

namespace Blackbase.Resources

/-- The id a `cancel` is for. -/
def TaskCall.cancels : TaskCall → Option String
  | .cancel taskId _ => some taskId
  | _ => none

/-- Three transports, the claims handed out, and the last reading of the clock. -/
structure Transports where
  inMemory : InMemoryTasks
  sqlite : SQLiteTasks
  redis : RedisTasks
  issued : List ClaimedTask
  clock : Time

namespace Transports

/-- Nothing has been submitted. -/
def start (clock : Time) : Transports := ⟨.empty, .empty, .empty, [], clock⟩

/-- The tasks, as they are seen on SQLite. -/
def queue (s : Transports) : TaskQueue := s.sqlite.table.map TaskState.seen

/-- The event can happen: it is later than the last one, `SMEMBERS` lists the leased ids,
and the token is new. -/
def Possible (s : Transports) (e : TaskEvent) : Prop :=
  s.clock < e.clock ∧ e.order.Perm s.redis.leased ∧
    ∀ token ∈ e.call.newToken, token ≠ "" ∧ token ∉ s.issued.map (·.leaseToken)

instance (s : Transports) (e : TaskEvent) : Decidable (s.Possible e) :=
  inferInstanceAs (Decidable (_ ∧ _ ∧ _))

/-- The transports after an event. -/
def after (s : Transports) (e : TaskEvent) : Transports where
  inMemory := (s.inMemory.exec e.clock e.call).2
  sqlite := (s.sqlite.exec e.clock e.call).2
  redis := (s.redis.exec e.clock e.order e.call).2
  issued := s.issued ++ (issuedClaim (s.sqlite.exec e.clock e.call).1).toList
  clock := e.clock

/-- One step of a run. -/
def step (s : Transports) (e : TaskEvent) : Option Transports :=
  if s.Possible e then some (s.after e) else none

/-- The transports give the same answer. -/
def Agree (s : Transports) (e : TaskEvent) : Prop :=
  seenReply (s.inMemory.exec e.clock e.call).1 = seenReply (s.sqlite.exec e.clock e.call).1 ∧
    seenReply (s.redis.exec e.clock e.order e.call).1 = seenReply (s.sqlite.exec e.clock e.call).1

instance (s : Transports) (e : TaskEvent) : Decidable (s.Agree e) :=
  inferInstanceAs (Decidable (_ ∧ _))

/-- The call is not one of those on which the transports part. -/
structure Good (s : Transports) (e : TaskEvent) : Prop where
  /-- The claims presented have been handed out. -/
  genuine : ∀ claim ∈ e.call.presents, claim ∈ s.issued
  /-- No expired lease is recovered after the last attempt. -/
  attemptsLeft : e.call.recovers → s.queue.AttemptsLeft e.clock
  /-- Only a task that has ended is cancelled. -/
  cancels : ∀ taskId ∈ e.call.cancels, ∀ x ∈ s.queue.find taskId, x.status.final
  /-- No task is queued again behind one submitted after it. -/
  inOrder : s.queue.InOrder (s.queue.requeues e.clock e.order e.call)
  /-- No result is refused while a lease has expired. -/
  refusals : ∀ claim ∈ e.call.finishes, s.queue.Active e.clock claim ∨ s.queue.NoneExpired e.clock

instance (q : TaskQueue) (now : Time) : Decidable (q.AttemptsLeft now) :=
  inferInstanceAs (Decidable (∀ x ∈ q, _))

instance (q : TaskQueue) (now : Time) : Decidable (q.NoneExpired now) :=
  inferInstanceAs (Decidable (∀ x ∈ q, _))

instance (s : Transports) (e : TaskEvent) : Decidable (s.Good e) :=
  decidable_of_iff ((∀ claim ∈ e.call.presents, claim ∈ s.issued) ∧
      (e.call.recovers → s.queue.AttemptsLeft e.clock) ∧
      (∀ taskId ∈ e.call.cancels, ∀ x ∈ s.queue.find taskId, x.status.final) ∧
      s.queue.InOrder (s.queue.requeues e.clock e.order e.call) ∧
      ∀ claim ∈ e.call.finishes, s.queue.Active e.clock claim ∨ s.queue.NoneExpired e.clock)
    ⟨fun ⟨h₁, h₂, h₃, h₄, h₅⟩ ↦ ⟨h₁, h₂, h₃, h₄, h₅⟩,
      fun h ↦ ⟨h.genuine, h.attemptsLeft, h.cancels, h.inOrder, h.refusals⟩⟩

/-- The SQLite transport with the books of the run. -/
def books (s : Transports) : TransportState := ⟨.sqlite s.sqlite, s.issued, []⟩

/-- The three transports show the same queue. -/
structure Aligned (s : Transports) : Prop where
  inMemory : s.inMemory.Shows s.queue
  sqlite : s.sqlite.Shows s.clock s.queue
  redis : s.redis.Shows s.queue
  clean : s.queue.Clean
  tracked : s.books.Tracked
  tokens : ∀ c ∈ s.issued, c.leaseToken ≠ ""

variable {s t : Transports} {e : TaskEvent}

theorem aligned_start (clock : Time) : (start clock).Aligned where
  inMemory := InMemoryTasks.shows_empty
  sqlite := SQLiteTasks.shows_empty clock
  redis := RedisTasks.shows_empty
  clean := TaskQueue.clean_nil
  tracked := TransportState.tracked_start .sqlite
  tokens := by simp [start]

/-- A claim that has been handed out is of the lease its task is under, if it presents its
token. -/
theorem Aligned.issued (h : s.Aligned) {claim : ClaimedTask} (hclaim : claim ∈ s.issued)
    (now : Time) : s.queue.Issued now claim where
  token := h.tokens claim hclaim
  holds x hx hactive := by
    rw [queue, find_seen] at hx
    obtain ⟨r, hr, rfl⟩ := Option.map_eq_some_iff.mp hx
    have hholds := h.tracked.holds_of_active (Rows.mem_of_lookup hr) hclaim hactive
    exact ⟨hholds.attempt, hholds.task⟩

/-- What each transport answers and shows after a good call. -/
theorem Aligned.exec (h : s.Aligned) (he : s.Possible e) (hgood : s.Good e) :
    (seenReply (s.inMemory.exec e.clock e.call).1 = (s.queue.exec e.clock e.call).1 ∧
        (s.after e).inMemory.Shows (s.queue.exec e.clock e.call).2) ∧
      (seenReply (s.sqlite.exec e.clock e.call).1 = (s.queue.exec e.clock e.call).1 ∧
        (s.after e).sqlite.Shows e.clock (s.queue.exec e.clock e.call).2) ∧
      (seenReply (s.redis.exec e.clock e.order e.call).1 = (s.queue.exec e.clock e.call).1 ∧
        (s.after e).redis.Shows (s.queue.exec e.clock e.call).2) := by
  refine ⟨?_, h.sqlite.exec he.1 e.call, h.redis.exec h.clean he.2.1 hgood.inOrder hgood.refusals⟩
  refine h.inMemory.exec h.clean hgood.attemptsLeft (fun claim hclaim ↦ ?_) fun taskId reason hcall ↦ ?_
  · exact h.issued (hgood.genuine claim hclaim) e.clock
  · exact hgood.cancels taskId (by rw [hcall]; rfl)

/-- The transports agree on a good call. -/
theorem Aligned.agree (h : s.Aligned) (he : s.Possible e) (hgood : s.Good e) : s.Agree e := by
  obtain ⟨⟨hmemory, -⟩, ⟨hsqlite, -⟩, hredis, -⟩ := h.exec he hgood
  exact ⟨hmemory.trans hsqlite.symm, hredis.trans hsqlite.symm⟩

/-- Good calls keep the transports aligned. -/
theorem Aligned.after (h : s.Aligned) (he : s.Possible e) (hgood : s.Good e) :
    (s.after e).Aligned := by
  obtain ⟨⟨-, hmemory⟩, ⟨-, hsqlite⟩, -, hredis⟩ := h.exec he hgood
  have hqueue : (s.after e).queue = (s.queue.exec e.clock e.call).2 := hsqlite.seen
  have hbooks : s.books.Possible e := ⟨trivial, he.2.2⟩
  have htracked := h.tracked.after hbooks (TransportState.keepsTask_of_durable rfl)
  refine ⟨hqueue ▸ hmemory, hqueue ▸ hsqlite, hqueue ▸ hredis, ?_, ?_, fun c hc ↦ ?_⟩
  · rw [hqueue]
    exact h.clean.exec h.inMemory.unique e.clock e.call
  · exact ⟨htracked.wf, htracked.tokens, htracked.leased, by simp [books]⟩
  · rcases List.mem_append.mp hc with hc | hc
    · exact h.tokens c hc
    · obtain ⟨worker, leaseSeconds, taskTypes, namespaces, hcall⟩ :=
        (h.tracked.does hbooks).issued (Option.mem_toList.mp hc)
      exact (he.2.2 c.leaseToken (by rw [hcall]; rfl)).1

theorem step_eq_some : s.step e = some t ↔ s.Possible e ∧ t = s.after e := by
  unfold step
  split
  · next h => simp [h, eq_comm]
  · next h => simp [h]

/-- A task is submitted and claimed for ten seconds. -/
def leasedTask : List TaskEvent :=
  [⟨1, [], .submit (TransportState.plainTask 1)⟩,
    ⟨2, [], .claim TransportState.oneTask 10 [] [] "0a"⟩]

/-- The claim handed out. -/
def leasedClaim : ClaimedTask := ⟨TransportState.plainTask 1, "worker", "0a", 1, 12⟩

/-- The claim is completed. -/
def completion : TaskEvent :=
  ⟨3, ["task"], .complete leasedClaim ⟨"task", "ok", "worker", "", 3, ""⟩⟩

/-- The task is cancelled while it is leased. -/
def cancellation : TaskEvent := ⟨3, ["task"], .cancel "task" "stop"⟩

end Transports

end Blackbase.Resources
