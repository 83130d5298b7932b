import Blackbase.Core.Dict
import Blackbase.Core.Machine
import Blackbase.Resources.Artifacts.Programs

/-!
# The staging of artifacts, file step by file step

`publish` and `abort` of one `ArtifactPublicationTransaction` of `project/invocation.py`, called by
threads of a Case at any time.  `publish` holds `_artifact_lock` while it reserves the name and
again while it registers the ref; `abort` holds it while it sets the transaction inactive.  What
either does to the files of the ledger is the program of `Resources.Artifacts`, one file step at a
time.  `abort` passes its `_refs` on as they are, so the ledger sees what is registered later; the
reserved names it copies.

The transaction has a publisher, and it is not sealed.  Bytes are stored under a path that has not
been used: it ends in a `uuid4`.
-/

namespace Blackbase.Project

open Resources Resources.Artifacts

/-- Where `abort` of a transaction is. -/
inductive TransactionAbortPc where
  | check
  | deactivate
  | takeNames
  /-- In `abort` of the ledger, with the copy of the reserved names. -/
  | ledger (names : List String) (pc : AbortPc)
  | recordEvent
  /-- It has found the transaction inactive. -/
  | skipped
  | returned
  | raised
deriving DecidableEq

/-- Where `publish` of a transaction is. -/
inductive StagePc where
  | check
  | acquire
  | reserve
  | writeReservation
  | readReservation
  | recordName
  | checkpoint
  | store
  /-- The bytes are there, and the ref is made of their size. -/
  | stat
  | attachRead
  | attachReplace (current : Reservation)
  /-- The temporary file of the replacement is removed. -/
  | attached
  | register
  | lastCheckpoint
  | recordEvent
  /-- The handler of an exception; when it is through, `publish` raises. -/
  | aborting (reason : String) (pc : TransactionAbortPc)
  | returned
  | raised
deriving DecidableEq

/-- A thread of the Case. -/
inductive StagingThread where
  | publish (c : PublishCall) (pc : StagePc)
  | abort (reason : String) (pc : TransactionAbortPc)
deriving DecidableEq

/-- The transaction, the files of its ledger and the threads.  `used` are the paths under which
bytes have been stored, and `running` notes which calls of `publish` were on their way when the
transaction was set inactive. -/
structure Staging where
  files : LedgerFiles
  active : Bool
  prepared : Bool
  refs : Dict DataRef
  reservedNames : List String
  /-- Who holds `_artifact_lock`. -/
  lock : Option ℕ
  threads : List StagingThread
  used : List Path
  running : ℕ → Bool

/-- What happens next. -/
inductive StagingAction where
  | call (thread : StagingThread)
  | step (i : ℕ) (m : Moment)

namespace TransactionAbortPc

/-- The call is over. -/
def ended : TransactionAbortPc → Bool
  | skipped | returned | raised => true
  | _ => false

/-- What follows a step of the ledger. -/
def afterLedger (names : List String) : AbortPc → TransactionAbortPc
  | .returned => recordEvent
  | .raised _ => raised
  | pc => ledger names pc

end TransactionAbortPc

namespace StagePc

/-- The call is over. -/
def ended : StagePc → Bool
  | returned | raised => true
  | aborting _ pc => pc.ended
  | _ => false

/-- What follows a step of `reserve` or `attach_provisional`. -/
def after (handler : StagePc) : PublishPc → StagePc
  | .reserve => reserve
  | .writeReservation => writeReservation
  | .readReservation => readReservation
  | .store => recordName
  | .attachRead => attachRead
  | .attachReplace current => attachReplace current
  | .returned => attached
  | .raised _ => handler

/-- The handler of what `publish` has tried first. -/
def publishFailed : StagePc := aborting "publish_failed" .check

/-- Inside the lock. -/
def locks : StagePc → Bool
  | reserve | writeReservation | readReservation | recordName => true
  | _ => false

end StagePc

namespace StagingThread

/-- A call of `publish` that is not over. -/
def publishing : StagingThread → Bool
  | publish _ pc => !pc.ended
  | abort _ _ => false

/-- The call of `abort` that the thread is making or has made. -/
def abortPc : StagingThread → Option TransactionAbortPc
  | publish _ (.aborting _ pc) => some pc
  | publish _ _ => none
  | abort _ pc => some pc

end StagingThread

namespace Staging

/-- A transaction that has just begun. -/
def start (f : LedgerFiles) (prepared : Bool) : Staging where
  files := f
  active := true
  prepared := prepared
  refs := ∅
  reservedNames := []
  lock := none
  threads := []
  used := []
  running _ := false

variable (L : PublicationLedger) (transactionId : String) (taken : List String) (s : Staging)

/-- The thread goes on elsewhere. -/
def goto (i : ℕ) (thread : StagingThread) : Staging :=
  { s with threads := s.threads.set i thread }

/-- The refs as `abort` of the ledger sees them. -/
def refsList : List (String × DataRef) := s.refs.entries.map fun e ↦ (e.1, e.2)

/-- The call of `abort` of the ledger. -/
def abortCall (reason : String) (names : List String) : AbortCall where
  transactionId := transactionId
  refs := s.refsList
  reason := if reason = "" then "aborted" else reason
  artifactNames := names

/-- One step of `abort`. -/
def stepAbort (m : Moment) (reason : String) :
    TransactionAbortPc → Option (Staging × TransactionAbortPc)
  | .check => some (s, if s.active then .deactivate else .skipped)
  | .deactivate =>
      if s.lock.isSome then none
      else some ({ s with
        active := false
        running := fun i ↦ s.running i || (s.threads[i]?).any (·.publishing) }, .takeNames)
  | .takeNames => some (s, .ledger s.reservedNames .checkCommit)
  | .ledger names pc =>
      ((s.abortCall transactionId reason names).step L m s.files pc).map fun r ↦
        ({ s with files := r.1 }, .afterLedger names r.2)
  | .recordEvent => some (s, if m.fails then .raised else .returned)
  | .skipped | .returned | .raised => none

/-- A step of `reserve`, inside the lock. -/
def stepReserve (i : ℕ) (c : PublishCall) (m : Moment) (pc : PublishPc) : Option Staging :=
  (c.step m s.files pc).map fun r ↦
    { s with
      files := r.1
      lock := if (StagePc.after .raised r.2).locks then s.lock else none
      threads := s.threads.set i (.publish c (.after .raised r.2)) }

/-- A step of `attach_provisional`. -/
def stepAttach (i : ℕ) (c : PublishCall) (m : Moment) (pc : PublishPc) : Option Staging :=
  (c.step m s.files pc).map fun r ↦
    { s with
      files := r.1
      threads := s.threads.set i (.publish c (.after .publishFailed r.2)) }

/-- One step of `publish`. -/
def stepPublish (i : ℕ) (c : PublishCall) (m : Moment) : StagePc → Option Staging
  | .check =>
      some (s.goto i (.publish c
        (if ¬ s.active ∨ s.prepared ∨ c.artifactName = "" then .raised else .acquire)))
  | .acquire =>
      if s.lock.isSome then none
      else if c.artifactName ∈ taken ∨ c.artifactName ∈ s.reservedNames then
        some (s.goto i (.publish c .raised))
      else some { s with lock := some i, threads := s.threads.set i (.publish c .reserve) }
  | .reserve => s.stepReserve i c m .reserve
  | .writeReservation => s.stepReserve i c m .writeReservation
  | .readReservation => s.stepReserve i c m .readReservation
  | .recordName =>
      some { s with
        reservedNames := c.artifactName :: s.reservedNames
        lock := none
        threads := s.threads.set i (.publish c .checkpoint) }
  | .checkpoint => some (s.goto i (.publish c (if m.fails then .publishFailed else .store)))
  | .store =>
      if m.fails then some (s.goto i (.publish c .publishFailed))
      else if c.ref.uri ∈ s.used ∨ (s.files.payloads c.ref.uri).isSome then none
      else some { s with
        files := s.files.setPayload c.ref.uri (some c.payload)
        used := c.ref.uri :: s.used
        threads := s.threads.set i (.publish c .stat) }
  | .stat => some (s.goto i (.publish c (if m.fails then .publishFailed else .attachRead)))
  | .attachRead =>
      if m.fails then some (s.goto i (.publish c .publishFailed))
      else s.stepAttach i c m .attachRead
  | .attachReplace current => s.stepAttach i c m (.attachReplace current)
  | .attached => some (s.goto i (.publish c (if m.fails then .publishFailed else .register)))
  | .register =>
      if s.lock.isSome then none
      else some { s with
        refs := s.refs.insert c.artifactName c.ref
        threads := s.threads.set i (.publish c .lastCheckpoint) }
  | .lastCheckpoint =>
      some (s.goto i (.publish c
        (if m.fails then .aborting "post_publish_control_failure" .check else .recordEvent)))
  | .recordEvent => some (s.goto i (.publish c (if m.fails then .raised else .returned)))
  | .aborting reason pc =>
      (s.stepAbort L transactionId m reason pc).map fun r ↦
        r.1.goto i (.publish c (.aborting reason r.2))
  | .returned | .raised => none

/-- A call as it begins: `ref` is one of the store. -/
def Begins : StagingThread → Prop
  | .publish c pc => pc = .check ∧ c.transactionId = transactionId ∧ c.ref.backend = "filesystem"
  | .abort _ pc => pc = .check

instance : DecidablePred (Begins transactionId)
  | .publish c pc => inferInstanceAs (Decidable (pc = .check ∧ c.transactionId = transactionId ∧
      c.ref.backend = "filesystem"))
  | .abort _ pc => inferInstanceAs (Decidable (pc = .check))

/-- One step of the system. -/
def step : StagingAction → Option Staging
  | .call thread =>
      if Begins transactionId thread then some { s with threads := s.threads ++ [thread] }
      else none
  | .step i m =>
      match s.threads[i]? with
      | some (.publish c pc) => s.stepPublish L transactionId taken i c m pc
      | some (.abort reason pc) =>
          (s.stepAbort L transactionId m reason pc).map fun r ↦ r.1.goto i (.abort reason r.2)
      | none => none

end Staging

end Blackbase.Project
