import Blackbase.Core.Machine
import Blackbase.Project.Finalization.Runtime

/-!
# Finalization under threads

The calls of `begin_finalization_transaction`, `publish_artifact`,
`commit_finalization_transaction` and `abort_finalization_transaction` that threads of a Case,
its observers and the executor make of one runtime, in any interleaving.  A step is what
happens under one hold of `_artifact_lock`, or one thing that happens outside of it: a read of
a flag, a checkpoint, a call of the publisher.  Whatever may raise raises if the label of
the step says so.
-/

namespace Blackbase.Project

open Resources Resources.Artifacts

/-- Why a transaction is begun. -/
inductive BeginGoal where
  | begin (label : String)
  | publish (call : ArtifactCall)
deriving DecidableEq

/-- What follows the `abort` of a transaction. -/
inductive AfterAbort where
  /-- `abort_finalization_transaction` returns. -/
  | done
  /-- `publish` raises. -/
  | publish (exc : Exn)
  /-- `publish_artifact` raises. -/
  | stage (exc : Exn)
deriving DecidableEq

/-- Where the call of a thread is. -/
inductive FinalizationPc where
  | publishStart (call : ArtifactCall)
  | beginLook (goal : BeginGoal)
  | beginCreate (goal : BeginGoal)
  | beginInstall (goal : BeginGoal) (t : ℕ)
  | checkActive (call : ArtifactCall) (t : ℕ)
  | checkPrepared (call : ArtifactCall) (t : ℕ)
  | reserve (call : ArtifactCall) (t : ℕ)
  | checkpoint (call : ArtifactCall) (t : ℕ)
  | store (call : ArtifactCall) (t : ℕ)
  | attach (call : ArtifactCall) (t : ℕ)
  | stage (call : ArtifactCall) (t : ℕ)
  | recheck (call : ArtifactCall) (t : ℕ)
  | stagedEvent (call : ArtifactCall) (t : ℕ)
  | abortLook
  | abortCheck (t : ℕ) (after : AfterAbort)
  | abortClose (t : ℕ) (after : AfterAbort)
  | abortLedger (t : ℕ) (after : AfterAbort)
  | abortEvent (t : ℕ) (after : AfterAbort)
  | commitLook
  | sealCheck (t : ℕ)
  | sealCheckpoint (t : ℕ)
  | sealLocked (t : ℕ)
  | sealEvent (refs : Dict DataRef)
  | commitRecord (refs : Dict DataRef)
  | returnedTransaction (t : ℕ)
  | returnedRef (ref : DataRef)
  | returnedRefs (refs : Dict DataRef)
  | returnedNone
  | raised (exc : Exn)

/-- What there is to see of the finalization. -/
inductive FinalizationEvent where
  | begun (t : ℕ)
  | handed (name : String) (ref : DataRef)
  | sealed (t : ℕ)
deriving DecidableEq

/-- The runtime, the calls in progress, and what has happened, the last first. -/
structure FinalizationState where
  runtime : CaseRuntime
  threads : List FinalizationPc
  history : List FinalizationEvent

/-- What a step meets: the exception it raises, if any, and the clock. -/
structure Instant where
  fault : Option Exn := none
  now : Time := 1

/-- A call that a thread makes. -/
inductive FinalizationCall where
  | begin (label : String)
  | publish (call : ArtifactCall)
  | commit
  | abort

inductive FinalizationAction where
  | call (c : FinalizationCall)
  | step (i : ℕ) (m : Instant)

/-- The first step of a call. -/
def FinalizationCall.start : FinalizationCall → FinalizationPc
  | begin label => .beginLook (.begin label)
  | publish call => .publishStart call
  | commit => .commitLook
  | abort => .abortLook

namespace BeginGoal

/-- The label of a transaction begun for the goal. -/
def label : BeginGoal → String
  | begin l => if l = "" then "case_finalization" else l
  | publish _ => "case_finalization"

/-- The transaction is there. -/
def next (t : ℕ) : BeginGoal → FinalizationPc
  | begin _ => .returnedTransaction t
  | publish call => .checkActive call t

end BeginGoal

namespace AfterAbort

/-- The abort returns. -/
def next (t : ℕ) : AfterAbort → FinalizationPc
  | done => .returnedNone
  | publish exc => .abortCheck t (.stage exc)
  | stage exc => .raised exc

/-- The abort raises. -/
def raises (t : ℕ) (exc : Exn) : AfterAbort → FinalizationPc
  | done => .raised exc
  | publish _ => .abortCheck t (.stage exc)
  | stage _ => .raised exc

end AfterAbort

namespace CaseRuntime

/-- "artifact publication transaction is closed" -/
def closedError : Exn := .runtimeError "artifact publication transaction is closed"

def preparedError : Exn := .runtimeError "artifact publication transaction is already prepared"

def alreadyCommitted : Exn := .runtimeError "Case finalization transaction is already committed"

def noAuthority : Exn := .configurationError "Case runtime has no Project artifact authority"

/-- A Case without an authority has no publisher to ask. -/
def noPublisher : Exn :=
  ⟨.other, "AttributeError", "'NoneType' object has no attribute 'commit_publications'", []⟩

def takenError (name : String) : Exn :=
  .configurationError ("Case artifact '" ++ name ++ "' was already published or staged")

def conflictError (names : List String) : Exn :=
  .configurationError
    ("Case artifacts were published concurrently: [" ++ ", ".intercalate names ++ "]")

end CaseRuntime

namespace FinalizationPc

open CaseRuntime

variable (P : Publisher)

/-- One step of a call: the runtime after it, the call after it, and what happened. -/
def step (m : Instant) (s : CaseRuntime) :
    FinalizationPc → Option (CaseRuntime × FinalizationPc × List FinalizationEvent)
  | publishStart call =>
      some (s, if s.hasPublisher then beginLook (.publish call) else raised noAuthority, [])
  | beginLook goal => some (s,
      match s.current with
      | some t => goal.next t
      | none => if s.committedRefs.entries ≠ [] then raised alreadyCommitted else beginCreate goal,
      [])
  | beginCreate goal => some (s.create goal.label,
      match m.fault with
      | some exc => raised exc
      | none => beginInstall goal s.transactions.length,
      [.begun s.transactions.length])
  | beginInstall goal t =>
      match s.current with
      -- The lock is held while the transaction that comes late is aborted.
      | some c => some (if s.isActive t then s.close t else s,
          match m.fault with
          | some exc => if s.isActive t then raised exc else goal.next c
          | none => goal.next c, [])
      | none => some (s.install t, goal.next t, [])
  | checkActive call t => some (s,
      if s.isActive t then checkPrepared call t else abortCheck t (.stage closedError), [])
  | checkPrepared call t => some (s,
      if (s.transactions[t]?).any (·.prepared) then abortCheck t (.stage preparedError)
      else if call.artifactName = "" then
        abortCheck t (.stage (.valueError "artifact name must be non-empty"))
      else reserve call t, [])
  | reserve call t =>
      if s.nameTaken t call.artifactName then
        some (s, abortCheck t (.stage (takenError call.artifactName)), [])
      else match m.fault with
        | some exc => some (s, abortCheck t (.stage exc), [])
        | none => some (s.reserve t call.artifactName, checkpoint call t, [])
  | checkpoint call t => some (s,
      match m.fault with
      | some exc => abortCheck t (.publish exc)
      | none => store call t, [])
  | store call t => some (s,
      match m.fault with
      | some exc => abortCheck t (.publish exc)
      | none => attach call t, [])
  | attach call t => some (s,
      match m.fault with
      | some exc => abortCheck t (.publish exc)
      | none => stage call t, [])
  | stage call t => some (s.stage t call.artifactName (s.published t call), recheck call t, [])
  | recheck call t => some (s,
      match m.fault with
      | some exc => abortCheck t (.publish exc)
      | none => stagedEvent call t, [])
  | stagedEvent call t =>
      match m.fault with
      | some exc => some (s, abortCheck t (.stage exc), [])
      | none => some (s, returnedRef (s.published t call),
          [.handed call.artifactName (s.published t call)])
  | abortLook => some (s,
      match s.finalization with
      | some t => abortCheck t .done
      | none => returnedNone, [])
  | abortCheck t after => some (s, if s.isActive t then abortClose t after else after.next t, [])
  | abortClose t after => some (s.close t,
      if s.hasPublisher then abortLedger t after else abortEvent t after, [])
  | abortLedger t after => some (s,
      match m.fault with
      | some exc => after.raises t exc
      | none => abortEvent t after, [])
  | abortEvent t after => some (s,
      match m.fault with
      | some exc => after.raises t exc
      | none => after.next t, [])
  | commitLook => some (s,
      match s.current with
      | some t => sealCheck t
      | none => returnedRefs s.committedRefs, [])
  | sealCheck t => some (s, if s.isActive t then sealCheckpoint t else raised closedError, [])
  | sealCheckpoint t => some (s,
      match m.fault with
      | some exc => raised exc
      | none => sealLocked t, [])
  | sealLocked t =>
      if s.conflicts t ≠ [] then some (s, raised (conflictError (s.conflicts t)), [])
      else if ¬ s.isActive t then some (s, raised closedError, [])
      else if ¬ s.hasPublisher then some (s.prepare t, raised noPublisher, [])
      else match m.fault with
        | some exc => some (s.prepare t, raised exc, [])
        | none => some ((s.prepare t).sealed t (s.receipts P t m.now), sealEvent (s.refsOf t),
            [.sealed t])
  | sealEvent refs => some (s,
      match m.fault with
      | some exc => raised exc
      | none => commitRecord refs, [])
  | commitRecord refs => some (s.recordCommitted refs, returnedRefs refs, [])
  | _ => none

end FinalizationPc

namespace FinalizationState

variable (P : Publisher)

/-- A Case that is about to start. -/
def start (hasPublisher : Bool) : FinalizationState := ⟨.start hasPublisher [], [], []⟩

/-- One step of the threads together. -/
def step (s : FinalizationState) : FinalizationAction → Option FinalizationState
  | .call c => some { s with threads := s.threads ++ [c.start] }
  | .step i m =>
      match s.threads[i]? with
      | none => none
      | some pc => (pc.step P m s.runtime).map fun r ↦
          ⟨r.1, s.threads.set i r.2.1, r.2.2 ++ s.history⟩

end FinalizationState

end Blackbase.Project
