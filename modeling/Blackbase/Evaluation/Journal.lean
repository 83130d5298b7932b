import Blackbase.Core.Rows
import Blackbase.Evaluation.Event

/-!
# The evaluation evidence journal

`EvaluationEvidenceRecord` and the operations of `EvaluationEvidenceJournal` of
`evaluation/journal.py`, on its three backends.  An operation is an updater of the record of
one event, which the backend applies in one atomic step.  A record is what its constructor
accepts; what a backend stores is the payload of a record, decoded again when it is read.
-/

namespace Blackbase.Evaluation

universe u

open Resources (Time)

inductive EvidenceStatus where
  | preparing
  | pending
  | deciding
  | committed
  | rejected
  | failed
  | abandoned
deriving DecidableEq

namespace EvidenceStatus

/-- The text of the status. -/
def text : EvidenceStatus → String
  | preparing => "preparing"
  | pending => "pending"
  | deciding => "deciding"
  | committed => "committed"
  | rejected => "rejected"
  | failed => "failed"
  | abandoned => "abandoned"

/-- The terminal statuses of a decision. -/
def decision : EvidenceStatus → Bool
  | committed | rejected | failed => true
  | _ => false

/-- `EVALUATION_EVIDENCE_TERMINAL_STATUSES`. -/
def terminal (s : EvidenceStatus) : Bool := s.decision || s = abandoned

/-- The terminal status a disposition announces. -/
def ofDisposition : DispositionStatus → EvidenceStatus
  | .committed => committed
  | .rejected => rejected
  | .failed => failed

end EvidenceStatus

/-- What the record and the operations refuse. -/
inductive EvidenceError where
  | keys
  | revision
  | timestamps
  | dispositionEventId
  | decidingWithoutIntent
  | withoutDisposition (status : EvidenceStatus)
  | statusDisagrees
  | carriesDisposition (status : EvidenceStatus)
  | verificationWithoutDisposition
  | verificationEventId
  | verificationEventSnapshot
  | verificationDigest
  | verificationStatus
  | stale (expected actual : ℤ)
  | reservedDifferently (eventId : String)
  | notReserved (eventId : String)
  | dispositionEventKey
  | differentIntent (eventId : String)
  | replacesTerminal (status : EvidenceStatus)
  | cannotPrepare (status : EvidenceStatus)
  | cannotSettle (status : EvidenceStatus)
  | receiptEvent
  | receiptEventSnapshot
  | receiptDestination
  | receiptDigest
  | terminalDisagrees
  | otherVerification
  | withoutReason
  | abandonsTerminal (status : EvidenceStatus)
deriving DecidableEq

/-- The text of the error. -/
def EvidenceError.message : EvidenceError → String
  | keys => "evaluation evidence requires event_id, run_id, and event_snapshot_key"
  | revision => "evaluation evidence revision must be positive"
  | timestamps => "evaluation evidence timestamps are invalid"
  | dispositionEventId => "evaluation evidence disposition event_id mismatch"
  | decidingWithoutIntent => "deciding evaluation evidence requires a disposition intent"
  | withoutDisposition s => s.text ++ " evaluation evidence requires a disposition"
  | statusDisagrees => "evaluation evidence terminal status disagrees with disposition"
  | carriesDisposition s => s.text ++ " evaluation evidence cannot carry a disposition"
  | verificationWithoutDisposition => "evaluation evidence verification requires a disposition"
  | verificationEventId => "evaluation evidence verification event_id mismatch"
  | verificationEventSnapshot => "evaluation evidence verification Event Snapshot mismatch"
  | verificationDigest => "evaluation evidence verification disposition digest mismatch"
  | verificationStatus => "only a decision terminal evidence record may carry verification"
  | stale expected actual => "stale evaluation evidence revision: expected=" ++
      toString expected ++ ", actual=" ++ toString actual
  | reservedDifferently e => "event_id '" ++ e ++ "' is already reserved with different identity"
  | notReserved e => "evaluation evidence '" ++ e ++ "' was not reserved"
  | dispositionEventKey => "disposition event_snapshot_key disagrees with the reserved Event"
  | differentIntent e => "event '" ++ e ++ "' already has a different disposition intent"
  | replacesTerminal s =>
      "cannot replace terminal evaluation evidence in status '" ++ s.text ++ "'"
  | cannotPrepare s => "cannot prepare disposition from status '" ++ s.text ++ "'"
  | cannotSettle s => "cannot settle evaluation evidence from status '" ++ s.text ++ "'"
  | receiptEvent => "verification receipt belongs to another Evaluation Event"
  | receiptEventSnapshot => "verification receipt Event Snapshot disagrees with journal"
  | receiptDestination => "verification receipt destination disagrees with disposition"
  | receiptDigest => "verification receipt disposition digest mismatch"
  | terminalDisagrees => "terminal evidence status disagrees with disposition"
  | otherVerification => "terminal evidence already carries another verification"
  | withoutReason => "abandoned evaluation evidence requires a reason"
  | abandonsTerminal s => "cannot abandon terminal evidence in status '" ++ s.text ++ "'"

/-! ## Records -/

/-- The fields of a record, which are also the payload a backend stores. -/
structure EvidenceFields (V : Type u) where
  eventId : String
  runId : String
  eventSnapshotKey : String
  status : EvidenceStatus
  disposition : Option (EvaluationDispositionEnvelope V)
  dispositionSnapshotKey : String
  verification : Option (EvaluationDispositionVerificationReceipt V)
  identity : WireMapping V
  metadata : WireMapping V
  revision : ℤ
  createdAt : Time
  updatedAt : Time
deriving DecidableEq

namespace EvidenceFields

variable {V : Type u} (D : DispositionDigest V) (f : EvidenceFields V)

/-- The texts stripped. -/
def normalize : EvidenceFields V :=
  { f with
    eventId := Text.strip f.eventId
    runId := Text.strip f.runId
    eventSnapshotKey := Text.strip f.eventSnapshotKey
    dispositionSnapshotKey := Text.strip f.dispositionSnapshotKey }

/-- What `__post_init__` refuses of the disposition. -/
def dispositionError : Option EvidenceError :=
  match f.disposition with
  | none =>
      if f.status = .deciding then some .decidingWithoutIntent
      else if f.status.decision then some (.withoutDisposition f.status)
      else none
  | some envelope =>
      if envelope.eventId ≠ f.eventId then some .dispositionEventId
      else if f.status.decision ∧ EvidenceStatus.ofDisposition envelope.status ≠ f.status then
        some .statusDisagrees
      else if f.status = .preparing ∨ f.status = .pending then some (.carriesDisposition f.status)
      else none

/-- What `__post_init__` refuses of the verification. -/
def verificationError : Option EvidenceError :=
  match f.verification with
  | none => none
  | some receipt =>
      match f.disposition with
      | none => some .verificationWithoutDisposition
      | some envelope =>
          if receipt.eventId ≠ f.eventId then some .verificationEventId
          else if receipt.eventSnapshotKey ≠ f.eventSnapshotKey then
            some .verificationEventSnapshot
          else if receipt.dispositionDigest ≠ D.digest envelope then some .verificationDigest
          else if ¬ f.status.decision then some .verificationStatus
          else none

/-- What `__post_init__` refuses. -/
def error : Option EvidenceError :=
  if f.eventId = "" ∨ f.runId = "" ∨ f.eventSnapshotKey = "" then some .keys
  else if f.revision < 1 then some .revision
  else if f.createdAt ≤ 0 ∨ f.updatedAt ≤ 0 ∨ f.updatedAt < f.createdAt then some .timestamps
  else f.dispositionError.or (f.verificationError D)

theorem normalize_normalize : f.normalize.normalize = f.normalize := by
  simp [normalize]

end EvidenceFields

/-- `EvaluationEvidenceRecord`. -/
structure EvaluationEvidenceRecord {V : Type u} (D : DispositionDigest V) extends
    EvidenceFields V where
  normal : toEvidenceFields.normalize = toEvidenceFields
  valid : toEvidenceFields.error D = none

namespace EvaluationEvidenceRecord

variable {V : Type u} {D : DispositionDigest V}

@[ext]
theorem ext {r r' : EvaluationEvidenceRecord D} (h : r.toEvidenceFields = r'.toEvidenceFields) :
    r = r' := by
  cases r
  cases r'
  cases h
  rfl

instance [DecidableEq V] : DecidableEq (EvaluationEvidenceRecord D) := fun _ _ ↦
  decidable_of_iff _ EvaluationEvidenceRecord.ext_iff.symm

/-- The constructor. -/
def make (D : DispositionDigest V) (fields : EvidenceFields V) :
    Except EvidenceError (EvaluationEvidenceRecord D) :=
  match h : fields.normalize.error D with
  | some e => .error e
  | none => .ok ⟨fields.normalize, fields.normalize_normalize, h⟩

/-- A record is accepted by the constructor, which changes nothing. -/
@[simp] theorem make_toEvidenceFields (r : EvaluationEvidenceRecord D) :
    make D r.toEvidenceFields = .ok r := by
  unfold make
  split
  · next e h =>
      rw [r.normal, r.valid] at h
      cases h
  · exact congrArg Except.ok (ext r.normal)

/-- What the constructor accepts. -/
theorem fields_of_make {fields : EvidenceFields V} {r : EvaluationEvidenceRecord D}
    (h : make D fields = .ok r) : r.toEvidenceFields = fields.normalize := by
  unfold make at h
  split at h
  · cases h
  · obtain rfl := Except.ok.inj h
    rfl

end EvaluationEvidenceRecord

/-! ## Operations -/

/-- What an operation makes of the record of its event. -/
abbrev RecordUpdater {V : Type u} (D : DispositionDigest V) :=
  Option (EvaluationEvidenceRecord D) → Except EvidenceError (EvaluationEvidenceRecord D)

/-- What `_next` is given to change. -/
structure NextFields (V : Type u) where
  status : EvidenceStatus
  disposition : Option (EvaluationDispositionEnvelope V) := none
  dispositionSnapshotKey : Option String := none
  verification : Option (EvaluationDispositionVerificationReceipt V) := none
  metadata : WireMapping V := ∅

namespace EvaluationEvidenceRecord

variable {V : Type u} {D : DispositionDigest V}

/-- The fields `_next` passes to the constructor. -/
def nextFields (current : EvaluationEvidenceRecord D) (now : Time) (change : NextFields V) :
    EvidenceFields V :=
  { current.toEvidenceFields with
    status := change.status
    disposition := change.disposition.or current.disposition
    dispositionSnapshotKey := change.dispositionSnapshotKey.getD current.dispositionSnapshotKey
    verification := change.verification.or current.verification
    metadata := change.metadata ∪ current.metadata
    revision := current.revision + 1
    updatedAt := now }

/-- `_next`. -/
def next (current : EvaluationEvidenceRecord D) (now : Time) (change : NextFields V) :
    Except EvidenceError (EvaluationEvidenceRecord D) :=
  make D (current.nextFields now change)

/-- What `_expected` refuses. -/
def staleError (current : EvaluationEvidenceRecord D) (expected : Option ℤ) :
    Option EvidenceError :=
  match expected with
  | none => none
  | some revision =>
      if current.revision ≠ revision then some (.stale revision current.revision) else none

/-- The key under which the destination of a disposition is expected. -/
def destination (current : EvaluationEvidenceRecord D)
    (envelope : EvaluationDispositionEnvelope V) : String :=
  if envelope.status = .committed then envelope.authoritySnapshotKey
  else current.dispositionSnapshotKey

/-- What `settle` refuses of the receipt. -/
def receiptError (current : EvaluationEvidenceRecord D)
    (envelope : EvaluationDispositionEnvelope V)
    (verification : EvaluationDispositionVerificationReceipt V) : Option EvidenceError :=
  if verification.eventId ≠ current.eventId then some .receiptEvent
  else if verification.eventSnapshotKey ≠ current.eventSnapshotKey then some .receiptEventSnapshot
  else if verification.destinationSnapshotKey ≠ current.destination envelope then
    some .receiptDestination
  else if verification.dispositionDigest ≠ D.digest envelope then some .receiptDigest
  else none

variable [WireEq V]

/-- The updater of `reserve`.  `shared` says whether the backend holds the objects it was given. -/
def reserve (shared : Bool) (eventId : String) (requested : EvaluationEvidenceRecord D) :
    RecordUpdater D
  | none => .ok requested
  | some current =>
      if current.runId = requested.runId ∧
          current.eventSnapshotKey = requested.eventSnapshotKey ∧
            WireMapping.Same shared false current.identity requested.identity then .ok current
      else .error (.reservedDifferently eventId)

/-- The updater of `mark_event_durable`. -/
def markEventDurable (eventId : String) (expected : Option ℤ) (now : Time) : RecordUpdater D
  | none => .error (.notReserved eventId)
  | some current =>
      match current.staleError expected with
      | some e => .error e
      | none =>
          if current.status = .preparing then current.next now { status := .pending }
          else .ok current

/-- The updater of `prepare_disposition`. -/
def prepareDisposition (shared : Bool) (envelope : EvaluationDispositionEnvelope V)
    (dispositionSnapshotKey : String) (expected : Option ℤ) (now : Time) : RecordUpdater D
  | none => .error (.notReserved envelope.eventId)
  | some current =>
      match current.staleError expected with
      | some e => .error e
      | none =>
          if envelope.eventSnapshotKey ≠ current.eventSnapshotKey then
            .error .dispositionEventKey
          else if current.status = .pending then
            current.next now
              { status := .deciding
                disposition := some envelope
                dispositionSnapshotKey := some dispositionSnapshotKey }
          else if current.status = .deciding then
            if (∃ stored ∈ current.disposition, stored.SameAsGiven shared envelope) ∧
                current.dispositionSnapshotKey = dispositionSnapshotKey then .ok current
            else .error (.differentIntent envelope.eventId)
          else if current.status = .ofDisposition envelope.status ∧
              ∃ stored ∈ current.disposition, stored.SameAsGiven shared envelope then .ok current
          else if current.status.terminal then .error (.replacesTerminal current.status)
          else .error (.cannotPrepare current.status)

/-- The updater of `settle`. -/
def settle (shared : Bool) (eventId : String)
    (verification : EvaluationDispositionVerificationReceipt V) (expected : Option ℤ)
    (now : Time) : RecordUpdater D
  | none => .error (.notReserved eventId)
  | some current =>
      match current.staleError expected with
      | some e => .error e
      | none =>
          match current.disposition with
          | none => .error (.cannotSettle current.status)
          | some envelope =>
              match current.receiptError envelope verification with
              | some e => .error e
              | none =>
                  if current.status.decision then
                    if current.status ≠ .ofDisposition envelope.status then
                      .error .terminalDisagrees
                    else match current.verification with
                      | some existing =>
                          if ¬ existing.Same shared verification.toReceiptFields then
                            .error .otherVerification
                          else .ok current
                      | none => current.next now
                          { status := current.status, verification := some verification }
                  else if current.status ≠ .deciding then .error (.cannotSettle current.status)
                  else current.next now
                    { status := .ofDisposition envelope.status
                      verification := some verification }

/-- The updater of `abandon`. -/
def abandon [WireText V] (eventId reason : String) (metadata : WireMapping V)
    (expected : Option ℤ) (now : Time) : RecordUpdater D
  | none => .error (.notReserved eventId)
  | some current =>
      match current.staleError expected with
      | some e => .error e
      | none =>
          if current.status = .abandoned then .ok current
          else if current.status.terminal then .error (.abandonsTerminal current.status)
          else current.next now
            { status := .abandoned
              metadata := metadata ∪ Finmap.singleton "abandon_reason" (WireText.ofText reason) }

end EvaluationEvidenceRecord

/-- A call of an operation of the journal, with the clock readings it makes. -/
inductive JournalCall (V : Type u) where
  | reserve (eventId runId eventSnapshotKey : String) (identity metadata : WireMapping V)
      (createdAt updatedAt : Time)
  | markEventDurable (eventId : String) (expected : Option ℤ) (now : Time)
  | prepareDisposition (envelope : EvaluationDispositionEnvelope V)
      (dispositionSnapshotKey : String) (expected : Option ℤ) (now : Time)
  | settle (eventId : String) (verification : EvaluationDispositionVerificationReceipt V)
      (expected : Option ℤ) (now : Time)
  | abandon (eventId reason : String) (metadata : WireMapping V) (expected : Option ℤ)
      (now : Time)

namespace JournalCall

variable {V : Type u} [WireEq V] [WireText V] (D : DispositionDigest V)

/-- The event and the updater that the call hands to `_atomic_update`. -/
def plan (shared : Bool) : JournalCall V → Except EvidenceError (String × RecordUpdater D)
  | reserve eventId runId eventSnapshotKey identity metadata createdAt updatedAt =>
      (EvaluationEvidenceRecord.make D
        { eventId := eventId, runId := runId, eventSnapshotKey := eventSnapshotKey
          status := .preparing, disposition := none, dispositionSnapshotKey := ""
          verification := none, identity := identity, metadata := metadata, revision := 1
          createdAt := createdAt, updatedAt := updatedAt }).map fun requested ↦
        (requested.eventId, EvaluationEvidenceRecord.reserve shared eventId requested)
  | markEventDurable eventId expected now =>
      .ok (eventId, EvaluationEvidenceRecord.markEventDurable eventId expected now)
  | prepareDisposition envelope key expected now =>
      .ok (envelope.eventId,
        EvaluationEvidenceRecord.prepareDisposition shared envelope key expected now)
  | settle eventId verification expected now =>
      .ok (eventId, EvaluationEvidenceRecord.settle shared eventId verification expected now)
  | abandon eventId reason metadata expected now =>
      if Text.strip reason = "" then .error .withoutReason
      else .ok (eventId,
        EvaluationEvidenceRecord.abandon eventId (Text.strip reason) metadata expected now)

end JournalCall

/-! ## Backends -/

/-- `InMemoryEvaluationEvidenceJournal`. -/
structure InMemoryJournal {V : Type u} (D : DispositionDigest V) where
  records : String → Option (EvaluationEvidenceRecord D)

/-- A row of the table of one namespace. -/
structure EvidenceRow (V : Type u) where
  eventId : String
  runId : String
  status : EvidenceStatus
  revision : ℤ
  createdAt : Time
  payload : EvidenceFields V

/-- `SQLiteEvaluationEvidenceJournal`. -/
structure SQLiteJournal (V : Type u) where
  rows : List (EvidenceRow V)

/-- `RedisEvaluationEvidenceJournal`.  The key of an event is a digest of its id. -/
structure RedisJournal (V : Type u) where
  key : String → String
  values : String → Option (EvidenceFields V)

section Backends

variable {V : Type u} {D : DispositionDigest V}

/-- The payload that has been read, decoded. -/
def decode (D : DispositionDigest V) (payload : Option (EvidenceFields V)) :
    Except EvidenceError (Option (EvaluationEvidenceRecord D)) :=
  match payload with
  | none => .ok none
  | some fields => (EvaluationEvidenceRecord.make D fields).map some

namespace InMemoryJournal

/-- `_atomic_update`. -/
def atomicUpdate (s : InMemoryJournal D) (eventId : String) (updater : RecordUpdater D) :
    Except EvidenceError (EvaluationEvidenceRecord D) × InMemoryJournal D :=
  match updater (s.records eventId) with
  | .error e => (.error e, s)
  | .ok updated =>
      match EvaluationEvidenceRecord.make D updated.toEvidenceFields with
      | .error e => (.error e, s)
      | .ok detached =>
          (.ok detached, ⟨Function.update s.records updated.eventId (some detached)⟩)

end InMemoryJournal

namespace SQLiteJournal

/-- The payload of the row of an event. -/
def payload (s : SQLiteJournal V) (eventId : String) : Option (EvidenceFields V) :=
  (Rows.lookup EvidenceRow.eventId eventId s.rows).map (·.payload)

/-- The row of a record. -/
def row (fields : EvidenceFields V) : EvidenceRow V where
  eventId := fields.eventId
  runId := fields.runId
  status := fields.status
  revision := fields.revision
  createdAt := fields.createdAt
  payload := fields

/-- `INSERT ... ON CONFLICT DO UPDATE`. -/
def upsert (s : SQLiteJournal V) (r : EvidenceRow V) : SQLiteJournal V where
  rows :=
    if (Rows.lookup EvidenceRow.eventId r.eventId s.rows).isSome then
      Rows.update EvidenceRow.eventId r.eventId (fun _ ↦ r) s.rows
    else s.rows ++ [r]

/-- `_atomic_update`: one transaction. -/
def atomicUpdate (s : SQLiteJournal V) (eventId : String) (updater : RecordUpdater D) :
    Except EvidenceError (EvaluationEvidenceRecord D) × SQLiteJournal V :=
  match (decode D (s.payload eventId)).bind updater with
  | .error e => (.error e, s)
  | .ok updated => (.ok updated, s.upsert (row updated.toEvidenceFields))

end SQLiteJournal

namespace RedisJournal

/-- `_atomic_update`: an attempt that is not disturbed. -/
def atomicUpdate (s : RedisJournal V) (eventId : String) (updater : RecordUpdater D) :
    Except EvidenceError (EvaluationEvidenceRecord D) × RedisJournal V :=
  match (decode D (s.values (s.key eventId))).bind updater with
  | .error e => (.error e, s)
  | .ok updated =>
      let values := Function.update s.values (s.key eventId) (some updated.toEvidenceFields)
      (.ok updated, { s with values := values })

end RedisJournal

end Backends

/-- A journal on one of its backends. -/
inductive Journal {V : Type u} (D : DispositionDigest V) where
  | memory (s : InMemoryJournal D)
  | sqlite (s : SQLiteJournal V)
  | redis (s : RedisJournal V)

namespace Journal

variable {V : Type u} {D : DispositionDigest V}

/-- `_atomic_update`. -/
def atomicUpdate (j : Journal D) (eventId : String) (updater : RecordUpdater D) :
    Except EvidenceError (EvaluationEvidenceRecord D) × Journal D :=
  match j with
  | memory s => Prod.map id memory (s.atomicUpdate eventId updater)
  | sqlite s => Prod.map id sqlite (s.atomicUpdate eventId updater)
  | redis s => Prod.map id redis (s.atomicUpdate eventId updater)

/-- `get`. -/
def get (j : Journal D) (eventId : String) :
    Except EvidenceError (Option (EvaluationEvidenceRecord D)) :=
  match j with
  | memory s => .ok (s.records eventId)
  | sqlite s => decode D (s.payload eventId)
  | redis s => decode D (s.values (s.key eventId))

/-- A record in memory holds the objects it was made of; the others decode new ones. -/
def shared : Journal D → Bool
  | memory _ => true
  | sqlite _ | redis _ => false

variable [WireEq V] [WireText V]

/-- A call on the journal. -/
def exec (j : Journal D) (call : JournalCall V) :
    Except EvidenceError (EvaluationEvidenceRecord D) × Journal D :=
  match call.plan D j.shared with
  | .error e => (.error e, j)
  | .ok (eventId, updater) => j.atomicUpdate eventId updater

/-- One step of a run: a call, whether it is accepted or not. -/
def step (j : Journal D) (call : JournalCall V) : Option (Journal D) := some (j.exec call).2

end Journal

end Blackbase.Evaluation
