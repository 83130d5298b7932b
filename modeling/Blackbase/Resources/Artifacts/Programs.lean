import Blackbase.Core.Machine
import Blackbase.Resources.Artifacts.Ledger

/-!
# The publication ledger, file step by file step

The operations of the ledger as programs of single file steps: an existence check, a read,
an exclusive create, a write, a rename or a deletion.  A program counter holds what the
operation has in hand, and each step does one thing to the files and computes up to the
next.  Temporary files of a replace have names of their own and are not modelled, nor is
the removal of what is left of them.

A process may stop for ever between two steps, which is how a crash looks to the others.
-/

namespace Blackbase.Resources.Artifacts

/-- What a step meets. -/
structure Moment where
  /-- `time.time()`. -/
  now : Time := 1
  /-- The file operation raises an `OSError`. -/
  fails : Bool := false
  /-- A write that fails has left the whole content behind. -/
  flushed : Bool := false
  /-- The element a loop over a set of names takes next. -/
  name : String := ""
  /-- The names a directory listing yields. -/
  names : List String := []

/-! ## `commit` -/

/-- The refs or receipts of a call by artifact name. -/
abbrev Receipts := List (String × ArtifactPublicationReceipt)

/-- The arguments of `commit`. -/
structure CommitCall where
  transactionId : String
  refs : List (String × DataRef)
  leaseId : String
  fencingToken : ℕ
  metadata : List (String × String)
deriving DecidableEq

/-- What `_validate_physical_ref` does with the file next: the size has been read when the
digest is taken. -/
inductive PhysicalCheck where
  | isFile
  | stat
  | digest (size : ℕ)
deriving DecidableEq

/-- Where `commit` is.  `todo` is what follows of a loop, and `restored` are the receipts
of the record a retry has found. -/
inductive CommitPc where
  | readCommit
  | checkTombstone
  | readName (name : String) (ref : DataRef) (todo : List (String × DataRef))
  | validate (restored : Option Receipts) (check : PhysicalCheck) (name : String) (ref : DataRef)
      (todo : List (String × DataRef))
  | stamp
  | create (record : CommitRecord)
  | write (record : CommitRecord)
  | conflict (record : CommitRecord)
  | compact (record : CommitRecord) (todo : List String)
  | returned (receipts : Receipts)
  | raised (e : LedgerError)
deriving DecidableEq

namespace CommitCall

variable (L : PublicationLedger) (c : CommitCall)

def transaction : String := Text.strip c.transactionId

/-- The head of the loop over the refs that are to be committed. -/
def reserveNext : List (String × DataRef) → CommitPc
  | [] => .stamp
  | (name, ref) :: todo => .readName name ref todo

/-- The start of `_validate_physical_ref`. -/
def validateNext (restored : Option Receipts) (name : String) (ref : DataRef)
    (todo : List (String × DataRef)) : CommitPc :=
  match L.locationError name ref with
  | some e => .raised e
  | none => .validate restored .isFile name ref todo

/-- The head of the loop over the refs of a retry. -/
def restoreNext (receipts : Receipts) : List (String × DataRef) → CommitPc
  | [] => .returned receipts
  | (name, ref) :: todo => validateNext L (some receipts) name ref todo

/-- The end of `_validate_physical_ref`. -/
def validated (restored : Option Receipts) (todo : List (String × DataRef)) : CommitPc :=
  match restored with
  | none => reserveNext todo
  | some receipts => restoreNext L receipts todo

/-- A retry, once it has read the record of the transaction. -/
def restore (existing : CommitRecord) : CommitPc :=
  if existing.status ≠ "committed" then .raised (.nonCommitRecord c.transaction)
  else if ¬ (existing.receipts.all fun e ↦ c.refs.any fun r ↦ r.1 = e.1) ∨
      ¬ (c.refs.all fun r ↦ existing.receipts.any fun e ↦ e.1 = r.1) then
    .raised (.retryChangedNames c.transaction)
  else if c.refs.any fun r ↦ (existing.receipts.lookup r.1).map (·.ref) ≠ some r.2 then
    .raised (.retryChangedRef c.transaction)
  else restoreNext L existing.receipts c.refs

/-- The receipts of the call. -/
def receipts (committedAt : Time) : Receipts :=
  c.refs.map fun r ↦ (r.1, L.receipt c.transaction c.leaseId c.fencingToken c.metadata
    committedAt r.1 r.2)

/-- The commit record. -/
def record (committedAt : Time) : CommitRecord where
  status := "committed"
  transactionId := c.transaction
  committedAt := committedAt
  receipts := c.receipts L committedAt

/-- One step of `commit`. -/
def step (m : Moment) (f : LedgerFiles) : CommitPc → Option (LedgerFiles × CommitPc)
  | .readCommit => some (f,
      if c.transaction = "" then .raised .needsTransaction
      else match (f.commits c.transaction).read with
        | .error e => .raised e
        | .ok (some existing) => c.restore L existing
        | .ok none => .checkTombstone)
  | .checkTombstone => some (f,
      if (f.tombstones c.transaction).present then .raised (.alreadyAborted c.transaction)
      else reserveNext c.refs)
  | .readName name ref todo => some (f,
      match (f.names name).read with
      | .error e => .raised e
      | .ok record =>
          if ((record.bind fun r ↦ r.heldBy name c.transaction).isNone : Bool) then
            .raised (.notReserved name c.transaction)
          else if ref.checksum = "" then .raised (.noChecksum name)
          else validateNext L none name ref todo)
  | .validate restored .isFile name ref todo => some (f,
      if (f.payloads ref.uri).isSome then .validate restored .stat name ref todo
      else .raised (.missing name))
  | .validate restored .stat name ref todo => some (f,
      match f.payloads ref.uri with
      | some p => if m.fails then .raised (.unreadable name)
          else .validate restored (.digest p.size) name ref todo
      | none => .raised (.unreadable name))
  | .validate restored (.digest size) name ref todo => some (f,
      match f.payloads ref.uri with
      | some p => if m.fails then .raised (.unreadable name)
          else match L.contentError name ref size p.checksum with
            | some e => .raised e
            | none => validated L restored todo
      | none => .raised (.unreadable name))
  | .stamp => some (f,
      match (c.receipts L m.now).findSome? fun e ↦ e.2.error with
      | some e => .raised e
      | none => .create (c.record L m.now))
  | .create record =>
      if m.fails then some (f, .raised .os)
      else if (f.commits c.transaction).present then some (f, .conflict record)
      else some (f.setCommit c.transaction .opened, .write record)
  | .write record =>
      if m.fails then
        some (if m.flushed then f.setCommit c.transaction (.holds record) else f, .raised .os)
      else some (f.setCommit c.transaction (.holds record), .compact record (c.refs.map (·.1)))
  | .conflict record => some (f,
      match (f.commits c.transaction).read with
      | .error e => .raised e
      | .ok existing =>
          if existing = some record then .compact record (c.refs.map (·.1))
          else .raised (.conflicts c.transaction))
  | .compact record [] => some (f, .returned record.receipts)
  -- The name records are an index that can be rebuilt: an error here is passed over.
  | .compact record (name :: todo) => some (if m.fails then f else
      f.setName name (.holds (.committed name c.transaction record.committedAt)),
      .compact record todo)
  | .returned _ => none
  | .raised _ => none

end CommitCall

/-! ## `abort` -/

/-- The arguments of `abort`. -/
structure AbortCall where
  transactionId : String
  refs : List (String × DataRef)
  reason : String
  artifactNames : List String
deriving DecidableEq

/-- Where `abort` is: `todo` are the names the loop has not come to. -/
inductive AbortPc where
  | checkCommit
  | checkTombstone (tombstone : Tombstone)
  | createTombstone (tombstone : Tombstone)
  | writeTombstone (tombstone : Tombstone)
  | sweep (todo : List String)
  | unlinkName (name : String) (todo : List String)
  | deleteRef (ref : DataRef) (todo : List String)
  | returned
  | raised (e : LedgerError)
deriving DecidableEq

namespace AbortCall

variable (L : PublicationLedger) (c : AbortCall)

def transaction : String := Text.strip c.transactionId

/-- The names of the refs and the names given. -/
def allNames : List String := (c.refs.map (·.1) ++ c.artifactNames).dedup

/-- The tombstone. -/
def tombstone (abortedAt : Time) : Tombstone where
  transactionId := c.transaction
  reason := if c.reason = "" then "aborted" else c.reason
  abortedAt := abortedAt
  artifactNames := c.allNames.insertionSort (· ≤ ·)

/-- What the loop does with a name once its reservation is gone: `_delete_provisional_ref`,
if the call has a ref for it. -/
def afterName (name : String) (todo : List String) : AbortPc :=
  match c.refs.lookup name with
  | none => .sweep todo
  | some ref =>
      if ref.backend ≠ "filesystem" then .sweep todo
      else if ¬ L.within ref.uri then .raised (.provisionalEscapes ref.uri)
      else .deleteRef ref todo

/-- One step of `abort`. -/
def step (m : Moment) (f : LedgerFiles) : AbortPc → Option (LedgerFiles × AbortPc)
  | .checkCommit => some (f,
      if c.transaction = "" then .returned
      else if (f.commits c.transaction).present then .raised (.committed c.transaction)
      else .checkTombstone (c.tombstone m.now))
  | .checkTombstone tombstone => some (f,
      if (f.tombstones c.transaction).present then .sweep c.allNames
      else .createTombstone tombstone)
  | .createTombstone tombstone =>
      if m.fails ∨ (f.tombstones c.transaction).present then some (f, .raised .os)
      else some (f.setTombstone c.transaction .opened, .writeTombstone tombstone)
  | .writeTombstone tombstone =>
      if m.fails then
        some (if m.flushed then f.setTombstone c.transaction (.holds tombstone) else f,
          .raised .os)
      else some (f.setTombstone c.transaction (.holds tombstone), .sweep c.allNames)
  | .sweep [] => some (f, .returned)
  | .sweep (first :: rest) =>
      if m.name ∈ first :: rest then
        some (f, match (f.names m.name).read with
          | .error e => .raised e
          | .ok record =>
              if record.any fun r ↦ r.transactionId = c.transaction then
                .unlinkName m.name ((first :: rest).erase m.name)
              else c.afterName L m.name ((first :: rest).erase m.name))
      else none
  | .unlinkName name todo =>
      if m.fails then some (f, .raised .os)
      else some (f.setName name .absent, c.afterName L name todo)
  | .deleteRef ref todo =>
      if m.fails then some (f, .raised .os)
      else some (f.setPayload ref.uri none, .sweep todo)
  | .returned => none
  | .raised _ => none

end AbortCall

/-! ## `scavenge_stale_reservations` -/

/-- The arguments of `scavenge_stale_reservations`. -/
structure ScavengeCall where
  currentLeaseId : String
  currentFencingToken : ℕ
  staleAfterSeconds : Time
  now : Option Time
deriving DecidableEq

/-- What the scavenger reports of one transaction. -/
structure ScavengeEvidence where
  transactionId : String
  status : String
  artifactNames : List String
deriving DecidableEq

/-- Reservations by transaction. -/
abbrev ReservationGroups := List (String × List Reservation)

/-- Where the scavenger is: `entries` are the reservations it has read and whether each is
stale, `rest` are the stale transactions it has not come to. -/
inductive ScavengePc where
  | glob
  | read (observedAt : Time) (todo : List String) (entries : List (Reservation × Bool))
  | checkCommit (transaction : String) (entries : List Reservation) (rest : ReservationGroups)
      (evidence : List ScavengeEvidence)
  | aborting (call : AbortCall) (pc : AbortPc) (rest : ReservationGroups)
      (evidence : List ScavengeEvidence)
  | returned (evidence : List ScavengeEvidence)
  | raised (e : LedgerError)
deriving DecidableEq

namespace ScavengeCall

variable (L : PublicationLedger) (c : ScavengeCall)

/-- The lease of the reservation has been fenced off. -/
def fenced (r : Reservation) : Bool :=
  c.currentLeaseId ≠ "" && r.leaseId ≠ "" &&
    (r.leaseId ≠ c.currentLeaseId || r.fencingToken < c.currentFencingToken)

def sameCurrentOwner (r : Reservation) : Bool :=
  c.currentLeaseId ≠ "" && r.leaseId = c.currentLeaseId && r.fencingToken = c.currentFencingToken

def stale (observedAt : Time) (r : Reservation) : Bool :=
  c.fenced r ||
    (!c.sameCurrentOwner r && max 1 c.staleAfterSeconds ≤ max 0 (observedAt - r.reservedAt))

/-- The transactions all of whose reservations are stale. -/
def groups (entries : List (Reservation × Bool)) : ReservationGroups :=
  ((entries.map (·.1.transactionId)).eraseDups.filter fun t ↦
    entries.all fun e ↦ e.1.transactionId ≠ t || e.2).map fun t ↦
      (t, (entries.filter fun e ↦ e.1.transactionId = t).map (·.1))

/-- The head of the loop over the transactions. -/
def next (evidence : List ScavengeEvidence) : ReservationGroups → ScavengePc
  | [] => .returned evidence
  | (t, entries) :: rest => .checkCommit t entries rest evidence

/-- The head of the loop over the name records. -/
def readNext (observedAt : Time) (entries : List (Reservation × Bool)) : List String → ScavengePc
  | [] => next [] (groups entries)
  | name :: todo => .read observedAt (name :: todo) entries

/-- The call of `abort` for one transaction. -/
def abortCall (t : String) (entries : List Reservation) : AbortCall where
  transactionId := t
  refs := entries.filterMap fun r ↦ r.provisionalRef.map fun ref ↦ (r.artifactName, ref)
  reason := "stale_reservation_scavenged"
  artifactNames := entries.map (·.artifactName)

/-- One step of the scavenger. -/
def step (m : Moment) (f : LedgerFiles) : ScavengePc → Option (LedgerFiles × ScavengePc)
  | .glob => if m.names.Nodup then some (f, readNext (c.now.getD m.now) [] m.names) else none
  | .read observedAt [] entries => some (f, readNext observedAt entries [])
  | .read observedAt (name :: todo) entries => some (f,
      match (f.names name).read with
      | .error e => .raised e
      | .ok (some (.reserved r)) =>
          if r.transactionId = "" then readNext observedAt entries todo
          else readNext observedAt (entries ++ [(r, c.stale observedAt r)]) todo
      | .ok _ => readNext observedAt entries todo)
  | .checkCommit t entries rest evidence => some (f,
      if (f.commits t).present then next evidence rest
      else if entries.any fun r ↦ r.artifactName = "" then
        next (evidence ++ [⟨t, "invalid_reservation", []⟩]) rest
      else .aborting (abortCall t entries) .checkCommit rest evidence)
  | .aborting call pc rest evidence =>
      (call.step L m f pc).map fun p ↦ (p.1,
        match p.2 with
        | .returned => next (evidence ++ [⟨call.transactionId, "scavenged",
            call.artifactNames.insertionSort (· ≤ ·)⟩]) rest
        | .raised e => .raised e
        | pc' => .aborting call pc' rest evidence)
  | .returned _ => none
  | .raised _ => none

end ScavengeCall

/-! ## The publication of one artifact -/

/-- One call of `publish` of a transaction: its name is reserved, its bytes are stored
under a path of its own, and the ref is attached to the reservation.  `ref` is the
`DataRef` the store makes of the `payload`. -/
structure PublishCall where
  name : String
  transactionId : String
  leaseId : String
  fencingToken : ℕ
  reservedAt : Time
  ref : DataRef
  payload : Payload
deriving DecidableEq

/-- Where the publication is. -/
inductive PublishPc where
  | reserve
  | writeReservation
  | readReservation
  | store
  | attachRead
  | attachReplace (current : Reservation)
  | returned
  | raised (e : LedgerError)
deriving DecidableEq

namespace PublishCall

variable (c : PublishCall)

def artifactName : String := Text.strip c.name

def transaction : String := Text.strip c.transactionId

/-- The reservation `reserve` writes. -/
def reservation : Reservation where
  artifactName := c.artifactName
  transactionId := c.transaction
  leaseId := c.leaseId
  fencingToken := c.fencingToken
  reservedAt := c.reservedAt
  provisionalRef := none

/-- The reservation of the call in a record that has been read. -/
def held (record : Option NameRecord) : Option Reservation :=
  record.bind fun r ↦ r.heldBy c.artifactName c.transaction

/-- A record that holds the reservation of the call. -/
theorem held_eq_some {c : PublishCall} {record : Option NameRecord} {r : Reservation}
    (h : c.held record = some r) :
    record = some (.reserved r) ∧ r.artifactName = c.artifactName ∧
      r.transactionId = c.transaction := by
  obtain ⟨record, rfl, hheld⟩ := Option.bind_eq_some_iff.mp h
  cases record with
  | committed n t at_ => cases hheld
  | reserved r' =>
      simp only [NameRecord.heldBy] at hheld
      split_ifs at hheld with hsame
      obtain rfl := Option.some.inj hheld
      exact ⟨rfl, hsame.2, hsame.1⟩

/-- One step of `reserve`, `publish_file` and `attach_provisional` in turn. -/
def step (m : Moment) (f : LedgerFiles) : PublishPc → Option (LedgerFiles × PublishPc)
  | .reserve =>
      if c.artifactName = "" ∨ c.transaction = "" then
        some (f, .raised .needsNameAndTransaction)
      else if m.fails then some (f, .raised .os)
      else if (f.names c.artifactName).present then some (f, .readReservation)
      else some (f.setName c.artifactName .opened, .writeReservation)
  | .writeReservation =>
      if m.fails then
        some (if m.flushed then f.setName c.artifactName (.holds (.reserved c.reservation))
          else f, .raised .os)
      else some (f.setName c.artifactName (.holds (.reserved c.reservation)), .store)
  | .readReservation => some (f,
      match (f.names c.artifactName).read with
      | .error e => .raised e
      | .ok record =>
          if (c.held record).isSome then .store else .raised (.alreadyReserved c.artifactName))
  | .store =>
      if m.fails then some (f, .raised .os)
      else some (f.setPayload c.ref.uri (some c.payload), .attachRead)
  | .attachRead => some (f,
      match (f.names c.artifactName).read with
      | .error e => .raised e
      | .ok record =>
          match c.held record with
          | none => .raised (.noProvisional c.artifactName)
          | some current =>
              match current.provisionalRef with
              | some existing =>
                  if existing ≠ c.ref then .raised (.contentChanged c.artifactName)
                  else .returned
              | none => .attachReplace current)
  | .attachReplace current =>
      if m.fails then some (f, .raised .os)
      else some (f.setName c.artifactName (.holds (.reserved
        { current with provisionalRef := some c.ref })), .returned)
  | .returned => none
  | .raised _ => none

end PublishCall

/-! ## Processes -/

/-- A process at work on the ledger. -/
inductive Process where
  | publish (c : PublishCall) (pc : PublishPc)
  | commit (c : CommitCall) (pc : CommitPc)
  | abort (c : AbortCall) (pc : AbortPc)
  | scavenge (c : ScavengeCall) (pc : ScavengePc)
deriving DecidableEq

namespace Process

variable (L : PublicationLedger)

/-- One step of a process. -/
def step (m : Moment) (f : LedgerFiles) : Process → Option (LedgerFiles × Process)
  | publish c pc => (c.step m f pc).map fun p ↦ (p.1, publish c p.2)
  | commit c pc => (c.step L m f pc).map fun p ↦ (p.1, commit c p.2)
  | abort c pc => (c.step L m f pc).map fun p ↦ (p.1, abort c p.2)
  | scavenge c pc => (c.step L m f pc).map fun p ↦ (p.1, scavenge c p.2)

/-- What the step stages: the ref whose bytes it stores, with its transaction. -/
def stages (m : Moment) : Process → Option (String × DataRef)
  | publish c .store => if m.fails then none else some (c.transaction, c.ref)
  | _ => none

/-- The process stands at the first step of its operation. -/
def fresh : Process → Prop
  | publish _ pc => pc = .reserve
  | commit _ pc => pc = .readCommit
  | abort _ pc => pc = .checkCommit
  | scavenge _ pc => pc = .glob

instance : DecidablePred fresh
  | publish _ pc => inferInstanceAs (Decidable (pc = _))
  | commit _ pc => inferInstanceAs (Decidable (pc = _))
  | abort _ pc => inferInstanceAs (Decidable (pc = _))
  | scavenge _ pc => inferInstanceAs (Decidable (pc = _))

/-- The refs the process has been given, with the transaction they are used for. -/
def given : Process → List (String × DataRef)
  | publish _ _ => []
  | commit c _ => c.refs.map fun r ↦ (c.transaction, r.2)
  | abort c _ => c.refs.map fun r ↦ (c.transaction, r.2)
  | scavenge _ _ => []

end Process

/-- The ledger and the processes at work on it.  `staged` records which transaction the
bytes of each ref were stored for. -/
structure LedgerState where
  files : LedgerFiles
  staged : List (String × DataRef)
  processes : List Process

/-- What happens next: an operation is called, or a process makes a step. -/
inductive LedgerAction where
  | call (p : Process)
  | step (i : ℕ) (m : Moment)

namespace LedgerState

/-- An empty ledger. -/
def start : LedgerState := ⟨.empty, [], []⟩

variable (L : PublicationLedger)

/-- One step of the system.  A transaction is committed and aborted with refs that were
staged in it, and bytes are stored under a path that has not been used: it ends in a
`uuid4`. -/
def step (s : LedgerState) : LedgerAction → Option LedgerState
  | .call p =>
      if p.fresh ∧ ∀ e ∈ p.given, e ∈ s.staged then
        some { s with processes := s.processes ++ [p] }
      else none
  | .step i m =>
      match s.processes[i]? with
      | none => none
      | some p =>
          if ∀ e ∈ p.stages m, ∀ e' ∈ s.staged, e'.2.uri ≠ e.2.uri then
            (p.step L m s.files).map fun q ↦
              ⟨q.1, (p.stages m).toList ++ s.staged, s.processes.set i q.2⟩
          else none

end LedgerState

end Blackbase.Resources.Artifacts
