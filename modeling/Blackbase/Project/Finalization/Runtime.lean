import Blackbase.Core.Dict
import Blackbase.Core.Text
import Blackbase.Resources.Artifacts.Ledger

/-!
# Artifact transactions of a Case

`ArtifactPublicationTransaction` and the part of `CaseRuntimeContext` of
`project/invocation.py` that owns it.  What happens while `_artifact_lock` is held is one
function on the runtime, and the methods are made of these: here for the caller who is
alone.  The publication ledger is seen from the outside: its calls may raise, and a commit
that does not raise adds a record.

A transaction is known by its place in the order of creation.
-/

namespace Blackbase.Project

open Resources Resources.Artifacts

/-- The classes of exceptions the executor tells apart. -/
inductive ExceptionClass where
  | deadlineExceeded
  | cancellationRequested
  | other
deriving DecidableEq

/-- An exception, with the evidence attached to it: a key, an error type and a message. -/
structure Exn where
  cls : ExceptionClass
  errorType : String
  message : String
  evidence : List (String × String × String) := []
deriving DecidableEq

namespace Exn

def runtimeError (message : String) : Exn := ⟨.other, "RuntimeError", message, []⟩

def valueError (message : String) : Exn := ⟨.other, "ValueError", message, []⟩

def configurationError (message : String) : Exn :=
  ⟨.other, "ProjectConfigurationError", message, []⟩

/-- `attach_failure_evidence`. -/
def attach (exc : Exn) (key : String) (cause : Exn) : Exn :=
  { exc with evidence :=
      exc.evidence.filter (fun e ↦ e.1 ≠ key) ++ [(key, cause.errorType, cause.message)] }

end Exn

/-- `ArtifactPublicationTransaction`. -/
structure ArtifactPublicationTransaction where
  label : String
  refs : Dict DataRef
  reservedNames : List String
  receipts : Dict ArtifactPublicationReceipt
  active : Bool
  prepared : Bool

namespace ArtifactPublicationTransaction

/-- A transaction as it is created. -/
def new (label : String) : ArtifactPublicationTransaction := ⟨label, ∅, [], ∅, true, false⟩

end ArtifactPublicationTransaction

/-- The ledger of a Case run and the lease it is written under. -/
structure Publisher where
  ledger : PublicationLedger
  leaseId : String
  fencingToken : ℕ

/-- The arguments of `publish_artifact` with the ref the store makes of them, but for what
the transaction adds to its metadata. -/
structure ArtifactCall where
  name : String
  ref : DataRef
deriving DecidableEq

/-- `artifact_name`. -/
def ArtifactCall.artifactName (c : ArtifactCall) : String := Text.strip c.name

/-- The artifact state of `CaseRuntimeContext`.  `records` are the commit records of the Case
run in the ledger, `handed` the references its `publish_artifact` has returned. -/
structure CaseRuntime where
  hasPublisher : Bool
  transactions : List ArtifactPublicationTransaction
  /-- `_artifact_transactions`. -/
  registered : List ℕ
  /-- `_finalization_transaction`. -/
  finalization : Option ℕ
  committedRefs : Dict DataRef
  artifactRefs : Dict DataRef
  artifactPublications : Dict ArtifactPublicationReceipt
  inherited : List ArtifactPublicationReceipt
  records : List (ℕ × Dict ArtifactPublicationReceipt)
  handed : List (ℕ × String × DataRef)

namespace CaseRuntime

/-- `uuid4().hex` of a transaction. -/
def transactionText (t : ℕ) : String := Nat.repr t

/-- The runtime of a Case that is about to start. -/
def start (hasPublisher : Bool) (inherited : List ArtifactPublicationReceipt) : CaseRuntime where
  hasPublisher := hasPublisher
  transactions := []
  registered := []
  finalization := none
  committedRefs := ∅
  artifactRefs := ∅
  artifactPublications := ∅
  inherited := inherited
  records := []
  handed := []

variable (s : CaseRuntime)

/-- `transaction.active`. -/
def isActive (t : ℕ) : Bool := (s.transactions[t]?).any (·.active)

/-- The finalization transaction, if there is one and it is active. -/
def current : Option ℕ := s.finalization.filter s.isActive

/-- `transaction.artifact_refs`. -/
def refsOf (t : ℕ) : Dict DataRef := ((s.transactions[t]?).map (·.refs)).getD ∅

/-- Change one transaction. -/
def modify (t : ℕ) (f : ArtifactPublicationTransaction → ArtifactPublicationTransaction) :
    CaseRuntime :=
  { s with transactions := s.transactions.modify t f }

/-! ## Under the lock -/

/-- A transaction is created and registered: `begin_artifact_transaction`. -/
def create (label : String) : CaseRuntime :=
  { s with
    transactions := s.transactions ++ [.new label]
    registered := s.registered ++ [s.transactions.length] }

/-- A transaction becomes the finalization transaction. -/
def install (t : ℕ) : CaseRuntime := { s with finalization := some t }

/-- `abort` ends a transaction. -/
def close (t : ℕ) : CaseRuntime :=
  { s.modify t (fun x ↦ { x with active := false }) with registered := s.registered.erase t }

/-- The name is published, or it is staged in the transaction. -/
def nameTaken (t : ℕ) (name : String) : Bool :=
  decide (name ∈ s.artifactRefs) || decide (name ∈ s.artifactPublications) ||
    (s.transactions[t]?).any fun x ↦ name ∈ x.reservedNames

/-- The name is reserved for the transaction. -/
def reserve (t : ℕ) (name : String) : CaseRuntime :=
  s.modify t fun x ↦ { x with reservedNames := name :: x.reservedNames }

/-- The ref of a call, once the transaction has put its name into the metadata. -/
def published (t : ℕ) (call : ArtifactCall) : DataRef :=
  { call.ref with metadata :=
      ("publication_transaction_id", transactionText t) ::
        ("publication_transaction_label", ((s.transactions[t]?).map (·.label)).getD "") ::
          call.ref.metadata }

/-- The ref is staged in the transaction. -/
def stage (t : ℕ) (name : String) (ref : DataRef) : CaseRuntime :=
  s.modify t fun x ↦ { x with refs := x.refs.insert name ref }

/-- `prepare`. -/
def prepare (t : ℕ) : CaseRuntime := s.modify t fun x ↦ { x with prepared := true }

/-- The metadata of the receipts of a transaction. -/
def receiptMetadata (t : ℕ) : List (String × String) :=
  [("transaction_label", ((s.transactions[t]?).map (·.label)).getD ""),
    ("case_finalization_sealed", "true"), ("case_run_schema_version", "3")]

/-- The names published already among those of the transaction. -/
def conflicts (t : ℕ) : List String := (s.refsOf t).keys.filter (· ∈ s.artifactRefs)

/-- The receipts the ledger issues for the refs of the transaction. -/
def receipts (P : Publisher) (t : ℕ) (committedAt : Time) : Dict ArtifactPublicationReceipt :=
  (s.refsOf t).mapWithKey fun name ref ↦ P.ledger.receipt (transactionText t) P.leaseId
    P.fencingToken (s.receiptMetadata t) committedAt name ref

/-- The ledger has committed the transaction under these receipts. -/
def sealed (t : ℕ) (receipts : Dict ArtifactPublicationReceipt) : CaseRuntime :=
  { s.modify t (fun x ↦ { x with receipts := receipts, active := false }) with
    artifactRefs := s.artifactRefs.update (s.refsOf t)
    artifactPublications := s.artifactPublications.update receipts
    registered := s.registered.erase t
    records := s.records ++ [(t, receipts)] }

/-- The end of `commit_finalization_transaction`. -/
def recordCommitted (refs : Dict DataRef) : CaseRuntime := { s with committedRefs := refs }

/-- `finalization_artifact_refs`. -/
def finalizationArtifactRefs : Dict DataRef :=
  match s.current with
  | some t => s.refsOf t
  | none => s.committedRefs

end CaseRuntime

end Blackbase.Project
