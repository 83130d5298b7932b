import Blackbase.Core.Text
import Blackbase.Resources.Model

/-!
# The files of the publication ledger

The data of `FilesystemArtifactPublicationLedger` of `resources/artifacts.py` for one Case
run: the records under `names`, `commits` and `tombstones`, and the published payloads.  A
path that is resolved is the list of its segments.  The digest of a receipt is a function of
its other fields and is left out.
-/

namespace Blackbase.Resources.Artifacts

/-- A resolved path. -/
abbrev Path := List String

instance (p : Path) (paths : List Path) : Decidable (p ∈ paths) := inferInstance

/-- `DataRef`. -/
structure DataRef where
  uri : Path
  kind : String
  backend : String
  mediaType : String
  checksum : String
  sizeBytes : Option ℕ
  metadata : List (String × String)
deriving DecidableEq

/-- `metadata.get(key, "")`. -/
def DataRef.metadataText (ref : DataRef) (key : String) : String :=
  (ref.metadata.lookup key).getD ""

/-- `ArtifactPublicationReceipt`. -/
structure ArtifactPublicationReceipt where
  publicationId : String
  artifactName : String
  ref : DataRef
  projectRunId : String
  caseRunId : String
  transactionId : String
  authorityNamespace : String
  leaseId : String
  fencingToken : ℕ
  committedAt : Time
  metadata : List (String × String)
deriving DecidableEq

/-- The errors the operations of the ledger raise. -/
inductive LedgerError where
  | needsTransaction
  | needsNameAndTransaction
  | alreadyReserved (name : String)
  | noProvisional (name : String)
  | contentChanged (name : String)
  | nonCommitRecord (transaction : String)
  | retryChangedNames (transaction : String)
  | retryChangedRef (transaction : String)
  | alreadyAborted (transaction : String)
  | notReserved (name transaction : String)
  | noChecksum (name : String)
  | backend (backend name : String)
  | escapes (name : String)
  | missing (name : String)
  | unreadable (name : String)
  | noSize (name : String)
  | sizeChanged (name : String)
  | checksumChanged (name : String)
  | metadataMismatch (name key : String)
  | emptyField (field : String)
  | receiptWithoutChecksum
  | committedAt
  | conflicts (transaction : String)
  | committed (transaction : String)
  | provisionalEscapes (path : Path)
  /-- A record that cannot be parsed. -/
  | invalidRecord
  /-- An error of the file system, `FileExistsError` included. -/
  | os
deriving DecidableEq

namespace LedgerError

/-- The text of the error. -/
def message : LedgerError → String
  | needsTransaction => "Artifact commit requires transaction_id"
  | needsNameAndTransaction => "Artifact reservation requires name and transaction_id"
  | alreadyReserved name =>
      "Artifact name '" ++ name ++ "' is already reserved by another transaction"
  | noProvisional name => "Artifact '" ++ name ++ "' has no matching provisional reservation"
  | contentChanged name => "Artifact '" ++ name ++ "' reservation changed provisional content"
  | nonCommitRecord t => "Artifact transaction '" ++ t ++ "' has a non-commit record"
  | retryChangedNames t => "Artifact transaction '" ++ t ++ "' retry changed Artifact names"
  | retryChangedRef t => "Artifact transaction '" ++ t ++ "' retry changed a DataRef"
  | alreadyAborted t => "Artifact transaction '" ++ t ++ "' was already aborted"
  | notReserved name t =>
      "Artifact name '" ++ name ++ "' is not reserved by transaction '" ++ t ++ "'"
  | noChecksum name => "Artifact '" ++ name ++ "' has no checksummed DataRef"
  | backend b name =>
      "filesystem Artifact ledger cannot seal backend '" ++ b ++ "' for '" ++ name ++ "'"
  | escapes name => "Artifact '" ++ name ++ "' escapes its authorized Case directory"
  | missing name => "Artifact '" ++ name ++ "' is missing before authority seal"
  | unreadable name => "Artifact '" ++ name ++ "' cannot be read before authority seal"
  | noSize name =>
      "Artifact '" ++ name ++ "' omitted its physical size before authority seal"
  | sizeChanged name => "Artifact '" ++ name ++ "' size changed before authority seal"
  | checksumChanged name => "Artifact '" ++ name ++ "' checksum changed before authority seal"
  | metadataMismatch name key =>
      "Artifact '" ++ name ++ "' metadata does not match " ++ key ++ " authority"
  | emptyField field => "ArtifactPublicationReceipt." ++ field ++ " must not be empty"
  | receiptWithoutChecksum => "authoritative Artifact publication requires a checksum"
  | committedAt => "Artifact publication committed_at must be positive"
  | conflicts t => "Artifact transaction '" ++ t ++ "' commit record conflicts"
  | committed t => "cannot abort committed Artifact transaction '" ++ t ++ "'"
  | provisionalEscapes path =>
      "provisional Artifact '" ++ "/".intercalate path ++ "' escapes authorized Case directory"
  | invalidRecord => "invalid Artifact publication ledger record"
  | os => "OSError"

end LedgerError

/-! ## Records -/

/-- What stands at the path of a JSON record.  The exclusive create that opens a file and
the write of its content are two steps. -/
inductive JsonFile (α : Type) where
  | absent
  | opened
  | holds (record : α)
deriving DecidableEq

namespace JsonFile

variable {α : Type}

/-- `path.exists()`. -/
def present : JsonFile α → Bool
  | absent => false
  | _ => true

/-- `_read_json`: nothing where there is no file, and an error where the content is not
there yet. -/
def read : JsonFile α → Except LedgerError (Option α)
  | absent => .ok none
  | opened => .error .invalidRecord
  | holds record => .ok (some record)

@[simp] theorem present_absent : (absent : JsonFile α).present = false := rfl

@[simp] theorem present_opened : (opened : JsonFile α).present = true := rfl

@[simp] theorem present_holds (record : α) : (holds record).present = true := rfl

theorem eq_absent_iff {f : JsonFile α} : f = absent ↔ f.present = false := by
  cases f <;> simp [present]

end JsonFile

/-- A name reservation whose status is "reserved". -/
structure Reservation where
  artifactName : String
  transactionId : String
  leaseId : String
  fencingToken : ℕ
  reservedAt : Time
  provisionalRef : Option DataRef
deriving DecidableEq

/-- A record under `names`, by its status. -/
inductive NameRecord where
  | reserved (r : Reservation)
  | committed (artifactName transactionId : String) (committedAt : Time)
deriving DecidableEq

namespace NameRecord

def transactionId : NameRecord → String
  | reserved r => r.transactionId
  | committed _ t _ => t

/-- The reservation of `name` by `transaction`, if the record is that. -/
def heldBy (record : NameRecord) (name transaction : String) : Option Reservation :=
  match record with
  | reserved r => if r.transactionId = transaction ∧ r.artifactName = name then some r else none
  | committed _ _ _ => none

end NameRecord

/-- A record under `commits`. -/
structure CommitRecord where
  status : String
  transactionId : String
  committedAt : Time
  receipts : List (String × ArtifactPublicationReceipt)
deriving DecidableEq

/-- A record under `tombstones`. -/
structure Tombstone where
  transactionId : String
  reason : String
  abortedAt : Time
  artifactNames : List String
deriving DecidableEq

/-- What a reader of a published file observes of its content. -/
structure Payload where
  size : ℕ
  checksum : String
deriving DecidableEq

/-- The files of one Case run. -/
structure LedgerFiles where
  commits : String → JsonFile CommitRecord
  tombstones : String → JsonFile Tombstone
  names : String → JsonFile NameRecord
  payloads : Path → Option Payload

namespace LedgerFiles

/-- Nothing has been written. -/
def empty : LedgerFiles where
  commits _ := .absent
  tombstones _ := .absent
  names _ := .absent
  payloads _ := none

def setCommit (f : LedgerFiles) (t : String) (file : JsonFile CommitRecord) : LedgerFiles :=
  { f with commits := Function.update f.commits t file }

def setTombstone (f : LedgerFiles) (t : String) (file : JsonFile Tombstone) : LedgerFiles :=
  { f with tombstones := Function.update f.tombstones t file }

def setName (f : LedgerFiles) (name : String) (file : JsonFile NameRecord) : LedgerFiles :=
  { f with names := Function.update f.names name file }

def setPayload (f : LedgerFiles) (uri : Path) (payload : Option Payload) : LedgerFiles :=
  { f with payloads := Function.update f.payloads uri payload }

/-- The bytes a ref describes are there. -/
def Intact (f : LedgerFiles) (ref : DataRef) : Prop :=
  ∃ p, f.payloads ref.uri = some p ∧ ref.sizeBytes = some p.size ∧ ref.checksum = p.checksum

end LedgerFiles

/-! ## The checks of one ledger -/

/-- `FilesystemArtifactPublicationLedger`.  `caseRoot` is the directory of the Case run. -/
structure PublicationLedger where
  caseRoot : Path
  authorityNamespace : String
  projectRunId : String
  caseRunId : String
  /-- The hexadecimal SHA-256 digest of a text. -/
  sha256 : String → String

namespace PublicationLedger

variable (L : PublicationLedger)

/-- `_is_relative_to(target, case_root)`. -/
def within (uri : Path) : Bool := L.caseRoot.isPrefixOf uri

/-- What `_validate_physical_ref` checks before it looks at the file. -/
def locationError (name : String) (ref : DataRef) : Option LedgerError :=
  if ref.backend ≠ "filesystem" then some (.backend ref.backend name)
  else if ¬ L.within ref.uri then some (.escapes name)
  else none

/-- The metadata `_validate_physical_ref` expects. -/
def expectedMetadata (name : String) : List (String × String) :=
  [("artifact_name", name), ("project_run_id", L.projectRunId), ("case_run_id", L.caseRunId)]

/-- What `_validate_physical_ref` checks once it has read the file. -/
def contentError (name : String) (ref : DataRef) (size : ℕ) (checksum : String) :
    Option LedgerError :=
  match ref.sizeBytes with
  | none => some (.noSize name)
  | some expected =>
      if size ≠ expected then some (.sizeChanged name)
      else if checksum ≠ ref.checksum then some (.checksumChanged name)
      else ((L.expectedMetadata name).find? fun e ↦ decide (ref.metadataText e.1 ≠ e.2)).map
        fun e ↦ .metadataMismatch name e.1

/-- `publication_id`. -/
def publicationId (transaction name : String) : String :=
  let seed := "\x00".intercalate [L.projectRunId, L.caseRunId, transaction, name]
  "publication-" ++ String.ofList ((L.sha256 seed).toList.take 32)

/-- The receipt `commit` issues for one name. -/
def receipt (transaction leaseId : String) (fencingToken : ℕ)
    (metadata : List (String × String)) (committedAt : Time) (name : String) (ref : DataRef) :
    ArtifactPublicationReceipt where
  publicationId := L.publicationId transaction name
  artifactName := Text.strip name
  ref := ref
  projectRunId := L.projectRunId
  caseRunId := L.caseRunId
  transactionId := transaction
  authorityNamespace := L.authorityNamespace
  leaseId := leaseId
  fencingToken := fencingToken
  committedAt := committedAt
  metadata := metadata

end PublicationLedger

/-- What the constructor of a receipt refuses. -/
def ArtifactPublicationReceipt.error (r : ArtifactPublicationReceipt) : Option LedgerError :=
  let fields := [("publication_id", r.publicationId), ("artifact_name", r.artifactName),
    ("project_run_id", r.projectRunId), ("case_run_id", r.caseRunId),
    ("transaction_id", r.transactionId), ("authority_namespace", r.authorityNamespace)]
  match fields.find? fun e ↦ decide (Text.strip e.2 = "") with
  | some e => some (.emptyField e.1)
  | none =>
      if r.ref.checksum = "" then some .receiptWithoutChecksum
      else if r.committedAt ≤ 0 then some .committedAt
      else none

/-- A ref that passes every check describes the bytes that were read. -/
theorem PublicationLedger.content_of_contentError {L : PublicationLedger} {name : String}
    {ref : DataRef} {size : ℕ} {checksum : String}
    (h : L.contentError name ref size checksum = none) :
    ref.sizeBytes = some size ∧ ref.checksum = checksum := by
  unfold contentError at h
  cases hs : ref.sizeBytes with
  | none => simp [hs] at h
  | some expected =>
      simp only [hs] at h
      split_ifs at h with hsize hsum
      exact ⟨by rw [not_not.mp hsize], (not_not.mp hsum).symm⟩

namespace PublicationLedger

variable (L : PublicationLedger)

/-- `authority_root`: the directory of the Case run is three levels below it. -/
def authorityRoot : Path := L.caseRoot.take (L.caseRoot.length - 3)

/-- What `verify` checks of the stored bytes. -/
def bytesAgree (f : LedgerFiles) (ref : DataRef) : Bool :=
  L.authorityRoot.isPrefixOf ref.uri && (f.payloads ref.uri).any fun p ↦
    (ref.sizeBytes.all fun size ↦ size = 0 || p.size = size) &&
      (ref.checksum ≠ "" && p.checksum = ref.checksum)

/-- `verify`.  A record that cannot be parsed raises. -/
def verify (f : LedgerFiles) (receipt : ArtifactPublicationReceipt) : Except LedgerError Bool :=
  if receipt.projectRunId ≠ L.projectRunId ∨ receipt.caseRunId ≠ L.caseRunId ∨
      receipt.authorityNamespace ≠ L.authorityNamespace then .ok false
  else (f.commits receipt.transactionId).read.map fun record ↦
    match record with
    | none => false
    | some record =>
        record.status = "committed" &&
          match record.receipts.lookup receipt.artifactName with
          | none => false
          | some authoritative =>
              decide (authoritative = receipt) &&
                (authoritative.ref.backend ≠ "filesystem" || L.bytesAgree f authoritative.ref)

end PublicationLedger

end Blackbase.Resources.Artifacts
