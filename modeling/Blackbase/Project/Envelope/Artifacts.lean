import Blackbase.Project.Envelope.Reading

/-!
# References, publication receipts and bindings

`DataRef` of `resources/model.py`, and `ArtifactPublicationReceipt` and `ArtifactBinding` of
`resources/artifacts.py`, each with its constructor, `as_dict` and `from_dict`.  A receipt and
a binding carry the digest of their other fields.
-/

namespace Blackbase.Project.Envelope

/-! ## References -/

/-- The arguments of the constructor of `DataRef`. -/
structure DataRefArgs where
  uri : String
  kind : String
  backend : String
  mediaType : String
  checksum : String
  sizeBytes : PyValue
  metadata : PyValue

/-- `DataRef`. -/
structure DataRef where
  uri : Label
  kind : Filled
  backend : Filled
  mediaType : String
  checksum : String
  sizeBytes : Option ℕ
  metadata : WireMapping

namespace DataRef

variable (R : Runtime)

/-- `None if size_bytes is None else max(0, int(size_bytes))`. -/
def sizeOf : PyValue → Except Raised (Option ℕ)
  | .none => .ok none
  | v => (R.intOf v).map fun n ↦ some n.toNat

/-- `DataRef.__post_init__`. -/
def make (a : DataRefArgs) : Except Raised DataRef := do
  let some uri := Label.parse a.uri | throw (.valueError "DataRef.uri must not be empty")
  let sizeBytes ← sizeOf R a.sizeBytes
  let metadata ← R.freezeMapping "data_ref.metadata" a.metadata
  return {
    uri := uri
    kind := Filled.orDefault a.kind ⟨"artifact", by decide⟩
    backend := Filled.orDefault a.backend ⟨"filesystem", by decide⟩
    mediaType := a.mediaType
    checksum := a.checksum
    sizeBytes := sizeBytes
    metadata := metadata }

/-- `DataRef.from_dict`. -/
def fromDict (v : PyValue) : Except Raised DataRef := do
  let d ← Runtime.mappingOf v
  let metadata ← R.readDict (d.get "metadata" (obj []))
  make R {
    uri := R.strOf (d.get "uri" (.text ""))
    kind := R.strOf (d.get "kind" (.text "artifact"))
    backend := R.strOf (d.get "backend" (.text "filesystem"))
    mediaType := R.strOf (d.get "media_type" (.text ""))
    checksum := R.strOf (d.get "checksum" (.text ""))
    sizeBytes := d.get "size_bytes" .none
    metadata := metadata }

/-- `size_bytes`, as the reference holds it. -/
def size (r : DataRef) : PyValue :=
  match r.sizeBytes with
  | none => .none
  | some n => .int n

/-- `DataRef.as_dict`. -/
def asDict (r : DataRef) : PyValue :=
  obj [
    ("uri", .text r.uri.text),
    ("kind", .text r.kind.text),
    ("backend", .text r.backend.text),
    ("media_type", .text r.mediaType),
    ("checksum", .text r.checksum),
    ("size_bytes", r.size),
    ("metadata", r.metadata.thawed)]

/-- The fields of a reference, with its metadata in the form `metadata`. -/
def args (r : DataRef) (metadata : PyValue) : DataRefArgs where
  uri := r.uri.text
  kind := r.kind.text
  backend := r.backend.text
  mediaType := r.mediaType
  checksum := r.checksum
  sizeBytes := r.size
  metadata := metadata

@[simp] theorem sizeOf_size (r : DataRef) : sizeOf R r.size = .ok r.sizeBytes := by
  unfold size
  cases h : r.sizeBytes with
  | none => rfl
  | some n => rfl

/-- The constructor accepts the fields of a reference, and changes nothing. -/
theorem make_args (r : DataRef) {v : PyValue} (hv : r.metadata.Shown v) :
    make R (r.args v) = .ok r := by
  simp only [make, args, Label.parse_text, sizeOf_size, R.freezeMapping_shown hv,
    Filled.orDefault_text]
  rfl

@[simp] theorem fromDict_asDict (r : DataRef) : fromDict R r.asDict = .ok r := by
  rw [← make_args R r r.metadata.shown_thawed]
  simp [fromDict, asDict, args]

/-- `ref == ref'`. -/
def same (r r' : DataRef) : Bool :=
  r.uri.text = r'.uri.text && r.kind.text = r'.kind.text && r.backend.text = r'.backend.text &&
    r.mediaType = r'.mediaType && r.checksum = r'.checksum && r.sizeBytes = r'.sizeBytes &&
    r.metadata.same r'.metadata

@[simp] theorem same_self (r : DataRef) : r.same r = true := by simp [same]

@[simp] theorem readDict_asDict (r : DataRef) : R.readDict r.asDict = .ok r.asDict :=
  R.readDict_mapping _

end DataRef

/-! ## Digests -/

/-- `"sha256:" + digest.hexdigest()`. -/
def digestText (d : Resources.Digest) : String := "sha256:" ++ d.text

/-- The characters of a digest are no spaces, and in lower case. -/
theorem plain_of_mem_digestText {d : Resources.Digest} {c : Char} (h : c ∈ (digestText d).toList) :
    Text.isSpace c = false ∧ c.toLower = c := by
  rw [digestText, String.toList_append, List.mem_append] at h
  rcases h with hscheme | hhex
  · have hchars : "sha256:".toList = ['s', 'h', 'a', '2', '5', '6', ':'] := rfl
    have hplain : ['s', 'h', 'a', '2', '5', '6', ':'].all
        (fun c ↦ !Text.isSpace c && c.toLower == c) = true := by decide
    rw [hchars] at hscheme
    simpa using List.all_eq_true.mp hplain c hscheme
  · have hdigit := d.hex c hhex
    exact ⟨by simpa using Resources.isSpace_of_isHexDigit hdigit,
      Resources.toLower_of_isHexDigit hdigit⟩

@[simp] theorem strip_digestText (d : Resources.Digest) :
    Text.strip (digestText d) = digestText d := by
  refine Text.strip_eq_self (fun h ↦ ?_) fun h ↦ ?_
  · simp [(plain_of_mem_digestText (List.head_mem h)).1]
  · simp [(plain_of_mem_digestText (List.getLast_mem h)).1]

@[simp] theorem lower_digestText (d : Resources.Digest) :
    Text.lower (digestText d) = digestText d := by
  rw [Text.lower, List.map_congr_left fun c hc ↦ (plain_of_mem_digestText hc).2, List.map_id',
    String.ofList_toList]

/-- The digest of a payload, unless another one was supplied.  `mismatch` is the text of the
error. -/
def checkDigest (mismatch supplied : String) (digest : Resources.Digest) : Except Raised Unit :=
  let expected := digestText digest
  if Text.lower (Text.strip (Resources.orDefault supplied expected)) = expected then .ok ()
  else .error (.valueError mismatch)

@[simp] theorem checkDigest_digestText (mismatch : String) (d : Resources.Digest) :
    checkDigest mismatch (digestText d) d = .ok () := by
  have hor : Resources.orDefault (digestText d) (digestText d) = digestText d := ite_self _
  rw [checkDigest, hor, strip_digestText, lower_digestText]
  exact if_pos rfl

/-! ## Publication receipts -/

/-- The text of the `TypeError` of `_json_value`. -/
def notJsonSafe (path type : String) : String :=
  s!"artifact field '{path}' is not JSON-safe: {type}"

/-- `freeze_wire_mapping(_json_mapping(v or {}, path), path)`. -/
def Runtime.jsonMapping (R : Runtime) (path : String) (v : PyValue) : Except Raised WireMapping := do
  let converted ← safe notJsonSafe path (v.orElse (obj []))
  match converted with
  | .mapping _ => R.freezeMapping path converted
  | _ => throw (.typeError s!"{path} must be a mapping")

theorem orElse_obj_nil (entries : Payload) :
    (PyValue.mapping entries).orElse (obj []) = .mapping entries := by
  cases entries <;> rfl

theorem Runtime.jsonMapping_shown (R : Runtime) {m : WireMapping} {v : PyValue} (h : m.Shown v)
    (path : String) : R.jsonMapping path v = .ok m := by
  have hv : v.orElse (obj []) = v := by
    rcases h with rfl | rfl
    · exact orElse_obj_nil _
    · rw [m.thawed_eq, orElse_obj_nil]
  rw [jsonMapping, hv, safe_shown h, ok_bind, ← R.freezeMapping_shown m.shown_thawed path,
    m.thawed_eq]

/-- `ARTIFACT_PUBLICATION_RECEIPT_SCHEMA_VERSION`. -/
def receiptSchemaVersion : ℤ := 1

/-- The arguments of the constructor of `ArtifactPublicationReceipt`. -/
structure ReceiptArgs where
  publicationId : String
  artifactName : String
  ref : Given DataRef
  projectRunId : String
  caseRunId : String
  transactionId : String
  authorityNamespace : String
  leaseId : String
  fencingToken : ℤ
  committedAt : PyFloat
  receiptDigest : String
  metadata : PyValue
  schemaVersion : ℤ

/-- A receipt without its digest. -/
structure Publication where
  publicationId : Label
  artifactName : Label
  ref : DataRef
  projectRunId : Label
  caseRunId : Label
  transactionId : Label
  authorityNamespace : Label
  leaseId : String
  fencingToken : ℕ
  committedAt : PyFloat
  metadata : WireMapping
  checksum_ne : ref.checksum ≠ ""
  committed : committedAt.nonPositive = false

namespace Publication

variable (R : Runtime)

/-- The check that a text field of a receipt is not empty. -/
def require (field value : String) : Except Raised Label :=
  match Label.parse value with
  | none => .error (.valueError s!"ArtifactPublicationReceipt.{field} must not be empty")
  | some label => .ok label

@[simp] theorem require_text (field : String) (l : Label) : require field l.text = .ok l := by
  rw [require, Label.parse_text]

/-- `ArtifactPublicationReceipt.__post_init__`, up to the digest. -/
def make (a : ReceiptArgs) : Except Raised Publication := do
  let version := a.schemaVersion
  if version ≠ receiptSchemaVersion then
    throw (.valueError s!"unsupported ArtifactPublicationReceipt schema_version={version}")
  let publicationId ← require "publication_id" a.publicationId
  let artifactName ← require "artifact_name" a.artifactName
  let projectRunId ← require "project_run_id" a.projectRunId
  let caseRunId ← require "case_run_id" a.caseRunId
  let transactionId ← require "transaction_id" a.transactionId
  let authorityNamespace ← require "authority_namespace" a.authorityNamespace
  let ref ← a.ref.take (DataRef.fromDict R)
  if hsum : ref.checksum = "" then
    throw (.valueError "authoritative Artifact publication requires a checksum")
  else
    let committedAt := a.committedAt.orElse .zero
    if htime : committedAt.nonPositive = true then
      throw (.valueError "Artifact publication committed_at must be positive")
    else
      let metadata ← R.jsonMapping "artifact_publication.metadata" a.metadata
      return {
        publicationId := publicationId
        artifactName := artifactName
        ref := ref
        projectRunId := projectRunId
        caseRunId := caseRunId
        transactionId := transactionId
        authorityNamespace := authorityNamespace
        leaseId := a.leaseId
        fencingToken := a.fencingToken.toNat
        committedAt := committedAt
        metadata := metadata
        checksum_ne := hsum
        committed := Bool.eq_false_of_not_eq_true htime }

/-- `_unsigned_dict`. -/
def unsigned (p : Publication) : List (String × PyValue) :=
  [
    ("schema_version", .int receiptSchemaVersion),
    ("publication_id", .text p.publicationId.text),
    ("artifact_name", .text p.artifactName.text),
    ("ref", p.ref.asDict),
    ("project_run_id", .text p.projectRunId.text),
    ("case_run_id", .text p.caseRunId.text),
    ("transaction_id", .text p.transactionId.text),
    ("authority_namespace", .text p.authorityNamespace.text),
    ("lease_id", .text p.leaseId),
    ("fencing_token", .int p.fencingToken),
    ("committed_at", .float p.committedAt),
    ("metadata", p.metadata.thawed)]

/-- The fields of a receipt, with its metadata in the form `metadata`. -/
def args (p : Publication) (receiptDigest : String) (metadata : PyValue) : ReceiptArgs where
  publicationId := p.publicationId.text
  artifactName := p.artifactName.text
  ref := .built p.ref
  projectRunId := p.projectRunId.text
  caseRunId := p.caseRunId.text
  transactionId := p.transactionId.text
  authorityNamespace := p.authorityNamespace.text
  leaseId := p.leaseId
  fencingToken := p.fencingToken
  committedAt := p.committedAt
  receiptDigest := receiptDigest
  metadata := metadata
  schemaVersion := receiptSchemaVersion

theorem make_args (p : Publication) (receiptDigest : String) {v : PyValue}
    (hv : p.metadata.Shown v) : make R (p.args receiptDigest v) = .ok p := by
  simp [make, args, p.checksum_ne, p.committed, R.jsonMapping_shown hv]

end Publication

/-- `ArtifactPublicationReceipt`. -/
structure ArtifactPublicationReceipt (R : Runtime) extends Publication where
  receiptDigest : Resources.Digest
  signed : R.jsonDigest (obj toPublication.unsigned) = .ok receiptDigest

namespace ArtifactPublicationReceipt

variable {R : Runtime}

/-- `ArtifactPublicationReceipt.__post_init__`. -/
def make (R : Runtime) (a : ReceiptArgs) : Except Raised (ArtifactPublicationReceipt R) := do
  let p ← Publication.make R a
  match h : R.jsonDigest (obj p.unsigned) with
  | .error e => throw e
  | .ok digest =>
      checkDigest "Artifact publication receipt digest mismatch" a.receiptDigest digest
      return { p with receiptDigest := digest, signed := h }

/-- `ArtifactPublicationReceipt.from_dict`. -/
def fromDict (R : Runtime) (v : PyValue) : Except Raised (ArtifactPublicationReceipt R) := do
  let d ← R.dictOrEmpty v
  let rawRef ← R.readDict (d.get "ref" (obj []))
  let ref ← DataRef.fromDict R rawRef
  let fencingToken ← R.intOrZero (d.get "fencing_token" (.int 0))
  let committedAt ← R.floatOrZero (d.get "committed_at" (.float .zero))
  let metadata ← R.readDict (d.get "metadata" (obj []))
  let schemaVersion ←
    R.intOf ((d.get "schema_version" (.int receiptSchemaVersion)).orElse
      (.int receiptSchemaVersion))
  make R {
    publicationId := R.strOf (d.get "publication_id" (.text ""))
    artifactName := R.strOf (d.get "artifact_name" (.text ""))
    ref := .built ref
    projectRunId := R.strOf (d.get "project_run_id" (.text ""))
    caseRunId := R.strOf (d.get "case_run_id" (.text ""))
    transactionId := R.strOf (d.get "transaction_id" (.text ""))
    authorityNamespace := R.strOf (d.get "authority_namespace" (.text ""))
    leaseId := R.strOf (d.get "lease_id" (.text ""))
    fencingToken := fencingToken
    committedAt := committedAt
    receiptDigest := R.strOf (d.get "receipt_digest" (.text ""))
    metadata := metadata
    schemaVersion := schemaVersion }

/-- `ArtifactPublicationReceipt.as_dict`. -/
def asDict (r : ArtifactPublicationReceipt R) : PyValue :=
  obj (r.unsigned ++ [("receipt_digest", .text (digestText r.receiptDigest))])

/-- The constructor accepts the fields of a receipt, and changes nothing. -/
theorem make_args (r : ArtifactPublicationReceipt R) {v : PyValue} (hv : r.metadata.Shown v) :
    make R (r.args (digestText r.receiptDigest) v) = .ok r := by
  rw [make, r.toPublication.make_args R _ hv, ok_bind]
  split
  · next h => rw [r.signed] at h; cases h
  · next digest h =>
      rw [r.signed] at h
      obtain rfl := Except.ok.inj h
      rw [Publication.args, checkDigest_digestText]
      rfl

@[simp] theorem fromDict_asDict (r : ArtifactPublicationReceipt R) :
    fromDict R r.asDict = .ok r := by
  rw [← make_args r r.metadata.shown_thawed]
  simp [fromDict, asDict, Publication.unsigned, Publication.args, receiptSchemaVersion,
    PyValue.orElse, PyValue.truthy]

@[simp] theorem readDict_asDict (r : ArtifactPublicationReceipt R) :
    R.readDict r.asDict = .ok r.asDict :=
  R.readDict_mapping _

end ArtifactPublicationReceipt

/-! ## Bindings -/

/-- `ARTIFACT_BINDING_SCHEMA_VERSION`. -/
def bindingSchemaVersion : ℤ := 1

/-- `v is True`. -/
def isTrue : Option PyValue → Bool
  | some (.bool b) => b
  | _ => false

/-- The arguments of the constructor of `ArtifactBinding`. -/
structure BindingArgs (R : Runtime) where
  ref : Given DataRef
  publication : Given (ArtifactPublicationReceipt R)
  bindingDigest : String
  schemaVersion : ℤ

/-- `ArtifactBinding`. -/
structure ArtifactBinding (R : Runtime) where
  ref : DataRef
  publication : ArtifactPublicationReceipt R
  bindingDigest : Resources.Digest
  matches_ref : publication.ref.same ref = true
  is_sealed : isTrue (publication.metadata.dict.get? "case_finalization_sealed") = true
  signed : R.jsonDigest (obj [("schema_version", .int bindingSchemaVersion), ("ref", ref.asDict),
    ("publication", publication.asDict)]) = .ok bindingDigest

namespace ArtifactBinding

variable {R : Runtime}

/-- `ArtifactBinding.__post_init__`. -/
def make (a : BindingArgs R) : Except Raised (ArtifactBinding R) := do
  let version := a.schemaVersion
  if version ≠ bindingSchemaVersion then
    throw (.valueError s!"unsupported ArtifactBinding schema_version={version}")
  let ref ← a.ref.take (DataRef.fromDict R)
  let publication ← a.publication.take (ArtifactPublicationReceipt.fromDict R)
  if hsame : publication.ref.same ref = true then
    if hsealed : isTrue (publication.metadata.dict.get? "case_finalization_sealed") = true then
      match h : R.jsonDigest (obj [("schema_version", .int bindingSchemaVersion),
          ("ref", ref.asDict), ("publication", publication.asDict)]) with
      | .error e => throw e
      | .ok digest =>
          checkDigest "ArtifactBinding digest mismatch" a.bindingDigest digest
          return ⟨ref, publication, digest, hsame, hsealed, h⟩
    else
      throw (.valueError
        "ArtifactBinding requires a Case-finalization-sealed publication receipt")
  else throw (.valueError "ArtifactBinding ref does not match its publication receipt")

/-- `ArtifactBinding.from_dict`. -/
def fromDict (R : Runtime) (v : PyValue) : Except Raised (ArtifactBinding R) := do
  let d ← R.dictOrEmpty v
  let rawRef ← R.readDict (d.get "ref" (obj []))
  let ref ← DataRef.fromDict R rawRef
  let rawPublication ← R.readDict (d.get "publication" (obj []))
  let publication ← ArtifactPublicationReceipt.fromDict R rawPublication
  let schemaVersion ←
    R.intOf ((d.get "schema_version" (.int bindingSchemaVersion)).orElse
      (.int bindingSchemaVersion))
  make {
    ref := .built ref
    publication := .built publication
    bindingDigest := R.strOf (d.get "binding_digest" (.text ""))
    schemaVersion := schemaVersion }

/-- `ArtifactBinding.as_dict`. -/
def asDict (b : ArtifactBinding R) : PyValue :=
  obj [
    ("schema_version", .int bindingSchemaVersion),
    ("ref", b.ref.asDict),
    ("publication", b.publication.asDict),
    ("binding_digest", .text (digestText b.bindingDigest))]

/-- The fields of a binding. -/
def args (b : ArtifactBinding R) : BindingArgs R where
  ref := .built b.ref
  publication := .built b.publication
  bindingDigest := digestText b.bindingDigest
  schemaVersion := bindingSchemaVersion

/-- The constructor accepts the fields of a binding, and changes nothing. -/
theorem make_args (b : ArtifactBinding R) : make b.args = .ok b := by
  simp only [make, args, Given.take_built, ok_bind, b.matches_ref, b.is_sealed]
  simp only [ne_eq, not_true_eq_false, ↓reduceIte, ↓reduceDIte]
  split
  · next h => rw [b.signed] at h; cases h
  · next digest h =>
      rw [b.signed] at h
      obtain rfl := Except.ok.inj h
      rw [checkDigest_digestText]
      rfl

@[simp] theorem fromDict_asDict (b : ArtifactBinding R) : fromDict R b.asDict = .ok b := by
  rw [← make_args b]
  simp [fromDict, asDict, args, bindingSchemaVersion, PyValue.orElse, PyValue.truthy]

end ArtifactBinding

end Blackbase.Project.Envelope
