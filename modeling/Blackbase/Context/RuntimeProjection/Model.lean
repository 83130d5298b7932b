import Blackbase.Core.CodePoints
import Blackbase.Resources.Control.Model

/-!
# Runtime projections

The issues, the projections and the audits of `context/runtime_projection.py`.  A projection is a
mapping of fields with the counts of the components that were asked for them; its constructor
checks the counts against each other.  The audit of a projection takes its issue samples as long
as the JSON text stays within a limit.

Texts are texts of code points, in which surrogates may stand alone.  SHA-256 is a parameter.
-/

namespace Blackbase.Context.RuntimeProjection

open Resources (Digest)

/-! ## Limits -/

def runtimeProjectionSchema : String := "blackbase.runtime_projection.v1"

def maxComponents : ℕ := 2147483647

def maxIssueSamples : ℕ := 16

def auditMaxBytes : ℕ := 4096

def componentMaxBytes : ℕ := 128

def reasonMaxBytes : ℕ := 64

def errorTypeMaxBytes : ℕ := 64

def messageMaxBytes : ℕ := 256

/-- The length that no mapping exceeds (`sys.maxsize`). -/
def maxSize : ℕ := 2 ^ 63 - 1

/-! ## Digests -/

section Digests

variable (sha256 : List UInt8 → Digest)

/-- `n.to_bytes(8, byteorder="big")`. -/
def toBytes8 (n : ℕ) : List UInt8 := (List.range 8).map fun i ↦ UInt8.ofNat (n / 256 ^ (7 - i))

/-- What `_update_digest` adds for one part. -/
def frame (part : PointText) : List UInt8 := toBytes8 part.bytes.length ++ part.bytes

/-- The digest that is updated with parts. -/
def digestOf (parts : List PointText) : Digest := sha256 (parts.flatMap frame)

def textOf (d : Digest) : PointText := PointText.ofString d.text

def numberText (n : ℕ) : PointText := PointText.ofChars (Nat.toDigits 10 n)

/-! ## Bounded texts -/

/-- `f"…#{full_digest[:16]}"`. -/
def suffix (t : PointText) : List Char := '…' :: '#' :: (sha256 t.bytes).text.toList.take 16

/-- `_bounded_text`.  The suffix has 18 characters and 20 bytes; of a shorter limit its end is
left, without a part of its first character. -/
def boundedText (t : PointText) (limit : ℕ) : PointText × Bool :=
  if t.bytes.length ≤ limit then (t, false)
  else if limit < 20 then
    (PointText.ofChars ((suffix sha256 t).drop (18 - min limit 17)), true)
  else (PointText.ofChars (PointText.fitting (limit - 20) t.replaced ++ suffix sha256 t), true)

end Digests

/-! ## Issues -/

/-- `RuntimeProjectionIssue`, with its texts as they are kept. -/
structure Issue where
  component : PointText
  reason : PointText
  errorType : PointText
  message : PointText
  causeDigest : Option Digest
  digest : Digest
  messageHash : Digest
  truncated : Bool
  component_le : component.bytes.length ≤ componentMaxBytes
  reason_le : reason.bytes.length ≤ reasonMaxBytes
  errorType_le : errorType.bytes.length ≤ errorTypeMaxBytes
  message_le : message.bytes.length ≤ messageMaxBytes

section Issues

variable (sha256 : List UInt8 → Digest)

/-- The parts that the digest of an issue is made of. -/
def issueParts (component reason errorType message : PointText) (causeDigest : Option Digest) :
    List PointText :=
  [PointText.ofString runtimeProjectionSchema, component, reason, errorType, message] ++
    (causeDigest.map fun d ↦ [PointText.ofString "cause_digest", textOf d]).getD []

theorem utf8_append (cs cs' : List Char) :
    PointText.utf8 (cs ++ cs') = PointText.utf8 cs ++ PointText.utf8 cs' :=
  List.flatMap_append

theorem length_utf8_of_ascii {cs : List Char} (h : ∀ c ∈ cs, c.utf8Size = 1) :
    (PointText.utf8 cs).length = cs.length := by
  induction cs with
  | nil => rfl
  | cons c rest ih =>
      rw [PointText.utf8, List.flatMap_cons, List.length_append, String.length_utf8EncodeChar,
        h c List.mem_cons_self]
      have hrest := ih fun c' hc' ↦ h c' (List.mem_cons_of_mem _ hc')
      rw [PointText.utf8] at hrest
      rw [hrest, List.length_cons]
      omega

theorem utf8Size_of_isHexDigit {c : Char} (h : Resources.isHexDigit c) : c.utf8Size = 1 := by
  have hall : Resources.hexDigits.all (fun c ↦ c.utf8Size == 1) := by decide
  have hc : c ∈ Resources.hexDigits := by simpa [Resources.isHexDigit] using h
  simpa using List.all_eq_true.mp hall c hc

theorem length_bytes_ofChars (cs : List Char) :
    (PointText.ofChars cs).bytes.length = (PointText.utf8 cs).length := by
  rw [PointText.bytes, PointText.replaced_ofChars]

theorem length_utf8_suffix (t : PointText) : (PointText.utf8 (suffix sha256 t)).length = 20 := by
  have hhex : ∀ c ∈ (sha256 t.bytes).text.toList.take 16, c.utf8Size = 1 := fun c hc ↦
    utf8Size_of_isHexDigit ((sha256 t.bytes).hex c (List.mem_of_mem_take hc))
  rw [suffix, show ('…' :: '#' :: (sha256 t.bytes).text.toList.take 16) =
    ['…', '#'] ++ (sha256 t.bytes).text.toList.take 16 from rfl, utf8_append, List.length_append,
    length_utf8_of_ascii hhex, List.length_take, (sha256 t.bytes).length_eq]
  rfl

/-- A bounded text is within its limit. -/
theorem length_boundedText (t : PointText) {limit : ℕ} (hlimit : 20 ≤ limit) :
    (boundedText sha256 t limit).1.bytes.length ≤ limit := by
  unfold boundedText
  by_cases h : t.bytes.length ≤ limit
  · rw [if_pos h]
    exact h
  · rw [if_neg h, if_neg (not_lt.mpr hlimit), length_bytes_ofChars, utf8_append,
      List.length_append, length_utf8_suffix]
    have hfit := PointText.length_utf8_fitting (limit - 20) t.replaced
    omega

/-- `RuntimeProjectionIssue(...)`. -/
def Issue.make (component reason errorType message : PointText) (causeDigest : Option Digest) :
    Issue where
  component := (boundedText sha256 component componentMaxBytes).1
  reason := (boundedText sha256 reason reasonMaxBytes).1
  errorType := (boundedText sha256 errorType errorTypeMaxBytes).1
  message := (boundedText sha256 message messageMaxBytes).1
  causeDigest := causeDigest
  digest := digestOf sha256 (issueParts component reason errorType message causeDigest)
  messageHash := sha256 message.bytes
  truncated := (boundedText sha256 component componentMaxBytes).2 ||
    (boundedText sha256 reason reasonMaxBytes).2 ||
    (boundedText sha256 errorType errorTypeMaxBytes).2 ||
    (boundedText sha256 message messageMaxBytes).2
  component_le := length_boundedText sha256 component (by decide)
  reason_le := length_boundedText sha256 reason (by decide)
  errorType_le := length_boundedText sha256 errorType (by decide)
  message_le := length_boundedText sha256 message (by decide)

/-- `_issues_digest`, and the digest of the accumulator. -/
def issuesDigest (issues : List Issue) : Digest :=
  digestOf sha256 (issues.map fun issue ↦ textOf issue.digest)

end Issues

/-! ## Projections -/

inductive Status where
  | ok
  | degraded
  | error
deriving DecidableEq

def Status.name : Status → String
  | ok => "ok"
  | degraded => "degraded"
  | error => "error"

/-- The counts of the components that were asked, by what became of them. -/
structure Counts where
  component : ℕ
  successful : ℕ
  degraded : ℕ
  failed : ℕ
  invalid : ℕ
  unavailable : ℕ
deriving DecidableEq

namespace Counts

def all (c : Counts) : List ℕ :=
  [c.component, c.successful, c.degraded, c.failed, c.invalid, c.unavailable]

/-- The components with an issue. -/
def unhealthy (c : Counts) : ℕ := c.degraded + c.failed + c.invalid

/-- The status that the counts ask for. -/
def expectedStatus (c : Counts) : Status :=
  if c.unhealthy = 0 then .ok
  else if 0 < c.successful ∨ 0 < c.degraded then .degraded
  else .error

end Counts

/-- What the constructor of a projection raises. -/
inductive ProjectionError where
  | sourceOfAbsentField
  | countLimit
  | classification
  | status (expected given : Status)
  | sampleLimit
  | tooManySamples
  | samplesOverLimit
  | issueCount
  | issueDigest
deriving DecidableEq

/-- What `RuntimeContextProjection` is called with.  The issue count and the issue digest may be
left out. -/
structure Args (V : Type) where
  fields : List (PointText × V)
  fieldSources : List (PointText × PointText)
  status : Status
  counts : Counts
  issueSamples : List Issue
  issueSampleLimit : ℕ
  issueCount : Option ℕ
  issueDigest : Option Digest
  auditTruncated : Bool
  nodup_fields : (fields.map Prod.fst).Nodup
  nodup_sources : (fieldSources.map Prod.fst).Nodup
  length_sources : fieldSources.length ≤ maxSize

variable (sha256 : List UInt8 → Digest) {V : Type}

/-- `RuntimeContextProjection`, with what its constructor checks. -/
structure Projection (V : Type) where
  fields : List (PointText × V)
  fieldSources : List (PointText × PointText)
  counts : Counts
  issueSamples : List Issue
  issueSampleLimit : ℕ
  issueDigest : Digest
  auditTruncated : Bool
  nodup_fields : (fields.map Prod.fst).Nodup
  nodup_sources : (fieldSources.map Prod.fst).Nodup
  length_sources : fieldSources.length ≤ maxSize
  source_mem : ∀ e ∈ fieldSources, e.1 ∈ fields.map Prod.fst
  counts_le : ∀ n ∈ counts.all, n ≤ maxComponents
  sum_eq : counts.successful + counts.degraded + counts.failed + counts.invalid +
    counts.unavailable = counts.component
  sampleLimit_le : issueSampleLimit ≤ maxIssueSamples
  samples_le : issueSamples.length ≤ issueSampleLimit
  samples_le_count : issueSamples.length ≤ counts.unhealthy
  digest_eq : issueSamples.length = counts.unhealthy →
    issueDigest = issuesDigest sha256 issueSamples
  truncated_of_lt : issueSamples.length < counts.unhealthy → auditTruncated = true

namespace Projection

variable {sha256}

def status (p : Projection sha256 V) : Status := p.counts.expectedStatus

def issueCount (p : Projection sha256 V) : ℕ := p.counts.unhealthy

end Projection

/-- `RuntimeContextProjection(...)`. -/
def Projection.make (a : Args V) : Except ProjectionError (Projection sha256 V) :=
  if hsource : ∀ e ∈ a.fieldSources, e.1 ∈ a.fields.map Prod.fst then
    if hcounts : ∀ n ∈ a.counts.all, n ≤ maxComponents then
      if hsum : a.counts.successful + a.counts.degraded + a.counts.failed + a.counts.invalid +
          a.counts.unavailable = a.counts.component then
        if a.status = a.counts.expectedStatus then
          if hlimit : a.issueSampleLimit ≤ maxIssueSamples then
            if a.issueSamples.length ≤ maxIssueSamples then
              if hsamples : a.issueSamples.length ≤ a.issueSampleLimit then
                if hcount : a.issueCount.getD a.issueSamples.length = a.counts.unhealthy ∧
                    a.issueSamples.length ≤ a.counts.unhealthy then
                  let computed := issuesDigest sha256 a.issueSamples
                  let project (digest : Digest) (hdigest : a.issueSamples.length =
                      a.counts.unhealthy → digest = computed) : Projection sha256 V := {
                    fields := a.fields
                    fieldSources := a.fieldSources.map fun e ↦
                      (e.1, (boundedText sha256 e.2 componentMaxBytes).1)
                    counts := a.counts
                    issueSamples := a.issueSamples
                    issueSampleLimit := a.issueSampleLimit
                    issueDigest := digest
                    auditTruncated := a.auditTruncated ||
                      decide (a.issueSamples.length < a.counts.unhealthy)
                    nodup_fields := a.nodup_fields
                    nodup_sources := by
                      rw [List.map_map]
                      exact a.nodup_sources
                    length_sources := by
                      rw [List.length_map]
                      exact a.length_sources
                    source_mem := List.forall_mem_map.mpr hsource
                    counts_le := hcounts
                    sum_eq := hsum
                    sampleLimit_le := hlimit
                    samples_le := hsamples
                    samples_le_count := hcount.2
                    digest_eq := hdigest
                    truncated_of_lt := fun h ↦ by simp [h] }
                  if hall : a.issueSamples.length = a.counts.unhealthy then
                    if a.issueDigest.getD computed = computed then
                      .ok (project computed fun _ ↦ rfl)
                    else .error .issueDigest
                  else
                    match a.issueDigest with
                    | none => .error .issueDigest
                    | some digest => .ok (project digest fun h ↦ absurd h hall)
                else .error .issueCount
              else .error .samplesOverLimit
            else .error .tooManySamples
          else .error .sampleLimit
        else .error (.status a.counts.expectedStatus a.status)
      else .error .classification
    else .error .countLimit
  else .error .sourceOfAbsentField

namespace Projection

variable {sha256} (p : Projection sha256 V)

/-- `audit_digest`. -/
def auditDigest : Digest :=
  digestOf sha256 ([PointText.ofString runtimeProjectionSchema, PointText.ofString p.status.name] ++
    p.counts.all.map numberText ++ [numberText p.issueCount, textOf p.issueDigest])

/-- The sources in the order of their fields. -/
def sortedSources : List (PointText × PointText) :=
  p.fieldSources.mergeSort fun e e' ↦ e.1.map CodePoint.toNat ≤ e'.1.map CodePoint.toNat

/-- `field_source_digest`. -/
def fieldSourceDigest : Digest :=
  digestOf sha256 (PointText.ofString "blackbase.runtime_projection.field_sources.v1" ::
    p.sortedSources.flatMap fun e ↦ [e.1, e.2])

end Projection

/-! ## JSON -/

inductive Json where
  | text (t : PointText)
  | number (n : ℕ)
  | bool (b : Bool)
  | array (items : List Json)
  | object (items : List (String × Json))

/-- The bytes of a code point in a JSON string that keeps what is not ASCII. -/
def pointSize : CodePoint → ℕ
  | .scalar c =>
      if c ∈ ['"', '\\', '\n', '\r', '\t', '\x08', '\x0c'] then 2
      else if c.toNat < 0x20 then 6
      else c.utf8Size
  | .surrogate _ => 3

/-- The bytes of a JSON string with its quotes. -/
def textSize (t : PointText) : ℕ := 2 + (t.map pointSize).sum

def numberSize (n : ℕ) : ℕ := (Nat.toDigits 10 n).length

namespace Json

mutual

/-- The bytes of a compact JSON text, in whatever order the keys of its objects stand. -/
def size : Json → ℕ
  | .text t => textSize t
  | .number n => numberSize n
  | .bool true => 4
  | .bool false => 5
  | .array items => 2 + itemsSize items + (items.length - 1)
  | .object items => 2 + pairsSize items + (items.length - 1)

def itemsSize : List Json → ℕ
  | [] => 0
  | j :: rest => j.size + itemsSize rest

def pairsSize : List (String × Json) → ℕ
  | [] => 0
  | (k, j) :: rest => textSize (PointText.ofString k) + 1 + j.size + pairsSize rest

end

mutual

/-- No surrogate stands alone in the text. -/
def isWhole : Json → Bool
  | .text t => t.isWhole
  | .number _ | .bool _ => true
  | .array items => itemsWhole items
  | .object items => pairsWhole items

def itemsWhole : List Json → Bool
  | [] => true
  | j :: rest => j.isWhole && itemsWhole rest

def pairsWhole : List (String × Json) → Bool
  | [] => true
  | (_, j) :: rest => j.isWhole && pairsWhole rest

end

/-- `_audit_size`: the bytes of the JSON text, which cannot be encoded when a surrogate stands
alone in it. -/
def auditSize (j : Json) : Option ℕ := if j.isWhole then some j.size else none

end Json

def digestJson (d : Digest) : Json := .text (textOf d)

/-- `as_dict` of an issue. -/
def Issue.asDict (i : Issue) : Json :=
  .object ([("component", .text i.component), ("reason", .text i.reason),
    ("digest", digestJson i.digest), ("truncated", .bool i.truncated)] ++
    (if i.errorType = [] then [] else [("error_type", .text i.errorType)]) ++
    (if i.message = [] then []
      else [("message", .text i.message), ("message_hash", digestJson i.messageHash)]) ++
    (i.causeDigest.map fun d ↦ [("cause_digest", digestJson d)]).getD [])

/-! ## Audits -/

inductive AuditError where
  | encode
  | overBudget
deriving DecidableEq

/-- What of an audit changes while it is put together. -/
structure Audit where
  samples : List Issue
  truncated : Bool

namespace Projection

variable {sha256} (p : Projection sha256 V)

/-- The audit as a JSON object. -/
def auditJson (a : Audit) : Json :=
  .object [("schema", .text (PointText.ofString runtimeProjectionSchema)),
    ("status", .text (PointText.ofString p.status.name)),
    ("component_count", .number p.counts.component),
    ("successful_component_count", .number p.counts.successful),
    ("degraded_component_count", .number p.counts.degraded),
    ("failed_component_count", .number p.counts.failed),
    ("invalid_component_count", .number p.counts.invalid),
    ("unavailable_component_count", .number p.counts.unavailable),
    ("issue_count", .number p.issueCount),
    ("issue_digest", digestJson p.issueDigest),
    ("issue_samples", .array (a.samples.map Issue.asDict)),
    ("issue_sample_count", .number a.samples.length),
    ("issue_sample_limit", .number p.issueSampleLimit),
    ("field_source_count", .number p.fieldSources.length),
    ("field_source_digest", digestJson p.fieldSourceDigest),
    ("audit_max_bytes", .number auditMaxBytes),
    ("audit_truncated", .bool a.truncated),
    ("audit_digest", digestJson p.auditDigest)]

/-- The size of an audit, which may raise. -/
def sizeOf (a : Audit) : Except AuditError ℕ :=
  match (p.auditJson a).auditSize with
  | some n => .ok n
  | none => .error .encode

/-- The audit with one more sample. -/
def candidate (a : Audit) (i : Issue) : Audit where
  samples := a.samples ++ [i]
  truncated := p.auditTruncated || decide (a.samples.length + 1 < p.issueCount)

/-- The loop that adds the samples one after the other. -/
def addSamples : List Issue → Audit → Except AuditError Audit
  | [], a => .ok a
  | i :: rest, a => do
      let n ← p.sizeOf (p.candidate a i)
      if auditMaxBytes < n then .ok { a with truncated := true }
      else addSamples rest (p.candidate a i)

/-- The loop that takes samples away, at most as many as there are. -/
def dropSamples : ℕ → Audit → Except AuditError Audit
  | 0, a => .ok a
  | k + 1, a => do
      let n ← p.sizeOf a
      if auditMaxBytes < n ∧ a.samples ≠ [] then
        dropSamples k ⟨a.samples.dropLast, true⟩
      else .ok a

/-- `as_audit`. -/
def asAudit : Except AuditError Audit := do
  let a ← p.addSamples p.issueSamples ⟨[], p.auditTruncated⟩
  let a : Audit := ⟨a.samples, a.truncated || decide (a.samples.length < p.issueCount)⟩
  let a ← p.dropSamples a.samples.length a
  let n ← p.sizeOf a
  if auditMaxBytes < n then .error .overBudget else .ok a

end Projection

end Blackbase.Context.RuntimeProjection
