import Mathlib.Data.Finmap
import Blackbase.Core.Text
import Blackbase.Resources.Model

/-!
# Dispositions and their verification

`EvaluationDispositionEnvelope` and `EvaluationDispositionVerificationReceipt` of
`evaluation/event.py`.  A value is what its constructor accepts, with the texts stripped.  A
wire mapping is a finite map whose values are left open.
-/

namespace Blackbase.Evaluation

universe u

/-- A mapping that can be sent over the wire. -/
abbrev WireMapping (V : Type u) := Finmap fun _ : String ↦ V

/-- The wire value of a text. -/
class WireText (V : Type u) where
  ofText : String → V

/-- Wire values that are texts. -/
instance : WireText String := ⟨id⟩

/-- The equality `==` of wire values.  The two sides may hold the same objects, and the right
one may be thawed, with lists where the left one has tuples. -/
class WireEq (V : Type u) where
  same (shared thawed : Bool) : V → V → Bool

instance : WireEq String := ⟨fun _ _ s t ↦ s = t⟩

namespace WireMapping

variable {V : Type u} [WireEq V]

/-- The values of two mappings at one key. -/
def sameAt (shared thawed : Bool) : Option V → Option V → Bool
  | some v, some w => WireEq.same shared thawed v w
  | none, none => true
  | _, _ => false

/-- `==` between two mappings. -/
def Same (shared thawed : Bool) (m m' : WireMapping V) : Prop :=
  ∀ k ∈ m.keys ∪ m'.keys, sameAt shared thawed (m.lookup k) (m'.lookup k) = true

instance (shared thawed : Bool) (m m' : WireMapping V) : Decidable (Same shared thawed m m') :=
  inferInstanceAs (Decidable (∀ k ∈ m.keys ∪ m'.keys, _))

/-- A mapping is the same as itself if its values are. -/
theorem same_self_iff {shared thawed : Bool} {m : WireMapping V} :
    Same shared thawed m m ↔ ∀ k v, m.lookup k = some v → WireEq.same shared thawed v v = true := by
  constructor
  · intro h k v hv
    have hk : k ∈ m.keys ∪ m.keys := by
      rw [Finset.union_self, Finmap.mem_keys, ← Finmap.lookup_isSome, hv]
      rfl
    simpa only [hv, sameAt] using h k hk
  · intro h k _
    cases hv : m.lookup k with
    | none => rfl
    | some v => exact h k v hv

end WireMapping

/-- A text that is stripped and not empty. -/
structure IsLabel (s : String) : Prop where
  strip : Text.strip s = s
  nonempty : s ≠ ""

theorem isLabel_strip {s : String} (h : Text.strip s ≠ "") : IsLabel (Text.strip s) :=
  ⟨Text.strip_strip s, h⟩

/-- A SHA-256 digest as it is written in a receipt. -/
structure IsDigest (s : String) : Prop where
  normal : Text.lower (Text.strip s) = s
  startsWith : Text.startsWith s "sha256:" = true
  length : s.length = 71

instance (s : String) : Decidable (IsLabel s) :=
  decidable_of_iff (Text.strip s = s ∧ s ≠ "") ⟨fun h ↦ ⟨h.1, h.2⟩, fun h ↦ ⟨h.1, h.2⟩⟩

instance (s : String) : Decidable (IsDigest s) :=
  decidable_of_iff (Text.lower (Text.strip s) = s ∧ Text.startsWith s "sha256:" = true ∧
    s.length = 71) ⟨fun h ↦ ⟨h.1, h.2.1, h.2.2⟩, fun h ↦ ⟨h.1, h.2, h.3⟩⟩

/-- What the constructors refuse. -/
inductive EventError where
  | dispositionEventId
  | dispositionStatus
  | dispositionCodec
  | dispositionEventKey
  | dispositionAuthorityKey
  | receiptKeys
  | receiptRevisions
  | receiptSnapshotDigest
  | receiptSchema
  | receiptDigest
  | receiptVerifier
  | receiptTime
deriving DecidableEq

/-- The text of the error. -/
def EventError.message : EventError → String
  | dispositionEventId => "evaluation disposition event_id must not be empty"
  | dispositionStatus =>
      "evaluation disposition status must be committed, rejected, or failed"
  | dispositionCodec => "evaluation disposition codec is required"
  | dispositionEventKey => "evaluation disposition requires event_snapshot_key"
  | dispositionAuthorityKey =>
      "committed evaluation disposition requires authority_snapshot_key"
  | receiptKeys => "evaluation disposition verification requires event and Snapshot keys"
  | receiptRevisions =>
      "evaluation disposition verification requires positive Snapshot revisions"
  | receiptSnapshotDigest =>
      "evaluation disposition verification Snapshot digest is invalid"
  | receiptSchema => "evaluation disposition verification Snapshot schema is required"
  | receiptDigest => "evaluation disposition verification digest is invalid"
  | receiptVerifier => "evaluation disposition verification verifier is required"
  | receiptTime => "evaluation disposition verification time is invalid"

/-! ## Dispositions -/

inductive DispositionStatus where
  | committed
  | rejected
  | failed
deriving DecidableEq

/-- The status a text names. -/
def DispositionStatus.ofText (s : String) : Option DispositionStatus :=
  match Text.lower (Text.strip s) with
  | "committed" => some committed
  | "rejected" => some rejected
  | "failed" => some failed
  | _ => none

/-- `EvaluationDispositionEnvelope`. -/
structure EvaluationDispositionEnvelope (V : Type u) where
  eventId : String
  status : DispositionStatus
  dispositionCodec : String
  dispositionPayload : WireMapping V
  eventSnapshotKey : String
  authoritySnapshotKey : String
  identity : WireMapping V
  metadata : WireMapping V
  eventId_label : IsLabel eventId
  codec_label : IsLabel dispositionCodec
  eventSnapshotKey_label : IsLabel eventSnapshotKey
  authority_strip : Text.strip authoritySnapshotKey = authoritySnapshotKey
  authority_of_committed : status = .committed → authoritySnapshotKey ≠ ""
deriving DecidableEq

namespace EvaluationDispositionEnvelope

variable {V : Type u}

/-- The constructor. -/
def make (eventId status dispositionCodec : String) (dispositionPayload : WireMapping V)
    (eventSnapshotKey authoritySnapshotKey : String) (identity metadata : WireMapping V) :
    Except EventError (EvaluationDispositionEnvelope V) :=
  if hid : Text.strip eventId = "" then .error .dispositionEventId
  else match DispositionStatus.ofText status with
    | none => .error .dispositionStatus
    | some status =>
        if hcodec : Text.strip dispositionCodec = "" then .error .dispositionCodec
        else if hkey : Text.strip eventSnapshotKey = "" then .error .dispositionEventKey
        else if hauthority : status = .committed ∧ Text.strip authoritySnapshotKey = "" then
          .error .dispositionAuthorityKey
        else .ok
          { eventId := Text.strip eventId
            status := status
            dispositionCodec := Text.strip dispositionCodec
            dispositionPayload := dispositionPayload
            eventSnapshotKey := Text.strip eventSnapshotKey
            authoritySnapshotKey := Text.strip authoritySnapshotKey
            identity := identity
            metadata := metadata
            eventId_label := isLabel_strip hid
            codec_label := isLabel_strip hcodec
            eventSnapshotKey_label := isLabel_strip hkey
            authority_strip := Text.strip_strip _
            authority_of_committed := fun hc he ↦ hauthority ⟨hc, he⟩ }

/-- `==` between the payload of a stored envelope and the `as_dict` of another one. -/
structure SameAsGiven [WireEq V] (shared : Bool) (stored given : EvaluationDispositionEnvelope V) :
    Prop where
  eventId : stored.eventId = given.eventId
  status : stored.status = given.status
  dispositionCodec : stored.dispositionCodec = given.dispositionCodec
  dispositionPayload :
    WireMapping.Same shared true stored.dispositionPayload given.dispositionPayload
  eventSnapshotKey : stored.eventSnapshotKey = given.eventSnapshotKey
  authoritySnapshotKey : stored.authoritySnapshotKey = given.authoritySnapshotKey
  identity : WireMapping.Same shared true stored.identity given.identity
  metadata : WireMapping.Same shared true stored.metadata given.metadata

instance [WireEq V] (shared : Bool) (stored given : EvaluationDispositionEnvelope V) :
    Decidable (SameAsGiven shared stored given) :=
  decidable_of_iff (stored.eventId = given.eventId ∧ stored.status = given.status ∧
    stored.dispositionCodec = given.dispositionCodec ∧
    WireMapping.Same shared true stored.dispositionPayload given.dispositionPayload ∧
    stored.eventSnapshotKey = given.eventSnapshotKey ∧
    stored.authoritySnapshotKey = given.authoritySnapshotKey ∧
    WireMapping.Same shared true stored.identity given.identity ∧
    WireMapping.Same shared true stored.metadata given.metadata)
    ⟨fun ⟨h₁, h₂, h₃, h₄, h₅, h₆, h₇, h₈⟩ ↦ ⟨h₁, h₂, h₃, h₄, h₅, h₆, h₇, h₈⟩,
      fun ⟨h₁, h₂, h₃, h₄, h₅, h₆, h₇, h₈⟩ ↦ ⟨h₁, h₂, h₃, h₄, h₅, h₆, h₇, h₈⟩⟩

end EvaluationDispositionEnvelope

/-- The digits of a hexadecimal digest. -/
def hexDigits : List Char :=
  ['0', '1', '2', '3', '4', '5', '6', '7', '8', '9', 'a', 'b', 'c', 'd', 'e', 'f']

/-- `evaluation_disposition_digest`: the hexadecimal SHA-256 digest of the canonical JSON of an
envelope. -/
structure DispositionDigest (V : Type u) where
  hexdigest : EvaluationDispositionEnvelope V → String
  length : ∀ envelope, (hexdigest envelope).length = 64
  hexadecimal : ∀ envelope, ∀ c ∈ (hexdigest envelope).toList, c ∈ hexDigits

namespace DispositionDigest

variable {V : Type u} (D : DispositionDigest V)

/-- The digest that is bound into a receipt. -/
def digest (envelope : EvaluationDispositionEnvelope V) : String :=
  "sha256:" ++ D.hexdigest envelope

/-- The characters of a digest. -/
def alphabet : List Char := ['s', 'h', ':'] ++ hexDigits

theorem plain_of_mem_alphabet : ∀ c ∈ alphabet, Text.isSpace c = false ∧ c.toLower = c := by
  simp [alphabet, hexDigits, Text.isSpace]

theorem mem_alphabet (envelope : EvaluationDispositionEnvelope V) :
    ∀ c ∈ (D.digest envelope).toList, c ∈ alphabet := by
  intro c hc
  rw [digest, String.toList_append, List.mem_append] at hc
  rcases hc with hscheme | hhex
  · have hchars : "sha256:".toList = ['s', 'h', 'a', '2', '5', '6', ':'] := rfl
    revert c
    simp [hchars, alphabet, hexDigits]
  · exact List.mem_append_right _ (D.hexadecimal envelope c hhex)

/-- The digest of an envelope is one that a receipt can carry. -/
theorem isDigest_digest (envelope : EvaluationDispositionEnvelope V) :
    IsDigest (D.digest envelope) where
  normal := by
    have hplain : ∀ c ∈ (D.digest envelope).toList, Text.isSpace c = false ∧ c.toLower = c :=
      fun c hc ↦ plain_of_mem_alphabet c (D.mem_alphabet envelope c hc)
    have hstrip : Text.strip (D.digest envelope) = D.digest envelope := by
      refine Text.strip_eq_self (fun h ↦ ?_) fun h ↦ ?_
      · simp [(hplain _ (List.head_mem h)).1]
      · simp [(hplain _ (List.getLast_mem h)).1]
    have hlower : (D.digest envelope).toList.map Char.toLower = (D.digest envelope).toList :=
      (List.map_congr_left fun c hc ↦ (hplain c hc).2).trans (List.map_id' _)
    rw [hstrip, Text.lower, hlower, String.ofList_toList]
  startsWith := by
    rw [Text.startsWith, digest, String.toList_append, List.isPrefixOf_iff_prefix]
    exact List.prefix_append _ _
  length := by
    rw [digest, String.length_append, D.length]
    rfl

end DispositionDigest

/-! ## Receipts -/

/-- The arguments of the constructor of a receipt. -/
structure ReceiptFields (V : Type u) where
  eventId : String
  eventSnapshotKey : String
  eventSnapshotRevision : ℤ
  eventSnapshotDigest : String
  eventSnapshotSchema : String
  destinationSnapshotKey : String
  destinationSnapshotRevision : ℤ
  destinationSnapshotDigest : String
  destinationSnapshotSchema : String
  dispositionDigest : String
  verifier : String
  verifiedAt : Resources.Time
  metadata : WireMapping V
deriving DecidableEq

/-- `EvaluationDispositionVerificationReceipt`. -/
structure EvaluationDispositionVerificationReceipt (V : Type u) extends ReceiptFields V where
  eventId_label : IsLabel eventId
  eventSnapshotKey_label : IsLabel eventSnapshotKey
  destinationSnapshotKey_label : IsLabel destinationSnapshotKey
  eventSnapshotRevision_pos : 0 < eventSnapshotRevision
  destinationSnapshotRevision_pos : 0 < destinationSnapshotRevision
  eventSnapshotDigest_digest : IsDigest eventSnapshotDigest
  destinationSnapshotDigest_digest : IsDigest destinationSnapshotDigest
  eventSnapshotSchema_label : IsLabel eventSnapshotSchema
  destinationSnapshotSchema_label : IsLabel destinationSnapshotSchema
  dispositionDigest_digest : IsDigest dispositionDigest
  verifier_label : IsLabel verifier
  verifiedAt_pos : 0 < verifiedAt
deriving DecidableEq

namespace ReceiptFields

variable {V : Type u}

/-- The texts stripped, and the digests in lower case. -/
def normalize (f : ReceiptFields V) : ReceiptFields V where
  eventId := Text.strip f.eventId
  eventSnapshotKey := Text.strip f.eventSnapshotKey
  eventSnapshotRevision := f.eventSnapshotRevision
  eventSnapshotDigest := Text.lower (Text.strip f.eventSnapshotDigest)
  eventSnapshotSchema := Text.strip f.eventSnapshotSchema
  destinationSnapshotKey := Text.strip f.destinationSnapshotKey
  destinationSnapshotRevision := f.destinationSnapshotRevision
  destinationSnapshotDigest := Text.lower (Text.strip f.destinationSnapshotDigest)
  destinationSnapshotSchema := Text.strip f.destinationSnapshotSchema
  dispositionDigest := Text.lower (Text.strip f.dispositionDigest)
  verifier := Text.strip f.verifier
  verifiedAt := f.verifiedAt
  metadata := f.metadata

/-- The fields apart from the metadata. -/
def scalars (f : ReceiptFields V) : List String × List ℤ × Resources.Time :=
  ([f.eventId, f.eventSnapshotKey, f.eventSnapshotDigest, f.eventSnapshotSchema,
    f.destinationSnapshotKey, f.destinationSnapshotDigest, f.destinationSnapshotSchema,
    f.dispositionDigest, f.verifier],
    [f.eventSnapshotRevision, f.destinationSnapshotRevision], f.verifiedAt)

/-- `==` between the `as_dict` of two receipts. -/
def Same [WireEq V] (shared : Bool) (f g : ReceiptFields V) : Prop :=
  f.scalars = g.scalars ∧ WireMapping.Same shared false f.metadata g.metadata

instance [WireEq V] (shared : Bool) (f g : ReceiptFields V) : Decidable (f.Same shared g) :=
  inferInstanceAs (Decidable (_ ∧ _))

end ReceiptFields

/-- `digest.startswith("sha256:")` and a length of 71. -/
def digestShaped (s : String) : Prop := Text.startsWith s "sha256:" = true ∧ s.length = 71

instance (s : String) : Decidable (digestShaped s) := inferInstanceAs (Decidable (_ ∧ _))

theorem isDigest_lower_strip {s : String} (h : digestShaped (Text.lower (Text.strip s))) :
    IsDigest (Text.lower (Text.strip s)) :=
  ⟨by rw [Text.strip_lower, Text.strip_strip, Text.lower_lower], h.1, h.2⟩

namespace EvaluationDispositionVerificationReceipt

variable {V : Type u}

/-- The constructor. -/
def make (fields : ReceiptFields V) :
    Except EventError (EvaluationDispositionVerificationReceipt V) :=
  let f := fields.normalize
  if hkeys : f.eventId = "" ∨ f.eventSnapshotKey = "" ∨ f.destinationSnapshotKey = "" then
    .error .receiptKeys
  else if hrevisions : f.eventSnapshotRevision ≤ 0 ∨ f.destinationSnapshotRevision ≤ 0 then
    .error .receiptRevisions
  else if hdigests : ¬ digestShaped f.eventSnapshotDigest ∨
      ¬ digestShaped f.destinationSnapshotDigest then
    .error .receiptSnapshotDigest
  else if hschemas : f.eventSnapshotSchema = "" ∨ f.destinationSnapshotSchema = "" then
    .error .receiptSchema
  else if hdigest : ¬ digestShaped f.dispositionDigest then .error .receiptDigest
  else if hverifier : f.verifier = "" then .error .receiptVerifier
  else if htime : f.verifiedAt ≤ 0 then .error .receiptTime
  else
    have hkeys := not_or.mp hkeys
    have hsnapshots := not_or.mp hkeys.2
    have hrevisions := not_or.mp hrevisions
    have hdigests := not_or.mp hdigests
    have hschemas := not_or.mp hschemas
    .ok
      { f with
        eventId_label := isLabel_strip hkeys.1
        eventSnapshotKey_label := isLabel_strip hsnapshots.1
        destinationSnapshotKey_label := isLabel_strip hsnapshots.2
        eventSnapshotRevision_pos := not_le.mp hrevisions.1
        destinationSnapshotRevision_pos := not_le.mp hrevisions.2
        eventSnapshotDigest_digest := isDigest_lower_strip (not_not.mp hdigests.1)
        destinationSnapshotDigest_digest := isDigest_lower_strip (not_not.mp hdigests.2)
        eventSnapshotSchema_label := isLabel_strip hschemas.1
        destinationSnapshotSchema_label := isLabel_strip hschemas.2
        dispositionDigest_digest := isDigest_lower_strip (not_not.mp hdigest)
        verifier_label := isLabel_strip hverifier
        verifiedAt_pos := not_le.mp htime }

/-- The constructor accepts the fields of a receipt, and changes nothing. -/
theorem make_toReceiptFields (r : EvaluationDispositionVerificationReceipt V) :
    make r.toReceiptFields = .ok r := by
  have hnormal : r.toReceiptFields.normalize = r.toReceiptFields := by
    simp only [ReceiptFields.normalize, r.eventId_label.strip, r.eventSnapshotKey_label.strip,
      r.destinationSnapshotKey_label.strip, r.eventSnapshotDigest_digest.normal,
      r.destinationSnapshotDigest_digest.normal, r.eventSnapshotSchema_label.strip,
      r.destinationSnapshotSchema_label.strip, r.dispositionDigest_digest.normal,
      r.verifier_label.strip]
  have hevent := r.eventSnapshotDigest_digest
  have hdestination := r.destinationSnapshotDigest_digest
  have hdisposition := r.dispositionDigest_digest
  have hkeys : ¬ (r.eventId = "" ∨ r.eventSnapshotKey = "" ∨ r.destinationSnapshotKey = "") := by
    simp [r.eventId_label.nonempty, r.eventSnapshotKey_label.nonempty,
      r.destinationSnapshotKey_label.nonempty]
  have hrevisions : ¬ (r.eventSnapshotRevision ≤ 0 ∨ r.destinationSnapshotRevision ≤ 0) := by
    simp [r.eventSnapshotRevision_pos, r.destinationSnapshotRevision_pos]
  have hschemas : ¬ (r.eventSnapshotSchema = "" ∨ r.destinationSnapshotSchema = "") := by
    simp [r.eventSnapshotSchema_label.nonempty, r.destinationSnapshotSchema_label.nonempty]
  have htime : ¬ r.verifiedAt ≤ 0 := not_le.mpr r.verifiedAt_pos
  have hverifier : ¬ r.verifier = "" := r.verifier_label.nonempty
  simp only [make, hnormal, digestShaped, hevent.startsWith, hevent.length,
    hdestination.startsWith, hdestination.length, hdisposition.startsWith, hdisposition.length]
  rw [dif_neg hkeys, dif_neg hrevisions, dif_neg (by simp), dif_neg hschemas, dif_neg (by simp),
    dif_neg hverifier, dif_neg htime]

end EvaluationDispositionVerificationReceipt

end Blackbase.Evaluation
