import Blackbase.Core.Machine
import Blackbase.Evaluation.Journal

/-!
# The evidence journal moves forward only

A call on the journal either leaves a record alone, reserves it, or advances it: `Moves` is
all that one call can do.  What a whole run can do to a record is `Later`: the status goes
forward along preparing, pending, deciding and terminal, and a terminal record can only gain
the verification it did not have.  The journal a run starts from may hold records of an
earlier version, which are terminal without a verification.
-/

namespace Blackbase.Evaluation

universe u

open Resources (Time)

variable {V : Type u} {D : DispositionDigest V}

/-- The place of a status along preparing, pending, deciding and terminal. -/
def EvidenceStatus.rank : EvidenceStatus → ℕ
  | preparing => 0
  | pending => 1
  | deciding => 2
  | committed | rejected | failed | abandoned => 3

theorem EvidenceStatus.terminal_iff_rank (s : EvidenceStatus) : s.terminal = true ↔ s.rank = 3 := by
  cases s <;> decide

theorem EvidenceStatus.rank_le (s : EvidenceStatus) : s.rank ≤ 3 := by
  cases s <;> decide

theorem EvidenceStatus.terminal_of_decision {s : EvidenceStatus} (h : s.decision = true) :
    s.terminal = true := by
  simp [terminal, h]

@[simp] theorem EvidenceStatus.decision_ofDisposition (s : DispositionStatus) :
    (ofDisposition s).decision = true := by
  cases s <;> rfl

@[simp] theorem EvidenceStatus.rank_ofDisposition (s : DispositionStatus) :
    (ofDisposition s).rank = 3 := by
  cases s <;> rfl

/-! ## Valid records -/

namespace EvidenceFields

/-- The verification is bound to the event, its snapshot and the digest of the disposition. -/
def Bound (D : DispositionDigest V) (f : EvidenceFields V) : Prop :=
  ∃ envelope receipt, f.disposition = some envelope ∧ f.verification = some receipt ∧
    receipt.eventId = f.eventId ∧ receipt.eventSnapshotKey = f.eventSnapshotKey ∧
      receipt.dispositionDigest = D.digest envelope

/-- What the constructor accepts. -/
theorem error_eq_none_iff {f : EvidenceFields V} :
    f.error D = none ↔
      (f.eventId ≠ "" ∧ f.runId ≠ "" ∧ f.eventSnapshotKey ≠ "") ∧ 1 ≤ f.revision ∧
        (0 < f.createdAt ∧ 0 < f.updatedAt ∧ f.createdAt ≤ f.updatedAt) ∧
          f.dispositionError = none ∧ f.verificationError D = none := by
  unfold error
  split_ifs with hkeys hrevision htimes
  · simp only [false_iff]
    tauto
  · simp only [false_iff]
    intro h
    exact absurd h.2.1 (not_le.mpr hrevision)
  · simp only [false_iff]
    intro h
    rcases htimes with h' | h' | h'
    · exact absurd h.2.2.1.1 (not_lt.mpr h')
    · exact absurd h.2.2.1.2.1 (not_lt.mpr h')
    · exact absurd h.2.2.1.2.2 (not_le.mpr h')
  · have htimes' : 0 < f.createdAt ∧ 0 < f.updatedAt ∧ f.createdAt ≤ f.updatedAt := by
      simpa only [not_or, not_le, not_lt] using htimes
    have hkeys' : f.eventId ≠ "" ∧ f.runId ≠ "" ∧ f.eventSnapshotKey ≠ "" := by
      simpa only [not_or] using hkeys
    rw [Option.or_eq_none_iff]
    exact ⟨fun h ↦ ⟨hkeys', not_lt.mp hrevision, htimes', h.1, h.2⟩, fun h ↦ h.2.2.2⟩

theorem bound_of_error {f : EvidenceFields V} (h : f.error D = none) (hv : f.verification ≠ none) :
    f.Bound D := by
  obtain ⟨receipt, hreceipt⟩ := Option.ne_none_iff_exists'.mp hv
  have herror := (error_eq_none_iff.mp h).2.2.2.2
  rw [verificationError, hreceipt] at herror
  cases hd : f.disposition with
  | none => simp [hd] at herror
  | some envelope =>
      simp only [hd] at herror
      split_ifs at herror with h₁ h₂ h₃
      exact ⟨envelope, receipt, hd, hreceipt, not_not.mp h₁, not_not.mp h₂, not_not.mp h₃⟩

end EvidenceFields

namespace EvaluationEvidenceRecord

variable {current r r' r'' : EvaluationEvidenceRecord D}

theorem disposition_of_pending (r : EvaluationEvidenceRecord D) (h : r.status = .pending) :
    r.disposition = none := by
  have herror := (EvidenceFields.error_eq_none_iff.mp r.valid).2.2.2.1
  cases hd : r.disposition with
  | none => rfl
  | some envelope =>
      rw [EvidenceFields.dispositionError, hd] at herror
      simp only [h] at herror
      split_ifs at herror
      simp_all

/-- `_next` changes what it is given, and strips the snapshot key. -/
theorem fields_of_next {now : Time} {change : NextFields V} (h : current.next now change = .ok r) :
    r.toEvidenceFields =
      { current.nextFields now change with
        dispositionSnapshotKey :=
          Text.strip (change.dispositionSnapshotKey.getD current.dispositionSnapshotKey) } := by
  have hid : Text.strip current.eventId = current.eventId :=
    congrArg EvidenceFields.eventId current.normal
  have hrun : Text.strip current.runId = current.runId :=
    congrArg EvidenceFields.runId current.normal
  have hkey : Text.strip current.eventSnapshotKey = current.eventSnapshotKey :=
    congrArg EvidenceFields.eventSnapshotKey current.normal
  rw [fields_of_make h, EvidenceFields.normalize, nextFields, hid, hrun, hkey]

/-- A terminal record gains the verification it did not have. -/
structure Gains (r r' : EvaluationEvidenceRecord D) : Prop where
  decision : r.status.decision = true
  before : r.verification = none
  after : r'.verification ≠ none
  same : r'.toEvidenceFields =
    { r.toEvidenceFields with
      verification := r'.verification
      revision := r.revision + 1
      updatedAt := r'.updatedAt }

/-- One accepted change of a record. -/
structure Advance (r r' : EvaluationEvidenceRecord D) : Prop where
  eventId : r'.eventId = r.eventId
  runId : r'.runId = r.runId
  eventSnapshotKey : r'.eventSnapshotKey = r.eventSnapshotKey
  identity : r'.identity = r.identity
  revision : r'.revision = r.revision + 1
  status : r.status.rank < r'.status.rank ∨ Gains r r'
  disposition : ∀ envelope, r.disposition = some envelope → r'.disposition = some envelope
  bound : r'.status.decision = true → r'.Bound D

theorem Advance.of_next {now : Time} {change : NextFields V}
    (h : current.next now change = .ok r) (hrank : current.status.rank < change.status.rank)
    (hdisposition : ∀ envelope, current.disposition = some envelope → change.disposition = none)
    (hverification : change.status.decision = true → change.verification ≠ none) :
    current.Advance r := by
  have hfields := fields_of_next h
  have hstatus : r.status = change.status := by rw [hfields, nextFields]
  have hreceipt : r.verification = change.verification.or current.verification := by
    rw [hfields, nextFields]
  constructor
  case eventId => rw [hfields, nextFields]
  case runId => rw [hfields, nextFields]
  case eventSnapshotKey => rw [hfields, nextFields]
  case identity => rw [hfields, nextFields]
  case revision => rw [hfields, nextFields]
  case status =>
    rw [hstatus]
    exact .inl hrank
  case disposition =>
    intro envelope henvelope
    rw [hfields, nextFields, hdisposition envelope henvelope, Option.none_or, henvelope]
  case bound =>
    intro hdecision
    rw [hstatus] at hdecision
    refine EvidenceFields.bound_of_error r.valid ?_
    rw [hreceipt, Ne, Option.or_eq_none_iff]
    exact fun hnone ↦ hverification hdecision hnone.1

/-- The verification of a terminal record that has none. -/
theorem Advance.of_next_verification {now : Time}
    {receipt : EvaluationDispositionVerificationReceipt V}
    (h : current.next now { status := current.status, verification := some receipt } = .ok r)
    (hdecision : current.status.decision = true) (hnone : current.verification = none) :
    current.Advance r := by
  have hfields := fields_of_next h
  have hkey : Text.strip current.dispositionSnapshotKey = current.dispositionSnapshotKey :=
    congrArg EvidenceFields.dispositionSnapshotKey current.normal
  have hmetadata : (∅ : WireMapping V) ∪ current.metadata = current.metadata :=
    Finmap.empty_union
  have hreceipt : r.verification = some receipt := by rw [hfields, nextFields, Option.some_or]
  have hafter : r.verification ≠ none := by simp [hreceipt]
  constructor
  case eventId => rw [hfields, nextFields]
  case runId => rw [hfields, nextFields]
  case eventSnapshotKey => rw [hfields, nextFields]
  case identity => rw [hfields, nextFields]
  case revision => rw [hfields, nextFields]
  case status =>
    refine .inr ⟨hdecision, hnone, hafter, ?_⟩
    have hupdated : r.updatedAt = now := by rw [hfields, nextFields]
    rw [hreceipt, hupdated, hfields]
    simp [nextFields, hkey, hmetadata]
  case disposition =>
    intro envelope henvelope
    rw [hfields, nextFields, Option.none_or, henvelope]
  case bound => exact fun _ ↦ EvidenceFields.bound_of_error r.valid hafter

/-! ## Operations -/

theorem of_markEventDurable (eventId : String) {expected : Option ℤ} {now : Time}
    (h : markEventDurable eventId expected now (some current) = .ok r) :
    r = current ∨ current.Advance r ∧ r.status = .pending := by
  unfold markEventDurable at h
  cases hs : current.staleError expected with
  | some e => simp [hs] at h
  | none =>
      simp only [hs] at h
      split_ifs at h with hpreparing
      · refine .inr ⟨Advance.of_next h ?_ ?_ ?_, ?_⟩
        · simp [hpreparing, EvidenceStatus.rank]
        · exact fun _ _ ↦ rfl
        · simp [EvidenceStatus.decision]
        · rw [fields_of_next h, nextFields]
      · exact .inl (Except.ok.inj h).symm

theorem of_abandon [WireText V] (eventId : String) {reason : String} {metadata : WireMapping V}
    {expected : Option ℤ} {now : Time}
    (h : abandon eventId reason metadata expected now (some current) = .ok r) :
    r = current ∨ current.Advance r ∧ r.status = .abandoned := by
  unfold abandon at h
  cases hs : current.staleError expected with
  | some e => simp [hs] at h
  | none =>
      simp only [hs] at h
      split_ifs at h with habandoned hterminal
      · exact .inl (Except.ok.inj h).symm
      · refine .inr ⟨Advance.of_next h ?_ (fun _ _ ↦ rfl) ?_, ?_⟩
        · have hne : current.status.rank ≠ 3 := fun h3 ↦
            hterminal ((EvidenceStatus.terminal_iff_rank _).mpr h3)
          exact lt_of_le_of_ne current.status.rank_le hne
        · simp [EvidenceStatus.decision]
        · rw [fields_of_next h, nextFields]

variable [WireEq V]

theorem of_reserve {shared : Bool} {eventId : String} {requested : EvaluationEvidenceRecord D}
    {o : Option (EvaluationEvidenceRecord D)} (h : reserve shared eventId requested o = .ok r) :
    o = none ∧ r = requested ∨ o = some r := by
  cases o with
  | none => exact .inl ⟨rfl, (Except.ok.inj h).symm⟩
  | some current =>
      simp only [reserve] at h
      split_ifs at h
      exact .inr (congrArg some (Except.ok.inj h))

theorem of_prepareDisposition {shared : Bool} {envelope : EvaluationDispositionEnvelope V}
    {key : String} {expected : Option ℤ} {now : Time}
    (h : prepareDisposition shared envelope key expected now (some current) = .ok r) :
    r = current ∧ (∃ stored, r.disposition = some stored ∧ stored.SameAsGiven shared envelope) ∧
        (r.status = .deciding → r.dispositionSnapshotKey = key) ∨
      current.Advance r ∧ r.status = .deciding ∧ r.disposition = some envelope ∧
        r.dispositionSnapshotKey = Text.strip key := by
  unfold prepareDisposition at h
  cases hs : current.staleError expected with
  | some e => simp [hs] at h
  | none =>
      simp only [hs] at h
      split_ifs at h with hkey hpending hdeciding hsame hterminal
      · have hfields := fields_of_next h
        refine .inr ⟨Advance.of_next h ?_ ?_ ?_, ?_, ?_, ?_⟩
        · simp [hpending, EvidenceStatus.rank]
        · simp [current.disposition_of_pending hpending]
        · simp [EvidenceStatus.decision]
        · rw [hfields, nextFields]
        · rw [hfields, nextFields, Option.some_or]
        · rw [hfields, Option.getD_some]
      · obtain rfl := Except.ok.inj h
        exact .inl ⟨rfl, hsame.1, fun _ ↦ hsame.2⟩
      · obtain rfl := Except.ok.inj h
        exact .inl ⟨rfl, hterminal.2, fun hd ↦ absurd hd hdeciding⟩

theorem of_settle {shared : Bool} (eventId : String)
    {receipt : EvaluationDispositionVerificationReceipt V} {expected : Option ℤ} {now : Time}
    (h : settle shared eventId receipt expected now (some current) = .ok r) :
    r = current ∨ current.Advance r ∧ r.status.decision = true := by
  unfold settle at h
  cases hs : current.staleError expected with
  | some e => simp [hs] at h
  | none =>
      cases hd : current.disposition with
      | none => simp [hs, hd] at h
      | some envelope =>
          cases he : current.receiptError envelope receipt with
          | some e => simp [hs, hd, he] at h
          | none =>
              simp only [hs, hd, he] at h
              split_ifs at h with hdecision hagrees hdeciding
              · cases hv : current.verification with
                | some existing =>
                    simp only [hv] at h
                    split_ifs at h
                    exact .inl (Except.ok.inj h).symm
                | none =>
                    simp only [hv] at h
                    refine .inr ⟨Advance.of_next_verification h hdecision hv, ?_⟩
                    rw [fields_of_next h, nextFields, hdecision]
              · refine .inr ⟨Advance.of_next h ?_ (fun _ _ ↦ rfl) (fun _ ↦ by simp), ?_⟩
                · rw [not_not.mp hdeciding, EvidenceStatus.rank_ofDisposition]
                  decide
                · rw [fields_of_next h, nextFields, EvidenceStatus.decision_ofDisposition]

/-! ## One call -/

/-- What one call can do to the record of an event. -/
inductive Moves : Option (EvaluationEvidenceRecord D) → Option (EvaluationEvidenceRecord D) → Prop
  | same (o : Option (EvaluationEvidenceRecord D)) : Moves o o
  | reserved (r : EvaluationEvidenceRecord D) : r.status = .preparing → r.revision = 1 →
      Moves none (some r)
  | advanced (r r' : EvaluationEvidenceRecord D) : r.Advance r' → Moves (some r) (some r')

end EvaluationEvidenceRecord

open EvaluationEvidenceRecord

/-! ## Backends -/

/-- A backend only stores records, each under its own event. -/
def Journal.Wf : Journal D → Prop
  | .memory s => ∀ eventId r, s.records eventId = some r → r.eventId = eventId
  | .sqlite s => ∀ eventId payload, s.payload eventId = some payload →
      ∃ r : EvaluationEvidenceRecord D, r.toEvidenceFields = payload ∧ r.eventId = eventId
  | .redis s => ∀ key payload, s.values key = some payload →
      ∃ r : EvaluationEvidenceRecord D, r.toEvidenceFields = payload

/-- A stored record is read back. -/
theorem decode_toEvidenceFields (r : EvaluationEvidenceRecord D) :
    decode D (some r.toEvidenceFields) = .ok (some r) := by
  simp [decode, Except.map]

/-- The payload of an event after its row has been written. -/
theorem SQLiteJournal.payload_upsert (s : SQLiteJournal V) (r : EvidenceRow V) (e : String) :
    (s.upsert r).payload e = if e = r.eventId then some r.payload else s.payload e := by
  unfold payload upsert
  by_cases hfound : (Rows.lookup EvidenceRow.eventId r.eventId s.rows).isSome
  · obtain ⟨old, hold⟩ := Option.isSome_iff_exists.mp hfound
    rw [if_pos hfound, Rows.lookup_update fun _ _ ↦ rfl]
    split_ifs with he
    · rw [he, hold]
      rfl
    · rfl
  · rw [if_neg hfound, Rows.lookup_append]
    have hnone : Rows.lookup EvidenceRow.eventId r.eventId s.rows = none := by
      simpa using hfound
    by_cases he : e = r.eventId
    · rw [if_pos he, he, hnone, Option.none_or, if_pos rfl]
      rfl
    · rw [if_neg he, if_neg (Ne.symm he), Option.or_none]

variable [WireEq V] [WireText V]

/-- The record that a reservation requests. -/
theorem JournalCall.reserve_plan {shared : Bool} {eventId runId eventSnapshotKey : String}
    {identity metadata : WireMapping V} {createdAt updatedAt : Time} {event : String}
    {updater : RecordUpdater D}
    (hplan : (JournalCall.reserve eventId runId eventSnapshotKey identity metadata createdAt
      updatedAt).plan D shared = .ok (event, updater)) :
    ∃ requested : EvaluationEvidenceRecord D, requested.status = .preparing ∧
      requested.revision = 1 ∧ event = requested.eventId ∧
        updater = EvaluationEvidenceRecord.reserve shared eventId requested := by
  simp only [plan, Except.map] at hplan
  split at hplan
  · cases hplan
  · next requested hmake =>
      obtain ⟨rfl, rfl⟩ := Prod.ext_iff.mp (Except.ok.inj hplan)
      have hfields := fields_of_make hmake
      refine ⟨requested, ?_, ?_, rfl, rfl⟩
      · exact congrArg EvidenceFields.status hfields
      · exact congrArg EvidenceFields.revision hfields

/-- What the updater of a call makes of the record it finds. -/
theorem JournalCall.of_updater {shared : Bool} {call : JournalCall V} {event : String}
    {updater : RecordUpdater D} (hplan : call.plan D shared = .ok (event, updater))
    {o : Option (EvaluationEvidenceRecord D)} {r : EvaluationEvidenceRecord D}
    (h : updater o = .ok r) :
    Moves o (some r) ∧ ((∀ current, o = some current → current.eventId = event) →
      r.eventId = event) := by
  -- A call that finds a record keeps it or advances it, and does not change its event.
  have hfound : ∀ current, o = some current → r = current ∨ current.Advance r →
      Moves o (some r) ∧ ((∀ current, o = some current → current.eventId = event) →
        r.eventId = event) := by
    rintro current rfl (rfl | hadvance)
    · exact ⟨.same _, fun hid ↦ hid r rfl⟩
    · exact ⟨.advanced _ _ hadvance, fun hid ↦ hadvance.eventId.trans (hid current rfl)⟩
  cases call with
  | reserve eventId runId eventSnapshotKey identity metadata createdAt updatedAt =>
      obtain ⟨requested, hstatus, hrevision, rfl, rfl⟩ := reserve_plan hplan
      rcases of_reserve h with ⟨rfl, rfl⟩ | rfl
      · exact ⟨.reserved r hstatus hrevision, fun _ ↦ rfl⟩
      · exact ⟨.same _, fun hid ↦ hid r rfl⟩
  | markEventDurable eventId expected now =>
      obtain ⟨rfl, rfl⟩ := Prod.ext_iff.mp (Except.ok.inj hplan)
      cases o with
      | none => cases h
      | some current =>
          exact hfound current rfl ((of_markEventDurable eventId h).imp_right And.left)
  | prepareDisposition envelope key expected now =>
      obtain ⟨rfl, rfl⟩ := Prod.ext_iff.mp (Except.ok.inj hplan)
      cases o with
      | none => cases h
      | some current => exact hfound current rfl ((of_prepareDisposition h).imp And.left And.left)
  | settle eventId receipt expected now =>
      obtain ⟨rfl, rfl⟩ := Prod.ext_iff.mp (Except.ok.inj hplan)
      cases o with
      | none => cases h
      | some current => exact hfound current rfl ((of_settle eventId h).imp_right And.left)
  | abandon eventId reason metadata expected now =>
      simp only [plan] at hplan
      split_ifs at hplan
      obtain ⟨rfl, rfl⟩ := Prod.ext_iff.mp (Except.ok.inj hplan)
      cases o with
      | none => cases h
      | some current => exact hfound current rfl ((of_abandon eventId h).imp_right And.left)

/-- What a call on a journal can do: it is refused, or it stores what its updater made of the
record it found. -/
inductive Journal.Does (j : Journal D) (call : JournalCall V) :
    Except EvidenceError (EvaluationEvidenceRecord D) × Journal D → Prop
  | refused (e : EvidenceError) : Does j call (.error e, j)
  | stored (event : String) (updater : RecordUpdater D)
      (before : Option (EvaluationEvidenceRecord D)) (after : EvaluationEvidenceRecord D)
      (j' : Journal D) : call.plan D j.shared = .ok (event, updater) → j.get event = .ok before →
      updater before = .ok after → j'.get event = .ok (some after) →
      (∀ e, j'.get e = j.get e ∨ j.get e = .ok before ∧ j'.get e = .ok (some after)) → j'.Wf →
      Does j call (.ok after, j')

theorem InMemoryJournal.does {s : InMemoryJournal D} (hs : (Journal.memory s).Wf)
    {call : JournalCall V} {event : String} {updater : RecordUpdater D}
    (hplan : call.plan D true = .ok (event, updater)) :
    (Journal.memory s).Does call ((Journal.memory s).atomicUpdate event updater) := by
  dsimp only [Journal.atomicUpdate]
  unfold InMemoryJournal.atomicUpdate
  cases hupdated : updater (s.records event) with
  | error e => exact .refused e
  | ok after =>
      have hevent : after.eventId = event :=
        (JournalCall.of_updater hplan hupdated).2 fun current hcurrent ↦ hs event current hcurrent
      simp only [make_toEvidenceFields]
      refine .stored event updater (s.records event) after _ hplan rfl hupdated ?_ ?_ ?_
      · simp [Journal.get, hevent]
      · intro e
        by_cases he : e = event
        · subst he
          exact .inr ⟨rfl, by simp [Journal.get, hevent]⟩
        · exact .inl (by simp [Journal.get, hevent, Function.update_of_ne he])
      · intro e r hr
        simp only [hevent] at hr
        by_cases he : e = event
        · subst he
          rw [Function.update_self] at hr
          rw [← Option.some.inj hr, hevent]
        · rw [Function.update_of_ne he] at hr
          exact hs e r hr

theorem SQLiteJournal.does {s : SQLiteJournal V} (hs : (Journal.sqlite (D := D) s).Wf)
    {call : JournalCall V} {event : String} {updater : RecordUpdater D}
    (hplan : call.plan D false = .ok (event, updater)) :
    (Journal.sqlite s).Does call ((Journal.sqlite s).atomicUpdate event updater) := by
  obtain ⟨before, hbefore, hkeyed⟩ : ∃ before : Option (EvaluationEvidenceRecord D),
      decode D (s.payload event) = .ok before ∧
        ∀ current, before = some current → current.eventId = event := by
    cases hpayload : s.payload event with
    | none => exact ⟨none, rfl, fun _ h ↦ nomatch h⟩
    | some payload =>
        obtain ⟨r, rfl, hid⟩ := hs event payload hpayload
        refine ⟨some r, decode_toEvidenceFields r, fun current hcurrent ↦ ?_⟩
        rw [← Option.some.inj hcurrent, hid]
  dsimp only [Journal.atomicUpdate]
  unfold SQLiteJournal.atomicUpdate
  rw [hbefore]
  cases hupdated : updater before with
  | error e =>
      simp only [Except.bind, hupdated]
      exact .refused e
  | ok after =>
      have hevent : after.eventId = event := (JournalCall.of_updater hplan hupdated).2 hkeyed
      have hpayload : ∀ e, (s.upsert (row after.toEvidenceFields)).payload e =
          if e = event then some after.toEvidenceFields else s.payload e := by
        intro e
        rw [payload_upsert]
        simp [row, hevent]
      simp only [Except.bind, hupdated]
      refine .stored event updater before after _ hplan hbefore hupdated ?_ ?_ ?_
      · simp only [Journal.get, hpayload, if_pos, decode_toEvidenceFields]
      · intro e
        by_cases he : e = event
        · subst he
          refine .inr ⟨hbefore, ?_⟩
          simp only [Journal.get, hpayload, if_pos, decode_toEvidenceFields]
        · refine .inl ?_
          simp only [Journal.get, hpayload, if_neg he]
      · intro e payload hfound
        rw [hpayload] at hfound
        split_ifs at hfound with he
        · exact ⟨after, Option.some.inj hfound, he ▸ hevent⟩
        · exact hs e payload hfound

theorem RedisJournal.does {s : RedisJournal V} (hs : (Journal.redis (D := D) s).Wf)
    {call : JournalCall V} {event : String} {updater : RecordUpdater D}
    (hplan : call.plan D false = .ok (event, updater)) :
    (Journal.redis s).Does call ((Journal.redis s).atomicUpdate event updater) := by
  obtain ⟨before, hbefore⟩ : ∃ before : Option (EvaluationEvidenceRecord D),
      decode D (s.values (s.key event)) = .ok before := by
    cases hpayload : s.values (s.key event) with
    | none => exact ⟨none, rfl⟩
    | some payload =>
        obtain ⟨r, rfl⟩ := hs (s.key event) payload hpayload
        exact ⟨some r, decode_toEvidenceFields r⟩
  dsimp only [Journal.atomicUpdate]
  unfold RedisJournal.atomicUpdate
  rw [hbefore]
  cases hupdated : updater before with
  | error e =>
      simp only [Except.bind, hupdated]
      exact .refused e
  | ok after =>
      simp only [Except.bind, hupdated]
      refine .stored event updater before after _ hplan hbefore hupdated ?_ ?_ ?_
      · simp [Journal.get, decode_toEvidenceFields]
      · intro e
        by_cases he : s.key e = s.key event
        · refine .inr ⟨?_, ?_⟩
          · rw [Journal.get, he, hbefore]
          · simp [Journal.get, he, decode_toEvidenceFields]
        · refine .inl ?_
          simp [Journal.get, Function.update_of_ne he]
      · intro key payload hfound
        simp only at hfound
        by_cases hk : key = s.key event
        · rw [hk, Function.update_self] at hfound
          exact ⟨after, Option.some.inj hfound⟩
        · rw [Function.update_of_ne hk] at hfound
          exact hs key payload hfound

/-- A call on a journal is one atomic step of its backend. -/
theorem Journal.exec_does {j : Journal D} (hj : j.Wf) (call : JournalCall V) :
    j.Does call (j.exec call) := by
  unfold exec
  cases hplan : call.plan D j.shared with
  | error e => exact .refused e
  | ok planned =>
      obtain ⟨event, updater⟩ := planned
      cases j with
      | memory s => exact InMemoryJournal.does hj hplan
      | sqlite s => exact SQLiteJournal.does hj hplan
      | redis s => exact RedisJournal.does hj hplan

/-! ## Runs -/

/-- What a run can do to a record. -/
structure Later (r r' : EvaluationEvidenceRecord D) : Prop where
  eventId : r'.eventId = r.eventId
  runId : r'.runId = r.runId
  eventSnapshotKey : r'.eventSnapshotKey = r.eventSnapshotKey
  identity : r'.identity = r.identity
  revision : r.revision ≤ r'.revision
  rank : r.status.rank ≤ r'.status.rank
  terminal : r.status.terminal = true → r' = r ∨ r.Gains r'
  disposition : ∀ envelope, r.disposition = some envelope → r'.disposition = some envelope
  bound : r'.status.decision = true → r' = r ∨ r'.Bound D

omit [WireEq V] [WireText V] in
theorem Later.refl (r : EvaluationEvidenceRecord D) : Later r r where
  eventId := rfl
  runId := rfl
  eventSnapshotKey := rfl
  identity := rfl
  revision := le_rfl
  rank := le_rfl
  terminal _ := .inl rfl
  disposition _ h := h
  bound _ := .inl rfl

omit [WireEq V] [WireText V] in
theorem Later.of_advance {r r' : EvaluationEvidenceRecord D} (h : r.Advance r') : Later r r' where
  eventId := h.eventId
  runId := h.runId
  eventSnapshotKey := h.eventSnapshotKey
  identity := h.identity
  revision := by
    rw [h.revision]
    exact Int.le.intro 1 rfl
  rank := by
    rcases h.status with hlt | hgains
    · exact hlt.le
    · rw [hgains.same]
  terminal hterminal := by
    rcases h.status with hlt | hgains
    · have hrank := (EvidenceStatus.terminal_iff_rank _).mp hterminal
      exact absurd r'.status.rank_le (not_le.mpr (hrank ▸ hlt))
    · exact .inr hgains
  disposition := h.disposition
  bound hdecision := .inr (h.bound hdecision)

omit [WireEq V] [WireText V] in
theorem Later.trans {r r' r'' : EvaluationEvidenceRecord D} (h : Later r r')
    (h' : Later r' r'') : Later r r'' where
  eventId := h'.eventId.trans h.eventId
  runId := h'.runId.trans h.runId
  eventSnapshotKey := h'.eventSnapshotKey.trans h.eventSnapshotKey
  identity := h'.identity.trans h.identity
  revision := h.revision.trans h'.revision
  rank := h.rank.trans h'.rank
  terminal hterminal := by
    rcases h.terminal hterminal with rfl | hgains
    · exact h'.terminal hterminal
    · -- A record that has gained its verification stays as it is.
      have hterminal' : r'.status.terminal = true := by
        rw [hgains.same]
        exact EvidenceStatus.terminal_of_decision hgains.decision
      rcases h'.terminal hterminal' with rfl | hagain
      · exact .inr hgains
      · exact absurd hagain.before hgains.after
  disposition envelope hd := h'.disposition envelope (h.disposition envelope hd)
  bound hdecision := by
    rcases h'.bound hdecision with rfl | hbound
    · exact h.bound hdecision
    · exact .inr hbound

/-- What a run can do to the record of an event, which may not have been reserved yet. -/
inductive History :
    Option (EvaluationEvidenceRecord D) → Option (EvaluationEvidenceRecord D) → Prop
  | absent : History none none
  | reserved (r : EvaluationEvidenceRecord D) : 1 ≤ r.revision →
      (r.status.decision = true → r.Bound D) → History none (some r)
  | later (r r' : EvaluationEvidenceRecord D) : Later r r' → History (some r) (some r')

omit [WireEq V] [WireText V] in
theorem History.refl (o : Option (EvaluationEvidenceRecord D)) : History o o := by
  cases o with
  | none => exact .absent
  | some r => exact .later r r (Later.refl r)

omit [WireEq V] [WireText V] in
theorem History.of_moves {o o' : Option (EvaluationEvidenceRecord D)} (h : Moves o o') :
    History o o' := by
  cases h with
  | same => exact refl o
  | reserved r hstatus hrevision =>
      refine .reserved r hrevision.ge fun hdecision ↦ ?_
      rw [hstatus] at hdecision
      cases hdecision
  | advanced r r' hadvance => exact .later r r' (Later.of_advance hadvance)

omit [WireEq V] [WireText V] in
theorem History.trans {o o' o'' : Option (EvaluationEvidenceRecord D)} (h : History o o')
    (h' : History o' o'') : History o o'' := by
  cases h with
  | absent => exact h'
  | reserved r hrevision hbound =>
      cases h' with
      | later _ r' hlater =>
          refine .reserved r' (hrevision.trans hlater.revision) fun hdecision ↦ ?_
          rcases hlater.bound hdecision with rfl | hbound'
          · exact hbound hdecision
          · exact hbound'
  | later r r' hlater =>
      cases h' with
      | later _ r'' hlater' => exact .later r r'' (hlater.trans hlater')

namespace Journal

variable {j j' t : Journal D} {call : JournalCall V}

theorem Does.wf {result : Except EvidenceError (EvaluationEvidenceRecord D) × Journal D}
    (h : j.Does call result) (hj : j.Wf) : result.2.Wf := by
  cases h with
  | refused => exact hj
  | stored event updater before after j' hplan hbefore hafter hget hothers hwf => exact hwf

omit [WireEq V] [WireText V] in
/-- Every event of a journal can be read. -/
theorem Wf.get (hj : j.Wf) (e : String) : ∃ o, j.get e = .ok o := by
  cases j with
  | memory s => exact ⟨s.records e, rfl⟩
  | sqlite s =>
      cases hpayload : s.payload e with
      | none => exact ⟨none, by rw [Journal.get, hpayload, decode]⟩
      | some payload =>
          obtain ⟨r, rfl, -⟩ := hj e payload hpayload
          exact ⟨some r, by rw [Journal.get, hpayload, decode_toEvidenceFields]⟩
  | redis s =>
      cases hpayload : s.values (s.key e) with
      | none => exact ⟨none, by rw [Journal.get, hpayload, decode]⟩
      | some payload =>
          obtain ⟨r, rfl⟩ := hj (s.key e) payload hpayload
          exact ⟨some r, by rw [Journal.get, hpayload, decode_toEvidenceFields]⟩

/-- What a call does to the record of any event. -/
theorem Does.next {result : Except EvidenceError (EvaluationEvidenceRecord D) × Journal D}
    (h : j.Does call result) {e : String} {o : Option (EvaluationEvidenceRecord D)}
    (hget : j.get e = .ok o) :
    result.2.get e = .ok o ∨ ∃ event updater after, call.plan D j.shared = .ok (event, updater) ∧
      updater o = .ok after ∧ result.2.get e = .ok (some after) := by
  cases h with
  | refused => exact .inl hget
  | stored event updater before after j' hplan hbefore hafter hget' hothers hwf =>
      rcases hothers e with hsame | ⟨hfound, hwritten⟩
      · exact .inl (hsame.trans hget)
      · obtain rfl : o = before := Except.ok.inj (hget.symm.trans hfound)
        exact .inr ⟨event, updater, after, hplan, hafter, hwritten⟩

theorem Does.moves {result : Except EvidenceError (EvaluationEvidenceRecord D) × Journal D}
    (h : j.Does call result) (hj : j.Wf) (e : String) :
    ∃ o o', j.get e = .ok o ∧ result.2.get e = .ok o' ∧ Moves o o' := by
  obtain ⟨o, ho⟩ := hj.get e
  rcases h.next ho with hsame | ⟨event, updater, after, hplan, hafter, hwritten⟩
  · exact ⟨o, o, ho, hsame, .same o⟩
  · exact ⟨o, some after, ho, hwritten, (JournalCall.of_updater hplan hafter).1⟩

theorem wf_of_reach (hj : j.Wf) (hrun : Machine.Reach step Machine.anyStep j t) : t.Wf := by
  refine hrun.invariant hj fun s call u hs _ hstep ↦ ?_
  obtain rfl := Option.some.inj hstep
  exact (exec_does hs call).wf hs

theorem history_of_reach (hj : j.Wf) (hrun : Machine.Reach step Machine.anyStep j t)
    (e : String) : ∃ o o', j.get e = .ok o ∧ t.get e = .ok o' ∧ History o o' := by
  induction hrun with
  | refl =>
      obtain ⟨o, ho⟩ := hj.get e
      exact ⟨o, o, ho, ho, .refl o⟩
  | @tail s u call hs _ hstep ih =>
      obtain rfl := Option.some.inj hstep
      have hwf := wf_of_reach hj hs
      obtain ⟨o, o', ho, ho', hhistory⟩ := ih
      obtain ⟨before, after, hbefore, hafter, hmoves⟩ := (exec_does hwf call).moves hwf e
      obtain rfl : o' = before := Except.ok.inj (ho'.symm.trans hbefore)
      exact ⟨o, after, ho, hafter, hhistory.trans (.of_moves hmoves)⟩

/-- The journal is a monotone state machine.  Along every run a record only moves forward; a
further call makes one of the moves of a record, returns what it has stored, and changes
nothing when it is refused. -/
theorem monotone (hj : j.Wf) (hrun : Machine.Reach step Machine.anyStep j t) :
    (∀ e, ∃ o o', j.get e = .ok o ∧ t.get e = .ok o' ∧ History o o') ∧
      ∀ call, t.Does call (t.exec call) ∧
        ∀ e, ∃ o o', t.get e = .ok o ∧ (t.exec call).2.get e = .ok o' ∧ Moves o o' := by
  have hwf := wf_of_reach hj hrun
  refine ⟨history_of_reach hj hrun, fun call ↦ ⟨exec_does hwf call, fun e ↦ ?_⟩⟩
  exact (exec_does hwf call).moves hwf e

/-! ## A journal of one event -/

theorem label_schema : IsLabel "schema" := by decide

theorem label_verifier : IsLabel "verifier" := by decide

/-- The disposition of the event. -/
def decided (status : DispositionStatus) : EvaluationDispositionEnvelope String where
  eventId := "event"
  status := status
  dispositionCodec := "json"
  dispositionPayload := ∅
  eventSnapshotKey := "snapshot"
  authoritySnapshotKey := if status = .committed then "authority" else ""
  identity := ∅
  metadata := ∅
  eventId_label := by decide
  codec_label := by decide
  eventSnapshotKey_label := by decide
  authority_strip := by cases status <;> decide
  authority_of_committed := by cases status <;> decide

/-- The digests of the two dispositions that occur. -/
def decidedDigest : DispositionDigest String where
  hexdigest envelope :=
    if envelope.status = .committed then
      "3c4eab8fcbf5fc5350fdacb9b7dc24d0a47fccbf759750850f6fcbe6445947a7"
    else "004bd598f9dd606cba042a54c56d7daaa43f0a79713ab168d41f899b02a79312"
  length envelope := by
    split_ifs
    · decide
    · decide
  hexadecimal envelope := by
    split_ifs
    · simp [hexDigits]
    · simp [hexDigits]

/-- An empty journal in memory. -/
def vacant : Journal decidedDigest := .memory ⟨fun _ ↦ none⟩

theorem vacant_wf : vacant.Wf := fun _ _ h ↦ nomatch h

/-- An event is reserved, made durable and decided. -/
def decidingCalls (status : DispositionStatus) (key : String) : List (JournalCall String) :=
  [.reserve "event" "run" "snapshot" ∅ ∅ 1 1, .markEventDurable "event" none 2,
    .prepareDisposition (decided status) key none 3]

/-- The receipt of the commitment. -/
def committedReceipt : EvaluationDispositionVerificationReceipt String where
  eventId := "event"
  eventSnapshotKey := "snapshot"
  eventSnapshotRevision := 1
  eventSnapshotDigest := decidedDigest.digest (decided .committed)
  eventSnapshotSchema := "schema"
  destinationSnapshotKey := "authority"
  destinationSnapshotRevision := 1
  destinationSnapshotDigest := decidedDigest.digest (decided .committed)
  destinationSnapshotSchema := "schema"
  dispositionDigest := decidedDigest.digest (decided .committed)
  verifier := "verifier"
  verifiedAt := 4
  metadata := ∅
  eventId_label := by decide
  eventSnapshotKey_label := by decide
  destinationSnapshotKey_label := by decide
  eventSnapshotRevision_pos := Int.one_pos
  destinationSnapshotRevision_pos := Int.one_pos
  eventSnapshotDigest_digest := decidedDigest.isDigest_digest _
  destinationSnapshotDigest_digest := decidedDigest.isDigest_digest _
  eventSnapshotSchema_label := label_schema
  destinationSnapshotSchema_label := label_schema
  dispositionDigest_digest := decidedDigest.isDigest_digest _
  verifier_label := label_verifier
  verifiedAt_pos := by decide

/-- The journal after these calls. -/
def after (calls : List (JournalCall String)) : Journal decidedDigest :=
  calls.foldl (fun s call ↦ (s.exec call).2) vacant

theorem reach_after (calls : List (JournalCall String)) :
    Machine.Reach step Machine.anyStep vacant (after calls) := by
  induction calls using List.reverseRecOn with
  | nil => exact .refl
  | append_singleton calls call ih =>
      rw [after, List.foldl_concat]
      exact ih.tail trivial rfl

/-- What is seen of the record of the event. -/
def seen {α : Type} (f : EvaluationEvidenceRecord decidedDigest → α) (j : Journal decidedDigest) :
    Option α :=
  (j.get "event").toOption.join.map f

theorem exists_of_seen {α : Type} {f : EvaluationEvidenceRecord decidedDigest → α} {a : α}
    {j : Journal decidedDigest} (h : seen f j = some a) :
    ∃ r, j.get "event" = .ok (some r) ∧ f r = a := by
  obtain ⟨r, hr, hf⟩ := Option.map_eq_some_iff.mp h
  refine ⟨r, ?_, hf⟩
  cases hget : j.get "event" with
  | error e => simp [hget, Except.toOption] at hr
  | ok o =>
      obtain rfl : o = some r := by simpa [hget, Except.toOption] using hr
      rfl

/-- A commitment that has been settled. -/
theorem monotone_settled :
    let t := after (decidingCalls .committed "" ++ [.settle "event" committedReceipt none 4])
    (∃ o o', vacant.get "event" = .ok o ∧ t.get "event" = .ok o' ∧ History o o') ∧
      seen (·.status) t = some .committed :=
  ⟨(monotone vacant_wf (reach_after _)).1 "event", by decide +kernel⟩

end Journal

end Blackbase.Evaluation
