import Blackbase.Evaluation.JournalMonotone

/-!
# Settling a deciding record

A record in the deciding status is left by `settle`, which asks for a receipt on the
destination of the disposition: the authority snapshot of a committed one, and otherwise the
key that `prepare_disposition` was given.  A receipt always names a destination, but the
record admits an empty key; a rejected or failed disposition prepared without a key can then
only be abandoned.
-/

namespace Blackbase.Evaluation

universe u

open Resources (Time)
open EvaluationEvidenceRecord

variable {V : Type u} {D : DispositionDigest V}

namespace EvaluationEvidenceRecord

variable {r : EvaluationEvidenceRecord D} {envelope : EvaluationDispositionEnvelope V}

/-- The disposition of the record has a destination. -/
def Anchored (r : EvaluationEvidenceRecord D) : Prop :=
  ∀ envelope, r.disposition = some envelope → r.destination envelope ≠ ""

theorem eventId_label (r : EvaluationEvidenceRecord D) : IsLabel r.eventId :=
  ⟨congrArg EvidenceFields.eventId r.normal, (EvidenceFields.error_eq_none_iff.mp r.valid).1.1⟩

theorem eventSnapshotKey_label (r : EvaluationEvidenceRecord D) : IsLabel r.eventSnapshotKey :=
  ⟨congrArg EvidenceFields.eventSnapshotKey r.normal,
    (EvidenceFields.error_eq_none_iff.mp r.valid).1.2.2⟩

theorem strip_destination (r : EvaluationEvidenceRecord D)
    (envelope : EvaluationDispositionEnvelope V) :
    Text.strip (r.destination envelope) = r.destination envelope := by
  unfold destination
  split_ifs
  · exact envelope.authority_strip
  · exact congrArg EvidenceFields.dispositionSnapshotKey r.normal

theorem destination_eq_empty_iff (r : EvaluationEvidenceRecord D)
    (envelope : EvaluationDispositionEnvelope V) :
    r.destination envelope = "" ↔ envelope.status ≠ .committed ∧ r.dispositionSnapshotKey = "" := by
  unfold destination
  split_ifs with hcommitted
  · have hkey := envelope.authority_of_committed hcommitted
    simp [hcommitted, hkey]
  · simp [hcommitted]

theorem eventId_of_disposition (hd : r.disposition = some envelope) :
    envelope.eventId = r.eventId := by
  have herror := (EvidenceFields.error_eq_none_iff.mp r.valid).2.2.2.1
  rw [EvidenceFields.dispositionError, hd] at herror
  by_contra hne
  simp [hne] at herror

theorem exists_disposition_of_deciding (h : r.status = .deciding) :
    ∃ envelope, r.disposition = some envelope := by
  have herror := (EvidenceFields.error_eq_none_iff.mp r.valid).2.2.2.1
  cases hd : r.disposition with
  | some envelope => exact ⟨envelope, rfl⟩
  | none => simp [EvidenceFields.dispositionError, hd, h] at herror

/-- A receipt for the destination of a disposition. -/
def receiptFor (r : EvaluationEvidenceRecord D) (envelope : EvaluationDispositionEnvelope V)
    (h : r.destination envelope ≠ "") : EvaluationDispositionVerificationReceipt V where
  eventId := r.eventId
  eventSnapshotKey := r.eventSnapshotKey
  eventSnapshotRevision := 1
  eventSnapshotDigest := D.digest envelope
  eventSnapshotSchema := "schema"
  destinationSnapshotKey := r.destination envelope
  destinationSnapshotRevision := 1
  destinationSnapshotDigest := D.digest envelope
  destinationSnapshotSchema := "schema"
  dispositionDigest := D.digest envelope
  verifier := "verifier"
  verifiedAt := 1
  metadata := ∅
  eventId_label := r.eventId_label
  eventSnapshotKey_label := r.eventSnapshotKey_label
  destinationSnapshotKey_label := ⟨r.strip_destination envelope, h⟩
  eventSnapshotRevision_pos := Int.one_pos
  destinationSnapshotRevision_pos := Int.one_pos
  eventSnapshotDigest_digest := D.isDigest_digest envelope
  destinationSnapshotDigest_digest := D.isDigest_digest envelope
  eventSnapshotSchema_label := Journal.label_schema
  destinationSnapshotSchema_label := Journal.label_schema
  dispositionDigest_digest := D.isDigest_digest envelope
  verifier_label := Journal.label_verifier
  verifiedAt_pos := one_pos

/-- A deciding record takes the terminal status its disposition announced when it is given a
receipt that is bound to it, if the clock has not gone back. -/
theorem next_of_receipt (receipt : EvaluationDispositionVerificationReceipt V) {now : Time}
    (hd : r.disposition = some envelope) (hnow : r.createdAt ≤ now)
    (hevent : receipt.eventId = r.eventId)
    (hsnapshot : receipt.eventSnapshotKey = r.eventSnapshotKey)
    (hdigest : receipt.dispositionDigest = D.digest envelope) :
    ∃ after, r.next now
      { status := .ofDisposition envelope.status, verification := some receipt } = .ok after ∧
        after.status = .ofDisposition envelope.status := by
  let change : NextFields V :=
    { status := .ofDisposition envelope.status, verification := some receipt }
  have hvalid := EvidenceFields.error_eq_none_iff.mp r.valid
  have hid : Text.strip r.eventId = r.eventId := r.eventId_label.strip
  have hkey : Text.strip r.eventSnapshotKey = r.eventSnapshotKey := r.eventSnapshotKey_label.strip
  have hrun : Text.strip r.runId = r.runId := congrArg EvidenceFields.runId r.normal
  have hdecision := EvidenceStatus.decision_ofDisposition envelope.status
  have herror : (r.nextFields now change).normalize.error D = none := by
    refine EvidenceFields.error_eq_none_iff.mpr ⟨?_, ?_, ?_, ?_, ?_⟩
    · simpa only [EvidenceFields.normalize, nextFields, hid, hkey, hrun] using hvalid.1
    · have hrevision := hvalid.2.1
      simp only [EvidenceFields.normalize, nextFields]
      omega
    · exact ⟨hvalid.2.2.1.1, hvalid.2.2.1.1.trans_le hnow, hnow⟩
    · have hstatus : EvidenceStatus.ofDisposition envelope.status ≠ .preparing ∧
          EvidenceStatus.ofDisposition envelope.status ≠ .pending := by
        cases envelope.status <;> decide
      simp [EvidenceFields.dispositionError, EvidenceFields.normalize, nextFields, change, hid, hd,
        eventId_of_disposition hd, hstatus]
    · simp [EvidenceFields.verificationError, EvidenceFields.normalize, nextFields, change, hid,
        hkey, hd, hevent, hsnapshot, hdigest, hdecision]
  have hmake : ∃ after, r.next now change = .ok after := by
    unfold next make
    split
    · next e he =>
        rw [herror] at he
        cases he
    · exact ⟨_, rfl⟩
  obtain ⟨after, hafter⟩ := hmake
  refine ⟨after, hafter, ?_⟩
  rw [fields_of_next hafter, nextFields]

end EvaluationEvidenceRecord

variable [WireEq V] [WireText V]

omit [WireText V] in
/-- What `settle` accepts has a destination. -/
theorem EvaluationEvidenceRecord.destination_of_settle {r r' : EvaluationEvidenceRecord D}
    {envelope : EvaluationDispositionEnvelope V}
    {receipt : EvaluationDispositionVerificationReceipt V} {expected : Option ℤ} {now : Time}
    {shared : Bool} (event : String) (h : settle shared event receipt expected now (some r) = .ok r')
    (hd : r.disposition = some envelope) : r.destination envelope ≠ "" := by
  unfold settle at h
  cases hs : r.staleError expected with
  | some e => simp [hs] at h
  | none =>
      cases he : r.receiptError envelope receipt with
      | some e => simp [hs, hd, he] at h
      | none =>
          unfold receiptError at he
          split_ifs at he with hevent hsnapshot hdestination
          rw [← not_not.mp hdestination]
          exact receipt.destinationSnapshotKey_label.nonempty

namespace Journal

variable {j t : Journal D} {call : JournalCall V}

/-- A call whose updater accepts the record it finds is accepted. -/
theorem exec_of_updater {event : String} {updater : RecordUpdater D}
    {before : Option (EvaluationEvidenceRecord D)} {after : EvaluationEvidenceRecord D}
    (hplan : call.plan D j.shared = .ok (event, updater)) (hbefore : j.get event = .ok before)
    (hafter : updater before = .ok after) : (j.exec call).1 = .ok after := by
  unfold exec
  rw [hplan]
  cases j with
  | memory s =>
      obtain rfl : s.records event = before := Except.ok.inj hbefore
      simp only [atomicUpdate, InMemoryJournal.atomicUpdate, hafter, make_toEvidenceFields]
      rfl
  | sqlite s =>
      have hfound : decode D (s.payload event) = .ok before := hbefore
      simp only [atomicUpdate, SQLiteJournal.atomicUpdate, hfound, Except.bind, hafter]
      rfl
  | redis s =>
      have hfound : decode D (s.values (s.key event)) = .ok before := hbefore
      simp only [atomicUpdate, RedisJournal.atomicUpdate, hfound, Except.bind, hafter]
      rfl

/-- What an accepted call has done. -/
theorem Does.of_ok {result : Except EvidenceError (EvaluationEvidenceRecord D) × Journal D}
    (h : j.Does call result) {event : String} {updater : RecordUpdater D}
    {before : Option (EvaluationEvidenceRecord D)} {after : EvaluationEvidenceRecord D}
    (hplan : call.plan D j.shared = .ok (event, updater)) (hbefore : j.get event = .ok before)
    (hok : result.1 = .ok after) :
    updater before = .ok after ∧ result.2.get event = .ok (some after) := by
  cases h with
  | refused e => cases hok
  | stored event' updater' before' after' j' hplan' hbefore' hafter hget hothers hwf =>
      obtain ⟨rfl, rfl⟩ := Prod.ext_iff.mp (Except.ok.inj (hplan.symm.trans hplan'))
      obtain rfl : before = before' := Except.ok.inj (hbefore.symm.trans hbefore')
      obtain rfl : after' = after := Except.ok.inj hok
      exact ⟨hafter, hget⟩

/-- Some receipt, which its constructor accepts, brings the record of the event to the status
its disposition announced. -/
def CanSettle (j : Journal D) (event : String) (r : EvaluationEvidenceRecord D) : Prop :=
  ∃ fields receipt now after envelope,
    EvaluationDispositionVerificationReceipt.make fields = .ok receipt ∧
      (j.exec (.settle event receipt none now)).1 = .ok after ∧
        r.disposition = some envelope ∧ after.status = .ofDisposition envelope.status

/-- A deciding record can be settled exactly if its disposition has a destination. -/
theorem canSettle_iff {event : String} {r : EvaluationEvidenceRecord D} (hj : j.Wf)
    (hget : j.get event = .ok (some r)) (hdeciding : r.status = .deciding) :
    j.CanSettle event r ↔ r.Anchored := by
  constructor
  · rintro ⟨fields, receipt, now, after, envelope, -, hok, hd, -⟩ envelope' hd'
    obtain rfl : envelope = envelope' := Option.some.inj (hd.symm.trans hd')
    exact destination_of_settle event ((exec_does hj _).of_ok rfl hget hok).1 hd
  · intro hanchored
    obtain ⟨envelope, hd⟩ := exists_disposition_of_deciding hdeciding
    have hdestination := hanchored envelope hd
    obtain ⟨after, hafter, hstatus⟩ := next_of_receipt (r := r)
      (r.receiptFor envelope hdestination) hd
      (EvidenceFields.error_eq_none_iff.mp r.valid).2.2.1.2.2 rfl rfl rfl
    refine ⟨_, r.receiptFor envelope hdestination, r.updatedAt, after, envelope,
      EvaluationDispositionVerificationReceipt.make_toReceiptFields _, ?_, hd, hstatus⟩
    refine exec_of_updater rfl hget ?_
    have hreceipt : r.receiptError envelope (r.receiptFor envelope hdestination) = none := by
      simp [receiptError, receiptFor]
    simp only [settle, staleError, hd, hreceipt]
    rw [if_neg (by simp [hdeciding, EvidenceStatus.decision]), if_neg (not_not.mpr hdeciding),
      hafter]

/-! ## Runs -/

/-- A disposition is prepared with a destination. -/
def Keyed (_ : Journal D) : JournalCall V → Prop
  | .prepareDisposition envelope key _ _ => envelope.status = .committed ∨ Text.strip key ≠ ""
  | _ => True

omit [WireEq V] [WireText V] in
theorem anchored_iff {r : EvaluationEvidenceRecord D} {envelope : EvaluationDispositionEnvelope V}
    (hd : r.disposition = some envelope) :
    r.Anchored ↔ envelope.status = .committed ∨ r.dispositionSnapshotKey ≠ "" := by
  have hiff : r.destination envelope ≠ "" ↔
      envelope.status = .committed ∨ r.dispositionSnapshotKey ≠ "" := by
    rw [Ne, r.destination_eq_empty_iff]
    tauto
  constructor
  · intro h
    exact hiff.mp (h envelope hd)
  · intro h envelope' hd'
    obtain rfl := Option.some.inj (hd.symm.trans hd')
    exact hiff.mpr h

omit [WireText V] in
/-- A deciding record that `prepare_disposition` returns carries what it was given. -/
theorem anchored_of_prepareDisposition {current r : EvaluationEvidenceRecord D}
    {envelope : EvaluationDispositionEnvelope V} {key : String} {expected : Option ℤ} {now : Time}
    {shared : Bool} (h : prepareDisposition shared envelope key expected now (some current) = .ok r)
    (hdeciding : r.status = .deciding) :
    r.Anchored ↔ envelope.status = .committed ∨ Text.strip key ≠ "" := by
  rcases of_prepareDisposition h with ⟨rfl, ⟨stored, hd, hsame⟩, hkey⟩ | ⟨-, -, hd, hkey⟩
  · have hstrip : Text.strip key = r.dispositionSnapshotKey := by
      rw [← hkey hdeciding]
      exact congrArg EvidenceFields.dispositionSnapshotKey r.normal
    rw [anchored_iff hd, hstrip, hsame.status]
  · rw [anchored_iff hd, hkey]

/-- A call with a destination makes no deciding record that has none. -/
theorem anchored_of_updater {event : String} {updater : RecordUpdater D}
    (hplan : call.plan D j.shared = .ok (event, updater)) (hkeyed : Keyed j call)
    {o : Option (EvaluationEvidenceRecord D)} {r : EvaluationEvidenceRecord D}
    (h : updater o = .ok r) (hdeciding : r.status = .deciding)
    (ho : ∀ current, o = some current → current.status = .deciding → current.Anchored) :
    r.Anchored := by
  cases call with
  | reserve eventId runId eventSnapshotKey identity metadata createdAt updatedAt =>
      obtain ⟨requested, hstatus, -, rfl, rfl⟩ := JournalCall.reserve_plan hplan
      rcases of_reserve h with ⟨rfl, rfl⟩ | rfl
      · rw [hstatus] at hdeciding
        cases hdeciding
      · exact ho r rfl hdeciding
  | markEventDurable eventId expected now =>
      obtain ⟨rfl, rfl⟩ := Prod.ext_iff.mp (Except.ok.inj hplan)
      cases o with
      | none => cases h
      | some current =>
          rcases of_markEventDurable eventId h with rfl | ⟨-, hpending⟩
          · exact ho r rfl hdeciding
          · rw [hpending] at hdeciding
            cases hdeciding
  | prepareDisposition envelope key expected now =>
      obtain ⟨rfl, rfl⟩ := Prod.ext_iff.mp (Except.ok.inj hplan)
      cases o with
      | none => cases h
      | some current => exact (anchored_of_prepareDisposition h hdeciding).mpr hkeyed
  | settle eventId receipt expected now =>
      obtain ⟨rfl, rfl⟩ := Prod.ext_iff.mp (Except.ok.inj hplan)
      cases o with
      | none => cases h
      | some current =>
          rcases of_settle eventId h with rfl | ⟨-, hdecision⟩
          · exact ho r rfl hdeciding
          · rw [hdeciding] at hdecision
            cases hdecision
  | abandon eventId reason metadata expected now =>
      simp only [JournalCall.plan] at hplan
      split_ifs at hplan
      obtain ⟨rfl, rfl⟩ := Prod.ext_iff.mp (Except.ok.inj hplan)
      cases o with
      | none => cases h
      | some current =>
          rcases of_abandon eventId h with rfl | ⟨-, habandoned⟩
          · exact ho r rfl hdeciding
          · rw [habandoned] at hdeciding
            cases hdeciding

theorem anchored_of_reach (hj : j.Wf)
    (hstart : ∀ e r, j.get e = .ok (some r) → r.status ≠ .deciding)
    (hrun : Machine.Reach step Keyed j t) :
    ∀ e r, t.get e = .ok (some r) → r.status = .deciding → r.Anchored := by
  induction hrun with
  | refl => exact fun e r hget hdeciding ↦ absurd hdeciding (hstart e r hget)
  | @tail s u call hs hkeyed hstep ih =>
      obtain rfl := Option.some.inj hstep
      have hwf := wf_of_reach hj (hs.mono fun _ _ _ ↦ trivial)
      intro e r hget hdeciding
      obtain ⟨o, ho⟩ := hwf.get e
      rcases (exec_does hwf call).next ho with hsame | ⟨event, updater, after, hplan, hafter, hgot⟩
      · obtain rfl : o = some r := Except.ok.inj (hsame.symm.trans hget)
        exact ih e r ho hdeciding
      · obtain rfl : after = r := Option.some.inj (Except.ok.inj (hgot.symm.trans hget))
        refine anchored_of_updater hplan hkeyed hafter hdeciding fun current hcurrent ↦ ?_
        exact ih e current (hcurrent ▸ ho)

/-- A deciding record without a destination is left alone, or abandoned. -/
theorem abandoned_of_updater {event : String} {updater : RecordUpdater D}
    (hplan : call.plan D j.shared = .ok (event, updater)) {r r' : EvaluationEvidenceRecord D}
    (h : updater (some r) = .ok r') (hdeciding : r.status = .deciding)
    (hanchored : ¬ r.Anchored) : r' = r ∨ r'.status = .abandoned := by
  have hforward : r.Advance r' → r'.status.rank = 3 := by
    intro hadvance
    rcases hadvance.status with hlt | hgains
    · have hle := r'.status.rank_le
      rw [hdeciding] at hlt
      exact le_antisymm hle hlt
    · have hdecision := hgains.decision
      rw [hdeciding] at hdecision
      cases hdecision
  cases call with
  | reserve eventId runId eventSnapshotKey identity metadata createdAt updatedAt =>
      obtain ⟨requested, -, -, rfl, rfl⟩ := JournalCall.reserve_plan hplan
      rcases of_reserve h with ⟨hnone, -⟩ | hsame
      · cases hnone
      · exact .inl (Option.some.inj hsame).symm
  | markEventDurable eventId expected now =>
      obtain ⟨rfl, rfl⟩ := Prod.ext_iff.mp (Except.ok.inj hplan)
      rcases of_markEventDurable eventId h with rfl | ⟨hadvance, hpending⟩
      · exact .inl rfl
      · have hrank := hforward hadvance
        rw [hpending] at hrank
        cases hrank
  | prepareDisposition envelope key expected now =>
      obtain ⟨rfl, rfl⟩ := Prod.ext_iff.mp (Except.ok.inj hplan)
      rcases of_prepareDisposition h with ⟨rfl, -⟩ | ⟨hadvance, hstatus, -⟩
      · exact .inl rfl
      · have hrank := hforward hadvance
        rw [hstatus] at hrank
        cases hrank
  | settle eventId receipt expected now =>
      obtain ⟨rfl, rfl⟩ := Prod.ext_iff.mp (Except.ok.inj hplan)
      obtain ⟨envelope, hd⟩ := exists_disposition_of_deciding hdeciding
      refine absurd (fun envelope' hd' ↦ ?_) hanchored
      obtain rfl := Option.some.inj (hd.symm.trans hd')
      exact destination_of_settle eventId h hd
  | abandon eventId reason metadata expected now =>
      simp only [JournalCall.plan] at hplan
      split_ifs at hplan
      obtain ⟨rfl, rfl⟩ := Prod.ext_iff.mp (Except.ok.inj hplan)
      exact (of_abandon eventId h).imp_right And.right

/-- Along every run a deciding record without a destination stays, until it is abandoned. -/
theorem dead_end {event : String} {r : EvaluationEvidenceRecord D} (hj : j.Wf)
    (hget : j.get event = .ok (some r)) (hdeciding : r.status = .deciding)
    (hanchored : ¬ r.Anchored) (hrun : Machine.Reach step Machine.anyStep j t) :
    ∃ r', t.get event = .ok (some r') ∧ (r' = r ∨ r'.status = .abandoned) := by
  induction hrun with
  | refl => exact ⟨r, hget, .inl rfl⟩
  | @tail s u call hs _ hstep ih =>
      obtain rfl := Option.some.inj hstep
      have hwf := wf_of_reach hj hs
      obtain ⟨r', hr', hcases⟩ := ih
      rcases (exec_does hwf call).next hr' with hsame | ⟨event', updater, after, hplan, hafter, hgot⟩
      · exact ⟨r', hsame, hcases⟩
      · refine ⟨after, hgot, ?_⟩
        rcases hcases with rfl | habandoned
        · exact abandoned_of_updater hplan hafter hdeciding hanchored
        · rcases JournalCall.of_updater hplan hafter |>.1 with _ | _ | hadvance
          · exact .inr habandoned
          · next hadvance =>
              have hlater := (Later.of_advance hadvance).terminal (by rw [habandoned]; rfl)
              rcases hlater with rfl | hgains
              · exact .inr habandoned
              · have hdecision := hgains.decision
                rw [habandoned] at hdecision
                cases hdecision

/-- No deciding record is a dead end as long as every disposition that is not committed is
prepared with the key of its destination, and only then. -/
theorem settles (hj : j.Wf) (hstart : ∀ e r, j.get e = .ok (some r) → r.status ≠ .deciding) :
    (Machine.Reach step Keyed j t →
      ∀ e r, t.get e = .ok (some r) → r.status = .deciding → t.CanSettle e r) ∧
    (Machine.Reach step Machine.anyStep j t → ∀ envelope key expected now r,
      let result := t.exec (.prepareDisposition envelope key expected now)
      result.1 = .ok r → r.status = .deciding →
        (result.2.CanSettle envelope.eventId r ↔ Keyed t
          (.prepareDisposition envelope key expected now))) := by
  constructor
  · intro hrun e r hget hdeciding
    have hwf := wf_of_reach hj (hrun.mono fun _ _ _ ↦ trivial)
    exact (canSettle_iff hwf hget hdeciding).mpr (anchored_of_reach hj hstart hrun e r hget hdeciding)
  · intro hrun envelope key expected now r result hok hdeciding
    have hwf := wf_of_reach hj hrun
    have hdoes := exec_does hwf (.prepareDisposition envelope key expected now)
    obtain ⟨o, ho⟩ := hwf.get envelope.eventId
    obtain ⟨hupdated, hget⟩ := hdoes.of_ok rfl ho hok
    rw [canSettle_iff (hdoes.wf hwf) hget hdeciding]
    cases o with
    | none => cases hupdated
    | some current => exact anchored_of_prepareDisposition hupdated hdeciding

/-- A commitment, which needs no key. -/
theorem settles_committed :
    ∃ r, (after (decidingCalls .committed "")).get "event" = .ok (some r) ∧
      (after (decidingCalls .committed "")).CanSettle "event" r := by
  have hstatus : seen (·.status) (after (decidingCalls .committed "")) = some .deciding := by
    decide +kernel
  have hprepared : Keyed (after ((decidingCalls .committed "").take 2))
      (.prepareDisposition (decided .committed) "" none 3) := Or.inl rfl
  have hkeyed : Machine.Reach step Keyed vacant (after (decidingCalls .committed "")) :=
    ((Machine.Reach.refl.tail trivial rfl).tail trivial rfl).tail hprepared rfl
  obtain ⟨r, hget, hdeciding⟩ := exists_of_seen hstatus
  have hstart : ∀ e r, vacant.get e = .ok (some r) → r.status ≠ .deciding :=
    fun e r h ↦ nomatch h
  exact ⟨r, hget, (settles vacant_wf hstart).1 hkeyed "event" r hget hdeciding⟩

/-- A rejection that is prepared without a key is never settled, whatever happens next. -/
theorem rejected_without_key :
    seen (·.status) (after (decidingCalls .rejected "")) = some .deciding ∧
      ∀ t, Machine.Reach step Machine.anyStep (after (decidingCalls .rejected "")) t →
        ∃ r, t.get "event" = .ok (some r) ∧
          (r.status = .deciding ∧ ¬ t.CanSettle "event" r ∨ r.status = .abandoned) := by
  have hseen : seen (fun r ↦ (r.status, r.disposition.map (·.status), r.dispositionSnapshotKey))
      (after (decidingCalls .rejected "")) = some (.deciding, some .rejected, "") := by
    decide +kernel
  obtain ⟨r, hget, hr⟩ := exists_of_seen hseen
  obtain ⟨hdeciding, hrest⟩ := Prod.ext_iff.mp hr
  obtain ⟨hdisposition, hkey⟩ := Prod.ext_iff.mp hrest
  obtain ⟨envelope, hd, hrejected⟩ := Option.map_eq_some_iff.mp hdisposition
  have hanchored : ¬ r.Anchored := by
    rw [anchored_iff hd, hrejected]
    simp [show r.dispositionSnapshotKey = "" from hkey]
  have hwf := wf_of_reach vacant_wf (reach_after (decidingCalls .rejected ""))
  refine ⟨?_, fun t hrun ↦ ?_⟩
  · rw [seen, hget]
    exact congrArg some hdeciding
  · obtain ⟨r', hget', rfl | habandoned⟩ := dead_end hwf hget hdeciding hanchored hrun
    · have hstuck := mt (canSettle_iff (wf_of_reach hwf hrun) hget' hdeciding).mp hanchored
      exact ⟨r', hget', .inl ⟨hdeciding, hstuck⟩⟩
    · exact ⟨r', hget', .inr habandoned⟩

end Journal

end Blackbase.Evaluation
