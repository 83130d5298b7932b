import Blackbase.Evaluation.JournalSettling

/-!
# Preparing a disposition again

`prepare_disposition` compares what the record holds with the `as_dict` of the envelope it is
given.  The record holds a frozen payload, in which every list has become a tuple; `as_dict`
makes lists of them again, and a tuple is never equal to a list.  The key is stripped when it
is stored, and compared as it was given.  A call that succeeded can therefore be repeated
exactly if there is nothing in the envelope and the key that storing them changes.
-/

namespace Blackbase.Evaluation

open Resources (Time)

/-! ## Wire values -/

mutual

/-- A frozen wire value.  A NaN is the object it is, and a mapping is written in the order of
its keys. -/
inductive WireValue where
  | null
  | bool (b : Bool)
  | int (n : ℤ)
  | float (q : ℚ)
  | infinity (negative : Bool)
  | nan (object : ℕ)
  | text (s : String)
  | seq (items : WireItems)
  | mapping (entries : WireEntries)

inductive WireItems where
  | nil
  | cons (value : WireValue) (rest : WireItems)

inductive WireEntries where
  | nil
  | cons (key : String) (value : WireValue) (rest : WireEntries)

end

namespace WireValue

/-- The number a value is compared as. -/
def number : WireValue → Option ℚ
  | bool b => some (if b then 1 else 0)
  | int n => some n
  | float q => some q
  | _ => none

end WireValue

mutual

/-- `==` between two wire values. -/
def WireValue.same (shared thawed : Bool) : WireValue → WireValue → Bool
  | .seq items, .seq items' => !thawed && items.same shared thawed items'
  | .mapping entries, .mapping entries' => entries.same shared thawed entries'
  | .nan object, .nan object' => shared && object = object'
  | .null, .null => true
  | .text s, .text s' => s = s'
  | .infinity negative, .infinity negative' => negative = negative'
  | v, w =>
      match v.number, w.number with
      | some p, some q => p = q
      | _, _ => false

def WireItems.same (shared thawed : Bool) : WireItems → WireItems → Bool
  | .nil, .nil => true
  | .cons v rest, .cons w rest' => v.same shared thawed w && rest.same shared thawed rest'
  | _, _ => false

def WireEntries.same (shared thawed : Bool) : WireEntries → WireEntries → Bool
  | .nil, .nil => true
  | .cons k v rest, .cons l w rest' =>
      k = l && v.same shared thawed w && rest.same shared thawed rest'
  | _, _ => false

end

mutual

/-- A value without a list at any depth, and without a NaN unless its object is shared. -/
def WireValue.Plain (shared : Bool) : WireValue → Prop
  | .seq _ => False
  | .mapping entries => entries.Plain shared
  | .nan _ => shared = true
  | _ => True

def WireEntries.Plain (shared : Bool) : WireEntries → Prop
  | .nil => True
  | .cons _ v rest => v.Plain shared ∧ rest.Plain shared

end

mutual

/-- A plain value is one that is equal to itself after it has been thawed. -/
theorem WireValue.same_self_iff {shared : Bool} :
    ∀ v : WireValue, v.same shared true v = true ↔ v.Plain shared
  | .null => by simp [WireValue.same, WireValue.Plain]
  | .bool b => by simp [WireValue.same, WireValue.number, WireValue.Plain]
  | .int n => by simp [WireValue.same, WireValue.number, WireValue.Plain]
  | .float q => by simp [WireValue.same, WireValue.number, WireValue.Plain]
  | .infinity negative => by simp [WireValue.same, WireValue.Plain]
  | .nan object => by simp [WireValue.same, WireValue.Plain]
  | .text s => by simp [WireValue.same, WireValue.Plain]
  | .seq items => by simp [WireValue.same, WireValue.Plain]
  | .mapping entries => by
      rw [WireValue.same, WireValue.Plain]
      exact WireEntries.same_self_iff entries

theorem WireEntries.same_self_iff {shared : Bool} :
    ∀ entries : WireEntries, entries.same shared true entries = true ↔ entries.Plain shared
  | .nil => by simp [WireEntries.same, WireEntries.Plain]
  | .cons k v rest => by
      rw [WireEntries.same, WireEntries.Plain, ← WireValue.same_self_iff v,
        ← WireEntries.same_self_iff rest]
      simp

end

instance : WireText WireValue := ⟨.text⟩

instance : WireEq WireValue := ⟨WireValue.same⟩

/-- A mapping of plain values. -/
def WireMapping.Plain (shared : Bool) (m : WireMapping WireValue) : Prop :=
  ∀ k v, m.lookup k = some v → v.Plain shared

/-- A mapping is equal to itself after it has been thawed if its values are plain. -/
theorem WireMapping.same_self_iff_plain {shared : Bool} {m : WireMapping WireValue} :
    Same shared true m m ↔ m.Plain shared := by
  rw [same_self_iff]
  refine forall_congr' fun k ↦ forall_congr' fun v ↦ imp_congr_right fun _ ↦ ?_
  exact v.same_self_iff

/-- An envelope of plain values. -/
structure EvaluationDispositionEnvelope.Plain (shared : Bool)
    (envelope : EvaluationDispositionEnvelope WireValue) : Prop where
  dispositionPayload : envelope.dispositionPayload.Plain shared
  identity : envelope.identity.Plain shared
  metadata : envelope.metadata.Plain shared

theorem EvaluationDispositionEnvelope.sameAsGiven_self_iff {shared : Bool}
    {envelope : EvaluationDispositionEnvelope WireValue} :
    SameAsGiven shared envelope envelope ↔ envelope.Plain shared := by
  constructor
  · intro h
    exact ⟨WireMapping.same_self_iff_plain.mp h.dispositionPayload,
      WireMapping.same_self_iff_plain.mp h.identity, WireMapping.same_self_iff_plain.mp h.metadata⟩
  · intro h
    exact ⟨rfl, rfl, rfl, WireMapping.same_self_iff_plain.mpr h.dispositionPayload, rfl, rfl,
      WireMapping.same_self_iff_plain.mpr h.identity,
      WireMapping.same_self_iff_plain.mpr h.metadata⟩

open EvaluationEvidenceRecord

namespace Journal

universe u

section Runs

variable {V : Type u} {D : DispositionDigest V} [WireEq V] [WireText V] {j t : Journal D}

/-- A call stays on its backend. -/
theorem shared_exec (j : Journal D) (call : JournalCall V) : (j.exec call).2.shared = j.shared := by
  unfold exec
  cases call.plan D j.shared with
  | error e => rfl
  | ok planned => cases j <;> rfl

theorem shared_of_reach (hrun : Machine.Reach step Machine.anyStep j t) : t.shared = j.shared := by
  induction hrun with
  | refl => rfl
  | tail _ _ hstep ih =>
      obtain rfl := Option.some.inj hstep
      exact (shared_exec _ _).trans ih

/-- A deciding record stays as it is until it is terminal. -/
theorem deciding_of_reach {event : String} {r : EvaluationEvidenceRecord D} (hj : j.Wf)
    (hget : j.get event = .ok (some r)) (hdeciding : r.status = .deciding)
    (hrun : Machine.Reach step Machine.anyStep j t) :
    ∃ r', t.get event = .ok (some r') ∧ (r' = r ∨ r'.status.rank = 3) := by
  induction hrun with
  | refl => exact ⟨r, hget, .inl rfl⟩
  | @tail s u call hs _ hstep ih =>
      obtain rfl := Option.some.inj hstep
      obtain ⟨r', hr', hcases⟩ := ih
      have hwf := wf_of_reach hj hs
      obtain ⟨o, o', ho, ho', hmoves⟩ := (exec_does hwf call).moves hwf event
      obtain rfl : o = some r' := Except.ok.inj (ho.symm.trans hr')
      cases hmoves with
      | same => exact ⟨r', ho', hcases⟩
      | advanced _ r'' hadvance =>
          refine ⟨r'', ho', .inr (le_antisymm r''.status.rank_le ?_)⟩
          rcases hadvance.status with hlt | hgains
          · rcases hcases with rfl | hrank
            · rw [hdeciding] at hlt
              exact hlt
            · exact hrank.symm.le.trans hlt.le
          · have hterminal := EvidenceStatus.terminal_of_decision hgains.decision
            rw [hgains.same]
            exact ((EvidenceStatus.terminal_iff_rank _).mp hterminal).symm.le

/-- What `prepare_disposition` found when it returned a record. -/
theorem found_of_prepareDisposition {envelope : EvaluationDispositionEnvelope V} {key : String}
    {expected : Option ℤ} {now : Time} {r : EvaluationEvidenceRecord D} (hj : j.Wf)
    (hok : (j.exec (.prepareDisposition envelope key expected now)).1 = .ok r) :
    ∃ before, j.get envelope.eventId = .ok (some before) ∧
      prepareDisposition j.shared envelope key expected now (some before) = .ok r ∧
        (j.exec (.prepareDisposition envelope key expected now)).2.get envelope.eventId =
          .ok (some r) := by
  obtain ⟨o, ho⟩ := hj.get envelope.eventId
  obtain ⟨hupdated, hget⟩ := (exec_does hj _).of_ok rfl ho hok
  cases o with
  | none => cases hupdated
  | some before => exact ⟨before, ho, hupdated, hget⟩

/-- A call that returns the record it found changes nothing. -/
theorem get_exec_of_same {call : JournalCall V} {event : String} {updater : RecordUpdater D}
    {r : EvaluationEvidenceRecord D} (hj : j.Wf)
    (hplan : call.plan D j.shared = .ok (event, updater)) (hget : j.get event = .ok (some r))
    (hsame : updater (some r) = .ok r) (e : String) : (j.exec call).2.get e = j.get e := by
  have hdoes := exec_does hj call
  generalize j.exec call = result at hdoes
  cases hdoes with
  | refused => rfl
  | stored event' updater' before after j' hplan' hbefore hafter hgot hothers hwf =>
      obtain ⟨rfl, rfl⟩ := Prod.ext_iff.mp (Except.ok.inj (hplan.symm.trans hplan'))
      obtain rfl : some r = before := Except.ok.inj (hget.symm.trans hbefore)
      obtain rfl : r = after := Except.ok.inj (hsame.symm.trans hafter)
      rcases hothers e with hsame | ⟨hfound, hwritten⟩
      · exact hsame
      · exact hwritten.trans hfound.symm

end Runs

/-! ## The call repeated -/

variable {D : DispositionDigest WireValue} {j t : Journal D}

/-- From now on the call is answered with the record of its event and changes nothing, as long
as the record is deciding and once it has the status that the disposition announced. -/
def Repeats (j : Journal D) (envelope : EvaluationDispositionEnvelope WireValue) (key : String) :
    Prop :=
  ∀ t, Machine.Reach step Machine.anyStep j t → ∀ r, t.get envelope.eventId = .ok (some r) →
    r.status = .deciding ∨ r.status = .ofDisposition envelope.status → ∀ now,
      let result := t.exec (.prepareDisposition envelope key none now)
      result.1 = .ok r ∧ ∀ e, result.2.get e = t.get e

/-- The envelope and the key are stored as they are given, or the record was not pending. -/
def Retained (j : Journal D) (envelope : EvaluationDispositionEnvelope WireValue) (key : String) :
    Prop :=
  ∀ r, j.get envelope.eventId = .ok (some r) → r.status = .pending →
    envelope.Plain j.shared ∧ Text.strip key = key

/-- Only a pending record is changed, and only by a disposition of its Event Snapshot. -/
theorem pending_of_prepareDisposition {envelope : EvaluationDispositionEnvelope WireValue}
    {key : String} {expected : Option ℤ} {now : Time} {before r : EvaluationEvidenceRecord D}
    {shared : Bool}
    (h : prepareDisposition shared envelope key expected now (some before) = .ok r) :
    envelope.eventSnapshotKey = before.eventSnapshotKey ∧
      (r = before ∧ (before.status = .deciding ∨ before.status = .ofDisposition envelope.status) ∨
        before.status = .pending) := by
  unfold prepareDisposition at h
  cases hs : before.staleError expected with
  | some e => simp [hs] at h
  | none =>
      simp only [hs] at h
      split_ifs at h with hkey hpending hdeciding hheld hterminal
      · exact ⟨not_not.mp hkey, .inr hpending⟩
      · exact ⟨not_not.mp hkey, .inl ⟨(Except.ok.inj h).symm, .inl hdeciding⟩⟩
      · exact ⟨not_not.mp hkey, .inl ⟨(Except.ok.inj h).symm, .inr hterminal.1⟩⟩

/-- A record that is returned is deciding, unless it is terminal. -/
theorem deciding_of_prepareDisposition {envelope : EvaluationDispositionEnvelope WireValue}
    {key : String} {expected : Option ℤ} {now : Time} {before r : EvaluationEvidenceRecord D}
    {shared : Bool} (h : prepareDisposition shared envelope key expected now (some before) = .ok r)
    (hrank : r.status.rank ≤ 2) : r.status = .deciding := by
  rcases of_prepareDisposition h with ⟨rfl, ⟨stored, hd, -⟩, -⟩ | ⟨-, hdeciding, -⟩
  · rcases (pending_of_prepareDisposition h).2 with ⟨-, hdeciding | hterminal⟩ | hpending
    · exact hdeciding
    · rw [hterminal, EvidenceStatus.rank_ofDisposition] at hrank
      exact absurd hrank (by decide)
    · rw [r.disposition_of_pending hpending] at hd
      cases hd
  · exact hdeciding

/-- A record that holds the disposition is returned as it is. -/
theorem prepareDisposition_of_held {envelope : EvaluationDispositionEnvelope WireValue}
    {key : String} {now : Time} {r : EvaluationEvidenceRecord D} {shared : Bool}
    (hsnapshot : envelope.eventSnapshotKey = r.eventSnapshotKey)
    (hstored : ∃ stored, r.disposition = some stored ∧ stored.SameAsGiven shared envelope)
    (hstatus : r.status = .deciding ∧ r.dispositionSnapshotKey = key ∨
      r.status = .ofDisposition envelope.status) :
    prepareDisposition shared envelope key none now (some r) = .ok r := by
  have hheld : ∃ stored ∈ r.disposition, stored.SameAsGiven shared envelope := hstored
  simp only [prepareDisposition, staleError]
  rw [if_neg (not_not.mpr hsnapshot)]
  rcases hstatus with ⟨hdeciding, hkey⟩ | hterminal
  · rw [if_neg (by simp [hdeciding]), if_pos hdeciding, if_pos ⟨hheld, hkey⟩]
  · have hdecision := EvidenceStatus.decision_ofDisposition envelope.status
    rw [← hterminal] at hdecision
    have hpending : r.status ≠ .pending := by
      rintro hpending
      rw [hpending] at hdecision
      cases hdecision
    have hdeciding : r.status ≠ .deciding := by
      rintro hdeciding
      rw [hdeciding] at hdecision
      cases hdecision
    rw [if_neg hpending, if_neg hdeciding, if_pos ⟨hterminal, hheld⟩]

/-- What the record holds after a call that succeeded, if the arguments were retained. -/
theorem held_of_prepareDisposition {envelope : EvaluationDispositionEnvelope WireValue}
    {key : String} {expected : Option ℤ} {now : Time} {before r : EvaluationEvidenceRecord D}
    {shared : Bool} (h : prepareDisposition shared envelope key expected now (some before) = .ok r)
    (hretained : before.status = .pending → envelope.Plain shared ∧ Text.strip key = key) :
    (∃ stored, r.disposition = some stored ∧ stored.SameAsGiven shared envelope) ∧
      (r.status = .deciding → r.dispositionSnapshotKey = key) := by
  rcases of_prepareDisposition h with ⟨rfl, hstored, hkey⟩ | ⟨hadvance, hdeciding, hd, hkey⟩
  · exact ⟨hstored, hkey⟩
  · rcases (pending_of_prepareDisposition h).2 with ⟨rfl, -⟩ | hpending
    · exact absurd hadvance.revision (by omega)
    · obtain ⟨hplain, hstrip⟩ := hretained hpending
      refine ⟨⟨envelope, hd, ?_⟩, fun _ ↦ hkey.trans hstrip⟩
      exact EvaluationDispositionEnvelope.sameAsGiven_self_iff.mpr hplain

/-- A call of `prepare_disposition` that succeeded can be repeated, whatever has happened to the
journal since, exactly if its envelope and its key are stored as they were given. -/
theorem repeats_iff {envelope : EvaluationDispositionEnvelope WireValue} {key : String}
    {expected : Option ℤ} {now : Time} {r : EvaluationEvidenceRecord D} (hj : j.Wf)
    (hok : (j.exec (.prepareDisposition envelope key expected now)).1 = .ok r) :
    (j.exec (.prepareDisposition envelope key expected now)).2.Repeats envelope key ↔
      j.Retained envelope key := by
  obtain ⟨before, hbefore, hupdated, hget⟩ := found_of_prepareDisposition hj hok
  have hshared := shared_exec j (.prepareDisposition envelope key expected now)
  have hwf := (exec_does hj (.prepareDisposition envelope key expected now)).wf hj
  generalize (j.exec (.prepareDisposition envelope key expected now)).2 = k at hget hshared hwf
  constructor
  · -- The record is deciding after the first call, and the second one compares it.
    rintro hrepeats r₀ hr₀ hpending
    obtain rfl : before = r₀ := Option.some.inj (Except.ok.inj (hbefore.symm.trans hr₀))
    rcases of_prepareDisposition hupdated with
      ⟨rfl, ⟨stored, hstored, -⟩, -⟩ | ⟨-, hdeciding, hd, hkey⟩
    · rw [r.disposition_of_pending hpending] at hstored
      cases hstored
    · have hagain := (hrepeats k .refl r hget (.inl hdeciding) now).1
      obtain ⟨before', hbefore', hupdated', -⟩ := found_of_prepareDisposition hwf hagain
      obtain rfl : r = before' := Option.some.inj (Except.ok.inj (hget.symm.trans hbefore'))
      rcases of_prepareDisposition hupdated' with ⟨-, ⟨stored, hd', hsame⟩, hkey'⟩ | ⟨hadvance, -⟩
      · obtain rfl : envelope = stored := Option.some.inj (hd.symm.trans hd')
        rw [hshared] at hsame
        exact ⟨EvaluationDispositionEnvelope.sameAsGiven_self_iff.mp hsame,
          hkey.symm.trans (hkey' hdeciding)⟩
      · exact absurd hadvance.revision (by omega)
  · intro hretained t hrun r' hr' hstatus now'
    obtain ⟨hstored, hkey⟩ := held_of_prepareDisposition hupdated fun hpending ↦
      hretained before hbefore hpending
    obtain ⟨o, o', ho, ho', hhistory⟩ := history_of_reach hwf hrun envelope.eventId
    obtain rfl : o = some r := Except.ok.inj (ho.symm.trans hget)
    obtain rfl : o' = some r' := Except.ok.inj (ho'.symm.trans hr')
    cases hhistory with
    | later _ _ hlater =>
        have hsnapshot : envelope.eventSnapshotKey = r'.eventSnapshotKey := by
          rw [hlater.eventSnapshotKey]
          rcases of_prepareDisposition hupdated with ⟨rfl, -⟩ | ⟨hadvance, -⟩
          · exact (pending_of_prepareDisposition hupdated).1
          · rw [hadvance.eventSnapshotKey]
            exact (pending_of_prepareDisposition hupdated).1
        obtain ⟨stored, hd, hsame⟩ := hstored
        have hupdated' : prepareDisposition t.shared envelope key none now' (some r') = .ok r' := by
          rw [(shared_of_reach hrun).trans hshared]
          have hstored := hlater.disposition stored hd
          refine prepareDisposition_of_held hsnapshot ⟨stored, hstored, hsame⟩ ?_
          refine hstatus.imp_left fun hdeciding ↦ ⟨hdeciding, ?_⟩
          -- A deciding record has not changed since the first call.
          have hrank := hlater.rank
          rw [hdeciding] at hrank
          have hbegan := deciding_of_prepareDisposition hupdated hrank
          obtain ⟨r'', hr'', rfl | hrank⟩ := deciding_of_reach hwf hget hbegan hrun
          · obtain rfl : r'' = r' := Option.some.inj (Except.ok.inj (hr''.symm.trans hr'))
            exact hkey hdeciding
          · obtain rfl : r'' = r' := Option.some.inj (Except.ok.inj (hr''.symm.trans hr'))
            rw [hdeciding] at hrank
            cases hrank
        have hwf' := wf_of_reach hwf hrun
        exact ⟨exec_of_updater rfl hr' hupdated', get_exec_of_same hwf' rfl hr' hupdated'⟩

/-! ## A payload with a list -/

theorem label_event : IsLabel "event" := by decide

theorem label_json : IsLabel "json" := by decide

theorem label_snapshot : IsLabel "snapshot" := by decide

/-- A commitment with a payload. -/
def offered (payload : WireMapping WireValue) : EvaluationDispositionEnvelope WireValue where
  eventId := "event"
  status := .committed
  dispositionCodec := "json"
  dispositionPayload := payload
  eventSnapshotKey := "snapshot"
  authoritySnapshotKey := "authority"
  identity := ∅
  metadata := ∅
  eventId_label := label_event
  codec_label := label_json
  eventSnapshotKey_label := label_snapshot
  authority_strip := by decide
  authority_of_committed _ := by decide

/-- The payload `{"score": 1}`. -/
def score : WireMapping WireValue := Finmap.singleton "score" (.int 1)

/-- The payload `{"items": [1]}`. -/
def items : WireMapping WireValue := Finmap.singleton "items" (.seq (.cons (.int 1) .nil))

/-- The digests of the two commitments. -/
def offeredDigest : DispositionDigest WireValue where
  hexdigest envelope :=
    if (envelope.dispositionPayload.lookup "score").isSome then
      "1785b0e1e80139cdf951f90fc447a81ec7e77dba6566fbaf14bb99bc5285256d"
    else "599fa24194e8b306efa0601302cee006be7647077b17e09f183d3444558533bc"
  length envelope := by
    split_ifs
    · decide
    · decide
  hexadecimal envelope := by
    split_ifs
    · simp [hexDigits]
    · simp [hexDigits]

/-- A journal in memory with one pending event. -/
def pendingEvent : Journal offeredDigest :=
  (((memory ⟨fun _ ↦ none⟩).exec (.reserve "event" "run" "snapshot" ∅ ∅ 1 1)).2.exec
    (.markEventDurable "event" none 2)).2

theorem pendingEvent_wf : pendingEvent.Wf := by
  have hvacant : (memory ⟨fun _ ↦ none⟩ : Journal offeredDigest).Wf := fun _ _ h ↦ nomatch h
  exact (exec_does ((exec_does hvacant _).wf hvacant) _).wf ((exec_does hvacant _).wf hvacant)

/-- A payload that is stored as it was given. -/
theorem repeats_score :
    (pendingEvent.exec (.prepareDisposition (offered score) "" none 3)).2.Repeats
      (offered score) "" := by
  have hstatus : ((pendingEvent.exec (.prepareDisposition (offered score) "" none 3)).1.map
      (·.status)) = .ok .deciding := by decide +kernel
  cases hok : (pendingEvent.exec (.prepareDisposition (offered score) "" none 3)).1 with
  | error e =>
      rw [hok] at hstatus
      cases hstatus
  | ok r =>
      refine (repeats_iff pendingEvent_wf hok).mpr fun _ _ _ ↦ ⟨⟨?_, ?_, ?_⟩, by decide⟩
      · intro k v hv
        have hk : k ∈ score := Finmap.mem_iff.mpr ⟨v, hv⟩
        obtain rfl := (Finmap.mem_singleton _ _ _).mp hk
        rw [show (offered score).dispositionPayload.lookup "score" = some (WireValue.int 1) from
          Finmap.lookup_singleton_eq] at hv
        obtain rfl := Option.some.inj hv
        exact trivial
      · intro k v hv
        cases hv
      · intro k v hv
        cases hv

/-- A payload with a list is in conflict with itself. -/
theorem conflict_items :
    let first := pendingEvent.exec (.prepareDisposition (offered items) "" none 3)
    let second := first.2.exec (.prepareDisposition (offered items) "" none 4)
    first.1.map (·.status) = .ok .deciding ∧
      second.1.map (·.status) = .error (.differentIntent "event") := by
  decide +kernel

end Journal

end Blackbase.Evaluation
