import Blackbase.Core.Attempt
import Blackbase.Project.Settlement.Steps

/-!
# A settled delegation is charged

Whatever owners, passes and other programs do in between, and whichever of their calls fail: once
the record of a settlement says `settled`, the parent's reservation is completed with the units that
the record reports as charged, and neither of the two changes again.

A settlement is only marked after the reservation has been completed (`Owner.OkAt`, `Pass.OkAt`),
and a completed reservation stays as it is; so it does not matter how old the copy of a pass is.
-/

namespace Blackbase.Project.Settlement

open Blackbase.Resources
open BudgetSettlementRecord (Follows)

/-- A settled record reports the units with which the parent's reservation is completed, and they
are within the handle. -/
def Charged (b : BudgetStore) (r : Record) : Prop :=
  r.status = .settled → ∃ u, r.usage.bind UsageReport.usage = some u ∧ Within r.childHandle u ∧
    (0 < r.requestedAmount → Completed b r.parentReservationId u.chargedToParent)

/-- A mark may be written on a record: if it says `settled`, it tells the truth. -/
def Tells (b : BudgetStore) (m : Mark) (r : Record) : Prop :=
  m.status = .settled → ∃ u, m.usage.bind UsageReport.usage = some u ∧ Within r.childHandle u ∧
    (0 < r.requestedAmount → Completed b r.parentReservationId u.chargedToParent)

theorem Charged.keeps {b b' : BudgetStore} {r : Record} (h : Charged b r)
    (hkeeps : Retains b b') : Charged b' r := by
  intro hsettled
  obtain ⟨u, husage, hwithin, hcompleted⟩ := h hsettled
  exact ⟨u, husage, hwithin, fun hpos ↦ hkeeps.completed (hcompleted hpos)⟩

theorem Charged.outcome {b : BudgetStore} {r : Record} {m : Mark} (h : Charged b r)
    (hm : Tells b m r) (now : Time) : Charged b (m.outcome now r) := by
  rw [SettlementMark.outcome]
  split
  · exact h
  · intro hsettled
    obtain ⟨u, husage, hwithin, hcompleted⟩ := hm hsettled
    refine ⟨u, ?_, hwithin, hcompleted⟩
    obtain ⟨report, hreport, hu⟩ := Option.bind_eq_some_iff.mp husage
    show (m.usage.or r.usage).bind UsageReport.usage = some u
    rw [hreport]
    exact hu

/-! ## The invariant -/

theorem named_spec {field value name : String}
    (h : BudgetSettlementRecord.named field value = .ok name) :
    name = Text.strip value ∧ name ≠ "" := by
  unfold BudgetSettlementRecord.named at h
  dsimp only at h
  split at h
  · cases h
  · next hne =>
    obtain rfl := Except.ok.inj h
    exact ⟨rfl, hne⟩

theorem make_spec {now : Time} {settlementId projectRunId parentCaseRunId childCaseRunId budget
    parentReservationId : String} {h : BudgetHandle Unit} {amount : ℤ} {r : Record}
    (hmake : BudgetSettlementRecord.make now settlementId projectRunId parentCaseRunId
      childCaseRunId budget parentReservationId () h amount = .ok r) :
    r.parentReservationId = Text.strip parentReservationId ∧ r.parentReservationId ≠ "" ∧
      r.childHandle = h ∧ r.requestedAmount = amount ∧ r.status = .reserveIntent := by
  unfold BudgetSettlementRecord.make at hmake
  obtain ⟨_, -, hmake⟩ := Attempt.exists_of_bind_eq_ok hmake
  obtain ⟨_, -, hmake⟩ := Attempt.exists_of_bind_eq_ok hmake
  obtain ⟨_, -, hmake⟩ := Attempt.exists_of_bind_eq_ok hmake
  obtain ⟨_, -, hmake⟩ := Attempt.exists_of_bind_eq_ok hmake
  obtain ⟨_, -, hmake⟩ := Attempt.exists_of_bind_eq_ok hmake
  obtain ⟨name, hname, hmake⟩ := Attempt.exists_of_bind_eq_ok hmake
  split at hmake
  · cases hmake
  · obtain rfl := Except.ok.inj hmake
    obtain ⟨hstrip, hne⟩ := named_spec hname
    exact ⟨hstrip, hne, rfl, rfl, rfl⟩

/-- The owner of a new delegation. -/
theorem Delegation.owner?_ok {d : Delegation} {b : BudgetStore} {o : Owner}
    (h : d.owner? b = some o) : o.Wf ∧ ∀ b', o.Ok b' := by
  unfold Delegation.owner? at h
  split at h
  · next account handle haccount hhandle =>
    split at h
    · next record hrecord =>
      obtain rfl := Option.some.inj h
      obtain ⟨hstrip, hne, hchild, hamount, hstatus⟩ := make_spec hrecord
      obtain ⟨-, hlimit, -⟩ := make_handle hhandle
      refine ⟨⟨hne, ?_, ?_, hstatus⟩, fun b' ↦ (BudgetAccount.make_fresh haccount).1⟩
      · show Text.strip record.parentReservationId = record.parentReservationId
        rw [hstrip, Text.strip_strip]
      · show record.requestedAmount = record.childHandle.limit
        rw [hchild, hamount, hlimit]
    · cases h
  · cases h

namespace SettlementState

/-- Every record and every copy is of an owner; owners and passes know what they know; the settled
records are charged. -/
structure Sound (s : SettlementState) : Prop where
  budgets : s.stores.budgets.Sound
  unique : Rows.Unique Owner.id s.owners
  wf : ∀ o ∈ s.owners, o.Wf
  owners : ∀ o ∈ s.owners, o.Ok s.stores.budgets
  recorded : ∀ r ∈ s.stores.journal.rows, ∃ o ∈ s.owners, o.record.Follows r
  copied : ∀ n, ∀ r ∈ (s.passes n).copies, ∃ o ∈ s.owners, o.record.Follows r
  passes : ∀ n, Pass.OkAt s.stores.budgets (s.passes n).stage
  charged : ∀ r ∈ s.stores.journal.rows, Charged s.stores.budgets r

theorem sound_empty (backend : BudgetBackend) (scope : String) : (empty backend scope).Sound where
  budgets := BudgetStore.sound_empty backend scope
  unique := List.nodup_nil
  wf _ ho := nomatch ho
  owners _ ho := nomatch ho
  recorded _ hr := nomatch hr
  copied _ _ hr := nomatch hr
  passes _ := trivial
  charged _ hr := nomatch hr

variable {s : SettlementState} {now : Time} {o : Owner} {r r' : Record}

/-- A record and a copy of one settlement are of one owner. -/
theorem Sound.same_owner (hs : s.Sound) (ho : o ∈ s.owners) (hr : r ∈ s.stores.journal.rows)
    (hid : r.settlementId = o.id) : o.record.Follows r := by
  obtain ⟨o', ho', hfollows⟩ := hs.recorded r hr
  obtain rfl : o' = o := hs.unique.eq_of_key ho' ho (hfollows.settlementId.symm.trans hid)
  exact hfollows

/-- What a step may write into the journal. -/
inductive Writes (s : SettlementState) (b : BudgetStore) : Journal → Prop
  | same : Writes s b s.stores.journal
  | prepare (o : Owner) (ho : o ∈ s.owners) : Writes s b (s.stores.journal.prepare o.record).2
  | mark (now : Time) (id : String) (m : Mark)
      (hm : ∀ r ∈ s.stores.journal.rows, r.settlementId = id → Tells b m r) :
      Writes s b (s.stores.journal.transition now id m).2

theorem Sound.writes (hs : s.Sound) {b : BudgetStore} {j : Journal} (h : Writes s b j)
    (hkeeps : Retains s.stores.budgets b) :
    ∀ r ∈ j.rows, (∃ o ∈ s.owners, o.record.Follows r) ∧ Charged b r := by
  have hold : ∀ r ∈ s.stores.journal.rows,
      (∃ o ∈ s.owners, o.record.Follows r) ∧ Charged b r := fun r hr ↦
    ⟨hs.recorded r hr, (hs.charged r hr).keeps hkeeps⟩
  intro r hr
  cases h with
  | same => exact hold r hr
  | prepare o ho =>
      rcases SettlementJournal.mem_prepare hr with hr | rfl
      · exact hold r hr
      · refine ⟨⟨o, ho, .refl o.record⟩, fun hsettled ↦ ?_⟩
        rw [(hs.wf o ho).status] at hsettled
        cases hsettled
  | mark now id m hm =>
      rcases SettlementJournal.mem_transition hr with hr | ⟨x, hx, hid, rfl⟩
      · exact hold r hr
      · obtain ⟨⟨o, ho, hfollows⟩, hcharged⟩ := hold x hx
        exact ⟨⟨o, ho, hfollows.trans (SettlementJournal.follows_outcome m now x)⟩,
          hcharged.outcome (hm x hx hid) now⟩

/-! ## Steps -/

theorem mem_setOwner {id : String} {o o' x : Owner} (hs : s.Sound) (ho : s.owner? id = some o)
    (hx : x ∈ (s.setOwner id o').owners) : x = o' ∨ x ∈ s.owners ∧ x.id ≠ id :=
  (Rows.mem_update hs.unique ho).mp hx

/-- The owners that have a record keep it. -/
theorem record_setOwner {id : String} {o o' : Owner} (hs : s.Sound) (ho : s.owner? id = some o)
    (hrecord : o'.record = o.record) :
    (∃ o ∈ s.owners, o.record.Follows r) → ∃ o ∈ (s.setOwner id o').owners, o.record.Follows r := by
  rintro ⟨x, hx, hfollows⟩
  by_cases hid : x.id = id
  · obtain rfl : x = o := by
      have hlookup := Rows.lookup_of_mem hs.unique hx
      rw [hid] at hlookup
      exact Option.some.inj (hlookup.symm.trans ho)
    exact ⟨o', (Rows.mem_update hs.unique ho).mpr (.inl rfl), hrecord ▸ hfollows⟩
  · exact ⟨x, (Rows.mem_update hs.unique ho).mpr (.inr ⟨hx, hid⟩), hfollows⟩

/-- The state after an owner has gone on. -/
theorem Sound.setOwner (hs : s.Sound) {id : String} {o o' : Owner} (ho : s.owner? id = some o)
    {stores : Stores} (hrecord : o'.record = o.record) (hok : o'.Ok stores.budgets)
    (hbudgets : stores.budgets.Sound) (hw : Writes s stores.budgets stores.journal)
    (hkeeps : Retains s.stores.budgets stores.budgets) :
    Sound { s.setOwner id o' with stores := stores } := by
  have hmem : o ∈ s.owners := Rows.mem_of_lookup ho
  have hkey : o.id = id := Rows.key_of_lookup ho
  have hwf : o'.Wf := by
    obtain ⟨hne, hstrip, hamount, hstatus⟩ := hs.wf o hmem
    exact ⟨by rwa [Owner.reservation, hrecord], by rwa [Owner.reservation, hrecord],
      by rwa [Owner.amount, hrecord], by rwa [hrecord]⟩
  have hwrites := hs.writes hw hkeeps
  constructor
  · exact hbudgets
  · exact hs.unique.update_row ho (show o'.record.settlementId = id by rw [hrecord]; exact hkey)
  · intro x hx
    rcases mem_setOwner hs ho hx with rfl | ⟨hx, -⟩
    · exact hwf
    · exact hs.wf x hx
  · intro x hx
    rcases mem_setOwner hs ho hx with rfl | ⟨hx, -⟩
    · exact hok
    · exact (hs.owners x hx).keeps hkeeps
  · exact fun r hr ↦ record_setOwner hs ho hrecord (hwrites r hr).1
  · exact fun n r hr ↦ record_setOwner hs ho hrecord (hs.copied n r hr)
  · exact fun n ↦ (hs.passes n).keeps hkeeps
  · exact fun r hr ↦ (hwrites r hr).2

/-- An owner tells the truth about its settlement. -/
theorem Sound.tells_owner (hs : s.Sound) (ho : o ∈ s.owners) {b : BudgetStore} {m : Mark}
    (hkeeps : Retains s.stores.budgets b)
    (hm : o.mark? = some m) (hr : r ∈ s.stores.journal.rows) (hid : r.settlementId = o.id) :
    Tells b m r := by
  have hfollows := hs.same_owner ho hr hid
  have hok := hs.owners o ho
  obtain ⟨record, account, stage⟩ := o
  intro hsettled
  cases stage with
  | settling u =>
      obtain rfl := Option.some.inj hm
      obtain ⟨hwithin, hcompleted⟩ := hok
      refine ⟨u, rfl, ?_, fun hpos ↦ ?_⟩
      · rw [hfollows.childHandle]
        exact hwithin
      · rw [hfollows.requestedAmount] at hpos
        rw [hfollows.parentReservationId]
        exact hkeeps.completed (hcompleted hpos)
  | marking => obtain rfl := Option.some.inj hm; cases hsettled
  | readying u => obtain rfl := Option.some.inj hm; cases hsettled
  | retrying u e => obtain rfl := Option.some.inj hm; cases hsettled
  | reclaiming e => obtain rfl := Option.some.inj hm; cases hsettled
  | _ => cases hm

/-- So does a pass about the settlement of its copy. -/
theorem Sound.tells_pass (hs : s.Sound) (n : ℕ) {b : BudgetStore} {m : Mark} {c : Record}
    (hkeeps : Retains s.stores.budgets b)
    (hm : Pass.markAt (s.passes n).stage = some (c, m)) (hr : r ∈ s.stores.journal.rows)
    (hid : r.settlementId = c.settlementId) : Tells b m r := by
  have hok := hs.passes n
  have hcopied := hs.copied n
  generalize s.passes n = p at hm hok hcopied
  obtain ⟨queue, stage, reconciliation⟩ := p
  intro hsettled
  cases stage with
  | settling c' u =>
      obtain ⟨rfl, rfl⟩ := Prod.mk.inj (Option.some.inj hm)
      obtain ⟨hwithin, hcompleted⟩ := hok
      obtain ⟨o, ho, hcopy⟩ := hcopied c' List.mem_cons_self
      have hfollows := hs.same_owner ho hr (hid.trans hcopy.settlementId)
      refine ⟨u, rfl, ?_, fun hpos ↦ ?_⟩
      · rw [hfollows.childHandle, ← hcopy.childHandle]
        exact hwithin
      · rw [hfollows.parentReservationId, ← hcopy.parentReservationId]
        exact hkeeps.completed hcompleted
  | archiving c' e handler =>
      obtain ⟨rfl, rfl⟩ := Prod.mk.inj (Option.some.inj hm)
      cases hsettled
  | retrying c' e =>
      obtain ⟨rfl, rfl⟩ := Prod.mk.inj (Option.some.inj hm)
      cases hsettled
  | _ => cases hm

/-- What a step of an owner does to the stores. -/
theorem Sound.own_spec (hs : s.Sound) (ho : o ∈ s.owners) (now : Time) (fault : Fault) :
    o.StepOk now s.stores (o.step now fault s.stores) ∧
      Retains s.stores.budgets (o.step now fault s.stores).2.budgets ∧
      Writes s (o.step now fault s.stores).2.budgets (o.step now fault s.stores).2.journal := by
  have hstep := Owner.step_ok now fault (hs.owners o ho) (hs.wf o ho) hs.budgets
  have hkeeps := hstep.reaches.retains hs.budgets
  refine ⟨hstep, hkeeps, ?_⟩
  rcases hstep.journal with h | ⟨-, h⟩ | ⟨m, hm, h⟩
  · rw [h]
    exact .same
  · rw [h]
    exact .prepare o ho
  · rw [h]
    exact .mark now o.id m fun r hr hid ↦ hs.tells_owner ho hkeeps hm hr hid

theorem Sound.own (hs : s.Sound) (id : String) (now : Time) (fault : Fault) :
    (s.apply (.own id now fault)).Sound := by
  rw [apply]
  split
  · next o ho =>
    obtain ⟨hstep, hkeeps, hw⟩ := hs.own_spec (Rows.mem_of_lookup ho) now fault
    exact hs.setOwner ho hstep.record hstep.ok (hstep.reaches.sound hs.budgets) hw hkeeps
  · exact hs

/-- What the owner of a delegated budget knows, it knows when it goes on. -/
theorem Sound.at_running (hs : s.Sound) {id : String} (ho : s.owner? id = some o)
    (hstage : o.stage = .running) : Opened o.account o.reservation o.amount 0 := by
  have hok := hs.owners o (Rows.mem_of_lookup ho)
  rw [Owner.Ok, hstage] at hok
  exact hok

theorem Sound.move (hs : s.Sound) {id : String} (ho : s.owner? id = some o) {stage : OwnerStage}
    (hok : (o.goes stage).Ok s.stores.budgets) : (s.setOwner id (o.goes stage)).Sound :=
  hs.setOwner ho rfl hok hs.budgets .same (.refl _)

/-- The state after a pass has gone on. -/
theorem Sound.setPass (hs : s.Sound) (n : ℕ) {p : Pass} {stores : Stores}
    (hcopies : ∀ r ∈ p.copies, ∃ o ∈ s.owners, o.record.Follows r)
    (hok : Pass.OkAt stores.budgets p.stage) (hbudgets : stores.budgets.Sound)
    (hw : Writes s stores.budgets stores.journal)
    (hkeeps : Retains s.stores.budgets stores.budgets) :
    Sound { s with stores := stores, passes := Function.update s.passes n p } := by
  have hwrites := hs.writes hw hkeeps
  constructor
  · exact hbudgets
  · exact hs.unique
  · exact hs.wf
  · exact fun o ho ↦ (hs.owners o ho).keeps hkeeps
  · exact fun r hr ↦ (hwrites r hr).1
  · exact (Function.forall_update_iff s.passes fun _ (p : Pass) ↦
      ∀ r ∈ p.copies, ∃ o ∈ s.owners, o.record.Follows r).mpr
        ⟨hcopies, fun n' _ ↦ hs.copied n'⟩
  · exact (Function.forall_update_iff s.passes fun _ (p : Pass) ↦
      Pass.OkAt stores.budgets p.stage).mpr ⟨hok, fun n' _ ↦ (hs.passes n').keeps hkeeps⟩
  · exact fun r hr ↦ (hwrites r hr).2

theorem Sound.list (hs : s.Sound) (n : ℕ) : (s.apply (.list n)).Sound :=
  hs.setPass n (fun r hr ↦ hs.recorded r (SettlementJournal.mem_pending.mp hr).1) trivial hs.budgets
    .same (.refl _)

theorem Sound.reservation_ne (hs : s.Sound) (n : ℕ) :
    ∀ r ∈ (s.passes n).copies, r.parentReservationId ≠ "" := by
  intro r hr
  obtain ⟨o, ho, hfollows⟩ := hs.copied n r hr
  rw [hfollows.parentReservationId]
  exact (hs.wf o ho).reservation_ne

/-- What a step of a pass does to the stores. -/
theorem Sound.pass_spec (hs : s.Sound) (n : ℕ) (now : Time) (fault : Fault) :
    (s.passes n).StepOk now s.stores ((s.passes n).step now fault s.stores) ∧
      Retains s.stores.budgets ((s.passes n).step now fault s.stores).2.budgets ∧
      Writes s ((s.passes n).step now fault s.stores).2.budgets
        ((s.passes n).step now fault s.stores).2.journal := by
  have hstep := Pass.step_ok now fault (hs.passes n) hs.budgets (hs.reservation_ne n)
  have hkeeps := hstep.reaches.retains hs.budgets
  refine ⟨hstep, hkeeps, ?_⟩
  rcases hstep.journal with h | ⟨c, m, hm, h⟩
  · rw [h]
    exact .same
  · rw [h]
    exact .mark now c.settlementId m fun r hr hid ↦ hs.tells_pass n hkeeps hm hr hid

theorem Sound.reconcile (hs : s.Sound) (n : ℕ) (now : Time) (fault : Fault) :
    (s.apply (.reconcile n now fault)).Sound := by
  obtain ⟨hstep, hkeeps, hw⟩ := hs.pass_spec n now fault
  exact hs.setPass n (fun r hr ↦ hs.copied n r (hstep.copies r hr)) hstep.ok
    (hstep.reaches.sound hs.budgets) hw hkeeps

theorem Sound.authority (hs : s.Sound) (e : BudgetEvent) : (s.apply (.authority e)).Sound := by
  rw [apply]
  split
  · exact hs
  · have hkeeps := retains_apply hs.budgets e
    exact ⟨hs.budgets.apply e, hs.unique, hs.wf, fun o ho ↦ (hs.owners o ho).keeps hkeeps,
      hs.recorded, hs.copied, fun n ↦ (hs.passes n).keeps hkeeps,
      fun r hr ↦ (hs.charged r hr).keeps hkeeps⟩

/-! ## New delegations -/

theorem Sound.delegate (hs : s.Sound) (d : Delegation) : (s.apply (.delegate d)).Sound := by
  rw [apply]
  split
  · next o ho =>
    split
    · next hunused =>
      obtain ⟨hwf, hok⟩ := Delegation.owner?_ok ho
      constructor
      · exact hs.budgets
      · refine hs.unique.append (Rows.lookup_eq_none.mpr fun o' ho' ↦ (hunused.1 o' ho').1)
      · exact List.forall_mem_append.mpr ⟨hs.wf, List.forall_mem_singleton.mpr hwf⟩
      · exact List.forall_mem_append.mpr ⟨hs.owners, List.forall_mem_singleton.mpr (hok _)⟩
      · intro r hr
        obtain ⟨o', ho', hfollows⟩ := hs.recorded r hr
        exact ⟨o', List.mem_append_left _ ho', hfollows⟩
      · intro n r hr
        obtain ⟨o', ho', hfollows⟩ := hs.copied n r hr
        exact ⟨o', List.mem_append_left _ ho', hfollows⟩
      · exact hs.passes
      · exact hs.charged
    · exact hs
  · exact hs

theorem Sound.apply (hs : s.Sound) (e : SettlementEvent) : (s.apply e).Sound := by
  cases e with
  | delegate d => exact hs.delegate d
  | own id now fault => exact hs.own id now fault
  | finish id =>
      rw [SettlementState.apply]
      split
      · next o ho =>
        split
        · next hstage =>
          have hopened := hs.at_running ho hstage
          exact hs.move ho hopened
        · exact hs
      · exact hs
  | undo id e =>
      rw [SettlementState.apply]
      split
      · next o ho =>
        split
        · next hstage =>
          have hopened := hs.at_running ho hstage
          exact hs.move ho hopened
        · exact hs
      · exact hs
  | list n => exact hs.list n
  | reconcile n now fault => exact hs.reconcile n now fault
  | authority e => exact hs.authority e

theorem Sound.run (hs : s.Sound) (events : List SettlementEvent) : (s.run events).Sound := by
  induction events generalizing s with
  | nil => exact hs
  | cons e events ih => exact ih (hs.apply e)

/-! ## Over a run -/

theorem Writes.keeps {b : BudgetStore} {j : Journal} (h : Writes s b j) :
    s.stores.journal.Keeps j := by
  cases h with
  | same => exact .refl _
  | prepare o ho => exact s.stores.journal.keeps_prepare o.record
  | mark now id m hm => exact s.stores.journal.keeps_transition now id m

/-- Records only go on, and closed reservations stay. -/
theorem Sound.apply_keeps (hs : s.Sound) (e : SettlementEvent) :
    s.stores.journal.Keeps (s.apply e).stores.journal ∧
      Retains s.stores.budgets (s.apply e).stores.budgets := by
  have hsame : s.stores.journal.Keeps s.stores.journal ∧
      Retains s.stores.budgets s.stores.budgets :=
    ⟨.refl _, .refl _⟩
  cases e with
  | delegate d =>
      rw [SettlementState.apply]
      split
      · split
        · exact hsame
        · exact hsame
      · exact hsame
  | own id now fault =>
      rw [SettlementState.apply]
      split
      · next o ho =>
        obtain ⟨-, hkeeps, hw⟩ := hs.own_spec (Rows.mem_of_lookup ho) now fault
        exact ⟨hw.keeps, hkeeps⟩
      · exact hsame
  | finish id =>
      rw [SettlementState.apply]
      split
      · split
        · exact hsame
        · exact hsame
      · exact hsame
  | undo id e =>
      rw [SettlementState.apply]
      split
      · split
        · exact hsame
        · exact hsame
      · exact hsame
  | list n => exact hsame
  | reconcile n now fault =>
      obtain ⟨-, hkeeps, hw⟩ := hs.pass_spec n now fault
      exact ⟨hw.keeps, hkeeps⟩
  | authority e =>
      rw [SettlementState.apply]
      split
      · exact hsame
      · exact ⟨.refl _, retains_apply hs.budgets e⟩

theorem Sound.run_keeps (hs : s.Sound) (events : List SettlementEvent) :
    s.stores.journal.Keeps (s.run events).stores.journal ∧
      Retains s.stores.budgets (s.run events).stores.budgets := by
  induction events generalizing s with
  | nil => exact ⟨.refl _, .refl _⟩
  | cons e events ih =>
      obtain ⟨hjournal, hbudgets⟩ := hs.apply_keeps e
      obtain ⟨hjournal', hbudgets'⟩ := ih (hs.apply e)
      exact ⟨hjournal.trans hjournal', hbudgets.trans hbudgets'⟩

/-- **A settled delegation is charged.**  In every run, a record that says `settled` reports units
within the child's handle, and if any units were delegated then the parent's reservation is
completed with just these; the record and the reservation are the same ever after. -/
theorem settled_is_charged (backend : BudgetBackend) (scope : String)
    (events more : List SettlementEvent) :
    let s := (empty backend scope).run events
    ∀ r ∈ s.stores.journal.rows, r.status = .settled →
      (s.run more).stores.journal.record? r.settlementId = some r ∧
      ∃ u, r.usage.bind UsageReport.usage = some u ∧
        0 ≤ u.chargedToParent ∧ u.chargedToParent ≤ r.childHandle.limit ∧
        (0 < r.requestedAmount → ∃ x, s.stores.budgets.row r.parentReservationId = some x ∧
          x.status = .completed ∧ x.completed = u.chargedToParent ∧
          (s.run more).stores.budgets.row r.parentReservationId = some x) := by
  intro s r hr hsettled
  have hs : s.Sound := (sound_empty backend scope).run events
  obtain ⟨hjournal, hbudgets⟩ := hs.run_keeps more
  obtain ⟨u, husage, ⟨hnonneg, hlimit⟩, hcompleted⟩ := hs.charged r hr hsettled
  refine ⟨?_, u, husage, hnonneg, hlimit, fun hpos ↦ ?_⟩
  · obtain ⟨r', hr', hfollows⟩ := hjournal _ r (SettlementJournal.record_of_mem hr)
    obtain rfl := hfollows.frozen (by rw [hsettled]; rfl)
    exact hr'
  · obtain ⟨x, hx, hstatus, hn⟩ := hcompleted hpos
    exact ⟨x, hx, hstatus, hn, hbudgets _ x hx (by rw [hstatus]; exact fun h ↦ nomatch h)⟩

/-! ## Four calls -/

/-- The lease of the parent. -/
def parentLease : ResourceLease where
  leaseId := "lease"
  ownerId := "parent"
  scope := "run"
  resources := ⟨none, none, none, none, []⟩
  status := .active
  createdAt := 0
  updatedAt := 0
  expiresAt := 0
  fencingToken := 1
  expiresAt_nonneg := no_expiry_nonneg
  fencingToken_nonneg := Int.one_nonneg

/-- A child is given four of the parent's calls. -/
def fourCalls : Delegation where
  projectRunId := "run"
  parentCaseRunId := "parent"
  childCaseRunId := "child"
  semanticName := "calls"
  requested := 4
  parentBudget := ""
  parentLimit := none
  leaseId := "lease"
  fencingToken := 1
  handleHex := "0"
  reservationHex := "1"
  now := 0

/-- The next step of its owner. -/
def ownNext : SettlementEvent := .own "budget-settlement:budget-handle-0" 0 .none

/-- The parent has ten calls, the child gets four of them, uses three and ends; the owner crashes
after it has marked the settlement ready, and a pass settles it. -/
def fourReconciled : List SettlementEvent :=
  [.authority (.lease "lease" (some parentLease)), .authority (.call 0 (.configure "calls" 10)),
    .delegate fourCalls, ownNext, ownNext, ownNext, ownNext, ownNext,
    .authority (.call 0 (.reserve "calls::child::child" 3 "lease" 1 (some "work") "")),
    .authority (.call 0 (.complete "work" 3)), .finish "budget-settlement:budget-handle-0", ownNext,
    ownNext, .list 0, .reconcile 0 0 .none, .reconcile 0 0 .none, .reconcile 0 0 .none,
    .reconcile 0 0 .none]

/-- The handle of the child. -/
def fourHandle : BudgetHandle Unit where
  handleId := "budget-handle-0"
  budget := "calls"
  authorityBudget := "calls::child::child"
  limit := 4
  authority := some ()
  leaseId := "lease"
  fencingToken := 1
  parentReservationId := "budget-parent-1"
  budget_strip := by decide
  budget_ne := by decide
  limit_nonneg := by decide

/-- The record of the delegation after the run. -/
def fourRecord : Record where
  settlementId := "budget-settlement:budget-handle-0"
  projectRunId := "run"
  parentCaseRunId := "parent"
  childCaseRunId := "child"
  budget := "calls"
  parentReservationId := "budget-parent-1"
  parentAuthorityRef := ()
  childHandle := fourHandle
  requestedAmount := 4
  status := .settled
  usage := some (.settled ⟨"budget-handle-0", 4, 3, 0, 3, 1⟩)
  attempts := 2
  lastError := none
  createdAt := 0
  updatedAt := 0

theorem fourRecord_mem :
    ((empty .sqlite "run").run fourReconciled).stores.journal.rows = [fourRecord] := by
  decide +kernel

/-- The owner goes on after all. -/
theorem settled_is_charged_four :
    (((empty .sqlite "run").run fourReconciled).run [ownNext]).stores.journal.record?
        fourRecord.settlementId = some fourRecord ∧
      ∃ u, fourRecord.usage.bind UsageReport.usage = some u ∧
        0 ≤ u.chargedToParent ∧ u.chargedToParent ≤ fourRecord.childHandle.limit ∧
        (0 < fourRecord.requestedAmount →
          ∃ x, ((empty .sqlite "run").run fourReconciled).stores.budgets.row
              fourRecord.parentReservationId = some x ∧
            x.status = .completed ∧ x.completed = u.chargedToParent ∧
            (((empty .sqlite "run").run fourReconciled).run [ownNext]).stores.budgets.row
              fourRecord.parentReservationId = some x) :=
  settled_is_charged .sqlite "run" fourReconciled [ownNext] fourRecord
    (fourRecord_mem ▸ List.mem_singleton_self _) rfl

end SettlementState

end Blackbase.Project.Settlement
