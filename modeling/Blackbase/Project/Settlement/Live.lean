import Blackbase.Project.Settlement.Charged

/-!
# A live delegation keeps its reservation

A pass cannot tell an owner that is on its way from `prepare` to `mark_reserved` from one that has
stopped there, and gives the delegation up.  No other pass does harm: if none of them lists the
records while the owner is in between, and the lease of the reservation is current whenever the
clock is read, then a running child has its units reserved at the parent, whatever else happens.

`Live` is what holds of the owner's record, of its reservation and of the copies of its record at
each stage up to `running`.
-/

namespace Blackbase.Project.Settlement

open Blackbase.Resources

/-- The parent's reservation is active, with all its units left. -/
def Held (b : BudgetStore) (r : Record) : Prop :=
  ∃ x, b.row r.parentReservationId = some x ∧ x.status = .active ∧ x.amount = r.requestedAmount ∧
    x.completed = 0

/-- A pass leaves the settlement `id` alone: it has no copy of its record, or copies of a prepared
one, which it has not looked up yet. -/
def Pass.Spares (id : String) (phase : Option SettlementPhase) (p : Pass) : Prop :=
  ∀ c ∈ p.copies, c.settlementId = id → phase = some .prepared ∧ c.status = .prepared ∧
    (c ∈ copyAt p.stage → p.stage = .looking c)

/-- Where a delegation stands in the two stores and with the passes. -/
structure Stands (s : Stores) (passes : ℕ → Pass) (r : Record) (phase : Option SettlementPhase)
    (held : Bool) : Prop where
  record : (s.journal.record? r.settlementId).map (·.status) = phase
  row : bif held then Held s.budgets r else s.budgets.row r.parentReservationId = none
  passes : ∀ n, (passes n).Spares r.settlementId phase

/-- Where it stands at each stage on the way to the child. -/
def Live (s : Stores) (passes : ℕ → Pass) (o : Owner) : Prop :=
  match o.stage with
  | .allowing | .configuring | .preparing => Stands s passes o.record none false
  | .reserving => Stands s passes o.record (some .reserveIntent) false
  | .marking => Stands s passes o.record (some .reserveIntent) true
  | .running => Stands s passes o.record (some .prepared) true
  | _ => True

/-! ## Rows -/

section Rows

variable {b b' : BudgetStore} {now : Time} {id id' : String} {o o' : Option BudgetReservation}

/-- The lease of a reservation is current. -/
def Fenced (b : BudgetStore) (id : String) (now : Time) : Prop :=
  ∀ x ∈ b.row id, b.current x.leaseId x.fencingToken now = true

instance (b : BudgetStore) (id : String) (now : Time) : Decidable (Fenced b id now) :=
  inferInstanceAs (Decidable (∀ x ∈ b.row id, b.current x.leaseId x.fencingToken now = true))

theorem map_reclaimRow (h : Fenced b id now) :
    (b.row id).map (b.view.reclaimRow now) = b.row id := by
  cases hrow : b.row id with
  | none => rfl
  | some x =>
      have hlease : b.view.fenceCurrent x.leaseId x.fencingToken now = true := h x hrow
      rw [Option.map_some, BudgetTables.reclaimRow, BudgetTables.stale, hlease, Bool.not_true,
        Bool.and_false]
      rfl

/-- The reclamation does not touch a reservation whose lease is current. -/
theorem row_of_swept (hrow : BudgetTables.Swept b.view now (b.row id) (b'.row id))
    (h : Fenced b id now) : b'.row id = b.row id := by
  rcases hrow with hrow | hrow
  · exact hrow
  · exact hrow.trans (map_reclaimRow h)

theorem Reaches.row_eq (h : Reaches now id b b') (hb : b.Sound) (hid : id' ≠ id)
    (hfenced : Fenced b id' now) : b'.row id' = b.row id' :=
  row_of_swept (h.row hb hid) hfenced

theorem Reaches.row_none (h : Reaches now id b b') (hb : b.Sound) (hid : id' ≠ id)
    (hnone : b.row id' = none) : b'.row id' = none := by
  have hfenced : Fenced b id' now := by
    rintro x hx
    cases hnone.symm.trans hx
  exact (h.row_eq hb hid hfenced).trans hnone

end Rows

/-- What a delegation does not notice. -/
theorem Stands.frame {s s' : Stores} {passes passes' : ℕ → Pass} {r : Record}
    {phase : Option SettlementPhase} {held : Bool} (h : Stands s passes r phase held)
    (hrecord : s'.journal.record? r.settlementId = s.journal.record? r.settlementId)
    (hrow : s'.budgets.row r.parentReservationId = s.budgets.row r.parentReservationId)
    (hpasses : ∀ n, (passes' n).Spares r.settlementId phase) :
    Stands s' passes' r phase held := by
  constructor
  · rw [hrecord]
    exact h.record
  · rw [Held, hrow]
    exact h.row
  · exact hpasses

/-- A step that leaves the delegation where it is keeps its owner where it should be. -/
theorem Live.imp {s s' : Stores} {passes passes' : ℕ → Pass} {o : Owner} (h : Live s passes o)
    (hstands : ∀ phase held, (phase = none ∨
        phase = some .reserveIntent ∧ (o.stage = .reserving ∨ o.stage = .marking) ∨
        phase = some .prepared ∧ held = true) →
      Stands s passes o.record phase held → Stands s' passes' o.record phase held) :
    Live s' passes' o := by
  obtain ⟨r, a, stage⟩ := o
  cases stage with
  | allowing => exact hstands none false (.inl rfl) h
  | configuring => exact hstands none false (.inl rfl) h
  | preparing => exact hstands none false (.inl rfl) h
  | reserving => exact hstands _ false (.inr (.inl ⟨rfl, .inl rfl⟩)) h
  | marking => exact hstands _ true (.inr (.inl ⟨rfl, .inr rfl⟩)) h
  | running => exact hstands _ true (.inr (.inr ⟨rfl, rfl⟩)) h
  | _ => trivial

/-! ## Passes -/

namespace Pass

variable {p p' : Pass} {s : Stores} {now : Time} {fault : Fault} {id : String} {r : Record}
  {phase : Option SettlementPhase}

/-- A pass goes on with its copy, or is done with it. -/
def GoesOn (p p' : Pass) : Prop :=
  p'.queue = p.queue ∧ ∀ c ∈ copyAt p'.stage, c ∈ copyAt p.stage

theorem goesOn_goes {stage : PassStage} (hr : copyAt p.stage = [r])
    (hstage : ∀ c ∈ copyAt stage, c = r) : p.GoesOn (p.goes stage) := by
  refine ⟨rfl, fun c hc ↦ ?_⟩
  obtain rfl := hstage c hc
  rw [hr]
  exact List.mem_cons_self

theorem goesOn_report (p : Pass) (entry : ReconciliationEntry) : p.GoesOn (p.report entry) := by
  constructor
  · rfl
  · rintro c ⟨⟩

theorem goesOn_preserve (hr : copyAt p.stage = [r]) (e : SettlementFailure) :
    p.GoesOn (p.preserve r e) := by
  rw [preserve]
  split
  · exact goesOn_goes hr fun c hc ↦ List.mem_singleton.mp hc
  · exact p.goesOn_report _

theorem goesOn_postpone (hr : copyAt p.stage = [r]) (e : SettlementFailure) :
    p.GoesOn (p.postpone r e) := by
  rw [postpone]
  split
  · exact goesOn_goes hr fun c hc ↦ List.mem_singleton.mp hc
  · exact goesOn_goes hr fun c hc ↦ List.mem_singleton.mp hc

theorem goesOn_after {α : Type} {next : α → Pass} {handler : SettlementFailure → Pass}
    (hnext : ∀ a, p.GoesOn (next a)) (hhandler : ∀ e, p.GoesOn (handler e))
    (res : Except SettlementFailure α × Stores) : p.GoesOn (after next handler res).1 := by
  obtain ⟨out, s'⟩ := res
  cases out with
  | ok a => exact hnext a
  | error e => exact hhandler e

theorem goesOn_step (hstage : p.stage ≠ .next) (now : Time) (fault : Fault) (s : Stores) :
    p.GoesOn (p.step now fault s).1 := by
  unfold step
  cases h : p.stage with
  | next => exact absurd h hstage
  | looking r =>
      have hr : copyAt p.stage = [r] := by rw [h]; rfl
      refine goesOn_after (fun reply ↦ ?_) (goesOn_preserve hr) _
      show p.GoesOn (if r.status = .reserveIntent then _ else _)
      split
      · refine goesOn_goes hr fun c hc ↦ ?_
        split at hc
        · exact List.mem_singleton.mp hc
        · exact List.mem_singleton.mp hc
      · show p.GoesOn (if _ then _ else _)
        split
        · exact goesOn_goes hr fun c hc ↦ nomatch hc
        · exact goesOn_goes hr fun c hc ↦ List.mem_singleton.mp hc
  | cancelling r =>
      have hr : copyAt p.stage = [r] := by rw [h]; rfl
      refine goesOn_after (fun _ ↦ ?_) (goesOn_preserve hr) _
      exact goesOn_goes hr fun c hc ↦ List.mem_singleton.mp hc
  | archiving r e handler =>
      have hr : copyAt p.stage = [r] := by rw [h]; rfl
      refine goesOn_after (fun _ ↦ p.goesOn_report _) (fun e' ↦ ?_) _
      split
      · exact goesOn_goes hr fun c hc ↦ nomatch hc
      · exact goesOn_preserve hr e'
  | measuring r =>
      have hr : copyAt p.stage = [r] := by rw [h]; rfl
      refine goesOn_after (fun _ ↦ ?_) (goesOn_postpone hr) _
      exact goesOn_goes hr fun c hc ↦ List.mem_singleton.mp hc
  | completing r u =>
      have hr : copyAt p.stage = [r] := by rw [h]; rfl
      refine goesOn_after (fun _ ↦ ?_) (goesOn_postpone hr) _
      exact goesOn_goes hr fun c hc ↦ List.mem_singleton.mp hc
  | settling r u =>
      have hr : copyAt p.stage = [r] := by rw [h]; rfl
      exact goesOn_after (fun _ ↦ p.goesOn_report _) (goesOn_postpone hr) _
  | retrying r e =>
      have hr : copyAt p.stage = [r] := by rw [h]; rfl
      refine goesOn_after (fun _ ↦ p.goesOn_report _) (fun e' ↦ ?_) _
      refine goesOn_goes hr ?_
      rintro c ⟨⟩
  | aborted e => exact ⟨rfl, fun c hc ↦ hc⟩

theorem copyAt_of_markAt {stage : PassStage} {m : Mark} (h : markAt stage = some (r, m)) :
    r ∈ copyAt stage ∧ ∀ c, stage ≠ .looking c := by
  cases stage with
  | archiving c e handler =>
      obtain ⟨rfl, -⟩ := Prod.mk.inj (Option.some.inj h)
      exact ⟨List.mem_cons_self, fun c h ↦ nomatch h⟩
  | settling c u =>
      obtain ⟨rfl, -⟩ := Prod.mk.inj (Option.some.inj h)
      exact ⟨List.mem_cons_self, fun c h ↦ nomatch h⟩
  | retrying c e =>
      obtain ⟨rfl, -⟩ := Prod.mk.inj (Option.some.inj h)
      exact ⟨List.mem_cons_self, fun c h ↦ nomatch h⟩
  | _ => cases h

theorem spares_list (p : Pass) {j : Journal}
    (hrecord : ∀ c, j.record? id = some c → phase = some .prepared ∧ c.status = .prepared) :
    (p.list j).Spares id phase := by
  intro c hc hid
  have hc : c ∈ j.rows := (SettlementJournal.mem_pending.mp hc).1
  obtain ⟨hphase, hstatus⟩ := hrecord c (hid ▸ SettlementJournal.record_of_mem hc)
  exact ⟨hphase, hstatus, fun hstage ↦ nomatch hstage⟩

/-- The stage of the next copy. -/
theorem copyAt_take {c c' : Record} {queue : List Record} (hqueue : p.queue = c :: queue)
    (hc' : c' ∈ copyAt p.take.stage) :
    c' = c ∧ (c.status = .prepared → p.take.stage = .looking c) := by
  rw [Pass.take, hqueue] at hc' ⊢
  dsimp only at hc' ⊢
  cases hstatus : c.status <;> rw [hstatus] at hc'
  · exact ⟨List.mem_singleton.mp hc', fun h ↦ nomatch h⟩
  · exact ⟨List.mem_singleton.mp hc', fun _ ↦ rfl⟩
  · exact ⟨List.mem_singleton.mp hc', fun h ↦ nomatch h⟩
  · exact ⟨List.mem_singleton.mp hc', fun h ↦ nomatch h⟩
  · cases hc'
  · cases hc'

theorem Spares.take (h : p.Spares id phase) : p.take.Spares id phase := by
  cases hqueue : p.queue with
  | nil =>
      rw [Pass.take, hqueue]
      exact h
  | cons c queue =>
      intro c' hc' hid
      have hqueue' : p.take.queue = queue := by rw [Pass.take, hqueue]
      have hmem : c' ∈ p.queue := by
        rw [hqueue]
        rcases List.mem_append.mp hc' with hc' | hc'
        · obtain ⟨rfl, -⟩ := copyAt_take hqueue hc'
          exact List.mem_cons_self
        · rw [hqueue'] at hc'
          exact List.mem_cons_of_mem c hc'
      obtain ⟨hphase, hstatus, -⟩ := h c' (List.mem_append_right _ hmem) hid
      refine ⟨hphase, hstatus, fun hcopy ↦ ?_⟩
      obtain ⟨rfl, hlooking⟩ := copyAt_take hqueue hcopy
      exact hlooking hstatus

theorem Spares.step_other (h : p.Spares id phase)
    (hother : ∀ c ∈ copyAt p.stage, c.settlementId ≠ id) (now : Time) (fault : Fault)
    (s : Stores) : (p.step now fault s).1.Spares id phase := by
  by_cases hstage : p.stage = .next
  · rw [step, hstage]
    exact h.take
  · obtain ⟨hqueue, hcopy⟩ := goesOn_step hstage now fault s
    intro c hc hid
    rcases List.mem_append.mp hc with hc | hc
    · exact absurd hid (hother c (hcopy c hc))
    · rw [hqueue] at hc
      obtain ⟨hphase, hstatus, -⟩ := h c (List.mem_append_right _ hc) hid
      exact ⟨hphase, hstatus, fun hc ↦ absurd hid (hother c (hcopy c hc))⟩

/-- A pass that finds an active reservation for a prepared settlement leaves it alone. -/
theorem Spares.step_looking (h : p.Spares id phase) {c : Record} (hstage : p.stage = .looking c)
    (hstatus : c.status = .prepared) (hs : s.budgets.Sound) (hne : c.parentReservationId ≠ "")
    (hfenced : Fenced s.budgets c.parentReservationId now) {x : BudgetReservation}
    (hrow : s.budgets.row c.parentReservationId = some x) (hactive : x.status = .active) :
    (p.step now fault s).1.Spares id phase := by
  have hdone : ∀ p' : Pass, p'.queue = p.queue → p'.stage = .next → p'.Spares id phase := by
    intro p' hqueue hnext c hc hid
    rw [copies, hnext, hqueue] at hc
    obtain ⟨hphase, hstatus, -⟩ := h c (List.mem_append_right _ hc) hid
    refine ⟨hphase, hstatus, fun hc ↦ ?_⟩
    rw [hnext] at hc
    cases hc
  have hreply : (s.budgets.exec now (.reservation c.parentReservationId)).1 =
      .ok (.found (some x)) := by
    obtain ⟨hreply, hfound⟩ := @BudgetStore.Sound.lookup_row s.budgets now hs _ hne
    rw [hreply, hfound, map_reclaimRow hfenced, hrow]
  have hcall : (callBudgets s now fault (.reservation c.parentReservationId)).1 =
      .ok (.found (some x)) ∨ ∃ errorType message,
        (callBudgets s now fault (.reservation c.parentReservationId)).1 =
          .error (.outage errorType message) := by
    rw [callBudgets, hreply]
    cases fault with
    | none => exact .inl rfl
    | before errorType message => exact .inr ⟨errorType, message, rfl⟩
    | after errorType message => exact .inr ⟨errorType, message, rfl⟩
  unfold step
  rw [hstage]
  dsimp only
  cases hres : callBudgets s now fault (.reservation c.parentReservationId) with
  | mk out s' =>
      rw [hres] at hcall
      rcases hcall with hout | ⟨errorType, message, hout⟩
      · obtain rfl : out = _ := hout
        refine hdone _ ?_ ?_
        · simp [after, BudgetReply.found?, hstatus, hactive, goes]
        · simp [after, BudgetReply.found?, hstatus, hactive, goes]
      · obtain rfl : out = _ := hout
        exact hdone _ rfl rfl

end Pass

/-! ## The owner -/

namespace Owner

variable {o : Owner} {s : Stores} {now : Time} {fault : Fault} {passes : ℕ → Pass}

/-- A step before the reservation, which leaves the record alone. -/
theorem stands_untouched (now : Time) {s' : Stores} {r : Record} {phase : Option SettlementPhase}
    (h : Stands s passes r phase false) (hs : s.budgets.Sound) (hne : r.parentReservationId ≠ "")
    (hjournal : s'.journal = s.journal) (hreaches : Reaches now "" s.budgets s'.budgets) :
    Stands s' passes r phase false := by
  refine h.frame ?_ ?_ h.passes
  · rw [hjournal]
  · exact (hreaches.row_none hs hne h.row).trans h.row.symm

/-- The record is written. -/
theorem stands_prepared {s' : Stores} {r r' : Record} (h : Stands s passes r none false)
    (hr : r.status = .reserveIntent) (hres : (s.journal.prepare r).1 = .ok r')
    (hs' : s' = { s with journal := (s.journal.prepare r).2 }) :
    Stands s' passes r (some .reserveIntent) false := by
  subst hs'
  obtain ⟨hrecord, -⟩ := SettlementJournal.prepare_record hres
  have hnone : s.journal.record? r.settlementId = none := Option.map_eq_none_iff.mp h.record
  have hnew : (s.journal.prepare r).1 = .ok r := by
    unfold SettlementJournal.prepare
    split
    · next hsome => cases hnone.symm.trans hsome
    · rfl
  obtain rfl := Except.ok.inj (hres.symm.trans hnew)
  constructor
  · rw [hrecord]
    exact congrArg some hr
  · exact h.row
  · intro n c hc hid
    cases (h.passes n c hc hid).1

/-- The units are reserved. -/
theorem stands_reserved {s' : Stores} {r : Record} {budget leaseId : String} {fencingToken : ℤ}
    {reply : BudgetReply} (h : Stands s passes r (some .reserveIntent) false)
    (hs : s.budgets.Sound) (hne : r.parentReservationId ≠ "")
    (hexec : (s.budgets.exec now (.reserve budget r.requestedAmount leaseId fencingToken
      (some r.parentReservationId) "")).1 = .ok reply)
    (hs' : s' = { s with budgets := (s.budgets.exec now (.reserve budget r.requestedAmount leaseId
      fencingToken (some r.parentReservationId) "")).2 }) :
    Stands s' passes r (some .reserveIntent) true := by
  subst hs'
  constructor
  · exact h.record
  · rcases @BudgetStore.Sound.reserve_row s.budgets now hs budget leaseId r.parentReservationId ""
        r.requestedAmount fencingToken hne h.row with
      ⟨x, -, hrow, -, -, hamount, -, -, hactive, hzero, -⟩ | ⟨e, he, -⟩
    · exact ⟨x, hrow, hactive, hamount, hzero⟩
    · cases he.symm.trans hexec
  · exact h.passes

/-- The record says so. -/
theorem stands_marked {s' : Stores} {r : Record} (h : Stands s passes r (some .reserveIntent) true)
    (hs' : s' = { s with journal := (s.journal.transition now r.settlementId .reserved).2 }) :
    Stands s' passes r (some .prepared) true := by
  subst hs'
  constructor
  · obtain ⟨x, hx, hstatus⟩ := Option.map_eq_some_iff.mp h.record
    rw [SettlementJournal.transition_record, if_pos rfl, hx, Option.map_some, Option.map_some,
      SettlementMark.outcome, hstatus]
    rfl
  · exact h.row
  · intro n c hc hid
    cases (h.passes n c hc hid).1

section Handler

variable {handler : SettlementFailure → OwnerStage}
  (hhandler : ∀ e s, Live s passes (o.goes (handler e)))
include hhandler

theorem live_after {α : Type} {next : α → OwnerStage} {res : Except SettlementFailure α × Stores}
    (hnext : ∀ x, res.1 = .ok x → Live res.2 passes (o.goes (next x))) :
    Live (o.after next handler res).2 passes (o.after next handler res).1 := by
  obtain ⟨out, s'⟩ := res
  cases out with
  | error e => exact hhandler e s'
  | ok x => exact hnext x rfl

theorem live_afterAccount {α : Type} {next : α → OwnerStage}
    {res : Except SettlementFailure (α × BudgetAccount) × Stores}
    (hnext : ∀ x a', res.1 = .ok (x, a') →
      Live res.2 passes { o with account := a', stage := next x }) :
    Live (o.afterAccount next handler res).2 passes (o.afterAccount next handler res).1 := by
  obtain ⟨out, s'⟩ := res
  cases out with
  | error e => exact hhandler e s'
  | ok reply => exact hnext reply.1 reply.2 rfl

end Handler

/-- A step on the way to the child leaves the delegation where it should be. -/
theorem live_step (h : Live s passes o) (hok : o.Ok s.budgets) (hwf : o.Wf)
    (hs : s.budgets.Sound) (hpos : 0 < o.amount) :
    Live (o.step now fault s).2 passes (o.step now fault s).1 := by
  obtain ⟨r, a, stage⟩ := o
  have hne : r.parentReservationId ≠ "" := hwf.reservation_ne
  have hpos : 0 < r.requestedAmount := hpos
  cases stage with
  | allowing =>
      refine live_afterAccount (fun _ _ ↦ by trivial) fun allowed a' hres ↦ ?_
      obtain ⟨hf, hs'⟩ := callAccount_ok hres
      have hspec := allowance_spec a s.budgets now r.requestedAmount
      have hf : (a.attach s.budgets).allowance now r.requestedAmount none = (.ok allowed, a') := hf
      rw [hf] at hspec
      show Live _ passes ⟨r, a', if allowed < r.requestedAmount then _ else .configuring⟩
      split
      · trivial
      · refine stands_untouched now h hs hne ?_ ?_
        · rw [hs']
        · rw [hs']
          rcases hspec with heq | heq <;> obtain rfl : a' = _ := heq
          · exact .refl now "" s.budgets
          · refine .exec s.budgets ?_
            rintro id' ⟨⟩
  | configuring =>
      refine live_after (fun _ _ ↦ by trivial) fun reply hres ↦ ?_
      obtain ⟨-, hs'⟩ := callBudgets_ok hres
      refine stands_untouched now h hs hne ?_ ?_
      · rw [hs']
      · rw [hs']
        refine .exec s.budgets ?_
        rintro id' ⟨⟩
  | preparing =>
      refine live_after (fun _ _ ↦ by trivial) fun r' hres ↦ ?_
      obtain ⟨hprepared, hs'⟩ := callPrepare_ok hres
      exact stands_prepared h hwf.status hprepared hs'
  | reserving =>
      obtain ⟨hfresh, hlimit⟩ : a.Fresh ∧ ∀ l ∈ a.limit, r.requestedAmount ≤ l := hok
      refine live_afterAccount (fun _ _ ↦ by trivial) fun x a' hres ↦ ?_
      obtain ⟨hf, hs'⟩ := callAccount_ok hres
      have hf : (a.attach s.budgets).reserve now r.requestedAmount (some r.parentReservationId) "" =
        (.ok x, a') := hf
      have hspec := reserve_spec now hfresh hs hne hwf.reservation_strip hpos.le hlimit
      rcases hspec with ⟨hzero, -⟩ |
        ⟨-, ⟨reply, x', a'', hexec, hres', hstore, -⟩ | ⟨e, a'', -, hres', -⟩⟩
      · exact absurd hzero hpos.ne'
      · obtain ⟨-, rfl⟩ := Prod.mk.inj (hres'.symm.trans hf)
        exact stands_reserved h hs hne hexec (by rw [hs', hstore]; rfl)
      · cases hres'.symm.trans hf
  | marking =>
      refine live_after (fun _ _ ↦ by trivial) fun r' hres ↦ ?_
      exact stands_marked h (callMark_ok hres)
  | running => exact h
  | measuring => exact live_after (fun _ _ ↦ by trivial) fun u _ ↦ by trivial
  | readying u => exact live_after (fun _ _ ↦ by trivial) fun r' _ ↦ by trivial
  | consuming u =>
      unfold step
      dsimp only
      split
      · split
        · trivial
        · exact live_afterAccount (fun _ _ ↦ by trivial) fun x a' _ ↦ by trivial
      · trivial
  | completing u => exact live_afterAccount (fun _ _ ↦ by trivial) fun x a' _ ↦ by trivial
  | settling u => exact live_after (fun _ _ ↦ by trivial) fun r' _ ↦ by trivial
  | retrying u e => exact live_after (fun _ _ ↦ by trivial) fun r' _ ↦ by trivial
  | cancelling e => exact live_afterAccount (fun _ _ ↦ by trivial) fun x a' _ ↦ by trivial
  | reclaiming e => exact live_after (fun _ _ ↦ by trivial) fun r' _ ↦ by trivial
  | settled => exact h
  | failed e => exact h

end Owner

/-! ## What the others do -/

namespace SettlementState

/-- The reservations of the owners have names of their own. -/
def Apart (s : SettlementState) : Prop :=
  ∀ o ∈ s.owners, ∀ o' ∈ s.owners, o.reservation = o'.reservation → o.id = o'.id

variable {s : SettlementState} {o : Owner} {id : String} {now : Time} {fault : Fault}
  {phase : Option SettlementPhase} {held : Bool}

theorem Apart.setOwner (h : s.Apart) (hs : s.Sound) {o' : Owner} (ho : s.owner? id = some o)
    (hrecord : o'.record = o.record) : (s.setOwner id o').Apart := by
  have hold : ∀ x ∈ (s.setOwner id o').owners, ∃ y ∈ s.owners, x.record = y.record := by
    intro x hx
    rcases mem_setOwner hs ho hx with rfl | ⟨hx, -⟩
    · exact ⟨o, Rows.mem_of_lookup ho, hrecord⟩
    · exact ⟨x, hx, rfl⟩
  intro x hx y hy hreservation
  obtain ⟨x', hx', hxrecord⟩ := hold x hx
  obtain ⟨y', hy', hyrecord⟩ := hold y hy
  rw [Owner.reservation, Owner.reservation, hxrecord, hyrecord] at hreservation
  rw [Owner.id, Owner.id, hxrecord, hyrecord]
  exact h x' hx' y' hy' hreservation

theorem Apart.apply (h : s.Apart) (hs : s.Sound) (e : SettlementEvent) : (s.apply e).Apart := by
  cases e with
  | delegate d =>
      rw [SettlementState.apply]
      split
      · next o ho =>
        split
        · next hunused =>
          have hnew : ∀ x ∈ s.owners, x.reservation ≠ o.reservation := fun x hx ↦
            (hunused.1 x hx).2
          refine List.forall_mem_append.mpr ⟨fun x hx ↦ ?_, List.forall_mem_singleton.mpr ?_⟩
          · refine List.forall_mem_append.mpr ⟨h x hx, List.forall_mem_singleton.mpr ?_⟩
            exact fun heq ↦ absurd heq (hnew x hx)
          · refine List.forall_mem_append.mpr ⟨?_, List.forall_mem_singleton.mpr fun _ ↦ rfl⟩
            exact fun x hx heq ↦ absurd heq.symm (hnew x hx)
        · exact h
      · exact h
  | own id now fault =>
      rw [SettlementState.apply]
      split
      · next o ho =>
        obtain ⟨hstep, -⟩ := hs.own_spec (Rows.mem_of_lookup ho) now fault
        exact h.setOwner hs ho hstep.record
      · exact h
  | finish id =>
      rw [SettlementState.apply]
      split
      · next o ho =>
        split
        · exact h.setOwner hs ho rfl
        · exact h
      · exact h
  | undo id e =>
      rw [SettlementState.apply]
      split
      · next o ho =>
        split
        · exact h.setOwner hs ho rfl
        · exact h
      · exact h
  | list n => exact h
  | reconcile n now fault => exact h
  | authority e =>
      rw [SettlementState.apply]
      split
      · exact h
      · exact h

/-- The other reservations are not the one of an owner. -/
theorem Apart.ne (h : s.Apart) (ho : o ∈ s.owners) {o' : Owner} (ho' : o' ∈ s.owners)
    (hid : o'.id ≠ o.id) : o.reservation ≠ o'.reservation :=
  fun heq ↦ hid (h o ho o' ho' heq).symm

/-- A step of another owner. -/
theorem stands_own (h : Stands s.stores s.passes o.record phase held) (hs : s.Sound)
    (hapart : s.Apart) (ho : o ∈ s.owners) {o' : Owner} (ho' : o' ∈ s.owners) (hid : o'.id ≠ o.id)
    (hfenced : Fenced s.stores.budgets o.reservation now) :
    Stands (o'.step now fault s.stores).2 s.passes o.record phase held := by
  obtain ⟨hstep, -⟩ := hs.own_spec ho' now fault
  have hrow := hstep.reaches.row_eq hs.budgets (hapart.ne ho ho' hid) hfenced
  have hrecord : (o'.step now fault s.stores).2.journal.record? o.id =
      s.stores.journal.record? o.id := by
    rcases hstep.journal with heq | ⟨-, heq⟩ | ⟨m, -, heq⟩
    · rw [heq]
    · rw [heq]
      exact SettlementJournal.prepare_other hid
    · rw [heq, SettlementJournal.transition_record, if_neg (Ne.symm hid)]
  exact h.frame hrecord hrow h.passes

/-- The reservation of a pass that does not work for the owner. -/
theorem Apart.actsOn_ne (h : s.Apart) (hs : s.Sound) (ho : o ∈ s.owners) (n : ℕ)
    (hother : ∀ c ∈ Pass.copyAt (s.passes n).stage, c.settlementId ≠ o.id ∨
      (s.passes n).stage = .looking c) :
    o.reservation ≠ Pass.actsOn (s.passes n).stage := by
  have hcopied := hs.copied n
  have hne : o.reservation ≠ "" := (hs.wf o ho).reservation_ne
  have hcopy : ∀ c ∈ (s.passes n).copies, c.settlementId ≠ o.id →
      o.reservation ≠ c.parentReservationId := by
    intro c hc hid
    obtain ⟨o', ho', hfollows⟩ := hcopied c hc
    rw [hfollows.parentReservationId]
    exact h.ne ho ho' fun heq ↦ hid (hfollows.settlementId.trans heq)
  generalize s.passes n = p at hother hcopy
  obtain ⟨queue, stage, reconciliation⟩ := p
  cases stage with
  | cancelling c =>
      rcases hother c List.mem_cons_self with hid | hlooking
      · exact hcopy c List.mem_cons_self hid
      · cases hlooking
  | completing c u =>
      rcases hother c List.mem_cons_self with hid | hlooking
      · exact hcopy c List.mem_cons_self hid
      · cases hlooking
  | _ => exact hne

/-- A step of a pass. -/
theorem stands_reconcile (h : Stands s.stores s.passes o.record phase held) (hs : s.Sound)
    (hapart : s.Apart) (ho : o ∈ s.owners) (hheld : phase = some .prepared → held = true)
    (hfenced : Fenced s.stores.budgets o.reservation now) (n : ℕ) :
    Stands ((s.passes n).step now fault s.stores).2
      (Function.update s.passes n ((s.passes n).step now fault s.stores).1) o.record phase
      held := by
  obtain ⟨hstep, -⟩ := hs.pass_spec n now fault
  have hspares := h.passes n
  have hother : ∀ c ∈ Pass.copyAt (s.passes n).stage, c.settlementId ≠ o.id ∨
      (s.passes n).stage = .looking c := by
    intro c hc
    by_cases hid : c.settlementId = o.id
    · exact .inr ((hspares c (List.mem_append_left _ hc) hid).2.2 hc)
    · exact .inl hid
  have hrow := hstep.reaches.row_eq hs.budgets (hapart.actsOn_ne hs ho n hother) hfenced
  have hrecord : ((s.passes n).step now fault s.stores).2.journal.record? o.id =
      s.stores.journal.record? o.id := by
    rcases hstep.journal with heq | ⟨c, m, hm, heq⟩
    · rw [heq]
    · obtain ⟨hcopy, hmarks⟩ := Pass.copyAt_of_markAt hm
      have hid : c.settlementId ≠ o.id := (hother c hcopy).resolve_right (hmarks c)
      rw [heq, SettlementJournal.transition_record, if_neg (Ne.symm hid)]
  refine h.frame hrecord hrow ?_
  refine (Function.forall_update_iff s.passes fun _ (p : Pass) ↦ p.Spares o.id phase).mpr
    ⟨?_, fun n' _ ↦ h.passes n'⟩
  · by_cases hcopy : ∀ c ∈ Pass.copyAt (s.passes n).stage, c.settlementId ≠ o.id
    · exact hspares.step_other hcopy now fault s.stores
    · push Not at hcopy
      obtain ⟨c, hc, hid⟩ := hcopy
      have hc' : c ∈ (s.passes n).copies := List.mem_append_left _ hc
      obtain ⟨hphase, hstatus, hlooking⟩ := hspares c hc' hid
      obtain ⟨o', ho', hfollows⟩ := hs.copied n c hc'
      obtain rfl : o' = o := hs.unique.eq_of_key ho' ho (hfollows.settlementId.symm.trans hid)
      have hreservation : c.parentReservationId = o'.reservation := hfollows.parentReservationId
      have hrow := h.row
      rw [hheld hphase] at hrow
      obtain ⟨x, hx, hactive, -⟩ : Held s.stores.budgets o'.record := hrow
      refine hspares.step_looking (hlooking hc) hstatus hs.budgets ?_ ?_ ?_ hactive
      · rw [hreservation]
        exact (hs.wf o' ho).reservation_ne
      · rw [hreservation]
        exact hfenced
      · rw [hreservation]
        exact hx

/-- Something else happens at the authority. -/
theorem stands_authority (h : Stands s.stores s.passes o.record phase held) (hs : s.Sound)
    (ho : o ∈ s.owners) {e : BudgetEvent} (hnames : s.Names e = false)
    (hfenced : ∀ now c, e = .call now c → Fenced s.stores.budgets o.reservation now) :
    Stands { s.stores with budgets := s.stores.budgets.apply e } s.passes o.record phase held := by
  have hrow : (s.stores.budgets.apply e).row o.reservation =
      s.stores.budgets.row o.reservation := by
    cases e with
    | call now c =>
        refine row_of_swept (hs.budgets.exec_row now ?_) (hfenced now c rfl)
        have hother := List.any_eq_false.mp hnames o ho
        simpa using hother
    | lease leaseId lease =>
        rw [BudgetStore.row, BudgetStore.apply, BudgetStore.setLease_view]
        rfl
  exact h.frame rfl hrow h.passes

/-- A pass starts. -/
theorem stands_list (h : Stands s.stores s.passes o.record phase held)
    (hphase : phase ≠ none → phase = some .prepared) (n : ℕ) :
    Stands s.stores (Function.update s.passes n ((s.passes n).list s.stores.journal)) o.record
      phase held := by
  refine h.frame rfl rfl ?_
  refine (Function.forall_update_iff s.passes fun _ (p : Pass) ↦ p.Spares o.id phase).mpr
    ⟨?_, fun n' _ ↦ h.passes n'⟩
  refine (s.passes n).spares_list fun c hc ↦ ?_
  have hrecord := h.record
  rw [show s.stores.journal.record? o.record.settlementId = some c from hc] at hrecord
  obtain rfl := hrecord
  have hprepared := hphase (Option.some_ne_none _)
  exact ⟨hprepared, Option.some.inj hprepared⟩

/-! ## Runs -/

end SettlementState

/-- The event starts a pass. -/
def SettlementEvent.lists : SettlementEvent → Bool
  | .list _ => true
  | _ => false

/-- The clock an event reads at the authority. -/
def SettlementEvent.now? : SettlementEvent → Option Time
  | .own _ now _ | .reconcile _ now _ | .authority (.call now _) => some now
  | .delegate _ | .finish _ | .undo _ _ | .list _ | .authority (.lease _ _) => none

namespace SettlementState

/-- No pass starts while the owner is between `prepare` and `mark_reserved`, and the lease of its
reservation is current whenever the clock is read. -/
def Careful (id : String) (s : SettlementState) (e : SettlementEvent) : Prop :=
  ∀ o ∈ s.owner? id, (o.stage = .reserving ∨ o.stage = .marking → e.lists = false) ∧
    ∀ now ∈ e.now?, Fenced s.stores.budgets o.reservation now

instance (id : String) (s : SettlementState) (e : SettlementEvent) : Decidable (Careful id s e) :=
  inferInstanceAs (Decidable (∀ o ∈ s.owner? id,
    (o.stage = .reserving ∨ o.stage = .marking → e.lists = false) ∧
      ∀ now ∈ e.now?, Fenced s.stores.budgets o.reservation now))

/-- Every event of a run is careful about the settlement `id`. -/
def CarefulRun (id : String) (s : SettlementState) : List SettlementEvent → Prop
  | [] => True
  | e :: events => Careful id s e ∧ CarefulRun id (s.apply e) events

instance decidableCarefulRun (id : String) :
    ∀ (s : SettlementState) (events : List SettlementEvent), Decidable (CarefulRun id s events)
  | _, [] => isTrue trivial
  | s, e :: events =>
      have := decidableCarefulRun id (s.apply e) events
      inferInstanceAs (Decidable (Careful id s e ∧ CarefulRun id (s.apply e) events))

/-- The owner of a settlement is where it should be. -/
def Lives (id : String) (s : SettlementState) : Prop :=
  ∀ o, s.owner? id = some o → 0 < o.amount → Live s.stores s.passes o

variable {s : SettlementState} {o : Owner} {id : String}

/-- A new owner has left no trace yet. -/
theorem stands_new (hs : s.Sound) (hunused : s.Unused o) :
    Stands s.stores s.passes o.record none false := by
  have hnobody : ∀ x : Record, (∃ o' ∈ s.owners, o'.record.Follows x) →
      x.settlementId ≠ o.record.settlementId := by
    rintro x ⟨o', ho', hfollows⟩ heq
    exact (hunused.1 o' ho').1 (hfollows.settlementId.symm.trans heq)
  constructor
  · cases hrecord : s.stores.journal.record? o.record.settlementId with
    | none => rfl
    | some x =>
        have hx := hs.recorded x (SettlementJournal.mem_of_record hrecord)
        exact absurd (SettlementJournal.id_of_record hrecord) (hnobody x hx)
  · exact hunused.2
  · intro n c hc hid
    exact absurd hid (hnobody c (hs.copied n c hc))

theorem owner?_setOwner {id' : String} {o' : Owner} (ho : s.owner? id' = some o)
    (hrecord : o'.record = o.record) (id : String) :
    (s.setOwner id' o').owner? id = if id' = id then some o' else s.owner? id := by
  have hold : o.id = id' := Rows.key_of_lookup ho
  have hkey : o'.id = id' := by
    rw [Owner.id, hrecord]
    exact hold
  have hlookup : (s.setOwner id' o').owner? id =
      if id = id' then (s.owner? id).map fun _ ↦ o' else s.owner? id :=
    Rows.lookup_update (fun _ _ ↦ hkey) s.owners
  rw [hlookup]
  by_cases hid : id' = id
  · subst hid
    rw [if_pos rfl, if_pos rfl, ho, Option.map_some]
  · rw [if_neg (Ne.symm hid), if_neg hid]

/-- A new owner comes first to `allowance`. -/
theorem owner?_stage {d : Delegation} {b : BudgetStore} (h : d.owner? b = some o) :
    o.stage = .allowing := by
  unfold Delegation.owner? at h
  split at h
  · split at h
    · obtain rfl := Option.some.inj h
      rfl
    · cases h
  · cases h

theorem Lives.apply (h : Lives id s) (hs : s.Sound) (hapart : s.Apart) {e : SettlementEvent}
    (he : Careful id s e) : Lives id (s.apply e) := by
  -- the owner does not move, and its delegation stays where it is
  have hstill : ∀ {s' : SettlementState}, s'.owner? id = s.owner? id →
      (∀ o, s.owner? id = some o → ∀ phase held, (phase = none ∨
          phase = some .reserveIntent ∧ (o.stage = .reserving ∨ o.stage = .marking) ∨
          phase = some .prepared ∧ held = true) →
        Stands s.stores s.passes o.record phase held →
        Stands s'.stores s'.passes o.record phase held) → Lives id s' := by
    intro s' howner hstands o ho hpos
    rw [howner] at ho
    exact (h o ho hpos).imp (hstands o ho)
  -- an owner whose child runs goes on to settle or to give up
  have hleaves : ∀ {id' : String} {o' : Owner} {stage : OwnerStage}, s.owner? id' = some o' →
      (∀ stores passes, Live stores passes (o'.goes stage)) →
      Lives id (s.setOwner id' (o'.goes stage)) := by
    intro id' o' stage ho' hlive
    by_cases hid : id' = id
    · subst hid
      intro o ho hpos
      have hself := owner?_setOwner ho' (show (o'.goes stage).record = o'.record from rfl) id'
      rw [if_pos rfl] at hself
      obtain rfl := Option.some.inj (hself.symm.trans ho)
      exact hlive _ _
    · have hother := owner?_setOwner ho' (show (o'.goes stage).record = o'.record from rfl) id
      refine hstill (hother.trans (if_neg hid)) ?_
      exact fun o ho phase held _ hstands ↦ hstands
  cases e with
  | delegate d =>
      rw [SettlementState.apply]
      split
      · next o' ho' =>
        split
        · next hunused =>
          have hlookup : SettlementState.owner? { s with owners := s.owners ++ [o'] } id =
              (s.owner? id).or (if o'.id = id then some o' else none) :=
            Rows.lookup_append id s.owners o'
          intro o ho hpos
          rw [hlookup] at ho
          cases hold : s.owner? id with
          | some x =>
              rw [hold] at ho
              obtain rfl := Option.some.inj ho
              exact h x hold hpos
          | none =>
              rw [hold, Option.none_or] at ho
              split at ho
              · obtain rfl := Option.some.inj ho
                have hstage : o'.stage = .allowing := owner?_stage ho'
                rw [Live, hstage]
                exact @stands_new s o' hs hunused
              · cases ho
        · exact h
      · exact h
  | own id' now fault =>
      rw [SettlementState.apply]
      split
      · next o' ho' =>
        have hmem' : o' ∈ s.owners := Rows.mem_of_lookup ho'
        have hrecord := (hs.own_spec hmem' now fault).1.record
        by_cases hid : id' = id
        · subst hid
          intro o ho hpos
          have hself := (owner?_setOwner ho' hrecord id').trans (if_pos rfl)
          obtain rfl := Option.some.inj (hself.symm.trans ho)
          have hpos' : 0 < o'.amount := by rwa [Owner.amount, hrecord] at hpos
          exact Owner.live_step (h o' ho' hpos') (hs.owners o' hmem') (hs.wf o' hmem') hs.budgets
            hpos'
        · refine hstill ((owner?_setOwner ho' hrecord id).trans (if_neg hid)) ?_
          intro o ho phase held _ hstands
          have hmem : o ∈ s.owners := Rows.mem_of_lookup ho
          have hne : o'.id ≠ o.id := by
            rw [show o'.id = id' from Rows.key_of_lookup ho',
              show o.id = id from Rows.key_of_lookup ho]
            exact hid
          exact stands_own hstands hs hapart hmem hmem' hne ((he o ho).2 now rfl)
      · exact h
  | finish id' =>
      rw [SettlementState.apply]
      split
      · next o' ho' =>
        split
        · exact hleaves ho' fun _ _ ↦ by trivial
        · exact h
      · exact h
  | undo id' e =>
      rw [SettlementState.apply]
      split
      · next o' ho' =>
        split
        · exact hleaves ho' fun _ _ ↦ by trivial
        · exact h
      · exact h
  | list n =>
      refine hstill rfl fun o ho phase held hphase hstands ↦ stands_list hstands (fun hsome ↦ ?_) n
      rcases hphase with rfl | ⟨-, hbetween⟩ | ⟨rfl, -⟩
      · exact absurd rfl hsome
      · cases (he o ho).1 hbetween
      · rfl
  | reconcile n now fault =>
      refine hstill rfl fun o ho phase held hphase hstands ↦ ?_
      have hmem : o ∈ s.owners := Rows.mem_of_lookup ho
      refine stands_reconcile hstands hs hapart hmem (fun hprepared ↦ ?_) ((he o ho).2 now rfl) n
      rcases hphase with rfl | ⟨rfl, -⟩ | ⟨-, hheld⟩
      · cases hprepared
      · cases hprepared
      · exact hheld
  | authority e =>
      rw [SettlementState.apply]
      split
      · exact h
      · next hnames =>
        refine hstill rfl fun o ho phase held _ hstands ↦ ?_
        have hmem : o ∈ s.owners := Rows.mem_of_lookup ho
        refine stands_authority hstands hs hmem (Bool.eq_false_iff.mpr hnames) ?_
        rintro now c rfl
        exact (he o ho).2 now rfl

theorem Lives.run (h : Lives id s) (hs : s.Sound) (hapart : s.Apart)
    {events : List SettlementEvent} (hcareful : CarefulRun id s events) :
    Lives id (s.run events) := by
  induction events generalizing s with
  | nil => exact h
  | cons e events ih =>
      obtain ⟨he, hcareful⟩ := hcareful
      exact ih (h.apply hs hapart he) (hs.apply e) (hapart.apply hs e) hcareful

/-- **A running child has its units.**  If no pass lists the records while the owner of a settlement
is between `prepare` and `mark_reserved`, and the lease of its reservation is current whenever the
clock is read, then while the child runs the settlement is `prepared` and the parent's reservation
is active with all the units that were delegated. -/
theorem running_has_units (backend : BudgetBackend) (scope id : String)
    (events : List SettlementEvent) (hcareful : CarefulRun id (empty backend scope) events) :
    let s := (empty backend scope).run events
    ∀ o, s.owner? id = some o → o.stage = .running → 0 < o.amount →
      (∃ r, s.stores.journal.record? id = some r ∧ o.record.Follows r ∧ r.status = .prepared) ∧
      ∃ x, s.stores.budgets.row o.reservation = some x ∧ x.status = .active ∧
        x.amount = o.amount ∧ x.completed = 0 := by
  intro s o ho hrunning hpos
  have hs : s.Sound := (sound_empty backend scope).run events
  have hlives : Lives id s := by
    refine Lives.run ?_ (sound_empty backend scope) ?_ hcareful
    · rintro o ⟨⟩
    · rintro o ⟨⟩
  have hstands : Stands s.stores s.passes o.record (some .prepared) true := by
    have hlive := hlives o ho hpos
    rw [Live, hrunning] at hlive
    exact hlive
  constructor
  · have hkey : Owner.id o = id := Rows.key_of_lookup ho
    obtain ⟨r, hr, hprepared⟩ := Option.map_eq_some_iff.mp hstands.record
    have hfollows := hs.same_owner (Rows.mem_of_lookup ho) (SettlementJournal.mem_of_record hr)
      (SettlementJournal.id_of_record hr)
    exact ⟨r, hkey ▸ hr, hfollows, hprepared⟩
  · exact hstands.row

/-- The owner of the four calls is on its way to its child. -/
def fourStarted : List SettlementEvent :=
  [.authority (.lease "lease" (some parentLease)), .authority (.call 0 (.configure "calls" 10)),
    .delegate fourCalls, ownNext, ownNext, ownNext]

/-- The child runs, and a pass looks at the settlement. -/
def fourRunning : List SettlementEvent :=
  fourStarted ++ [ownNext, ownNext, .list 0, .reconcile 0 0 .none, .reconcile 0 0 .none]

theorem running_has_units_four :
    let s := (empty .sqlite "run").run fourRunning
    ∃ o, s.owner? "budget-settlement:budget-handle-0" = some o ∧
      (∃ r, s.stores.journal.record? "budget-settlement:budget-handle-0" = some r ∧
        o.record.Follows r ∧ r.status = .prepared) ∧
      ∃ x, s.stores.budgets.row o.reservation = some x ∧ x.status = .active ∧
        x.amount = o.amount ∧ x.completed = 0 := by
  have hcareful : CarefulRun "budget-settlement:budget-handle-0" (empty .sqlite "run")
      fourRunning := by decide +kernel
  have howner : (((empty .sqlite "run").run fourRunning).owner?
      "budget-settlement:budget-handle-0").map (fun o ↦ (o.stage, decide (0 < o.amount))) =
        some (.running, true) := by decide +kernel
  obtain ⟨o, ho, hstands⟩ := Option.map_eq_some_iff.mp howner
  obtain ⟨hrunning, hpos⟩ := Prod.mk.inj hstands
  exact ⟨o, ho, running_has_units .sqlite "run" _ fourRunning hcareful o ho hrunning
    (of_decide_eq_true hpos)⟩

/-- A pass that has listed the intent cancels the reservation of the running child. -/
example :
    let s := (empty .sqlite "run").run (fourStarted ++ [.list 0, ownNext, ownNext,
      .reconcile 0 0 .none, .reconcile 0 0 .none, .reconcile 0 0 .none])
    (s.owner? "budget-settlement:budget-handle-0").map (·.stage) = some .running ∧
      (s.stores.budgets.row "budget-parent-1").map (·.status) = some .cancelled := by
  decide +kernel

end SettlementState

end Blackbase.Project.Settlement
