import Blackbase.Project.Delegation.Bounds
import Blackbase.Project.Settlement.Model
import Blackbase.Resources.Account.Reissue

/-!
# The steps of the settlement protocol

What one step of an owner or of a pass does to the authority and to the journal.  Every step makes
at most one call, on the reservation it works for or on none (`Reaches`), and writes at most one
mark.
`Owner.Ok` and `Pass.Ok` say what an owner and a pass know where they stand; the steps keep them.
-/

namespace Blackbase.Project.Settlement

open Blackbase.Resources

/-! ## What happens to a reservation -/

/-- The authority after a step that works for the reservation `id`. -/
def Reaches (now : Time) (id : String) (b b' : BudgetStore) : Prop :=
  b' = b ∨ ∃ c : BudgetCall, (∀ id', c.target = some id' → id' = id) ∧ b' = (b.exec now c).2

/-- The reservation is completed with `n` units. -/
def Completed (b : BudgetStore) (id : String) (n : ℤ) : Prop :=
  ∃ r, b.row id = some r ∧ r.status = .completed ∧ r.completed = n

section Reaches

variable {now : Time} {id id' : String} {b b' : BudgetStore} {n : ℤ} {c : BudgetCall}

theorem Reaches.refl (now : Time) (id : String) (b : BudgetStore) : Reaches now id b b := .inl rfl

theorem Reaches.exec (b : BudgetStore) (hc : ∀ id', c.target = some id' → id' = id) :
    Reaches now id b (b.exec now c).2 := .inr ⟨c, hc, rfl⟩

theorem Reaches.sound (h : Reaches now id b b') (hb : b.Sound) : b'.Sound := by
  rcases h with rfl | ⟨c, -, rfl⟩
  · exact hb
  · exact hb.exec now c

/-- The reservations that are closed stay as they are. -/
def Retains (b b' : BudgetStore) : Prop :=
  ∀ id r, b.row id = some r → r.status ≠ .active → b'.row id = some r

theorem Retains.refl (b : BudgetStore) : Retains b b := fun _ _ h _ ↦ h

theorem Retains.trans {b'' : BudgetStore} (h : Retains b b') (h' : Retains b' b'') :
    Retains b b'' := fun id r hr hclosed ↦ h' id r (h id r hr hclosed) hclosed

theorem Retains.completed (h : Retains b b') (hn : Completed b id n) : Completed b' id n := by
  obtain ⟨r, hr, hstatus, hn⟩ := hn
  exact ⟨r, h id r hr (by rw [hstatus]; exact fun h ↦ nomatch h), hstatus, hn⟩

theorem retains_apply (hb : b.Sound) (e : BudgetEvent) : Retains b (b.apply e) := by
  intro id r hr hclosed
  obtain ⟨r', hr', hevolves⟩ := hb.apply_evolves e hr
  obtain rfl := hevolves.frozen hclosed
  exact hr'

theorem Reaches.retains (h : Reaches now id b b') (hb : b.Sound) : Retains b b' := by
  rcases h with rfl | ⟨c, -, rfl⟩
  · exact .refl b'
  · exact retains_apply hb (.call now c)

/-- The other reservations are left alone, up to the reclamation. -/
theorem Reaches.row (h : Reaches now id b b') (hb : b.Sound) (hid : id' ≠ id) :
    BudgetTables.Swept b.view now (b.row id') (b'.row id') := by
  rcases h with rfl | ⟨c, hc, rfl⟩
  · exact .inl rfl
  · exact hb.exec_row now fun htarget ↦ hid (hc id' htarget)

end Reaches

/-! ## Calls -/

section Calls

variable {s : Stores} {now : Time} {fault : Fault}

/-- A call that goes through has not been hit. -/
theorem Fault.strike_ok {α σ : Type} {s : σ} {res : Except SettlementFailure α × σ} {a : α}
    (h : (fault.strike s res).1 = .ok a) : fault.strike s res = res := by
  cases fault with
  | none => rfl
  | before errorType message => cases h
  | after errorType message => cases h

theorem of_mapError_ok {ε ε' α : Type} {f : ε → ε'} {x : Except ε α} {a : α}
    (h : x.mapError f = .ok a) : x = .ok a := by
  cases x with
  | error e => cases h
  | ok a' => exact congrArg Except.ok (Except.ok.inj h)

/-- A call has its effect or none. -/
theorem Fault.strike_snd {α σ : Type} (fault : Fault) (s : σ)
    (res : Except SettlementFailure α × σ) :
    (fault.strike s res).2 = s ∨ (fault.strike s res).2 = res.2 := by
  cases fault with
  | none => exact .inr rfl
  | before errorType message => exact .inl rfl
  | after errorType message => exact .inr rfl

theorem callBudgets_snd (s : Stores) (now : Time) (fault : Fault) (c : BudgetCall) :
    (callBudgets s now fault c).2 = s ∨
      (callBudgets s now fault c).2 = { s with budgets := (s.budgets.exec now c).2 } :=
  fault.strike_snd s _

theorem callBudgets_ok {c : BudgetCall} {reply : BudgetReply}
    (h : (callBudgets s now fault c).1 = .ok reply) :
    (s.budgets.exec now c).1 = .ok reply ∧
      (callBudgets s now fault c).2 = { s with budgets := (s.budgets.exec now c).2 } := by
  have hres := Fault.strike_ok h
  refine ⟨?_, congrArg Prod.snd hres⟩
  rw [callBudgets, hres] at h
  exact of_mapError_ok h

theorem callMark_snd (s : Stores) (now : Time) (fault : Fault) (id : String) (m : Mark) :
    (callMark s now fault id m).2 = s ∨
      (callMark s now fault id m).2 = { s with journal := (s.journal.transition now id m).2 } :=
  fault.strike_snd s _

theorem callMark_ok {id : String} {m : Mark} {r : Record}
    (h : (callMark s now fault id m).1 = .ok r) :
    (callMark s now fault id m).2 = { s with journal := (s.journal.transition now id m).2 } :=
  congrArg Prod.snd (Fault.strike_ok h)

theorem callPrepare_snd (s : Stores) (fault : Fault) (r : Record) :
    (callPrepare s fault r).2 = s ∨
      (callPrepare s fault r).2 = { s with journal := (s.journal.prepare r).2 } :=
  fault.strike_snd s _

theorem callPrepare_ok {r r' : Record} (h : (callPrepare s fault r).1 = .ok r') :
    (s.journal.prepare r).1 = .ok r' ∧
      (callPrepare s fault r).2 = { s with journal := (s.journal.prepare r).2 } := by
  have hres := Fault.strike_ok h
  refine ⟨?_, congrArg Prod.snd hres⟩
  rw [callPrepare, hres] at h
  exact of_mapError_ok h

theorem callAccount_snd {α : Type} (s : Stores) (fault : Fault) (a : BudgetAccount)
    (f : BudgetAccount → Except AccountError α × BudgetAccount) :
    (callAccount s fault a f).2 = s ∨ (callAccount s fault a f).2 =
      { s with budgets := (f (a.attach s.budgets)).2.authority.getD s.budgets } :=
  fault.strike_snd s _

theorem callAccount_ok {α : Type} {a a' : BudgetAccount} {x : α}
    {f : BudgetAccount → Except AccountError α × BudgetAccount}
    (h : (callAccount s fault a f).1 = .ok (x, a')) :
    f (a.attach s.budgets) = (.ok x, a') ∧
      (callAccount s fault a f).2 = { s with budgets := a'.authority.getD s.budgets } := by
  have hres := Fault.strike_ok h
  have hsnd := congrArg Prod.snd hres
  rw [callAccount, hres] at h
  cases hf : (f (a.attach s.budgets)).1 with
  | error e =>
      rw [hf] at h
      cases h
  | ok x' =>
      rw [hf] at h
      obtain ⟨rfl, hacc⟩ := Prod.mk.inj (Except.ok.inj h)
      refine ⟨Prod.ext hf hacc, ?_⟩
      rw [← hacc]
      exact hsnd

end Calls

/-! ## The usage of a handle -/

/-- The units the parent is charged for, within the handle. -/
def Within (h : BudgetHandle Unit) (u : BudgetUsage) : Prop :=
  0 ≤ u.chargedToParent ∧ u.chargedToParent ≤ h.limit

/-- An authority counts no negative units. -/
theorem snapshot_nonneg {b : BudgetStore} (hb : b.Sound) {now : Time} {budget : String}
    {reply : BudgetReply} {snapshot : BudgetSnapshot}
    (h : (b.exec now (.status budget)).1 = .ok reply) (hs : reply.snapshot? = some snapshot) :
    0 ≤ snapshot.committed + snapshot.reserved := by
  rw [(hb.executes now _).outcome] at h
  rcases b.view.status_spec now budget with ⟨⟨e, he⟩, -⟩ | ⟨name, row, -, hrow, hok, -⟩
  · cases he.symm.trans h
  · obtain rfl := Except.ok.inj (hok.symm.trans h)
    obtain rfl := Option.some.inj hs
    have hswept := hb.tables.reclaimStale now
    have hexposure : 0 ≤ row.committedAmount + (b.view.reclaimStale now).reserved name := by
      rw [← hswept.exposure_eq hrow]
      refine Quota.total_nonneg fun r hr ↦ ?_
      have hv := hswept.valid r hr
      exact hv.nonneg.trans hv.used_le_exposure
    exact hexposure

/-- `_budget_usage_for_handle` asks the authority of the handle for its status. -/
theorem usage_spec (b : BudgetStore) (now : Time) (h : BudgetHandle Unit) :
    ((budgetUsageForHandle (fun _ ↦ b) now h).2 () = b ∨
      (budgetUsageForHandle (fun _ ↦ b) now h).2 () =
        (b.exec now (.status h.authorityBudget)).2) ∧
    (b.Sound → ∀ u, (budgetUsageForHandle (fun _ ↦ b) now h).1 = .ok u → Within h u) ∧
    (∀ reply, (b.exec now (.status h.authorityBudget)).1 = .ok reply →
      ∃ u, (budgetUsageForHandle (fun _ ↦ b) now h).1 = .ok u) := by
  have hwithin : ∀ n : ℤ, 0 ≤ n → 0 ≤ min h.limit n ∧ min h.limit n ≤ h.limit := fun n hn ↦
    ⟨le_min h.limit_nonneg hn, min_le_left _ _⟩
  unfold budgetUsageForHandle
  cases h.authority with
  | none =>
      refine ⟨.inl rfl, fun _ u hu ↦ ?_, fun reply _ ↦ ⟨_, rfl⟩⟩
      obtain rfl := Except.ok.inj hu
      exact hwithin _ (le_refl 0)
  | some d =>
      dsimp only
      cases hexec : b.exec now (.status h.authorityBudget) with
      | mk out store =>
          cases out with
          | error e =>
              exact ⟨.inr rfl, fun _ u hu ↦ (nomatch hu), fun reply hreply ↦ nomatch hreply⟩
          | ok reply =>
              refine ⟨.inr rfl, fun hb u hu ↦ ?_, fun reply' _ ↦ ⟨_, rfl⟩⟩
              obtain rfl := Except.ok.inj hu
              cases hsnapshot : reply.snapshot? with
              | none => exact hwithin _ (le_refl 0)
              | some snapshot =>
                  exact hwithin _ (snapshot_nonneg hb (congrArg Prod.fst hexec) hsnapshot)

section Measure

variable {s : Stores} {now : Time} {fault : Fault} {h : BudgetHandle Unit}

theorem measure_reaches (s : Stores) (now : Time) (fault : Fault) (h : BudgetHandle Unit)
    (id : String) :
    (measure s now fault h).2.journal = s.journal ∧
      Reaches now id s.budgets (measure s now fault h).2.budgets := by
  rw [measure]
  rcases fault.strike_snd s _ with hstrike | hstrike
  · rw [hstrike]
    exact ⟨rfl, .refl now id s.budgets⟩
  · rw [hstrike]
    refine ⟨rfl, ?_⟩
    rcases (usage_spec s.budgets now h).1 with husage | husage
    · exact .inl husage
    · refine .inr ⟨.status h.authorityBudget, ?_, husage⟩
      rintro id' ⟨⟩

theorem measure_within (hs : s.budgets.Sound) {u : BudgetUsage}
    (hu : (measure s now fault h).1 = .ok u) : Within h u := by
  rw [measure] at hu
  rw [Fault.strike_ok hu] at hu
  exact (usage_spec s.budgets now h).2.1 hs u (of_mapError_ok hu)

end Measure

/-! ## The parent's account -/

/-- The account holds one open claim, on the reservation `id`. -/
structure Claimed (a : BudgetAccount) (id : String) (amount consumed : ℤ) (claim : BudgetClaim) :
    Prop where
  holds : a.Holds claim
  active : claim.active = true
  amount_eq : claim.amount = amount
  consumed_eq : claim.consumed = consumed
  shared : ∃ r, claim.shared = some r ∧ r.reservationId = id

/-- The account after `reserve`: no claim is opened for no units. -/
def Opened (a : BudgetAccount) (id : String) (amount consumed : ℤ) : Prop :=
  amount = 0 ∧ (∃ claim, a.Holds claim ∧ claim.active = false) ∨
    0 < amount ∧ ∃ claim, Claimed a id amount consumed claim

section Account

variable {a a' : BudgetAccount} {b : BudgetStore} {now : Time} {id : String}
  {amount consumed n : ℤ} {claim : BudgetClaim}

theorem Claimed.attach (h : Claimed a id amount consumed claim) (b : BudgetStore) :
    Claimed (a.attach b) id amount consumed claim :=
  ⟨h.holds.attach b, h.active, h.amount_eq, h.consumed_eq, h.shared⟩

/-- `allowance` asks for the status of the parent's budget, and leaves the account as it is. -/
theorem allowance_spec (a : BudgetAccount) (b : BudgetStore) (now : Time) (requested : ℤ) :
    ((a.attach b).allowance now requested none).2 = a.attach b ∨
      ((a.attach b).allowance now requested none).2 =
        a.attach (b.exec now (.status a.authorityBudget)).2 := by
  unfold BudgetAccount.allowance
  split
  · exact .inl rfl
  split
  · exact .inl rfl
  dsimp only [BudgetAccount.attach]
  split
  · next e store heq => exact .inr (by rw [heq])
  · next reply store heq => exact .inr (by rw [heq])

/-- Reserving on a fresh account: nothing for no units, or one call. -/
theorem reserve_spec (now : Time) (ha : a.Fresh) (hb : b.Sound) (hid : id ≠ "")
    (hstrip : Text.strip id = id) (hnonneg : 0 ≤ amount) (hlimit : ∀ l ∈ a.limit, amount ≤ l) :
    (amount = 0 ∧ ∃ x a', (a.attach b).reserve now amount (some id) "" = (.ok x, a') ∧
        a'.authority = some b ∧ Opened a' id amount 0) ∨
      0 < amount ∧
        let c := BudgetCall.reserve a.authorityBudget amount a.leaseId a.fencingToken (some id) ""
        ((∃ reply x a', (b.exec now c).1 = .ok reply ∧
            (a.attach b).reserve now amount (some id) "" = (.ok x, a') ∧
            a'.authority = some (b.exec now c).2 ∧ Opened a' id amount 0) ∨
          ∃ e a', (b.exec now c).1 = .error e ∧
            (a.attach b).reserve now amount (some id) "" = (.error (.authority e), a') ∧
            a'.authority = some (b.exec now c).2) := by
  have hfresh := ha.attach b
  rcases hnonneg.eq_or_lt with rfl | hpos
  · refine .inl ⟨rfl, _, _, hfresh.reserve_zero hid hstrip, rfl, .inl ⟨rfl, _, ⟨rfl, rfl, ?_⟩, rfl⟩⟩
    rintro ⟨⟩
  · refine .inr ⟨hpos, ?_⟩
    intro c
    cases hexec : (b.exec now c).1 with
    | error e =>
        exact .inr ⟨e, _, rfl, hfresh.reserve_error hpos hlimit rfl hexec, rfl⟩
    | ok reply =>
        obtain ⟨r, rfl, hr, -⟩ := hb.reserve_reply hexec
        have hr : r.reservationId = id := hr.trans (if_neg hid)
        refine .inl ⟨_, _, _, rfl, hfresh.reserve_ok hpos hlimit hid hstrip rfl hr hexec, rfl,
          .inr ⟨hpos, _, ⟨rfl, rfl, fun _ ↦ rfl⟩, rfl, rfl, rfl, _, rfl, hr⟩⟩

theorem Claimed.consume_spec (now : Time) (h : Claimed a id amount consumed claim) (hb : b.Sound)
    (hid : id ≠ "") (hpos : 0 < n) (hle : consumed + n ≤ amount) :
    (∃ reply a', (b.exec now (.consume id n)).1 = .ok reply ∧
        (a.attach b).consume now 0 n = (.ok .done, a') ∧
        a'.authority = some (b.exec now (.consume id n)).2 ∧
        ∃ claim', Claimed a' id amount (consumed + n) claim') ∨
      ∃ e a', (b.exec now (.consume id n)).1 = .error e ∧
        (a.attach b).consume now 0 n = (.error (.authority e), a') ∧
        a'.authority = some (b.exec now (.consume id n)).2 := by
  obtain ⟨r, hshared, hr⟩ := h.shared
  have hattach := h.attach b
  have hremaining : n ≤ claim.remaining := by
    rw [BudgetClaim.remaining, h.amount_eq, h.consumed_eq]
    omega
  subst hr
  cases hexec : (b.exec now (.consume r.reservationId n)).1 with
  | error e =>
      exact .inr ⟨e, _, rfl, hattach.holds.consume_error h.active hshared rfl hpos hremaining hexec,
        rfl⟩
  | ok reply =>
      obtain ⟨r', rfl, hr'⟩ := hb.consume_reply hid hpos hexec
      refine .inl ⟨_, _, rfl, hattach.holds.consume_ok h.active hshared rfl hpos hremaining hexec,
        rfl, { claim with shared := some r', consumed := claim.consumed + n }, ?_⟩
      exact
        { holds := ⟨hattach.holds.ref, rfl, fun _ ↦ hattach.holds.claims h.active⟩
          active := h.active
          amount_eq := h.amount_eq
          consumed_eq := congrArg (· + n) h.consumed_eq
          shared := ⟨r', rfl, hr'⟩ }

theorem Claimed.complete_spec (now : Time) (h : Claimed a id amount consumed claim) (hb : b.Sound)
    (hid : id ≠ "") (hnonneg : 0 ≤ consumed) :
    (∃ reply a', (b.exec now (.complete id consumed)).1 = .ok reply ∧
        (a.attach b).complete now 0 = (.ok .done, a') ∧
        a'.authority = some (b.exec now (.complete id consumed)).2) ∨
      ∃ e a', (b.exec now (.complete id consumed)).1 = .error e ∧
        (a.attach b).complete now 0 = (.error (.authority e), a') ∧
        a'.authority = some (b.exec now (.complete id consumed)).2 := by
  obtain ⟨r, hshared, hr⟩ := h.shared
  have hattach := h.attach b
  obtain rfl := h.consumed_eq
  subst hr
  cases hexec : (b.exec now (.complete r.reservationId claim.consumed)).1 with
  | error e => exact .inr ⟨e, _, rfl, hattach.holds.complete_error h.active hshared rfl hexec, rfl⟩
  | ok reply =>
      obtain ⟨r', rfl, -⟩ := hb.complete_reply hid hnonneg hexec
      exact .inl ⟨_, _, rfl, hattach.holds.complete_ok h.active hshared rfl hexec, rfl⟩

theorem Opened.cancel_spec (now : Time) (h : Opened a id amount consumed) (hb : b.Sound)
    (hid : id ≠ "") :
    ∃ x, ((a.attach b).cancel now 0).1 = .ok x ∧
      (((a.attach b).cancel now 0).2.authority = some b ∨
        ((a.attach b).cancel now 0).2.authority = some (b.exec now (.cancel id)).2) := by
  rcases h with ⟨-, claim, hholds, hclosed⟩ | ⟨-, claim, hclaimed⟩
  · rw [(hholds.attach b).cancel_closed hclosed]
    exact ⟨_, rfl, .inl rfl⟩
  · obtain ⟨r, hshared, hr⟩ := hclaimed.shared
    subst hr
    obtain ⟨⟨flag, hok⟩, -⟩ := @BudgetStore.Sound.cancel_row b now hb r.reservationId hid
    rw [(hclaimed.attach b).holds.cancel_ok hclaimed.active hshared rfl hok]
    exact ⟨_, rfl, .inr rfl⟩

/-- A claim is completed with what has been consumed of it. -/
theorem completed_of_complete (hb : b.Sound) (hid : id ≠ "") (hnonneg : 0 ≤ n)
    {reply : BudgetReply} (h : (b.exec now (.complete id n)).1 = .ok reply) :
    Completed (b.exec now (.complete id n)).2 id n := by
  rcases @BudgetStore.Sound.complete_row b now hb id hid n hnonneg with
    ⟨r, -, hstatus, hn, -, hrow⟩ | ⟨r, -, -, -, -, -, -, hrow⟩ | ⟨e, he, -⟩
  · exact ⟨r, hrow, hstatus, hn⟩
  · exact ⟨_, hrow, rfl, rfl⟩
  · cases he.symm.trans h

end Account

/-! ## The steps of an owner -/

namespace Owner

/-- What an owner is made with. -/
structure Wf (o : Owner) : Prop where
  reservation_ne : o.reservation ≠ ""
  reservation_strip : Text.strip o.reservation = o.reservation
  amount_eq : o.amount = o.record.childHandle.limit
  status : o.record.status = .reserveIntent

theorem Wf.amount_nonneg {o : Owner} (ho : o.Wf) : 0 ≤ o.amount :=
  ho.amount_eq ▸ o.record.childHandle.limit_nonneg

/-- What an owner at a stage knows of its account, and of the authority. -/
def OkAt (b : BudgetStore) (r : Record) (a : BudgetAccount) : OwnerStage → Prop
  | .allowing => a.Fresh
  | .configuring | .preparing | .reserving =>
      a.Fresh ∧ ∀ l ∈ a.limit, r.requestedAmount ≤ l
  | .marking | .running | .measuring | .cancelling _ =>
      Opened a r.parentReservationId r.requestedAmount 0
  | .readying u | .consuming u =>
      Opened a r.parentReservationId r.requestedAmount 0 ∧ Within r.childHandle u
  | .completing u =>
      (∃ claim, Claimed a r.parentReservationId r.requestedAmount u.chargedToParent claim) ∧
        Within r.childHandle u
  | .settling u =>
      Within r.childHandle u ∧
        (0 < r.requestedAmount → Completed b r.parentReservationId u.chargedToParent)
  | .retrying _ _ | .reclaiming _ | .settled | .failed _ => True

/-- What an owner knows where it stands. -/
def Ok (b : BudgetStore) (o : Owner) : Prop := OkAt b o.record o.account o.stage

/-- The mark an owner writes at a stage. -/
def markAt (r : Record) : OwnerStage → Option Mark
  | .marking => some .reserved
  | .readying u => some (.ready (.measured u))
  | .settling u => some (.settled (.settled u))
  | .retrying u e => some (.retry e (some (.retry r.childHandle u e)))
  | .reclaiming e => some (.reclaimed e none)
  | _ => none

/-- The mark an owner writes where it stands. -/
def mark? (o : Owner) : Option Mark := markAt o.record o.stage

/-- What a step of an owner does. -/
structure StepOk (now : Time) (s : Stores) (o : Owner) (res : Owner × Stores) : Prop where
  record : res.1.record = o.record
  ok : res.1.Ok res.2.budgets
  reaches : Reaches now o.reservation s.budgets res.2.budgets
  journal : res.2.journal = s.journal ∨
    o.stage = .preparing ∧ res.2.journal = (s.journal.prepare o.record).2 ∨
    ∃ m, o.mark? = some m ∧ res.2.journal = (s.journal.transition now o.id m).2

variable {o : Owner} {s : Stores} {now : Time} {fault : Fault}

/-- What an owner knows of the authority stays true. -/
theorem Ok.keeps {b b' : BudgetStore} (h : o.Ok b)
    (hkeeps : Retains b b') : o.Ok b' := by
  unfold Ok at h ⊢
  generalize o.stage = stage at h ⊢
  cases stage with
  | settling u => exact ⟨h.1, fun hpos ↦ hkeeps.completed (h.2 hpos)⟩
  | _ => exact h

theorem stepOk_stay (ho : o.Ok s.budgets) : StepOk now s o (o, s) :=
  ⟨rfl, ho, .refl now o.reservation s.budgets, .inl rfl⟩

/-- A step that only moves on. -/
theorem stepOk_goes {stage : OwnerStage} (ho : (o.goes stage).Ok s.budgets) :
    StepOk now s o (o.goes stage, s) :=
  ⟨rfl, ho, .refl now o.reservation s.budgets, .inl rfl⟩

section Handler

variable {handler : SettlementFailure → OwnerStage}
  (hhandler : ∀ e b, (o.goes (handler e)).Ok b)
include hhandler

/-- A step that writes a mark. -/
theorem stepOk_mark {m : Mark} (hm : o.mark? = some m) {next : Record → OwnerStage}
    (hnext : ∀ r, (o.goes (next r)).Ok s.budgets) :
    StepOk now s o (o.after next handler (callMark s now fault o.id m)) := by
  cases hres : callMark s now fault o.id m with
  | mk out s' =>
      have hsnd := callMark_snd s now fault o.id m
      rw [hres] at hsnd
      have hbudgets : s'.budgets = s.budgets := by
        rcases hsnd with rfl | rfl <;> rfl
      have hjournal : s'.journal = s.journal ∨
          o.stage = .preparing ∧ s'.journal = (s.journal.prepare o.record).2 ∨
          ∃ m, o.mark? = some m ∧ s'.journal = (s.journal.transition now o.id m).2 := by
        rcases hsnd with rfl | rfl
        · exact .inl rfl
        · exact .inr (.inr ⟨m, hm, rfl⟩)
      cases out with
      | error e => exact ⟨rfl, hhandler e _, .inl hbudgets, hjournal⟩
      | ok r =>
          refine ⟨rfl, ?_, .inl hbudgets, hjournal⟩
          show (o.goes (next r)).Ok s'.budgets
          rw [hbudgets]
          exact hnext r

/-- A step that calls the authority. -/
theorem stepOk_budgets {c : BudgetCall} (hc : ∀ id', c.target = some id' → id' = o.reservation)
    {next : BudgetReply → OwnerStage}
    (hnext : ∀ reply, (o.goes (next reply)).Ok (s.budgets.exec now c).2) :
    StepOk now s o (o.after next handler (callBudgets s now fault c)) := by
  cases hres : callBudgets s now fault c with
  | mk out s' =>
      have hsnd := callBudgets_snd s now fault c
      rw [hres] at hsnd
      have hreaches : Reaches now o.reservation s.budgets s'.budgets := by
        rcases hsnd with rfl | rfl
        · exact .refl now o.reservation s'.budgets
        · exact .exec s.budgets hc
      have hjournal : s'.journal = s.journal := by
        rcases hsnd with rfl | rfl <;> rfl
      cases out with
      | error e => exact ⟨rfl, hhandler e _, hreaches, .inl hjournal⟩
      | ok reply =>
          obtain ⟨-, hs⟩ := callBudgets_ok (congrArg Prod.fst hres)
          rw [hres] at hs
          obtain rfl : s' = _ := hs
          exact ⟨rfl, hnext reply, hreaches, .inl rfl⟩

/-- A step that calls the account. -/
theorem stepOk_account {α : Type} {f : BudgetAccount → Except AccountError α × BudgetAccount}
    (hreaches : Reaches now o.reservation s.budgets
      ((f (o.account.attach s.budgets)).2.authority.getD s.budgets))
    {next : α → OwnerStage}
    (hnext : ∀ x a', f (o.account.attach s.budgets) = (.ok x, a') →
      Ok (a'.authority.getD s.budgets) { o with account := a', stage := next x }) :
    StepOk now s o (o.afterAccount next handler (callAccount s fault o.account f)) := by
  cases hres : callAccount s fault o.account f with
  | mk out s' =>
      have hsnd := callAccount_snd s fault o.account f
      rw [hres] at hsnd
      have hreaches : Reaches now o.reservation s.budgets s'.budgets := by
        rcases hsnd with rfl | rfl
        · exact .refl now o.reservation s'.budgets
        · exact hreaches
      have hjournal : s'.journal = s.journal := by
        rcases hsnd with rfl | rfl <;> rfl
      cases out with
      | error e => exact ⟨rfl, hhandler e _, hreaches, .inl hjournal⟩
      | ok reply =>
          obtain ⟨x, a'⟩ := reply
          obtain ⟨hf, hs⟩ := callAccount_ok (congrArg Prod.fst hres)
          rw [hres] at hs
          obtain rfl : s' = _ := hs
          exact ⟨rfl, hnext x a' hf, hreaches, .inl rfl⟩

end Handler

theorem reserves_target {budget leaseId id id' : String} {amount fencingToken : ℤ} (hid : id ≠ "")
    (h : (BudgetCall.reserve budget amount leaseId fencingToken (some id) "").target = some id') :
    id' = id :=
  (Option.some.inj h).symm.trans (if_neg hid)

/-- Every step of an owner is in order. -/
theorem step_ok (now : Time) (fault : Fault) (ho : o.Ok s.budgets) (hwf : o.Wf)
    (hs : s.budgets.Sound) : StepOk now s o (o.step now fault s) := by
  obtain ⟨r, a, stage⟩ := o
  have hid : r.parentReservationId ≠ "" := hwf.reservation_ne
  have hnonneg : 0 ≤ r.requestedAmount := hwf.amount_nonneg
  cases stage with
  | allowing =>
      have ho : a.Fresh := ho
      have hspec := allowance_spec a s.budgets now r.requestedAmount
      refine stepOk_account (fun _ _ ↦ by trivial) ?_ ?_
      · show Reaches now _ s.budgets
          (((a.attach s.budgets).allowance now r.requestedAmount none).2.authority.getD s.budgets)
        rcases hspec with h | h
        · rw [h]
          exact .refl now _ s.budgets
        · rw [h]
          refine .exec s.budgets ?_
          rintro id' ⟨⟩
      · intro allowed a' hf
        have hf : (a.attach s.budgets).allowance now r.requestedAmount none = (.ok allowed, a') :=
          hf
        have hfresh : a'.Fresh ∧ a'.limit = a.limit := by
          rw [hf] at hspec
          rcases hspec with h | h <;> obtain rfl : a' = _ := h
          · exact ⟨ho.attach _, rfl⟩
          · exact ⟨ho.attach _, rfl⟩
        show OkAt _ r a' (if allowed < r.requestedAmount then _ else .configuring)
        split
        · trivial
        · next hle =>
          refine ⟨hfresh.1, fun l hl ↦ (not_lt.mp hle).trans ?_⟩
          exact allowance_le (ho.attach _) (hfresh.2.symm.trans hl) hf
  | configuring =>
      refine stepOk_budgets (fun _ _ ↦ by trivial) ?_ fun reply ↦ ho
      rintro id' ⟨⟩
  | preparing =>
      have hsnd := callPrepare_snd s fault r
      show StepOk now s _ (after _ _ _ (callPrepare s fault r))
      cases hres : callPrepare s fault r with
      | mk out s' =>
          rw [hres] at hsnd
          have hbudgets : s'.budgets = s.budgets := by
            rcases hsnd with rfl | rfl <;> rfl
          have hjournal : s'.journal = s.journal ∨ s'.journal = (s.journal.prepare r).2 := by
            rcases hsnd with rfl | rfl
            · exact .inl rfl
            · exact .inr rfl
          cases out with
          | error e =>
              exact ⟨rfl, trivial, .inl hbudgets, hjournal.imp_right fun h ↦ .inl ⟨rfl, h⟩⟩
          | ok r' => exact ⟨rfl, ho, .inl hbudgets, hjournal.imp_right fun h ↦ .inl ⟨rfl, h⟩⟩
  | reserving =>
      obtain ⟨hfresh, hlimit⟩ : a.Fresh ∧ ∀ l ∈ a.limit, r.requestedAmount ≤ l := ho
      have hstrip : Text.strip r.parentReservationId = r.parentReservationId :=
        hwf.reservation_strip
      have hspec := reserve_spec now hfresh hs hid hstrip hnonneg hlimit
      refine stepOk_account (fun _ _ ↦ by trivial) ?_ ?_
      · show Reaches now _ s.budgets (((a.attach s.budgets).reserve now r.requestedAmount
          (some r.parentReservationId) "").2.authority.getD s.budgets)
        rcases hspec with ⟨-, x, a', hres, hstore, -⟩ |
          ⟨-, ⟨reply, x, a', -, hres, hstore, -⟩ | ⟨e, a', -, hres, hstore⟩⟩
        · rw [hres, hstore]
          exact .refl now _ s.budgets
        · rw [hres, hstore]
          exact .exec s.budgets fun id' hid' ↦ reserves_target hid hid'
        · rw [hres, hstore]
          exact .exec s.budgets fun id' hid' ↦ reserves_target hid hid'
      · intro x a' hf
        have hf : (a.attach s.budgets).reserve now r.requestedAmount
          (some r.parentReservationId) "" = (.ok x, a') := hf
        rcases hspec with ⟨-, x', a'', hres, -, hopened⟩ |
          ⟨-, ⟨reply, x', a'', -, hres, -, hopened⟩ | ⟨e, a'', -, hres, -⟩⟩
        · obtain ⟨-, rfl⟩ := Prod.mk.inj (hres.symm.trans hf)
          exact hopened
        · obtain ⟨-, rfl⟩ := Prod.mk.inj (hres.symm.trans hf)
          exact hopened
        · cases hres.symm.trans hf
  | marking => exact stepOk_mark (fun e b ↦ by exact ho) rfl fun r ↦ ho
  | running => exact stepOk_stay ho
  | measuring =>
      obtain ⟨hjournal, hreaches⟩ := measure_reaches s now fault r.childHandle r.parentReservationId
      show StepOk now s _ (after _ _ _ (measure s now fault r.childHandle))
      cases hres : measure s now fault r.childHandle with
      | mk out s' =>
          rw [hres] at hjournal hreaches
          cases out with
          | error e => exact ⟨rfl, trivial, hreaches, .inl hjournal⟩
          | ok u =>
              have hwithin := measure_within hs (congrArg Prod.fst hres)
              exact ⟨rfl, ⟨ho, hwithin⟩, hreaches, .inl hjournal⟩
  | readying u => exact stepOk_mark (fun _ _ ↦ by trivial) rfl fun r ↦ ho
  | consuming u =>
      obtain ⟨hopened, hwithin⟩ := ho
      have hlimit : u.chargedToParent ≤ r.requestedAmount :=
        hwithin.2.trans hwf.amount_eq.symm.le
      rcases hopened with ⟨hzero, claim, hholds, hclosed⟩ | ⟨hpos, claim, hclaimed⟩
      · have hstep : step now fault s ⟨r, a, .consuming u⟩ =
            (goes ⟨r, a, .consuming u⟩ (.settling u), s) := by
          simp only [step, hholds.object, Option.any_some, hclosed]
          rfl
        rw [hstep]
        exact stepOk_goes ⟨hwithin, fun hpos ↦ absurd hzero hpos.ne'⟩
      · have hstep : step now fault s ⟨r, a, .consuming u⟩ =
            if max 0 u.chargedToParent = 0 then (goes ⟨r, a, .consuming u⟩ (.completing u), s)
            else afterAccount ⟨r, a, .consuming u⟩ (fun _ ↦ .completing u) (.retrying (some u))
              (callAccount s fault a (·.consume now 0 (max 0 u.chargedToParent))) := by
          simp only [step, hclaimed.holds.object, Option.any_some, hclaimed.active,
            Option.map_some, Option.getD_some, hclaimed.consumed_eq, sub_zero]
          rfl
        rw [hstep, max_eq_right hwithin.1]
        split
        · next hnone =>
          refine stepOk_goes ⟨⟨claim, ?_⟩, hwithin⟩
          rw [hnone]
          exact hclaimed
        · next hsome =>
          have hcharge : 0 < u.chargedToParent := lt_of_le_of_ne hwithin.1 (Ne.symm hsome)
          have hspec := hclaimed.consume_spec now hs hid hcharge
            ((zero_add _).trans_le hlimit)
          refine stepOk_account (fun _ _ ↦ by trivial) ?_ ?_
          · show Reaches now _ s.budgets (((a.attach s.budgets).consume now 0
              u.chargedToParent).2.authority.getD s.budgets)
            rcases hspec with ⟨reply, a', -, hres, hstore, -⟩ | ⟨e, a', -, hres, hstore⟩
            · rw [hres, hstore]
              exact .exec s.budgets fun id' hid' ↦ (Option.some.inj hid').symm
            · rw [hres, hstore]
              exact .exec s.budgets fun id' hid' ↦ (Option.some.inj hid').symm
          · intro x a' hf
            have hf : (a.attach s.budgets).consume now 0 u.chargedToParent = (.ok x, a') := hf
            rcases hspec with ⟨reply, a'', -, hres, -, hclaim⟩ | ⟨e, a'', -, hres, -⟩
            · obtain ⟨-, rfl⟩ := Prod.mk.inj (hres.symm.trans hf)
              rw [zero_add] at hclaim
              exact ⟨hclaim, hwithin⟩
            · cases hres.symm.trans hf
  | completing u =>
      obtain ⟨⟨claim, hclaimed⟩, hwithin⟩ := ho
      have hspec := hclaimed.complete_spec now hs hid hwithin.1
      refine stepOk_account (fun _ _ ↦ by trivial) ?_ ?_
      · show Reaches now _ s.budgets
          (((a.attach s.budgets).complete now 0).2.authority.getD s.budgets)
        rcases hspec with ⟨reply, a', -, hres, hstore⟩ | ⟨e, a', -, hres, hstore⟩
        · rw [hres, hstore]
          exact .exec s.budgets fun id' hid' ↦ (Option.some.inj hid').symm
        · rw [hres, hstore]
          exact .exec s.budgets fun id' hid' ↦ (Option.some.inj hid').symm
      · intro x a' hf
        have hf : (a.attach s.budgets).complete now 0 = (.ok x, a') := hf
        rcases hspec with ⟨reply, a'', hexec, hres, hstore⟩ | ⟨e, a'', -, hres, -⟩
        · obtain ⟨-, rfl⟩ := Prod.mk.inj (hres.symm.trans hf)
          refine ⟨hwithin, fun _ ↦ ?_⟩
          rw [hstore]
          exact completed_of_complete hs hid hwithin.1 hexec
        · cases hres.symm.trans hf
  | settling u => exact stepOk_mark (fun _ _ ↦ by trivial) rfl fun r ↦ trivial
  | retrying u e => exact stepOk_mark (fun _ _ ↦ by trivial) rfl fun r ↦ trivial
  | cancelling e =>
      obtain ⟨x, -, hstore⟩ := Opened.cancel_spec now ho hs hid
      refine stepOk_account (fun _ _ ↦ by trivial) ?_ fun x' a' hf ↦ by trivial
      show Reaches now _ s.budgets
        (((a.attach s.budgets).cancel now 0).2.authority.getD s.budgets)
      rcases hstore with hstore | hstore
      · rw [hstore]
        exact .refl now _ s.budgets
      · rw [hstore]
        exact .exec s.budgets fun id' hid' ↦ (Option.some.inj hid').symm
  | reclaiming e => exact stepOk_mark (fun _ _ ↦ by trivial) rfl fun r ↦ trivial
  | settled => exact stepOk_stay ho
  | failed e => exact stepOk_stay ho

end Owner

/-! ## The steps of a pass -/

namespace Pass

/-- The copy a pass works on. -/
def copyAt : PassStage → List Record
  | .looking r | .cancelling r | .archiving r _ _ | .measuring r | .completing r _ | .settling r _
  | .retrying r _ => [r]
  | .next | .aborted _ => []

/-- The copies a pass still has. -/
def copies (p : Pass) : List Record := copyAt p.stage ++ p.queue

/-- The reservation a pass changes at a stage; at most stages it changes none. -/
def actsOn : PassStage → String
  | .cancelling r | .completing r _ => r.parentReservationId
  | _ => ""

/-- What a pass at a stage knows of the authority. -/
def OkAt (b : BudgetStore) : PassStage → Prop
  | .completing r u => Within r.childHandle u
  | .settling r u =>
      Within r.childHandle u ∧ Completed b r.parentReservationId u.chargedToParent
  | _ => True

/-- The mark a pass writes at a stage. -/
def markAt : PassStage → Option (Record × Mark)
  | .archiving r e _ => some (r, .reclaimed e r.usage)
  | .settling r u => some (r, .settled (.settled u))
  | .retrying r e => some (r, .retry e r.usage)
  | _ => none

/-- What a step of a pass does. -/
structure StepOk (now : Time) (s : Stores) (p : Pass) (res : Pass × Stores) : Prop where
  copies : ∀ r ∈ res.1.copies, r ∈ p.copies
  ok : OkAt res.2.budgets res.1.stage
  reaches : Reaches now (actsOn p.stage) s.budgets res.2.budgets
  journal : res.2.journal = s.journal ∨ ∃ r m, markAt p.stage = some (r, m) ∧
    res.2.journal = (s.journal.transition now r.settlementId m).2

variable {p : Pass} {s : Stores} {now : Time} {fault : Fault} {r : Record}

/-- What a pass knows of the authority stays true. -/
theorem OkAt.keeps {stage : PassStage} {b b' : BudgetStore} (h : OkAt b stage)
    (hkeeps : Retains b b') : OkAt b' stage := by
  cases stage with
  | settling r u => exact ⟨h.1, hkeeps.completed h.2⟩
  | _ => exact h

theorem stepOk_stay (hp : OkAt s.budgets p.stage) : StepOk now s p (p, s) :=
  ⟨fun _ hr ↦ hr, hp, .refl now _ s.budgets, .inl rfl⟩

/-- A pass that goes on with its copy, or has done with it, knows nothing new. -/
def Idles (p p' : Pass) : Prop := (∀ r ∈ p'.copies, r ∈ p.copies) ∧ ∀ b, OkAt b p'.stage

theorem idles_take (hnext : p.stage = .next) : p.Idles p.take := by
  unfold take
  split
  · refine ⟨fun r hr ↦ hr, fun b ↦ ?_⟩
    rw [hnext]
    trivial
  · next c queue hqueue =>
    refine ⟨fun r hr ↦ ?_, fun b ↦ by cases c.status <;> trivial⟩
    have hr : r = c ∨ r ∈ queue := by
      cases hstatus : c.status <;> simp_all [copies, copyAt]
    simpa [copies, copyAt, hnext, hqueue] using hr

theorem idles_preserve (hr : copyAt p.stage = [r]) (e : SettlementFailure) :
    p.Idles (p.preserve r e) := by
  unfold preserve
  split
  · refine ⟨?_, fun b ↦ trivial⟩
    rw [copies, copies, hr]
    exact fun r' hr' ↦ hr'
  · refine ⟨?_, fun b ↦ trivial⟩
    rw [copies, copies, hr]
    exact fun r' hr' ↦ List.mem_cons_of_mem r hr'

theorem idles_postpone (hr : copyAt p.stage = [r]) (e : SettlementFailure) :
    p.Idles (p.postpone r e) := by
  unfold postpone
  split
  · refine ⟨?_, fun b ↦ trivial⟩
    rw [copies, copies, hr]
    exact fun r' hr' ↦ hr'
  · refine ⟨?_, fun b ↦ trivial⟩
    rw [copies, copies, hr]
    exact fun r' hr' ↦ hr'

theorem idles_report (p : Pass) (entry : ReconciliationEntry) : p.Idles (p.report entry) :=
  ⟨fun _ hr ↦ List.mem_append_right _ hr, fun _ ↦ trivial⟩

theorem idles_aborted (p : Pass) (e : SettlementFailure) : p.Idles (p.goes (.aborted e)) :=
  ⟨fun _ hr ↦ List.mem_append_right _ hr, fun _ ↦ trivial⟩

theorem idles_next (p : Pass) : p.Idles (p.goes .next) :=
  ⟨fun _ hr ↦ List.mem_append_right _ hr, fun _ ↦ trivial⟩

theorem idles_goes {stage : PassStage} (hr : copyAt stage = copyAt p.stage)
    (hok : ∀ b, OkAt b stage) : p.Idles (p.goes stage) := by
  refine ⟨?_, hok⟩
  rw [copies, copies, ← hr]
  exact fun r' hr' ↦ hr'

section After

variable {α : Type} {next : α → Pass} {handler : SettlementFailure → Pass}

theorem stepOk_after {res : Except SettlementFailure α × Stores}
    (hreaches : Reaches now (actsOn p.stage) s.budgets res.2.budgets)
    (hjournal : res.2.journal = s.journal ∨ ∃ r m, markAt p.stage = some (r, m) ∧
      res.2.journal = (s.journal.transition now r.settlementId m).2)
    (hnext : ∀ a, res.1 = .ok a →
      (∀ r ∈ (next a).copies, r ∈ p.copies) ∧ OkAt res.2.budgets (next a).stage)
    (hhandler : ∀ e, p.Idles (handler e)) : StepOk now s p (after next handler res) := by
  obtain ⟨out, s'⟩ := res
  cases out with
  | error e => exact ⟨(hhandler e).1, (hhandler e).2 _, hreaches, hjournal⟩
  | ok a => exact ⟨(hnext a rfl).1, (hnext a rfl).2, hreaches, hjournal⟩

/-- A step that writes a mark. -/
theorem stepOk_mark {m : Mark} (hm : markAt p.stage = some (r, m)) {next : Record → Pass}
    (hnext : ∀ r', p.Idles (next r')) (hhandler : ∀ e, p.Idles (handler e)) :
    StepOk now s p (after next handler (callMark s now fault r.settlementId m)) := by
  have hsnd := callMark_snd s now fault r.settlementId m
  refine stepOk_after ?_ ?_ (fun r' _ ↦ ⟨(hnext r').1, (hnext r').2 _⟩) hhandler
  · refine .inl ?_
    rcases hsnd with h | h <;> rw [h]
  · rcases hsnd with h | h
    · exact .inl (by rw [h])
    · exact .inr ⟨r, m, hm, by rw [h]⟩

/-- A step that calls the authority. -/
theorem stepOk_budgets {c : BudgetCall}
    (hc : ∀ id', c.target = some id' → id' = actsOn p.stage) {next : BudgetReply → Pass}
    (hnext : ∀ reply, (s.budgets.exec now c).1 = .ok reply →
      (∀ r ∈ (next reply).copies, r ∈ p.copies) ∧
        OkAt (s.budgets.exec now c).2 (next reply).stage)
    (hhandler : ∀ e, p.Idles (handler e)) :
    StepOk now s p (after next handler (callBudgets s now fault c)) := by
  have hsnd := callBudgets_snd s now fault c
  refine stepOk_after ?_ (.inl ?_) (fun reply hok ↦ ?_) hhandler
  · rcases hsnd with h | h
    · rw [h]
      exact .refl now _ s.budgets
    · rw [h]
      exact .exec s.budgets hc
  · rcases hsnd with h | h <;> rw [h]
  · obtain ⟨hexec, hs⟩ := callBudgets_ok hok
    rw [hs]
    exact hnext reply hexec

end After

/-- Every step of a pass is in order. -/
theorem step_ok (now : Time) (fault : Fault) (hp : OkAt s.budgets p.stage)
    (hs : s.budgets.Sound) (hid : ∀ r ∈ p.copies, r.parentReservationId ≠ "") :
    StepOk now s p (p.step now fault s) := by
  unfold step
  cases hstage : p.stage with
  | next =>
      have hidles := idles_take hstage
      exact ⟨hidles.1, hidles.2 _, .refl now _ s.budgets, .inl rfl⟩
  | looking r =>
      have hcopy : copyAt p.stage = [r] := by rw [hstage]; rfl
      refine stepOk_budgets ?_ (fun reply _ ↦ ?_) (idles_preserve hcopy)
      · rintro id' ⟨⟩
      · have hgoes : ∀ {stage : PassStage}, copyAt stage = [r] → (∀ b, OkAt b stage) →
            p.Idles (p.goes stage) := fun h hok ↦ idles_goes (h.trans hcopy.symm) hok
        have hidles : p.Idles (if r.status = .reserveIntent then
            p.goes (if reply.found?.any fun x ↦ x.status = .active then .cancelling r
              else .archiving r intentLost false)
            else if reply.found?.any fun x ↦ x.status = .active then p.goes .next
              else p.goes (.archiving r reservationLost false)) := by
          split_ifs
          · exact hgoes rfl fun b ↦ trivial
          · exact hgoes rfl fun b ↦ trivial
          · exact idles_next p
          · exact hgoes rfl fun b ↦ trivial
        exact ⟨hidles.1, hidles.2 _⟩
  | cancelling r =>
      have hcopy : copyAt p.stage = [r] := by rw [hstage]; rfl
      refine stepOk_budgets ?_ (fun reply _ ↦ ?_) (idles_preserve hcopy)
      · intro id' hid'
        rw [hstage]
        exact (Option.some.inj hid').symm
      · have hidles : p.Idles (p.goes (.archiving r intentLost false)) :=
          idles_goes hcopy.symm fun b ↦ trivial
        exact ⟨hidles.1, hidles.2 _⟩
  | archiving r e handler =>
      have hcopy : copyAt p.stage = [r] := by rw [hstage]; rfl
      refine stepOk_mark (by rw [hstage]; rfl) (fun r' ↦ idles_report p _) fun e' ↦ ?_
      split
      · exact idles_aborted p e'
      · exact idles_preserve hcopy e'
  | measuring r =>
      have hcopy : copyAt p.stage = [r] := by rw [hstage]; rfl
      obtain ⟨hjournal, hreaches⟩ := measure_reaches s now fault r.childHandle (actsOn p.stage)
      refine stepOk_after hreaches (.inl hjournal) (fun u hu ↦ ⟨?_, measure_within hs hu⟩)
        (idles_postpone hcopy)
      rw [copies, copies, hcopy]
      exact fun r' hr' ↦ hr'
  | completing r u =>
      have hcopy : copyAt p.stage = [r] := by rw [hstage]; rfl
      have hr : r.parentReservationId ≠ "" := by
        refine hid r ?_
        rw [copies, hcopy]
        exact List.mem_cons_self
      have hwithin : Within r.childHandle u := by
        rw [hstage] at hp
        exact hp
      refine stepOk_budgets ?_ (fun reply hreply ↦ ⟨?_, hwithin, ?_⟩) (idles_postpone hcopy)
      · intro id' hid'
        rw [hstage]
        exact (Option.some.inj hid').symm
      · rw [copies, copies, hcopy]
        exact fun r' hr' ↦ hr'
      · exact completed_of_complete hs hr hwithin.1 hreply
  | settling r u =>
      have hcopy : copyAt p.stage = [r] := by rw [hstage]; rfl
      exact stepOk_mark (by rw [hstage]; rfl) (fun r' ↦ idles_report p _) (idles_postpone hcopy)
  | retrying r e =>
      exact stepOk_mark (by rw [hstage]; rfl) (fun r' ↦ idles_report p _) (idles_aborted p)
  | aborted e => exact stepOk_stay hp

end Pass

end Blackbase.Project.Settlement
