import Blackbase.Resources.Budget.SQLite

/-!
# What a call on the budget tables can do

`BudgetTables.Change` lists the changes a call can make to the tables: configure
a new budget, reclaim the stale reservations, issue a reservation, charge an
active one (and perhaps complete it), cancel one.  The spec lemmas say for each
call which of these it makes and what it answers; nothing after this file unfolds
a call.

`BudgetTables.Sound` is the invariant: what a budget has committed is what all
its reservations have completed, and the exposure of its reservations, the whole
amount of an active one and the completed part of any other, is within the limit.
It survives every change because every change to a reservation that is already
there makes its hold evolve (`Quota.Hold.Evolves`), which never raises an
exposure, and a new one is issued within what remains.
-/

namespace Blackbase.Resources.BudgetTables

/-! ## Reading the tables -/

@[simp] theorem reclaimStale_budgets (t : BudgetTables) (now : Time) :
    (t.reclaimStale now).budgets = t.budgets := rfl

@[simp] theorem reclaimStale_leases (t : BudgetTables) (now : Time) :
    (t.reclaimStale now).leases = t.leases := rfl

@[simp] theorem reclaimStale_scope (t : BudgetTables) (now : Time) :
    (t.reclaimStale now).scope = t.scope := rfl

@[simp] theorem reclaimStale_fenceCurrent (t : BudgetTables) (now now' : Time) (id : String)
    (token : ℤ) : (t.reclaimStale now).fenceCurrent id token now' = t.fenceCurrent id token now' :=
  rfl

theorem reclaimRow_id (t : BudgetTables) (now : Time) (r : BudgetReservation) :
    (t.reclaimRow now r).reservationId = r.reservationId := by
  unfold reclaimRow
  split <;> rfl

theorem reclaimRow_budget (t : BudgetTables) (now : Time) (r : BudgetReservation) :
    (t.reclaimRow now r).budget = r.budget := by
  unfold reclaimRow
  split <;> rfl

theorem reclaimStale_row (t : BudgetTables) (now : Time) (id : String) :
    (t.reclaimStale now).reservationRow id = (t.reservationRow id).map (t.reclaimRow now) :=
  Rows.lookup_map (t.reclaimRow_id now) id t.reservations

@[simp] theorem updateReservation_budgets (t : BudgetTables) (id : String)
    (f : BudgetReservation → BudgetReservation) :
    (t.updateReservation id f).budgets = t.budgets := rfl

@[simp] theorem updateReservation_leases (t : BudgetTables) (id : String)
    (f : BudgetReservation → BudgetReservation) :
    (t.updateReservation id f).leases = t.leases := rfl

@[simp] theorem addCommitted_leases (t : BudgetTables) (budget : String) (delta : ℤ) :
    (t.addCommitted budget delta).leases = t.leases := rfl

@[simp] theorem addCommitted_reservations (t : BudgetTables) (budget : String) (delta : ℤ) :
    (t.addCommitted budget delta).reservations = t.reservations := rfl

theorem addCommitted_zero (t : BudgetTables) (budget : String) : t.addCommitted budget 0 = t := by
  cases t with
  | mk scope leases budgets reservations =>
      simp [addCommitted]

theorem addCommitted_budgets (t : BudgetTables) (budget name : String) (delta : ℤ) :
    (t.addCommitted budget delta).budgets name = (t.budgets name).map fun row ↦
      if name = budget then { row with committedAmount := row.committedAmount + delta }
      else row := by
  by_cases h : name = budget
  · subst h
    simp [addCommitted]
  · simp [addCommitted, h]

/-- The sum of the SQL text is the outstanding part of the holds on the budget. -/
theorem reserved_eq (t : BudgetTables) (name : String) :
    t.reserved name =
      Quota.outstanding BudgetReservation.budget BudgetReservation.hold name t.reservations := by
  rw [Quota.outstanding, Quota.total, reserved]
  induction t.reservations with
  | nil => rfl
  | cons r rows ih =>
      rw [List.filter_cons, List.map_cons, List.sum_cons, ← ih]
      by_cases hb : r.budget = name <;> by_cases ha : r.status = .active <;>
        simp [Quota.Hold.outstanding, hb, ha]

/-! ## Changes -/

/-- The tables after reservation `r` has been charged up to `completed` units, and
completed when `closing`. -/
def chargeTo (t : BudgetTables) (now : Time) (r : BudgetReservation) (completed : ℤ)
    (closing : Bool) : BudgetTables :=
  (t.addCommitted r.budget (completed - r.completed)).updateReservation r.reservationId fun x ↦
    { x with status := bif closing then .completed else x.status,
             completed := completed, updatedAt := now }

/-- The tables after reservation `id` has been cancelled. -/
def cancelRow (t : BudgetTables) (now : Time) (id : String) : BudgetTables :=
  t.updateReservation id fun x ↦ { x with status := .cancelled, updatedAt := now }

/-- The tables after reservation `r` has been issued. -/
def issueRow (t : BudgetTables) (r : BudgetReservation) : BudgetTables :=
  { t with reservations := t.reservations ++ [r] }

/-- A single change of the tables, made by a call whose clock reads `now`. -/
inductive Change (t : BudgetTables) (now : Time) : BudgetTables → Prop
  | /-- A budget is configured for the first time. -/
    configured (name : String) (limit : ℤ) (hlimit : 0 ≤ limit) (hnew : t.budgets name = none) :
      Change t now { t with budgets := Function.update t.budgets name (some ⟨limit, 0⟩) }
  | /-- The reservations whose lease is lost are reclaimed. -/
    swept : Change t now (t.reclaimStale now)
  | /-- A reservation is issued within what remains of its budget. -/
    issued (r : BudgetReservation) (row : BudgetRow)
      (hfresh : t.reservationRow r.reservationId = none) (hactive : r.status = .active)
      (hzero : r.completed = 0) (hpos : 0 < r.amount) (hrow : t.budgets r.budget = some row)
      (hfence : t.fenceCurrent r.leaseId r.fencingToken now = true)
      (hroom : r.amount ≤ row.limitAmount - row.committedAmount - t.reserved r.budget) :
      Change t now (t.issueRow r)
  | /-- An active reservation is charged, and perhaps completed. -/
    charged (r : BudgetReservation) (completed : ℤ) (closing : Bool)
      (hrow : t.reservationRow r.reservationId = some r) (hactive : r.status = .active)
      (hle : r.completed ≤ completed) (hamount : completed ≤ r.amount)
      (hfence : t.fenceCurrent r.leaseId r.fencingToken now = true) :
      Change t now (t.chargeTo now r completed closing)
  | /-- An active reservation is cancelled. -/
    cancelled (r : BudgetReservation) (hrow : t.reservationRow r.reservationId = some r)
      (hactive : r.status = .active)
      (hfence : t.fenceCurrent r.leaseId r.fencingToken now = true) :
      Change t now (t.cancelRow now r.reservationId)

/-- Any number of changes made by one call. -/
abbrev Changes (t : BudgetTables) (now : Time) : BudgetTables → Prop :=
  Relation.ReflTransGen (fun t t' ↦ Change t now t') t

/-! ## One spec lemma for each call -/

theorem budgetLimit_nonneg {value limit : ℤ} (h : budgetLimit value = .ok limit) :
    limit = value ∧ 0 ≤ limit := by
  unfold budgetLimit at h
  split at h
  · cases h
  · injection h with h
    omega

theorem reservationAmount_pos {value amount : ℤ} (h : reservationAmount value = .ok amount) :
    amount = value ∧ 0 < amount := by
  unfold reservationAmount at h
  split at h
  · cases h
  · injection h with h
    omega

theorem reservationId_eq {value id : String} (h : reservationId value = .ok id) :
    id = value ∧ value ≠ "" := by
  unfold reservationId at h
  split at h
  · cases h
  · injection h with h
    exact ⟨h.symm, ‹_›⟩

/-- A call either raises and leaves the tables alone, or configures a new budget,
or finds the budget configured with this limit. -/
theorem configure_spec (t : BudgetTables) (budget : String) (limit : ℤ) :
    ((∃ e, (t.configure budget limit).1 = .error e) ∧ (t.configure budget limit).2 = t) ∨
    (∃ name, budgetName budget = .ok name ∧ budgetLimit limit = .ok limit ∧
      (t.configure budget limit).1 = .ok .done ∧
      ((t.budgets name = none ∧ (t.configure budget limit).2 =
          { t with budgets := Function.update t.budgets name (some ⟨limit, 0⟩) }) ∨
        (∃ row, t.budgets name = some row ∧ row.limitAmount = limit ∧
          (t.configure budget limit).2 = t))) := by
  unfold configure
  split
  · exact .inl ⟨⟨_, rfl⟩, rfl⟩
  · exact .inl ⟨⟨_, rfl⟩, rfl⟩
  · next name maximum hname hmax =>
      obtain ⟨rfl, -⟩ := budgetLimit_nonneg hmax
      split
      · next hnone => exact .inr ⟨name, hname, hmax, rfl, .inl ⟨hnone, rfl⟩⟩
      · next row hrow =>
          split
          · exact .inl ⟨⟨_, rfl⟩, rfl⟩
          · next heq =>
              exact .inr ⟨name, hname, hmax, rfl, .inr ⟨row, hrow, not_not.mp heq, rfl⟩⟩

theorem status_spec (t : BudgetTables) (now : Time) (budget : String) :
    ((∃ e, (t.status now budget).1 = .error e) ∧ (t.status now budget).2 = t) ∨
    (∃ name row, budgetName budget = .ok name ∧ t.budgets name = some row ∧
      (t.status now budget).1 = .ok (.snapshot ⟨t.scope, name, row.limitAmount,
        row.committedAmount, (t.reclaimStale now).reserved name, t.staleCount now⟩) ∧
      (t.status now budget).2 = t.reclaimStale now) := by
  unfold status
  split
  · exact .inl ⟨⟨_, rfl⟩, rfl⟩
  · next name hname =>
      simp only [reclaimStale_budgets]
      split
      · exact .inl ⟨⟨_, rfl⟩, rfl⟩
      · next row hrow => exact .inr ⟨name, row, hname, hrow, rfl, rfl⟩

theorem reservation_spec (t : BudgetTables) (now : Time) (id : String) :
    ((∃ e, (t.reservation now id).1 = .error e) ∧ (t.reservation now id).2 = t ∧ id = "") ∨
    (id ≠ "" ∧
      (t.reservation now id).1 = .ok (.found ((t.reclaimStale now).reservationRow id)) ∧
      (t.reservation now id).2 = t.reclaimStale now) := by
  unfold reservation
  split
  · next e he =>
      refine .inl ⟨⟨_, rfl⟩, rfl, ?_⟩
      unfold reservationId at he
      split at he
      · assumption
      · cases he
  · next identifier hid =>
      obtain ⟨rfl, hne⟩ := reservationId_eq hid
      exact .inr ⟨hne, rfl, rfl⟩

/-- The reservation a successful `reserve` issues. -/
def issuedReservation (t : BudgetTables) (now : Time) (id name : String) (amount : ℤ)
    (leaseId : String) (token : ℤ) : BudgetReservation where
  reservationId := id
  scope := t.scope
  budget := name
  amount := amount
  leaseId := leaseId
  fencingToken := token
  status := .active
  completed := 0
  createdAt := now
  updatedAt := now

theorem reserve_spec (t : BudgetTables) (now : Time) (budget : String) (amount : ℤ)
    (leaseId : String) (token : ℤ) (given : Option String) (generated : String) :
    let res := t.reserve now budget amount leaseId token given generated
    let id := identifierOr given generated
    ((∃ e, res.1 = .error e) ∧ res.2 = t) ∨
    (∃ name, budgetName budget = .ok name ∧ 0 < amount ∧
      t.fenceCurrent leaseId token now = true ∧
      ((∃ r, (t.reclaimStale now).reservationRow id = some r ∧ r.budget = name ∧
          r.amount = amount ∧ r.leaseId = leaseId ∧ r.fencingToken = token ∧
          res = (.ok (.reservation r), t.reclaimStale now)) ∨
        (∃ row, (t.reclaimStale now).reservationRow id = none ∧ t.budgets name = some row ∧
          amount ≤ max 0 (row.limitAmount - row.committedAmount -
            (t.reclaimStale now).reserved name) ∧
          res = (.ok (.reservation (t.issuedReservation now id name amount leaseId token)),
            (t.reclaimStale now).issueRow
              (t.issuedReservation now id name amount leaseId token))))) := by
  intro res id
  simp only [res, reserve]
  split
  · exact .inl ⟨⟨_, rfl⟩, rfl⟩
  · exact .inl ⟨⟨_, rfl⟩, rfl⟩
  · next name requested hname hreq =>
      obtain ⟨rfl, hpos⟩ := reservationAmount_pos hreq
      split
      · exact .inl ⟨⟨_, rfl⟩, rfl⟩
      · next hfence =>
          have hfence' : t.fenceCurrent leaseId token now = true := by simpa using hfence
          split
          · next r hr =>
              split
              · next hsame =>
                  exact .inr ⟨name, hname, hpos, hfence', .inl ⟨r, hr, hsame.1, hsame.2.1,
                    hsame.2.2.1, hsame.2.2.2, rfl⟩⟩
              · exact .inl ⟨⟨_, rfl⟩, rfl⟩
          · next hnone =>
              split
              · exact .inl ⟨⟨_, rfl⟩, rfl⟩
              · next row hrow =>
                  split
                  · exact .inl ⟨⟨_, rfl⟩, rfl⟩
                  · next hroom =>
                      exact .inr ⟨name, hname, hpos, hfence', .inr ⟨row, hnone, hrow,
                        not_lt.mp hroom, rfl⟩⟩

theorem complete_spec (t : BudgetTables) (now : Time) (id : String) (completed : ℤ) :
    ((∃ e, (t.complete now id completed).1 = .error e) ∧ (t.complete now id completed).2 = t) ∨
    (∃ r, t.reservationRow id = some r ∧ r.status = .completed ∧ r.completed = max 0 completed ∧
      t.complete now id completed = (.ok (.reservation r), t)) ∨
    (∃ r, t.reservationRow id = some r ∧ r.status = .active ∧ r.completed ≤ max 0 completed ∧
      max 0 completed ≤ r.amount ∧ t.fenceCurrent r.leaseId r.fencingToken now = true ∧
      t.complete now id completed =
        (.ok (.reservation
          { r with status := .completed, completed := max 0 completed, updatedAt := now }),
          t.chargeTo now r (max 0 completed) true)) := by
  simp only [complete]
  split
  · exact .inl ⟨⟨_, rfl⟩, rfl⟩
  · next identifier hid =>
      obtain ⟨rfl, -⟩ := reservationId_eq hid
      split
      · exact .inl ⟨⟨_, rfl⟩, rfl⟩
      · next r hr =>
          have hkey : r.reservationId = identifier := Rows.key_of_lookup hr
          split
          · next hdone => exact .inr (.inl ⟨r, hr, hdone.1, hdone.2, rfl⟩)
          split
          · exact .inl ⟨⟨_, rfl⟩, rfl⟩
          · next hactive =>
              split
              · exact .inl ⟨⟨_, rfl⟩, rfl⟩
              split
              · exact .inl ⟨⟨_, rfl⟩, rfl⟩
              split
              · exact .inl ⟨⟨_, rfl⟩, rfl⟩
              · next hle hge hfence =>
                  refine .inr (.inr ⟨r, hr, not_not.mp hactive, not_lt.mp hge, not_lt.mp hle,
                    by simpa using hfence, ?_⟩)
                  subst hkey
                  rw [chargeTo]
                  split
                  · rfl
                  · next hzero =>
                      rw [not_not.mp hzero, addCommitted_zero]
                      rfl

theorem consume_spec (t : BudgetTables) (now : Time) (id : String) (amount : ℤ) :
    ((∃ e, (t.consume now id amount).1 = .error e) ∧ (t.consume now id amount).2 = t) ∨
    (∃ r, t.reservationRow id = some r ∧ r.status = .active ∧ 0 < amount ∧
      r.completed + amount ≤ r.amount ∧ t.fenceCurrent r.leaseId r.fencingToken now = true ∧
      t.consume now id amount =
        (.ok (.reservation { r with completed := r.completed + amount, updatedAt := now }),
          t.chargeTo now r (r.completed + amount) false)) := by
  simp only [consume]
  split
  · exact .inl ⟨⟨_, rfl⟩, rfl⟩
  · exact .inl ⟨⟨_, rfl⟩, rfl⟩
  · next identifier delta hid hamount =>
      obtain ⟨rfl, -⟩ := reservationId_eq hid
      obtain ⟨rfl, hpos⟩ := reservationAmount_pos hamount
      split
      · exact .inl ⟨⟨_, rfl⟩, rfl⟩
      · next r hr =>
          have hkey : r.reservationId = identifier := Rows.key_of_lookup hr
          split
          · exact .inl ⟨⟨_, rfl⟩, rfl⟩
          split
          · exact .inl ⟨⟨_, rfl⟩, rfl⟩
          split
          · exact .inl ⟨⟨_, rfl⟩, rfl⟩
          · next hactive hle hfence =>
              refine .inr ⟨r, hr, not_not.mp hactive, hpos, not_lt.mp hle,
                by simpa using hfence, ?_⟩
              subst hkey
              rw [chargeTo, add_sub_cancel_left]
              rfl

theorem cancel_spec (t : BudgetTables) (now : Time) (id : String) :
    ((t.cancel now id).2 = t ∧ (t.cancel now id).1 ≠ .ok (.flag true)) ∨
    (∃ r, t.reservationRow id = some r ∧ r.status = .active ∧
      t.fenceCurrent r.leaseId r.fencingToken now = true ∧
      t.cancel now id = (.ok (.flag true), t.cancelRow now id)) := by
  simp only [cancel]
  split
  · exact .inl ⟨rfl, by simp⟩
  · next identifier hid =>
      obtain ⟨rfl, -⟩ := reservationId_eq hid
      split
      · exact .inl ⟨rfl, by simp⟩
      · next r hr =>
          split
          · exact .inl ⟨rfl, by simp⟩
          · next hopen =>
              obtain ⟨hactive, hfence⟩ := not_or.mp hopen
              exact .inr ⟨r, hr, not_not.mp hactive, by simpa using hfence, rfl⟩

/-! ## A call makes changes and nothing else -/

theorem Change.changes {t t' : BudgetTables} {now : Time} (h : Change t now t') :
    Changes t now t' := Relation.ReflTransGen.single h

theorem configure_changes (t : BudgetTables) (now : Time) (budget : String) (limit : ℤ) :
    Changes t now (t.configure budget limit).2 := by
  rcases t.configure_spec budget limit with ⟨-, h⟩ | ⟨name, -, hlimit, -, ⟨hnew, h⟩ | ⟨_, -, -, h⟩⟩
  · rw [h]
  · rw [h]
    exact (Change.configured name limit (budgetLimit_nonneg hlimit).2 hnew).changes
  · rw [h]

theorem status_changes (t : BudgetTables) (now : Time) (budget : String) :
    Changes t now (t.status now budget).2 := by
  rcases t.status_spec now budget with ⟨-, h⟩ | ⟨_, _, -, -, -, h⟩
  · rw [h]
  · rw [h]
    exact Change.swept.changes

theorem reservation_changes (t : BudgetTables) (now : Time) (id : String) :
    Changes t now (t.reservation now id).2 := by
  rcases t.reservation_spec now id with ⟨-, h, -⟩ | ⟨-, -, h⟩
  · rw [h]
  · rw [h]
    exact Change.swept.changes

theorem reserve_changes (t : BudgetTables) (now : Time) (budget : String) (amount : ℤ)
    (leaseId : String) (token : ℤ) (given : Option String) (generated : String) :
    Changes t now (t.reserve now budget amount leaseId token given generated).2 := by
  rcases t.reserve_spec now budget amount leaseId token given generated with
    ⟨-, h⟩ | ⟨name, -, hpos, hfence, ⟨_, -, -, -, -, -, h⟩ | ⟨row, hfresh, hrow, hroom, h⟩⟩
  · rw [h]
  · rw [h]
    exact Change.swept.changes
  · rw [h]
    refine Change.swept.changes.tail (Change.issued _ row hfresh rfl rfl hpos hrow hfence ?_)
    simp only [issuedReservation]
    omega

theorem complete_changes (t : BudgetTables) (now : Time) (id : String) (completed : ℤ) :
    Changes t now (t.complete now id completed).2 := by
  rcases t.complete_spec now id completed with
    ⟨-, h⟩ | ⟨_, -, -, -, h⟩ | ⟨r, hrow, hactive, hle, hamount, hfence, h⟩
  · rw [h]
  · rw [h]
  · rw [h]
    obtain rfl := Rows.key_of_lookup hrow
    exact (Change.charged r _ _ hrow hactive hle hamount hfence).changes

theorem consume_changes (t : BudgetTables) (now : Time) (id : String) (amount : ℤ) :
    Changes t now (t.consume now id amount).2 := by
  rcases t.consume_spec now id amount with
    ⟨-, h⟩ | ⟨r, hrow, hactive, hpos, hamount, hfence, h⟩
  · rw [h]
  · rw [h]
    obtain rfl := Rows.key_of_lookup hrow
    exact (Change.charged r _ _ hrow hactive (by omega) hamount hfence).changes

theorem cancel_changes (t : BudgetTables) (now : Time) (id : String) :
    Changes t now (t.cancel now id).2 := by
  rcases t.cancel_spec now id with ⟨h, -⟩ | ⟨r, hrow, hactive, hfence, h⟩
  · rw [h]
  · rw [h]
    obtain rfl := Rows.key_of_lookup hrow
    exact (Change.cancelled r hrow hactive hfence).changes

/-- Whatever a call answers, its effect on the tables is a sequence of changes. -/
theorem exec_changes (t : BudgetTables) (now : Time) (c : BudgetCall) :
    Changes t now (t.exec now c).2 := by
  cases c with
  | configure budget limit => exact t.configure_changes now budget limit
  | status budget => exact t.status_changes now budget
  | reservation id => exact t.reservation_changes now id
  | reserve budget amount leaseId token given generated =>
      exact t.reserve_changes now budget amount leaseId token given generated
  | complete id completed => exact t.complete_changes now id completed
  | consume id amount => exact t.consume_changes now id amount
  | cancel id => exact t.cancel_changes now id

/-- A call that raises rolls everything back. -/
theorem exec_error {t : BudgetTables} {now : Time} {c : BudgetCall} {e : BudgetError}
    (h : (t.exec now c).1 = .error e) : (t.exec now c).2 = t := by
  cases c with
  | configure budget limit =>
      rcases t.configure_spec budget limit with ⟨-, h'⟩ | ⟨_, -, -, h', -⟩
      · exact h'
      · cases h'.symm.trans h
  | status budget =>
      rcases t.status_spec now budget with ⟨-, h'⟩ | ⟨_, _, -, -, h', -⟩
      · exact h'
      · cases h'.symm.trans h
  | reservation id =>
      rcases t.reservation_spec now id with ⟨-, h', -⟩ | ⟨-, h', -⟩
      · exact h'
      · cases h'.symm.trans h
  | reserve budget amount leaseId token given generated =>
      rcases t.reserve_spec now budget amount leaseId token given generated with
        ⟨-, h'⟩ | ⟨_, -, -, -, ⟨_, -, -, -, -, -, h'⟩ | ⟨_, -, -, -, h'⟩⟩
      · exact h'
      · cases (congrArg Prod.fst h').symm.trans h
      · cases (congrArg Prod.fst h').symm.trans h
  | complete id completed =>
      rcases t.complete_spec now id completed with ⟨-, h'⟩ | ⟨_, -, -, -, h'⟩ | ⟨_, -, -, -, -, -, h'⟩
      · exact h'
      · cases (congrArg Prod.fst h').symm.trans h
      · cases (congrArg Prod.fst h').symm.trans h
  | consume id amount =>
      rcases t.consume_spec now id amount with ⟨-, h'⟩ | ⟨_, -, -, -, -, -, h'⟩
      · exact h'
      · cases (congrArg Prod.fst h').symm.trans h
  | cancel id =>
      rcases t.cancel_spec now id with ⟨h', -⟩ | ⟨_, -, -, -, h'⟩
      · exact h'
      · cases (congrArg Prod.fst h').symm.trans h

/-! ## Limits -/

/-- The limit of a budget, if it is configured. -/
def limit (t : BudgetTables) (name : String) : Option ℤ := (t.budgets name).map (·.limitAmount)

@[simp] theorem limit_reclaimStale (t : BudgetTables) (now : Time) (name : String) :
    (t.reclaimStale now).limit name = t.limit name := rfl

@[simp] theorem limit_issueRow (t : BudgetTables) (r : BudgetReservation) (name : String) :
    (t.issueRow r).limit name = t.limit name := rfl

@[simp] theorem limit_cancelRow (t : BudgetTables) (now : Time) (id name : String) :
    (t.cancelRow now id).limit name = t.limit name := rfl

@[simp] theorem limit_addCommitted (t : BudgetTables) (budget name : String) (delta : ℤ) :
    (t.addCommitted budget delta).limit name = t.limit name := by
  rw [limit, addCommitted_budgets, limit, Option.map_map]
  refine congrArg (fun f ↦ Option.map f (t.budgets name)) (funext fun row ↦ ?_)
  simp only [Function.comp_apply]
  split <;> rfl

@[simp] theorem limit_chargeTo (t : BudgetTables) (now : Time) (r : BudgetReservation)
    (completed : ℤ) (closing : Bool) (name : String) :
    (t.chargeTo now r completed closing).limit name = t.limit name :=
  t.limit_addCommitted r.budget name _

/-- A limit is set by the first call that configures its budget and never changed. -/
theorem limit_exec (t : BudgetTables) (now : Time) (c : BudgetCall) (name : String) :
    (t.exec now c).2.limit name = (t.limit name).or (c.limitFor name) := by
  cases c with
  | configure budget limit =>
      simp only [exec, configure, BudgetCall.limitFor]
      rcases budgetName budget with e | configured
      · simp
      rcases budgetLimit limit with e | maximum
      · simp
      dsimp only
      rcases hrow : t.budgets configured with _ | row
      · by_cases h : name = configured
        · subst h
          simp [BudgetTables.limit, hrow]
        · simp [BudgetTables.limit, h, Ne.symm h]
      · have hlimit : configured = name → t.limit name = some row.limitAmount := by
          rintro rfl
          simp [BudgetTables.limit, hrow]
        dsimp only
        split <;> by_cases h : configured = name <;> simp [h, hlimit]
  | status budget =>
      rcases t.status_spec now budget with ⟨-, h⟩ | ⟨_, _, -, -, -, h⟩ <;>
        simp [exec, h, BudgetCall.limitFor]
  | reservation id =>
      rcases t.reservation_spec now id with ⟨-, h, -⟩ | ⟨-, -, h⟩ <;>
        simp [exec, h, BudgetCall.limitFor]
  | reserve budget amount leaseId token given generated =>
      rcases t.reserve_spec now budget amount leaseId token given generated with
        ⟨-, h⟩ | ⟨_, -, -, -, ⟨_, -, -, -, -, -, h⟩ | ⟨_, -, -, -, h⟩⟩ <;>
        simp [exec, h, BudgetCall.limitFor]
  | complete id completed =>
      rcases t.complete_spec now id completed with
        ⟨-, h⟩ | ⟨_, -, -, -, h⟩ | ⟨_, -, -, -, -, -, h⟩ <;>
        simp [exec, h, BudgetCall.limitFor]
  | consume id amount =>
      rcases t.consume_spec now id amount with ⟨-, h⟩ | ⟨_, -, -, -, -, -, h⟩ <;>
        simp [exec, h, BudgetCall.limitFor]
  | cancel id =>
      rcases t.cancel_spec now id with ⟨h, -⟩ | ⟨_, -, -, -, h⟩ <;>
        simp [exec, h, BudgetCall.limitFor]

/-! ## The invariant -/

/-- The bookkeeping of the tables is in order. -/
structure Sound (t : BudgetTables) : Prop where
  unique : Rows.Unique BudgetReservation.reservationId t.reservations
  valid : ∀ r ∈ t.reservations, r.hold.Valid
  token_nonneg : ∀ r ∈ t.reservations, 0 ≤ r.fencingToken
  funded : ∀ r ∈ t.reservations, ∃ row, t.budgets r.budget = some row
  committed : ∀ name row, t.budgets name = some row → row.committedAmount =
    Quota.used BudgetReservation.budget BudgetReservation.hold name t.reservations
  within : ∀ name row, t.budgets name = some row →
    Quota.exposure BudgetReservation.budget BudgetReservation.hold name t.reservations ≤
      row.limitAmount

theorem sound_empty (scope : String) : (empty scope).Sound := by
  constructor <;> simp [empty, Rows.Unique]

/-- What is committed and what is reserved is the exposure of the reservations. -/
theorem Sound.exposure_eq {t : BudgetTables} (ht : t.Sound) {name : String} {row : BudgetRow}
    (hrow : t.budgets name = some row) :
    Quota.exposure BudgetReservation.budget BudgetReservation.hold name t.reservations =
      row.committedAmount + t.reserved name := by
  rw [Quota.exposure_eq, ht.committed name row hrow, reserved_eq]

theorem fencingToken_nonneg_of_fenceCurrent {t : BudgetTables} {id : String} {token : ℤ}
    {now : Time} (h : t.fenceCurrent id token now = true) : 0 ≤ token := by
  unfold fenceCurrent at h
  split at h
  · cases h
  · next lease _ =>
      simp only [ResourceLease.fences, Bool.and_eq_true, decide_eq_true_eq] at h
      exact h.1.2 ▸ lease.fencingToken_nonneg

/-- The invariant says nothing about leases, whoever writes them. -/
theorem Sound.setLeases {t : BudgetTables} (ht : t.Sound)
    (leases : String → Option ResourceLease) : Sound { t with leases := leases } :=
  ⟨ht.unique, ht.valid, ht.token_nonneg, ht.funded, ht.committed, ht.within⟩

/-! ### Rewriting reservations -/

theorem reclaimRow_evolves {t : BudgetTables} {r : BudgetReservation} (hv : r.hold.Valid)
    (now : Time) : r.Evolves (t.reclaimRow now r) := by
  unfold reclaimRow
  split
  · next h =>
      have hactive : r.status = .active := by
        simpa using (Bool.and_eq_true_iff.mp h).1
      exact BudgetReservation.Evolves.charge hactive (le_refl _) hv.le .reclaimed now
  · exact BudgetReservation.Evolves.refl hv

/-- The invariant survives every rewriting that makes the reservations evolve and
keeps the books of each budget. -/
theorem Sound.rewrite {t : BudgetTables} (ht : t.Sound)
    {f : BudgetReservation → BudgetReservation} {budgets : String → Option BudgetRow}
    (hid : ∀ r, (f r).reservationId = r.reservationId) (hbudget : ∀ r, (f r).budget = r.budget)
    (hf : ∀ r ∈ t.reservations, r.Evolves (f r))
    (hlimit : ∀ name, (budgets name).map (·.limitAmount) =
      (t.budgets name).map (·.limitAmount))
    (hcommitted : ∀ name row, budgets name = some row → row.committedAmount =
      Quota.used BudgetReservation.budget BudgetReservation.hold name (t.reservations.map f)) :
    Sound { t with budgets := budgets, reservations := t.reservations.map f } where
  unique := ht.unique.map hid
  valid := by
    intro r' hr'
    obtain ⟨r, hr, rfl⟩ := List.mem_map.mp hr'
    exact (hf r hr).hold.valid (ht.valid r hr)
  token_nonneg := by
    intro r' hr'
    obtain ⟨r, hr, rfl⟩ := List.mem_map.mp hr'
    rw [(hf r hr).fencingToken_eq]
    exact ht.token_nonneg r hr
  funded := by
    intro r' hr'
    obtain ⟨r, hr, rfl⟩ := List.mem_map.mp hr'
    obtain ⟨row, hrow⟩ := ht.funded r hr
    have h := hlimit r.budget
    rw [hrow, Option.map_some, Option.map_eq_some_iff] at h
    obtain ⟨row', hrow', -⟩ := h
    exact ⟨row', by rw [hbudget]; exact hrow'⟩
  committed := hcommitted
  within := by
    intro name row' hrow'
    have hrow'' : budgets name = some row' := hrow'
    have h := hlimit name
    rw [hrow'', Option.map_some, eq_comm, Option.map_eq_some_iff] at h
    obtain ⟨row, hrow, hle⟩ := h
    calc _ ≤ Quota.exposure BudgetReservation.budget BudgetReservation.hold name t.reservations :=
          Quota.exposure_map_le hbudget fun r hr ↦ (hf r hr).hold
      _ ≤ row.limitAmount := ht.within name row hrow
      _ = row'.limitAmount := hle

theorem Sound.reclaimStale {t : BudgetTables} (ht : t.Sound) (now : Time) :
    (t.reclaimStale now).Sound := by
  refine ht.rewrite (t.reclaimRow_id now) (t.reclaimRow_budget now)
    (fun r hr ↦ reclaimRow_evolves (ht.valid r hr) now) (fun _ ↦ rfl) ?_
  intro name row hrow
  rw [ht.committed name row hrow, Quota.used, Quota.used,
    Quota.total_map (t.reclaimRow_budget now)]
  refine congrArg (fun g ↦ Quota.total _ g name t.reservations) (funext fun r ↦ ?_)
  unfold reclaimRow
  split <;> rfl

/-- Rewriting the row of one active reservation. -/
theorem Sound.updateReservation {t : BudgetTables} (ht : t.Sound) {r : BudgetReservation}
    (hrow : t.reservationRow r.reservationId = some r)
    {f : BudgetReservation → BudgetReservation} (budgets : String → Option BudgetRow)
    (hid : ∀ x, (f x).reservationId = x.reservationId) (hbudget : ∀ x, (f x).budget = x.budget)
    (hf : r.Evolves (f r))
    (hlimit : ∀ name, (budgets name).map (·.limitAmount) =
      (t.budgets name).map (·.limitAmount))
    (hcommitted : ∀ name row', budgets name = some row' → ∃ row, t.budgets name = some row ∧
      row'.committedAmount = row.committedAmount +
        if r.budget = name then (f r).completed - r.completed else 0) :
    ({ t with budgets := budgets }.updateReservation r.reservationId f).Sound := by
  have hf' : ∀ x ∈ t.reservations,
      x.Evolves (if x.reservationId = r.reservationId then f x else x) := by
    intro x hx
    split
    · next hkey =>
        have hx' := Rows.lookup_of_mem ht.unique hx
        rw [hkey] at hx'
        obtain rfl : r = x := Option.some.inj (hrow.symm.trans hx')
        exact hf
    · exact BudgetReservation.Evolves.refl (ht.valid x hx)
  refine ht.rewrite (fun x ↦ by split <;> simp [hid]) (fun x ↦ by split <;> simp [hbudget]) hf'
    hlimit ?_
  intro name row' hrow'
  obtain ⟨row, hold, heq⟩ := hcommitted name row' hrow'
  have hused := Quota.total_update ht.unique hrow (hbudget r)
    (fun x ↦ (BudgetReservation.hold x).used) name
  rw [heq, ht.committed name row hold]
  exact hused.symm

theorem Sound.chargeTo {t : BudgetTables} (ht : t.Sound) {now : Time} {r : BudgetReservation}
    {completed : ℤ} {closing : Bool} (hrow : t.reservationRow r.reservationId = some r)
    (hactive : r.status = .active) (hle : r.completed ≤ completed)
    (hamount : completed ≤ r.amount) : (t.chargeTo now r completed closing).Sound := by
  refine ht.updateReservation hrow (t.addCommitted r.budget _).budgets (fun _ ↦ rfl)
    (fun _ ↦ rfl) (BudgetReservation.Evolves.charge hactive hle hamount _ now) ?_ ?_
  · intro name
    rw [addCommitted_budgets, Option.map_map]
    refine congrArg (fun f ↦ Option.map f (t.budgets name)) (funext fun row ↦ ?_)
    simp only [Function.comp_apply]
    split <;> rfl
  · intro name row' hrow'
    rw [addCommitted_budgets, Option.map_eq_some_iff] at hrow'
    obtain ⟨row, hrow, rfl⟩ := hrow'
    refine ⟨row, hrow, ?_⟩
    by_cases h : name = r.budget
    · simp [h]
    · simp [h, Ne.symm h]

theorem Sound.cancelRow {t : BudgetTables} (ht : t.Sound) {now : Time} {r : BudgetReservation}
    (hrow : t.reservationRow r.reservationId = some r) (hactive : r.status = .active) :
    (t.cancelRow now r.reservationId).Sound := by
  have hv := ht.valid r (Rows.mem_of_lookup hrow)
  refine ht.updateReservation hrow t.budgets (fun _ ↦ rfl) (fun _ ↦ rfl)
    (BudgetReservation.Evolves.charge hactive (le_refl _) hv.le .cancelled now) (fun _ ↦ rfl) ?_
  exact fun name row h ↦ ⟨row, h, by simp⟩

theorem Sound.issueRow {t : BudgetTables} (ht : t.Sound) {now : Time} {r : BudgetReservation}
    {row : BudgetRow} (hfresh : t.reservationRow r.reservationId = none)
    (hactive : r.status = .active) (hzero : r.completed = 0) (hpos : 0 < r.amount)
    (hrow : t.budgets r.budget = some row)
    (hfence : t.fenceCurrent r.leaseId r.fencingToken now = true)
    (hroom : r.amount ≤ row.limitAmount - row.committedAmount - t.reserved r.budget) :
    (t.issueRow r).Sound where
  unique := ht.unique.append hfresh
  valid := by
    intro x hx
    rcases List.mem_append.mp hx with hx | hx
    · exact ht.valid x hx
    · obtain rfl := List.mem_singleton.mp hx
      exact ⟨by simp [hzero], by simp [hzero, hpos.le]⟩
  token_nonneg := by
    intro x hx
    rcases List.mem_append.mp hx with hx | hx
    · exact ht.token_nonneg x hx
    · obtain rfl := List.mem_singleton.mp hx
      exact fencingToken_nonneg_of_fenceCurrent hfence
  funded := by
    intro x hx
    rcases List.mem_append.mp hx with hx | hx
    · exact ht.funded x hx
    · obtain rfl := List.mem_singleton.mp hx
      exact ⟨row, hrow⟩
  committed := by
    intro name row' hrow'
    rw [ht.committed name row' hrow', Quota.used, Quota.used]
    simp only [BudgetTables.issueRow]
    rw [Quota.total_append]
    simp [hzero]
  within := by
    intro name row' hrow'
    have hin := ht.within name row' hrow'
    simp only [BudgetTables.issueRow]
    rw [Quota.exposure] at hin ⊢
    rw [Quota.total_append]
    by_cases h : r.budget = name
    · subst h
      obtain rfl : row = row' := Option.some.inj (hrow.symm.trans hrow')
      have hexp := ht.exposure_eq hrow
      rw [Quota.exposure] at hexp
      have hr : r.hold.exposure = r.amount := by simp [Quota.Hold.exposure, hactive]
      rw [if_pos rfl, hr, hexp]
      omega
    · rw [if_neg h, add_zero]
      exact hin

theorem Sound.configured {t : BudgetTables} (ht : t.Sound) {name : String} {limit : ℤ}
    (hlimit : 0 ≤ limit) (hnew : t.budgets name = none) :
    Sound { t with budgets := Function.update t.budgets name (some ⟨limit, 0⟩) } := by
  have hnone : ∀ g, Quota.total BudgetReservation.budget g name t.reservations = 0 := by
    intro g
    refine List.sum_eq_zero fun x hx ↦ ?_
    obtain ⟨r, hr, rfl⟩ := List.mem_map.mp hx
    obtain ⟨row, hrow⟩ := ht.funded r hr
    rw [if_neg]
    rintro rfl
    rw [hnew] at hrow
    cases hrow
  refine ⟨ht.unique, ht.valid, ht.token_nonneg, ?_, ?_, ?_⟩
  · intro r hr
    obtain ⟨row, hrow⟩ := ht.funded r hr
    have hne : r.budget ≠ name := by
      rintro rfl
      rw [hnew] at hrow
      cases hrow
    exact ⟨row, by simp [hne, hrow]⟩
  · intro name' row hrow
    by_cases h : name' = name
    · subst h
      obtain rfl : ⟨limit, 0⟩ = row := by simpa using hrow
      exact (hnone _).symm
    · exact ht.committed name' row (by simpa [h] using hrow)
  · intro name' row hrow
    by_cases h : name' = name
    · subst h
      obtain rfl : ⟨limit, 0⟩ = row := by simpa using hrow
      rw [Quota.exposure, hnone]
      exact hlimit
    · exact ht.within name' row (by simpa [h] using hrow)

/-- **Every change keeps the books in order.** -/
theorem Change.sound {t t' : BudgetTables} {now : Time} (h : Change t now t') (ht : t.Sound) :
    t'.Sound := by
  cases h with
  | configured name limit hlimit hnew => exact ht.configured hlimit hnew
  | swept => exact ht.reclaimStale now
  | issued r row hfresh hactive hzero hpos hrow hfence hroom =>
      exact ht.issueRow hfresh hactive hzero hpos hrow hfence hroom
  | charged r completed closing hrow hactive hle hamount hfence =>
      exact ht.chargeTo hrow hactive hle hamount
  | cancelled r hrow hactive hfence => exact ht.cancelRow hrow hactive

theorem Changes.sound {t t' : BudgetTables} {now : Time} (h : Changes t now t') (ht : t.Sound) :
    t'.Sound := by
  induction h with
  | refl => exact ht
  | tail _ h ih => exact h.sound ih

/-! ## Reservations evolve -/

/-- A reservation that is there before a change is there after it, evolved. -/
theorem Change.evolves {t t' : BudgetTables} {now : Time} (h : Change t now t') (ht : t.Sound)
    {id : String} {r : BudgetReservation} (hr : t.reservationRow id = some r) :
    ∃ r', t'.reservationRow id = some r' ∧ r.Evolves r' := by
  have hv := ht.valid r (Rows.mem_of_lookup hr)
  have hself := BudgetReservation.Evolves.refl hv
  -- A rewriting of the row `x` reaches `r` only when `r` is that row.
  have hupdate : ∀ {x : BudgetReservation} {f : BudgetReservation → BudgetReservation},
      t.reservationRow x.reservationId = some x → (∀ y, (f y).reservationId = y.reservationId) →
      x.Evolves (f x) → ∃ r', Rows.lookup BudgetReservation.reservationId id
        (Rows.update BudgetReservation.reservationId x.reservationId f t.reservations) = some r' ∧
        r.Evolves r' := by
    intro x f hx hid hf
    rw [Rows.lookup_update fun y hy ↦ (hid y).trans hy]
    have hr' : Rows.lookup BudgetReservation.reservationId id t.reservations = some r := hr
    by_cases h : id = x.reservationId
    · subst h
      obtain rfl : r = x := Option.some.inj (hr.symm.trans hx)
      exact ⟨f r, by simp [hr'], hf⟩
    · exact ⟨r, by simp [h, hr'], hself⟩
  cases h with
  | configured name limit hlimit hnew => exact ⟨r, hr, hself⟩
  | swept => exact ⟨_, by rw [reclaimStale_row, hr]; rfl, reclaimRow_evolves hv now⟩
  | issued x row hfresh hactive hzero hpos hrow hfence hroom =>
      have hr' : Rows.lookup BudgetReservation.reservationId id t.reservations = some r := hr
      exact ⟨r, by simp [reservationRow, issueRow, Rows.lookup_append, hr'], hself⟩
  | charged x completed closing hrow hactive hle hamount hfence =>
      exact hupdate hrow (fun _ ↦ rfl)
        (BudgetReservation.Evolves.charge hactive hle hamount _ now)
  | cancelled x hrow hactive hfence =>
      have hvx := ht.valid x (Rows.mem_of_lookup hrow)
      exact hupdate hrow (fun _ ↦ rfl)
        (BudgetReservation.Evolves.charge hactive (le_refl _) hvx.le .cancelled now)

theorem Changes.evolves {t t' : BudgetTables} {now : Time} (h : Changes t now t') (ht : t.Sound)
    {id : String} {r : BudgetReservation} (hr : t.reservationRow id = some r) :
    ∃ r', t'.reservationRow id = some r' ∧ r.Evolves r' := by
  induction h with
  | refl => exact ⟨r, hr, .refl (ht.valid r (Rows.mem_of_lookup hr))⟩
  | tail hs h ih =>
      obtain ⟨r', hr', he⟩ := ih
      obtain ⟨r'', hr'', he'⟩ := h.evolves (Changes.sound hs ht) hr'
      exact ⟨r'', hr'', he.trans he'⟩

end Blackbase.Resources.BudgetTables
