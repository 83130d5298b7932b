import Blackbase.Resources.Budget.Ledger
import Blackbase.Resources.Budget.Redis

/-!
# The Redis keys as budget tables

`RedisBudgets.view` reads the keys of a namespace and scope as the tables of the
SQLite authority, and `RedisBudgets.exec_view` compares the two authorities call
by call: on well-formed keys a Redis call answers what the SQLite call answers on
the view and leaves the view of its result behind, except that a refused Redis
call may leave the stale reservations reclaimed where SQLite rolls back.

`RedisBudgets.Wf` says which keys occur: the members of the id set are exactly the
ids under which a reservation is stored, and each payload reads back as it was
written.
-/

namespace Blackbase.Resources.RedisBudgets

/-- The keys read as tables. -/
def view (s : RedisBudgets) : BudgetTables where
  scope := s.scope
  leases := s.leases
  budgets := s.budgets
  reservations := s.reservationsLocked

/-- The id set and the reservation keys agree. -/
structure Wf (s : RedisBudgets) : Prop where
  nodup : s.reservationIds.Nodup
  stored : ∀ id ∈ s.reservationIds, ∃ r, s.reservations id = some r
  listed : ∀ id r, s.reservations id = some r → id ∈ s.reservationIds
  keyed : ∀ id r, s.reservations id = some r → r.reservationId = id
  readable : ∀ id r, s.reservations id = some r → r.fromDict = r

theorem wf_empty (scope : String) : (empty scope).Wf := by
  constructor <;> simp [empty]

@[simp] theorem view_empty (scope : String) : (empty scope).view = .empty scope := rfl

/-! ## Reading -/

@[simp] theorem view_scope (s : RedisBudgets) : s.view.scope = s.scope := rfl

@[simp] theorem view_budgets (s : RedisBudgets) : s.view.budgets = s.budgets := rfl

@[simp] theorem view_fenceCurrent (s : RedisBudgets) (leaseId : String) (token : ℤ)
    (now : Time) : s.view.fenceCurrent leaseId token now = s.fenceCurrent leaseId token now := rfl

@[simp] theorem view_reserved (s : RedisBudgets) (budget : String) :
    s.view.reserved budget = s.reserved budget := rfl

@[simp] theorem view_staleCount (s : RedisBudgets) (now : Time) :
    s.view.staleCount now = (s.staleReservations now).length := rfl

section Wf

variable {s : RedisBudgets} (hs : s.Wf)

include hs

theorem Wf.load (id : String) : s.loadReservation id = s.reservations id := by
  unfold loadReservation
  cases h : s.reservations id with
  | none => rfl
  | some r => rw [Option.map_some, hs.readable id r h]

theorem Wf.reservationsLocked_eq :
    s.reservationsLocked = s.reservationIds.filterMap s.reservations := by
  rw [reservationsLocked]
  exact congrArg (fun f ↦ s.reservationIds.filterMap f) (funext hs.load)

theorem Wf.map_id : s.reservationsLocked.map BudgetReservation.reservationId =
    s.reservationIds := by
  rw [hs.reservationsLocked_eq, List.map_filterMap]
  calc _ = s.reservationIds.filterMap some := by
        refine List.filterMap_congr fun id hid ↦ ?_
        obtain ⟨r, hr⟩ := hs.stored id hid
        rw [hr, Option.map_some, hs.keyed id r hr]
    _ = s.reservationIds := List.filterMap_some

theorem Wf.unique : Rows.Unique BudgetReservation.reservationId s.reservationsLocked := by
  rw [Rows.Unique, hs.map_id]
  exact hs.nodup

/-- A lookup in the view is a `GET` of the reservation key. -/
theorem Wf.view_row (id : String) : s.view.reservationRow id = s.reservations id := by
  have hmem : ∀ r, r ∈ s.reservationsLocked ↔ s.reservations r.reservationId = some r := by
    intro r
    rw [hs.reservationsLocked_eq, List.mem_filterMap]
    constructor
    · rintro ⟨k, -, hk⟩
      rw [hs.keyed k r hk, hk]
    · exact fun h ↦ ⟨_, hs.listed _ r h, h⟩
  cases h : s.reservations id with
  | none =>
      refine Rows.lookup_eq_none.mpr fun r hr hk ↦ ?_
      rw [← hk, (hmem r).mp hr] at h
      cases h
  | some r =>
      obtain rfl := hs.keyed id r h
      exact Rows.lookup_of_mem hs.unique ((hmem r).mpr h)

/-! ## Writing -/

/-- Overwriting a stored payload keeps the keys well-formed. -/
theorem Wf.setReservation {id : String} {r item : BudgetReservation}
    (hr : s.reservations id = some r) (hid : item.reservationId = id)
    (hitem : item.fromDict = item) : (s.setReservation id item).Wf where
  nodup := hs.nodup
  stored k hk := by
    by_cases h : k = id
    · exact ⟨item, by simp [RedisBudgets.setReservation, h]⟩
    · simpa [RedisBudgets.setReservation, h] using hs.stored k hk
  listed k x hx := by
    by_cases h : k = id
    · exact h ▸ hs.listed id r hr
    · exact hs.listed k x (by simpa [RedisBudgets.setReservation, h] using hx)
  keyed k x hx := by
    by_cases h : k = id
    · obtain rfl : item = x := by simpa [RedisBudgets.setReservation, h] using hx
      exact hid.trans h.symm
    · exact hs.keyed k x (by simpa [RedisBudgets.setReservation, h] using hx)
  readable k x hx := by
    by_cases h : k = id
    · obtain rfl : item = x := by simpa [RedisBudgets.setReservation, h] using hx
      exact hitem
    · exact hs.readable k x (by simpa [RedisBudgets.setReservation, h] using hx)

/-- Overwriting a stored payload is an `UPDATE` of its row. -/
theorem Wf.view_setReservation {id : String} {r : BudgetReservation}
    (f : BudgetReservation → BudgetReservation) (hr : s.reservations id = some r)
    (hid : (f r).reservationId = id) (hitem : (f r).fromDict = f r) :
    (s.setReservation id (f r)).view = s.view.updateReservation id f := by
  have hwf := hs.setReservation hr hid hitem
  have hrows : (s.setReservation id (f r)).reservationsLocked =
      Rows.update BudgetReservation.reservationId id f s.reservationsLocked := by
    rw [hwf.reservationsLocked_eq, hs.reservationsLocked_eq, Rows.update, List.map_filterMap]
    refine List.filterMap_congr fun k hk ↦ ?_
    obtain ⟨x, hx⟩ := hs.stored k hk
    by_cases h : k = id
    · subst h
      obtain rfl : r = x := Option.some.inj (hr.symm.trans hx)
      simp [RedisBudgets.setReservation, hr, hs.keyed k r hr]
    · simp [RedisBudgets.setReservation, h, hx, hs.keyed k x hx]
  rw [view, hrows]
  rfl

theorem Wf.setBudget (budget : String) (row : BudgetRow) : (s.setBudget budget row).Wf :=
  ⟨hs.nodup, hs.stored, hs.listed, hs.keyed, hs.readable⟩

theorem Wf.notMem {id : String} (hfresh : s.reservations id = none) :
    id ∉ s.reservationIds := by
  intro h
  obtain ⟨r, hr⟩ := hs.stored id h
  rw [hfresh] at hr
  cases hr

/-- Storing a reservation under a fresh id. -/
theorem Wf.issue (item : BudgetReservation)
    (hfresh : s.reservations item.reservationId = none) (hitem : item.fromDict = item) :
    ((s.setReservation item.reservationId item).addReservationId item.reservationId).Wf := by
  have hnot := hs.notMem hfresh
  have hids : ((s.setReservation item.reservationId item).addReservationId
      item.reservationId).reservationIds = s.reservationIds ++ [item.reservationId] := by
    simp [addReservationId, RedisBudgets.setReservation, hnot]
  constructor
  · rw [hids]
    exact List.Nodup.append hs.nodup (List.nodup_singleton _) (by simpa using hnot)
  · intro k hk
    rw [hids, List.mem_append, List.mem_singleton] at hk
    by_cases h : k = item.reservationId
    · exact ⟨item, by simp [addReservationId, RedisBudgets.setReservation, h]⟩
    · simpa [addReservationId, RedisBudgets.setReservation, h] using
        hs.stored k (hk.resolve_right h)
  · intro k x hx
    rw [hids, List.mem_append, List.mem_singleton]
    by_cases h : k = item.reservationId
    · exact .inr h
    · exact .inl (hs.listed k x
        (by simpa [addReservationId, RedisBudgets.setReservation, h] using hx))
  · intro k x hx
    by_cases h : k = item.reservationId
    · obtain rfl : item = x := by
        simpa [addReservationId, RedisBudgets.setReservation, h] using hx
      exact h.symm
    · exact hs.keyed k x (by simpa [addReservationId, RedisBudgets.setReservation, h] using hx)
  · intro k x hx
    by_cases h : k = item.reservationId
    · obtain rfl : item = x := by
        simpa [addReservationId, RedisBudgets.setReservation, h] using hx
      exact hitem
    · exact hs.readable k x
        (by simpa [addReservationId, RedisBudgets.setReservation, h] using hx)

theorem Wf.view_issue (item : BudgetReservation)
    (hfresh : s.reservations item.reservationId = none) (hitem : item.fromDict = item) :
    ((s.setReservation item.reservationId item).addReservationId item.reservationId).view =
      s.view.issueRow item := by
  have hnot := hs.notMem hfresh
  have hwf := hs.issue item hfresh hitem
  have hids : ((s.setReservation item.reservationId item).addReservationId
      item.reservationId).reservationIds = s.reservationIds ++ [item.reservationId] := by
    simp [addReservationId, RedisBudgets.setReservation, hnot]
  have hrows : ((s.setReservation item.reservationId item).addReservationId
      item.reservationId).reservationsLocked = s.reservationsLocked ++ [item] := by
    rw [hwf.reservationsLocked_eq, hs.reservationsLocked_eq, hids, List.filterMap_append]
    refine congrArg₂ (· ++ ·) (List.filterMap_congr fun k hk ↦ ?_) ?_
    · have hne : k ≠ item.reservationId := fun h ↦ hnot (h ▸ hk)
      simp [addReservationId, RedisBudgets.setReservation, hne]
    · simp [addReservationId, RedisBudgets.setReservation]
  rw [view, hrows]
  rfl

end Wf

/-! ## Reclaiming stale reservations -/

/-- What a row of `SET`s, one for each reservation of `rows`, leaves under a key. -/
theorem foldl_setReservation {g : BudgetReservation → BudgetReservation}
    {rows : List BudgetReservation}
    (hu : Rows.Unique BudgetReservation.reservationId rows) (s : RedisBudgets) (id : String) :
    (rows.foldl (fun s r ↦ s.setReservation r.reservationId (g r)) s).reservations id =
      ((Rows.lookup BudgetReservation.reservationId id rows).map g).or (s.reservations id) := by
  induction rows generalizing s with
  | nil => rfl
  | cons a rows ih =>
      have hu' : a.reservationId ∉ rows.map BudgetReservation.reservationId ∧
          Rows.Unique BudgetReservation.reservationId rows := by
        simpa [Rows.Unique, List.nodup_cons] using hu
      rw [List.foldl_cons, ih hu'.2, Rows.lookup_cons]
      by_cases h : a.reservationId = id
      · have hnone : Rows.lookup BudgetReservation.reservationId id rows = none :=
          Rows.lookup_eq_none.mpr fun b hb he ↦
            hu'.1 (h ▸ he ▸ List.mem_map_of_mem hb)
        simp [h, hnone, setReservation]
      · simp [h, Ne.symm h, setReservation]

theorem reclaimStale_frame (s : RedisBudgets) (now : Time) :
    (s.reclaimStale now).scope = s.scope ∧ (s.reclaimStale now).leases = s.leases ∧
      (s.reclaimStale now).budgets = s.budgets ∧
      (s.reclaimStale now).reservationIds = s.reservationIds := by
  unfold reclaimStale
  induction s.staleReservations now using List.reverseRecOn with
  | nil => exact ⟨rfl, rfl, rfl, rfl⟩
  | append_singleton rows r ih =>
      rw [List.foldl_append]
      exact ih

theorem Wf.reclaimStale_reservations {s : RedisBudgets} (hs : s.Wf) (now : Time) (id : String) :
    (s.reclaimStale now).reservations id =
      (s.reservations id).map (s.view.reclaimRow now) := by
  have hrow : Rows.lookup BudgetReservation.reservationId id s.reservationsLocked =
      s.reservations id := hs.view_row id
  have hstale : Rows.Unique BudgetReservation.reservationId (s.staleReservations now) :=
    hs.unique.filter _
  refine (foldl_setReservation hstale s id).trans ?_
  rw [staleReservations, Rows.lookup_filter hs.unique, hrow]
  cases h : s.reservations id with
  | none => rfl
  | some r =>
      rw [Option.filter_some]
      split
      · next hp =>
          have hp' : s.view.stale now r = true := hp
          simp [BudgetTables.reclaimRow, hp']
      · next hp =>
          have hp' : ¬ s.view.stale now r = true := hp
          simp [BudgetTables.reclaimRow, hp']

theorem fromDict_reclaimRow {t : BudgetTables} {now : Time} {r : BudgetReservation}
    (hr : r.fromDict = r) : (t.reclaimRow now r).fromDict = t.reclaimRow now r := by
  unfold BudgetTables.reclaimRow
  split
  · rw [BudgetReservation.ext_iff] at hr
    simp_all [BudgetReservation.fromDict]
  · exact hr

theorem Wf.reclaimStale {s : RedisBudgets} (hs : s.Wf) (now : Time) :
    (s.reclaimStale now).Wf := by
  obtain ⟨-, -, -, hids⟩ := s.reclaimStale_frame now
  constructor
  · rw [hids]
    exact hs.nodup
  · intro id hid
    rw [hids] at hid
    obtain ⟨r, hr⟩ := hs.stored id hid
    exact ⟨s.view.reclaimRow now r, by rw [hs.reclaimStale_reservations, hr, Option.map_some]⟩
  all_goals
    intro id x hx
    rw [hs.reclaimStale_reservations, Option.map_eq_some_iff] at hx
    obtain ⟨r, hr, rfl⟩ := hx
  · rw [hids]
    exact hs.listed id r hr
  · rw [BudgetTables.reclaimRow_id]
    exact hs.keyed id r hr
  · exact fromDict_reclaimRow (hs.readable id r hr)

theorem Wf.view_reclaimStale {s : RedisBudgets} (hs : s.Wf) (now : Time) :
    (s.reclaimStale now).view = s.view.reclaimStale now := by
  obtain ⟨hscope, hleases, hbudgets, hids⟩ := s.reclaimStale_frame now
  have hrows : (s.reclaimStale now).reservationsLocked =
      s.reservationsLocked.map (s.view.reclaimRow now) := by
    rw [(hs.reclaimStale now).reservationsLocked_eq, hs.reservationsLocked_eq, hids,
      List.map_filterMap]
    exact congrArg (fun f ↦ s.reservationIds.filterMap f)
      (funext fun id ↦ hs.reclaimStale_reservations now id)
  rw [view, hscope, hleases, hbudgets, hrows]
  rfl

/-! ## Every call simulates the SQLite call -/

/-- The result `o` of a call on the keys `s` against the result `q` of the same
call on the view of `s`. -/
structure Simulates (s : RedisBudgets) (now : Time) (o : BudgetOutcome × RedisBudgets)
    (q : BudgetOutcome × BudgetTables) : Prop where
  outcome : o.1 = q.1
  wf : o.2.Wf
  /-- A refused call may have reclaimed the stale reservations. -/
  view : o.2.view = q.2 ∨ ((∃ e, q.1 = .error e) ∧ o.2.view = s.view.reclaimStale now)

section Calls

variable {s : RedisBudgets} (hs : s.Wf)

include hs

/-- A call that leaves the keys alone. -/
theorem Wf.simulates_self {now : Time} {o : BudgetOutcome} :
    s.Simulates now (o, s) (o, s.view) :=
  ⟨rfl, hs, .inl rfl⟩

/-- A call that raises after reclaiming. -/
theorem Wf.simulates_swept {now : Time} {e : BudgetError} :
    s.Simulates now (.error e, s.reclaimStale now) (.error e, s.view) :=
  ⟨rfl, hs.reclaimStale now, .inr ⟨⟨e, rfl⟩, hs.view_reclaimStale now⟩⟩

/-- A call that answers after reclaiming. -/
theorem Wf.simulates_reclaimed {now : Time} {o : BudgetOutcome} :
    s.Simulates now (o, s.reclaimStale now) (o, s.view.reclaimStale now) :=
  ⟨rfl, hs.reclaimStale now, .inl (hs.view_reclaimStale now)⟩

theorem Wf.configure_simulates (now : Time) (budget : String) (limit : ℤ) :
    s.Simulates now (s.configure budget limit) (s.view.configure budget limit) := by
  simp only [RedisBudgets.configure, BudgetTables.configure, view_budgets]
  rcases budgetName budget with e | name
  · exact hs.simulates_self
  rcases budgetLimit limit with e | maximum
  · exact hs.simulates_self
  dsimp only
  rcases s.budgets name with _ | row
  · exact ⟨rfl, hs.setBudget _ _, .inl rfl⟩
  dsimp only
  split
  · exact hs.simulates_self
  · exact hs.simulates_self

theorem Wf.swept_row (now : Time) (id : String) :
    (s.reclaimStale now).loadReservation id = (s.view.reclaimStale now).reservationRow id := by
  rw [(hs.reclaimStale now).load, ← (hs.reclaimStale now).view_row, hs.view_reclaimStale]

theorem Wf.swept_reserved (now : Time) (budget : String) :
    (s.reclaimStale now).reserved budget = (s.view.reclaimStale now).reserved budget := by
  rw [← view_reserved, hs.view_reclaimStale]

theorem Wf.status_simulates (now : Time) (budget : String) :
    s.Simulates now (s.status now budget) (s.view.status now budget) := by
  obtain ⟨-, -, hbudgets, -⟩ := s.reclaimStale_frame now
  simp only [RedisBudgets.status, BudgetTables.status, BudgetTables.reclaimStale_budgets,
    view_budgets, view_scope, hbudgets, hs.swept_reserved, view_staleCount]
  rcases budgetName budget with e | name
  · exact hs.simulates_self
  dsimp only
  rcases s.budgets name with _ | row
  · exact hs.simulates_swept
  · exact hs.simulates_reclaimed

theorem Wf.reservation_simulates (now : Time) (id : String) :
    s.Simulates now (s.reservation now id) (s.view.reservation now id) := by
  simp only [RedisBudgets.reservation, BudgetTables.reservation, hs.swept_row]
  rcases reservationId id with e | identifier
  · exact hs.simulates_self
  · exact hs.simulates_reclaimed

theorem Wf.reserve_simulates (now : Time) (budget : String) (amount : ℤ) (leaseId : String)
    (token : ℤ) (given : Option String) (generated : String) :
    s.Simulates now (s.reserve now budget amount leaseId token given generated)
      (s.view.reserve now budget amount leaseId token given generated) := by
  obtain ⟨-, -, hbudgets, -⟩ := s.reclaimStale_frame now
  simp only [RedisBudgets.reserve, BudgetTables.reserve, BudgetTables.reclaimStale_budgets,
    view_budgets, view_scope, view_fenceCurrent, hbudgets, hs.swept_row, hs.swept_reserved]
  rcases budgetName budget with e | name
  · exact hs.simulates_self
  rcases hreq : reservationAmount amount with e | requested
  · exact hs.simulates_self
  have hpos := (BudgetTables.reservationAmount_pos hreq).2
  dsimp only
  by_cases hfence : s.fenceCurrent leaseId token now
  swap
  · simp only [hfence, Bool.not_false, ↓reduceIte]
    exact hs.simulates_self
  simp only [hfence, Bool.not_true, Bool.false_eq_true, ↓reduceIte]
  rcases hrow : (s.view.reclaimStale now).reservationRow (identifierOr given generated) with
    _ | existing
  · rcases s.budgets name with _ | row
    · dsimp only
      exact hs.simulates_swept
    dsimp only
    by_cases hover : requested > max 0 (row.limitAmount - row.committedAmount -
        (s.view.reclaimStale now).reserved name)
    · rw [if_pos hover, if_pos hover]
      exact hs.simulates_swept
    rw [if_neg hover, if_neg hover]
    have hswept := hs.reclaimStale now
    have hfresh : (s.reclaimStale now).reservations (identifierOr given generated) = none := by
      rw [← hswept.view_row, hs.view_reclaimStale, hrow]
    have htoken : 0 ≤ token :=
      BudgetTables.fencingToken_nonneg_of_fenceCurrent (t := s.view) hfence
    have hitem : (s.view.issuedReservation now (identifierOr given generated) name requested
        leaseId token).fromDict = _ :=
      BudgetReservation.fromDict_eq hpos.le htoken (le_refl _)
    refine ⟨rfl, hswept.issue _ hfresh hitem, .inl ?_⟩
    refine (hswept.view_issue _ hfresh hitem).trans ?_
    rw [hs.view_reclaimStale]
    rfl
  · dsimp only
    split
    · exact hs.simulates_reclaimed
    · exact hs.simulates_swept

/-- Charging a stored reservation: the budget key and the reservation key are set. -/
theorem Wf.simulates_charge (now : Time) (o : BudgetOutcome) (delta : ℤ)
    {r item : BudgetReservation} {row : BudgetRow} {f : BudgetReservation → BudgetReservation}
    (hr : s.reservations r.reservationId = some r) (hrow : s.budgets r.budget = some row)
    (hf : f r = item) (hid : item.reservationId = r.reservationId)
    (hitem : item.fromDict = item) :
    s.Simulates now (o, (s.setBudget r.budget { row with committedAmount :=
        row.committedAmount + delta }).setReservation r.reservationId item)
      (o, (s.view.addCommitted r.budget delta).updateReservation r.reservationId f) := by
  subst hf
  have hs' := hs.setBudget r.budget { row with committedAmount := row.committedAmount + delta }
  refine ⟨rfl, hs'.setReservation hr hid hitem, .inl ?_⟩
  refine (hs'.view_setReservation f hr hid hitem).trans ?_
  refine congrArg (fun t ↦ BudgetTables.updateReservation t r.reservationId f) ?_
  simp only [BudgetTables.addCommitted, view_budgets, hrow, Option.map_some]
  rfl

theorem Wf.complete_simulates (ht : s.view.Sound) (now : Time) (id : String) (completed : ℤ) :
    s.Simulates now (s.complete now id completed) (s.view.complete now id completed) := by
  simp only [RedisBudgets.complete, BudgetTables.complete, hs.view_row, hs.load,
    view_fenceCurrent]
  rcases reservationId id with e | identifier
  · exact hs.simulates_self
  dsimp only
  rcases hr : s.reservations identifier with _ | r
  · exact hs.simulates_self
  dsimp only
  obtain rfl := hs.keyed identifier r hr
  by_cases hdone : r.status = .completed ∧ r.completed = max 0 completed
  · rw [if_pos hdone, if_pos hdone]
    exact hs.simulates_self
  rw [if_neg hdone, if_neg hdone]
  by_cases hclosed : r.status ≠ .active
  · rw [if_pos hclosed, if_pos hclosed]
    exact hs.simulates_self
  rw [if_neg hclosed, if_neg hclosed]
  by_cases hover : max 0 completed > r.amount
  · rw [if_pos hover, if_pos hover]
    exact hs.simulates_self
  rw [if_neg hover, if_neg hover]
  by_cases hunder : max 0 completed < r.completed
  · rw [if_pos hunder, if_pos hunder]
    exact hs.simulates_self
  rw [if_neg hunder, if_neg hunder]
  by_cases hfence : s.fenceCurrent r.leaseId r.fencingToken now
  swap
  · simp only [hfence, Bool.not_false, ↓reduceIte]
    exact hs.simulates_self
  simp only [hfence, Bool.not_true, Bool.false_eq_true, ↓reduceIte]
  have hrow : s.view.reservationRow r.reservationId = some r := by rw [hs.view_row, hr]
  have hmem := Rows.mem_of_lookup hrow
  obtain ⟨row, hbudget⟩ := ht.funded r hmem
  have hbudget' : s.budgets r.budget = some row := hbudget
  have hv := ht.valid r hmem
  simp only [hbudget']
  have hitem := BudgetReservation.fromDict_eq (r := { r with
      status := .completed, completed := max 0 completed, updatedAt := now })
    (hv.nonneg.trans hv.le) (ht.token_nonneg r hmem) (le_max_left _ _)
  by_cases hdelta : max 0 completed - r.completed ≠ 0
  · rw [if_pos hdelta]
    exact hs.simulates_charge now _ _ hr hbudget' rfl rfl hitem
  · rw [if_neg hdelta, not_not.mp hdelta]
    have h := hs.simulates_charge now
      (.ok (.reservation { r with
        status := .completed, completed := max 0 completed, updatedAt := now })) 0 hr hbudget'
      (f := fun x ↦ { x with
        status := .completed, completed := max 0 completed, updatedAt := now }) rfl rfl hitem
    rw [BudgetTables.addCommitted_zero] at h
    exact h

theorem Wf.consume_simulates (ht : s.view.Sound) (now : Time) (id : String) (amount : ℤ) :
    s.Simulates now (s.consume now id amount) (s.view.consume now id amount) := by
  simp only [RedisBudgets.consume, BudgetTables.consume, hs.view_row, hs.load,
    view_fenceCurrent]
  rcases reservationId id with e | identifier
  · exact hs.simulates_self
  rcases hamount : reservationAmount amount with e | delta
  · exact hs.simulates_self
  have hpos := (BudgetTables.reservationAmount_pos hamount).2
  dsimp only
  rcases hr : s.reservations identifier with _ | r
  · exact hs.simulates_self
  dsimp only
  obtain rfl := hs.keyed identifier r hr
  by_cases hclosed : r.status ≠ .active
  · rw [if_pos hclosed, if_pos hclosed]
    exact hs.simulates_self
  rw [if_neg hclosed, if_neg hclosed]
  by_cases hover : r.completed + delta > r.amount
  · rw [if_pos hover, if_pos hover]
    exact hs.simulates_self
  rw [if_neg hover, if_neg hover]
  by_cases hfence : s.fenceCurrent r.leaseId r.fencingToken now
  swap
  · simp only [hfence, Bool.not_false, ↓reduceIte]
    exact hs.simulates_self
  simp only [hfence, Bool.not_true, Bool.false_eq_true, ↓reduceIte]
  have hrow : s.view.reservationRow r.reservationId = some r := by rw [hs.view_row, hr]
  have hmem := Rows.mem_of_lookup hrow
  obtain ⟨row, hbudget⟩ := ht.funded r hmem
  have hbudget' : s.budgets r.budget = some row := hbudget
  have hv := ht.valid r hmem
  simp only [hbudget']
  exact hs.simulates_charge now _ _ hr hbudget' rfl rfl
    (BudgetReservation.fromDict_eq (hv.nonneg.trans hv.le) (ht.token_nonneg r hmem)
      (add_nonneg hv.nonneg hpos.le))

theorem Wf.cancel_simulates (now : Time) (id : String) :
    s.Simulates now (s.cancel now id) (s.view.cancel now id) := by
  simp only [RedisBudgets.cancel, BudgetTables.cancel, hs.view_row, hs.load, view_fenceCurrent]
  rcases reservationId id with e | identifier
  · exact hs.simulates_self
  dsimp only
  rcases hr : s.reservations identifier with _ | r
  · exact hs.simulates_self
  dsimp only
  obtain rfl := hs.keyed identifier r hr
  by_cases hclosed : r.status ≠ .active ∨ s.fenceCurrent r.leaseId r.fencingToken now = false
  · simp only [hclosed, ↓reduceIte]
    exact hs.simulates_self
  simp only [hclosed, ↓reduceIte]
  have hitem : BudgetReservation.fromDict { r with status := .cancelled, updatedAt := now } =
      { r with status := .cancelled, updatedAt := now } := by
    have h := hs.readable _ r hr
    rw [BudgetReservation.ext_iff] at h ⊢
    simpa [BudgetReservation.fromDict] using h
  exact ⟨rfl, hs.setReservation hr rfl hitem, .inl (hs.view_setReservation
    (fun x ↦ { x with status := .cancelled, updatedAt := now }) hr rfl hitem)⟩

/-- **The Redis authority does call by call what the SQLite authority does on the
tables the keys stand for**, up to the reclamation a refused call leaves behind. -/
theorem Wf.exec_simulates (ht : s.view.Sound) (now : Time) (c : BudgetCall) :
    s.Simulates now (s.exec now c) (s.view.exec now c) := by
  cases c with
  | configure budget limit => exact hs.configure_simulates now budget limit
  | status budget => exact hs.status_simulates now budget
  | reservation id => exact hs.reservation_simulates now id
  | reserve budget amount leaseId token given generated =>
      exact hs.reserve_simulates now budget amount leaseId token given generated
  | complete id completed => exact hs.complete_simulates ht now id completed
  | consume id amount => exact hs.consume_simulates ht now id amount
  | cancel id => exact hs.cancel_simulates now id

end Calls

end Blackbase.Resources.RedisBudgets
