import Blackbase.Resources.Budget.RedisView

/-!
# Safety of the shared budgets

The two budget authorities behind one interface, `BudgetStore`, and the runs of a
store: any number of clients call it in any order, each at the clock reading its
call sees, while other programs rewrite the leases the reservations are fenced by.

What every run keeps is read off the tables `BudgetStore.view`, which for SQLite
are the store itself and for Redis what its keys stand for.
-/

namespace Blackbase.Resources

/-- The store of one of the two authorities. -/
inductive BudgetStore where
  | sqlite (t : BudgetTables)
  | redis (s : RedisBudgets)

/-- The authority a store belongs to. -/
inductive BudgetBackend where
  | sqlite
  | redis
deriving DecidableEq, Repr

namespace BudgetStore

/-- A store in which nothing has been written yet. -/
def empty : BudgetBackend → String → BudgetStore
  | .sqlite, scope => .sqlite (.empty scope)
  | .redis, scope => .redis (.empty scope)

/-- The tables a store stands for. -/
def view : BudgetStore → BudgetTables
  | .sqlite t => t
  | .redis s => s.view

/-- One call, as one atomic step on the store. -/
def exec : BudgetStore → Time → BudgetCall → BudgetOutcome × BudgetStore
  | .sqlite t, now, c => ((t.exec now c).1, .sqlite (t.exec now c).2)
  | .redis s, now, c => ((s.exec now c).1, .redis (s.exec now c).2)

/-- Another program writes the row of a lease, or deletes it. -/
def setLease (leaseId : String) (lease : Option ResourceLease) : BudgetStore → BudgetStore
  | .sqlite t => .sqlite { t with leases := Function.update t.leases leaseId lease }
  | .redis s => .redis { s with leases := Function.update s.leases leaseId lease }

/-- The representation is well-formed; for SQLite there is nothing to say. -/
def Wf : BudgetStore → Prop
  | .sqlite _ => True
  | .redis s => s.Wf

/-- A well-formed store whose books are in order. -/
structure Sound (b : BudgetStore) : Prop where
  wf : b.Wf
  tables : b.view.Sound

theorem sound_empty (backend : BudgetBackend) (scope : String) : (empty backend scope).Sound := by
  cases backend with
  | sqlite => exact ⟨trivial, BudgetTables.sound_empty scope⟩
  | redis => exact ⟨RedisBudgets.wf_empty scope, BudgetTables.sound_empty scope⟩

theorem setLease_view (leaseId : String) (lease : Option ResourceLease) (b : BudgetStore) :
    (b.setLease leaseId lease).view =
      { b.view with leases := Function.update b.view.leases leaseId lease } := by
  cases b <;> rfl

theorem Sound.setLease {b : BudgetStore} (hb : b.Sound) (leaseId : String)
    (lease : Option ResourceLease) : (b.setLease leaseId lease).Sound := by
  refine ⟨?_, ?_⟩
  · cases b with
    | sqlite t => trivial
    | redis s => exact ⟨hb.wf.nodup, hb.wf.stored, hb.wf.listed, hb.wf.keyed, hb.wf.readable⟩
  · rw [setLease_view]
    exact hb.tables.setLeases _

/-! ## A call on a store is a call on its tables -/

/-- What a call does to a sound store, read off the tables. -/
structure Executes (b : BudgetStore) (now : Time) (c : BudgetCall) : Prop where
  outcome : (b.exec now c).1 = (b.view.exec now c).1
  wf : (b.exec now c).2.Wf
  /-- A refused call on Redis may have reclaimed the stale reservations. -/
  view : (b.exec now c).2.view = (b.view.exec now c).2 ∨
    ((∃ e, (b.view.exec now c).1 = .error e) ∧
      (b.exec now c).2.view = b.view.reclaimStale now)

theorem Sound.executes {b : BudgetStore} (hb : b.Sound) (now : Time) (c : BudgetCall) :
    b.Executes now c := by
  cases b with
  | sqlite t => exact ⟨rfl, trivial, .inl rfl⟩
  | redis s =>
      have h := RedisBudgets.Wf.exec_simulates hb.wf hb.tables now c
      exact ⟨h.outcome, h.wf, h.view⟩

/-- On either authority the effect of a call is a sequence of changes. -/
theorem Sound.exec_changes {b : BudgetStore} (hb : b.Sound) (now : Time) (c : BudgetCall) :
    b.view.Changes now (b.exec now c).2.view := by
  rcases (hb.executes now c).view with h | ⟨-, h⟩
  · rw [h]
    exact b.view.exec_changes now c
  · rw [h]
    exact BudgetTables.Change.swept.changes

theorem Sound.exec {b : BudgetStore} (hb : b.Sound) (now : Time) (c : BudgetCall) :
    (b.exec now c).2.Sound :=
  ⟨(hb.executes now c).wf, BudgetTables.Changes.sound (hb.exec_changes now c) hb.tables⟩

theorem Sound.limit_exec {b : BudgetStore} (hb : b.Sound) (now : Time) (c : BudgetCall)
    (name : String) :
    (b.exec now c).2.view.limit name = (b.view.limit name).or (c.limitFor name) := by
  rw [← b.view.limit_exec now c name]
  rcases (hb.executes now c).view with h | ⟨⟨e, he⟩, h⟩
  · rw [h]
  · rw [h, BudgetTables.exec_error he, BudgetTables.limit_reclaimStale]

end BudgetStore

/-! ## Runs -/

/-- One atomic step of a run: a call of some client, or a lease row rewritten by an
acquisition, a renewal, a release or the expiry sweep of the lease store. -/
inductive BudgetEvent where
  | call (now : Time) (c : BudgetCall)
  | lease (leaseId : String) (lease : Option ResourceLease)

/-- The limit an event configures for budget `name`. -/
def BudgetEvent.limitFor (name : String) : BudgetEvent → Option ℤ
  | .call _ c => c.limitFor name
  | .lease _ _ => none

/-- The limit budget `name` was first configured with. -/
def firstConfigured (name : String) (events : List BudgetEvent) : Option ℤ :=
  events.findSome? (BudgetEvent.limitFor name)

namespace BudgetStore

/-- What one event does to the store. -/
def apply (b : BudgetStore) : BudgetEvent → BudgetStore
  | .call now c => (b.exec now c).2
  | .lease leaseId lease => b.setLease leaseId lease

/-- The store after a sequence of events. -/
def run (b : BudgetStore) (events : List BudgetEvent) : BudgetStore := events.foldl apply b

theorem run_append (b : BudgetStore) (events more : List BudgetEvent) :
    b.run (events ++ more) = (b.run events).run more := List.foldl_append

/-- One step: the store stays sound, the reservations that are there evolve, and a
limit that is set stays. -/
theorem Sound.apply {b : BudgetStore} (hb : b.Sound) (e : BudgetEvent) : (b.apply e).Sound := by
  cases e with
  | call now c => exact hb.exec now c
  | lease leaseId lease => exact hb.setLease leaseId lease

theorem Sound.apply_evolves {b : BudgetStore} (hb : b.Sound) (e : BudgetEvent) {id : String}
    {r : BudgetReservation} (hr : b.view.reservationRow id = some r) :
    ∃ r', (b.apply e).view.reservationRow id = some r' ∧ r.Evolves r' := by
  cases e with
  | call now c => exact BudgetTables.Changes.evolves (hb.exec_changes now c) hb.tables hr
  | lease leaseId lease =>
      refine ⟨r, ?_, .refl (hb.tables.valid r (Rows.mem_of_lookup hr))⟩
      rw [BudgetStore.apply, setLease_view]
      exact hr

theorem Sound.limit_apply {b : BudgetStore} (hb : b.Sound) (e : BudgetEvent) (name : String) :
    (b.apply e).view.limit name = (b.view.limit name).or (e.limitFor name) := by
  cases e with
  | call now c => exact hb.limit_exec now c name
  | lease leaseId lease =>
      rw [BudgetStore.apply, setLease_view, BudgetEvent.limitFor, Option.or_none]
      rfl

/-- A whole run. -/
theorem Sound.run {b : BudgetStore} (hb : b.Sound) (events : List BudgetEvent) :
    (b.run events).Sound := by
  induction events generalizing b with
  | nil => exact hb
  | cons e events ih => exact ih (hb.apply e)

theorem Sound.run_evolves {b : BudgetStore} (hb : b.Sound) (events : List BudgetEvent)
    {id : String} {r : BudgetReservation} (hr : b.view.reservationRow id = some r) :
    ∃ r', (b.run events).view.reservationRow id = some r' ∧ r.Evolves r' := by
  induction events generalizing b r with
  | nil => exact ⟨r, hr, .refl (hb.tables.valid r (Rows.mem_of_lookup hr))⟩
  | cons e events ih =>
      obtain ⟨r', hr', he⟩ := hb.apply_evolves e hr
      obtain ⟨r'', hr'', he'⟩ := ih (hb.apply e) hr'
      exact ⟨r'', hr'', he.trans he'⟩

theorem Sound.limit_run {b : BudgetStore} (hb : b.Sound) (events : List BudgetEvent)
    (name : String) :
    (b.run events).view.limit name =
      (b.view.limit name).or (firstConfigured name events) := by
  induction events generalizing b with
  | nil => simp [BudgetStore.run, firstConfigured]
  | cons e events ih =>
      have h := ih (hb.apply e)
      rw [BudgetStore.run, List.foldl_cons, ← BudgetStore.run, h, hb.limit_apply,
        firstConfigured, firstConfigured, List.findSome?_cons]
      cases b.view.limit name <;> cases e.limitFor name <;> rfl

end BudgetStore

/-! ## Safety -/

/-- What the books of a store guarantee after the run `events`. -/
structure SharedBudgetSafe (t : BudgetTables) (events : List BudgetEvent) : Prop where
  /-- The limit of a budget is the one it was first configured with. -/
  limit : ∀ name, (t.budgets name).map (·.limitAmount) = firstConfigured name events
  /-- What is committed is what all the reservations have completed. -/
  committed : ∀ name row, t.budgets name = some row → row.committedAmount =
    ((t.reservations.filter fun r ↦ r.budget = name).map (·.completed)).sum
  /-- The budget is never overdrawn. -/
  within : ∀ name row, t.budgets name = some row → row.committedAmount +
    ((t.reservations.filter fun r ↦ r.budget = name ∧ r.status = .active).map
      fun r ↦ r.amount - r.completed).sum ≤ row.limitAmount
  bounded : ∀ r ∈ t.reservations, 0 ≤ r.completed ∧ r.completed ≤ r.amount

theorem BudgetStore.Sound.safe {b : BudgetStore} (hb : b.Sound) {events : List BudgetEvent}
    (hlimit : ∀ name, b.view.limit name = firstConfigured name events) :
    SharedBudgetSafe b.view events where
  limit := hlimit
  committed name row hrow := by
    rw [hb.tables.committed name row hrow, Quota.used, Quota.total_filter_map]
    rfl
  within name row hrow := by
    have h := hb.tables.within name row hrow
    rw [hb.tables.exposure_eq hrow] at h
    exact h
  bounded r hr := ⟨(hb.tables.valid r hr).nonneg, (hb.tables.valid r hr).le⟩

/-- **Shared budget safety.**  On either authority, after any sequence of calls and
lease writes the books of every budget are in order, and a reservation that is
closed there is found unchanged, and is the only one of its id, after every further
sequence. -/
theorem shared_budget_safety (backend : BudgetBackend) (scope : String)
    (events : List BudgetEvent) :
    SharedBudgetSafe ((BudgetStore.empty backend scope).run events).view events ∧
    ∀ r ∈ ((BudgetStore.empty backend scope).run events).view.reservations,
      r.status ≠ .active → ∀ more : List BudgetEvent,
        r ∈ ((BudgetStore.empty backend scope).run (events ++ more)).view.reservations ∧
        ∀ r' ∈ ((BudgetStore.empty backend scope).run (events ++ more)).view.reservations,
          r'.reservationId = r.reservationId → r' = r := by
  have h₀ := BudgetStore.sound_empty backend scope
  have hb := h₀.run events
  refine ⟨hb.safe fun name ↦ ?_, ?_⟩
  · have hnone : (BudgetStore.empty backend scope).view.limit name = none := by
      cases backend <;> rfl
    rw [h₀.limit_run events name, hnone, Option.none_or]
  · intro r hr hclosed more
    have hrow := Rows.lookup_of_mem hb.tables.unique hr
    obtain ⟨r'', hrow'', he⟩ := hb.run_evolves more hrow
    rw [← BudgetStore.run_append] at hrow''
    obtain rfl := he.frozen hclosed
    refine ⟨Rows.mem_of_lookup hrow'', fun r' hr' hid ↦ ?_⟩
    have hrow' := Rows.lookup_of_mem (h₀.run (events ++ more)).tables.unique hr'
    rw [hid] at hrow'
    exact Option.some.inj (hrow'.symm.trans hrow'')

end Blackbase.Resources
