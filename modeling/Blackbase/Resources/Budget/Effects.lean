import Blackbase.Resources.Budget.Authority

/-!
# What one call does to one reservation

A call names at most one reservation and reserves at no more than one budget.
`CallEffect` says what a call may do to the tables together with which reservation and
which budget it does it to, so that what it leaves alone can be read off: every other
reservation is at most reclaimed (`Swept`).

`complete_row`, `consume_row`, `cancel_row`, `reserve_row` and `lookup_row` then say what
the calls on a given reservation answer and do, from the reservation alone.
-/

namespace Blackbase.Resources

/-- The reservation a call names. -/
def BudgetCall.target : BudgetCall → Option String
  | .reserve _ _ _ _ given generated => some (identifierOr given generated)
  | .complete id _ | .consume id _ | .cancel id => some id
  | .configure _ _ | .status _ | .reservation _ => none

/-- The budget a call reserves at, and the lease it reserves under. -/
def BudgetCall.reserves : BudgetCall → Option (String × String × ℤ)
  | .reserve budget _ leaseId fencingToken _ _ =>
      match budgetName budget with
      | .ok name => some (name, leaseId, fencingToken)
      | .error _ => none
  | _ => none

/-- The budget a call configures. -/
def BudgetCall.configures : BudgetCall → Option String
  | .configure budget _ =>
      match budgetName budget with
      | .ok name => some name
      | .error _ => none
  | _ => none

namespace BudgetTables

/-- What a call may do to the tables. -/
inductive CallEffect (t : BudgetTables) (now : Time) (c : BudgetCall) : BudgetTables → Prop
  | same : CallEffect t now c t
  | swept : CallEffect t now c (t.reclaimStale now)
  | configured (name : String) (limit : ℤ) (hcall : c.configures = some name)
      (hnew : t.budgets name = none) :
      CallEffect t now c { t with budgets := Function.update t.budgets name (some ⟨limit, 0⟩) }
  | issued (r : BudgetReservation) (htarget : c.target = some r.reservationId)
      (hreserves : c.reserves = some (r.budget, r.leaseId, r.fencingToken))
      (hfresh : (t.reclaimStale now).reservationRow r.reservationId = none)
      (hactive : r.status = .active) (hzero : r.completed = 0)
      (hfence : t.fenceCurrent r.leaseId r.fencingToken now = true) :
      CallEffect t now c ((t.reclaimStale now).issueRow r)
  | charged (r : BudgetReservation) (completed : ℤ) (closing : Bool)
      (htarget : c.target = some r.reservationId)
      (hrow : t.reservationRow r.reservationId = some r) (hactive : r.status = .active)
      (hle : r.completed ≤ completed) (hamount : completed ≤ r.amount)
      (hfence : t.fenceCurrent r.leaseId r.fencingToken now = true) :
      CallEffect t now c (t.chargeTo now r completed closing)
  | cancelled (r : BudgetReservation) (htarget : c.target = some r.reservationId)
      (hrow : t.reservationRow r.reservationId = some r) (hactive : r.status = .active)
      (hfence : t.fenceCurrent r.leaseId r.fencingToken now = true) :
      CallEffect t now c (t.cancelRow now r.reservationId)

theorem exec_effect (t : BudgetTables) (now : Time) (c : BudgetCall) :
    CallEffect t now c (t.exec now c).2 := by
  cases c with
  | configure budget limit =>
      rw [exec]
      rcases t.configure_spec budget limit with ⟨-, h⟩ | ⟨name, hname, -, -, ⟨hnew, h⟩ | ⟨_, -, -, h⟩⟩
      · rw [h]
        exact .same
      · rw [h]
        exact .configured name limit (by simp [BudgetCall.configures, hname]) hnew
      · rw [h]
        exact .same
  | status budget =>
      rw [exec]
      rcases t.status_spec now budget with ⟨-, h⟩ | ⟨_, _, -, -, -, h⟩
      · rw [h]
        exact .same
      · rw [h]
        exact .swept
  | reservation id =>
      rw [exec]
      rcases t.reservation_spec now id with ⟨-, h, -⟩ | ⟨-, -, h⟩
      · rw [h]
        exact .same
      · rw [h]
        exact .swept
  | reserve budget amount leaseId token given generated =>
      rw [exec]
      rcases t.reserve_spec now budget amount leaseId token given generated with
        ⟨-, h⟩ | ⟨name, hname, -, hfence, ⟨_, -, -, -, -, -, h⟩ | ⟨row, hfresh, -, -, h⟩⟩
      · rw [h]
        exact .same
      · rw [h]
        exact .swept
      · rw [h]
        refine .issued _ rfl ?_ hfresh rfl rfl hfence
        simp [BudgetCall.reserves, hname, issuedReservation]
  | complete id completed =>
      rw [exec]
      rcases t.complete_spec now id completed with
        ⟨-, h⟩ | ⟨_, -, -, -, h⟩ | ⟨r, hrow, hactive, hle, hamount, hfence, h⟩
      · rw [h]
        exact .same
      · rw [h]
        exact .same
      · obtain rfl := Rows.key_of_lookup hrow
        rw [h]
        exact .charged r _ _ rfl hrow hactive hle hamount hfence
  | consume id amount =>
      rw [exec]
      rcases t.consume_spec now id amount with ⟨-, h⟩ | ⟨r, hrow, hactive, hpos, hamount, hfence, h⟩
      · rw [h]
        exact .same
      · obtain rfl := Rows.key_of_lookup hrow
        rw [h]
        exact .charged r _ _ rfl hrow hactive (by omega) hamount hfence
  | cancel id =>
      rw [exec]
      rcases t.cancel_spec now id with ⟨h, -⟩ | ⟨r, hrow, hactive, hfence, h⟩
      · rw [h]
        exact .same
      · obtain rfl := Rows.key_of_lookup hrow
        rw [h]
        exact .cancelled r rfl hrow hactive hfence

/-! ## What a call leaves alone -/

variable {t t' : BudgetTables} {now : Time} {c : BudgetCall}

/-- The row `o` of a reservation after a call that does not name it: the reservation may
have been reclaimed, because its lease is lost. -/
def Swept (t : BudgetTables) (now : Time) (o o' : Option BudgetReservation) : Prop :=
  o' = o ∨ o' = o.map (t.reclaimRow now)

theorem updateReservation_row (t : BudgetTables) (id id' : String)
    {f : BudgetReservation → BudgetReservation} (hf : ∀ r, (f r).reservationId = r.reservationId) :
    (t.updateReservation id f).reservationRow id' =
      if id' = id then (t.reservationRow id').map f else t.reservationRow id' :=
  Rows.lookup_update (fun r hr ↦ (hf r).trans hr) t.reservations

theorem chargeTo_row (t : BudgetTables) (now : Time) (r : BudgetReservation) (completed : ℤ)
    (closing : Bool) (id : String) :
    (t.chargeTo now r completed closing).reservationRow id =
      if id = r.reservationId then (t.reservationRow id).map fun x ↦
        { x with status := bif closing then .completed else x.status,
                 completed := completed, updatedAt := now }
      else t.reservationRow id :=
  (t.addCommitted r.budget (completed - r.completed)).updateReservation_row r.reservationId id
    fun _ ↦ rfl

theorem cancelRow_row (t : BudgetTables) (now : Time) (id id' : String) :
    (t.cancelRow now id).reservationRow id' =
      if id' = id then (t.reservationRow id').map fun x ↦
        { x with status := .cancelled, updatedAt := now }
      else t.reservationRow id' :=
  t.updateReservation_row id id' fun _ ↦ rfl

/-- A call leaves the reservations it does not name alone, up to the reclamation. -/
theorem CallEffect.row (h : CallEffect t now c t') {id : String} (hid : c.target ≠ some id) :
    Swept t now (t.reservationRow id) (t'.reservationRow id) := by
  have hother : ∀ {r : BudgetReservation}, c.target = some r.reservationId →
      id ≠ r.reservationId := by
    rintro r hr rfl
    exact hid hr
  cases h with
  | same => exact .inl rfl
  | swept => exact .inr (t.reclaimStale_row now id)
  | configured name limit hcall hnew => exact .inl rfl
  | issued r htarget =>
      refine .inr ?_
      have hne : ¬ r.reservationId = id := fun h ↦ hother htarget h.symm
      rw [← t.reclaimStale_row now id]
      simp [reservationRow, issueRow, Rows.lookup_append, hne]
  | charged r completed closing htarget =>
      rw [chargeTo_row, if_neg (hother htarget)]
      exact .inl rfl
  | cancelled r htarget =>
      rw [cancelRow_row, if_neg (hother htarget)]
      exact .inl rfl

/-- What a budget has given away. -/
def exposure (t : BudgetTables) (budget : String) : ℤ :=
  Quota.exposure BudgetReservation.budget BudgetReservation.hold budget t.reservations

theorem CallEffect.leases (h : CallEffect t now c t') : t'.leases = t.leases := by
  cases h <;> rfl

/-! ## Why a call is refused -/

theorem complete_error {id : String} {completed : ℤ} {e : BudgetError} (hid : id ≠ "")
    (h : (t.complete now id completed).1 = .error e) :
    (t.reservationRow id = none ∧ ∃ m, e = .key m) ∨
      ∃ r, t.reservationRow id = some r ∧ ¬ (r.status = .completed ∧ r.completed = max 0 completed) ∧
        ((r.status ≠ .active ∧ ∃ m, e = .fence m) ∨
          (r.status = .active ∧ (r.amount < max 0 completed ∨ max 0 completed < r.completed) ∧
            ∃ m, e = .value m) ∨
          (r.status = .active ∧ t.fenceCurrent r.leaseId r.fencingToken now = false ∧
            ∃ m, e = .fence m)) := by
  rw [complete, reservationId, if_neg hid] at h
  dsimp only at h
  split at h
  · next hnone => exact .inl ⟨hnone, _, (Except.error.inj h).symm⟩
  next r hr =>
  refine .inr ⟨r, hr, ?_⟩
  split at h
  · cases h
  next hdone =>
  refine ⟨hdone, ?_⟩
  split at h
  · next hclosed => exact .inl ⟨hclosed, _, (Except.error.inj h).symm⟩
  next hactive =>
  have hactive := not_not.mp hactive
  split at h
  · next hlt => exact .inr (.inl ⟨hactive, .inl hlt, _, (Except.error.inj h).symm⟩)
  split at h
  · next hlt => exact .inr (.inl ⟨hactive, .inr hlt, _, (Except.error.inj h).symm⟩)
  split at h
  · next hlost => exact .inr (.inr ⟨hactive, by simpa using hlost, _, (Except.error.inj h).symm⟩)
  · cases h

theorem consume_error {id : String} {amount : ℤ} {e : BudgetError} (hid : id ≠ "")
    (hpos : 0 < amount) (h : (t.consume now id amount).1 = .error e) :
    ∀ r, t.reservationRow id = some r →
      ¬ (r.status = .active ∧ r.completed + amount ≤ r.amount ∧
        t.fenceCurrent r.leaseId r.fencingToken now = true) := by
  rintro r hr ⟨hactive, hle, hfence⟩
  rw [consume, reservationId, if_neg hid, reservationAmount, if_neg (not_le.mpr hpos)] at h
  dsimp only at h
  rw [hr] at h
  dsimp only at h
  rw [if_neg (not_not.mpr hactive), if_neg (not_lt.mpr hle), hfence] at h
  cases h

theorem cancel_row (t : BudgetTables) (now : Time) {id : String} (hid : id ≠ "") :
    (∃ flag, (t.cancel now id).1 = .ok (.flag flag)) ∧
    ((∃ r, t.reservationRow id = some r ∧ r.status = .active ∧
        t.fenceCurrent r.leaseId r.fencingToken now = true ∧
        (t.cancel now id).2.reservationRow id =
          some { r with status := .cancelled, updatedAt := now }) ∨
      ((t.cancel now id).2.reservationRow id = t.reservationRow id ∧
        ∀ r, t.reservationRow id = some r → r.status = .active →
          t.fenceCurrent r.leaseId r.fencingToken now = false)) := by
  rw [cancel, reservationId, if_neg hid]
  dsimp only
  split
  · next hnone => exact ⟨⟨false, rfl⟩, .inr ⟨rfl, fun r hr ↦ by cases hnone.symm.trans hr⟩⟩
  next r hr =>
  split
  · next hopen =>
      refine ⟨⟨false, rfl⟩, .inr ⟨rfl, fun r' hr' hactive ↦ ?_⟩⟩
      obtain rfl := Option.some.inj (hr.symm.trans hr')
      exact hopen.resolve_left (not_not.mpr hactive)
  · next hopen =>
      obtain ⟨hactive, hfence⟩ := not_or.mp hopen
      refine ⟨⟨true, rfl⟩, .inl ⟨r, hr, not_not.mp hactive, by simpa using hfence, ?_⟩⟩
      rw [updateReservation_row _ _ _ (fun _ ↦ by rfl), if_pos rfl, hr]
      rfl

end BudgetTables

/-! ## The reservations of a store -/

namespace BudgetStore

/-- The row of a reservation. -/
def row (b : BudgetStore) (id : String) : Option BudgetReservation := b.view.reservationRow id

/-- The lease fence is current at the reading `now`. -/
def current (b : BudgetStore) (leaseId : String) (fencingToken : ℤ) (now : Time) : Bool :=
  b.view.fenceCurrent leaseId fencingToken now

/-- What a budget has given away. -/
def exposure (b : BudgetStore) (budget : String) : ℤ := b.view.exposure budget

variable {b : BudgetStore} {now : Time}

theorem Sound.effect (hb : b.Sound) (now : Time) (c : BudgetCall) :
    BudgetTables.CallEffect b.view now c (b.exec now c).2.view := by
  rcases (hb.executes now c).view with h | ⟨-, h⟩
  · rw [h]
    exact b.view.exec_effect now c
  · rw [h]
    exact .swept

theorem Sound.exec_current (hb : b.Sound) (now : Time) (c : BudgetCall) (leaseId : String)
    (fencingToken : ℤ) (now' : Time) :
    (b.exec now c).2.current leaseId fencingToken now' = b.current leaseId fencingToken now' := by
  rw [current, current, BudgetTables.fenceCurrent, (hb.effect now c).leases]
  rfl

theorem Sound.exec_row (hb : b.Sound) (now : Time) {c : BudgetCall} {id : String}
    (hid : c.target ≠ some id) :
    BudgetTables.Swept b.view now (b.row id) ((b.exec now c).2.row id) :=
  (hb.effect now c).row hid

/-- A refused call leaves every reservation alone, up to the reclamation. -/
theorem Sound.error_row (hb : b.Sound) {c : BudgetCall} {e : BudgetError}
    (h : (b.exec now c).1 = .error e) (id : String) :
    BudgetTables.Swept b.view now (b.row id) ((b.exec now c).2.row id) := by
  have hx := hb.executes now c
  rcases hx.view with hview | ⟨-, hview⟩
  · refine .inl ?_
    rw [row, hview, BudgetTables.exec_error (hx.outcome.symm.trans h)]
    rfl
  · refine .inr ?_
    rw [row, hview]
    exact b.view.reclaimStale_row now id

/-- A call that answers does to the store what it does to the tables. -/
theorem Sound.view_of_ok (hb : b.Sound) {c : BudgetCall} {reply : BudgetReply}
    (h : (b.view.exec now c).1 = .ok reply) :
    (b.exec now c).2.view = (b.view.exec now c).2 := by
  rcases (hb.executes now c).view with hview | ⟨⟨e, he⟩, -⟩
  · exact hview
  · cases h.symm.trans he

/-- `complete`, from the reservation it names. -/
theorem Sound.complete_row (hb : b.Sound) {id : String} (hid : id ≠ "") {completed : ℤ}
    (hn : 0 ≤ completed) :
    let res := b.exec now (.complete id completed)
    (∃ r, b.row id = some r ∧ r.status = .completed ∧ r.completed = completed ∧
      res.1 = .ok (.reservation r) ∧ res.2.row id = some r) ∨
    (∃ r, b.row id = some r ∧ r.status = .active ∧ r.completed ≤ completed ∧
      completed ≤ r.amount ∧ b.current r.leaseId r.fencingToken now = true ∧
      res.1 = .ok (.reservation
        { r with status := .completed, completed := completed, updatedAt := now }) ∧
      res.2.row id =
        some { r with status := .completed, completed := completed, updatedAt := now }) ∨
    (∃ e, res.1 = .error e ∧ BudgetTables.Swept b.view now (b.row id) (res.2.row id) ∧
      ((∃ m, e = .fence m) → ∃ r, b.row id = some r ∧
        ¬ (r.status = .completed ∧ r.completed = completed) ∧
        (r.status = .active → b.current r.leaseId r.fencingToken now = false)) ∧
      ∀ r, b.row id = some r → ¬ (r.status = .completed ∧ r.completed = completed) ∧
        ¬ (r.status = .active ∧ r.completed ≤ completed ∧ completed ≤ r.amount ∧
          b.current r.leaseId r.fencingToken now = true)) := by
  intro res
  have hmax : max 0 completed = completed := max_eq_right hn
  have houtcome : res.1 = (b.view.complete now id completed).1 := (hb.executes now _).outcome
  rcases b.view.complete_spec now id completed with
    ⟨⟨e, he⟩, -⟩ | ⟨r, hr, hdone, hsame, h⟩ | ⟨r, hr, hactive, hle, hamount, hfence, h⟩
  · refine .inr (.inr ⟨e, houtcome.trans he, hb.error_row (houtcome.trans he) id, ?_, ?_⟩)
    · rintro ⟨m, rfl⟩
      rcases BudgetTables.complete_error hid he with ⟨-, m', hm⟩ | ⟨r, hr, hdone, hwhy⟩
      · cases hm
      · rw [hmax] at hdone
        refine ⟨r, hr, hdone, fun hactive ↦ ?_⟩
        rcases hwhy with ⟨hclosed, -⟩ | ⟨-, -, m', hm⟩ | ⟨-, hlost, -⟩
        · exact absurd hactive hclosed
        · cases hm
        · exact hlost
    · intro r hr
      rcases BudgetTables.complete_error hid he with ⟨hnone, -⟩ | ⟨r', hr', hdone, hwhy⟩
      · cases hnone.symm.trans hr
      · obtain rfl := Option.some.inj (hr'.symm.trans hr)
        rw [hmax] at hdone hwhy
        refine ⟨hdone, fun ⟨hactive, hle, hamount, hfence⟩ ↦ ?_⟩
        rcases hwhy with ⟨hclosed, -⟩ | ⟨-, hout, -⟩ | ⟨-, hlost, -⟩
        · exact hclosed hactive
        · omega
        · cases hfence.symm.trans hlost
  · have hview := hb.view_of_ok (c := .complete id completed) (congrArg Prod.fst h)
    refine .inl ⟨r, hr, hdone, hsame.trans hmax, houtcome.trans (congrArg Prod.fst h), ?_⟩
    rw [row, hview, BudgetTables.exec, h]
    exact hr
  · rw [hmax] at h hle hamount
    have hview := hb.view_of_ok (c := .complete id completed) (congrArg Prod.fst h)
    refine .inr (.inl ⟨r, hr, hactive, hle, hamount, hfence,
      houtcome.trans (congrArg Prod.fst h), ?_⟩)
    have hkey : r.reservationId = id := Rows.key_of_lookup hr
    rw [row, hview, BudgetTables.exec, h, BudgetTables.chargeTo_row, if_pos hkey.symm, hr]
    rfl

/-- `consume`, from the reservation it names. -/
theorem Sound.consume_row (hb : b.Sound) {id : String} (hid : id ≠ "") {amount : ℤ}
    (hpos : 0 < amount) :
    let res := b.exec now (.consume id amount)
    (∃ r, b.row id = some r ∧ r.status = .active ∧ r.completed + amount ≤ r.amount ∧
      b.current r.leaseId r.fencingToken now = true ∧
      res.1 = .ok (.reservation { r with completed := r.completed + amount, updatedAt := now }) ∧
      res.2.row id = some { r with completed := r.completed + amount, updatedAt := now }) ∨
    (∃ e, res.1 = .error e ∧ BudgetTables.Swept b.view now (b.row id) (res.2.row id) ∧
      ∀ r, b.row id = some r → ¬ (r.status = .active ∧ r.completed + amount ≤ r.amount ∧
        b.current r.leaseId r.fencingToken now = true)) := by
  intro res
  have houtcome : res.1 = (b.view.consume now id amount).1 := (hb.executes now _).outcome
  rcases b.view.consume_spec now id amount with
    ⟨⟨e, he⟩, -⟩ | ⟨r, hr, hactive, -, hle, hfence, h⟩
  · exact .inr ⟨e, houtcome.trans he, hb.error_row (houtcome.trans he) id,
      BudgetTables.consume_error hid hpos he⟩
  · have hview := hb.view_of_ok (c := .consume id amount) (congrArg Prod.fst h)
    refine .inl ⟨r, hr, hactive, hle, hfence, houtcome.trans (congrArg Prod.fst h), ?_⟩
    have hkey : r.reservationId = id := Rows.key_of_lookup hr
    rw [row, hview, BudgetTables.exec, h, BudgetTables.chargeTo_row, if_pos hkey.symm, hr]
    rfl

/-- `cancel`, from the reservation it names. -/
theorem Sound.cancel_row (hb : b.Sound) {id : String} (hid : id ≠ "") :
    let res := b.exec now (.cancel id)
    (∃ flag, res.1 = .ok (.flag flag)) ∧
    ((∃ r, b.row id = some r ∧ r.status = .active ∧
        b.current r.leaseId r.fencingToken now = true ∧
        res.2.row id = some { r with status := .cancelled, updatedAt := now }) ∨
      (res.2.row id = b.row id ∧ ∀ r, b.row id = some r → r.status = .active →
        b.current r.leaseId r.fencingToken now = false)) := by
  intro res
  obtain ⟨⟨flag, hflag⟩, hrow⟩ := b.view.cancel_row now hid
  have hview : res.2.view = (b.view.cancel now id).2 := hb.view_of_ok (c := .cancel id) hflag
  refine ⟨⟨flag, (hb.executes now _).outcome.trans hflag⟩, ?_⟩
  rw [row, row, hview]
  exact hrow

/-- `reservation`: the row, after the reclamation. -/
theorem Sound.lookup_row (hb : b.Sound) {id : String} (hid : id ≠ "") :
    let res := b.exec now (.reservation id)
    res.1 = .ok (.found (res.2.row id)) ∧
      res.2.row id = (b.row id).map (b.view.reclaimRow now) := by
  intro res
  rcases b.view.reservation_spec now id with ⟨-, -, h⟩ | ⟨-, hok, h⟩
  · exact absurd h hid
  · have hview := hb.view_of_ok (c := .reservation id) hok
    have hrow : res.2.row id = (b.view.reclaimStale now).reservationRow id := by
      rw [row, hview, BudgetTables.exec, h]
    refine ⟨?_, ?_⟩
    · rw [hrow]
      exact (hb.executes now _).outcome.trans hok
    · rw [hrow]
      exact b.view.reclaimStale_row now id

/-- `reserve` under an id that is not in use. -/
theorem Sound.reserve_row (hb : b.Sound) {budget leaseId id generated : String}
    {amount fencingToken : ℤ} (hid : id ≠ "") (hfresh : b.row id = none) :
    let res := b.exec now (.reserve budget amount leaseId fencingToken (some id) generated)
    (∃ r, res.1 = .ok (.reservation r) ∧ res.2.row id = some r ∧ r.reservationId = id ∧
      budgetName budget = .ok r.budget ∧ r.amount = amount ∧ r.leaseId = leaseId ∧
      r.fencingToken = fencingToken ∧ r.status = .active ∧ r.completed = 0 ∧
      b.current leaseId fencingToken now = true) ∨
    (∃ e, res.1 = .error e ∧ res.2.row id = none) := by
  intro res
  have houtcome : res.1 =
      (b.view.reserve now budget amount leaseId fencingToken (some id) generated).1 :=
    (hb.executes now _).outcome
  have hidentifier : identifierOr (some id) generated = id := if_neg hid
  have hswept : (b.view.reclaimStale now).reservationRow id = none := by
    have hnone : b.view.reservationRow id = none := hfresh
    rw [BudgetTables.reclaimStale_row, hnone]
    rfl
  rcases b.view.reserve_spec now budget amount leaseId fencingToken (some id) generated with
    ⟨⟨e, he⟩, -⟩ | ⟨name, hname, -, hfence, ⟨r, hr, -⟩ | ⟨row', hnone, -, -, h⟩⟩
  · refine .inr ⟨e, houtcome.trans he, ?_⟩
    rcases hb.error_row (houtcome.trans he) id with h | h
    · exact h.trans hfresh
    · rw [h, hfresh]
      rfl
  · rw [hidentifier, hswept] at hr
    cases hr
  · rw [hidentifier] at h
    have hview := hb.view_of_ok
      (c := .reserve budget amount leaseId fencingToken (some id) generated) (congrArg Prod.fst h)
    refine .inl ⟨_, houtcome.trans (congrArg Prod.fst h), ?_, rfl, hname, rfl, rfl, rfl, rfl, rfl,
      hfence⟩
    rw [row, hview, BudgetTables.exec, h, BudgetTables.issueRow, BudgetTables.reservationRow,
      Rows.lookup_append]
    have hnone : Rows.lookup BudgetReservation.reservationId id
        (b.view.reclaimStale now).reservations = none := hswept
    rw [hnone, Option.none_or]
    exact if_pos rfl

end BudgetStore

end Blackbase.Resources
