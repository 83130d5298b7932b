import Blackbase.Resources.Account.Holding
import Blackbase.Resources.Account.Limit
import Blackbase.Resources.Budget.Effects

/-!
# Reserving again under the same id

`BudgetAccount.reserve` is meant to be repeated: while a claim is open under a reservation id
it returns that claim, and an id whose claim has been closed is not to be given units again.
The account checks its limit first, against units that the claim itself has set aside, and it
forgets a claim when it is closed; only the row of an authority remembers the id.

A claim is followed by the id it was made under.  `Move` is what one step of the account or of
its authority does, and `Tracks` what every step keeps of a claim.
-/

namespace Blackbase.Resources

/-! ## The authority -/

namespace BudgetStore

variable {b : BudgetStore} {now : Time} {budget leaseId id generated : String}
  {given : Option String} {amount fencingToken : ℤ} {r : BudgetReservation}

/-- What is granted stands in the row of its id. -/
theorem Sound.reserve_reply (hb : b.Sound) {reply : BudgetReply}
    (h : (b.exec now (.reserve budget amount leaseId fencingToken given generated)).1 =
      .ok reply) :
    ∃ r, reply = .reservation r ∧ r.reservationId = identifierOr given generated ∧
      (b.exec now (.reserve budget amount leaseId fencingToken given generated)).2.row
        (identifierOr given generated) = some r ∧
      budgetName budget = .ok r.budget ∧ r.amount = amount ∧ r.leaseId = leaseId ∧
      r.fencingToken = fencingToken := by
  have houtcome : (b.view.reserve now budget amount leaseId fencingToken given generated).1 =
      .ok reply := (hb.executes now _).outcome.symm.trans h
  have hview := hb.view_of_ok
    (c := .reserve budget amount leaseId fencingToken given generated) houtcome
  rcases b.view.reserve_spec now budget amount leaseId fencingToken given generated with
    ⟨⟨e, he⟩, -⟩ | ⟨name, hname, -, -, ⟨r, hr, rfl, rfl, rfl, rfl, hres⟩ | ⟨-, hnone, -, -, hres⟩⟩
  · cases houtcome.symm.trans he
  · rw [hres] at houtcome
    refine ⟨r, (Except.ok.inj houtcome).symm, Rows.key_of_lookup hr, ?_, hname, rfl, rfl, rfl⟩
    rw [row, hview, BudgetTables.exec, hres]
    exact hr
  · rw [hres] at houtcome
    refine ⟨_, (Except.ok.inj houtcome).symm, rfl, ?_, hname, rfl, rfl, rfl⟩
    have hnone' : Rows.lookup BudgetReservation.reservationId (identifierOr given generated)
        (b.view.reclaimStale now).reservations = none := hnone
    rw [row, hview, BudgetTables.exec, hres, BudgetTables.issueRow, BudgetTables.reservationRow,
      Rows.lookup_append, hnone', Option.none_or]
    exact if_pos rfl

/-- A reservation that is there is returned as it is, if its fence is current. -/
theorem Sound.reserve_again (hb : b.Sound) (now : Time) (generated : String) (hid : id ≠ "")
    (hrow : b.row id = some r)
    (hbudget : budgetName budget = .ok r.budget) (hpos : 0 < r.amount)
    (hcurrent : b.current r.leaseId r.fencingToken now = true) :
    (b.exec now (.reserve budget r.amount r.leaseId r.fencingToken (some id) generated)).1 =
        .ok (.reservation r) ∧
      (b.exec now (.reserve budget r.amount r.leaseId r.fencingToken (some id) generated)).2.row
        id = some r := by
  have hrow' : b.view.reservationRow id = some r := hrow
  have hcurrent' : b.view.fenceCurrent r.leaseId r.fencingToken now = true := hcurrent
  have hswept : (b.view.reclaimStale now).reservationRow id = some r := by
    rw [BudgetTables.reclaimStale_row, hrow', Option.map_some, BudgetTables.reclaimRow,
      BudgetTables.stale, hcurrent']
    simp
  have hamount : reservationAmount r.amount = .ok r.amount := if_neg (not_le.mpr hpos)
  have hidentifier : identifierOr (some id) generated = id := if_neg hid
  have hreserve : b.view.exec now
      (.reserve budget r.amount r.leaseId r.fencingToken (some id) generated) =
        (.ok (.reservation r), b.view.reclaimStale now) := by
    rw [BudgetTables.exec, BudgetTables.reserve, hbudget, hamount]
    simp only [hcurrent', hidentifier, hswept]
    simp
  refine ⟨(hb.executes now _).outcome.trans (congrArg Prod.fst hreserve), ?_⟩
  rw [row, hb.view_of_ok (congrArg Prod.fst hreserve), hreserve]
  exact hswept

/-- A reservation that is consumed can be consumed. -/
theorem Sound.of_consume (hb : b.Sound) (hid : id ≠ "") (hpos : 0 < amount)
    (hrow : b.row id = some r) {reply : BudgetReply}
    (h : (b.exec now (.consume id amount)).1 = .ok reply) :
    r.status = .active ∧ r.completed + amount ≤ r.amount := by
  rcases hb.consume_row hid hpos with ⟨r', hr', hlive, hle, -⟩ | ⟨e, he, -⟩
  · obtain rfl := Option.some.inj (hr'.symm.trans hrow)
    exact ⟨hlive, hle⟩
  · cases h.symm.trans he

/-- A reservation with units left, under a current fence, is consumed. -/
theorem Sound.consume_ok (hb : b.Sound) (hid : id ≠ "") (hpos : 0 < amount)
    (hrow : b.row id = some r) (hlive : r.status = .active) (hle : r.completed + amount ≤ r.amount)
    (hcurrent : b.current r.leaseId r.fencingToken now = true) :
    ∃ reply, (b.exec now (.consume id amount)).1 = .ok reply := by
  rcases @consume_row b now hb id hid amount hpos with ⟨r', -, -, -, -, hok, -⟩ | ⟨e, -, -, hwhy⟩
  · exact ⟨_, hok⟩
  · exact absurd ⟨hlive, hle, hcurrent⟩ (hwhy r hrow)

theorem Sound.consume_reply (hb : b.Sound) (hid : id ≠ "") (hpos : 0 < amount)
    {reply : BudgetReply} (h : (b.exec now (.consume id amount)).1 = .ok reply) :
    ∃ r, reply = .reservation r ∧ r.reservationId = id := by
  rcases hb.consume_row hid hpos with ⟨r, hr, -, -, -, hok, -⟩ | ⟨e, he, -⟩
  · have hkey : r.reservationId = id := Rows.key_of_lookup hr
    exact ⟨_, Except.ok.inj (h.symm.trans hok), hkey⟩
  · cases h.symm.trans he

theorem Sound.complete_reply (hb : b.Sound) (hid : id ≠ "") (hnonneg : 0 ≤ amount)
    {reply : BudgetReply} (h : (b.exec now (.complete id amount)).1 = .ok reply) :
    ∃ r, reply = .reservation r ∧ r.reservationId = id := by
  rcases hb.complete_row hid hnonneg with
    ⟨r, hr, -, -, hok, -⟩ | ⟨r, hr, -, -, -, -, hok, -⟩ | ⟨e, he, -⟩
  · exact ⟨r, Except.ok.inj (h.symm.trans hok), Rows.key_of_lookup hr⟩
  · have hkey : r.reservationId = id := Rows.key_of_lookup hr
    exact ⟨_, Except.ok.inj (h.symm.trans hok), hkey⟩
  · cases h.symm.trans he

/-- Nothing is granted to a lease that is lost. -/
theorem Sound.reserve_lost (hb : b.Sound) (budget : String) (amount : ℤ) (given : Option String)
    (generated : String) (hlost : b.current leaseId fencingToken now = false) :
    ∃ e, (b.exec now (.reserve budget amount leaseId fencingToken given generated)).1 =
      .error e := by
  rcases b.view.reserve_spec now budget amount leaseId fencingToken given generated with
    ⟨⟨e, he⟩, -⟩ | ⟨-, -, -, hcurrent, -⟩
  · exact ⟨e, (hb.executes now _).outcome.trans he⟩
  · cases hcurrent.symm.trans hlost

end BudgetStore

namespace BudgetAccount

/-! ## Following a claim -/

/-- The reservation is the one that is asked for. -/
structure Asked (budget leaseId : String) (fencingToken amount : ℤ) (r : BudgetReservation) :
    Prop where
  budget : budgetName budget = .ok r.budget
  leaseId : r.leaseId = leaseId
  fencingToken : r.fencingToken = fencingToken
  amount : r.amount = amount

/-- The claim object `ref`, made on `amount` units under the reservation id `id`. -/
structure Tracks (a : BudgetAccount) (id : String) (amount : ℤ) (ref : ℕ) (c : BudgetClaim) :
    Prop where
  object : a.object ref = some c
  amount_eq : c.amount = amount
  claimId : Text.strip id = c.claimId
  id_ne : id ≠ ""
  listed : c.active → a.claimAt id = some ref
  closed : c.active = false → 0 < amount → c.claimId = id
  lone : a.authority = none → c.shared = none
  backed : 0 < amount → ∀ store, a.authority = some store → ∃ r row, c.shared = some r ∧
    r.reservationId = id ∧ store.row id = some row ∧
      Asked a.authorityBudget a.leaseId a.fencingToken amount row

/-- Every open claim is followed by the id it is listed under. -/
structure Backed (a : BudgetAccount) : Prop where
  sound : a.Sound
  store : ∀ store, a.authority = some store → store.Sound
  tracked : ∀ id ref, a.claimAt id = some ref →
    ∃ amount c, 0 < amount ∧ a.Tracks id amount ref c ∧ c.active

/-- The account after its authority has gone through `events`. -/
def elsewhere (a : BudgetAccount) (events : List BudgetEvent) : BudgetAccount :=
  { a with authority := a.authority.map (·.run events) }

@[simp] theorem elsewhere_object (a : BudgetAccount) (events : List BudgetEvent) (ref : ℕ) :
    (a.elsewhere events).object ref = a.object ref := rfl

@[simp] theorem elsewhere_claimAt (a : BudgetAccount) (events : List BudgetEvent) (id : String) :
    (a.elsewhere events).claimAt id = a.claimAt id := rfl

theorem elsewhere_nil (a : BudgetAccount) : a.elsewhere [] = a := by
  cases a with
  | mk budget authority leaseId token limit spent objects claims =>
      cases authority <;> rfl

/-- One step of the account or of its authority. -/
inductive Move (a : BudgetAccount) : BudgetAccount → Prop
  | elsewhere (events : List BudgetEvent) : Move a (a.elsewhere events)
  | zero (claim : BudgetClaim) (href : claim.ref = a.objects.length) (hamount : claim.amount = 0)
      (hconsumed : claim.consumed = 0) (hstatus : claim.status = .completed) :
      Move a { a with objects := a.objects ++ [claim] }
  | opened (id : String) (claim : BudgetClaim) (href : claim.ref = a.objects.length)
      (hamount : 0 < claim.amount) (hconsumed : claim.consumed = 0) (hactive : claim.active)
      (hnew : a.claimAt id = none)
      (htracks : (a.opened id claim).Tracks id claim.amount claim.ref claim) :
      Move a (a.opened id claim)
  | consumed (claim : BudgetClaim) (amount : ℤ) (shared : Option BudgetReservation)
      (hclaim : a.object claim.ref = some claim) (hactive : claim.active) (hpos : 0 < amount)
      (hle : amount ≤ claim.remaining)
      (hshared : shared.map (·.reservationId) = claim.shared.map (·.reservationId)) :
      Move a (a.updateObject claim.ref fun c ↦
        { c with shared := shared, consumed := c.consumed + amount })
  | closed (claim : BudgetClaim) (status : ClaimStatus) (shared : Option BudgetReservation)
      (hclaim : a.object claim.ref = some claim) (hactive : claim.active)
      (hentry : a.claimAt claim.claimId = some claim.ref) (hstatus : status ≠ .active)
      (hshared : shared.map (·.reservationId) = claim.shared.map (·.reservationId)) :
      Move a (a.close claim status shared)

/-- Any number of steps. -/
abbrev Moves : BudgetAccount → BudgetAccount → Prop := Relation.ReflTransGen Move

section Move

variable {a a' : BudgetAccount} {id : String} {amount : ℤ} {ref : ℕ} {c : BudgetClaim}

theorem Move.sound (h : Move a a') (ha : a.Sound) : a'.Sound := by
  cases h with
  | elsewhere events => exact ha.store _
  | zero claim href hamount hconsumed hstatus => exact ha.zero href hamount hconsumed hstatus
  | opened id claim href hamount hconsumed hactive hnew =>
      exact ha.opened href hamount.le hconsumed hactive hnew
  | consumed claim amount shared hclaim hactive hpos hle =>
      exact ha.consumed hclaim hactive hpos hle
  | closed claim status shared hclaim hactive hentry hstatus =>
      exact ha.close hclaim hactive hstatus hentry

/-- A claim is listed under one id. -/
theorem claimAt_inj (ha : a.Sound) {id id' : String} (h : a.claimAt id = some ref)
    (h' : a.claimAt id' = some ref) : id = id' := by
  obtain ⟨e, he, href⟩ := Option.map_eq_some_iff.mp h
  obtain ⟨e', he', href'⟩ := Option.map_eq_some_iff.mp h'
  have hsame : e = e' := ha.refs.eq_of_key (Rows.mem_of_lookup he) (Rows.mem_of_lookup he')
    (href.trans href'.symm)
  rw [← Rows.key_of_lookup he, ← Rows.key_of_lookup he', hsame]

/-- The entry of an id that is not the one of a closed claim. -/
theorem claimAt_close (ha : a.Sound) (claim : BudgetClaim) (status : ClaimStatus)
    (shared : Option BudgetReservation) (id : String) :
    (a.close claim status shared).claimAt id =
      if id = claim.claimId then none else a.claimAt id := by
  have hfilter := Rows.lookup_filter ha.keys (fun e ↦ e.1 ≠ claim.claimId) id
  have hlookup : (a.close claim status shared).claimAt id =
      ((Rows.lookup Prod.fst id a.claims).filter fun e ↦ e.1 ≠ claim.claimId).map Prod.snd :=
    congrArg (Option.map Prod.snd) hfilter
  rw [hlookup, claimAt]
  cases he : Rows.lookup Prod.fst id a.claims with
  | none => simp
  | some e =>
      rw [← Rows.key_of_lookup he]
      by_cases hkey : e.1 = claim.claimId
      · simp [hkey]
      · rw [if_neg hkey, Option.filter_some, if_pos (by simpa using hkey)]

/-- What a step keeps of a claim. -/
theorem Move.tracks (h : Move a a') (ha : a.Backed) (hc : a.Tracks id amount ref c) :
    ∃ c', a'.Tracks id amount ref c' ∧ c.consumed ≤ c'.consumed ∧ (c'.active → c.active) := by
  cases h with
  | elsewhere events =>
      refine ⟨c, ⟨hc.object, hc.amount_eq, hc.claimId, hc.id_ne, hc.listed, hc.closed, ?_, ?_⟩,
        le_rfl, fun h ↦ h⟩
      · intro hnone
        exact hc.lone (Option.map_eq_none_iff.mp hnone)
      · intro hpos store hstore
        obtain ⟨store', hstore', rfl⟩ := Option.map_eq_some_iff.mp hstore
        obtain ⟨r, row, hshared, hid, hrow, hasks⟩ := hc.backed hpos store' hstore'
        obtain ⟨row', hrow', hevolves⟩ := (ha.store store' hstore').run_evolves events hrow
        exact ⟨r, row', hshared, hid, hrow', hevolves.budget_eq ▸ hasks.budget,
          hevolves.leaseId_eq.trans hasks.leaseId,
          hevolves.fencingToken_eq.trans hasks.fencingToken,
          hevolves.hold.amount_eq.trans hasks.amount⟩
  | zero claim =>
      exact ⟨c, ⟨object_append claim hc.object, hc.amount_eq, hc.claimId, hc.id_ne, hc.listed,
        hc.closed, hc.lone, hc.backed⟩, le_rfl, fun h ↦ h⟩
  | opened id' claim =>
      refine ⟨c, ⟨object_append claim hc.object, hc.amount_eq, hc.claimId, hc.id_ne, ?_, hc.closed,
        hc.lone, hc.backed⟩, le_rfl, fun h ↦ h⟩
      intro hactive
      have hentry := hc.listed hactive
      obtain ⟨e, he, href⟩ := Option.map_eq_some_iff.mp hentry
      rw [claimAt, BudgetAccount.opened, Rows.lookup_append, he, Option.some_or]
      exact congrArg some href
  | consumed claim amount' shared hclaim hactive hpos hle hshared =>
      by_cases href : ref = claim.ref
      · subst href
        obtain rfl : claim = c := Option.some.inj (hclaim.symm.trans hc.object)
        refine ⟨{ claim with shared := shared, consumed := claim.consumed + amount' },
          ⟨?_, hc.amount_eq, hc.claimId, hc.id_ne, hc.listed, hc.closed, ?_, ?_⟩, ?_, fun h ↦ h⟩
        · rw [object_updateObject, if_pos rfl, hclaim]
          · rfl
          · exact fun _ ↦ rfl
        · intro hnone
          have hlone := hc.lone hnone
          rw [hlone] at hshared
          exact Option.map_eq_none_iff.mp hshared
        · intro hpos store hstore
          obtain ⟨r, row, hr, hid, hrow, hasks⟩ := hc.backed hpos store hstore
          rw [hr] at hshared
          obtain ⟨r', hr', hid'⟩ := Option.map_eq_some_iff.mp hshared
          exact ⟨r', row, hr', hid'.trans hid, hrow, hasks⟩
        · exact le_add_of_nonneg_right hpos.le
      · refine ⟨c, ⟨?_, hc.amount_eq, hc.claimId, hc.id_ne, hc.listed, hc.closed, hc.lone,
          hc.backed⟩, le_rfl, fun h ↦ h⟩
        rw [object_updateObject, if_neg href]
        · exact hc.object
        · exact fun _ ↦ rfl
  | closed claim status shared hclaim hactive hentry hstatus hshared =>
      have hobject : ∀ ref', (a.close claim status shared).object ref' =
          if ref' = claim.ref then
            (a.object ref').map fun c ↦ { c with status := status, shared := shared }
          else a.object ref' := by
        intro ref'
        exact object_updateObject (f := fun c ↦ { c with status := status, shared := shared }) a
          (fun _ ↦ rfl) ref'
      by_cases href : ref = claim.ref
      · subst href
        obtain rfl : claim = c := Option.some.inj (hclaim.symm.trans hc.object)
        have hclosed : BudgetClaim.active { claim with status := status, shared := shared } =
            false := decide_eq_false hstatus
        refine ⟨{ claim with status := status, shared := shared },
          ⟨?_, hc.amount_eq, hc.claimId, hc.id_ne, ?_, ?_, ?_, ?_⟩, le_rfl, fun _ ↦ hactive⟩
        · rw [hobject, if_pos rfl, hclaim]
          rfl
        · intro h
          rw [hclosed] at h
          cases h
        · intro _ _
          exact claimAt_inj ha.sound hentry (hc.listed hactive)
        · intro hnone
          have hlone := hc.lone hnone
          rw [hlone] at hshared
          exact Option.map_eq_none_iff.mp hshared
        · intro hpos store hstore
          obtain ⟨r, row, hr, hid, hrow, hasks⟩ := hc.backed hpos store hstore
          rw [hr] at hshared
          obtain ⟨r', hr', hid'⟩ := Option.map_eq_some_iff.mp hshared
          exact ⟨r', row, hr', hid'.trans hid, hrow, hasks⟩
      · refine ⟨c, ⟨?_, hc.amount_eq, hc.claimId, hc.id_ne, ?_, hc.closed, hc.lone,
          hc.backed⟩, le_rfl, fun h ↦ h⟩
        · rw [hobject, if_neg href]
          exact hc.object
        · intro hactive'
          rw [claimAt_close ha.sound, if_neg]
          · exact hc.listed hactive'
          · rintro rfl
            exact href (Option.some.inj ((hc.listed hactive').symm.trans hentry))

/-- The entries after a step are those before it, and the one of a claim that was opened. -/
theorem Move.claimAt (h : Move a a') (ha : a.Sound) (hentry : a'.claimAt id = some ref) :
    a.claimAt id = some ref ∨ ∃ claim, claim.ref = ref ∧ 0 < claim.amount ∧ claim.active ∧
      a'.Tracks id claim.amount ref claim := by
  cases h with
  | elsewhere events => exact .inl hentry
  | zero claim => exact .inl hentry
  | consumed claim amount' shared => exact .inl hentry
  | closed claim status shared =>
      rw [claimAt_close ha] at hentry
      split_ifs at hentry
      exact .inl hentry
  | opened id' claim href hamount hconsumed hactive hnew htracks =>
      have happend : (a.opened id' claim).claimAt id =
          ((Rows.lookup Prod.fst id a.claims).or
            (if id' = id then some (id', claim.ref) else none)).map Prod.snd :=
        congrArg (Option.map Prod.snd) (Rows.lookup_append id a.claims (id', claim.ref))
      rw [happend] at hentry
      cases hfound : Rows.lookup Prod.fst id a.claims with
      | some e =>
          rw [hfound, Option.some_or] at hentry
          exact .inl (by rw [BudgetAccount.claimAt, hfound, hentry])
      | none =>
          rw [hfound, Option.none_or] at hentry
          split_ifs at hentry with hid
          · obtain rfl : claim.ref = ref := Option.some.inj hentry
            subst hid
            exact .inr ⟨claim, rfl, hamount, hactive, htracks⟩
          · cases hentry

theorem Move.backed (h : Move a a') (ha : a.Backed) : a'.Backed where
  sound := h.sound ha.sound
  store := by
    cases h with
    | elsewhere events =>
        intro store hstore
        obtain ⟨store', hstore', rfl⟩ := Option.map_eq_some_iff.mp hstore
        exact (ha.store store' hstore').run events
    | zero => exact ha.store
    | opened => exact ha.store
    | consumed => exact ha.store
    | closed => exact ha.store
  tracked := by
    intro id ref hentry
    rcases h.claimAt ha.sound hentry with hbefore | ⟨claim, rfl, hamount, hactive, htracks⟩
    · obtain ⟨amount, c, hpos, hc, -⟩ := ha.tracked id ref hbefore
      obtain ⟨c', hc', -, -⟩ := h.tracks ha hc
      refine ⟨amount, c', hpos, hc', ?_⟩
      obtain ⟨e, he, href⟩ := Option.map_eq_some_iff.mp hentry
      obtain ⟨c'', hobject, hactive⟩ := (h.sound ha.sound).open_ e (Rows.mem_of_lookup he)
      rw [href] at hobject
      obtain rfl := Option.some.inj (hobject.symm.trans hc'.object)
      exact hactive
    · exact ⟨claim.amount, claim, hamount, htracks, hactive⟩

/-- An open claim has units. -/
theorem Backed.positive (ha : a.Backed) (hc : a.Tracks id amount ref c) (hactive : c.active) :
    0 < amount := by
  obtain ⟨amount', c', hpos, hc', -⟩ := ha.tracked id ref (hc.listed hactive)
  have hobject := hc'.object
  obtain rfl := Option.some.inj (hc.object.symm.trans hobject)
  exact hc.amount_eq ▸ hc'.amount_eq.symm ▸ hpos

theorem Moves.backed (h : Moves a a') (ha : a.Backed) : a'.Backed := by
  induction h with
  | refl => exact ha
  | tail _ h ih => exact h.backed ih

/-- What a run keeps of a claim. -/
theorem Moves.tracks (h : Moves a a') (ha : a.Backed) (hc : a.Tracks id amount ref c) :
    ∃ c', a'.Tracks id amount ref c' ∧ c.consumed ≤ c'.consumed ∧ (c'.active → c.active) := by
  induction h with
  | refl => exact ⟨c, hc, le_rfl, fun h ↦ h⟩
  | tail hs h ih =>
      obtain ⟨c', hc', hle, hopen⟩ := ih
      obtain ⟨c'', hc'', hle', hopen'⟩ := h.tracks (Moves.backed hs ha) hc'
      exact ⟨c'', hc'', hle.trans hle', fun h ↦ hopen (hopen' h)⟩

theorem Moves.elsewhere (a : BudgetAccount) (events : List BudgetEvent) :
    Moves a (a.elsewhere events) := .single (.elsewhere events)

end Move

/-! ## Calls -/

section Calls

variable {a : BudgetAccount} {now : Time} {id : String} {amount : ℤ} {ref : ℕ} {c : BudgetClaim}

/-- The authority's half of a call. -/
theorem onShared_elsewhere (a : BudgetAccount) (claim : BudgetClaim) (now : Time)
    (call : String → BudgetCall) :
    ∃ events, (a.onShared claim now call).2 = a.elsewhere events := by
  unfold onShared
  split
  · exact ⟨[], (elsewhere_nil a).symm⟩
  · exact ⟨[], (elsewhere_nil a).symm⟩
  · next r store hshared hstore =>
      refine ⟨[.call now (call r.reservationId)], ?_⟩
      have hrun : a.elsewhere [.call now (call r.reservationId)] =
          { a with authority := some (store.exec now (call r.reservationId)).2 } := by
        rw [BudgetAccount.elsewhere, hstore]
        rfl
      rw [hrun]
      split
      · next heq => rw [heq]
      · next heq => rw [heq]

/-- A claim that is open is followed by its own id. -/
theorem Backed.tracks (ha : a.Backed) {claim : BudgetClaim}
    (hclaim : a.requireActive ref = .ok claim) :
    0 < claim.amount ∧ a.Tracks claim.claimId claim.amount claim.ref claim := by
  obtain ⟨hobject, href, -, hentry⟩ := requireActive_spec hclaim
  obtain ⟨amount, c, hpos, hc, -⟩ := ha.tracked _ _ hentry
  have hobject' := hc.object
  rw [href] at hobject'
  obtain rfl : claim = c := Option.some.inj (hobject.symm.trans hobject')
  rw [hc.amount_eq]
  exact ⟨hpos, hc⟩

/-- The authority answers with the reservation it was asked about. -/
theorem onShared_ids (ha : a.Backed) (hpos : 0 < amount) (hc : a.Tracks id amount ref c)
    {call : String → BudgetCall}
    (hcall : ∀ (store : BudgetStore) (r : String) (reply : BudgetReply), store.Sound → r ≠ "" →
      (store.exec now (call r)).1 = .ok reply →
        ∃ r', reply = .reservation r' ∧ r'.reservationId = r)
    {shared : Option BudgetReservation} {a' : BudgetAccount}
    (h : a.onShared c now call = (.ok shared, a')) :
    shared.map (·.reservationId) = c.shared.map (·.reservationId) := by
  unfold onShared at h
  split at h
  · next hnone =>
      rw [hnone]
      obtain ⟨rfl, -⟩ := Prod.ext_iff.mp h |>.imp_left Except.ok.inj
      rfl
  · cases h
  · next r store hshared hstore =>
      obtain ⟨r₀, row, hr₀, hid, -⟩ := hc.backed hpos store hstore
      obtain rfl : r = r₀ := Option.some.inj (hshared.symm.trans hr₀)
      have hne : r.reservationId ≠ "" := hid ▸ hc.id_ne
      split at h
      · cases h
      · next reply store' heq =>
          obtain ⟨rfl, -⟩ := Prod.ext_iff.mp h |>.imp_left Except.ok.inj
          obtain ⟨r', rfl, hr'⟩ := hcall store r.reservationId reply (ha.store store hstore) hne
            (congrArg Prod.fst heq)
          rw [hshared]
          exact congrArg some hr'

theorem consume_moves (ha : a.Backed) (now : Time) (ref : ℕ) (amount : ℤ) :
    Moves a (a.consume now ref amount).2 := by
  unfold consume
  split
  · exact .refl
  split
  · exact .refl
  split
  · exact .refl
  next hneg hzero _ claim hclaim =>
  obtain ⟨hobject, rfl, hactive, hentry⟩ := requireActive_spec hclaim
  obtain ⟨hpos, htracks⟩ := ha.tracks hclaim
  split
  · exact .refl
  next hover =>
  obtain ⟨events, hstore⟩ := a.onShared_elsewhere claim now (.consume · amount)
  split
  · next heq =>
      rw [heq] at hstore
      rw [hstore]
      exact .elsewhere a events
  · next shared a' heq =>
      have hids := onShared_ids ha hpos htracks (fun store r reply hs hr hok ↦
        hs.consume_reply hr (by omega) hok) heq
      rw [heq] at hstore
      subst hstore
      exact (Moves.elsewhere a events).tail
        (.consumed claim amount shared hobject hactive (by omega) (not_lt.mp hover) hids)

theorem complete_moves (ha : a.Backed) (now : Time) (ref : ℕ) :
    Moves a (a.complete now ref).2 := by
  unfold complete
  split
  · exact .refl
  split
  · exact .refl
  split
  · exact .refl
  next claim hclaim =>
  obtain ⟨hobject, rfl, hactive, hentry⟩ := requireActive_spec hclaim
  obtain ⟨hpos, htracks⟩ := ha.tracks hclaim
  have hconsumed := (ha.sound.valid claim (Rows.mem_of_lookup hobject)).nonneg
  obtain ⟨events, hstore⟩ := a.onShared_elsewhere claim now (.complete · claim.consumed)
  split
  · next heq =>
      rw [heq] at hstore
      rw [hstore]
      exact .elsewhere a events
  · next shared a' heq =>
      have hids := onShared_ids ha hpos htracks (fun store r reply hs hr hok ↦
        hs.complete_reply hr hconsumed hok) heq
      rw [heq] at hstore
      subst hstore
      exact (Moves.elsewhere a events).tail
        (.closed claim .completed shared hobject hactive hentry (by simp) hids)

theorem cancel_moves (a : BudgetAccount) (now : Time) (ref : ℕ) :
    Moves a (a.cancel now ref).2 := by
  unfold cancel
  split
  · exact .refl
  split
  · exact .refl
  split
  · exact .refl
  next claim hclaim =>
  obtain ⟨hobject, rfl, hactive, hentry⟩ := requireActive_spec hclaim
  obtain ⟨events, hstore⟩ := a.onShared_elsewhere claim now .cancel
  split
  · next heq =>
      rw [heq] at hstore
      rw [hstore]
      exact .elsewhere a events
  · next a' heq =>
      rw [heq] at hstore
      subst hstore
      exact (Moves.elsewhere a events).tail
        (.closed claim .cancelled claim.shared hobject hactive hentry (by simp) rfl)

theorem cancelEach_moves (now : ℕ → Time) (refs : List ℕ) (a : BudgetAccount) :
    Moves a (cancelEach now refs a).2 := by
  induction refs generalizing a with
  | nil => exact .refl
  | cons ref refs ih =>
      unfold cancelEach
      split
      · have h := a.cancel_moves (now ref) ref
        split
        · next heq =>
            rw [heq] at h
            exact h
        · next heq =>
            rw [heq] at h
            exact h.trans (ih _)
      · exact ih a

variable {given : Option String} {generated : String}

/-- The authority's half of `reserve`. -/
theorem reserveShared_spec (ha : a.Backed) (now : Time) (amount : ℤ) (given : Option String)
    (generated : String) :
    ∃ events, (a.reserveShared now amount given generated).2 = a.elsewhere events ∧
      ∀ id shared, (a.reserveShared now amount given generated).1 = .ok (id, shared) →
        id = identifierOr given generated ∧ (a.authority = none → shared = none) ∧
          ∀ store, a.authority = some store → ∃ r, shared = some r ∧ r.reservationId = id ∧
            (store.run events).row id = some r ∧
              Asked a.authorityBudget a.leaseId a.fencingToken amount r := by
  unfold reserveShared
  split
  · next hnone =>
      refine ⟨[], (elsewhere_nil a).symm, fun id shared h ↦ ?_⟩
      obtain ⟨rfl, rfl⟩ := Prod.ext_iff.mp (Except.ok.inj h)
      refine ⟨rfl, fun _ ↦ rfl, fun store hstore ↦ ?_⟩
      rw [hnone] at hstore
      cases hstore
  · next store hstore =>
      generalize hcall : BudgetCall.reserve a.authorityBudget amount a.leaseId a.fencingToken given
        generated = call
      have hrun : a.elsewhere [.call now call] =
          { a with authority := some (store.exec now call).2 } := by
        rw [BudgetAccount.elsewhere, hstore]
        rfl
      refine ⟨[.call now call], ?_, ?_⟩
      · rw [hrun]
        split
        · next heq => rw [heq]
        · next heq => rw [heq]
      · intro id shared h
        split at h
        · cases h
        · next reply store' heq =>
            subst hcall
            obtain ⟨r, rfl, hid, hrow, hbudget, hamount, hlease, htoken⟩ :=
              (ha.store store hstore).reserve_reply (congrArg Prod.fst heq)
            obtain ⟨rfl, rfl⟩ := Prod.ext_iff.mp (Except.ok.inj h)
            refine ⟨hid, fun hnone ↦ ?_, fun store₀ hstore₀ ↦ ?_⟩
            · rw [hstore] at hnone
              cases hnone
            · obtain rfl := Option.some.inj (hstore.symm.trans hstore₀)
              refine ⟨r, rfl, rfl, ?_, hbudget, hlease, htoken, hamount⟩
              exact hid ▸ hrow

/-- The claim open under the id, or a new one. -/
theorem openClaim_tracks (ha : a.Backed) (id : String) (shared : Option BudgetReservation)
    (hpos : 0 < amount) (hlone : a.authority = none → shared = none)
    (hbacked : ∀ store, a.authority = some store → ∃ r, shared = some r ∧ r.reservationId = id ∧
      store.row id = some r ∧ Asked a.authorityBudget a.leaseId a.fencingToken amount r) :
    Moves a (a.openClaim id amount shared).2 ∧
      ∀ ref, (a.openClaim id amount shared).1 = .ok (.claim ref) →
        ∃ c, (a.openClaim id amount shared).2.Tracks id amount ref c ∧ c.active ∧
          (a.claimAt id = none → c.consumed = 0) := by
  unfold openClaim
  split
  · next ref hentry =>
      obtain ⟨amount', c, -, hc, hactive⟩ := ha.tracked id ref hentry
      split
      · exact ⟨.refl, (fun _ h ↦ by cases h)⟩
      · next hamount =>
          refine ⟨.refl, fun ref' h ↦ ?_⟩
          obtain rfl : ref = ref' := AccountReply.claim.inj (Except.ok.inj h)
          have hsame : c.amount = amount := by simpa [hc.object] using hamount
          obtain rfl : amount' = amount := hc.amount_eq.symm.trans hsame
          refine ⟨c, hc, hactive, fun hnone ↦ ?_⟩
          cases hentry.symm.trans hnone
  · next hnew =>
      split
      · exact ⟨.refl, (fun _ h ↦ by cases h)⟩
      · next claim hclaim =>
          obtain ⟨hstrip, rfl⟩ := newClaim_spec hclaim
          have hne : id ≠ "" := by
            rintro rfl
            exact hstrip rfl
          have htracks : (a.opened id ⟨a.objects.length, Text.strip id, amount, shared, 0,
              .active⟩).Tracks id amount a.objects.length
                ⟨a.objects.length, Text.strip id, amount, shared, 0, .active⟩ := by
            refine ⟨?_, rfl, rfl, hne, fun _ ↦ ?_, (fun h ↦ by cases h), hlone,
              fun _ store hstore ↦ ?_⟩
            · have hfresh : Rows.lookup BudgetClaim.ref a.objects.length a.objects = none :=
                ha.sound.lookup_length
              rw [object, BudgetAccount.opened, Rows.lookup_append, hfresh, Option.none_or]
              exact if_pos rfl
            · have hfresh : Rows.lookup Prod.fst id a.claims = none :=
                Option.map_eq_none_iff.mp hnew
              rw [claimAt, BudgetAccount.opened, Rows.lookup_append, hfresh, Option.none_or,
                if_pos rfl]
              rfl
            · obtain ⟨r, hr, hid, hrow, hasked⟩ := hbacked store hstore
              exact ⟨r, r, hr, hid, hrow, hasked⟩
          refine ⟨.single (.opened id _ rfl hpos rfl rfl hnew htracks), fun ref h ↦ ?_⟩
          obtain rfl : a.objects.length = ref := AccountReply.claim.inj (Except.ok.inj h)
          exact ⟨_, htracks, rfl, fun _ ↦ rfl⟩

/-- An id with no open claim gets one. -/
theorem openClaim_new (hnew : a.claimAt id = none) (hid : Text.strip id ≠ "") (amount : ℤ)
    (shared : Option BudgetReservation) :
    ∃ ref, (a.openClaim id amount shared).1 = .ok (.claim ref) := by
  have hclaim : a.newClaim id amount shared .active =
      .ok ⟨a.objects.length, Text.strip id, amount, shared, 0, .active⟩ := if_neg hid
  rw [openClaim, hnew]
  dsimp only
  rw [hclaim]
  exact ⟨_, rfl⟩

/-- The last part of `reserve` has nothing to do with the authority. -/
theorem openClaim_keeps (a : BudgetAccount) (id : String) (amount : ℤ)
    (shared : Option BudgetReservation) :
    (a.openClaim id amount shared).2.authority = a.authority ∧
      (a.openClaim id amount shared).2.leaseId = a.leaseId ∧
        (a.openClaim id amount shared).2.fencingToken = a.fencingToken := by
  unfold openClaim
  split
  · split <;> exact ⟨rfl, rfl, rfl⟩
  · split <;> exact ⟨rfl, rfl, rfl⟩

/-- A claim that `reserve` returns is followed by the id it was asked for. -/
theorem reserve_tracks (ha : a.Backed) (now : Time) (amount : ℤ) (given : Option String)
    (generated : String) :
    Moves a (a.reserve now amount given generated).2 ∧
      ∀ ref, (a.reserve now amount given generated).1 = .ok (.claim ref) →
        ∃ c, (a.reserve now amount given generated).2.Tracks (identifierOr given generated) amount
          ref c := by
  unfold reserve
  split
  · exact ⟨.refl, (fun _ h ↦ by cases h)⟩
  split
  · exact ⟨.refl, (fun _ h ↦ by cases h)⟩
  split
  · next hzero =>
      subst hzero
      split
      · exact ⟨.refl, (fun _ h ↦ by cases h)⟩
      · next claim hclaim =>
          obtain ⟨hstrip, rfl⟩ := newClaim_spec hclaim
          refine ⟨.single (.zero _ rfl rfl rfl rfl), fun ref h ↦ ?_⟩
          obtain rfl : a.objects.length = ref := AccountReply.claim.inj (Except.ok.inj h)
          refine ⟨⟨a.objects.length, Text.strip (identifierOr given generated), 0, none, 0,
            .completed⟩, ?_, rfl, rfl, ?_, (fun h ↦ by cases h), fun _ h ↦ absurd h (lt_irrefl 0),
            fun _ ↦ rfl,
            fun h ↦ absurd h (lt_irrefl 0)⟩
          · have hfresh : Rows.lookup BudgetClaim.ref a.objects.length a.objects = none :=
              ha.sound.lookup_length
            rw [object, Rows.lookup_append, hfresh, Option.none_or]
            exact if_pos rfl
          · intro hempty
            rw [hempty] at hstrip
            exact hstrip rfl
  next hneg _ hzero =>
  obtain ⟨events, hstore, hgranted⟩ := reserveShared_spec ha now amount given generated
  have helsewhere := Moves.elsewhere a events
  split
  · next heq =>
      rw [heq] at hstore
      rw [hstore]
      exact ⟨helsewhere, (fun _ h ↦ by cases h)⟩
  · next id shared a' heq =>
      rw [heq] at hstore hgranted
      subst hstore
      obtain ⟨rfl, hlone, hbacked⟩ := hgranted id shared rfl
      obtain ⟨hmoves, htracks⟩ := openClaim_tracks (helsewhere.backed ha)
        (identifierOr given generated) shared (by omega : 0 < amount)
        (fun hnone ↦ hlone (Option.map_eq_none_iff.mp hnone)) fun store hstore ↦ by
          obtain ⟨store', hstore', rfl⟩ := Option.map_eq_some_iff.mp hstore
          exact hbacked store' hstore'
      refine ⟨helsewhere.trans hmoves, fun ref h ↦ ?_⟩
      obtain ⟨c, hc, -⟩ := htracks ref h
      exact ⟨c, hc⟩

theorem apply_moves (ha : a.Backed) (e : AccountEvent) : Moves a (a.apply e) := by
  cases e with
  | authority e => exact Moves.elsewhere a [e]
  | call call =>
      cases call with
      | reserve now amount given generated => exact (reserve_tracks ha now amount given generated).1
      | consume now ref amount => exact consume_moves ha now ref amount
      | complete now ref => exact complete_moves ha now ref
      | cancel now ref => exact cancel_moves a now ref
      | cancelAll now => exact cancelEach_moves now _ a

theorem run_moves (ha : a.Backed) (events : List AccountEvent) : Moves a (a.run events) := by
  induction events generalizing a with
  | nil => exact .refl
  | cons e events ih => exact (apply_moves ha e).trans (ih ((apply_moves ha e).backed ha))

/-- An account as it is built. -/
theorem backed_of_make {budget : String} {authority : Option BudgetStore}
    {authorityBudget leaseId : String} {fencingToken : ℤ} {limit : Option ℤ}
    (h : make budget authority authorityBudget leaseId fencingToken limit = .ok a)
    (hstore : ∀ store, authority = some store → store.Sound) : a.Backed := by
  obtain ⟨hfresh, hauthority, -⟩ := make_fresh h
  refine ⟨(make_spec h).1, fun store h ↦ hstore store (hauthority.symm.trans h), ?_⟩
  intro id ref hentry
  rw [claimAt, hfresh.claims] at hentry
  cases hentry

end Calls

/-! ## Units that are left -/

section Units

variable {a a' : BudgetAccount} {now : Time} {id : String} {amount : ℤ} {ref : ℕ} {c : BudgetClaim}

/-- No call takes a unit from the claim, now or later. -/
def Unusable (a : BudgetAccount) (ref : ℕ) : Prop :=
  ∀ events now amount reply, 0 < amount → ((a.run events).consume now ref amount).1 ≠ .ok reply

/-- The rows of the authority evolve. -/
theorem Moves.row (h : Moves a a') (ha : a.Backed) {store : BudgetStore}
    (hstore : a.authority = some store) {r : BudgetReservation} (hr : store.row id = some r) :
    ∃ store' r', a'.authority = some store' ∧ store'.row id = some r' ∧ r.Evolves r' := by
  induction h with
  | refl =>
      have hvalid := (ha.store store hstore).tables.valid r (Rows.mem_of_lookup hr)
      exact ⟨store, r, hstore, hr, .refl hvalid⟩
  | tail hs h ih =>
      obtain ⟨store', r', hstore', hr', he⟩ := ih
      have hb := Moves.backed hs ha
      cases h with
      | elsewhere events =>
          obtain ⟨r'', hr'', he'⟩ := (hb.store store' hstore').run_evolves events hr'
          refine ⟨store'.run events, r'', ?_, hr'', he.trans he'⟩
          rw [BudgetAccount.elsewhere, hstore']
          rfl
      | zero => exact ⟨store', r', hstore', hr', he⟩
      | opened => exact ⟨store', r', hstore', hr', he⟩
      | consumed => exact ⟨store', r', hstore', hr', he⟩
      | closed => exact ⟨store', r', hstore', hr', he⟩

/-- What `consume` has accepted. -/
theorem of_consume {reply : AccountReply} (hpos : 0 < amount)
    (h : (a.consume now ref amount).1 = .ok reply) :
    ∃ c, a.requireActive ref = .ok c ∧ amount ≤ c.remaining ∧
      ∃ shared, (a.onShared c now (.consume · amount)).1 = .ok shared := by
  unfold consume at h
  rw [if_neg (not_lt.mpr hpos.le), if_neg hpos.ne'] at h
  cases hactive : a.requireActive ref with
  | error e =>
      rw [hactive] at h
      cases h
  | ok c =>
      rw [hactive] at h
      dsimp only at h
      split at h
      · cases h
      next hover =>
      refine ⟨c, rfl, not_lt.mp hover, ?_⟩
      split at h
      · cases h
      · next shared a' heq => exact ⟨shared, congrArg Prod.fst heq⟩

/-- A claim that is used up stays so. -/
theorem Tracks.unusable_of_remaining (hc : a.Tracks id amount ref c) (ha : a.Backed)
    (hnone : c.remaining ≤ 0) : a.Unusable ref := by
  intro events now amount' reply hpos hok
  have hmoves := run_moves ha events
  obtain ⟨c', hc', hle, -⟩ := hmoves.tracks ha hc
  obtain ⟨c'', hactive, hremaining, -⟩ := of_consume hpos hok
  obtain ⟨hobject, -⟩ := requireActive_spec hactive
  obtain rfl := Option.some.inj (hobject.symm.trans hc'.object)
  have hsame : c''.amount = c.amount := hc'.amount_eq.trans hc.amount_eq.symm
  unfold BudgetClaim.remaining at hnone hremaining
  omega

/-- A claim whose reservation is closed, or used up, is of no use. -/
theorem Tracks.unusable_of_row (hc : a.Tracks id amount ref c) (ha : a.Backed)
    (hamount : 0 < amount) {store : BudgetStore} (hstore : a.authority = some store)
    {r : BudgetReservation}
    (hr : store.row id = some r) (hclosed : r.status = .active → r.amount ≤ r.completed) :
    a.Unusable ref := by
  intro events now amount' reply hpos hok
  have hmoves := run_moves ha events
  have hb := hmoves.backed ha
  obtain ⟨c', hc', -, -⟩ := hmoves.tracks ha hc
  obtain ⟨store', r', hstore', hr', hevolves⟩ := hmoves.row ha hstore hr
  obtain ⟨c'', hactive, -, shared, hshared⟩ := of_consume hpos hok
  obtain ⟨hobject, -⟩ := requireActive_spec hactive
  obtain rfl := Option.some.inj (hobject.symm.trans hc'.object)
  obtain ⟨q, row, hq, hid, -, -⟩ := hc'.backed hamount store' hstore'
  have hcall : ∃ reply, (store'.exec now (.consume id amount')).1 = .ok reply := by
    rw [onShared, hq, hstore'] at hshared
    dsimp only at hshared
    rw [hid] at hshared
    generalize store'.exec now (.consume id amount') = res at hshared
    obtain ⟨out, store''⟩ := res
    cases out with
    | error e => cases hshared
    | ok reply => exact ⟨reply, rfl⟩
  obtain ⟨reply', hreply⟩ := hcall
  obtain ⟨hlive, hle⟩ := (hb.store store' hstore').of_consume hc.id_ne hpos hr' hreply
  by_cases hstatus : r.status = .active
  · have hfull := hclosed hstatus
    have hused := hevolves.hold.used_le
    have hsame := hevolves.hold.amount_eq
    simp only [BudgetReservation.hold_used, BudgetReservation.hold_amount] at hused hsame
    omega
  · obtain rfl := hevolves.frozen hstatus
    exact hstatus hlive

/-- A claim with a unit left gives it up, if it is the authority's to give. -/
theorem Tracks.usable (hc : a.Tracks id amount ref c) (ha : a.Backed) (hamount : 0 < amount)
    (now : Time) (hid : Text.strip id = id) (hactive : c.active) (hremaining : 0 < c.remaining)
    (hrow : ∀ store, a.authority = some store →
      store.current a.leaseId a.fencingToken now = true ∧
        ∃ r, store.row id = some r ∧ r.status = .active ∧ r.completed < r.amount) :
    ¬ a.Unusable ref := by
  intro hunusable
  refine hunusable [] now 1 .done one_pos ?_
  have href : c.ref = ref := Rows.key_of_lookup hc.object
  have hentry : a.claimAt c.claimId = some ref := by
    rw [← hc.claimId, hid]
    exact hc.listed hactive
  have hrequire : a.requireActive ref = .ok c := by
    simp only [requireActive, requireOwned, hc.object, hentry, hactive]
    simp
  have hshared : ∃ shared, (a.onShared c now (.consume · 1)).1 = .ok shared := by
    cases hstore : a.authority with
    | none =>
        rw [onShared, hc.lone hstore]
        exact ⟨none, rfl⟩
    | some store =>
        obtain ⟨q, r, hq, hqid, hr, hasked⟩ := hc.backed hamount store hstore
        obtain ⟨hcurrent, r', hr', hlive, hleft⟩ := hrow store hstore
        obtain rfl := Option.some.inj (hr.symm.trans hr')
        rw [← hasked.leaseId, ← hasked.fencingToken] at hcurrent
        rw [onShared, hq, hstore]
        dsimp only
        rw [hqid]
        obtain ⟨reply, hok⟩ := (ha.store store hstore).consume_ok hc.id_ne Int.one_pos hr hlive
          (by omega) hcurrent
        generalize store.exec now (.consume id 1) = res at hok
        obtain ⟨out, store'⟩ := res
        obtain rfl := hok
        exact ⟨_, rfl⟩
  obtain ⟨shared, hshared⟩ := hshared
  have hle : ¬ 1 > c.remaining := by omega
  simp only [run, List.foldl_nil, consume, hrequire]
  rw [if_neg (by omega), if_neg (by omega), if_neg hle]
  generalize a.onShared c now (.consume · 1) = res at hshared
  obtain ⟨out, a'⟩ := res
  obtain rfl := hshared
  rfl

end Units

/-! ## Reserving again -/

section Again

variable {a : BudgetAccount} {now : Time} {id : String} {amount : ℤ} {ref : ℕ} {c : BudgetClaim}
  {generated : String}

/-- The limit leaves the units that are asked for, and the lease of the account is current. -/
structure Granted (a : BudgetAccount) (now : Time) (amount : ℤ) : Prop where
  limit : ∀ remaining, a.remainingLimit = some remaining → amount ≤ remaining
  current : ∀ store, a.authority = some store →
    store.current a.leaseId a.fencingToken now = true

/-- Units are given again for the id: nothing refuses them, no authority knows the id as closed
or used up, and no other claim is open under it. -/
structure Reissues (a : BudgetAccount) (now : Time) (id : String) (amount : ℤ) : Prop where
  positive : 0 < amount
  granted : a.Granted now amount
  live : ∀ store, a.authority = some store →
    ∃ r, store.row id = some r ∧ r.status = .active ∧ r.completed < r.amount
  free : ∀ ref, a.claimAt id = some ref →
    ∃ c, a.object ref = some c ∧ c.amount = amount ∧ 0 < c.remaining

/-- `reserve` under an id the account has used before, when it is granted: the last part. -/
theorem Tracks.reserve_eq (hc : a.Tracks id amount ref c) (ha : a.Backed) (hpos : 0 < amount)
    (hgranted : a.Granted now amount) (generated : String) :
    ∃ events shared, a.reserve now amount (some id) generated =
        (a.elsewhere events).openClaim id amount shared ∧
      (a.authority = none → shared = none) ∧
      ∀ store, a.authority = some store → ∃ r, shared = some r ∧ r.reservationId = id ∧
        store.row id = some r ∧ (store.run events).row id = some r ∧
          Asked a.authorityBudget a.leaseId a.fencingToken amount r ∧
            (store.run events).current a.leaseId a.fencingToken now = true := by
  have hwithin : a.remainingLimit.any (· < amount) = false := by
    cases hlimit : a.remainingLimit with
    | none => rfl
    | some remaining => simpa using hgranted.limit remaining hlimit
  have hreserve : ∀ {claimId shared a'}, a.reserveShared now amount (some id) generated =
      (.ok (claimId, shared), a') →
        a.reserve now amount (some id) generated = a'.openClaim claimId amount shared := by
    intro claimId shared a' h
    rw [BudgetAccount.reserve, if_neg (not_lt.mpr hpos.le), hwithin, if_neg (by simp),
      if_neg hpos.ne', h]
  cases hstore : a.authority with
  | none =>
      refine ⟨[], none, ?_, fun _ ↦ rfl, (fun _ h ↦ by cases h)⟩
      rw [elsewhere_nil]
      refine hreserve ?_
      rw [reserveShared, hstore]
      exact congrArg (fun k ↦ (Except.ok (k, none), a)) (if_neg hc.id_ne)
  | some store =>
      obtain ⟨q, r, -, -, hrow, hasked⟩ := hc.backed hpos store hstore
      have hcurrent := hgranted.current store hstore
      obtain ⟨hok, hrow'⟩ := (ha.store store hstore).reserve_again now generated
        hc.id_ne hrow hasked.budget (hasked.amount ▸ hpos)
        (by rw [hasked.leaseId, hasked.fencingToken]; exact hcurrent)
      rw [hasked.amount, hasked.leaseId, hasked.fencingToken] at hok hrow'
      have hkey : r.reservationId = id := Rows.key_of_lookup hrow
      generalize hcall : BudgetCall.reserve a.authorityBudget amount a.leaseId a.fencingToken
        (some id) generated = call at hok hrow'
      refine ⟨[.call now call], some r, ?_, (fun h ↦ by cases h), fun store' h ↦ ?_⟩
      · refine hreserve ?_
        rw [reserveShared, hstore, BudgetAccount.elsewhere, hstore, hcall]
        dsimp only
        have hrun : Option.map (BudgetStore.run · [.call now call]) (some store) =
            some (store.exec now call).2 := rfl
        rw [hrun]
        generalize store.exec now call = res at hok ⊢
        obtain ⟨out, store'⟩ := res
        obtain rfl := hok
        dsimp only [BudgetReply.reservation?]
        rw [hkey]
      · obtain rfl := Option.some.inj h
        refine ⟨r, rfl, hkey, hrow, hrow', hasked, ?_⟩
        exact ((ha.store store hstore).exec_current now call _ _ now).trans hcurrent

/-- A reservation of units is granted, whatever the id. -/
theorem granted_of_reserve (ha : a.Backed) (hpos : 0 < amount) {given : Option String}
    {reply : AccountReply} (h : (a.reserve now amount given generated).1 = .ok reply) :
    a.Granted now amount := by
  unfold reserve at h
  rw [if_neg (not_lt.mpr hpos.le)] at h
  split at h
  · cases h
  next hlimit =>
  rw [if_neg hpos.ne'] at h
  refine ⟨fun remaining hremaining ↦ ?_, fun store hstore ↦ ?_⟩
  · rw [hremaining] at hlimit
    simpa using hlimit
  · by_contra hlost
    obtain ⟨e, he⟩ := (ha.store store hstore).reserve_lost a.authorityBudget amount given
      generated (Bool.eq_false_of_not_eq_true hlost)
    rw [reserveShared, hstore] at h
    dsimp only at h
    generalize store.exec now (.reserve a.authorityBudget amount a.leaseId a.fencingToken given
      generated) = res at h he
    obtain ⟨out, store'⟩ := res
    obtain rfl := he
    cases h

/-- An open claim is returned again, once the reservation is granted. -/
theorem Tracks.reserve_open (hc : a.Tracks id amount ref c) (ha : a.Backed) (hpos : 0 < amount)
    (hactive : c.active) (hgranted : a.Granted now amount) (generated : String) :
    (a.reserve now amount (some id) generated).1 = .ok (.claim ref) := by
  obtain ⟨events, shared, heq, -⟩ := hc.reserve_eq ha hpos hgranted generated
  rw [heq, openClaim, elsewhere_claimAt, hc.listed hactive]
  dsimp only
  rw [elsewhere_object, hc.object, if_neg (by simp [hc.amount_eq])]

/-- What is returned for an id whose claim is closed is of no use, unless units are given again. -/
theorem Tracks.unusable (hc : a.Tracks id amount ref c) (ha : a.Backed)
    (hnot : ¬ a.Reissues now id amount) {ref' : ℕ}
    (h : (a.reserve now amount (some id) generated).1 = .ok (.claim ref')) :
    (a.reserve now amount (some id) generated).2.Unusable ref' := by
  obtain ⟨hmoves, htracks⟩ := reserve_tracks ha now amount (some id) generated
  obtain ⟨c', hc'⟩ := htracks ref' h
  rw [show identifierOr (some id) generated = id from if_neg hc.id_ne] at hc'
  have hb := hmoves.backed ha
  by_cases hpos : 0 < amount
  · have hgranted := granted_of_reserve ha hpos h
    by_cases hlive : ∀ store, a.authority = some store →
        ∃ r, store.row id = some r ∧ r.status = .active ∧ r.completed < r.amount
    · -- The id is taken by a claim that has no unit left.
      have hfree : ¬ ∀ ref, a.claimAt id = some ref →
          ∃ c, a.object ref = some c ∧ c.amount = amount ∧ 0 < c.remaining :=
        fun hfree ↦ hnot ⟨hpos, hgranted, hlive, hfree⟩
      push Not at hfree
      obtain ⟨ref₀, hentry, htaken⟩ := hfree
      obtain ⟨amount₀, c₀, -, hc₀, -⟩ := ha.tracked id ref₀ hentry
      obtain ⟨events, shared, heq, -⟩ := hc.reserve_eq ha hpos hgranted generated
      rw [openClaim, elsewhere_claimAt, hentry] at heq
      dsimp only at heq
      rw [elsewhere_object, hc₀.object] at heq
      by_cases hsame : c₀.amount = amount
      · rw [if_neg (by simp [hsame])] at heq
        rw [heq] at h hc'
        have hnone := htaken c₀ hc₀.object hsame
        obtain rfl := AccountReply.claim.inj (Except.ok.inj h)
        have hobject : (a.elsewhere events).object ref₀ = some c' := hc'.object
        rw [elsewhere_object, hc₀.object] at hobject
        obtain rfl := Option.some.inj hobject
        rw [heq] at hb ⊢
        exact hc'.unusable_of_remaining hb hnone
      · rw [if_pos (by simpa using hsame)] at heq
        rw [heq] at h
        cases h
    · -- The authority knows the id as closed or used up.
      push Not at hlive
      obtain ⟨store, hstore, hdead⟩ := hlive
      obtain ⟨-, row, -, -, hrow, -⟩ := hc.backed hpos store hstore
      obtain ⟨store', row', hstore', hrow', hevolves⟩ := hmoves.row ha hstore hrow
      refine hc'.unusable_of_row hb hpos hstore' hrow' fun hactive ↦ ?_
      by_cases hstatus : row.status = .active
      · have hfull := hdead row hrow hstatus
        have hused := hevolves.hold.used_le
        have hsame := hevolves.hold.amount_eq
        simp only [BudgetReservation.hold_used, BudgetReservation.hold_amount] at hused hsame
        omega
      · rw [hevolves.frozen hstatus] at hactive
        exact absurd hactive hstatus
  · have hnonneg := (hb.sound.valid c' (Rows.mem_of_lookup hc'.object)).nonneg
    have hamount := hc'.amount_eq
    refine hc'.unusable_of_remaining hb ?_
    simp only [BudgetClaim.hold_used] at hnonneg
    rw [BudgetClaim.remaining]
    omega

/-- Units are given again for the id of a claim that is closed. -/
theorem Tracks.reissued (hc : a.Tracks id amount ref c) (ha : a.Backed) (hclosed : c.active = false)
    (h : a.Reissues now id amount) (generated : String) :
    ∃ ref', (a.reserve now amount (some id) generated).1 = .ok (.claim ref') ∧
      ¬ (a.reserve now amount (some id) generated).2.Unusable ref' := by
  obtain ⟨events, shared, heq, hlone, hbacked⟩ := hc.reserve_eq ha h.positive h.granted generated
  have hstrip : Text.strip id = id := hc.claimId.trans (hc.closed hclosed h.positive)
  have hb := (Moves.elsewhere a events).backed ha
  obtain ⟨hmoves, htracks⟩ := openClaim_tracks hb id shared h.positive
    (fun hnone ↦ hlone (Option.map_eq_none_iff.mp hnone)) fun store hstore ↦ by
      obtain ⟨store', hstore', rfl⟩ := Option.map_eq_some_iff.mp hstore
      obtain ⟨r, hr, hkey, -, hrow, hasked, -⟩ := hbacked store' hstore'
      exact ⟨r, hr, hkey, hrow, hasked⟩
  have hopened : ∃ ref' c', ((a.elsewhere events).openClaim id amount shared).1 =
        .ok (.claim ref') ∧ c'.active ∧ 0 < c'.remaining ∧
      ((a.elsewhere events).openClaim id amount shared).2.Tracks id amount ref' c' := by
    cases hentry : a.claimAt id with
    | some ref₀ =>
        obtain ⟨c₀, hobject, hsame, hleft⟩ := h.free ref₀ hentry
        have hopen : (a.elsewhere events).openClaim id amount shared =
            (.ok (.claim ref₀), a.elsewhere events) := by
          rw [openClaim, elsewhere_claimAt, hentry]
          dsimp only
          rw [elsewhere_object, hobject, if_neg (by simp [hsame])]
        obtain ⟨c', hc', hactive, -⟩ := htracks ref₀ (congrArg Prod.fst hopen)
        have hsame' : c₀ = c' := by
          have hobject' := hc'.object
          rw [hopen, elsewhere_object, hobject] at hobject'
          exact Option.some.inj hobject'
        exact ⟨ref₀, c', congrArg Prod.fst hopen, hactive, hsame' ▸ hleft, hc'⟩
    | none =>
        obtain ⟨ref', hok⟩ := openClaim_new (a := a.elsewhere events) hentry
          (hstrip.symm ▸ hc.id_ne) amount shared
        obtain ⟨c', hc', hactive, hfresh⟩ := htracks ref' hok
        refine ⟨ref', c', hok, hactive, ?_, hc'⟩
        have hamount := hc'.amount_eq
        have hpos := h.positive
        have hconsumed := hfresh hentry
        rw [BudgetClaim.remaining]
        omega
  obtain ⟨ref', c', hok, hactive, hleft, hc'⟩ := hopened
  rw [heq]
  refine ⟨ref', hok, hc'.usable (hmoves.backed hb) h.positive now hstrip hactive hleft ?_⟩
  intro store hstore
  obtain ⟨hauthority, hlease, htoken⟩ :=
    openClaim_keeps (a.elsewhere events) id amount shared
  rw [hauthority] at hstore
  obtain ⟨store', hstore', rfl⟩ := Option.map_eq_some_iff.mp hstore
  obtain ⟨r, -, -, hrow, hrow', -, hcurrent⟩ := hbacked store' hstore'
  obtain ⟨r', hr', hlive, hless⟩ := h.live store' hstore'
  obtain rfl := Option.some.inj (hrow.symm.trans hr')
  rw [hlease, htoken]
  exact ⟨hcurrent, r, hrow', hlive, hless⟩

end Again

/-! ## One claim for one id -/

/-- What repeating a reservation of `amount` units under `id`, which made the claim `ref`, is to
give: that claim while it is open, and no claim with units to consume once it is closed. -/
structure Idempotent (a : BudgetAccount) (now : Time) (id generated : String) (amount : ℤ)
    (ref : ℕ) : Prop where
  again : ∀ c, a.object ref = some c → c.active →
    (a.reserve now amount (some id) generated).1 = .ok (.claim ref)
  never : ∀ c, a.object ref = some c → c.active = false → ∀ ref',
    (a.reserve now amount (some id) generated).1 = .ok (.claim ref') →
      (a.reserve now amount (some id) generated).2.Unusable ref'

/-- The states in which it does: while the claim is open the reservation has to be granted anew,
next to the units it has already set aside, and once it is closed the units must not be. -/
structure Answers (a : BudgetAccount) (now : Time) (id : String) (amount : ℤ) (ref : ℕ) :
    Prop where
  again : ∀ c, a.object ref = some c → c.active → a.Granted now amount
  never : ∀ c, a.object ref = some c → c.active = false → ¬ a.Reissues now id amount

/-- **Exactly when a reservation can be repeated.**  For every account, with or without a limit
and an authority, and every history in which `ref` was claimed under an id. -/
theorem reserve_idempotent_iff (budget : String) (authority : Option BudgetStore)
    (authorityBudget leaseId : String) (fencingToken : ℤ) (limit : Option ℤ) (a : BudgetAccount)
    (h : make budget authority authorityBudget leaseId fencingToken limit = .ok a)
    (hstore : ∀ store, authority = some store →
      ∃ backend scope past, store = (BudgetStore.empty backend scope).run past)
    (before after : List AccountEvent) (then₀ : Time) (amount : ℤ) (given : Option String)
    (first : String) (ref : ℕ)
    (hclaim : ((a.run before).reserve then₀ amount given first).1 = .ok (.claim ref))
    (now : Time) (generated : String) :
    (a.run (before ++ .call (.reserve then₀ amount given first) :: after)).Idempotent now
        (identifierOr given first) generated amount ref ↔
      (a.run (before ++ .call (.reserve then₀ amount given first) :: after)).Answers now
        (identifierOr given first) amount ref := by
  have ha : a.Backed := backed_of_make h fun store hauthority ↦ by
    obtain ⟨backend, scope, past, rfl⟩ := hstore store hauthority
    exact (BudgetStore.sound_empty backend scope).run past
  have hbefore : (a.run before).Backed := (run_moves ha before).backed ha
  obtain ⟨hmoves, htracks⟩ := reserve_tracks hbefore then₀ amount given first
  obtain ⟨c₀, hc₀⟩ := htracks ref hclaim
  have hmade := hmoves.backed hbefore
  have hafter := run_moves hmade after
  rw [run, List.foldl_append, List.foldl_cons]
  change Idempotent (run ((a.run before).reserve then₀ amount given first).2 after) _ _ _ _ _ ↔
    Answers (run ((a.run before).reserve then₀ amount given first).2 after) _ _ _ _
  obtain ⟨c, hc, -, -⟩ := hafter.tracks hmade hc₀
  have hb := hafter.backed hmade
  generalize run ((a.run before).reserve then₀ amount given first).2 after = b at hc hb
  generalize identifierOr given first = id at hc
  constructor
  · intro hidempotent
    refine ⟨fun c' hobject hactive ↦ ?_, fun c' hobject hclosed hreissues ↦ ?_⟩
    · obtain rfl := Option.some.inj (hc.object.symm.trans hobject)
      have hpos : 0 < amount := hb.positive hc hactive
      exact granted_of_reserve hb hpos (hidempotent.again c hobject hactive)
    · obtain rfl := Option.some.inj (hc.object.symm.trans hobject)
      obtain ⟨ref', hok, husable⟩ := hc.reissued hb hclosed hreissues generated
      exact husable (hidempotent.never c hobject hclosed ref' hok)
  · intro hanswers
    refine ⟨fun c' hobject hactive ↦ ?_, fun c' hobject hclosed ref' hok ↦ ?_⟩
    · obtain rfl := Option.some.inj (hc.object.symm.trans hobject)
      have hpos : 0 < amount := hb.positive hc hactive
      exact hc.reserve_open hb hpos hactive (hanswers.again c hobject hactive) generated
    · exact hc.unusable hb (hanswers.never c' hobject hclosed) hok

theorem reserve_idempotent_x :
    (tokens.run ([] ++ .call (.reserve 0 4 (some "x") "") :: [])).Idempotent 0 "x" "" 4 0 ↔
      (tokens.run ([] ++ .call (.reserve 0 4 (some "x") "") :: [])).Answers 0 "x" 4 0 :=
  reserve_idempotent_iff "tokens" none "" "" 0 (some 10) tokens (by rfl) (fun _ h ↦ by cases h)
    [] [] 0 4
    (some "x") "" 0 (by rfl) 0 ""

/-- A claim on all ten units of the limit: repeating it is refused. -/
theorem tokens_refused :
    ((tokens.run [.call (.reserve 0 10 (some "x") "")]).reserve 0 10 (some "x") "").1 =
      .error (.value "reservation exceeds the delegated budget handle") := by
  decide

/-- Four units, reserved, consumed and completed. -/
def fourSpent : List AccountEvent :=
  [.call (.reserve 0 4 (some "x") ""), .call (.consume 0 0 4), .call (.complete 0 0)]

/-- The id is given four units again, and they are consumed. -/
theorem tokens_given_again :
    ((tokens.run fourSpent).reserve 0 4 (some "x") "").1 = .ok (.claim 1) ∧
      (((tokens.run fourSpent).reserve 0 4 (some "x") "").2.consume 0 1 4).1 = .ok .done := by
  decide

/-- Neither half holds. -/
theorem tokens_not_idempotent :
    ¬ (tokens.run [.call (.reserve 0 10 (some "x") "")]).Idempotent 0 "x" "" 10 0 ∧
      ¬ (tokens.run fourSpent).Idempotent 0 "x" "" 4 0 := by
  constructor
  · intro h
    have hagain := h.again ⟨0, "x", 10, none, 0, .active⟩ (by decide) rfl
    cases tokens_refused.symm.trans hagain
  · intro h
    have hnever := h.never ⟨0, "x", 4, none, 4, .completed⟩ (by decide) rfl 1
      tokens_given_again.1
    exact hnever [] 0 4 .done (by omega) tokens_given_again.2

end BudgetAccount

end Blackbase.Resources
