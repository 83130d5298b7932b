import Blackbase.Core.Machine
import Blackbase.Resources.Account.Model

/-!
# Does an account enforce its limit?

An account places holds on its limit: an open claim the whole of its amount, a
closed one what it consumed.  `BudgetAccount.Sound` is the bookkeeping every call
keeps: the dictionary holds exactly the open claims, and `spent` is what the closed
ones consumed, so that spent and the open amounts together are the exposure of the
claims.

`remaining_limit`, which `reserve` checks, subtracts only the *unconsumed* part of
the open claims.  Consumption moves units out of that part before completion moves
them into `spent`, and a reservation made in between can be granted out of units
that are already used.  `enforces_limit_iff` says that this is the only way a limit
is ever exceeded.
-/

namespace Blackbase.Resources.BudgetAccount

/-- The sum of the amounts of the open claims. -/
def openAmount (a : BudgetAccount) : ℤ := ((a.objects.filter BudgetClaim.active).map (·.amount)).sum

/-- The units consumed over all claims, open or closed. -/
def totalConsumed (a : BudgetAccount) : ℤ := (a.objects.map (·.consumed)).sum

/-- The limit is enforced: neither the units spent and set aside nor the units
consumed exceed it. -/
def EnforcesLimit (a : BudgetAccount) : Prop :=
  ∀ limit, a.limit = some limit → a.spent + a.openAmount ≤ limit ∧ a.totalConsumed ≤ limit

/-- The exposure of all the claims of the account. -/
def exposure (a : BudgetAccount) : ℤ :=
  Quota.exposure (fun _ : BudgetClaim ↦ ()) BudgetClaim.hold () a.objects

/-! ## The bookkeeping -/

/-- The dictionary and the books agree with the claim objects. -/
structure Sound (a : BudgetAccount) : Prop where
  unique : Rows.Unique BudgetClaim.ref a.objects
  numbered : ∀ c ∈ a.objects, c.ref < a.objects.length
  valid : ∀ c ∈ a.objects, c.hold.Valid
  keys : Rows.Unique Prod.fst a.claims
  refs : Rows.Unique Prod.snd a.claims
  listed : ∀ c ∈ a.objects, c.active → c.ref ∈ a.claims.map Prod.snd
  open_ : ∀ e ∈ a.claims, ∃ c, a.object e.2 = some c ∧ c.active
  spent_eq : a.spent = Quota.total (fun _ : BudgetClaim ↦ ())
    (fun c ↦ if c.active then 0 else c.consumed) () a.objects

theorem total_eq_sum (g : BudgetClaim → ℤ) (rows : List BudgetClaim) :
    Quota.total (fun _ ↦ ()) g () rows = (rows.map g).sum := by
  simp [Quota.total]

theorem sum_filter_active (g : BudgetClaim → ℤ) (rows : List BudgetClaim) :
    ((rows.filter BudgetClaim.active).map g).sum =
      (rows.map fun c ↦ if c.active then g c else 0).sum := by
  induction rows with
  | nil => rfl
  | cons c rows ih =>
      rw [List.filter_cons, List.map_cons, List.sum_cons, ← ih]
      cases c.active <;> simp

section Sound

variable {a : BudgetAccount} (ha : a.Sound)

include ha

/-- Spent and the open amounts together are the exposure. -/
theorem Sound.exposure_eq : a.exposure = a.spent + a.openAmount := by
  rw [ha.spent_eq, openAmount, sum_filter_active, ← total_eq_sum, ← Quota.total_add]
  refine congrArg (fun g ↦ Quota.total _ g () a.objects) (funext fun c ↦ ?_)
  simp only [Quota.Hold.exposure, BudgetClaim.hold_live, BudgetClaim.hold_amount,
    BudgetClaim.hold_used]
  by_cases h : c.active <;> simp [h]

theorem Sound.totalConsumed_le : a.totalConsumed ≤ a.exposure := by
  rw [totalConsumed, ← total_eq_sum]
  exact Quota.used_le_exposure ha.valid

/-- The consumption never adds to what `EnforcesLimit` says about the exposure. -/
theorem Sound.enforcesLimit_iff :
    a.EnforcesLimit ↔ ∀ limit, a.limit = some limit → a.exposure ≤ limit := by
  constructor
  · intro h limit hlimit
    rw [ha.exposure_eq]
    exact (h limit hlimit).1
  · intro h limit hlimit
    have hle := h limit hlimit
    refine ⟨?_, ha.totalConsumed_le.trans hle⟩
    rw [← ha.exposure_eq]
    exact hle

theorem Sound.object_of_mem {c : BudgetClaim} (hc : c ∈ a.objects) : a.object c.ref = some c :=
  Rows.lookup_of_mem ha.unique hc

end Sound

/-! ## Changes -/

/-- The account after a claim has been opened under `id`. -/
def opened (a : BudgetAccount) (id : String) (claim : BudgetClaim) : BudgetAccount :=
  { a with objects := a.objects ++ [claim], claims := a.claims ++ [(id, claim.ref)] }

/-- A change of the account that opens no claim. -/
inductive Upkeep (a : BudgetAccount) : BudgetAccount → Prop
  | /-- The shared store changes, by this account's doing or another client's. -/
    store (authority : Option BudgetStore) : Upkeep a { a with authority := authority }
  | /-- A claim of no units, closed from the start. -/
    zero (claim : BudgetClaim) (href : claim.ref = a.objects.length) (hamount : claim.amount = 0)
      (hconsumed : claim.consumed = 0) (hstatus : claim.status = .completed) :
      Upkeep a { a with objects := a.objects ++ [claim] }
  | /-- An open claim is charged. -/
    consumed (claim : BudgetClaim) (amount : ℤ) (shared : Option BudgetReservation)
      (hclaim : a.object claim.ref = some claim) (hactive : claim.active) (hpos : 0 < amount)
      (hle : amount ≤ claim.remaining) :
      Upkeep a (a.updateObject claim.ref fun c ↦
        { c with shared := shared, consumed := c.consumed + amount })
  | /-- An open claim is closed. -/
    closed (claim : BudgetClaim) (status : ClaimStatus) (shared : Option BudgetReservation)
      (hclaim : a.object claim.ref = some claim) (hactive : claim.active)
      (hentry : a.claimAt claim.claimId = some claim.ref) (hstatus : status ≠ .active) :
      Upkeep a (a.close claim status shared)

/-- Any number of changes none of which opens a claim. -/
abbrev Upkeeps : BudgetAccount → BudgetAccount → Prop := Relation.ReflTransGen Upkeep

theorem Upkeep.upkeeps {a a' : BudgetAccount} (h : Upkeep a a') : Upkeeps a a' :=
  Relation.ReflTransGen.single h

theorem Sound.store {a : BudgetAccount} (ha : a.Sound) (authority : Option BudgetStore) :
    Sound { a with authority := authority } :=
  ⟨ha.unique, ha.numbered, ha.valid, ha.keys, ha.refs, ha.listed, ha.open_, ha.spent_eq⟩

/-- A fresh object does not have the identity of one that is there. -/
theorem Sound.lookup_length {a : BudgetAccount} (ha : a.Sound) :
    a.object a.objects.length = none :=
  Rows.lookup_eq_none.mpr fun c hc h ↦ (ha.numbered c hc).ne h

theorem object_append {a : BudgetAccount} (claim : BudgetClaim) {ref : ℕ} {c : BudgetClaim}
    (hc : a.object ref = some c) :
    Rows.lookup BudgetClaim.ref ref (a.objects ++ [claim]) = some c := by
  have hc' : Rows.lookup BudgetClaim.ref ref a.objects = some c := hc
  rw [Rows.lookup_append, hc', Option.some_or]

theorem Sound.numbered_append {a : BudgetAccount} (ha : a.Sound) {claim : BudgetClaim}
    (href : claim.ref = a.objects.length) :
    ∀ c ∈ a.objects ++ [claim], c.ref < (a.objects ++ [claim]).length := by
  intro c hc
  rw [List.length_append, List.length_singleton]
  rcases List.mem_append.mp hc with hc | hc
  · exact (ha.numbered c hc).trans (Nat.lt_succ_self _)
  · rw [List.mem_singleton.mp hc, href]
    exact Nat.lt_succ_self _

theorem Sound.zero {a : BudgetAccount} (ha : a.Sound) {claim : BudgetClaim}
    (href : claim.ref = a.objects.length) (hamount : claim.amount = 0)
    (hconsumed : claim.consumed = 0) (hstatus : claim.status = .completed) :
    Sound { a with objects := a.objects ++ [claim] } where
  unique := ha.unique.append (by rw [href]; exact ha.lookup_length)
  numbered := ha.numbered_append href
  valid := by
    intro c hc
    rcases List.mem_append.mp hc with hc | hc
    · exact ha.valid c hc
    · obtain rfl := List.mem_singleton.mp hc
      exact ⟨by simp [hconsumed], by simp [hconsumed, hamount]⟩
  keys := ha.keys
  refs := ha.refs
  listed := by
    intro c hc hactive
    rcases List.mem_append.mp hc with hc | hc
    · exact ha.listed c hc hactive
    · obtain rfl := List.mem_singleton.mp hc
      simp [BudgetClaim.active, hstatus] at hactive
  open_ := by
    intro e he
    obtain ⟨c, hc, hactive⟩ := ha.open_ e he
    exact ⟨c, object_append claim hc, hactive⟩
  spent_eq := by
    rw [Quota.total_append, hconsumed, ha.spent_eq]
    simp

/-- Opening a claim. -/
theorem Sound.opened {a : BudgetAccount} (ha : a.Sound) {id : String} {claim : BudgetClaim}
    (href : claim.ref = a.objects.length) (hamount : 0 ≤ claim.amount)
    (hconsumed : claim.consumed = 0) (hactive : claim.active) (hnew : a.claimAt id = none) :
    (a.opened id claim).Sound where
  unique := ha.unique.append (by rw [href]; exact ha.lookup_length)
  numbered := ha.numbered_append href
  valid := by
    intro c hc
    rcases List.mem_append.mp hc with hc | hc
    · exact ha.valid c hc
    · obtain rfl := List.mem_singleton.mp hc
      exact ⟨by simp [hconsumed], by simp [hconsumed, hamount]⟩
  keys := ha.keys.append (by simpa [claimAt] using hnew)
  refs := by
    refine ha.refs.append (Rows.lookup_eq_none.mpr fun e he h ↦ ?_)
    obtain ⟨c, hc, -⟩ := ha.open_ e he
    rw [h, href, ha.lookup_length] at hc
    cases hc
  listed := by
    intro c hc hc'
    rw [BudgetAccount.opened, List.map_append, List.mem_append]
    rcases List.mem_append.mp hc with hc | hc
    · exact .inl (ha.listed c hc hc')
    · obtain rfl := List.mem_singleton.mp hc
      exact .inr (by simp)
  open_ := by
    intro e he
    rcases List.mem_append.mp he with he | he
    · obtain ⟨c, hc, hc'⟩ := ha.open_ e he
      exact ⟨c, object_append claim hc, hc'⟩
    · obtain rfl := List.mem_singleton.mp he
      have h := ha.lookup_length
      rw [← href] at h
      have h' : Rows.lookup BudgetClaim.ref claim.ref a.objects = none := h
      exact ⟨claim, by simp [object, BudgetAccount.opened, Rows.lookup_append, h'], hactive⟩
  spent_eq := by
    have h : (a.opened id claim).objects = a.objects ++ [claim] := rfl
    rw [h, Quota.total_append, hconsumed]
    exact ha.spent_eq.trans (by simp)

theorem exposure_opened (a : BudgetAccount) {id : String} {claim : BudgetClaim}
    (hactive : claim.active) : (a.opened id claim).exposure = a.exposure + claim.amount := by
  have h : (a.opened id claim).objects = a.objects ++ [claim] := rfl
  rw [exposure, h, Quota.exposure, Quota.total_append]
  simp [exposure, Quota.exposure, Quota.Hold.exposure, hactive]

/-! ### Rewriting a claim -/

theorem object_updateObject (a : BudgetAccount) {ref : ℕ} {f : BudgetClaim → BudgetClaim}
    (hf : ∀ c, (f c).ref = c.ref) (ref' : ℕ) :
    (a.updateObject ref f).object ref' =
      if ref' = ref then (a.object ref').map f else a.object ref' :=
  Rows.lookup_update (fun c hc ↦ (hf c).trans hc) a.objects

theorem mem_updateObject {a : BudgetAccount} {ref : ℕ} {f : BudgetClaim → BudgetClaim}
    {c : BudgetClaim} (hc : c ∈ (a.updateObject ref f).objects) :
    ∃ x ∈ a.objects, (x.ref = ref ∧ c = f x) ∨ (x.ref ≠ ref ∧ c = x) := by
  obtain ⟨x, hx, rfl⟩ := List.mem_map.mp hc
  refine ⟨x, hx, ?_⟩
  split
  · next h => exact .inl ⟨h, rfl⟩
  · next h => exact .inr ⟨h, rfl⟩

section Rewrite

variable {a : BudgetAccount} (ha : a.Sound) {claim : BudgetClaim}
  (hclaim : a.object claim.ref = some claim)

include ha hclaim

theorem Sound.eq_claim {x : BudgetClaim} (hx : x ∈ a.objects) (h : x.ref = claim.ref) :
    x = claim := by
  have hx' := ha.object_of_mem hx
  rw [h, hclaim] at hx'
  exact (Option.some.inj hx').symm

theorem Sound.total_updateObject (f : BudgetClaim → BudgetClaim) (g : BudgetClaim → ℤ) :
    Quota.total (fun _ ↦ ()) g () (a.updateObject claim.ref f).objects =
      Quota.total (fun _ ↦ ()) g () a.objects + (g (f claim) - g claim) :=
  Quota.total_update ha.unique hclaim rfl g ()

variable {f : BudgetClaim → BudgetClaim} (hevolves : claim.hold.Evolves (f claim).hold)
  (hf : ∀ c, (f c).ref = c.ref)

include hevolves

theorem Sound.exposure_updateObject : (a.updateObject claim.ref f).exposure ≤ a.exposure :=
  Quota.exposure_update_le ha.unique hclaim rfl hevolves ()

include hf

/-- The part of the bookkeeping a rewriting keeps whatever happens to the dictionary. -/
theorem Sound.updateObject_objects :
    Rows.Unique BudgetClaim.ref (a.updateObject claim.ref f).objects ∧
      (∀ c ∈ (a.updateObject claim.ref f).objects,
        c.ref < (a.updateObject claim.ref f).objects.length) ∧
      ∀ c ∈ (a.updateObject claim.ref f).objects, c.hold.Valid := by
  refine ⟨ha.unique.update fun c hc ↦ (hf c).trans hc, fun c hc ↦ ?_, fun c hc ↦ ?_⟩
  · have hlength : (a.updateObject claim.ref f).objects.length = a.objects.length :=
      List.length_map _
    rw [hlength]
    obtain ⟨x, hx, ⟨-, rfl⟩ | ⟨-, rfl⟩⟩ := mem_updateObject hc
    · rw [hf]
      exact ha.numbered x hx
    · exact ha.numbered c hx
  · obtain ⟨x, hx, ⟨h, rfl⟩ | ⟨-, rfl⟩⟩ := mem_updateObject hc
    · obtain rfl := ha.eq_claim hclaim hx h
      exact hevolves.valid (ha.valid x hx)
    · exact ha.valid c hx

end Rewrite

section Consume

variable {a : BudgetAccount} (ha : a.Sound) {claim : BudgetClaim} {amount : ℤ}
  {shared : Option BudgetReservation} (hclaim : a.object claim.ref = some claim)
  (hactive : claim.active) (hpos : 0 < amount) (hle : amount ≤ claim.remaining)

include ha hclaim hactive hpos hle

theorem Sound.consumed_evolves (shared : Option BudgetReservation) : claim.hold.Evolves
    (BudgetClaim.hold { claim with shared := shared, consumed := claim.consumed + amount }) := by
  have hv := ha.valid claim (Rows.mem_of_lookup hclaim)
  have hle' : claim.consumed + amount ≤ claim.amount := by
    have h : 0 < claim.remaining := hpos.trans_le hle
    unfold BudgetClaim.remaining at h hle
    omega
  exact ⟨rfl, by simp [hpos.le], hle', id, fun h ↦ by simp [hactive] at h⟩

/-- Charging an open claim. -/
theorem Sound.consumed : (a.updateObject claim.ref fun c ↦
    { c with shared := shared, consumed := c.consumed + amount }).Sound := by
  have he := ha.consumed_evolves hclaim hactive hpos hle shared
  obtain ⟨hunique, hnumbered, hvalid⟩ := ha.updateObject_objects hclaim
    (f := fun c ↦ { c with shared := shared, consumed := c.consumed + amount }) he fun _ ↦ rfl
  refine ⟨hunique, hnumbered, hvalid, ha.keys, ha.refs, ?_, ?_, ?_⟩
  · intro c hc hactive'
    obtain ⟨x, hx, ⟨-, rfl⟩ | ⟨-, rfl⟩⟩ := mem_updateObject hc
    · exact ha.listed x hx hactive'
    · exact ha.listed c hx hactive'
  · intro e he
    obtain ⟨c, hc, hactive'⟩ := ha.open_ e he
    rw [object_updateObject]
    · split
      · exact ⟨_, congrArg _ hc, hactive'⟩
      · exact ⟨c, hc, hactive'⟩
    · exact fun _ ↦ rfl
  · rw [ha.total_updateObject hclaim]
    refine ha.spent_eq.trans ?_
    simp [BudgetClaim.active] at hactive ⊢
    simp [hactive]

end Consume

section Close

variable {a : BudgetAccount} (ha : a.Sound) {claim : BudgetClaim} {status : ClaimStatus}
  {shared : Option BudgetReservation} (hclaim : a.object claim.ref = some claim)
  (hactive : claim.active)

include ha hclaim hactive

theorem Sound.closed_evolves (status : ClaimStatus) (shared : Option BudgetReservation) :
    claim.hold.Evolves (BudgetClaim.hold { claim with status := status, shared := shared }) := by
  have hv := ha.valid claim (Rows.mem_of_lookup hclaim)
  exact ⟨rfl, le_refl _, hv.le, fun _ ↦ hactive, fun _ ↦ rfl⟩

/-- Closing an open claim. -/
theorem Sound.close (hstatus : status ≠ .active) (hentry : a.claimAt claim.claimId = some claim.ref) :
    (a.close claim status shared).Sound := by
  have he := ha.closed_evolves hclaim hactive status shared
  obtain ⟨hunique, hnumbered, hvalid⟩ := ha.updateObject_objects hclaim
    (f := fun c ↦ { c with status := status, shared := shared }) he fun _ ↦ rfl
  have hmem : (claim.claimId, claim.ref) ∈ a.claims := by
    rw [claimAt, Option.map_eq_some_iff] at hentry
    obtain ⟨e, he, href⟩ := hentry
    rw [← Rows.key_of_lookup he, ← href]
    exact Rows.mem_of_lookup he
  -- The entry of the closed claim is the only one of its key and of its object.
  have hkey : ∀ e ∈ a.claims, e.1 = claim.claimId ↔ e.2 = claim.ref := by
    intro e he
    constructor
    · intro h
      have h₁ := Rows.lookup_of_mem ha.keys he
      rw [h, Rows.lookup_of_mem ha.keys hmem] at h₁
      rw [← Option.some.inj h₁]
    · intro h
      have h₁ := Rows.lookup_of_mem ha.refs he
      rw [h, Rows.lookup_of_mem ha.refs hmem] at h₁
      rw [← Option.some.inj h₁]
  refine ⟨hunique, hnumbered, hvalid, ha.keys.filter _, ha.refs.filter _, ?_, ?_, ?_⟩
  · intro c hc hactive'
    obtain ⟨x, hx, ⟨-, rfl⟩ | ⟨hne, rfl⟩⟩ := mem_updateObject hc
    · exact absurd (by simpa [BudgetClaim.active] using hactive') hstatus
    · obtain ⟨e, he, href⟩ := List.mem_map.mp (ha.listed c hx hactive')
      refine List.mem_map.mpr ⟨e, List.mem_filter.mpr ⟨he, ?_⟩, href⟩
      simp only [decide_eq_true_eq]
      exact fun h ↦ hne (href ▸ (hkey e he).mp h)
  · intro e he
    obtain ⟨he, hne⟩ := List.mem_filter.mp he
    simp only [decide_eq_true_eq] at hne
    obtain ⟨c, hc, hactive'⟩ := ha.open_ e he
    refine ⟨c, ?_, hactive'⟩
    refine (a.object_updateObject (f := fun c ↦ { c with status := status, shared := shared })
      (fun _ ↦ rfl) e.2).trans ?_
    rw [if_neg fun h ↦ hne ((hkey e he).mpr h), hc]
  · have hspent : (a.close claim status shared).spent = a.spent + claim.consumed := rfl
    have hobjects : (a.close claim status shared).objects =
      (a.updateObject claim.ref fun c ↦ { c with status := status, shared := shared }).objects := rfl
    rw [hspent, hobjects, ha.total_updateObject hclaim, ha.spent_eq]
    have hnew : BudgetClaim.active { claim with status := status, shared := shared } = false := by
      simp [BudgetClaim.active, hstatus]
    simp [hnew, hactive]

end Close

/-- What a change that opens no claim keeps: the bookkeeping, the limit, and an
exposure that does not grow. -/
theorem Upkeep.spec {a a' : BudgetAccount} (h : Upkeep a a') (ha : a.Sound) :
    a'.Sound ∧ a'.limit = a.limit ∧ a'.exposure ≤ a.exposure := by
  cases h with
  | store authority => exact ⟨ha.store authority, rfl, le_refl _⟩
  | zero claim href hamount hconsumed hstatus =>
      refine ⟨ha.zero href hamount hconsumed hstatus, rfl, ?_⟩
      rw [exposure, exposure, Quota.exposure, Quota.total_append]
      simp [Quota.exposure, Quota.Hold.exposure, BudgetClaim.active, hstatus, hconsumed]
  | consumed claim amount shared hclaim hactive hpos hle =>
      exact ⟨ha.consumed hclaim hactive hpos hle, rfl, ha.exposure_updateObject hclaim
        (ha.consumed_evolves hclaim hactive hpos hle shared)⟩
  | closed claim status shared hclaim hactive hentry hstatus =>
      exact ⟨ha.close hclaim hactive hstatus hentry, rfl, ha.exposure_updateObject hclaim
        (ha.closed_evolves hclaim hactive status shared)⟩

theorem Upkeeps.spec {a a' : BudgetAccount} (h : Upkeeps a a') (ha : a.Sound) :
    a'.Sound ∧ a'.limit = a.limit ∧ a'.exposure ≤ a.exposure := by
  induction h with
  | refl => exact ⟨ha, rfl, le_refl _⟩
  | tail _ h ih =>
      obtain ⟨hsound, hlimit, hle⟩ := ih
      obtain ⟨hsound', hlimit', hle'⟩ := h.spec hsound
      exact ⟨hsound', hlimit'.trans hlimit, hle'.trans hle⟩

/-! ## One spec lemma for each call -/

theorem reserveShared_store (a : BudgetAccount) (now : Time) (amount : ℤ)
    (given : Option String) (generated : String) :
    ∃ authority, (a.reserveShared now amount given generated).2 =
      { a with authority := authority } := by
  unfold reserveShared
  split
  · exact ⟨a.authority, rfl⟩
  · split
    · exact ⟨_, rfl⟩
    · exact ⟨_, rfl⟩

theorem onShared_store (a : BudgetAccount) (claim : BudgetClaim) (now : Time)
    (c : String → BudgetCall) :
    ∃ authority, (a.onShared claim now c).2 = { a with authority := authority } := by
  unfold onShared
  split
  · exact ⟨a.authority, rfl⟩
  · exact ⟨a.authority, rfl⟩
  · split
    · exact ⟨_, rfl⟩
    · exact ⟨_, rfl⟩

theorem requireActive_spec {a : BudgetAccount} {ref : ℕ} {claim : BudgetClaim}
    (h : a.requireActive ref = .ok claim) :
    a.object ref = some claim ∧ claim.ref = ref ∧ claim.active ∧
      a.claimAt claim.claimId = some claim.ref := by
  unfold requireActive requireOwned at h
  cases hobject : a.object ref with
  | none => simp [hobject] at h
  | some c =>
      simp only [hobject] at h
      split at h
      · cases h
      split at h
      · cases h
      next hentry hactive =>
      injection h with h
      subst h
      have href : c.ref = ref := Rows.key_of_lookup hobject
      exact ⟨rfl, href, by simpa using hactive, by rw [href]; exact not_not.mp hentry⟩

theorem consume_upkeeps (a : BudgetAccount) (now : Time) (ref : ℕ) (amount : ℤ) :
    Upkeeps a (a.consume now ref amount).2 := by
  unfold consume
  split
  · exact .refl
  split
  · exact .refl
  split
  · exact .refl
  next hneg hzero _ claim hclaim =>
  obtain ⟨hobject, rfl, hactive, -⟩ := requireActive_spec hclaim
  split
  · exact .refl
  next hover =>
  obtain ⟨authority, hstore⟩ := a.onShared_store claim now (.consume · amount)
  split
  · next heq =>
      rw [heq] at hstore
      rw [hstore]
      exact (Upkeep.store authority).upkeeps
  · next shared a' heq =>
      rw [heq] at hstore
      subst hstore
      exact (Upkeep.store authority).upkeeps.tail
        (.consumed claim amount shared hobject hactive (by omega) (not_lt.mp hover))

theorem complete_upkeeps (a : BudgetAccount) (now : Time) (ref : ℕ) :
    Upkeeps a (a.complete now ref).2 := by
  unfold complete
  split
  · exact .refl
  split
  · exact .refl
  split
  · exact .refl
  next claim hclaim =>
  obtain ⟨hobject, rfl, hactive, hentry⟩ := requireActive_spec hclaim
  obtain ⟨authority, hstore⟩ := a.onShared_store claim now (.complete · claim.consumed)
  split
  · next heq =>
      rw [heq] at hstore
      rw [hstore]
      exact (Upkeep.store authority).upkeeps
  · next shared a' heq =>
      rw [heq] at hstore
      subst hstore
      exact (Upkeep.store authority).upkeeps.tail
        (.closed claim .completed shared hobject hactive hentry (by simp))

theorem cancel_upkeeps (a : BudgetAccount) (now : Time) (ref : ℕ) :
    Upkeeps a (a.cancel now ref).2 := by
  unfold cancel
  split
  · exact .refl
  split
  · exact .refl
  split
  · exact .refl
  next claim hclaim =>
  obtain ⟨hobject, rfl, hactive, hentry⟩ := requireActive_spec hclaim
  obtain ⟨authority, hstore⟩ := a.onShared_store claim now .cancel
  split
  · next heq =>
      rw [heq] at hstore
      rw [hstore]
      exact (Upkeep.store authority).upkeeps
  · next a' heq =>
      rw [heq] at hstore
      subst hstore
      exact (Upkeep.store authority).upkeeps.tail
        (.closed claim .cancelled claim.shared hobject hactive hentry (by simp))

theorem cancelEach_upkeeps (now : ℕ → Time) (refs : List ℕ) (a : BudgetAccount) :
    Upkeeps a (cancelEach now refs a).2 := by
  induction refs generalizing a with
  | nil => exact .refl
  | cons ref refs ih =>
      unfold cancelEach
      split
      · have h := a.cancel_upkeeps (now ref) ref
        split
        · next heq =>
            rw [heq] at h
            exact h
        · next heq =>
            rw [heq] at h
            exact h.trans (ih _)
      · exact ih a

/-! ### Reserving -/

/-- The call reaches the registration of a new claim: the units asked for are within
what `remaining_limit` reports, the authority, if there is one, grants them, and no
claim is open under the id. -/
def Registers (a : BudgetAccount) (now : Time) (amount : ℤ) (given : Option String)
    (generated : String) : Prop :=
  0 < amount ∧ (∀ remaining, a.remainingLimit = some remaining → amount ≤ remaining) ∧
    ∃ id shared, (a.reserveShared now amount given generated).1 = .ok (id, shared) ∧
      a.claimAt id = none ∧ Text.strip id ≠ ""

theorem newClaim_spec {a : BudgetAccount} {id : String} {amount : ℤ}
    {shared : Option BudgetReservation} {status : ClaimStatus} {claim : BudgetClaim}
    (h : a.newClaim id amount shared status = .ok claim) :
    Text.strip id ≠ "" ∧ claim = ⟨a.objects.length, Text.strip id, amount, shared, 0, status⟩ := by
  unfold newClaim at h
  dsimp only at h
  split at h
  · cases h
  · injection h with h
    exact ⟨‹_›, h.symm⟩

/-- `reserve` opens a claim exactly when it registers one; otherwise it only keeps
house. -/
theorem reserve_spec (a : BudgetAccount) (now : Time) (amount : ℤ) (given : Option String)
    (generated : String) :
    (a.Registers now amount given generated ∧ ∃ authority id claim,
      (a.reserve now amount given generated).2 =
        opened { a with authority := authority } id claim ∧ claim.ref = a.objects.length ∧
      claim.amount = amount ∧ claim.consumed = 0 ∧ claim.active ∧ a.claimAt id = none) ∨
    (¬ a.Registers now amount given generated ∧
      Upkeeps a (a.reserve now amount given generated).2) := by
  unfold reserve
  split
  · exact .inr ⟨fun h ↦ by have := h.1; omega, .refl⟩
  split
  · next hover =>
      refine .inr ⟨fun h ↦ ?_, .refl⟩
      cases hlimit : a.remainingLimit with
      | none => simp [hlimit] at hover
      | some remaining =>
          have hlt : remaining < amount := by simpa [hlimit] using hover
          exact absurd (h.2.1 remaining hlimit) (not_le.mpr hlt)
  next hneg hwithin =>
  split
  · next hzero =>
      refine .inr ⟨fun h ↦ by have := h.1; omega, ?_⟩
      split
      · exact .refl
      · next claim hclaim =>
          obtain ⟨-, rfl⟩ := newClaim_spec hclaim
          exact (Upkeep.zero _ rfl rfl rfl rfl).upkeeps
  next hzero =>
  obtain ⟨authority, hstore⟩ := a.reserveShared_store now amount given generated
  split
  · next e a' heq =>
      rw [heq] at hstore
      refine .inr ⟨fun ⟨_, _, id, shared, h, _⟩ ↦ ?_, ?_⟩
      · rw [heq] at h
        cases h
      · rw [hstore]
        exact (Upkeep.store authority).upkeeps
  · next id shared a' heq =>
      rw [heq] at hstore
      subst hstore
      have hupkeep : Upkeeps a { a with authority := authority } :=
        (Upkeep.store authority).upkeeps
      unfold openClaim
      split
      · next ref hentry =>
          have hnot : ¬ a.Registers now amount given generated := by
            rintro ⟨-, -, id', shared', h, hnone, -⟩
            rw [heq] at h
            cases h
            exact absurd (hentry.symm.trans hnone) (by simp)
          split
          · exact .inr ⟨hnot, hupkeep⟩
          · exact .inr ⟨hnot, hupkeep⟩
      · next hnone =>
          split
          · next e herror =>
              refine .inr ⟨?_, hupkeep⟩
              rintro ⟨-, -, id', shared', h, -, hstrip⟩
              rw [heq] at h
              cases h
              simp [newClaim, hstrip] at herror
          · next claim hclaim =>
              obtain ⟨hstrip, rfl⟩ := newClaim_spec hclaim
              refine .inl ⟨⟨by omega, ?_, id, shared, by rw [heq], hnone, hstrip⟩,
                authority, id, _, rfl, rfl, rfl, rfl, rfl, hnone⟩
              intro remaining hremaining
              simpa [hremaining] using hwithin

/-! ## Runs -/

/-- The event that goes wrong: a reservation that registers a new claim for more units
than the limit leaves once the open claims are counted with their whole amounts.
`remaining_limit` counts the consumed units of an open claim as free, so it lets such
a reservation pass. -/
def Overdraws (a : BudgetAccount) : AccountEvent → Prop
  | .call (.reserve now amount given generated) =>
      a.Registers now amount given generated ∧
        ∃ limit, a.limit = some limit ∧ limit - a.spent - a.openAmount < amount
  | _ => False

/-- One step: the bookkeeping and the limit stay, and an account within its limit
stays within it unless the step overdraws it. -/
theorem Sound.apply_spec {a : BudgetAccount} (ha : a.Sound) (e : AccountEvent) :
    (a.apply e).Sound ∧ (a.apply e).limit = a.limit ∧
      (a.EnforcesLimit → ((a.apply e).EnforcesLimit ↔ ¬ a.Overdraws e)) := by
  -- The conclusion for a step that opens no claim.
  have hupkeep : Upkeeps a (a.apply e) → ¬ a.Overdraws e →
      (a.apply e).Sound ∧ (a.apply e).limit = a.limit ∧
        (a.EnforcesLimit → ((a.apply e).EnforcesLimit ↔ ¬ a.Overdraws e)) := by
    intro h hnot
    obtain ⟨hsound, hlimit, hle⟩ := h.spec ha
    refine ⟨hsound, hlimit, fun hin ↦ iff_of_true ?_ hnot⟩
    rw [ha.enforcesLimit_iff] at hin
    rw [hsound.enforcesLimit_iff, hlimit]
    exact fun limit h ↦ hle.trans (hin limit h)
  cases e with
  | authority e => exact hupkeep (Upkeep.store _).upkeeps id
  | call c =>
      cases c with
      | consume now ref amount => exact hupkeep (a.consume_upkeeps now ref amount) id
      | complete now ref => exact hupkeep (a.complete_upkeeps now ref) id
      | cancel now ref => exact hupkeep (a.cancel_upkeeps now ref) id
      | cancelAll now => exact hupkeep (cancelEach_upkeeps now _ a) id
      | reserve now amount given generated =>
          rcases a.reserve_spec now amount given generated with ⟨hreg, h⟩ | ⟨hnot, h⟩
          · obtain ⟨authority, id, claim, hresult, href, rfl, hconsumed, hactive, hnew⟩ := h
            have happly : a.apply (.call (.reserve now claim.amount given generated)) =
                BudgetAccount.opened { a with authority := authority } id claim := hresult
            have hsound := (ha.store authority).opened href hreg.1.le hconsumed hactive hnew
            have hexposure : (BudgetAccount.opened { a with authority := authority } id claim).exposure =
                a.exposure + claim.amount := exposure_opened _ hactive
            have hlimit : (BudgetAccount.opened { a with authority := authority } id claim).limit = a.limit := rfl
            rw [happly]
            refine ⟨hsound, hlimit, fun _ ↦ ?_⟩
            rw [hsound.enforcesLimit_iff, hlimit, hexposure, ha.exposure_eq]
            constructor
            · rintro h ⟨-, limit, hl, hlt⟩
              have := h limit hl
              omega
            · intro h limit hl
              by_contra hlt
              exact h ⟨hreg, limit, hl, by omega⟩
          · exact hupkeep h fun hover ↦ hnot hover.1

/-- An account as it is built keeps its books and is within its limit. -/
theorem make_spec {budget : String} {authority : Option BudgetStore}
    {authorityBudget leaseId : String} {fencingToken : ℤ} {limit : Option ℤ} {a : BudgetAccount}
    (h : make budget authority authorityBudget leaseId fencingToken limit = .ok a) :
    a.Sound ∧ a.EnforcesLimit := by
  unfold make at h
  dsimp only at h
  split at h
  · cases h
  split at h
  · cases h
  next hlimit =>
  split at h
  · cases h
  split at h
  · cases h
  injection h with h
  subst h
  refine ⟨by constructor <;> simp [Rows.Unique], fun l hl ↦ ?_⟩
  have hl' : limit = some l := hl
  have hnonneg : 0 ≤ l := by simpa [hl'] using hlimit
  exact ⟨by simpa [openAmount] using hnonneg, by simpa [totalConsumed] using hnonneg⟩

/-- **Exactly when an account enforces its limit.**  Over any sequence of calls on the
account, and of events at the authority behind it, every state reached enforces the
limit if and only if no reservation of the run overdraws it. -/
theorem enforces_limit_iff (budget : String) (authority : Option BudgetStore)
    (authorityBudget leaseId : String) (fencingToken : ℤ) (limit : Option ℤ) (a : BudgetAccount)
    (h : make budget authority authorityBudget leaseId fencingToken limit = .ok a)
    (events : List AccountEvent) :
    (∀ before, before <+: events → (a.run before).EnforcesLimit) ↔
      ∀ before e, before ++ [e] <+: events → ¬ (a.run before).Overdraws e := by
  obtain ⟨ha, hstart⟩ := make_spec h
  exact Machine.forall_prefix_iff ha hstart (fun _ e ha ↦ (ha.apply_spec e).1)
    (fun _ _ h ↦ h) (fun _ e ha hlimit hok ↦ ((ha.apply_spec e).2.2 hlimit).mpr hok)
    (fun _ e ha hlimit hbad h ↦ ((ha.apply_spec e).2.2 hlimit).mp h hbad) events

/-- A local account of ten units. -/
def tokens : BudgetAccount where
  authorityBudget := "tokens"
  authority := none
  leaseId := ""
  fencingToken := 0
  limit := some 10
  spent := 0
  objects := []
  claims := []

/-- Reserve ten units and consume them, then reserve and consume ten more while the
first claim is still open. -/
def reuse : List AccountEvent :=
  [.call (.reserve 0 10 (some "first") ""), .call (.consume 0 0 10),
    .call (.reserve 0 10 (some "second") ""), .call (.consume 0 1 10)]

theorem enforces_limit_iff_tokens :
    (∀ before, before <+: reuse → (tokens.run before).EnforcesLimit) ↔
      ∀ before e, before ++ [e] <+: reuse → ¬ (tokens.run before).Overdraws e :=
  enforces_limit_iff "tokens" none "" "" 0 (some 10) tokens (by rfl) reuse

/-- The limit of ten is exceeded: twenty units are set aside, and consumed. -/
theorem tokens_overdrawn :
    make "tokens" none "" "" 0 (some 10) = .ok tokens ∧
      (tokens.run reuse).spent + (tokens.run reuse).openAmount = 20 ∧
      (tokens.run reuse).totalConsumed = 20 ∧ ¬ (tokens.run reuse).EnforcesLimit := by
  have hopen : (tokens.run reuse).spent + (tokens.run reuse).openAmount = 20 := by decide
  refine ⟨by rfl, hopen, by decide, fun h ↦ ?_⟩
  have hle := (h 10 (by decide)).1
  rw [hopen] at hle
  exact absurd hle (by decide)

end Blackbase.Resources.BudgetAccount
