import Blackbase.Resources.Account.Model

/-!
# Accounts that hold one claim

An invocation opens an account for each budget it delegates, reserves on it once, and
uses and closes that one claim.  What the calls of `BudgetAccount` do then is a call on
the authority and a change of the one claim object.
-/

namespace Blackbase.Resources.BudgetAccount

/-- No claim has been made on the account. -/
structure Fresh (a : BudgetAccount) : Prop where
  limit : ∀ limit ∈ a.limit, 0 ≤ limit
  spent : a.spent = 0
  objects : a.objects = []
  claims : a.claims = []

/-- The account has one claim, which it holds open while the claim is active. -/
structure Holds (a : BudgetAccount) (claim : BudgetClaim) : Prop where
  ref : claim.ref = 0
  objects : a.objects = [claim]
  claims : claim.active → a.claims = [(claim.claimId, 0)]

/-- The account with its authority at the given state. -/
def attach (a : BudgetAccount) (store : BudgetStore) : BudgetAccount :=
  { a with authority := some store }

@[simp] theorem attach_objects (a : BudgetAccount) (store : BudgetStore) :
    (a.attach store).objects = a.objects := rfl

@[simp] theorem attach_claims (a : BudgetAccount) (store : BudgetStore) :
    (a.attach store).claims = a.claims := rfl

theorem Fresh.attach {a : BudgetAccount} (h : a.Fresh) (store : BudgetStore) :
    (a.attach store).Fresh := ⟨h.limit, h.spent, h.objects, h.claims⟩

theorem Holds.attach {a : BudgetAccount} {claim : BudgetClaim} (h : a.Holds claim)
    (store : BudgetStore) : (a.attach store).Holds claim := ⟨h.ref, h.objects, h.claims⟩

theorem make_fresh {budget authorityBudget leaseId : String} {authority : Option BudgetStore}
    {fencingToken : ℤ} {limit : Option ℤ} {a : BudgetAccount}
    (h : make budget authority authorityBudget leaseId fencingToken limit = .ok a) :
    a.Fresh ∧ a.authority = authority ∧
      a.authorityBudget = Text.strip (if authorityBudget = "" then Text.strip budget
        else authorityBudget) ∧
      a.leaseId = leaseId ∧ a.fencingToken = fencingToken ∧ a.limit = limit ∧
      (authority.isSome → 0 < fencingToken) := by
  unfold make at h
  dsimp only at h
  split at h
  · cases h
  split at h
  · cases h
  next hlimit =>
  split at h
  · cases h
  split at h
  · cases h
  next htoken =>
  injection h with h
  subst h
  refine ⟨⟨fun l hl ↦ ?_, rfl, rfl, rfl⟩, rfl, rfl, rfl, rfl, rfl, fun hsome ↦ ?_⟩
  · obtain rfl : limit = some l := hl
    simpa using hlimit
  · by_contra hnot
    exact htoken ⟨hsome, not_lt.mp hnot⟩

/-! ## Reserving on a fresh account -/

variable {a : BudgetAccount} {now : Time} {store : BudgetStore}

theorem Fresh.remainingLimit (h : a.Fresh) : a.remainingLimit = a.limit := by
  cases hl : a.limit with
  | none => simp [BudgetAccount.remainingLimit, hl]
  | some limit =>
      simp [BudgetAccount.remainingLimit, hl, h.spent, activeReserved, values, h.claims,
        h.limit limit hl]

theorem any_lt_of_le {limit : Option ℤ} {amount : ℤ} (h : ∀ l ∈ limit, amount ≤ l) :
    (limit.any fun l ↦ decide (l < amount)) = false := by
  cases limit with
  | none => rfl
  | some l => simpa using h l rfl

section Reserve

variable {amount : ℤ} {id generated : String}

/-- Nothing is reserved for a claim on no units. -/
theorem Fresh.reserve_zero (h : a.Fresh) (hid : id ≠ "") (hstrip : Text.strip id = id) :
    a.reserve now 0 (some id) generated =
      (.ok (.claim 0), { a with objects := [⟨0, id, 0, none, 0, .completed⟩] }) := by
  simp [BudgetAccount.reserve, h.remainingLimit, any_lt_of_le h.limit, identifierOr, hid, newClaim,
    hstrip, h.objects]

theorem Fresh.reserve_of_error (h : a.Fresh) (hpos : 0 < amount)
    (hlimit : ∀ l ∈ a.limit, amount ≤ l) {e : AccountError} {a' : BudgetAccount}
    (hshared : a.reserveShared now amount (some id) generated = (.error e, a')) :
    a.reserve now amount (some id) generated = (.error e, a') := by
  rw [BudgetAccount.reserve, if_neg (not_lt.mpr hpos.le), h.remainingLimit, any_lt_of_le hlimit,
    if_neg (by simp), if_neg hpos.ne', hshared]

theorem Fresh.reserve_of_ok (h : a.Fresh) (hpos : 0 < amount)
    (hlimit : ∀ l ∈ a.limit, amount ≤ l) {claimId : String} {shared : Option BudgetReservation}
    {a' : BudgetAccount}
    (hshared : a.reserveShared now amount (some id) generated = (.ok (claimId, shared), a')) :
    a.reserve now amount (some id) generated = a'.openClaim claimId amount shared := by
  rw [BudgetAccount.reserve, if_neg (not_lt.mpr hpos.le), h.remainingLimit, any_lt_of_le hlimit,
    if_neg (by simp), if_neg hpos.ne', hshared]

/-- A claim on a positive amount is the authority's to refuse. -/
theorem Fresh.reserve_error (h : a.Fresh) (hpos : 0 < amount) (hlimit : ∀ l ∈ a.limit, amount ≤ l)
    (hstore : a.authority = some store) {e : BudgetError}
    (he : (store.exec now (.reserve a.authorityBudget amount a.leaseId a.fencingToken (some id)
      generated)).1 = .error e) :
    a.reserve now amount (some id) generated =
      (.error (.authority e), a.attach (store.exec now (.reserve a.authorityBudget amount a.leaseId
        a.fencingToken (some id) generated)).2) := by
  refine h.reserve_of_error hpos hlimit ?_
  rw [reserveShared, hstore]
  dsimp only
  generalize store.exec now _ = res at he ⊢
  obtain ⟨out, store'⟩ := res
  obtain rfl : out = .error e := he
  rfl

/-- A claim on a positive amount is the authority's to grant. -/
theorem Fresh.reserve_ok (h : a.Fresh) (hpos : 0 < amount) (hlimit : ∀ l ∈ a.limit, amount ≤ l)
    (hid : id ≠ "") (hstrip : Text.strip id = id) (hstore : a.authority = some store)
    {r : BudgetReservation} (hr : r.reservationId = id)
    (hok : (store.exec now (.reserve a.authorityBudget amount a.leaseId a.fencingToken (some id)
      generated)).1 = .ok (.reservation r)) :
    a.reserve now amount (some id) generated =
      (.ok (.claim 0), { a.attach (store.exec now (.reserve a.authorityBudget amount a.leaseId
        a.fencingToken (some id) generated)).2 with
          objects := [⟨0, id, amount, some r, 0, .active⟩], claims := [(id, 0)] }) := by
  generalize hres : store.exec now _ = res at hok ⊢
  obtain ⟨out, store'⟩ := res
  obtain rfl : out = .ok (.reservation r) := hok
  have hshared : a.reserveShared now amount (some id) generated =
      (.ok (id, some r), a.attach store') := by
    rw [reserveShared, hstore]
    dsimp only
    rw [hres]
    exact congrArg (fun k ↦ (Except.ok (k, some r), a.attach store')) hr
  rw [h.reserve_of_ok hpos hlimit hshared]
  simp [openClaim, claimAt, h.claims, newClaim, hstrip, hid, h.objects]

end Reserve

/-! ## Using and closing the claim -/

section Holds

variable {claim : BudgetClaim} {r : BudgetReservation}

theorem Holds.object (h : a.Holds claim) : a.object 0 = some claim := by
  rw [BudgetAccount.object, h.objects, Rows.lookup_cons, if_pos h.ref]

theorem Holds.requireActive (h : a.Holds claim) (hactive : claim.active) :
    a.requireActive 0 = .ok claim := by
  simp [BudgetAccount.requireActive, requireOwned, h.object, claimAt, h.claims hactive,
    Rows.lookup_cons, hactive]

theorem Holds.onShared_error (hshared : claim.shared = some r) (hstore : a.authority = some store)
    {c : String → BudgetCall} {e : BudgetError}
    (he : (store.exec now (c r.reservationId)).1 = .error e) :
    a.onShared claim now c =
      (.error (.authority e), a.attach (store.exec now (c r.reservationId)).2) := by
  rw [BudgetAccount.onShared, hshared, hstore]
  dsimp only
  generalize store.exec now (c r.reservationId) = res at he ⊢
  obtain ⟨out, store'⟩ := res
  obtain rfl : out = .error e := he
  rfl

theorem Holds.onShared_ok (hshared : claim.shared = some r) (hstore : a.authority = some store)
    {c : String → BudgetCall} {reply : BudgetReply}
    (hok : (store.exec now (c r.reservationId)).1 = .ok reply) :
    a.onShared claim now c =
      (.ok reply.reservation?, a.attach (store.exec now (c r.reservationId)).2) := by
  rw [BudgetAccount.onShared, hshared, hstore]
  dsimp only
  generalize store.exec now (c r.reservationId) = res at hok ⊢
  obtain ⟨out, store'⟩ := res
  obtain rfl : out = .ok reply := hok
  rfl

/-- The account after its claim has been rewritten. -/
theorem Holds.rewrite (h : a.Holds claim) (f : BudgetClaim → BudgetClaim) :
    a.updateObject 0 f = { a with objects := [f claim] } := by
  simp [updateObject, Rows.update, h.objects, h.ref]

theorem Holds.consume_error (h : a.Holds claim) (hactive : claim.active)
    (hshared : claim.shared = some r) (hstore : a.authority = some store) {amount : ℤ}
    (hpos : 0 < amount) (hle : amount ≤ claim.remaining) {e : BudgetError}
    (he : (store.exec now (.consume r.reservationId amount)).1 = .error e) :
    a.consume now 0 amount =
      (.error (.authority e), a.attach (store.exec now (.consume r.reservationId amount)).2) := by
  rw [BudgetAccount.consume, if_neg (not_lt.mpr hpos.le), if_neg hpos.ne', h.requireActive hactive]
  dsimp only
  rw [if_neg (not_lt.mpr hle), Holds.onShared_error hshared hstore he]

theorem Holds.consume_ok (h : a.Holds claim) (hactive : claim.active)
    (hshared : claim.shared = some r) (hstore : a.authority = some store) {amount : ℤ}
    (hpos : 0 < amount) (hle : amount ≤ claim.remaining) {r' : BudgetReservation}
    (hok : (store.exec now (.consume r.reservationId amount)).1 = .ok (.reservation r')) :
    a.consume now 0 amount = (.ok .done,
      { a.attach (store.exec now (.consume r.reservationId amount)).2 with
        objects := [{ claim with shared := some r', consumed := claim.consumed + amount }] }) := by
  rw [BudgetAccount.consume, if_neg (not_lt.mpr hpos.le), if_neg hpos.ne', h.requireActive hactive]
  dsimp only
  rw [if_neg (not_lt.mpr hle), Holds.onShared_ok hshared hstore hok]
  dsimp only
  rw [(h.attach _).rewrite]
  rfl

theorem Holds.complete_error (h : a.Holds claim) (hactive : claim.active)
    (hshared : claim.shared = some r) (hstore : a.authority = some store) {e : BudgetError}
    (he : (store.exec now (.complete r.reservationId claim.consumed)).1 = .error e) :
    a.complete now 0 = (.error (.authority e),
      a.attach (store.exec now (.complete r.reservationId claim.consumed)).2) := by
  have hopen : claim.status ≠ .completed := fun hc ↦ by simp [BudgetClaim.active, hc] at hactive
  rw [BudgetAccount.complete, requireOwned, h.object]
  dsimp only
  rw [if_neg hopen, h.requireActive hactive]
  dsimp only
  rw [Holds.onShared_error hshared hstore he]

theorem Holds.complete_ok (h : a.Holds claim) (hactive : claim.active)
    (hshared : claim.shared = some r) (hstore : a.authority = some store) {r' : BudgetReservation}
    (hok : (store.exec now (.complete r.reservationId claim.consumed)).1 = .ok (.reservation r')) :
    a.complete now 0 = (.ok .done,
      (a.attach (store.exec now (.complete r.reservationId claim.consumed)).2).close claim
        .completed (some r')) := by
  have hopen : claim.status ≠ .completed := fun hc ↦ by simp [BudgetClaim.active, hc] at hactive
  rw [BudgetAccount.complete, requireOwned, h.object]
  dsimp only
  rw [if_neg hopen, h.requireActive hactive]
  dsimp only
  rw [Holds.onShared_ok hshared hstore hok]
  rfl

theorem Holds.cancel_ok (h : a.Holds claim) (hactive : claim.active)
    (hshared : claim.shared = some r) (hstore : a.authority = some store) {reply : BudgetReply}
    (hok : (store.exec now (.cancel r.reservationId)).1 = .ok reply) :
    a.cancel now 0 = (.ok (.flag true),
      (a.attach (store.exec now (.cancel r.reservationId)).2).close claim .cancelled
        claim.shared) := by
  rw [BudgetAccount.cancel, requireOwned, h.object]
  dsimp only
  rw [hactive, if_neg (by simp), h.requireActive hactive]
  dsimp only
  rw [Holds.onShared_ok hshared hstore hok]

/-- Cancelling a claim that is not active does nothing. -/
theorem Holds.cancel_closed (h : a.Holds claim) (hclosed : claim.active = false) :
    a.cancel now 0 = (.ok (.flag false), a) := by
  rw [BudgetAccount.cancel, requireOwned, h.object]
  dsimp only
  rw [hclosed, if_pos (by simp)]

end Holds

end Blackbase.Resources.BudgetAccount
