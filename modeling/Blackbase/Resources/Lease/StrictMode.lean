import Blackbase.Core.Machine
import Blackbase.Resources.Lease.Admission
import Blackbase.Resources.Lease.StoreSpec

/-!
# Strict mode over whole runs

Any number of allocators with one strict policy and one offer share a lease store.
Every call is one atomic step with its own reading of the client's clock, and the
store's time may be set to anything in between.

What is claimed of every state is `AdmissionState.WithinLimits`: the leases that are
stored as active and unexpired at the store's time fit the policy and the offer.  The
proof follows the larger list of *all* leases stored as active, which no call but an
admission adds to.

On Redis an admission leaves out the leases its client's clock takes for expired, and
`AdmissionState.Overlooks` says that a request is admitted only because of that.
-/

namespace Blackbase.Resources

/-! ## Claims -/

/-- The claims of the leases stored as active. -/
def LeaseStore.claims (store : LeaseStore) : List LeaseResources :=
  (store.stored.filter fun l ↦ l.status = .active).map (·.resources)

/-- The claims of the leases stored as active whose expiry `now` has not reached. -/
def LeaseStore.claimsAt (store : LeaseStore) (now : Time) : List LeaseResources :=
  (store.stored.filter (·.active now)).map (·.resources)

/-- The claims left active at `now` besides whatever is stored under `leaseId`. -/
def LeaseStore.otherClaims (store : LeaseStore) (now : Time) (leaseId : String) :
    List LeaseResources :=
  (store.stored.filter fun l ↦ l.active now && decide (l.leaseId ≠ leaseId)).map (·.resources)

namespace LeaseStore

variable {store after : LeaseStore}

/-- Filtering more leaves fewer claims. -/
theorem map_filter_sublist {leases : List ResourceLease} {p q : ResourceLease → Bool}
    (h : ∀ l, p l → q l) : ((leases.filter p).map (·.resources)).Sublist
      ((leases.filter q).map (·.resources)) :=
  (List.monotone_filter_right leases fun l hl ↦ h l hl).map _

theorem claimsAt_sublist (store : LeaseStore) (now : Time) :
    (store.claimsAt now).Sublist store.claims :=
  map_filter_sublist fun _ hl ↦ by simpa using (ResourceLease.active_iff.mp hl).1

theorem otherClaims_sublist (store : LeaseStore) (now : Time) (leaseId : String) :
    (store.otherClaims now leaseId).Sublist (store.claimsAt now) :=
  map_filter_sublist fun _ hl ↦ (Bool.and_eq_true_iff.mp hl).1

/-- Every claim in the store is that of a request. -/
def Requested (store : LeaseStore) : Prop := ∀ l ∈ store.stored, l.resources.Requested

theorem Requested.claims (h : store.Requested) : ∀ c ∈ store.claims, c.Requested := by
  intro c hc
  obtain ⟨l, hl, rfl⟩ := List.mem_map.mp hc
  exact h l (List.mem_of_mem_filter hl)

/-! ### One call -/

/-- Rewriting the leases adds no claim. -/
theorem Rewrites.claims_sublist (h : store.Rewrites after) :
    after.claims.Sublist store.claims := by
  obtain ⟨-, f, hf, hstored⟩ := h
  have hmap : ∀ leases : List ResourceLease,
      (((leases.map f).filter fun l ↦ l.status = .active).map (·.resources)).Sublist
        ((leases.filter fun l ↦ l.status = .active).map (·.resources)) := by
    intro leases
    induction leases with
    | nil => exact .slnil
    | cons l leases ih =>
        rw [List.map_cons]
        by_cases hl : l.status = .active
        · by_cases hfl : (f l).status = .active
          · simpa [hl, hfl, (hf l).resources] using ih
          · simpa [hl, hfl] using ih.cons l.resources
        · have hfl : (f l).status ≠ .active := fun h ↦ hl ((hf l).active h)
          simpa [hl, hfl] using ih
  rw [LeaseStore.claims, hstored]
  exact hmap store.stored

theorem Rewrites.requested (h : store.Rewrites after) (hs : store.Requested) :
    after.Requested := by
  obtain ⟨-, f, hf, hstored⟩ := h
  intro l hl
  rw [hstored] at hl
  obtain ⟨a, ha, rfl⟩ := List.mem_map.mp hl
  rw [(hf a).resources]
  exact hs a ha

/-- After a granted admission the claims are those the sweep left, and the new one. -/
theorem granted_claims {store after : LeaseStore} {now : Time} {issued : ResourceLease}
    {leaseId : String} (hactive : issued.active now)
    (hstored : after.stored.Perm (((store.stored.map (ResourceLease.sweep now)).filter
      fun l ↦ l.leaseId ≠ leaseId) ++ [issued])) {p : ResourceLease → Bool}
    (hp : ∀ l : ResourceLease, p l → l.status = .active)
    (hactivep : ∀ l : ResourceLease, l.active now → p l) :
    ((after.stored.filter p).map (·.resources)).Perm
      (store.otherClaims now leaseId ++ [issued.resources]) := by
  have hfilter : ((store.stored.map (ResourceLease.sweep now)).filter
      fun l ↦ l.leaseId ≠ leaseId).filter p =
        store.stored.filter fun l ↦ l.active now && decide (l.leaseId ≠ leaseId) := by
    rw [List.filter_filter, filter_sweep now store.stored fun l hl ↦
      hp l (Bool.and_eq_true_iff.mp hl).1]
    refine List.filter_congr fun l _ ↦ ?_
    cases ha : l.active now with
    | false => rfl
    | true => simp [hactivep l ha]
  have hperm := (hstored.filter p).map (·.resources)
  rw [List.filter_append, hfilter, List.map_append] at hperm
  have hissued : ([issued].filter p).map (·.resources) = [issued.resources] := by
    simp [hactivep issued hactive]
  rwa [hissued] at hperm

end LeaseStore

/-! ## Runs -/

/-- A lease store and its own clock; for SQLite the clock is any reading. -/
structure AdmissionState where
  store : LeaseStore
  time : Time

/-- One step of a run. -/
inductive AdmissionEvent where
  /-- `ResourceAllocator.acquire` of a client whose clock reads `clock`. -/
  | acquire (clock : Time) (req : ResourceRequest) (ownerId scope uuid : String) (ttl : Time)
  | call (clock : Time) (c : LeaseCall)
  /-- The store's clock moves. -/
  | tick (time : Time)

namespace AdmissionState

variable (policy : ResourcePolicy) (offer : ResourceOffer)

/-- What one event does. -/
def apply (s : AdmissionState) : AdmissionEvent → AdmissionState
  | .acquire clock req ownerId scope uuid ttl =>
      { s with store := ((ResourceAllocator.mk policy offer ttl).acquire s.store s.time clock req
          ownerId scope uuid).2 }
  | .call clock c => { s with store := (s.store.exec s.time clock c).2 }
  | .tick time => { s with time := time }

/-- The state after a sequence of events. -/
def run (s : AdmissionState) (events : List AdmissionEvent) : AdmissionState :=
  events.foldl (apply policy offer) s

/-- An untouched store. -/
def start (backend : LeaseBackend) (time : Time) : AdmissionState := ⟨.empty backend, time⟩

/-- The leases stored as active and unexpired at the store's time fit the policy. -/
def WithinLimits (s : AdmissionState) : Prop := Within policy offer (s.store.claimsAt s.time)

/-- The event is an acquisition on Redis which is admitted beside the leases its
client's clock counts, and does not fit beside those left active at the server's time. -/
def Overlooks (s : AdmissionState) : AdmissionEvent → Prop
  | .acquire clock req ownerId scope uuid _ =>
      (∃ keys, s.store = .redis keys) ∧ validateRequest policy offer req = .ok () ∧
      Admits policy offer ((s.store.counted s.time clock).map (·.resources)) req ∧
      ¬ Admits policy offer
        (s.store.otherClaims s.time (ResourceAllocator.leaseId ownerId scope uuid)) req
  | _ => False

/-- What every step keeps of the store. -/
structure Sound (s : AdmissionState) : Prop where
  wf : s.store.Wf
  requested : s.store.Requested

theorem sound_start (backend : LeaseBackend) (time : Time) : (start backend time).Sound := by
  refine ⟨LeaseStore.wf_empty backend, ?_⟩
  cases backend <;> exact fun l hl ↦ absurd hl List.not_mem_nil

variable {policy offer}

/-- An acquisition in strict mode is the store's admission of a validated request. -/
theorem acquire_cases (hstrict : policy.strict = true) (s : AdmissionState) (clock : Time) (req : ResourceRequest)
    (ownerId scope uuid : String) (ttl : Time) :
    (apply policy offer s (.acquire clock req ownerId scope uuid ttl)).store = s.store ∧
        validateRequest policy offer req ≠ .ok () ∨
      (apply policy offer s (.acquire clock req ownerId scope uuid ttl)).store =
        (s.store.acquireLease s.time clock
          (ResourceAllocator.candidate clock req ownerId scope uuid)
          (validateAggregateBudget policy offer req) ttl).2 ∧
        validateRequest policy offer req = .ok () := by
  simp only [apply, ResourceAllocator.acquire, hstrict, ↓reduceIte]
  cases validateRequest policy offer req with
  | error e => exact .inl ⟨rfl, nofun⟩
  | ok u => exact .inr ⟨rfl, rfl⟩

variable {s : AdmissionState}

/-- The admission of an acquisition, described by `LeaseStore.Admission`. -/
theorem Sound.admission (h : s.Sound) (clock : Time) (req : ResourceRequest)
    (ownerId scope uuid : String) (ttl : Time) :
    s.store.Admission s.time clock (ResourceAllocator.candidate clock req ownerId scope uuid)
      (validateAggregateBudget policy offer req)
      (s.store.acquireLease s.time clock
        (ResourceAllocator.candidate clock req ownerId scope uuid)
        (validateAggregateBudget policy offer req) ttl).2 :=
  h.wf.acquireLease_spec s.time clock _ _ ttl

/-- The check passes on the listed leases exactly if the request fits beside them. -/
theorem admits_counted {clock : Time} {req : ResourceRequest} :
    validateAggregateBudget policy offer req (byFencingToken (s.store.counted s.time clock)) =
        .ok () ↔
      Admits policy offer ((s.store.counted s.time clock).map (·.resources)) req := by
  rw [validateAggregateBudget_eq_ok]
  have hperm := (byFencingToken_perm (s.store.counted s.time clock)).map (·.resources)
  exact ⟨fun h ↦ h.perm hperm, fun h ↦ h.perm hperm.symm⟩

theorem granted_requested {store after : LeaseStore} {now : Time} {issued : ResourceLease}
    {leaseId : String} (hs : store.Requested) (hissued : issued.resources.Requested)
    (hstored : after.stored.Perm (((store.stored.map (ResourceLease.sweep now)).filter
      fun l ↦ l.leaseId ≠ leaseId) ++ [issued])) : after.Requested := by
  intro l hl
  rcases List.mem_append.mp (hstored.subset hl) with hl | hl
  · obtain ⟨a, ha, rfl⟩ := List.mem_map.mp (List.mem_of_mem_filter hl)
    rw [ResourceLease.sweep_resources]
    exact hs a ha
  · obtain rfl := List.mem_singleton.mp hl
    exact hissued

theorem Sound.apply (hstrict : policy.strict = true) (h : s.Sound) (e : AdmissionEvent) :
    (AdmissionState.apply policy offer s e).Sound := by
  cases e with
  | acquire clock req ownerId scope uuid ttl =>
      rcases acquire_cases hstrict s clock req ownerId scope uuid ttl with
        ⟨hstore, -⟩ | ⟨hstore, -⟩
      · exact ⟨hstore ▸ h.wf, hstore ▸ h.requested⟩
      · rcases h.admission clock req ownerId scope uuid ttl with
          ⟨hrw, -⟩ | ⟨issued, hwf, -, hresources, -, hstored⟩
        · exact ⟨hstore ▸ hrw.1, hstore ▸ hrw.requested h.requested⟩
        · refine ⟨hstore ▸ hwf, hstore ▸ granted_requested h.requested ?_ hstored⟩
          exact hresources ▸ req.requested_asDict
  | call clock c =>
      have hrw := h.wf.exec_spec s.time clock c
      exact ⟨hrw.1, hrw.requested h.requested⟩
  | tick time => exact ⟨h.wf, h.requested⟩

/-- A step that overlooks nothing keeps all the active claims within the limits. -/
theorem Sound.within_apply (hstrict : policy.strict = true) (h : s.Sound)
    (hs : Within policy offer s.store.claims) (e : AdmissionEvent)
    (he : ¬ s.Overlooks policy offer e) :
    Within policy offer (AdmissionState.apply policy offer s e).store.claims := by
  have hrewrites : ∀ {after : LeaseStore}, s.store.Rewrites after →
      Within policy offer after.claims := fun hrw ↦
    hs.sublist h.requested.claims hrw.claims_sublist
  cases e with
  | acquire clock req ownerId scope uuid ttl =>
      rcases acquire_cases hstrict s clock req ownerId scope uuid ttl with
        ⟨hstore, -⟩ | ⟨hstore, hreq⟩
      · rw [hstore]
        exact hs
      rw [hstore]
      rcases h.admission clock req ownerId scope uuid ttl with
        ⟨hrw, -⟩ | ⟨issued, -, hvalid, hresources, hactive, hstored⟩
      · exact hrewrites hrw
      have hclaims := LeaseStore.granted_claims hactive hstored
        (p := fun l ↦ l.status = .active) (fun l hl ↦ by simpa using hl)
        (fun l hl ↦ by simpa using (ResourceLease.active_iff.mp hl).1)
      have hothers := ((s.store.otherClaims_sublist (s.store.sweepTime s.time clock)
        (ResourceAllocator.leaseId ownerId scope uuid)).trans (s.store.claimsAt_sublist _))
      have hcounted := admits_counted.mp hvalid
      have hfits : Admits policy offer (s.store.otherClaims (s.store.sweepTime s.time clock)
          (ResourceAllocator.leaseId ownerId scope uuid)) req := by
        cases hstore : s.store with
        | sqlite t =>
            refine (hcounted.sublist ?_ ?_)
            · intro c hc
              obtain ⟨l, hl, rfl⟩ := List.mem_map.mp hc
              rw [hstore] at hl
              exact h.requested l (by rw [hstore]; exact List.mem_of_mem_filter hl)
            · rw [hstore]
              exact LeaseStore.map_filter_sublist fun l hl ↦ (Bool.and_eq_true_iff.mp hl).1
        | redis keys =>
            by_contra hnot
            exact he ⟨⟨keys, hstore⟩, hreq, hcounted, by rw [hstore]; exact hnot⟩
      rw [hresources] at hclaims
      exact ((hs.sublist h.requested.claims hothers).append hfits).perm hclaims.symm
  | call clock c => exact hrewrites (h.wf.exec_spec s.time clock c)
  | tick time => exact hs

/-- A step that overlooks a claim breaks the limits. -/
theorem Sound.overlooks_breaks (hstrict : policy.strict = true) (h : s.Sound)
    (e : AdmissionEvent) (he : s.Overlooks policy offer e) :
    ¬ (AdmissionState.apply policy offer s e).WithinLimits policy offer := by
  cases e with
  | acquire clock req ownerId scope uuid ttl =>
      obtain ⟨⟨keys, hkeys⟩, hreq, hcounted, hnot⟩ := he
      rcases acquire_cases hstrict s clock req ownerId scope uuid ttl with
        ⟨-, hreq'⟩ | ⟨hstore, -⟩
      · exact absurd hreq hreq'
      rcases h.admission clock req ownerId scope uuid ttl with
        ⟨-, hredis⟩ | ⟨issued, -, -, hresources, hactive, hstored⟩
      · exact absurd (admits_counted.mpr hcounted) (hredis keys hkeys)
      have hsweep : s.store.sweepTime s.time clock = s.time := by rw [hkeys]; rfl
      rw [hsweep] at hactive hstored
      have hclaims := LeaseStore.granted_claims hactive hstored
        (p := fun l ↦ l.active s.time) (fun l hl ↦ (ResourceLease.active_iff.mp hl).1)
        (fun _ hl ↦ hl)
      rw [hresources] at hclaims
      intro hwithin
      rw [WithinLimits, hstore] at hwithin
      exact hnot (hwithin.perm hclaims).admits
  | call clock c => exact he.elim
  | tick time => exact he.elim

variable (policy) (offer)

/-- A strict policy for one worker. -/
def oneWorker : ResourcePolicy := .make 1 none none none "strict" "exclusive" false

/-- An offer of one thread. -/
def oneThread : ResourceOffer := .make 1 0 [] none none []

/-- A request for one worker and no memory. -/
def single : ResourceRequest := .make 1 none 0 none []

/-- Two acquisitions at the server's time 100.  The clock of the second client is ahead of
the expiry, 160, of the first lease. -/
def fastClock : List AdmissionEvent :=
  [.acquire 100 single "first" "" "0a" 60, .acquire 200 single "second" "" "0b" 60]

end AdmissionState

end Blackbase.Resources
