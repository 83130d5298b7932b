import Blackbase.Resources.Lease.Store

/-!
# What a call on a lease store does

Each call is described once, by what it does to the list of stored leases.  The calls
other than the admission rewrite leases one by one without making one active again
(`LeaseStore.Wf.exec_spec`); an admission either does the same and issues nothing, or
adds the issued lease to the leases its sweep left behind (`LeaseStore.Admission`).
-/

namespace Blackbase.Resources

namespace ResourceLease

/-- A lease rewritten to the same claim, which is not active unless it was. -/
structure Settles (l l' : ResourceLease) : Prop where
  leaseId : l'.leaseId = l.leaseId
  resources : l'.resources = l.resources
  active : l'.status = .active → l.status = .active

theorem Settles.refl (l : ResourceLease) : l.Settles l := ⟨rfl, rfl, id⟩

theorem Settles.trans {l l' l'' : ResourceLease} (h : l.Settles l') (h' : l'.Settles l'') :
    l.Settles l'' :=
  ⟨h'.leaseId.trans h.leaseId, h'.resources.trans h.resources, h.active ∘ h'.active⟩

theorem settles_sweep (now : Time) (l : ResourceLease) : l.Settles (l.sweep now) := by
  unfold sweep
  split
  · exact ⟨rfl, rfl, nofun⟩
  · exact .refl l

theorem settles_renewed (now ttl : Time) (l : ResourceLease) : l.Settles (l.renewed now ttl) :=
  ⟨rfl, rfl, id⟩

theorem settles_released (now : Time) (l : ResourceLease) : l.Settles (l.released now) :=
  ⟨rfl, rfl, nofun⟩

@[simp] theorem sweep_leaseId (now : Time) (l : ResourceLease) :
    (l.sweep now).leaseId = l.leaseId := (settles_sweep now l).leaseId

@[simp] theorem sweep_resources (now : Time) (l : ResourceLease) :
    (l.sweep now).resources = l.resources := (settles_sweep now l).resources

theorem active_iff {l : ResourceLease} {now : Time} : l.active now = true ↔
    l.status = .active ∧ (l.expiresAt ≤ 0 ∨ now < l.expiresAt) := by
  simp [active, unexpired]

theorem due_iff {l : ResourceLease} {now : Time} : l.due now = true ↔
    l.status = .active ∧ 0 < l.expiresAt ∧ l.expiresAt ≤ now := by
  simp [due]

theorem sweep_of_active {now : Time} {l : ResourceLease} (h : l.active now) :
    l.sweep now = l := by
  refine if_neg fun hdue ↦ ?_
  obtain ⟨-, hpos, hle⟩ := due_iff.mp hdue
  rcases (active_iff.mp h).2 with hexp | hexp
  · exact absurd hpos (not_lt.mpr hexp)
  · exact absurd hle (not_le.mpr hexp)

/-- A lease survives the sweep as active exactly if it is active at the time of it. -/
theorem sweep_active_iff (now : Time) (l : ResourceLease) :
    (l.sweep now).status = .active ↔ l.active now := by
  constructor
  · intro h
    have hdue : ¬ l.due now := by
      intro hdue
      rw [sweep, if_pos hdue] at h
      cases h
    have hs := (settles_sweep now l).active h
    refine active_iff.mpr ⟨hs, ?_⟩
    by_contra hexp
    obtain ⟨hpos, hle⟩ := not_or.mp hexp
    exact hdue (due_iff.mpr ⟨hs, not_le.mp hpos, not_lt.mp hle⟩)
  · intro h
    rw [sweep_of_active h]
    exact (active_iff.mp h).1

/-- A lease is active when it is issued. -/
theorem active_issue (l : ResourceLease) (now ttl : Time) (token : ℤ) :
    (l.issue now ttl token).active now := by
  refine active_iff.mpr ⟨rfl, ?_⟩
  change expiry now ttl ≤ 0 ∨ now < expiry now ttl
  unfold expiry
  split
  · next h =>
      rcases le_or_gt (now + ttl) 0 with hle | hlt
      · exact .inl (max_le le_rfl hle)
      · exact .inr (lt_max_of_lt_right (lt_add_of_pos_right now h))
  · exact .inl (max_le le_rfl le_rfl)

end ResourceLease

theorem byFencingToken_perm (leases : List ResourceLease) :
    (byFencingToken leases).Perm leases := List.perm_insertionSort _ _

/-- What a filter for active leases keeps of a swept table. -/
theorem filter_sweep (now : Time) (leases : List ResourceLease) {p : ResourceLease → Bool}
    (hp : ∀ l : ResourceLease, p l → l.status = .active) :
    (leases.map (ResourceLease.sweep now)).filter p =
      leases.filter fun l ↦ l.active now && p l := by
  induction leases with
  | nil => rfl
  | cons l leases ih =>
      rw [List.map_cons, List.filter_cons, List.filter_cons, ih]
      by_cases ha : l.active now
      · rw [ResourceLease.sweep_of_active ha]
        simp [ha]
      · have hnot : ¬ p (l.sweep now) := fun h ↦
          ha ((ResourceLease.sweep_active_iff now l).mp (hp _ h))
        simp [ha, hnot]

namespace LeaseStore

/-- The representation is well-formed: no two leases share an id. -/
def Wf : LeaseStore → Prop
  | .sqlite s => Rows.Unique ResourceLease.leaseId s.rows
  | .redis s => s.leases.Wf ResourceLease.leaseId

theorem wf_empty (backend : LeaseBackend) : (empty backend).Wf := by
  cases backend with
  | sqlite => exact List.nodup_nil
  | redis => exact Keyspace.wf_empty

/-- The clock a call sweeps by. -/
def sweepTime (store : LeaseStore) (now clock : Time) : Time :=
  match store with
  | .sqlite _ => clock
  | .redis _ => now

/-- The leases an admission counts: those the sweep leaves active and, on Redis, the
client's own clock does not take for expired. -/
def counted (store : LeaseStore) (now clock : Time) : List ResourceLease :=
  match store with
  | .sqlite s => s.rows.filter (·.active clock)
  | .redis s => s.leases.listed.filter fun l ↦ l.active now && l.active clock

/-- A step that rewrites the stored leases one by one. -/
def Rewrites (store after : LeaseStore) : Prop :=
  after.Wf ∧ ∃ f : ResourceLease → ResourceLease, (∀ l : ResourceLease, l.Settles (f l)) ∧
    after.stored = store.stored.map f

theorem Wf.rewrites_refl {store : LeaseStore} (h : store.Wf) : store.Rewrites store :=
  ⟨h, id, .refl, (List.map_id _).symm⟩

theorem Rewrites.trans {store mid after : LeaseStore} (h : store.Rewrites mid)
    (h' : mid.Rewrites after) : store.Rewrites after := by
  obtain ⟨-, f, hf, hmid⟩ := h
  obtain ⟨hwf, g, hg, hafter⟩ := h'
  exact ⟨hwf, g ∘ f, fun l ↦ (hf l).trans (hg (f l)), by rw [hafter, hmid, List.map_map]⟩

end LeaseStore

/-- A row update as a rewrite of all rows. -/
theorem settles_update {f : ResourceLease → ResourceLease}
    (hf : ∀ l : ResourceLease, l.Settles (f l)) (leaseId : String) (l : ResourceLease) :
    l.Settles (if l.leaseId = leaseId then f l else l) := by
  split
  · exact hf l
  · exact .refl l

/-! ## SQLite -/

namespace SQLiteLeases

variable {s : SQLiteLeases}

theorem expireLocked_rewrites (hs : (LeaseStore.sqlite s).Wf) (now : Time) :
    (LeaseStore.sqlite s).Rewrites (.sqlite (s.expireLocked now)) :=
  ⟨Rows.Unique.map hs (ResourceLease.sweep_leaseId now), _, ResourceLease.settles_sweep now, rfl⟩

theorem updateActive_rewrites (hs : (LeaseStore.sqlite s).Wf) (leaseId : String)
    (token : Option ℤ) {f : ResourceLease → ResourceLease}
    (hf : ∀ l : ResourceLease, l.Settles (f l)) :
    (LeaseStore.sqlite s).Rewrites (.sqlite (s.updateActive leaseId token f).2) := by
  unfold updateActive
  split
  · exact LeaseStore.Wf.rewrites_refl hs
  split
  · refine ⟨?_, _, settles_update hf leaseId, rfl⟩
    exact Rows.Unique.update hs fun r hr ↦ (hf r).leaseId.trans hr
  · exact LeaseStore.Wf.rewrites_refl hs

theorem activeRows_expireLocked (s : SQLiteLeases) (now : Time) :
    (s.expireLocked now).activeRows = byFencingToken (s.rows.filter (·.active now)) := by
  have hfilter : (s.rows.map (ResourceLease.sweep now)).filter (fun l ↦ l.status = .active) =
      s.rows.filter (·.active now) := by
    rw [filter_sweep now s.rows fun l hl ↦ by simpa using hl]
    refine List.filter_congr fun l _ ↦ ?_
    cases ha : l.active now with
    | false => rfl
    | true => simpa using (ResourceLease.active_iff.mp ha).1
  exact congrArg byFencingToken hfilter

end SQLiteLeases

/-! ## Redis -/

namespace RedisLeases

variable {s : RedisLeases}

theorem expireLocked_spec (hs : s.leases.Wf ResourceLease.leaseId) (now : Time) :
    (s.expireLocked now).leases.Wf ResourceLease.leaseId ∧
      (s.expireLocked now).leases.listed = s.leases.listed.map (ResourceLease.sweep now) :=
  hs.sweep (f := ResourceLease.expired now) (fun _ ↦ rfl) ((byFencingToken_perm _).filter _)

theorem expireLocked_rewrites (hs : (LeaseStore.redis s).Wf) (now : Time) :
    (LeaseStore.redis s).Rewrites (.redis (s.expireLocked now)) := by
  obtain ⟨hwf, hlisted⟩ := expireLocked_spec hs now
  exact ⟨hwf, _, ResourceLease.settles_sweep now, hlisted⟩

theorem updateActive_rewrites (hs : (LeaseStore.redis s).Wf) (leaseId : String)
    (token : Option ℤ) {f : ResourceLease → ResourceLease}
    (hf : ∀ l : ResourceLease, l.Settles (f l)) :
    (LeaseStore.redis s).Rewrites (.redis (s.updateActive leaseId token f).2) := by
  unfold updateActive
  split
  · exact LeaseStore.Wf.rewrites_refl hs
  next current hcurrent =>
  split
  · have hid : (f current).leaseId = leaseId :=
      (hf current).leaseId.trans (Keyspace.Wf.keyed hs _ _ hcurrent)
    exact ⟨Keyspace.Wf.set hs hcurrent hid, _, settles_update hf leaseId,
      Keyspace.Wf.listed_set hs f hcurrent⟩
  · exact LeaseStore.Wf.rewrites_refl hs

theorem listActive_expireLocked (hs : s.leases.Wf ResourceLease.leaseId) (now clock : Time) :
    (s.expireLocked now).listActive clock =
      byFencingToken (s.leases.listed.filter fun l ↦ l.active now && l.active clock) := by
  rw [listActive, (expireLocked_spec hs now).2,
    filter_sweep now s.leases.listed fun l hl ↦ (ResourceLease.active_iff.mp hl).1]

end RedisLeases

/-! ## Either store -/

namespace LeaseStore

variable {store : LeaseStore}

/-- The calls other than the admission rewrite the leases one by one. -/
theorem Wf.exec_spec (hs : store.Wf) (now clock : Time) (c : LeaseCall) :
    store.Rewrites (store.exec now clock c).2 := by
  cases store with
  | sqlite s =>
      have hsweep := SQLiteLeases.expireLocked_rewrites hs clock
      cases c with
      | get leaseId => exact hsweep
      | list => exact hsweep
      | listAll => exact hs.rewrites_refl
      | renew leaseId token ttl =>
          have h := SQLiteLeases.updateActive_rewrites hsweep.1 leaseId (some token)
            (ResourceLease.settles_renewed clock ttl)
          simp only [exec, SQLiteLeases.renewLease]
          split <;> next heq =>
            rw [heq] at h
            exact hsweep.trans h
      | release leaseId token =>
          exact SQLiteLeases.updateActive_rewrites hs leaseId token
            (ResourceLease.settles_released clock)
      | isCurrent leaseId token => exact hs.rewrites_refl
      | recoverExpired => exact hsweep
  | redis s =>
      have hsweep := RedisLeases.expireLocked_rewrites hs now
      cases c with
      | get leaseId => exact hsweep
      | list => exact hsweep
      | listAll => exact hs.rewrites_refl
      | renew leaseId token ttl =>
          exact hsweep.trans (RedisLeases.updateActive_rewrites hsweep.1 leaseId (some token)
            (ResourceLease.settles_renewed now ttl))
      | release leaseId token =>
          exact hsweep.trans (RedisLeases.updateActive_rewrites hsweep.1 leaseId token
            (ResourceLease.settles_released now))
      | isCurrent leaseId token => exact hsweep
      | recoverExpired => exact hsweep

/-- What an admission does to the store, where `validateActive` is called with the
leases `counted`. -/
inductive Admission {ε : Type} (store : LeaseStore) (now clock : Time) (lease : ResourceLease)
    (validateActive : List ResourceLease → Except ε Unit) (after : LeaseStore) : Prop
  /-- Nothing is issued; a request `validateActive` accepts is refused by SQLite only, for
  its id. -/
  | refused (h : store.Rewrites after)
      (hredis : ∀ s, store = .redis s →
        validateActive (byFencingToken (store.counted now clock)) ≠ .ok ())
  /-- The candidate is issued in place of whatever was stored under its id. -/
  | granted (issued : ResourceLease) (hwf : after.Wf)
      (hvalid : validateActive (byFencingToken (store.counted now clock)) = .ok ())
      (hresources : issued.resources = lease.resources)
      (hactive : issued.active (store.sweepTime now clock))
      (hstored : after.stored.Perm
        (((store.stored.map (ResourceLease.sweep (store.sweepTime now clock))).filter
          fun l ↦ l.leaseId ≠ lease.leaseId) ++ [issued]))

theorem Wf.acquireLease_spec {ε : Type} (hs : store.Wf) (now clock : Time)
    (lease : ResourceLease) (validateActive : List ResourceLease → Except ε Unit) (ttl : Time) :
    store.Admission now clock lease validateActive
      (store.acquireLease now clock lease validateActive ttl).2 := by
  cases store with
  | sqlite s =>
      simp only [acquireLease, SQLiteLeases.acquireLease, SQLiteLeases.activeRows_expireLocked]
      split
      · exact .refused hs.rewrites_refl nofun
      next hvalid =>
      split
      · exact .refused hs.rewrites_refl nofun
      next hfresh =>
      have hnone : (s.expireLocked clock).row lease.leaseId = none := by
        simpa [ResourceLease.issue] using hfresh
      have hkeep : ((s.rows.map (ResourceLease.sweep clock)).filter fun l ↦
          l.leaseId ≠ lease.leaseId) = s.rows.map (ResourceLease.sweep clock) :=
        List.filter_eq_self.mpr fun l hl ↦ by simpa using Rows.lookup_eq_none.mp hnone l hl
      refine .granted (lease.issue clock ttl (s.expireLocked clock).nextFencingToken) ?_ hvalid rfl
        (ResourceLease.active_issue lease clock ttl _) ?_
      · exact Rows.Unique.append (SQLiteLeases.expireLocked_rewrites hs clock).1 hnone
      · change List.Perm _ ((s.rows.map (ResourceLease.sweep clock)).filter _ ++ _)
        rw [hkeep]
        exact .refl _
  | redis s =>
      obtain ⟨hwf, hlisted⟩ := RedisLeases.expireLocked_spec hs now
      simp only [acquireLease, RedisLeases.acquireLease,
        RedisLeases.listActive_expireLocked hs now clock]
      split
      · next e he =>
          refine .refused (RedisLeases.expireLocked_rewrites hs now) fun _ _ h ↦ ?_
          rw [counted, he] at h
          cases h
      next hvalid =>
      have hput := hwf.put (lease.issue now ttl ((s.expireLocked now).counter.getD 1))
      refine .granted (lease.issue now ttl ((s.expireLocked now).counter.getD 1)) hput.1 hvalid
        rfl (ResourceLease.active_issue lease now ttl _) ?_
      have hperm := hput.2
      rw [hlisted] at hperm
      exact hperm

end LeaseStore

end Blackbase.Resources
