import Blackbase.Resources.Lease.Clients

/-!
# What a call tells its client

The calls on a lease store, by what they do to the lease stored under an id and by what their
clients learn (`LeaseStore.Wf.take_effect`).  No call but an admission makes a lease active, and
only a renewal moves the expiry of an active lease.
-/

namespace Blackbase.Resources

namespace LeaseStore

variable {ε : Type} {store after : LeaseStore}

theorem Wf.find_eq (hs : store.Wf) (leaseId : String) :
    store.find leaseId = Rows.lookup ResourceLease.leaseId leaseId store.stored := by
  cases store with
  | sqlite s => rfl
  | redis s => exact Keyspace.Wf.get_eq hs leaseId

theorem Wf.unique (hs : store.Wf) : Rows.Unique ResourceLease.leaseId store.stored := by
  cases store with
  | sqlite s => exact hs
  | redis s => exact Keyspace.Wf.unique hs

theorem Wf.mem_stored (hs : store.Wf) {l : ResourceLease} :
    l ∈ store.stored ↔ store.find l.leaseId = some l := by
  rw [hs.find_eq]
  exact ⟨Rows.lookup_of_mem hs.unique, Rows.mem_of_lookup⟩

/-- A call that makes no lease active. -/
structure Keeps (store after : LeaseStore) : Prop where
  wf : after.Wf
  backend : after.backend = store.backend
  nextToken : after.nextToken = store.nextToken
  active : ∀ leaseId l, after.find leaseId = some l → l.status = .active →
    store.find leaseId = some l

theorem Wf.keeps_refl (hs : store.Wf) : store.Keeps store := ⟨hs, rfl, rfl, fun _ _ h _ ↦ h⟩

theorem Keeps.trans {mid : LeaseStore} (h : store.Keeps mid) (h' : mid.Keeps after) :
    store.Keeps after :=
  ⟨h'.wf, h'.backend.trans h.backend, h'.nextToken.trans h.nextToken,
    fun leaseId l hl hactive ↦ h.active leaseId l (h'.active leaseId l hl hactive) hactive⟩

/-- The expiry sweep. -/
structure Sweeps (store after : LeaseStore) (now : Time) : Prop where
  wf : after.Wf
  backend : after.backend = store.backend
  nextToken : after.nextToken = store.nextToken
  find : ∀ leaseId, after.find leaseId = (store.find leaseId).map (ResourceLease.sweep now)

namespace Sweeps

variable {now : Time}

theorem active_iff (h : store.Sweeps after now) {leaseId : String} {l : ResourceLease} :
    after.find leaseId = some l ∧ l.status = .active ↔
      store.find leaseId = some l ∧ l.active now := by
  rw [h.find, Option.map_eq_some_iff]
  constructor
  · rintro ⟨⟨r, hr, rfl⟩, hactive⟩
    have hr' := (ResourceLease.sweep_active_iff now r).mp hactive
    rw [ResourceLease.sweep_of_active hr']
    exact ⟨hr, hr'⟩
  · rintro ⟨hl, hactive⟩
    exact ⟨⟨l, hl, ResourceLease.sweep_of_active hactive⟩, (ResourceLease.active_iff.mp hactive).1⟩

theorem keeps (h : store.Sweeps after now) : store.Keeps after :=
  ⟨h.wf, h.backend, h.nextToken, fun _ _ hl hactive ↦ (h.active_iff.mp ⟨hl, hactive⟩).1⟩

end Sweeps

end LeaseStore

theorem SQLiteLeases.sweeps {s : SQLiteLeases} (hs : (LeaseStore.sqlite s).Wf) (now : Time) :
    (LeaseStore.sqlite s).Sweeps (.sqlite (s.expireLocked now)) now :=
  ⟨(SQLiteLeases.expireLocked_rewrites hs now).1, rfl, rfl,
    fun leaseId ↦ Rows.lookup_map (ResourceLease.sweep_leaseId now) leaseId s.rows⟩

theorem RedisLeases.sweeps {s : RedisLeases} (hs : (LeaseStore.redis s).Wf) (now : Time) :
    (LeaseStore.redis s).Sweeps (.redis (s.expireLocked now)) now := by
  obtain ⟨hwf, hlisted⟩ := RedisLeases.expireLocked_spec hs now
  have hswept : (LeaseStore.redis (s.expireLocked now)).Wf := hwf
  refine ⟨hswept, rfl, rfl, fun leaseId ↦ ?_⟩
  rw [hswept.find_eq, hs.find_eq]
  change Rows.lookup _ leaseId (s.expireLocked now).leases.listed = _
  rw [hlisted]
  exact Rows.lookup_map (ResourceLease.sweep_leaseId now) leaseId _

/-- Nothing is done beyond a sweep. -/
def LeaseStore.Idles (store after : LeaseStore) (now : Time) : Prop :=
  after = store ∨ store.Sweeps after now

theorem LeaseStore.Idles.keeps {store after : LeaseStore} {now : Time}
    (h : store.Idles after now) (hs : store.Wf) : store.Keeps after := by
  rcases h with rfl | h
  · exact hs.keeps_refl
  · exact h.keeps

/-! ## Rewriting one lease -/

namespace LeaseStore

variable {ε : Type} {store after : LeaseStore}

/-- The lease under an id is rewritten. -/
structure Updates (store after : LeaseStore) (leaseId : String)
    (f : ResourceLease → ResourceLease) : Prop where
  wf : after.Wf
  backend : after.backend = store.backend
  nextToken : after.nextToken = store.nextToken
  find : ∀ k, after.find k = if k = leaseId then (store.find k).map f else store.find k

/-- A released lease is not active. -/
theorem Updates.keeps_released {leaseId : String} {now : Time}
    (h : store.Updates after leaseId (ResourceLease.released now)) : store.Keeps after := by
  refine ⟨h.wf, h.backend, h.nextToken, fun k l hl hactive ↦ ?_⟩
  rw [h.find] at hl
  split_ifs at hl
  · obtain ⟨r, -, rfl⟩ := Option.map_eq_some_iff.mp hl
    cases hactive
  · exact hl

end LeaseStore

/-- `updateActive` rewrites the lease if it is active under the token. -/
theorem SQLiteLeases.updateActive_spec {s : SQLiteLeases} (hs : (LeaseStore.sqlite s).Wf)
    (leaseId : String) (token : Option ℤ) {f : ResourceLease → ResourceLease}
    (hf : ∀ l : ResourceLease, (f l).leaseId = l.leaseId) :
    (∃ l after, s.row leaseId = some l ∧ l.matchesActive token ∧
      s.updateActive leaseId token f = (true, after) ∧
      (LeaseStore.sqlite s).Updates (.sqlite after) leaseId f) ∨
    s.updateActive leaseId token f = (false, s) ∧
      ∀ l, s.row leaseId = some l → l.matchesActive token = false := by
  unfold updateActive
  cases hrow : s.row leaseId with
  | none =>
      refine .inr ⟨rfl, ?_⟩
      rintro l ⟨⟩
  | some l =>
      cases hmatch : l.matchesActive token with
      | false =>
          refine .inr ⟨by simp [hmatch], ?_⟩
          rintro l' hl'
          exact Option.some.inj hl' ▸ hmatch
      | true =>
          refine .inl ⟨l, _, rfl, hmatch, if_pos hmatch, ?_⟩
          have hkey : ∀ r : ResourceLease, r.leaseId = leaseId → (f r).leaseId = leaseId :=
            fun r hr ↦ (hf r).trans hr
          exact ⟨Rows.Unique.update hs hkey, rfl, rfl, fun k ↦ Rows.lookup_update hkey s.rows⟩

theorem RedisLeases.updateActive_spec {s : RedisLeases} (hs : (LeaseStore.redis s).Wf)
    (leaseId : String) (token : Option ℤ) {f : ResourceLease → ResourceLease}
    (hf : ∀ l : ResourceLease, (f l).leaseId = l.leaseId) :
    (∃ l after, s.leases.get leaseId = some l ∧ l.matchesActive token ∧
      s.updateActive leaseId token f = (some (f l), after) ∧
      (LeaseStore.redis s).Updates (.redis after) leaseId f) ∨
    s.updateActive leaseId token f = (none, s) ∧
      ∀ l, s.leases.get leaseId = some l → l.matchesActive token = false := by
  unfold updateActive
  cases hget : s.leases.get leaseId with
  | none =>
      refine .inr ⟨rfl, ?_⟩
      rintro l ⟨⟩
  | some l =>
      cases hmatch : l.matchesActive token with
      | false =>
          refine .inr ⟨by simp [hmatch], ?_⟩
          rintro l' hl'
          exact Option.some.inj hl' ▸ hmatch
      | true =>
          refine .inl ⟨l, _, rfl, hmatch, if_pos hmatch, ?_⟩
          have hkey := (hf l).trans (Keyspace.Wf.keyed hs _ _ hget)
          refine ⟨Keyspace.Wf.set hs hget hkey, rfl, rfl, fun k ↦ ?_⟩
          change (s.leases.set leaseId (f l)).get k = _
          split_ifs with hk
          · subst hk
            change _ = (s.leases.get k).map f
            rw [Keyspace.set_get_self, hget, Option.map_some]
          · exact Keyspace.set_get_ne s.leases _ hk

/-- An admission on SQLite changes nothing, or appends the lease. -/
theorem SQLiteLeases.acquireLease_spec {ε : Type} (s : SQLiteLeases) (now : Time)
    (lease : ResourceLease) (validateActive : List ResourceLease → Except ε Unit) (ttl : Time) :
    (∃ e, s.acquireLease now lease validateActive ttl = (.error e, s)) ∨
    (s.expireLocked now).row lease.leaseId = none ∧
      s.acquireLease now lease validateActive ttl =
        (.ok (lease.issue now ttl s.nextFencingToken),
          ⟨(s.expireLocked now).rows ++ [lease.issue now ttl s.nextFencingToken],
            s.nextFencingToken + 1⟩) := by
  unfold acquireLease
  dsimp only
  split
  · exact .inl ⟨_, rfl⟩
  · split
    · exact .inl ⟨_, rfl⟩
    · next hfresh => exact .inr ⟨Option.not_isSome_iff_eq_none.mp hfresh, rfl⟩

/-! ## What a call does -/

namespace LeaseStore

variable {ε : Type} {store : LeaseStore}

/-- The lease of a granted admission. -/
structure Issues (store after : LeaseStore) (issued : ResourceLease) : Prop where
  wf : after.Wf
  backend : after.backend = store.backend
  token : issued.fencingToken = max 0 store.nextToken
  nextToken : after.nextToken = store.nextToken + 1
  active : ∀ leaseId l, after.find leaseId = some l → l.status = .active →
    l = issued ∨ store.find leaseId = some l

theorem Wf.take_acquire (hs : store.Wf) (reading time : Time) (lease : ResourceLease)
    (validateActive : List ResourceLease → Except ε Unit) (ttl : Time) :
    (∃ after, store.take reading time (.acquire lease validateActive ttl) = ([], after) ∧
      store.Idles after reading) ∨
    ∃ issued after, store.take reading time (.acquire lease validateActive ttl) =
      ([.issued issued.leaseId issued.fencingToken], after) ∧ store.Issues after issued := by
  cases store with
  | sqlite s =>
      have hsweep := SQLiteLeases.sweeps hs reading
      simp only [take, acquireLease, clockAt]
      rcases s.acquireLease_spec reading lease validateActive ttl with ⟨e, he⟩ | ⟨hnone, hok⟩
      · rw [he]
        exact .inl ⟨_, rfl, .inl rfl⟩
      · rw [hok]
        refine .inr ⟨_, _, rfl, Rows.Unique.append hsweep.wf hnone, rfl, rfl, rfl, ?_⟩
        intro leaseId l hl hactive
        have hl' := (Rows.lookup_append leaseId _ _).symm.trans hl
        rcases Option.or_eq_some_iff.mp hl' with hl' | ⟨-, hl'⟩
        · exact .inr (hsweep.active_iff.mp ⟨hl', hactive⟩).1
        · split_ifs at hl'
          exact .inl (Option.some.inj hl').symm
  | redis s =>
      have hsweep := RedisLeases.sweeps hs reading
      simp only [take, acquireLease, clockAt, RedisLeases.acquireLease]
      cases validateActive ((s.expireLocked reading).listActive time) with
      | error e => exact .inl ⟨_, rfl, .inr hsweep⟩
      | ok _ =>
          refine .inr ⟨_, _, rfl, (Keyspace.Wf.put hsweep.wf _).1, rfl, rfl, rfl, ?_⟩
          intro leaseId l hl hactive
          change ((s.expireLocked reading).leases.set _ _).get leaseId = some l at hl
          by_cases hk : leaseId = (lease.issue reading ttl
              ((s.expireLocked reading).counter.getD 1)).leaseId
          · rw [hk, Keyspace.set_get_self] at hl
            exact .inl (Option.some.inj hl).symm
          · rw [Keyspace.set_get_ne _ _ hk] at hl
            exact .inr (hsweep.active_iff.mp ⟨hl, hactive⟩).1

/-- A call that only sweeps. -/
theorem Wf.take_quiet (hs : store.Wf) (reading time : Time) {c : LeaseCall}
    (hc : c = .listAll ∨ c = .list ∨ c = .recoverExpired ∨ ∃ leaseId, c = .get leaseId) :
    ∃ after, store.take reading time (.other c : StoreCall ε) = ([], after) ∧
      store.Idles after reading := by
  cases store with
  | sqlite s =>
      have hsweep := SQLiteLeases.sweeps hs reading
      rcases hc with rfl | rfl | rfl | ⟨leaseId, rfl⟩
      · exact ⟨_, rfl, .inl rfl⟩
      · exact ⟨_, rfl, .inr hsweep⟩
      · exact ⟨_, rfl, .inr hsweep⟩
      · exact ⟨_, rfl, .inr hsweep⟩
  | redis s =>
      have hsweep := RedisLeases.sweeps hs reading
      rcases hc with rfl | rfl | rfl | ⟨leaseId, rfl⟩
      · exact ⟨_, rfl, .inl rfl⟩
      · exact ⟨_, rfl, .inr hsweep⟩
      · exact ⟨_, rfl, .inr hsweep⟩
      · exact ⟨_, rfl, .inr hsweep⟩

/-- The store holds the lease under the token, active at the reading. -/
def Holds (store : LeaseStore) (leaseId : String) (token : ℤ) (reading : Time) : Prop :=
  ∃ l, store.find leaseId = some l ∧ l.fencingToken = token ∧ l.active reading

theorem fences_iff {l : ResourceLease} {token : ℤ} {now : Time} :
    l.fences token now = true ↔ l.fencingToken = token ∧ l.active now = true := by
  simp only [ResourceLease.fences, ResourceLease.active, Bool.and_eq_true, decide_eq_true_iff]
  tauto

/-- `is_current` finds a current lease active at its reading; one that it does not find current
is not stored as active, or its expiry has been reached. -/
theorem Wf.take_isCurrent (hs : store.Wf) (reading time : Time) (leaseId : String) (token : ℤ) :
    ∃ current after, store.take reading time (.other (.isCurrent leaseId token) : StoreCall ε) =
        ([.reported leaseId token current], after) ∧ store.Keeps after ∧
      (current = true → store.Holds leaseId token reading) ∧
      (store.backend = .sqlite → store.Holds leaseId token reading → current = true) ∧
      (current = false → ∀ l, after.find leaseId = some l → l.fencingToken = token →
        l.status = .active → 0 < l.expiresAt ∧ l.expiresAt ≤ store.clockAt reading time) := by
  -- A lease that is stored as active, but is not active, has run out.
  have hover : ∀ (l : ResourceLease) (now : Time), l.status = .active → l.active now = false →
      0 < l.expiresAt ∧ l.expiresAt ≤ now := by
    intro l now hactive hnot
    have hexp := fun h ↦ Bool.eq_false_iff.mp hnot (ResourceLease.active_iff.mpr ⟨hactive, h⟩)
    exact ⟨not_le.mp fun h ↦ hexp (.inl h), not_lt.mp fun h ↦ hexp (.inr h)⟩
  cases store with
  | sqlite s =>
      refine ⟨_, _, rfl, hs.keeps_refl, ?_, ?_, ?_⟩
      · intro hcurrent
        obtain ⟨l, hl, hfences⟩ := (Option.any_eq_true _ _).mp hcurrent
        exact ⟨l, hl, fences_iff.mp hfences⟩
      · rintro - ⟨l, hl, htoken, hactive⟩
        exact (Option.any_eq_true _ _).mpr ⟨l, hl, fences_iff.mpr ⟨htoken, hactive⟩⟩
      · intro hcurrent l hl htoken hactive
        refine hover l reading hactive (Bool.eq_false_iff.mpr fun h ↦ ?_)
        have htrue : (s.row leaseId).any (fun l ↦ l.fences token reading) = true :=
          (Option.any_eq_true _ _).mpr ⟨l, hl, fences_iff.mpr ⟨htoken, h⟩⟩
        exact absurd (htrue.symm.trans hcurrent) Bool.noConfusion
  | redis s =>
      have hsweep := RedisLeases.sweeps hs reading
      refine ⟨_, _, rfl, hsweep.keeps, ?_, ?_, ?_⟩
      · intro hcurrent
        obtain ⟨l, hl, hboth⟩ := (Option.any_eq_true _ _).mp hcurrent
        simp only [Bool.and_eq_true, decide_eq_true_iff] at hboth
        obtain ⟨hl', hactive⟩ := hsweep.active_iff.mp ⟨hl, (ResourceLease.active_iff.mp hboth.1).1⟩
        exact ⟨l, hl', hboth.2, hactive⟩
      · rintro ⟨⟩
      · intro hcurrent l hl htoken hactive
        refine hover l time hactive (Bool.eq_false_iff.mpr fun h ↦ ?_)
        have htrue : ((s.expireLocked reading).leases.get leaseId).any
            (fun l ↦ l.active time && l.fencingToken = token) = true :=
          (Option.any_eq_true _ _).mpr ⟨l, hl, by simp [h, htoken]⟩
        exact absurd (htrue.symm.trans hcurrent) Bool.noConfusion

theorem matchesActive_iff {l : ResourceLease} {token : Option ℤ} :
    l.matchesActive token = true ↔ l.status = .active ∧ ∀ t ∈ token, l.fencingToken = t := by
  cases token <;> simp [ResourceLease.matchesActive]

/-- The lease is renewed under its token; the others are as they were. -/
structure Renews (store after : LeaseStore) (leaseId : String) (token : ℤ) : Prop where
  wf : after.Wf
  backend : after.backend = store.backend
  nextToken : after.nextToken = store.nextToken
  active : ∀ k l, after.find k = some l → l.status = .active →
    k = leaseId ∧ l.fencingToken = token ∨ k ≠ leaseId ∧ store.find k = some l

/-- A lease is swept and, being active still, is renewed. -/
theorem Sweeps.renews {swept after : LeaseStore} {now ttl : Time} (h : store.Sweeps swept now)
    {leaseId : String} {token : ℤ}
    (h' : swept.Updates after leaseId (ResourceLease.renewed now ttl))
    (htoken : ∀ l, swept.find leaseId = some l → l.fencingToken = token) :
    store.Renews after leaseId token := by
  refine ⟨h'.wf, h'.backend.trans h.backend, h'.nextToken.trans h.nextToken, fun k l hl hactive ↦ ?_⟩
  rw [h'.find] at hl
  split_ifs at hl with hk
  · subst hk
    obtain ⟨r, hr, rfl⟩ := Option.map_eq_some_iff.mp hl
    exact .inl ⟨rfl, htoken r hr⟩
  · exact .inr ⟨hk, (h.active_iff.mp ⟨hl, hactive⟩).1⟩

/-- A lease is renewed exactly if it is held under the token at the reading. -/
theorem Wf.take_renew (hs : store.Wf) (reading time : Time) (leaseId : String) (token : ℤ)
    (ttl : Time) :
    (∃ after, store.take reading time (.other (.renew leaseId token ttl) : StoreCall ε) =
        ([.renewed leaseId token], after) ∧ store.Holds leaseId token reading ∧
          store.Renews after leaseId token) ∨
    ∃ after, store.take reading time (.other (.renew leaseId token ttl) : StoreCall ε) =
        ([], after) ∧ ¬ store.Holds leaseId token reading ∧ store.Idles after reading := by
  cases store with
  | sqlite s =>
      have hsweep := SQLiteLeases.sweeps hs reading
      simp only [take, exec, clockAt, SQLiteLeases.renewLease]
      rcases SQLiteLeases.updateActive_spec hsweep.wf leaseId (some token)
        (f := ResourceLease.renewed reading ttl) (fun _ ↦ rfl) with
        ⟨l, after, hl, hmatch, heq, hupdate⟩ | ⟨heq, hmiss⟩
      · obtain ⟨hactive, htoken⟩ := matchesActive_iff.mp hmatch
        obtain ⟨hfind, hl'⟩ := hsweep.active_iff.mp ⟨hl, hactive⟩
        have hrow : after.row leaseId = some (l.renewed reading ttl) := by
          have h := hupdate.find leaseId
          rw [if_pos rfl] at h
          exact h.trans (congrArg (Option.map _) hl)
        rw [heq]
        dsimp only
        rw [hrow]
        refine .inl ⟨_, rfl, ⟨l, hfind, htoken token rfl, hl'⟩, hsweep.renews hupdate ?_⟩
        intro r hr
        exact Option.some.inj (hl.symm.trans hr) ▸ htoken token rfl
      · rw [heq]
        refine .inr ⟨_, rfl, ?_, .inr hsweep⟩
        rintro ⟨l, hl, htoken, hactive⟩
        obtain ⟨hl', hstatus⟩ := hsweep.active_iff.mpr ⟨hl, hactive⟩
        have hmatch : l.matchesActive (some token) = true :=
          matchesActive_iff.mpr ⟨hstatus, fun t ht ↦ htoken.trans (Option.some.inj ht)⟩
        exact absurd (hmatch.symm.trans (hmiss l hl')) Bool.noConfusion
  | redis s =>
      have hsweep := RedisLeases.sweeps hs reading
      simp only [take, exec, RedisLeases.renewLease]
      rcases RedisLeases.updateActive_spec hsweep.wf leaseId (some token)
        (f := ResourceLease.renewed reading ttl) (fun _ ↦ rfl) with
        ⟨l, after, hl, hmatch, heq, hupdate⟩ | ⟨heq, hmiss⟩
      · obtain ⟨hactive, htoken⟩ := matchesActive_iff.mp hmatch
        obtain ⟨hfind, hl'⟩ := hsweep.active_iff.mp ⟨hl, hactive⟩
        rw [heq]
        refine .inl ⟨_, rfl, ⟨l, hfind, htoken token rfl, hl'⟩, hsweep.renews hupdate ?_⟩
        intro r hr
        exact Option.some.inj (hl.symm.trans hr) ▸ htoken token rfl
      · rw [heq]
        refine .inr ⟨_, rfl, ?_, .inr hsweep⟩
        rintro ⟨l, hl, htoken, hactive⟩
        obtain ⟨hl', hstatus⟩ := hsweep.active_iff.mpr ⟨hl, hactive⟩
        have hmatch : l.matchesActive (some token) = true :=
          matchesActive_iff.mpr ⟨hstatus, fun t ht ↦ htoken.trans (Option.some.inj ht)⟩
        exact absurd (hmatch.symm.trans (hmiss l hl')) Bool.noConfusion

/-- A released lease is not active. -/
theorem Updates.find_released {after : LeaseStore} {leaseId : String} {now : Time}
    (h : store.Updates after leaseId (ResourceLease.released now)) (l : ResourceLease)
    (hl : after.find leaseId = some l) : l.status ≠ .active := by
  rw [h.find, if_pos rfl] at hl
  obtain ⟨r, -, rfl⟩ := Option.map_eq_some_iff.mp hl
  rintro ⟨⟩

theorem Wf.take_release (hs : store.Wf) (reading time : Time) (leaseId : String)
    (token : Option ℤ) :
    (∃ l after, store.take reading time (.other (.release leaseId token) : StoreCall ε) =
        ([.released leaseId l.fencingToken], after) ∧ store.find leaseId = some l ∧
          l.status = .active ∧ (∀ t ∈ token, l.fencingToken = t) ∧ store.Keeps after ∧
            ∀ l', after.find leaseId = some l' → l'.status ≠ .active) ∨
    ∃ after, store.take reading time (.other (.release leaseId token) : StoreCall ε) =
        ([], after) ∧ store.Idles after reading := by
  cases store with
  | sqlite s =>
      simp only [take, exec, clockAt, SQLiteLeases.releaseLease]
      rcases SQLiteLeases.updateActive_spec hs leaseId token
        (f := ResourceLease.released reading) (fun _ ↦ rfl) with
        ⟨l, after, hl, hmatch, heq, hupdate⟩ | ⟨heq, -⟩
      · obtain ⟨hactive, htoken⟩ := matchesActive_iff.mp hmatch
        have hfind : (sqlite s).find leaseId = some l := hl
        rw [heq]
        refine .inl ⟨l, .sqlite after, ?_, hfind, hactive, htoken, hupdate.keeps_released,
          hupdate.find_released⟩
        simp [eventsOf, hfind]
      · rw [heq]
        exact .inr ⟨_, rfl, .inl rfl⟩
  | redis s =>
      have hsweep := RedisLeases.sweeps hs reading
      simp only [take, exec, RedisLeases.releaseLease]
      rcases RedisLeases.updateActive_spec hsweep.wf leaseId token
        (f := ResourceLease.released reading) (fun _ ↦ rfl) with
        ⟨l, after, hl, hmatch, heq, hupdate⟩ | ⟨heq, -⟩
      · obtain ⟨hactive, htoken⟩ := matchesActive_iff.mp hmatch
        have hfind := (hsweep.active_iff.mp ⟨hl, hactive⟩).1
        rw [heq]
        refine .inl ⟨l, .redis after, ?_, hfind, hactive, htoken,
          hsweep.keeps.trans hupdate.keeps_released, hupdate.find_released⟩
        simp [eventsOf, hfind]
      · rw [heq]
        exact .inr ⟨_, rfl, .inr hsweep⟩

/-- What a call does. -/
inductive Effect (store : LeaseStore) (reading time : Time) (call : StoreCall ε) :
    List LeaseEvent → LeaseStore → Prop
  | quiet (after : LeaseStore) : store.Idles after reading →
      (∀ leaseId token ttl, call = .other (.renew leaseId token ttl) →
        ¬ store.Holds leaseId token reading) →
      (∀ leaseId token, call ≠ .other (.isCurrent leaseId token)) →
      Effect store reading time call [] after
  | issued (issued : ResourceLease) (after : LeaseStore) : store.Issues after issued →
      (∀ c, call ≠ .other c) →
      Effect store reading time call [.issued issued.leaseId issued.fencingToken] after
  | reported (leaseId : String) (token : ℤ) (current : Bool) (after : LeaseStore) :
      call = .other (.isCurrent leaseId token) → store.Keeps after →
      (current = true → store.Holds leaseId token reading) →
      (store.backend = .sqlite → store.Holds leaseId token reading → current = true) →
      (current = false → ∀ l, after.find leaseId = some l → l.fencingToken = token →
        l.status = .active → 0 < l.expiresAt ∧ l.expiresAt ≤ store.clockAt reading time) →
      Effect store reading time call [.reported leaseId token current] after
  | renewed (leaseId : String) (token : ℤ) (ttl : Time) (after : LeaseStore) :
      call = .other (.renew leaseId token ttl) → store.Holds leaseId token reading →
      store.Renews after leaseId token →
      Effect store reading time call [.renewed leaseId token] after
  | released (leaseId : String) (token : Option ℤ) (l : ResourceLease) (after : LeaseStore) :
      call = .other (.release leaseId token) → store.find leaseId = some l → l.status = .active →
      (∀ t ∈ token, l.fencingToken = t) → store.Keeps after →
      (∀ l', after.find leaseId = some l' → l'.status ≠ .active) →
      Effect store reading time call [.released leaseId l.fencingToken] after

theorem Wf.take_effect (hs : store.Wf) (reading time : Time) (call : StoreCall ε) :
    ∃ events after, store.take reading time call = (events, after) ∧
      store.Effect reading time call events after := by
  -- A call that tells its client nothing.
  have hquiet : ∀ {c : LeaseCall}, (c = .listAll ∨ c = .list ∨ c = .recoverExpired ∨
      ∃ leaseId, c = .get leaseId) → ∃ events after,
        store.take reading time (.other c : StoreCall ε) = (events, after) ∧
          store.Effect reading time (.other c : StoreCall ε) events after := by
    intro c hc
    obtain ⟨after, heq, hidles⟩ := hs.take_quiet (ε := ε) reading time hc
    refine ⟨[], after, heq, .quiet after hidles ?_ ?_⟩
    · rintro leaseId token ttl ⟨⟩
      simp at hc
    · rintro leaseId token ⟨⟩
      simp at hc
  cases call with
  | acquire lease validateActive ttl =>
      rcases hs.take_acquire reading time lease validateActive ttl with
        ⟨after, heq, hidles⟩ | ⟨issued, after, heq, hissues⟩
      · refine ⟨_, _, heq, .quiet after hidles ?_ ?_⟩
        · rintro _ _ _ ⟨⟩
        · rintro _ _ ⟨⟩
      · refine ⟨_, _, heq, .issued issued after hissues ?_⟩
        rintro _ ⟨⟩
  | other c =>
      cases c with
      | get leaseId => exact hquiet (.inr (.inr (.inr ⟨leaseId, rfl⟩)))
      | list => exact hquiet (.inr (.inl rfl))
      | listAll => exact hquiet (.inl rfl)
      | recoverExpired => exact hquiet (.inr (.inr (.inl rfl)))
      | isCurrent leaseId token =>
          obtain ⟨current, after, heq, hkeeps, h1, h2, h3⟩ :=
            hs.take_isCurrent (ε := ε) reading time leaseId token
          exact ⟨_, _, heq, .reported leaseId token current after rfl hkeeps h1 h2 h3⟩
      | renew leaseId token ttl =>
          rcases hs.take_renew (ε := ε) reading time leaseId token ttl with
            ⟨after, heq, hholds, hrenews⟩ | ⟨after, heq, hnot, hidles⟩
          · exact ⟨_, _, heq, .renewed leaseId token ttl after rfl hholds hrenews⟩
          · refine ⟨_, _, heq, .quiet after hidles ?_ ?_⟩
            · rintro _ _ _ ⟨⟩
              exact hnot
            · rintro _ _ ⟨⟩
      | release leaseId token =>
          rcases hs.take_release (ε := ε) reading time leaseId token with
            ⟨l, after, heq, hl, hactive, htoken, hkeeps, hnot⟩ | ⟨after, heq, hidles⟩
          · exact ⟨_, _, heq, .released leaseId token l after rfl hl hactive htoken hkeeps hnot⟩
          · refine ⟨_, _, heq, .quiet after hidles ?_ ?_⟩
            · rintro _ _ _ ⟨⟩
            · rintro _ _ ⟨⟩

end LeaseStore

end Blackbase.Resources
