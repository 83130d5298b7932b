import Blackbase.Resources.Lease.InMemory
import Blackbase.Resources.Lease.StoreSpec

/-!
# Equivalence of the lease stores

The three stores hold the same leases, except that a lease which has run out may be marked expired
in one store and not yet in another, or at another reading.  Such a lease is not active anywhere,
and the calls keep it so, as long as they meet the condition `LeaseTrio.Agreeable`: the stores
part where a lease id is used again, where a created lease is not what would be issued for it,
where a lease that has run out is released, and where it is fetched after it was marked at
different readings.
-/

namespace Blackbase.Resources

/-! ## Leases that have run out -/

namespace ResourceLease

variable {l l' : ResourceLease} {now : Time}

/-- The same lease, with an expiry, that may have been marked expired. -/
structure Lapsed (l l' : ResourceLease) : Prop where
  same : l' = { l with status := l'.status, updatedAt := l'.updatedAt }
  expires : 0 < l.expiresAt
  left : l.status = .active ∨ l.status = .expired
  right : l'.status = .active ∨ l'.status = .expired

/-- The same lease, or one that has run out in both stores. -/
def TwinAt (now : Time) (l l' : ResourceLease) : Prop :=
  l = l' ∨ l.Lapsed l' ∧ l.active now = false ∧ l'.active now = false

/-- The same lease, up to the marking of its expiry. -/
def Twin (l l' : ResourceLease) : Prop := l = l' ∨ l.Lapsed l'

theorem TwinAt.twin (h : TwinAt now l l') : l.Twin l' := h.imp_right And.left

theorem Lapsed.leaseId (h : l.Lapsed l') : l'.leaseId = l.leaseId := by rw [h.same]

theorem Twin.leaseId (h : l.Twin l') : l'.leaseId = l.leaseId := by
  rcases h with rfl | h
  · rfl
  · exact h.leaseId

theorem TwinAt.eq_of_active (h : TwinAt now l l') (hactive : l.active now ∨ l'.active now) :
    l = l' := by
  rcases h with rfl | ⟨-, hl, hl'⟩
  · rfl
  · rcases hactive with h | h
    · exact absurd (h.symm.trans hl) Bool.noConfusion
    · exact absurd (h.symm.trans hl') Bool.noConfusion

theorem not_active_of_due (h : l.due now) : l.active now = false := by
  obtain ⟨-, hpos, hle⟩ := due_iff.mp h
  refine Bool.eq_false_iff.mpr fun hactive ↦ ?_
  rcases (active_iff.mp hactive).2 with hexp | hexp
  · exact absurd hpos (not_lt.mpr hexp)
  · exact absurd hle (not_le.mpr hexp)

theorem Lapsed.symm (h : l.Lapsed l') : l'.Lapsed l := by
  refine ⟨?_, ?_, h.right, h.left⟩
  · have hsame := h.same
    cases l
    cases l'
    simp_all
  · rw [h.same]
    exact h.expires

theorem TwinAt.symm (h : TwinAt now l l') : TwinAt now l' l := by
  rcases h with rfl | ⟨h, hl, hl'⟩
  · exact .inl rfl
  · exact .inr ⟨h.symm, hl', hl⟩

/-- One of the stores sweeps. -/
theorem TwinAt.sweep_right (h : TwinAt now l l') : TwinAt now l (l'.sweep now) := by
  by_cases hdue : l'.due now
  · rw [sweep, if_pos hdue]
    refine .inr ?_
    rcases h with rfl | ⟨h, hl, -⟩
    · obtain ⟨hactive, hpos, -⟩ := due_iff.mp hdue
      exact ⟨⟨rfl, hpos, .inl hactive, .inr rfl⟩, not_active_of_due hdue, rfl⟩
    · refine ⟨⟨?_, h.expires, h.left, .inr rfl⟩, hl, rfl⟩
      rw [h.same]
      rfl
  · rwa [sweep, if_neg hdue]

theorem TwinAt.sweep_left (h : TwinAt now l l') : TwinAt now (l.sweep now) l' :=
  h.symm.sweep_right.symm

end ResourceLease

open ResourceLease

/-! ## Lists of leases -/

/-- Two stores at a reading. -/
def Twins (now : Time) (rows rows' : List ResourceLease) : Prop :=
  List.Forall₂ (TwinAt now) rows rows'

namespace Twins

variable {now : Time} {rows rows' : List ResourceLease}

theorem sweep_left (h : Twins now rows rows') : Twins now (rows.map (sweep now)) rows' :=
  List.forall₂_map_left_iff.mpr (h.imp fun _ _ ↦ TwinAt.sweep_left)

theorem sweep_right (h : Twins now rows rows') : Twins now rows (rows'.map (sweep now)) :=
  List.forall₂_map_right_iff.mpr (h.imp fun _ _ ↦ TwinAt.sweep_right)

theorem append (h : Twins now rows rows') (l : ResourceLease) :
    Twins now (rows ++ [l]) (rows' ++ [l]) :=
  List.rel_append h (.cons (.inl rfl) .nil)

/-- They have the same active leases. -/
theorem filter_active (h : Twins now rows rows') :
    rows'.filter (·.active now) = rows.filter (·.active now) := by
  induction h with
  | nil => rfl
  | cons hab _ ih =>
      rw [List.filter_cons, List.filter_cons, ih]
      rcases hab with rfl | ⟨-, hl, hl'⟩
      · rfl
      · simp [hl, hl']

/-- What is stored under an id. -/
theorem lookup (h : Twins now rows rows') (leaseId : String) :
    (Rows.lookup ResourceLease.leaseId leaseId rows = none ∧
      Rows.lookup ResourceLease.leaseId leaseId rows' = none) ∨
    ∃ l l', Rows.lookup ResourceLease.leaseId leaseId rows = some l ∧
      Rows.lookup ResourceLease.leaseId leaseId rows' = some l' ∧ TwinAt now l l' := by
  induction h with
  | nil => exact .inl ⟨rfl, rfl⟩
  | cons hab _ ih =>
      rw [Rows.lookup_cons, Rows.lookup_cons, hab.twin.leaseId]
      split_ifs
      · exact .inr ⟨_, _, rfl, rfl, hab⟩
      · exact ih

/-- An active lease is rewritten in both. -/
theorem update (h : Twins now rows rows') {leaseId : String}
    (hactive : ∀ l ∈ rows, l.leaseId = leaseId → l.active now) (f : ResourceLease → ResourceLease) :
    Twins now (Rows.update ResourceLease.leaseId leaseId f rows)
      (Rows.update ResourceLease.leaseId leaseId f rows') := by
  induction h with
  | nil => exact .nil
  | @cons l l' _ _ hab _ ih =>
      refine .cons ?_ (ih fun r hr ↦ hactive r (List.mem_cons_of_mem _ hr))
      dsimp only
      rw [hab.twin.leaseId]
      split_ifs with hid
      · obtain rfl := hab.eq_of_active (.inl (hactive l List.mem_cons_self hid))
        exact .inl rfl
      · exact hab

theorem leaseIds (h : List.Forall₂ Twin rows rows') :
    rows'.map ResourceLease.leaseId = rows.map ResourceLease.leaseId := by
  induction h with
  | nil => rfl
  | cons hab _ ih => rw [List.map_cons, List.map_cons, hab.leaseId, ih]

end Twins

/-- The rows of a sorted table are sorted. -/
theorem byFencingToken_of_increasing {rows : List ResourceLease}
    (h : rows.Pairwise fun a b ↦ a.fencingToken < b.fencingToken) (p : ResourceLease → Bool) :
    byFencingToken (rows.filter p) = rows.filter p := by
  refine List.Pairwise.insertionSort_eq ?_
  exact (h.filter p).imp fun hlt ↦ hlt.le

/-! ## `updateActive` -/

theorem SQLiteLeases.updateActive_of_match {q : SQLiteLeases} {leaseId : String}
    {l : ResourceLease} {token : Option ℤ} (hrow : q.row leaseId = some l)
    (hmatch : l.matchesActive token = true) (f : ResourceLease → ResourceLease) :
    q.updateActive leaseId token f =
      (true, { q with rows := Rows.update ResourceLease.leaseId leaseId f q.rows }) := by
  simp [SQLiteLeases.updateActive, hrow, hmatch]

theorem SQLiteLeases.updateActive_of_not {q : SQLiteLeases} {leaseId : String} {token : Option ℤ}
    (h : ∀ l, q.row leaseId = some l → l.matchesActive token = false)
    (f : ResourceLease → ResourceLease) : q.updateActive leaseId token f = (false, q) := by
  unfold SQLiteLeases.updateActive
  cases hrow : q.row leaseId with
  | none => rfl
  | some l => simp [h l hrow]

theorem RedisLeases.updateActive_of_match {q : RedisLeases} {leaseId : String}
    {l : ResourceLease} {token : Option ℤ} (hget : q.leases.get leaseId = some l)
    (hmatch : l.matchesActive token = true) (f : ResourceLease → ResourceLease) :
    q.updateActive leaseId token f =
      (some (f l), { q with leases := q.leases.set leaseId (f l) }) := by
  simp [RedisLeases.updateActive, hget, hmatch]

theorem RedisLeases.updateActive_of_not {q : RedisLeases} {leaseId : String} {token : Option ℤ}
    (h : ∀ l, q.leases.get leaseId = some l → l.matchesActive token = false)
    (f : ResourceLease → ResourceLease) : q.updateActive leaseId token f = (none, q) := by
  unfold RedisLeases.updateActive
  cases hget : q.leases.get leaseId with
  | none => rfl
  | some l => simp [h l hget]

/-! ## The stores in step -/

namespace LeaseTrio

variable {ε : Type} {s : LeaseTrio} {now : Time}

/-- The stores hold the same leases, in the order of their tokens, up to the marking of those that
have run out. -/
structure Synced (s : LeaseTrio) : Prop where
  unique : Rows.Unique ResourceLease.leaseId s.sqlite.rows
  redisWf : s.redis.leases.Wf ResourceLease.leaseId
  memory : List.Forall₂ Twin s.sqlite.rows s.memory.leases
  redis : List.Forall₂ Twin s.sqlite.rows s.redis.leases.listed
  increasing : s.sqlite.rows.Pairwise fun a b ↦ a.fencingToken < b.fencingToken
  below : ∀ l ∈ s.sqlite.rows, l.fencingToken < s.sqlite.nextFencingToken
  positive : 1 ≤ s.sqlite.nextFencingToken
  counter : s.redis.counter.getD 1 = s.sqlite.nextFencingToken

/-- A lease that the stores have marked differently is not active at the reading. -/
def Settled (s : LeaseTrio) (now : Time) : Prop :=
  ∀ a ∈ s.sqlite.rows, ∀ b, b ∈ s.memory.leases ∨ b ∈ s.redis.leases.listed →
    b.leaseId = a.leaseId → a = b ∨ a.active now = false ∧ b.active now = false

/-- The condition on a call.  The first clause says that the clock has not gone back behind the
expiry of a lease that one of the stores has marked expired. -/
def Agreeable (s : LeaseTrio) (step : Time × CommonCall ε) : Prop :=
  s.Settled step.1 ∧
  match step.2 with
  | .acquire lease validateActive _ =>
      validateActive (s.sqlite.rows.filter (·.active step.1)) = .ok () →
        s.sqlite.row lease.leaseId = none ∧
          s.memory.nextFencingToken = s.sqlite.nextFencingToken
  | .create lease =>
      s.sqlite.row lease.leaseId = none ∧
        lease = lease.issue step.1 (lease.remaining step.1) s.sqlite.nextFencingToken
  | .get leaseId =>
      (s.memory.row leaseId).map (sweep step.1) = (s.sqlite.row leaseId).map (sweep step.1) ∧
        (s.redis.leases.get leaseId).map (sweep step.1) =
          (s.sqlite.row leaseId).map (sweep step.1)
  | .release leaseId token =>
      ∀ l, s.memory.row leaseId = some l ∨ s.sqlite.row leaseId = some l →
        l.matchesActive token → l.due step.1 = false
  | _ => True

/-- The stores at a reading, as lists. -/
structure At (s : LeaseTrio) (now : Time) : Prop where
  memory : Twins now s.sqlite.rows s.memory.leases
  redis : Twins now s.sqlite.rows s.redis.leases.listed

theorem forall₂_imp_mem {α β : Type*} {R S : α → β → Prop} {xs : List α} {ys : List β}
    (h : List.Forall₂ R xs ys) (himp : ∀ x ∈ xs, ∀ y ∈ ys, R x y → S x y) :
    List.Forall₂ S xs ys := by
  induction h with
  | nil => exact .nil
  | cons hxy _ ih =>
      refine .cons (himp _ List.mem_cons_self _ List.mem_cons_self hxy) (ih fun x hx y hy ↦ ?_)
      exact himp x (List.mem_cons_of_mem _ hx) y (List.mem_cons_of_mem _ hy)

theorem Synced.at (h : s.Synced) (hsettled : s.Settled now) : s.At now := by
  have himp : ∀ rows, (∀ b ∈ rows, b ∈ s.memory.leases ∨ b ∈ s.redis.leases.listed) →
      List.Forall₂ Twin s.sqlite.rows rows → Twins now s.sqlite.rows rows := by
    intro rows hrows htwin
    refine forall₂_imp_mem htwin fun a ha b hb hab ↦ ?_
    rcases hsettled a ha b (hrows b hb) hab.leaseId with heq | hnot
    · exact .inl heq
    · exact hab.imp_right fun hlapsed ↦ ⟨hlapsed, hnot⟩
  exact ⟨himp _ (fun _ ↦ .inl) h.memory, himp _ (fun _ ↦ .inr) h.redis⟩

theorem At.sameActive (h : s.At now) : s.SameActive now :=
  ⟨h.memory.filter_active, h.redis.filter_active⟩

/-- What a call leaves behind, if it rewrites what is stored. -/
theorem Synced.of_at (h : s.Synced) {t : LeaseTrio} (hat : t.At now)
    (hids : t.sqlite.rows.map ResourceLease.leaseId = s.sqlite.rows.map ResourceLease.leaseId)
    (htokens : t.sqlite.rows.map ResourceLease.fencingToken =
      s.sqlite.rows.map ResourceLease.fencingToken)
    (hwf : t.redis.leases.Wf ResourceLease.leaseId)
    (hnext : t.sqlite.nextFencingToken = s.sqlite.nextFencingToken)
    (hcounter : t.redis.counter = s.redis.counter) : t.Synced := by
  constructor
  · rw [Rows.Unique, hids]
    exact h.unique
  · exact hwf
  · exact hat.memory.imp fun _ _ ↦ TwinAt.twin
  · exact hat.redis.imp fun _ _ ↦ TwinAt.twin
  · have hpairwise := List.pairwise_map.mpr h.increasing
    rw [← htokens] at hpairwise
    exact List.pairwise_map.mp hpairwise
  · intro l hl
    have hmem := List.mem_map_of_mem (f := ResourceLease.fencingToken) hl
    rw [htokens] at hmem
    obtain ⟨l', hl', htoken⟩ := List.mem_map.mp hmem
    rw [hnext, ← htoken]
    exact h.below l' hl'
  · rw [hnext]
    exact h.positive
  · rw [hcounter, hnext]
    exact h.counter

/-! ## One call -/

/-- The stores answer alike, and stay in step. -/
structure Agrees (s : LeaseTrio) (step : Time × CommonCall ε) : Prop where
  reply : s.SameReply step
  at_ : (s.apply step).At step.1
  synced : (s.apply step).Synced

theorem Agrees.of_eq {step : Time × CommonCall ε} (reply : CommonReply ε) {t : LeaseTrio}
    (hm : step.2.onMemory step.1 s.memory = (reply, t.memory))
    (hq : step.2.onSQLite step.1 s.sqlite = (reply, t.sqlite))
    (hr : step.2.onRedis step.1 s.redis = (reply, t.redis)) (hat : t.At step.1)
    (hsynced : t.Synced) : s.Agrees step := by
  have happly : s.apply step = t := by rw [apply, hm, hq, hr]
  refine ⟨⟨?_, ?_⟩, happly ▸ hat, happly ▸ hsynced⟩
  · rw [hm, hq]
  · rw [hr, hq]

@[simp] theorem sweep_fencingToken (now : Time) (l : ResourceLease) :
    (l.sweep now).fencingToken = l.fencingToken := by
  unfold sweep
  split_ifs <;> rfl

theorem map_leaseId_sweep (now : Time) (rows : List ResourceLease) :
    (rows.map (sweep now)).map ResourceLease.leaseId = rows.map ResourceLease.leaseId :=
  Rows.map_key_map (sweep_leaseId now) rows

theorem map_fencingToken_sweep (now : Time) (rows : List ResourceLease) :
    (rows.map (sweep now)).map ResourceLease.fencingToken =
      rows.map ResourceLease.fencingToken :=
  Rows.map_key_map (sweep_fencingToken now) rows

theorem Synced.listed_expire (h : s.Synced) (now : Time) :
    (s.redis.expireLocked now).leases.Wf ResourceLease.leaseId ∧
      (s.redis.expireLocked now).leases.listed = s.redis.leases.listed.map (sweep now) :=
  RedisLeases.expireLocked_spec h.redisWf now

/-- All three stores sweep. -/
theorem Synced.swept (h : s.Synced) (hat : s.At now) :
    (LeaseTrio.mk (s.memory.expireLocked now) (s.sqlite.expireLocked now)
        (s.redis.expireLocked now)).At now ∧
      (LeaseTrio.mk (s.memory.expireLocked now) (s.sqlite.expireLocked now)
        (s.redis.expireLocked now)).Synced := by
  obtain ⟨hwf, hlisted⟩ := h.listed_expire now
  have hat' : (LeaseTrio.mk (s.memory.expireLocked now) (s.sqlite.expireLocked now)
      (s.redis.expireLocked now)).At now := by
    refine ⟨hat.memory.sweep_left.sweep_right, ?_⟩
    change Twins now _ (s.redis.expireLocked now).leases.listed
    rw [hlisted]
    exact hat.redis.sweep_left.sweep_right
  exact ⟨hat', h.of_at hat' (map_leaseId_sweep now _) (map_fencingToken_sweep now _) hwf rfl rfl⟩

/-- Only memory and Redis sweep. -/
theorem Synced.others_swept (h : s.Synced) (hat : s.At now) :
    (LeaseTrio.mk (s.memory.expireLocked now) s.sqlite (s.redis.expireLocked now)).At now ∧
      (LeaseTrio.mk (s.memory.expireLocked now) s.sqlite (s.redis.expireLocked now)).Synced := by
  obtain ⟨hwf, hlisted⟩ := h.listed_expire now
  have hat' : (LeaseTrio.mk (s.memory.expireLocked now) s.sqlite
      (s.redis.expireLocked now)).At now := by
    refine ⟨hat.memory.sweep_right, ?_⟩
    change Twins now _ (s.redis.expireLocked now).leases.listed
    rw [hlisted]
    exact hat.redis.sweep_right
  exact ⟨hat', h.of_at hat' rfl rfl hwf rfl rfl⟩

theorem Synced.lookup_redis (h : s.Synced) (now : Time) (leaseId : String) :
    (s.redis.expireLocked now).leases.get leaseId = (s.redis.leases.get leaseId).map (sweep now) := by
  obtain ⟨hwf, hlisted⟩ := h.listed_expire now
  rw [hwf.get_eq, hlisted, h.redisWf.get_eq]
  exact Rows.lookup_map (sweep_leaseId now) leaseId _

theorem Synced.agrees_get (h : s.Synced) {leaseId : String}
    (hgood : s.Agreeable (now, (.get leaseId : CommonCall ε))) :
    s.Agrees (now, (.get leaseId : CommonCall ε)) := by
  obtain ⟨hsettled, hmemory, hredis⟩ := hgood
  obtain ⟨hat, hsynced⟩ := h.swept (h.at hsettled)
  have hsqlite : (s.sqlite.expireLocked now).row leaseId = (s.sqlite.row leaseId).map (sweep now) :=
    Rows.lookup_map (sweep_leaseId now) leaseId _
  refine ⟨⟨?_, ?_⟩, hat, hsynced⟩
  · have hrow : (s.memory.expireLocked now).row leaseId =
        (s.memory.row leaseId).map (sweep now) := Rows.lookup_map (sweep_leaseId now) leaseId _
    exact congrArg (fun l ↦ CommonReply.reply (.found l))
      (hrow.trans (hmemory.trans hsqlite.symm))
  · exact congrArg (fun l ↦ CommonReply.reply (.found l))
      ((h.lookup_redis now leaseId).trans (hredis.trans hsqlite.symm))

/-- The active leases, as the stores list them. -/
theorem Synced.active_lists (h : s.Synced) (hat : s.At now) :
    (s.memory.expireLocked now).leases.filter (·.active now) =
        s.sqlite.rows.filter (·.active now) ∧
      (s.sqlite.expireLocked now).activeRows = s.sqlite.rows.filter (·.active now) ∧
      (s.redis.expireLocked now).listActive now = s.sqlite.rows.filter (·.active now) := by
  refine ⟨?_, ?_, ?_⟩
  · exact (hat.memory.sweep_right).filter_active
  · rw [SQLiteLeases.activeRows_expireLocked]
    exact byFencingToken_of_increasing h.increasing _
  · rw [RedisLeases.listActive_expireLocked h.redisWf]
    simp only [Bool.and_self]
    rw [hat.redis.filter_active]
    exact byFencingToken_of_increasing h.increasing _

theorem Synced.agrees_list (h : s.Synced)
    (hgood : s.Agreeable (now, (.list : CommonCall ε))) :
    s.Agrees (now, (.list : CommonCall ε)) := by
  have hat := h.at hgood.1
  obtain ⟨hat', hsynced⟩ := h.swept hat
  obtain ⟨hmemory, hsqlite, hredis⟩ := h.active_lists hat
  refine ⟨⟨?_, ?_⟩, hat', hsynced⟩
  · exact congrArg (fun ls ↦ CommonReply.reply (.leases ls)) (hmemory.trans hsqlite.symm)
  · exact congrArg (fun ls ↦ CommonReply.reply (.leases ls)) (hredis.trans hsqlite.symm)

/-- A lease that is read by the stores after a sweep is current in all of them or in none. -/
theorem current_eq_of_twin {l l' : ResourceLease} (h : TwinAt now l l') (token : ℤ) :
    (l'.active now && decide (l'.fencingToken = token)) = l.fences token now := by
  rcases h with rfl | ⟨-, hl, hl'⟩
  · simp only [fences, active]
    cases decide (l.status = .active) <;> cases decide (l.fencingToken = token) <;> simp
  · rw [hl']
    have hfences : l.fences token now = false := by
      refine Bool.eq_false_iff.mpr fun hf ↦ ?_
      simp only [fences, Bool.and_eq_true] at hf
      have hactive : l.active now = true := by simp [active, hf.1.1, hf.2]
      exact absurd (hactive.symm.trans hl) Bool.noConfusion
    rw [hfences]
    rfl

theorem Synced.agrees_isCurrent (h : s.Synced) {leaseId : String} {token : ℤ}
    (hgood : s.Agreeable (now, (.isCurrent leaseId token : CommonCall ε))) :
    s.Agrees (now, (.isCurrent leaseId token : CommonCall ε)) := by
  have hat := h.at hgood.1
  obtain ⟨hat', hsynced⟩ := h.others_swept hat
  -- One comparison serves both stores.
  have hone : ∀ rows, Twins now s.sqlite.rows rows →
      ((Rows.lookup ResourceLease.leaseId leaseId rows).any fun l ↦
        l.active now && decide (l.fencingToken = token)) =
      (s.sqlite.row leaseId).any fun l ↦ l.fences token now := by
    intro rows htwins
    rcases htwins.lookup leaseId with ⟨hnone, hnone'⟩ | ⟨l, l', hl, hl', htwin⟩
    · rw [SQLiteLeases.row, hnone, hnone']
      rfl
    · rw [SQLiteLeases.row, hl, hl']
      exact current_eq_of_twin htwin token
  refine ⟨⟨?_, ?_⟩, hat', hsynced⟩
  · exact congrArg (fun b ↦ CommonReply.reply (.flag b)) (hone _ hat'.memory)
  · obtain ⟨hwf, -⟩ := h.listed_expire now
    have hredis := hone _ hat'.redis
    change ((Rows.lookup ResourceLease.leaseId leaseId
      (s.redis.expireLocked now).leases.listed).any _) = _ at hredis
    rw [← hwf.get_eq] at hredis
    exact congrArg (fun b ↦ CommonReply.reply (.flag b)) hredis

/-! ## Calls that write -/

/-- Only Redis sweeps. -/
theorem Synced.redis_swept (h : s.Synced) (hat : s.At now) :
    (LeaseTrio.mk s.memory s.sqlite (s.redis.expireLocked now)).At now ∧
      (LeaseTrio.mk s.memory s.sqlite (s.redis.expireLocked now)).Synced := by
  obtain ⟨hwf, hlisted⟩ := h.listed_expire now
  have hat' : (LeaseTrio.mk s.memory s.sqlite (s.redis.expireLocked now)).At now := by
    refine ⟨hat.memory, ?_⟩
    change Twins now _ (s.redis.expireLocked now).leases.listed
    rw [hlisted]
    exact hat.redis.sweep_right
  exact ⟨hat', h.of_at hat' rfl rfl hwf rfl rfl⟩

theorem Synced.memory_unique (h : s.Synced) :
    Rows.Unique ResourceLease.leaseId s.memory.leases := by
  rw [Rows.Unique, Twins.leaseIds h.memory]
  exact h.unique

/-- What the stores hold under an id. -/
theorem Synced.rows (h : s.Synced) (hat : s.At now) (leaseId : String) :
    (s.sqlite.row leaseId = none ∧ s.memory.row leaseId = none ∧
      s.redis.leases.get leaseId = none) ∨
    ∃ l m r, s.sqlite.row leaseId = some l ∧ s.memory.row leaseId = some m ∧
      s.redis.leases.get leaseId = some r ∧ TwinAt now l m ∧ TwinAt now l r := by
  rw [h.redisWf.get_eq]
  rcases hat.memory.lookup leaseId with ⟨hl, hm⟩ | ⟨l, m, hl, hm, htwin⟩
  · rcases hat.redis.lookup leaseId with ⟨-, hr⟩ | ⟨l, r, hl', hr, -⟩
    · exact .inl ⟨hl, hm, hr⟩
    · rw [hl] at hl'
      cases hl'
  · rcases hat.redis.lookup leaseId with ⟨hl', -⟩ | ⟨l', r, hl', hr, htwin'⟩
    · rw [hl] at hl'
      cases hl'
    · obtain rfl := Option.some.inj (hl.symm.trans hl')
      exact .inr ⟨l, m, r, hl, hm, hr, htwin, htwin'⟩

/-- The stores in which an active lease has been rewritten. -/
def written (s : LeaseTrio) (leaseId : String) (l : ResourceLease)
    (f : ResourceLease → ResourceLease) : LeaseTrio where
  memory := s.memory.put (f l)
  sqlite := { s.sqlite with rows := Rows.update ResourceLease.leaseId leaseId f s.sqlite.rows }
  redis := { s.redis with leases := s.redis.leases.set leaseId (f l) }

theorem Synced.write (h : s.Synced) (hat : s.At now) {leaseId : String} {l : ResourceLease}
    (hrow : s.sqlite.row leaseId = some l) (hactive : l.active now)
    {f : ResourceLease → ResourceLease} (hid : ∀ r : ResourceLease, (f r).leaseId = r.leaseId)
    (htoken : ∀ r : ResourceLease, (f r).fencingToken = r.fencingToken)
    (hm : s.memory.row leaseId = some l) (hr : s.redis.leases.get leaseId = some l) :
    (s.written leaseId l f).At now ∧ (s.written leaseId l f).Synced := by
  have hkey : l.leaseId = leaseId := Rows.key_of_lookup hrow
  have hall : ∀ a ∈ s.sqlite.rows, a.leaseId = leaseId → a.active now := by
    intro a ha haid
    have hmem := Rows.mem_of_lookup hrow
    obtain rfl := h.unique.eq_of_key ha hmem (haid.trans hkey.symm)
    exact hactive
  have hmemory : (s.written leaseId l f).memory.leases =
      Rows.update ResourceLease.leaseId leaseId f s.memory.leases := by
    have hput : (f l).leaseId = leaseId := (hid l).trans hkey
    simp only [written, InMemoryLeases.put, hput, hm, Option.isSome_some, if_true]
    exact Rows.update_congr h.memory_unique hm rfl
  have hredis : (s.written leaseId l f).redis.leases.listed =
      Rows.update ResourceLease.leaseId leaseId f s.redis.leases.listed :=
    h.redisWf.listed_set f hr
  have hat' : (s.written leaseId l f).At now := by
    refine ⟨?_, ?_⟩
    · rw [hmemory]
      exact hat.memory.update hall f
    · rw [hredis]
      exact hat.redis.update hall f
  refine ⟨hat', h.of_at hat' ?_ ?_ ?_ rfl rfl⟩
  · exact Rows.map_key_update (fun r hr ↦ (hid r).trans hr) _
  · refine Rows.map_key_map (fun r ↦ ?_) _
    split_ifs
    · exact htoken r
    · rfl
  · exact h.redisWf.set hr ((hid l).trans hkey)

/-- After a sweep a lease is stored as active exactly if it is active. -/
theorem status_sweep {l : ResourceLease} (h : (l.sweep now).status = .active) :
    (l.sweep now).active now := by
  have hl := (sweep_active_iff now l).mp h
  rwa [sweep_of_active hl]

theorem matchesActive_iff {l : ResourceLease} {token : Option ℤ} :
    l.matchesActive token = true ↔ l.status = .active ∧ ∀ t ∈ token, l.fencingToken = t := by
  cases token <;> simp [matchesActive]

/-- A lease that is not active in one store does not match in another one that has swept. -/
theorem not_matches_of_twin {l r : ResourceLease} {token : Option ℤ}
    (htwin : TwinAt now l (r.sweep now)) (hnot : l.matchesActive token = false) :
    (r.sweep now).matchesActive token = false := by
  refine Bool.eq_false_iff.mpr fun hmatch ↦ ?_
  have hactive := status_sweep (matchesActive_iff.mp hmatch).1
  obtain heq := htwin.eq_of_active (.inr hactive)
  rw [← heq] at hmatch
  exact absurd (hmatch.symm.trans hnot) Bool.noConfusion

theorem Synced.agrees_renew (h : s.Synced) {leaseId : String} {token : ℤ} {ttl : Time}
    (hgood : s.Agreeable (now, (.renew leaseId token ttl : CommonCall ε))) :
    s.Agrees (now, (.renew leaseId token ttl : CommonCall ε)) := by
  obtain ⟨hat, hsynced⟩ := h.swept (h.at hgood.1)
  have hgetr := h.lookup_redis now leaseId
  have hrowq : (s.sqlite.expireLocked now).row leaseId = (s.sqlite.row leaseId).map (sweep now) :=
    Rows.lookup_map (sweep_leaseId now) leaseId _
  rcases hsynced.rows hat leaseId with ⟨hq, hm, hr⟩ | ⟨l, m, r, hq, hm, hr, hlm, hlr⟩
  · have hnone : ∀ l, (none : Option ResourceLease) = some l →
        l.matchesActive (some token) = false := by
      rintro l ⟨⟩
    refine Agrees.of_eq (.reply (.found none)) ?_ ?_ ?_ hat hsynced
    · simp only [CommonCall.onMemory, InMemoryLeases.renewLease, hm]
      rfl
    · simp only [CommonCall.onSQLite, SQLiteLeases.renewLease]
      rw [SQLiteLeases.updateActive_of_not (hq ▸ hnone)]
      rfl
    · simp only [CommonCall.onRedis, RedisLeases.renewLease]
      rw [RedisLeases.updateActive_of_not (hr ▸ hnone)]
      rfl
  · have hq' := hq
    rw [hrowq] at hq'
    obtain ⟨l₀, -, rfl⟩ := Option.map_eq_some_iff.mp hq'
    have hr' := hr
    rw [hgetr] at hr'
    obtain ⟨r₀, -, rfl⟩ := Option.map_eq_some_iff.mp hr'
    cases hmatch : (l₀.sweep now).matchesActive (some token) with
    | true =>
        obtain ⟨hstatus, htoken⟩ := matchesActive_iff.mp hmatch
        have hactive := status_sweep hstatus
        obtain rfl := hlm.eq_of_active (.inl hactive)
        have heq := hlr.eq_of_active (.inl hactive)
        rw [← heq] at hr
        obtain ⟨hat', hsynced'⟩ := hsynced.write hat hq hactive (f := renewed now ttl)
          (fun _ ↦ rfl) (fun _ ↦ rfl) hm hr
        refine Agrees.of_eq (.reply (.found (some ((l₀.sweep now).renewed now ttl))))
          ?_ ?_ ?_ hat' hsynced'
        · simp only [CommonCall.onMemory, InMemoryLeases.renewLease, hm, hactive, htoken token rfl]
          rw [if_neg (by decide), if_neg (not_not.mpr rfl)]
          rfl
        · simp only [CommonCall.onSQLite, SQLiteLeases.renewLease]
          rw [SQLiteLeases.updateActive_of_match hq hmatch]
          have hrow : Rows.lookup ResourceLease.leaseId leaseId (Rows.update
              ResourceLease.leaseId leaseId (renewed now ttl) (s.sqlite.expireLocked now).rows) =
              some ((l₀.sweep now).renewed now ttl) := by
            have hkey : ∀ r : ResourceLease, r.leaseId = leaseId →
                (r.renewed now ttl).leaseId = leaseId := fun _ hr ↦ hr
            rw [Rows.lookup_update hkey, if_pos rfl]
            exact congrArg (Option.map _) hq
          exact Prod.ext (congrArg (fun l ↦ CommonReply.reply (.found l)) hrow) rfl
        · simp only [CommonCall.onRedis, RedisLeases.renewLease]
          rw [RedisLeases.updateActive_of_match hr hmatch]
          rfl
    | false =>
        have hmnot : ¬ (m.active now = true ∧ m.fencingToken = token) := by
          rintro ⟨hactive, htoken⟩
          obtain rfl := hlm.eq_of_active (.inr hactive)
          have hyes : (l₀.sweep now).matchesActive (some token) = true := matchesActive_iff.mpr
            ⟨(active_iff.mp hactive).1, fun t ht ↦ htoken.trans (Option.some.inj ht)⟩
          exact absurd (hyes.symm.trans hmatch) Bool.noConfusion
        refine Agrees.of_eq (.reply (.found none)) ?_ ?_ ?_ hat hsynced
        · simp only [CommonCall.onMemory, InMemoryLeases.renewLease, hm]
          split_ifs with hactive htoken
          · rfl
          · rfl
          · exact absurd ⟨by simpa using hactive, not_not.mp htoken⟩ hmnot
        · simp only [CommonCall.onSQLite, SQLiteLeases.renewLease]
          rw [SQLiteLeases.updateActive_of_not fun l hl ↦ Option.some.inj (hq.symm.trans hl) ▸ hmatch]
          rfl
        · simp only [CommonCall.onRedis, RedisLeases.renewLease]
          have hrnot := not_matches_of_twin hlr hmatch
          rw [RedisLeases.updateActive_of_not fun l hl ↦ Option.some.inj (hr.symm.trans hl) ▸ hrnot]
          rfl

theorem Synced.agrees_release (h : s.Synced) {leaseId : String} {token : Option ℤ}
    (hgood : s.Agreeable (now, (.release leaseId token : CommonCall ε))) :
    s.Agrees (now, (.release leaseId token : CommonCall ε)) := by
  obtain ⟨hsettled, hdue⟩ := hgood
  have hat₀ := h.at hsettled
  obtain ⟨hat, hsynced⟩ := h.redis_swept hat₀
  have hgetr := h.lookup_redis now leaseId
  -- What matches is active, since it is not due.
  have hlive : ∀ l, s.memory.row leaseId = some l ∨ s.sqlite.row leaseId = some l →
      l.matchesActive token = true → l.active now = true := by
    intro l hl hmatch
    have hstatus := (matchesActive_iff.mp hmatch).1
    have hswept : l.sweep now = l := if_neg (Bool.eq_false_iff.mp (hdue l hl hmatch))
    exact (sweep_active_iff now l).mp (hswept.symm ▸ hstatus)
  rcases hsynced.rows hat leaseId with ⟨hq, hm, hr⟩ | ⟨l, m, r, hq, hm, hr, hlm, hlr⟩
  · have hnone : ∀ l, (none : Option ResourceLease) = some l → l.matchesActive token = false := by
      rintro l ⟨⟩
    refine Agrees.of_eq (.reply (.flag false)) ?_ ?_ ?_ hat hsynced
    · simp only [CommonCall.onMemory, InMemoryLeases.releaseLease]
      rw [show s.memory.row leaseId = none from hm]
      rfl
    · simp only [CommonCall.onSQLite, SQLiteLeases.releaseLease]
      rw [SQLiteLeases.updateActive_of_not ((show s.sqlite.row leaseId = none from hq) ▸ hnone)]
      rfl
    · simp only [CommonCall.onRedis, RedisLeases.releaseLease]
      rw [RedisLeases.updateActive_of_not (hr ▸ hnone)]
      rfl
  · have hr' := hr
    rw [hgetr] at hr'
    obtain ⟨r₀, -, rfl⟩ := Option.map_eq_some_iff.mp hr'
    have hq' : s.sqlite.row leaseId = some l := hq
    have hm' : s.memory.row leaseId = some m := hm
    cases hmatch : l.matchesActive token with
    | true =>
        have hactive := hlive l (.inr hq') hmatch
        obtain rfl := hlm.eq_of_active (.inl hactive)
        have heq := hlr.eq_of_active (.inl hactive)
        rw [← heq] at hr
        obtain ⟨hat', hsynced'⟩ := hsynced.write hat hq hactive (f := released now)
          (fun _ ↦ rfl) (fun _ ↦ rfl) hm hr
        refine Agrees.of_eq (.reply (.flag true)) ?_ ?_ ?_ hat' hsynced'
        · simp only [CommonCall.onMemory, InMemoryLeases.releaseLease, hm', hmatch, if_true]
          rfl
        · simp only [CommonCall.onSQLite, SQLiteLeases.releaseLease]
          rw [SQLiteLeases.updateActive_of_match hq' hmatch]
          rfl
        · simp only [CommonCall.onRedis, RedisLeases.releaseLease]
          rw [RedisLeases.updateActive_of_match hr hmatch]
          rfl
    | false =>
        have hmnot : m.matchesActive token = false := by
          refine Bool.eq_false_iff.mpr fun hyes ↦ ?_
          obtain rfl := hlm.eq_of_active (.inr (hlive m (.inl hm') hyes))
          exact absurd (hyes.symm.trans hmatch) Bool.noConfusion
        refine Agrees.of_eq (.reply (.flag false)) ?_ ?_ ?_ hat hsynced
        · simp only [CommonCall.onMemory, InMemoryLeases.releaseLease, hm', hmnot,
            Bool.false_eq_true, if_false]
          rfl
        · simp only [CommonCall.onSQLite, SQLiteLeases.releaseLease]
          rw [SQLiteLeases.updateActive_of_not fun l hl ↦ Option.some.inj (hq'.symm.trans hl) ▸ hmatch]
          rfl
        · simp only [CommonCall.onRedis, RedisLeases.releaseLease]
          have hrnot := not_matches_of_twin hlr hmatch
          rw [RedisLeases.updateActive_of_not fun l hl ↦ Option.some.inj (hr.symm.trans hl) ▸ hrnot]
          rfl

/-! ## Calls that issue -/

/-- The stores after the lease has been appended, of which memory may have swept. -/
def appended (s : LeaseTrio) (now : Time) (memory : InMemoryLeases) (issued : ResourceLease)
    (next : ℤ) : LeaseTrio where
  memory := { memory.put issued with nextFencingToken := next }
  sqlite := ⟨(s.sqlite.expireLocked now).rows ++ [issued], s.sqlite.nextFencingToken + 1⟩
  redis := ⟨((s.redis.expireLocked now).leases.set issued.leaseId issued).add issued.leaseId,
    some (s.sqlite.nextFencingToken + 1)⟩

theorem row_expireLocked {q : SQLiteLeases} {leaseId : String} (h : q.row leaseId = none) :
    (q.expireLocked now).row leaseId = none := by
  refine (Rows.lookup_map (sweep_leaseId now) leaseId _).trans ?_
  rw [show Rows.lookup ResourceLease.leaseId leaseId q.rows = none from h]
  rfl

theorem Synced.append (h : s.Synced) (hat : s.At now) {memory : InMemoryLeases}
    (hmem : Twins now (s.sqlite.expireLocked now).rows memory.leases) {issued : ResourceLease}
    (hfresh : s.sqlite.row issued.leaseId = none)
    (htoken : issued.fencingToken = s.sqlite.nextFencingToken) (next : ℤ) :
    (s.appended now memory issued next).At now ∧ (s.appended now memory issued next).Synced := by
  obtain ⟨hat', hsynced⟩ := h.swept hat
  have hq : (s.sqlite.expireLocked now).row issued.leaseId = none := row_expireLocked hfresh
  have hm : memory.row issued.leaseId = none := by
    rcases hmem.lookup issued.leaseId with ⟨-, hm⟩ | ⟨l, m, hl, -, -⟩
    · exact hm
    · cases hq.symm.trans hl
  have hr : (s.redis.expireLocked now).leases.get issued.leaseId = none := by
    rcases hsynced.rows hat' issued.leaseId with ⟨-, -, hr⟩ | ⟨l, m, r, hl, -⟩
    · exact hr
    · cases hq.symm.trans hl
  have hmemory : (s.appended now memory issued next).memory.leases = memory.leases ++ [issued] := by
    simp [appended, InMemoryLeases.put, hm]
  have hredis : (s.appended now memory issued next).redis.leases.listed =
      (s.redis.expireLocked now).leases.listed ++ [issued] := hsynced.redisWf.listed_insert hr
  have hat'' : (s.appended now memory issued next).At now := by
    refine ⟨?_, ?_⟩
    · rw [hmemory]
      exact hmem.append issued
    · rw [hredis]
      exact hat'.redis.append issued
  have hbelow := hsynced.below
  change ∀ l ∈ (s.sqlite.expireLocked now).rows, _ < s.sqlite.nextFencingToken at hbelow
  refine ⟨hat'', ?_⟩
  constructor
  · exact hsynced.unique.append hq
  · exact hsynced.redisWf.insert hr
  · exact hat''.memory.imp fun _ _ ↦ TwinAt.twin
  · exact hat''.redis.imp fun _ _ ↦ TwinAt.twin
  · refine List.pairwise_append.mpr ⟨hsynced.increasing, List.pairwise_singleton _ _, ?_⟩
    intro a ha b hb
    obtain rfl := List.mem_singleton.mp hb
    rw [htoken]
    exact hbelow a ha
  · intro l hl
    change l.fencingToken < s.sqlite.nextFencingToken + 1
    rcases List.mem_append.mp hl with hl | hl
    · exact (hbelow l hl).trans (Int.lt_succ _)
    · obtain rfl := List.mem_singleton.mp hl
      rw [htoken]
      exact Int.lt_succ _
  · exact h.positive.trans (Int.lt_succ _).le
  · rfl

theorem memory_acquire {m : InMemoryLeases} {lease : ResourceLease}
    {validateActive : List ResourceLease → Except ε Unit} {ttl : Time}
    (h : validateActive ((m.expireLocked now).leases.filter (·.active now)) = .ok ()) :
    m.acquireLease now lease validateActive ttl =
      (.ok (lease.issue now ttl m.nextFencingToken),
        { (m.expireLocked now).put (lease.issue now ttl m.nextFencingToken) with
          nextFencingToken := m.nextFencingToken + 1 }) := by
  simp only [InMemoryLeases.acquireLease, h]
  rfl

theorem sqlite_acquire {q : SQLiteLeases} {lease : ResourceLease}
    {validateActive : List ResourceLease → Except ε Unit} {ttl : Time}
    (h : validateActive (q.expireLocked now).activeRows = .ok ())
    (hrow : q.row lease.leaseId = none) :
    q.acquireLease now lease validateActive ttl =
      (.ok (lease.issue now ttl q.nextFencingToken),
        ⟨(q.expireLocked now).rows ++ [lease.issue now ttl q.nextFencingToken],
          q.nextFencingToken + 1⟩) := by
  have hfresh : ¬ ((q.expireLocked now).row lease.leaseId).isSome = true := by
    simp [row_expireLocked hrow]
  simp only [SQLiteLeases.acquireLease, h]
  exact if_neg hfresh

theorem redis_acquire {r : RedisLeases} {lease : ResourceLease}
    {validateActive : List ResourceLease → Except ε Unit} {ttl : Time}
    (h : validateActive ((r.expireLocked now).listActive now) = .ok ()) :
    r.acquireLease now now lease validateActive ttl =
      (.ok (lease.issue now ttl (r.counter.getD 1)),
        ⟨((r.expireLocked now).leases.set lease.leaseId
          (lease.issue now ttl (r.counter.getD 1))).add lease.leaseId,
          some (r.counter.getD 1 + 1)⟩) := by
  simp only [RedisLeases.acquireLease, h]
  rfl

theorem Synced.issue_token (h : s.Synced) (lease : ResourceLease) (ttl : Time) :
    (lease.issue now ttl s.sqlite.nextFencingToken).fencingToken = s.sqlite.nextFencingToken :=
  max_eq_right (Int.zero_lt_one.le.trans h.positive)

theorem Synced.agrees_acquire (h : s.Synced) {lease : ResourceLease}
    {validateActive : List ResourceLease → Except ε Unit} {ttl : Time}
    (hgood : s.Agreeable (now, .acquire lease validateActive ttl)) :
    s.Agrees (now, .acquire lease validateActive ttl) := by
  obtain ⟨hsettled, hfresh⟩ := hgood
  have hat := h.at hsettled
  obtain ⟨hmemory, hsqlite, hredis⟩ := h.active_lists hat
  cases hvalid : validateActive (s.sqlite.rows.filter (·.active now)) with
  | error e =>
      obtain ⟨hat', hsynced'⟩ := h.others_swept hat
      refine Agrees.of_eq (.issued (.error (.refused e))) ?_ ?_ ?_ hat' hsynced'
      · simp only [CommonCall.onMemory, InMemoryLeases.acquireLease, hmemory, hvalid]
        rfl
      · simp only [CommonCall.onSQLite, SQLiteLeases.acquireLease, hsqlite, hvalid]
        rfl
      · simp only [CommonCall.onRedis, RedisLeases.acquireLease, hredis, hvalid]
        rfl
  | ok _ =>
      obtain ⟨hrow, hcounter⟩ := hfresh hvalid
      have hmem : Twins now (s.sqlite.expireLocked now).rows (s.memory.expireLocked now).leases :=
        hat.memory.sweep_left.sweep_right
      obtain ⟨hat', hsynced'⟩ := h.append hat hmem
        (show s.sqlite.row (lease.issue now ttl s.sqlite.nextFencingToken).leaseId = none from hrow)
        (h.issue_token lease ttl) (s.memory.nextFencingToken + 1)
      refine Agrees.of_eq (.issued (.ok (lease.issue now ttl s.sqlite.nextFencingToken)))
        ?_ ?_ ?_ hat' hsynced'
      · simp only [CommonCall.onMemory, memory_acquire (hmemory ▸ hvalid), hcounter]
        rfl
      · simp only [CommonCall.onSQLite, sqlite_acquire (hsqlite ▸ hvalid) hrow]
        rfl
      · simp only [CommonCall.onRedis, redis_acquire (hredis ▸ hvalid), h.counter]
        rfl

theorem Synced.agrees_create (h : s.Synced) {lease : ResourceLease}
    (hgood : s.Agreeable (now, (.create lease : CommonCall ε))) :
    s.Agrees (now, (.create lease : CommonCall ε)) := by
  obtain ⟨hsettled, hrow, hissue⟩ := hgood
  have hat := h.at hsettled
  have htoken : lease.fencingToken = s.sqlite.nextFencingToken := by
    rw [hissue]
    exact h.issue_token lease _
  obtain ⟨hat', hsynced'⟩ := h.append hat hat.memory.sweep_left hrow htoken
    s.memory.nextFencingToken
  refine Agrees.of_eq (.created (.ok ())) rfl ?_ ?_ hat' hsynced'
  · simp only [CommonCall.onSQLite]
    rw [sqlite_acquire rfl hrow, ← hissue]
    rfl
  · simp only [CommonCall.onRedis]
    rw [redis_acquire rfl, h.counter, ← hissue]
    rfl

/-- Under the condition the stores answer alike and stay in step. -/
theorem Synced.matched (h : s.Synced) {step : Time × CommonCall ε} (hgood : s.Agreeable step) :
    s.Agrees step := by
  obtain ⟨now, call⟩ := step
  cases call with
  | acquire lease validateActive ttl => exact h.agrees_acquire hgood
  | create lease => exact h.agrees_create hgood
  | get leaseId => exact h.agrees_get hgood
  | list => exact h.agrees_list hgood
  | renew leaseId token ttl => exact h.agrees_renew hgood
  | release leaseId token => exact h.agrees_release hgood
  | isCurrent leaseId token => exact h.agrees_isCurrent hgood

theorem synced_empty : LeaseTrio.empty.Synced := by
  constructor
  · exact List.nodup_nil
  · exact Keyspace.wf_empty
  · exact .nil
  · exact .nil
  · exact List.Pairwise.nil
  · rintro l hl
    cases hl
  · exact le_rfl
  · rfl

/-! ## Sequences of calls -/

/-- The stores after a sequence of calls. -/
def after (steps : List (Time × CommonCall ε)) : LeaseTrio := steps.foldl apply empty

/-- Every call of the sequence meets the condition. -/
def AllAgreeable (steps : List (Time × CommonCall ε)) : Prop :=
  ∀ before step, before ++ [step] <+: steps → (after before).Agreeable step

theorem after_concat (before : List (Time × CommonCall ε)) (step : Time × CommonCall ε) :
    after (before ++ [step]) = (after before).apply step := by
  rw [after, List.foldl_append]
  rfl

theorem synced_after {steps : List (Time × CommonCall ε)} (hgood : AllAgreeable steps) :
    (after steps).Synced := by
  induction steps using List.reverseRecOn with
  | nil => exact synced_empty
  | append_singleton before step ih =>
      have hsynced := ih fun before' step' hbefore ↦
        hgood before' step' (hbefore.trans (List.prefix_append before [step]))
      rw [after_concat]
      exact (hsynced.matched (hgood before step List.prefix_rfl)).synced

end LeaseTrio

/-- A lease that expires at a given time. -/
def leaseUntil (leaseId : String) (expiresAt : ℕ) : ResourceLease where
  leaseId := leaseId
  ownerId := "case"
  scope := "project"
  resources := ⟨none, none, none, none, []⟩
  status := .active
  createdAt := 0
  updatedAt := 0
  expiresAt := expiresAt
  fencingToken := 0
  expiresAt_nonneg := Nat.cast_nonneg expiresAt
  fencingToken_nonneg := no_token_nonneg

/-- The lease `a` is acquired for ten seconds. -/
def acquireA (now : Time) : Time × CommonCall Unit :=
  (now, .acquire (leaseUntil "a" 0) (fun _ ↦ .ok ()) 10)

end Blackbase.Resources
