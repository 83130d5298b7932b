import Blackbase.Resources.Permits

/-!
# No permit is lost or lent twice

In every interleaving in which no thread uses an executor view that another one is still entering,
what is available and what is held are all the permits, so that the `min` of `_release_capacity`
never cuts anything off, and whatever runs holds permits for it.  And as long as some permit is
held, a view is open or one of the threads can go on: no permit is held for nothing.
-/

namespace Blackbase.Resources.Permits

open Machine

/-! ## Capacity -/

namespace Capacity

variable {c c' : Capacity} {permits : ℕ}

theorem of_acquire (h : c.acquire permits = some c') :
    c'.total = c.total ∧ c'.available + permits = c.available := by
  unfold acquire at h
  split_ifs at h with hroom
  obtain rfl := Option.some.inj h
  exact ⟨rfl, Nat.sub_add_cancel hroom.2⟩

theorem available_release (h : c.available + permits ≤ c.total) :
    (c.release permits).available = c.available + permits :=
  min_eq_right h

end Capacity

/-! ## Submissions -/

namespace Job

/-- What holds of a submission at any time. -/
structure Sound (j : Job) : Prop where
  running : j.progress = .running → j.reservation = .active ∧ j.task = .started
  runnable : j.progress = .queued ∨ j.progress = .picked → j.task = .fresh →
    j.reservation = .active
  owing : j.owing = true → j.task = .done
  finished : j.progress = .ended → j.reservation ≠ .active

theorem sound_submitted (c : Capacity) (permits : ℤ) : (submitted c permits).Sound where
  running := nofun
  runnable h := by rcases h with h | h <;> cases h
  owing := nofun
  finished := nofun

/-- Clearing the flag changes nothing else, and what is held is held until it is given back. -/
theorem clear_spec (j : Job) :
    j.clear.reservation ≠ .active ∧ j.clear.share = j.share ∧ j.clear.task = j.task ∧
      j.clear.progress = j.progress ∧ j.clear.owing = j.owing ∧ j.clear.permits = j.permits := by
  unfold clear
  split_ifs with h
  · exact ⟨nofun, by simp [share, h], rfl, rfl, rfl, rfl⟩
  · exact ⟨h, rfl, rfl, rfl, rfl, rfl⟩

variable {c c' : Capacity} {j j' : Job} {a : JobAct}

/-- What an act keeps. -/
theorem Sound.act (hj : j.Sound) (hroom : c.available + j.share ≤ c.total)
    (h : j.act c a = some (c', j')) :
    c'.total = c.total ∧ c'.available + j'.share = c.available + j.share ∧ j'.Sound := by
  obtain ⟨hrunning, hrunnable, howing, hfinished⟩ := hj
  cases a with
  | acquired =>
      simp only [Job.act] at h
      split_ifs at h with hguard
      obtain ⟨c₁, hacquire, heq⟩ := Option.map_eq_some_iff.mp h
      obtain ⟨rfl, rfl⟩ := Prod.mk.inj heq
      obtain ⟨htotal, havailable⟩ := Capacity.of_acquire hacquire
      refine ⟨htotal, ?_, ?_⟩
      · simp [share, hguard.1, havailable]
      · exact ⟨by simp [hguard.2], by simp [hguard.2], howing, by simp [hguard.2]⟩
  | refuse =>
      simp only [Job.act] at h
      split_ifs at h with hguard
      obtain ⟨rfl, rfl⟩ := Prod.mk.inj (Option.some.inj h)
      exact ⟨rfl, rfl, nofun, by simp, howing, by simp [hguard.1]⟩
  | enqueue =>
      simp only [Job.act] at h
      split_ifs at h with hguard
      obtain ⟨rfl, rfl⟩ := Prod.mk.inj (Option.some.inj h)
      exact ⟨rfl, rfl, nofun, fun _ _ ↦ hguard.1, howing, nofun⟩
  | abandon =>
      simp only [Job.act] at h
      split_ifs at h with hguard
      obtain ⟨rfl, rfl⟩ := Prod.mk.inj (Option.some.inj h)
      exact ⟨rfl, rfl, nofun, by simp, howing, nofun⟩
  | cancelTask caller =>
      simp only [Job.act] at h
      split_ifs at h with hshared hfresh
      · obtain ⟨rfl, rfl⟩ := Prod.mk.inj (Option.some.inj h)
        refine ⟨rfl, rfl, fun hrun ↦ ?_, fun _ hdone ↦ ?_, fun _ ↦ rfl, hfinished⟩
        · rw [(hrunning hrun).2] at hfresh
          cases hfresh
        · cases hdone
      · obtain ⟨rfl, rfl⟩ := Prod.mk.inj (Option.some.inj h)
        exact ⟨rfl, rfl, hrunning, hrunnable, howing, hfinished⟩
  | cancelFuture =>
      simp only [Job.act] at h
      split_ifs at h with hguard
      obtain ⟨rfl, rfl⟩ := Prod.mk.inj (Option.some.inj h)
      exact ⟨rfl, rfl, nofun, by simp, howing, nofun⟩
  | pick =>
      simp only [Job.act] at h
      split_ifs at h with hguard
      obtain ⟨rfl, rfl⟩ := Prod.mk.inj (Option.some.inj h)
      exact ⟨rfl, rfl, nofun, fun _ hfresh ↦ hrunnable (.inl hguard) hfresh, howing, nofun⟩
  | mark =>
      simp only [Job.act] at h
      split_ifs at h with hpicked hfresh
      · obtain ⟨rfl, rfl⟩ := Prod.mk.inj (Option.some.inj h)
        refine ⟨rfl, rfl, fun _ ↦ ⟨hrunnable (.inr hpicked) hfresh, rfl⟩, by simp, fun howes ↦ ?_,
          nofun⟩
        rw [howing howes] at hfresh
        cases hfresh
      · obtain ⟨rfl, rfl⟩ := Prod.mk.inj (Option.some.inj h)
        exact ⟨rfl, rfl, nofun, by simp, howing, nofun⟩
  | finish =>
      simp only [Job.act] at h
      split_ifs at h with hguard
      obtain ⟨rfl, rfl⟩ := Prod.mk.inj (Option.some.inj h)
      exact ⟨rfl, rfl, nofun, by simp, fun _ ↦ rfl, nofun⟩
  | free caller =>
      obtain ⟨hcleared, hshare, htask, hprogress, howed, -⟩ := j.clear_spec
      cases caller with
      | true =>
          simp only [Job.act, if_true] at h
          split_ifs at h with howes
          obtain ⟨rfl, rfl⟩ := Prod.mk.inj (Option.some.inj h)
          have hdone := howing howes
          refine ⟨rfl, congrArg (c.available + ·) hshare, fun hrun ↦ ?_, fun _ hfresh ↦ ?_, nofun,
            fun _ ↦ hcleared⟩
          · rw [(hrunning (hprogress ▸ hrun)).2] at hdone
            cases hdone
          · rw [← htask, hfresh] at hdone
            cases hdone
      | false =>
          simp only [Job.act, Bool.false_eq_true, if_false] at h
          split_ifs at h with hguard
          obtain ⟨rfl, rfl⟩ := Prod.mk.inj (Option.some.inj h)
          exact ⟨rfl, congrArg (c.available + ·) hshare, nofun, by simp,
            fun howes ↦ htask.trans (howing (howed.symm.trans howes)), fun _ ↦ hcleared⟩
  | giveBack =>
      simp only [Job.act] at h
      split_ifs at h with hguard
      obtain ⟨rfl, rfl⟩ := Prod.mk.inj (Option.some.inj h)
      have hshare : j.share = j.permits := by simp [share, hguard]
      rw [hshare] at hroom
      refine ⟨rfl, ?_, ?_⟩
      · rw [Capacity.available_release hroom, hshare]
        simp [share]
      · refine ⟨fun hrun ↦ ?_, fun hprogress hfresh ↦ ?_, howing, nofun⟩
        · rw [(hrunning hrun).1] at hguard
          cases hguard
        · rw [hrunnable hprogress hfresh] at hguard
          cases hguard

end Job

/-! ## Views -/

namespace View

/-- What holds of a view at any time, also within a loop of `_launch_available_locked`. -/
structure Steady (v : View) : Prop where
  positive : 0 < v.workerCount
  /-- Before the flags are set, and when they have been cleared again, nothing else is. -/
  unflagged : v.entering ≠ .flagged → v.entering ≠ .settled →
    v.reserved = false ∧ v.freed = false ∧ v.entered = false
  flagged : v.entering = .flagged → v.reserved = true ∧ v.pending = 0 ∧ v.inflight = 0
  opened : v.entered = true → v.closed = false → v.reserved = true
  freed : v.reserved = true → v.freed = false
  within : v.inflight ≤ v.workerCount
  inflight : 0 < v.inflight → v.entered = true ∧ v.reserved = true

/-- Between the steps, a call waits only when as many are running as may be. -/
structure Sound (v : View) : Prop extends Steady v where
  pending : 0 < v.pending → (v.entered = true ∧ v.reserved = true) ∧ v.inflight = v.workerCount

theorem sound_made (c : Capacity) (workers : ℤ) : (made c workers).Sound where
  positive := by
    show 0 < (max 1 (min (max 1 workers) (c.total : ℤ))).toNat
    omega
  unflagged _ _ := ⟨rfl, rfl, rfl⟩
  flagged := nofun
  opened := nofun
  freed := nofun
  within := Nat.zero_le _
  inflight h := absurd h (lt_irrefl 0)
  pending h := absurd h (lt_irrefl 0)

variable {c c' : Capacity} {v v' : View} {a : ViewAct}

/-- A loop that launches leaves a view sound, and what it holds. -/
theorem Steady.launch (hv : v.Steady) (hflagged : v.entering ≠ .flagged)
    (hidle : 0 < v.pending → v.entered = true ∧ v.reserved = true) {launched dropped : ℕ}
    (h : launchAvailable c v launched dropped = some v') : v'.Sound ∧ v'.share = v.share := by
  unfold launchAvailable at h
  split_ifs at h with hguard
  obtain rfl := Option.some.inj h
  obtain ⟨hcount, hactive, -, hexit⟩ := hguard
  refine ⟨⟨⟨hv.positive, hv.unflagged, fun h ↦ absurd h hflagged, hv.opened, hv.freed, ?_, ?_⟩,
    ?_⟩, rfl⟩
  · rcases hactive with hnone | ⟨-, -, hwithin⟩
    · have hwithin := hv.within
      show v.inflight + launched ≤ v.workerCount
      omega
    · exact hwithin
  · intro hpos
    rcases hactive with hnone | ⟨hentered, hreserved, -⟩
    · refine hv.inflight ?_
      have hpos' : 0 < v.inflight + launched := hpos
      omega
    · exact ⟨hentered, hreserved⟩
  · intro hpos
    have hpos' : 0 < v.pending - (launched + dropped) := hpos
    obtain ⟨hentered, hreserved⟩ := hidle (by omega)
    have hwithin : v.inflight + launched ≤ v.workerCount := by
      rcases hactive with hnone | ⟨-, -, hwithin⟩
      · have := hv.within
        omega
      · exact hwithin
    refine ⟨⟨hentered, hreserved⟩, le_antisymm hwithin (not_lt.mp fun hlt ↦ ?_)⟩
    have hall := hexit hentered hreserved hlt
    omega

/-- What an act keeps. -/
theorem Sound.act (hv : v.Sound) (hexclusive : v.entering = .flagged → a = .register ∨ a = .fail)
    (hroom : c.available + v.share ≤ c.total) (h : v.act c a = some (c', v')) :
    c'.total = c.total ∧ c'.available + v'.share = c.available + v.share ∧ v'.Sound := by
  cases a with
  | enter =>
      simp only [View.act] at h
      split_ifs at h with hguard
      obtain ⟨rfl, rfl⟩ := Prod.mk.inj (Option.some.inj h)
      have hclear := hv.unflagged (by simp [hguard.1]) (by simp [hguard.1])
      refine ⟨rfl, by simp [share, hguard.1, hclear], ?_⟩
      exact ⟨⟨hv.positive, fun _ _ ↦ hclear, nofun, hv.opened, hv.freed, hv.within, hv.inflight⟩,
        hv.pending⟩
  | acquired =>
      simp only [View.act] at h
      split_ifs at h with hguard
      obtain ⟨c₁, hacquire, heq⟩ := Option.map_eq_some_iff.mp h
      obtain ⟨rfl, rfl⟩ := Prod.mk.inj heq
      obtain ⟨htotal, havailable⟩ := Capacity.of_acquire hacquire
      have hclear := hv.unflagged (by simp [hguard]) (by simp [hguard])
      refine ⟨htotal, by simp [share, hguard, hclear, havailable], ?_⟩
      exact ⟨⟨hv.positive, fun _ _ ↦ hclear, nofun, hv.opened, hv.freed, hv.within, hv.inflight⟩,
        hv.pending⟩
  | refuse =>
      simp only [View.act] at h
      split_ifs at h with hguard
      obtain ⟨rfl, rfl⟩ := Prod.mk.inj (Option.some.inj h)
      have hclear := hv.unflagged (by simp [hguard.1]) (by simp [hguard.1])
      refine ⟨rfl, by simp [share, hguard.1, hclear], ?_⟩
      exact ⟨⟨hv.positive, fun _ _ ↦ hclear, nofun, hv.opened, hv.freed, hv.within, hv.inflight⟩,
        hv.pending⟩
  | flag =>
      simp only [View.act] at h
      split_ifs at h with hguard
      obtain ⟨rfl, rfl⟩ := Prod.mk.inj (Option.some.inj h)
      obtain ⟨hreserved, hfreed, hentered⟩ := hv.unflagged (by simp [hguard]) (by simp [hguard])
      have hinflight : v.inflight = 0 := by
        refine Nat.eq_zero_of_not_pos fun hpos ↦ ?_
        rw [(hv.inflight hpos).1] at hentered
        cases hentered
      have hpending : v.pending = 0 := by
        refine Nat.eq_zero_of_not_pos fun hpos ↦ ?_
        rw [(hv.pending hpos).1.1] at hentered
        cases hentered
      refine ⟨rfl, by simp [share, hguard], ?_⟩
      exact ⟨⟨hv.positive, fun h ↦ absurd rfl h, fun _ ↦ ⟨rfl, hpending, hinflight⟩,
        fun _ _ ↦ rfl, fun _ ↦ hfreed, hv.within, fun _ ↦ ⟨rfl, rfl⟩⟩,
        fun hpos ↦ absurd hpending hpos.ne'⟩
  | register =>
      simp only [View.act] at h
      split_ifs at h with hguard
      obtain ⟨rfl, rfl⟩ := Prod.mk.inj (Option.some.inj h)
      refine ⟨rfl, by simp [share, hguard.1], ?_⟩
      exact ⟨⟨hv.positive, fun _ h ↦ absurd rfl h, nofun, hv.opened, hv.freed, hv.within,
        hv.inflight⟩, hv.pending⟩
  | fail =>
      simp only [View.act] at h
      split_ifs at h with hguard
      obtain ⟨rfl, rfl⟩ := Prod.mk.inj (Option.some.inj h)
      obtain ⟨hreserved, hpending, hinflight⟩ := hv.flagged hguard.1
      refine ⟨rfl, by simp [share, hreserved], ?_⟩
      exact ⟨⟨hv.positive, fun _ _ ↦ ⟨rfl, hv.freed hreserved, rfl⟩, nofun, nofun, nofun, hv.within,
        fun hpos ↦ absurd hinflight hpos.ne'⟩, fun hpos ↦ absurd hpending hpos.ne'⟩
  | giveBackFailed =>
      simp only [View.act] at h
      split_ifs at h with hguard
      obtain ⟨rfl, rfl⟩ := Prod.mk.inj (Option.some.inj h)
      obtain ⟨hreserved, hfreed, hentered⟩ := hv.unflagged (by simp [hguard]) (by simp [hguard])
      have hshare : v.share = v.workerCount := by simp [share, hguard]
      rw [hshare] at hroom
      refine ⟨rfl, ?_, ?_⟩
      · rw [Capacity.available_release hroom, hshare]
        simp [share, hreserved, hfreed]
      · exact ⟨⟨hv.positive, fun _ h ↦ absurd rfl h, nofun, hv.opened, hv.freed, hv.within,
          hv.inflight⟩, hv.pending⟩
  | submit launched dropped =>
      simp only [View.act] at h
      split_ifs at h with hguard
      obtain ⟨v₁, hlaunch, heq⟩ := Option.map_eq_some_iff.mp h
      obtain ⟨rfl, rfl⟩ := Prod.mk.inj heq
      have hflagged : v.entering ≠ .flagged := fun h ↦ by rcases hexclusive h with h | h <;> cases h
      have hreserved := hv.opened hguard.1 hguard.2
      have hsteady : Steady { v with pending := v.pending + 1 } :=
        ⟨hv.positive, hv.unflagged, fun h ↦ absurd h hflagged, hv.opened, hv.freed, hv.within,
          hv.inflight⟩
      obtain ⟨hsound, hshare⟩ := hsteady.launch hflagged (fun _ ↦ ⟨hguard.1, hreserved⟩) hlaunch
      exact ⟨rfl, congrArg (c.available + ·) hshare, hsound⟩
  | underlyingDone launched dropped =>
      simp only [View.act] at h
      split_ifs at h with hguard
      obtain ⟨v₁, hlaunch, heq⟩ := Option.map_eq_some_iff.mp h
      obtain ⟨rfl, rfl⟩ := Prod.mk.inj heq
      have hflagged : v.entering ≠ .flagged := fun h ↦ by rcases hexclusive h with h | h <;> cases h
      have hactive := hv.inflight hguard
      have hsteady : Steady { v with inflight := v.inflight - 1 } :=
        ⟨hv.positive, hv.unflagged, fun h ↦ absurd h hflagged, hv.opened, hv.freed,
          (Nat.sub_le _ _).trans hv.within, fun _ ↦ hactive⟩
      obtain ⟨hsound, hshare⟩ := hsteady.launch hflagged (fun _ ↦ hactive) hlaunch
      exact ⟨rfl, congrArg (c.available + ·) hshare, hsound⟩
  | close =>
      obtain ⟨rfl, rfl⟩ := Prod.mk.inj (Option.some.inj h)
      exact ⟨rfl, rfl, ⟨⟨hv.positive, hv.unflagged, hv.flagged, nofun, hv.freed, hv.within,
        hv.inflight⟩, hv.pending⟩⟩
  | drop dropped =>
      simp only [View.act] at h
      split_ifs at h with hguard
      obtain ⟨rfl, rfl⟩ := Prod.mk.inj (Option.some.inj h)
      have hflagged : v.entering ≠ .flagged := fun h ↦ by rcases hexclusive h with h | h <;> cases h
      exact ⟨rfl, rfl, ⟨⟨hv.positive, hv.unflagged, fun h ↦ absurd h hflagged, hv.opened, hv.freed,
        hv.within, hv.inflight⟩, fun hpos ↦ hv.pending (hpos.trans_le (Nat.sub_le _ _))⟩⟩
  | launch launched dropped =>
      simp only [View.act] at h
      split_ifs at h with hguard
      obtain ⟨v₁, hlaunch, heq⟩ := Option.map_eq_some_iff.mp h
      obtain ⟨rfl, rfl⟩ := Prod.mk.inj heq
      have hflagged : v.entering ≠ .flagged := fun h ↦ by rcases hexclusive h with h | h <;> cases h
      obtain ⟨hsound, hshare⟩ :=
        hv.toSteady.launch hflagged (fun hpos ↦ (hv.pending hpos).1) hlaunch
      exact ⟨rfl, congrArg (c.available + ·) hshare, hsound⟩
  | releaseIfIdle =>
      simp only [View.act] at h
      split_ifs at h with hguard
      obtain ⟨rfl, rfl⟩ := Prod.mk.inj (Option.some.inj h)
      obtain ⟨hclosed, hreserved, hpending, hinflight⟩ := hguard
      have hflagged : v.entering ≠ .flagged := fun h ↦ by rcases hexclusive h with h | h <;> cases h
      have hsettled : v.entering = .settled := by
        by_contra hne
        rw [(hv.unflagged hflagged hne).1] at hreserved
        cases hreserved
      refine ⟨rfl, by simp [share, hreserved], ?_⟩
      exact ⟨⟨hv.positive, fun _ h ↦ absurd hsettled h, fun h ↦ absurd h hflagged,
        fun _ hopen ↦ absurd hclosed (Bool.eq_false_iff.mp hopen), nofun, hv.within,
        fun hpos ↦ absurd hinflight hpos.ne'⟩, fun hpos ↦ absurd hpending hpos.ne'⟩
  | giveBack =>
      simp only [View.act] at h
      split_ifs at h with hguard
      obtain ⟨rfl, rfl⟩ := Prod.mk.inj (Option.some.inj h)
      have hshare : v.share = v.workerCount := by simp [share, hguard]
      have hreserved : v.reserved = false := by
        refine Bool.eq_false_iff.mpr fun hreserved ↦ ?_
        rw [hv.freed hreserved] at hguard
        cases hguard
      have hsettled : v.entering = .settled := by
        by_contra hne
        by_cases hflagged : v.entering = .flagged
        · rw [(hv.flagged hflagged).1] at hreserved
          cases hreserved
        · rw [(hv.unflagged hflagged hne).2.1] at hguard
          cases hguard
      rw [hshare] at hroom
      refine ⟨rfl, ?_, ?_⟩
      · rw [Capacity.available_release hroom, hshare]
        simp [share, hreserved, hsettled]
      · exact ⟨⟨hv.positive, fun _ h ↦ absurd hsettled h, hv.flagged, hv.opened, fun _ ↦ rfl,
          hv.within, hv.inflight⟩, hv.pending⟩

end View

/-! ## The pool -/

/-- What holds of the pool at any time. -/
structure Sound (p : Pool) : Prop where
  jobs : ∀ j ∈ p.jobs, j.Sound
  views : ∀ v ∈ p.views, v.Sound
  balance : p.capacity.available + p.held = p.capacity.total

theorem sound_started (threads : ℕ) : Sound (.started threads) :=
  ⟨nofun, nofun, rfl⟩

theorem Job.share_submitted (c : Capacity) (permits : ℤ) : (submitted c permits).share = 0 := rfl

theorem View.share_made (c : Capacity) (workers : ℤ) : (made c workers).share = 0 := rfl

theorem Sound.share_job {p : Pool} (hp : Sound p) {index : ℕ} {j : Job}
    (hj : p.jobs[index]? = some j) : p.capacity.available + j.share ≤ p.capacity.total := by
  have hheld := Shares.share_le_held Job.share (List.mem_of_getElem? hj)
  have hbalance := hp.balance
  unfold Pool.held at hbalance
  omega

theorem Sound.share_view {p : Pool} (hp : Sound p) {index : ℕ} {v : View}
    (hv : p.views[index]? = some v) : p.capacity.available + v.share ≤ p.capacity.total := by
  have hheld := Shares.share_le_held View.share (List.mem_of_getElem? hv)
  have hbalance := hp.balance
  unfold Pool.held at hbalance
  omega

theorem Sound.step {p p' : Pool} {l : Label} (hp : Sound p) (hl : exclusive p l = true)
    (h : step p l = some p') : p'.capacity.total = p.capacity.total ∧ Sound p' := by
  cases l with
  | submit permits =>
      obtain rfl := Option.some.inj h
      refine ⟨rfl, fun j hj ↦ ?_, hp.views, ?_⟩
      · rcases List.mem_append.mp hj with hj | hj
        · exact hp.jobs j hj
        · obtain rfl := List.mem_singleton.mp hj
          exact Job.sound_submitted _ _
      · have hbalance := hp.balance
        simpa [Pool.held, Job.share_submitted] using hbalance
  | asExecutor workers =>
      obtain rfl := Option.some.inj h
      refine ⟨rfl, hp.jobs, fun v hv ↦ ?_, ?_⟩
      · rcases List.mem_append.mp hv with hv | hv
        · exact hp.views v hv
        · obtain rfl := List.mem_singleton.mp hv
          exact View.sound_made _ _
      · have hbalance := hp.balance
        simpa [Pool.held, View.share_made] using hbalance
  | shutdown =>
      obtain rfl := Option.some.inj h
      exact ⟨rfl, hp.jobs, hp.views, hp.balance⟩
  | job index a =>
      obtain ⟨j, hj, h⟩ := Option.bind_eq_some_iff.mp h
      obtain ⟨⟨c, j'⟩, hact, rfl⟩ := Option.map_eq_some_iff.mp h
      obtain ⟨htotal, havailable, hsound⟩ :=
        (hp.jobs j (List.mem_of_getElem? hj)).act (hp.share_job hj) hact
      refine ⟨htotal, Shares.forall_set hp.jobs hsound, hp.views, ?_⟩
      have hset := Shares.held_set Job.share hj j'
      have hbalance := hp.balance
      simp only [Pool.held] at hbalance ⊢
      omega
  | view index a =>
      obtain ⟨v, hv, h⟩ := Option.bind_eq_some_iff.mp h
      obtain ⟨⟨c, v'⟩, hact, rfl⟩ := Option.map_eq_some_iff.mp h
      have hexclusive : v.entering = .flagged → a = .register ∨ a = .fail := by
        intro hflagged
        rw [exclusive, hv] at hl
        simpa [hflagged] using hl
      obtain ⟨htotal, havailable, hsound⟩ :=
        (hp.views v (List.mem_of_getElem? hv)).act hexclusive (hp.share_view hv) hact
      refine ⟨htotal, hp.jobs, Shares.forall_set hp.views hsound, ?_⟩
      have hset := Shares.held_set View.share hv v'
      have hbalance := hp.balance
      simp only [Pool.held] at hbalance ⊢
      omega

/-- The runs in which no thread uses a view that another one is still entering. -/
abbrev PoolRun (threads : ℕ) : Pool → Prop :=
  Reach step (fun p l ↦ exclusive p l = true) (.started threads)

theorem sound_of_run {threads : ℕ} {p : Pool} (h : PoolRun threads p) :
    p.capacity.total = max 1 threads ∧ Sound p := by
  refine h.invariant (I := fun p ↦ p.capacity.total = max 1 threads ∧ Sound p)
    ⟨rfl, sound_started threads⟩ ?_
  rintro p l p' ⟨htotal, hp⟩ hl hstep
  obtain ⟨htotal', hp'⟩ := hp.step hl hstep
  exact ⟨htotal'.trans htotal, hp'⟩

theorem Job.Sound.load_le {j : Job} (hj : j.Sound) : j.load ≤ j.share := by
  unfold load
  split_ifs with hrunning
  · simp [share, (hj.running hrunning).1]
  · exact Nat.zero_le _

theorem View.Sound.load_le {v : View} (hv : v.Sound) : v.load ≤ v.share := by
  rcases Nat.eq_zero_or_pos v.inflight with hzero | hpos
  · simp [load, hzero]
  · simpa [load, share, (hv.inflight hpos).2] using hv.within

/-- A pool with one thread, which runs a callable. -/
def busy : Pool := ⟨⟨1, 0, false⟩, [⟨1, .active, .started, .running, false⟩], []⟩

theorem run_busy : PoolRun 1 busy := by
  have hrun : run (guarded step fun p l ↦ exclusive p l = true) (.started 1)
      [.submit 1, .job 0 .acquired, .job 0 .enqueue, .job 0 .pick, .job 0 .mark] = some busy := by
    decide
  exact reach_of_run hrun

/-- A view that is shut down by one thread while another one is still entering it gives its permits
back twice, if the pool is shut down as well. -/
theorem lent_twice : ∃ ls p, run step (.started 1) ls = some p ∧
    p.capacity.total < p.capacity.available + p.held := by
  refine ⟨[.asExecutor 1, .view 0 .enter, .view 0 .acquired, .view 0 .flag, .view 0 .close,
    .view 0 .releaseIfIdle, .view 0 .giveBack, .submit 1, .job 0 .acquired, .shutdown, .view 0 .fail,
    .view 0 .giveBackFailed], ⟨⟨1, 1, true⟩, [⟨1, .active, .fresh, .unsubmitted, false⟩],
    [⟨1, .settled, false, true, false, false, 0, 0⟩]⟩, ?_, ?_⟩
  · decide
  · decide

/-! ## Going on -/

/-- A submission that holds permits has a step to take. -/
theorem Job.Sound.goesOn {j : Job} (hj : j.Sound) (c : Capacity) (hshare : 0 < j.share) :
    ∃ a, (∀ index, (Label.job index a).goesOn = true) ∧ (j.act c a).isSome = true := by
  unfold share at hshare
  split_ifs at hshare with hheld
  · rcases hheld with hactive | hfreed
    · cases hprogress : j.progress with
      | unsubmitted =>
          cases hshutdown : c.shutdown with
          | true => exact ⟨.abandon, fun _ ↦ rfl, by simp [Job.act, hactive, hprogress]⟩
          | false => exact ⟨.enqueue, fun _ ↦ rfl, by simp [Job.act, hactive, hprogress, hshutdown]⟩
      | abandoned => exact ⟨.free false, fun _ ↦ rfl, by simp [Job.act, hprogress]⟩
      | queued => exact ⟨.pick, fun _ ↦ rfl, by simp [Job.act, hprogress]⟩
      | picked =>
          refine ⟨.mark, fun _ ↦ rfl, ?_⟩
          by_cases hfresh : j.task = .fresh <;> simp [Job.act, hprogress, hfresh]
      | running => exact ⟨.finish, fun _ ↦ rfl, by simp [Job.act, hprogress]⟩
      | leaving => exact ⟨.free false, fun _ ↦ rfl, by simp [Job.act, hprogress]⟩
      | cancelled => exact ⟨.free false, fun _ ↦ rfl, by simp [Job.act, hprogress]⟩
      | ended => exact absurd hactive (hj.finished hprogress)
    · exact ⟨.giveBack, fun _ ↦ rfl, by simp [Job.act, hfreed]⟩
  · exact absurd hshare (lt_irrefl 0)

/-- A loop of launching always comes to an end: when as many calls run as may, or none is left. -/
theorem View.exists_launch (c : Capacity) (v : View) (hactive : v.entered = true ∧ v.reserved = true)
    (hwithin : v.inflight ≤ v.workerCount) :
    ∃ launched dropped, (launchAvailable c v launched dropped).isSome = true := by
  cases hshutdown : c.shutdown with
  | true =>
      refine ⟨0, v.pending, ?_⟩
      simp [launchAvailable, hactive, hwithin]
  | false =>
      refine ⟨min v.pending (v.workerCount - v.inflight), 0, ?_⟩
      rw [launchAvailable, if_pos ?_]
      · rfl
      · refine ⟨by omega, .inr ⟨hactive.1, hactive.2, by omega⟩, ?_, fun _ _ hlt ↦ by omega⟩
        rw [hshutdown]
        exact nofun

/-- A closed view that holds permits, or one that is being entered, has a step to take. -/
theorem View.Sound.goesOn {v : View} (hv : v.Sound) (c : Capacity) (hshare : 0 < v.share)
    (hclosed : v.reserved = true → v.closed = true) :
    ∃ a, (∀ index, (Label.view index a).goesOn = true) ∧ (v.act c a).isSome = true ∧
      (v.entering = .flagged → a = .register ∨ a = .fail) := by
  by_cases hflagged : v.entering = .flagged
  · cases hshutdown : c.shutdown with
    | true => exact ⟨.fail, fun _ ↦ rfl, by simp [View.act, hflagged, hshutdown], fun _ ↦ .inr rfl⟩
    | false => exact ⟨.register, fun _ ↦ rfl, by simp [View.act, hflagged, hshutdown], fun _ ↦ .inl rfl⟩
  · have hvacuous : ∀ a : ViewAct, v.entering = .flagged → a = .register ∨ a = .fail :=
      fun _ h ↦ absurd h hflagged
    unfold share at hshare
    split_ifs at hshare with hheld
    · rcases hheld with hadmitted | hfailing | hreserved | hfreed
      · exact ⟨.flag, fun _ ↦ rfl, by simp [View.act, hadmitted], hvacuous _⟩
      · exact ⟨.giveBackFailed, fun _ ↦ rfl, by simp [View.act, hfailing], hvacuous _⟩
      · rcases Nat.eq_zero_or_pos v.inflight with hzero | hpos
        · have hpending : v.pending = 0 := by
            refine Nat.eq_zero_of_not_pos fun hpending ↦ ?_
            have hcount := (hv.pending hpending).2
            have hpositive := hv.positive
            omega
          exact ⟨.releaseIfIdle, fun _ ↦ rfl,
            by simp [View.act, hclosed hreserved, hreserved, hpending, hzero], hvacuous _⟩
        · obtain ⟨launched, dropped, hlaunch⟩ :=
            exists_launch c { v with inflight := v.inflight - 1 } (hv.inflight hpos)
              ((Nat.sub_le _ _).trans hv.within)
          refine ⟨.underlyingDone launched dropped, fun _ ↦ rfl, ?_, hvacuous _⟩
          rw [View.act, if_pos hpos, Option.isSome_map]
          exact hlaunch
      · exact ⟨.giveBack, fun _ ↦ rfl, by simp [View.act, hfreed], hvacuous _⟩
    · exact absurd hshare (lt_irrefl 0)

end Blackbase.Resources.Permits
