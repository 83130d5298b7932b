import Blackbase.Resources.Scheduler.Model

/-!
# Leases that do not expire

The allocators of the scheduler issue leases without an expiry, so that the store of a worker lists
the leases that were issued and not released.
-/

namespace Blackbase.Resources

/-- No lease of the store expires, and no two have one id. -/
structure InMemoryLeases.Lasting (s : InMemoryLeases) : Prop where
  unique : Rows.Unique ResourceLease.leaseId s.leases
  lasts : ∀ l ∈ s.leases, l.expiresAt = 0

namespace InMemoryLeases

/-- The leases with status `active`. -/
def activeRows (s : InMemoryLeases) : List ResourceLease :=
  s.leases.filter fun l ↦ l.status = .active

variable {s : InMemoryLeases} {now : Time} {leaseId : String}

theorem lasting_empty : Lasting .empty := ⟨List.nodup_nil, fun _ h ↦ by cases h⟩

@[simp] theorem activeRows_empty : activeRows .empty = [] := rfl

theorem mem_activeRows {l : ResourceLease} :
    l ∈ s.activeRows ↔ l ∈ s.leases ∧ l.status = .active := by
  rw [activeRows, List.mem_filter, decide_eq_true_iff]

theorem Lasting.sweep_eq (h : s.Lasting) : s.expireLocked now = s := by
  have hsweep : s.leases.map (ResourceLease.sweep now) = s.leases := by
    refine (List.map_congr_left fun l hl ↦ ?_).trans (List.map_id _)
    have hdue : l.due now = false := by simp [ResourceLease.due, h.lasts l hl]
    rw [ResourceLease.sweep, if_neg (Bool.eq_false_iff.mp hdue), id]
  rw [expireLocked, hsweep]

theorem Lasting.filter_active (h : s.Lasting) : s.leases.filter (·.active now) = s.activeRows := by
  refine List.filter_congr fun l hl ↦ ?_
  simp [ResourceLease.active, ResourceLease.unexpired, h.lasts l hl]

/-! ## Acquiring -/

section Acquire

variable {ε : Type} {lease : ResourceLease} {validateActive : List ResourceLease → Except ε Unit}

theorem Lasting.acquireLease_refused (h : s.Lasting) {e : ε}
    (hcheck : validateActive s.activeRows = .error e) :
    s.acquireLease now lease validateActive 0 = (.error (.refused e), s) := by
  rw [acquireLease, h.sweep_eq, h.filter_active, hcheck]

theorem Lasting.acquireLease_admitted (h : s.Lasting)
    (hcheck : validateActive s.activeRows = .ok ()) :
    s.acquireLease now lease validateActive 0 = (.ok (lease.issue now 0 s.nextFencingToken),
      { s.put (lease.issue now 0 s.nextFencingToken) with
        nextFencingToken := s.nextFencingToken + 1 }) := by
  rw [acquireLease, h.sweep_eq, h.filter_active, hcheck]

/-- A lease of a new id is stored at the end. -/
theorem put_new {l : ResourceLease} (hnew : s.row l.leaseId = none) :
    s.put l = { s with leases := s.leases ++ [l] } := by
  rw [put, hnew]
  rfl

theorem Lasting.append (h : s.Lasting) (hnew : s.row lease.leaseId = none) {token : ℤ} :
    Lasting ⟨s.leases ++ [lease.issue now 0 s.nextFencingToken], token⟩ where
  unique := h.unique.append hnew
  lasts l hl := by
    obtain hl | hl := List.mem_append.mp hl
    · exact h.lasts l hl
    · obtain rfl := List.mem_singleton.mp hl
      simp [ResourceLease.issue, ResourceLease.expiry]

@[simp] theorem activeRows_append {token : ℤ} :
    activeRows ⟨s.leases ++ [lease.issue now 0 s.nextFencingToken], token⟩ =
      s.activeRows ++ [lease.issue now 0 s.nextFencingToken] := by
  simp [activeRows, ResourceLease.issue]

end Acquire

/-! ## Releasing -/

/-- A row that is rewritten as one that is not active goes off the list. -/
theorem filter_update_const {x : ResourceLease} (hx : x.status ≠ .active)
    (rows : List ResourceLease) :
    (Rows.update ResourceLease.leaseId leaseId (fun _ ↦ x) rows).filter
        (fun l ↦ l.status = .active) =
      (rows.filter fun l ↦ l.status = .active).filter fun l ↦ l.leaseId ≠ leaseId := by
  induction rows with
  | nil => rfl
  | cons l rows ih =>
      have hcons : Rows.update ResourceLease.leaseId leaseId (fun _ ↦ x) (l :: rows) =
          (if l.leaseId = leaseId then x else l) ::
            Rows.update ResourceLease.leaseId leaseId (fun _ ↦ x) rows := rfl
      by_cases hl : l.leaseId = leaseId
      · rw [hcons, if_pos hl, List.filter_cons_of_neg (by simpa using hx), ih,
          List.filter_filter, List.filter_filter, List.filter_cons_of_neg (by simp [hl])]
      · rw [hcons, if_neg hl]
        by_cases hact : l.status = .active
        · rw [List.filter_cons_of_pos (by simpa using hact), ih,
            List.filter_cons_of_pos (by simpa using hact),
            List.filter_cons_of_pos (by simpa using hl)]
        · rw [List.filter_cons_of_neg (by simpa using hact), ih,
            List.filter_cons_of_neg (by simpa using hact)]

theorem released_ne_active : LeaseStatus.released ≠ .active := by decide

/-- The two ways a release by id goes. -/
theorem releaseLease_cases (s : InMemoryLeases) (now : Time) (leaseId : String) :
    (∃ current, s.row leaseId = some current ∧ current.status = .active ∧
      (s.releaseLease now leaseId none).2.leases =
        Rows.update ResourceLease.leaseId leaseId (fun _ ↦ current.released now) s.leases) ∨
    ((∀ current, s.row leaseId = some current → current.status ≠ .active) ∧
      (s.releaseLease now leaseId none).2 = s) := by
  cases hrow : s.row leaseId with
  | none =>
      refine .inr ⟨fun _ h ↦ (by cases h), ?_⟩
      rw [releaseLease, hrow]
  | some current =>
      obtain rfl := Rows.key_of_lookup hrow
      by_cases hactive : current.status = .active
      · refine .inl ⟨current, rfl, hactive, ?_⟩
        have hmatch : current.matchesActive none = true := by
          simp [ResourceLease.matchesActive, hactive]
        have hsome : (s.row (current.released now).leaseId).isSome := by
          change (s.row current.leaseId).isSome
          rw [hrow]
          rfl
        rw [releaseLease, hrow]
        simp only [hmatch, if_true]
        rw [put, if_pos hsome]
        rfl
      · refine .inr ⟨?_, ?_⟩
        · rintro _ h
          rwa [← Option.some.inj h]
        · have hmatch : current.matchesActive none = false := by
            simp [ResourceLease.matchesActive, hactive]
          rw [releaseLease, hrow]
          simp only [hmatch, Bool.false_eq_true, if_false]

variable (now leaseId) in
/-- A release takes the lease off the list, if it is there. -/
theorem Lasting.activeRows_releaseLease (h : s.Lasting) :
    (s.releaseLease now leaseId none).2.activeRows =
      s.activeRows.filter fun l ↦ l.leaseId ≠ leaseId := by
  obtain ⟨current, -, -, hleases⟩ | ⟨hnot, hsame⟩ := releaseLease_cases s now leaseId
  · rw [activeRows, hleases]
    exact filter_update_const released_ne_active s.leases
  · rw [hsame]
    refine (List.filter_eq_self.mpr fun l hl ↦ decide_eq_true ?_).symm
    rintro rfl
    obtain ⟨hmem, hactive⟩ := mem_activeRows.mp hl
    exact hnot l (Rows.lookup_of_mem h.unique hmem) hactive

theorem Lasting.releaseLease (h : s.Lasting) : (s.releaseLease now leaseId none).2.Lasting := by
  obtain ⟨current, hrow, -, hleases⟩ | ⟨-, hsame⟩ := releaseLease_cases s now leaseId
  · constructor
    · have hid : current.leaseId = leaseId := Rows.key_of_lookup hrow
      rw [hleases]
      exact h.unique.update fun _ _ ↦ hid
    · intro l hl
      rw [hleases, Rows.update] at hl
      obtain ⟨row, hmem, rfl⟩ := List.mem_map.mp hl
      split
      · exact h.lasts current (Rows.mem_of_lookup hrow)
      · exact h.lasts row hmem
  · rw [hsame]
    exact h

theorem leaseIds_releaseLease :
    (s.releaseLease now leaseId none).2.leases.map ResourceLease.leaseId =
      s.leases.map ResourceLease.leaseId := by
  obtain ⟨current, hrow, -, hleases⟩ | ⟨-, hsame⟩ := releaseLease_cases s now leaseId
  · have hid : current.leaseId = leaseId := Rows.key_of_lookup hrow
    rw [hleases]
    exact Rows.map_key_update (f := fun _ ↦ current.released now) (fun _ _ ↦ hid) s.leases
  · rw [hsame]

end InMemoryLeases

end Blackbase.Resources
