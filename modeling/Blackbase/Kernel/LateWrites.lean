import Blackbase.Kernel.Fence

/-!
# Late writes

Once the run control is cancelled or closed, nothing a branch does through its handles changes a
store any more, provided that no call was past its check at that moment and that whatever is
called afterwards is called through the fence.  Neither is so in general: the fence knows some of
the methods that change a store and not the others, and a call that has been let through is not
stopped again.
-/

universe u v w x

namespace Blackbase.Kernel

open Resources (Time)
open Context

variable {V : Type u} {P : Type v} {C : Type w} {S : Type x}
variable {B : Backend V P C S} {R : Surroundings}

namespace Slot

/-- No call is past the part of its check that the step would have to stop, and after the run has
been cancelled or closed calls are made through the fence. -/
def Proper (R : Surroundings) (s : Slot V P C S) : SlotStep V P → Prop
  | .invoke _ _ key path op _ => s.control.down = true → ∀ handle, R.handle key path = some handle →
      handle.checks op = true
  | .cancel => ∀ number call, s.calls number = some call →
      call.stage = .called ∨ call.stage = .sawActive
  | .cancelParent => ∀ number call, s.calls number = some call →
      ∀ sections, call.stage ≠ .admitted sections
  | .close => ∀ number call, s.calls number = some call → call.stage = .called
  | _ => True

/-- What is down has been seen by no call. -/
structure Held (s : Slot V P C S) : Prop where
  active : s.control.active = false → ∀ number call, s.calls number = some call →
    call.stage = .called
  event : s.control.event = true → ∀ number call, s.calls number = some call →
    call.stage = .called ∨ call.stage = .sawActive
  parentEvent : s.control.parentEvent = true → ∀ number call, s.calls number = some call →
    ∀ sections, call.stage ≠ .admitted sections

variable {s t : Slot V P C S} {l : SlotStep V P}

theorem down_iff : s.control.down = true ↔
    s.control.active = false ∨ s.control.event = true ∨ s.control.parentEvent = true := by
  simp [RunControl.down, RunControl.isSet]
  tauto

theorem Held.not_admitted (h : Held s) (hdown : s.control.down = true) {number : ℕ}
    {call : Call V P} (hcall : s.calls number = some call) (sections : ℕ) :
    call.stage ≠ .admitted sections := by
  intro hstage
  rcases down_iff.mp hdown with hactive | hevent | hparent
  · have := h.active hactive number call hcall
    rw [hstage] at this
    cases this
  · have := h.event hevent number call hcall
    rw [hstage] at this
    rcases this with h | h <;> cases h
  · exact h.parentEvent hparent number call hcall sections hstage

/-- A call that has read the control as it is may go one stage on, or end. -/
theorem Held.setStage (h : Held s) {number : ℕ} {call : Call V P} {stage : Stage}
    (hactive : s.control.active = false → stage = .called)
    (hevent : s.control.event = true → stage = .called ∨ stage = .sawActive)
    (hparent : s.control.parentEvent = true → ∀ sections, stage ≠ .admitted sections) :
    Held (s.setStage number call stage) := by
  have hcases : ∀ other found, (s.setStage number call stage).calls other = some found →
      found.stage = stage ∨ s.calls other = some found := by
    intro other found hfound
    rw [Slot.setStage] at hfound
    dsimp only at hfound
    by_cases heq : other = number
    · subst heq
      rw [Function.update_self] at hfound
      obtain rfl := Option.some.inj hfound
      exact .inl rfl
    · rw [Function.update_of_ne heq] at hfound
      exact .inr hfound
  constructor
  · intro hdown other found hfound
    rcases hcases other found hfound with hstage | hfound
    · exact hstage.trans (hactive hdown)
    · exact h.active hdown other found hfound
  · intro hdown other found hfound
    rcases hcases other found hfound with hstage | hfound
    · rw [hstage]
      exact hevent hdown
    · exact h.event hdown other found hfound
  · intro hdown other found hfound
    rcases hcases other found hfound with hstage | hfound
    · rw [hstage]
      exact hparent hdown
    · exact h.parentEvent hdown other found hfound

theorem calls_endCall {number other : ℕ} {found : Call V P}
    (h : (s.endCall number).calls other = some found) : s.calls other = some found := by
  rw [Slot.endCall] at h
  dsimp only at h
  by_cases heq : other = number
  · subst heq
    rw [Function.update_self] at h
    cases h
  · rwa [Function.update_of_ne heq] at h

theorem Held.endCall (h : Held s) (number : ℕ) : Held (s.endCall number) where
  active hdown other found hfound := h.active hdown other found (calls_endCall hfound)
  event hdown other found hfound := h.event hdown other found (calls_endCall hfound)
  parentEvent hdown other found hfound := h.parentEvent hdown other found (calls_endCall hfound)

theorem Held.checkCall (h : Held s) {number : ℕ} {call : Call V P}
    (hcall : s.calls number = some call) (hstep : s.checkCall number call = some t) : Held t := by
  rw [Slot.checkCall] at hstep
  split at hstep
  · obtain rfl := Option.some.inj hstep
    split_ifs with hactive
    · refine h.setStage (fun hdown ↦ ?_) (fun _ ↦ .inr rfl) (fun _ _ h ↦ by cases h)
      rw [hactive] at hdown
      cases hdown
    · exact h.endCall number
  · next hstage =>
      obtain rfl := Option.some.inj hstep
      split_ifs with hevent
      · exact h.endCall number
      · refine h.setStage (fun hdown ↦ ?_) (fun hset ↦ absurd hset hevent)
          (fun _ _ h ↦ by cases h)
        have := h.active hdown number call hcall
        rw [hstage] at this
        cases this
  · next hstage =>
      obtain rfl := Option.some.inj hstep
      split_ifs with hparent
      · exact h.endCall number
      · refine h.setStage (fun hdown ↦ ?_) (fun hset ↦ ?_) (fun hset ↦ absurd hset hparent)
        · have := h.active hdown number call hcall
          rw [hstage] at this
          cases this
        · have := h.event hset number call hcall
          rw [hstage] at this
          rcases this with h | h <;> cases h
  · cases hstep

/-- While the control is up, calls may be admitted. -/
theorem Held.of_up (h : s.control.down = false) : Held s := by
  have hup : ¬ (s.control.active = false ∨ s.control.event = true ∨
      s.control.parentEvent = true) := by
    rw [← down_iff, h]
    exact Bool.false_ne_true
  push Not at hup
  obtain ⟨hactive, hevent, hparent⟩ := hup
  exact ⟨fun h ↦ absurd h hactive, fun h ↦ absurd h hevent, fun h ↦ absurd h hparent⟩

theorem control_afterSection (number : ℕ) (call : Call V P) (index : ℕ) (goesOn : Bool) :
    (s.afterSection number call index goesOn).control = s.control := by
  rw [afterSection]
  split_ifs <;> rfl

theorem control_applySection (number : ℕ) (call : Call V P) (index : ℕ) :
    (s.applySection B number call index).control = s.control := by
  rw [applySection]
  split
  · split
    · rfl
    · exact control_afterSection number call index _
  · split
    · rfl
    · exact control_afterSection number call index _
  · rfl

theorem Held.step (h : Held s) (hproper : Proper R s l) (hstep : s.step B R l = some t) :
    Held t := by
  cases l with
  | start branch =>
      rw [Slot.step] at hstep
      split_ifs at hstep
      all_goals
        obtain rfl := Option.some.inj hstep
        exact ⟨h.active, h.event, h.parentEvent⟩
  | finish branch =>
      rw [Slot.step] at hstep
      split_ifs at hstep
      obtain rfl := Option.some.inj hstep
      exact ⟨h.active, h.event, h.parentEvent⟩
  | invoke number branch key path op clock =>
      rw [Slot.step] at hstep
      split_ifs at hstep
      obtain ⟨handle, hhandle, rfl⟩ := Option.map_eq_some_iff.mp hstep
      obtain ⟨hhandle, -⟩ := Option.filter_eq_some_iff.mp hhandle
      by_cases hdown : s.control.down = true
      · rw [if_pos (hproper hdown handle hhandle)]
        exact h.setStage (fun _ ↦ rfl) (fun _ ↦ .inl rfl) (fun _ _ h ↦ by cases h)
      · exact Held.of_up (eq_false_of_ne_true hdown)
  | check number =>
      rw [Slot.step] at hstep
      obtain ⟨call, hcall, hcheck⟩ := Option.bind_eq_some_iff.mp hstep
      exact h.checkCall hcall hcheck
  | apply number =>
      rw [Slot.step] at hstep
      obtain ⟨call, hcall, happly⟩ := Option.bind_eq_some_iff.mp hstep
      split at happly
      · next index hstage =>
          obtain rfl := Option.some.inj happly
          refine Held.of_up ?_
          rw [control_applySection]
          by_contra hdown
          exact h.not_admitted (eq_true_of_ne_false hdown) hcall index hstage
      · cases happly
  | cancel =>
      obtain rfl := Option.some.inj hstep
      exact ⟨h.active, fun _ ↦ hproper, h.parentEvent⟩
  | cancelParent =>
      obtain rfl := Option.some.inj hstep
      exact ⟨h.active, h.event, fun _ ↦ hproper⟩
  | close =>
      obtain rfl := Option.some.inj hstep
      exact ⟨fun _ ↦ hproper, h.event, h.parentEvent⟩

theorem held_initial (parentEvent : Bool) (contexts : ℕ → C) (snapshots : ℕ → S) :
    Held (initial parentEvent contexts snapshots : Slot V P C S) where
  active := fun h ↦ by cases h
  event := fun h ↦ by cases h
  parentEvent := fun _ number call h ↦ by cases h

/-! ## After the run has been cancelled or closed -/

/-- The control goes down for good. -/
theorem down_step (hdown : s.control.down = true) (hstep : s.step B R l = some t) :
    t.control.down = true := by
  rw [down_iff] at hdown
  cases l with
  | start branch =>
      rw [Slot.step] at hstep
      split_ifs at hstep
      all_goals
        obtain rfl := Option.some.inj hstep
        exact down_iff.mpr hdown
  | finish branch =>
      rw [Slot.step] at hstep
      split_ifs at hstep
      obtain rfl := Option.some.inj hstep
      exact down_iff.mpr hdown
  | invoke number branch key path op clock =>
      rw [Slot.step] at hstep
      split_ifs at hstep
      obtain ⟨handle, -, rfl⟩ := Option.map_eq_some_iff.mp hstep
      exact down_iff.mpr hdown
  | check number =>
      rw [Slot.step] at hstep
      obtain ⟨call, -, hcheck⟩ := Option.bind_eq_some_iff.mp hstep
      have hcontrol : t.control = s.control := by
        rw [Slot.checkCall] at hcheck
        split at hcheck
        · obtain rfl := Option.some.inj hcheck
          split_ifs <;> rfl
        · obtain rfl := Option.some.inj hcheck
          split_ifs <;> rfl
        · obtain rfl := Option.some.inj hcheck
          split_ifs <;> rfl
        · cases hcheck
      rw [hcontrol]
      exact down_iff.mpr hdown
  | apply number =>
      rw [Slot.step] at hstep
      obtain ⟨call, -, happly⟩ := Option.bind_eq_some_iff.mp hstep
      split at happly
      · obtain rfl := Option.some.inj happly
        rw [control_applySection]
        exact down_iff.mpr hdown
      · cases happly
  | cancel =>
      obtain rfl := Option.some.inj hstep
      exact down_iff.mpr (.inr (.inl rfl))
  | cancelParent =>
      obtain rfl := Option.some.inj hstep
      exact down_iff.mpr (.inr (.inr rfl))
  | close =>
      obtain rfl := Option.some.inj hstep
      exact down_iff.mpr (.inl rfl)

/-- With the control down, no step of the slot writes. -/
theorem Held.stores_step (h : Held s) (hdown : s.control.down = true)
    (hstep : s.step B R l = some t) : t.contexts = s.contexts ∧ t.snapshots = s.snapshots := by
  cases l with
  | start branch =>
      rw [Slot.step] at hstep
      split_ifs at hstep
      all_goals
        obtain rfl := Option.some.inj hstep
        exact ⟨rfl, rfl⟩
  | finish branch =>
      rw [Slot.step] at hstep
      split_ifs at hstep
      obtain rfl := Option.some.inj hstep
      exact ⟨rfl, rfl⟩
  | invoke number branch key path op clock =>
      rw [Slot.step] at hstep
      split_ifs at hstep
      obtain ⟨handle, -, rfl⟩ := Option.map_eq_some_iff.mp hstep
      exact ⟨rfl, rfl⟩
  | check number =>
      rw [Slot.step] at hstep
      obtain ⟨call, -, hcheck⟩ := Option.bind_eq_some_iff.mp hstep
      rw [Slot.checkCall] at hcheck
      split at hcheck
      · obtain rfl := Option.some.inj hcheck
        split_ifs <;> exact ⟨rfl, rfl⟩
      · obtain rfl := Option.some.inj hcheck
        split_ifs <;> exact ⟨rfl, rfl⟩
      · obtain rfl := Option.some.inj hcheck
        split_ifs <;> exact ⟨rfl, rfl⟩
      · cases hcheck
  | apply number =>
      rw [Slot.step] at hstep
      obtain ⟨call, hcall, happly⟩ := Option.bind_eq_some_iff.mp hstep
      split at happly
      · next index hstage => exact absurd hstage (h.not_admitted hdown hcall index)
      · cases happly
  | cancel | cancelParent | close =>
      obtain rfl := Option.some.inj hstep
      exact ⟨rfl, rfl⟩

/-- **No late writes**, along every run in which the control goes down while no call is past its
check, and calls made afterwards go through the fence. -/
theorem no_late_writes (B : Backend V P C S) (R : Surroundings) (parentEvent : Bool)
    (contexts : ℕ → C) (snapshots : ℕ → S) (s t : Slot V P C S)
    (hreach : Machine.Reach (step B R) (Proper R) (initial parentEvent contexts snapshots) s)
    (hdown : s.control.down = true) (hlater : Machine.Reach (step B R) (Proper R) s t) :
    t.contexts = s.contexts ∧ t.snapshots = s.snapshots := by
  have hheld : Held s := hreach.invariant (held_initial parentEvent contexts snapshots)
    fun _ _ _ h hproper hstep ↦ h.step hproper hstep
  refine (hlater.invariant (I := fun t ↦ Held t ∧ t.control.down = true ∧
    t.contexts = s.contexts ∧ t.snapshots = s.snapshots) ⟨hheld, hdown, rfl, rfl⟩ ?_).2.2
  rintro u l v ⟨hheld, hdown, hcontexts, hsnapshots⟩ hproper hstep
  obtain ⟨hc, hs⟩ := hheld.stores_step hdown hstep
  exact ⟨hheld.step hproper hstep, down_step hdown hstep, hc.trans hcontexts, hs.trans hsnapshots⟩

end Slot

/-! ## A branch with a context store -/

/-- The context of the slot holds one context store. -/
def oneStore : Surroundings where
  context key := if key = "context_store" then some (.contextStore 0) else none
  getattr _ _ := none
  copies _ := true
  strict := true

def emptyContexts (_ : ℕ) : InMemoryContextStore Unit := ⟨none, fun _ ↦ none, fun _ ↦ none⟩

def emptySnapshots (_ : ℕ) : InMemorySnapshotStore Unit :=
  ⟨none, fun _ ↦ none, fun _ ↦ none, fun _ ↦ none, fun _ ↦ []⟩

/-- The slot over stores in memory, empty at first. -/
def emptySlot : Slot Unit Unit (InMemoryContextStore Unit) (InMemorySnapshotStore Unit) :=
  .initial false emptyContexts emptySnapshots

/-- The branch calls `context["context_store"]`. -/
def late (op : ContextOp Unit) : SlotStep Unit Unit :=
  .invoke 0 0 "context_store" [] (.context op) fun _ ↦ 0

/-- What the store of the slot has under a key. -/
def Slot.stored (s : Slot Unit Unit (InMemoryContextStore Unit) (InMemorySnapshotStore Unit))
    (key : String) : Option Unit :=
  (s.contexts 0).data key

theorem no_late_writes_set : ∃ s t,
    Machine.run (Slot.step inMemory oneStore) emptySlot [.start 0, .cancel] = some s ∧
      Machine.run (Slot.step inMemory oneStore) s [late (.set "late" () none), .check 0, .check 0] =
        some t ∧ t.contexts = s.contexts ∧ t.snapshots = s.snapshots := by
  refine ⟨_, _, rfl, rfl, Slot.no_late_writes inMemory oneStore false
    emptyContexts emptySnapshots _ _ ?_ rfl ?_⟩
  · exact (Machine.Reach.refl.tail (l := .start 0) trivial rfl).tail (l := .cancel)
      (by intro _ _ h; cases h) rfl
  · refine ((Machine.Reach.refl.tail (l := late (.set "late" () none)) ?_ rfl).tail
      (l := .check 0) trivial rfl).tail (l := .check 0) trivial rfl
    rintro - handle hhandle
    obtain rfl := Option.some.inj hhandle
    rfl

/-- `apply_patch` is not on the list, and `set` is not stopped once it has been let through. -/
theorem late_writes : (∃ s t,
    Machine.run (Slot.step inMemory oneStore) emptySlot [.start 0, .cancel] = some s ∧
      s.control.down = true ∧
      Machine.run (Slot.step inMemory oneStore) s
        [late (.applyPatch [("late", ())] [] none), .apply 0] = some t ∧
      s.stored "late" = none ∧ t.stored "late" = some ()) ∧
    ∃ s t, Machine.run (Slot.step inMemory oneStore) emptySlot
        [.start 0, late (.set "late" () none), .check 0, .check 0, .check 0, .cancel] = some s ∧
      s.control.down = true ∧
      Machine.run (Slot.step inMemory oneStore) s [.apply 0] = some t ∧
      s.stored "late" = none ∧ t.stored "late" = some () :=
  ⟨⟨_, _, rfl, rfl, rfl, rfl, rfl⟩, _, _, rfl, rfl, rfl, rfl, rfl⟩

end Blackbase.Kernel
