import Blackbase.Core.Machine
import Blackbase.Resources.Control.Laws
import Blackbase.Resources.Control.RedisCommands

/-!
# Retired controls

What the record of one control goes through while clients create, read, touch, request
and retire it, from when it is stored until it expires.

`ControlMachine` is what the results need of a store shared by many clients: its steps,
the record of the control in a state, and which steps are the return of a `request` that
is granted and of a `retire`.  On SQLite a step is a transaction, on Redis it is a single
command.
-/

namespace Blackbase.Resources

/-- What a store keeps of the life of a control. -/
structure ControlRecord where
  state : CancellationState
  retiredAt : Time
  expiresAt : Option Time
deriving DecidableEq

namespace ControlRecord

/-- The control has been retired. -/
def retired (r : ControlRecord) : Prop := 0 < r.retiredAt

instance (r : ControlRecord) : Decidable r.retired := inferInstanceAs (Decidable (_ < _))

/-- What a step makes of a record: only the first `request` on a control that is not
retired is granted, the state recorded is final, and only a `retire` touches a control that
is retired. -/
structure Becomes (grant retire : Prop) (r r' : ControlRecord) : Prop where
  granted : grant → r.state.requested = false ∧ ¬ r.retired ∧ r'.state.requested
  state : r.state.requested → r'.state = r.state
  retires : retire → r'.retired
  retired : r.retired → r'.retired
  still : r.retired → ¬ retire → r'.retiredAt = r.retiredAt ∧ r'.expiresAt = r.expiresAt

/-- A step that leaves a record alone. -/
theorem Becomes.same {grant retire : Prop} (hgrant : ¬ grant) (hretire : ¬ retire)
    (r : ControlRecord) : Becomes grant retire r r where
  granted h := absurd h hgrant
  state _ := rfl
  retires h := absurd h hretire
  retired h := h
  still _ _ := ⟨rfl, rfl⟩

/-- What a step makes of a control that may have a record, which does not expire. -/
inductive Goes (grant retire : Prop) : Option ControlRecord → Option ControlRecord → Prop
  | absent (r : Option ControlRecord) (h : ¬ grant) : Goes grant retire none r
  | becomes {r r' : ControlRecord} (h : Becomes grant retire r r') :
      Goes grant retire (some r) (some r')

end ControlRecord

/-- A store as its clients use it, and one control in it. -/
structure ControlMachine where
  State : Type
  Label : Type
  step : State → Label → Option State
  start : State
  record : State → Option ControlRecord
  /-- The control has a positive retention, and clocks are positive. -/
  proper : State → Label → Prop
  /-- The record of the control does not expire in the step. -/
  lives : State → Label → Prop
  /-- A `request` on the control returns true in the step. -/
  granted : State → Label → Prop
  /-- A `retire` of the control returns in the step. -/
  retires : State → Label → Prop
  /-- What holds of every state of a proper run. -/
  Inv : State → Prop

namespace ControlMachine

/-- The specification of such a store. -/
structure Lawful (M : ControlMachine) : Prop where
  inv_start : M.Inv M.start
  inv_step : ∀ s l t, M.Inv s → M.proper s l → M.step s l = some t → M.Inv t
  goes : ∀ s l t, M.Inv s → M.proper s l → M.lives s l → M.step s l = some t →
    ControlRecord.Goes (M.granted s l) (M.retires s l) (M.record s) (M.record t)

variable (M : ControlMachine)

/-- A step in the life of the control. -/
def InLife (s : M.State) (l : M.Label) : Prop := M.proper s l ∧ M.lives s l

/-- A run in the life of the control. -/
abbrev Life : M.State → M.State → Prop := Machine.Reach M.step M.InLife

/-- A retired control stays retired, from `s` on until its record expires. -/
structure StaysRetired (s : M.State) : Prop where
  /-- `request` returns true at most once. -/
  once : ∀ l t u l' v, M.InLife s l → M.step s l = some t → M.granted s l → M.Life t u →
    M.InLife u l' → M.step u l' = some v → ¬ M.granted u l'
  /-- What it has recorded does not change. -/
  recorded : ∀ l t u, M.InLife s l → M.step s l = some t → M.granted s l → M.Life t u →
    ∃ r r', M.record t = some r ∧ M.record u = some r' ∧ r.state.requested ∧ r'.state = r.state
  /-- After a `retire`, no other operation moves the expiry or clears `retired_at`, and no
  `request` returns true. -/
  retired : ∀ l t u l' v, M.InLife s l → M.step s l = some t → M.retires s l →
    M.record s ≠ none → M.Life t u → M.InLife u l' → M.step u l' = some v →
    ¬ M.granted u l' ∧ (¬ M.retires u l' → ∃ r r', M.record u = some r ∧ M.record v = some r' ∧
      r.retired ∧ r'.retiredAt = r.retiredAt ∧ r'.expiresAt = r.expiresAt)

variable {M} {s t u : M.State}

section Runs

variable (hM : M.Lawful)

include hM

/-- In the life of the control, a record that has been requested stays as it is. -/
theorem Lawful.requested_life (hs : M.Inv s) {r : ControlRecord} (hr : M.record s = some r)
    (hreq : r.state.requested) (h : M.Life s t) :
    M.Inv t ∧ ∃ r', M.record t = some r' ∧ r'.state = r.state := by
  refine h.invariant (I := fun t ↦ M.Inv t ∧ ∃ r', M.record t = some r' ∧ r'.state = r.state)
    ⟨hs, r, hr, rfl⟩ fun t l u ht hl hstep ↦ ?_
  obtain ⟨hinv, r₁, hr₁, hstate⟩ := ht
  have hgoes := hM.goes t l u hinv hl.1 hl.2 hstep
  rw [hr₁] at hgoes
  generalize hu : M.record u = ru at hgoes
  cases hgoes with
  | becomes h =>
      exact ⟨hM.inv_step t l u hinv hl.1 hstep, _, rfl, (h.state (hstate ▸ hreq)).trans hstate⟩

/-- In the life of the control, it stays retired. -/
theorem Lawful.retired_life (hs : M.Inv s) {r : ControlRecord} (hr : M.record s = some r)
    (hret : r.retired) (h : M.Life s t) :
    M.Inv t ∧ ∃ r', M.record t = some r' ∧ r'.retired := by
  refine h.invariant (I := fun t ↦ M.Inv t ∧ ∃ r', M.record t = some r' ∧ r'.retired)
    ⟨hs, r, hr, hret⟩ fun t l u ht hl hstep ↦ ?_
  obtain ⟨hinv, r₁, hr₁, hret₁⟩ := ht
  have hgoes := hM.goes t l u hinv hl.1 hl.2 hstep
  rw [hr₁] at hgoes
  generalize hu : M.record u = ru at hgoes
  cases hgoes with
  | becomes h => exact ⟨hM.inv_step t l u hinv hl.1 hstep, _, rfl, h.retired hret₁⟩

/-- A granted `request` leaves the record requested. -/
theorem Lawful.granted_record {l : M.Label} (hs : M.Inv s) (hl : M.InLife s l)
    (hstep : M.step s l = some t) (h : M.granted s l) :
    ∃ r, M.record t = some r ∧ r.state.requested := by
  have hgoes := hM.goes s l t hs hl.1 hl.2 hstep
  generalize M.record s = rs at hgoes
  generalize M.record t = rt at hgoes
  cases hgoes with
  | absent r hnot => exact absurd h hnot
  | becomes hb => exact ⟨_, rfl, (hb.granted h).2.2⟩

/-- A record that has been requested, or is retired, grants nothing more. -/
theorem Lawful.not_granted {l : M.Label} (hs : M.Inv s) (hl : M.InLife s l)
    (hstep : M.step s l = some t) {r : ControlRecord} (hr : M.record s = some r)
    (h : r.state.requested ∨ r.retired) : ¬ M.granted s l := by
  intro hgranted
  have hgoes := hM.goes s l t hs hl.1 hl.2 hstep
  rw [hr] at hgoes
  generalize M.record t = rt at hgoes
  cases hgoes with
  | becomes hb =>
      obtain ⟨hreq, hret, -⟩ := hb.granted hgranted
      rcases h with h | h
      · rw [hreq] at h
        cases h
      · exact hret h

/-- In a lawful store a retired control stays retired. -/
theorem Lawful.staysRetired (hs : M.Inv s) : M.StaysRetired s where
  once l t u l' v hl hstep hgranted hlife hl' hstep' := by
    obtain ⟨r, hr, hreq⟩ := hM.granted_record hs hl hstep hgranted
    obtain ⟨hu, r', hr', hstate⟩ :=
      hM.requested_life (hM.inv_step s l t hs hl.1 hstep) hr hreq hlife
    exact hM.not_granted hu hl' hstep' hr' (.inl (hstate ▸ hreq))
  recorded l t u hl hstep hgranted hlife := by
    obtain ⟨r, hr, hreq⟩ := hM.granted_record hs hl hstep hgranted
    obtain ⟨-, r', hr', hstate⟩ :=
      hM.requested_life (hM.inv_step s l t hs hl.1 hstep) hr hreq hlife
    exact ⟨r, r', hr, hr', hreq, hstate⟩
  retired l t u l' v hl hstep hretires hrecord hlife hl' hstep' := by
    obtain ⟨r₀, hr₀⟩ := Option.ne_none_iff_exists'.mp hrecord
    have hgoes := hM.goes s l t hs hl.1 hl.2 hstep
    rw [hr₀] at hgoes
    generalize ht : M.record t = rt at hgoes
    cases hgoes with
    | becomes hb =>
        obtain ⟨hu, r, hr, hret⟩ := hM.retired_life (hM.inv_step s l t hs hl.1 hstep) ht
          (hb.retires hretires) hlife
        refine ⟨hM.not_granted hu hl' hstep' hr (.inr hret), fun hother ↦ ?_⟩
        have hgoes' := hM.goes u l' v hu hl'.1 hl'.2 hstep'
        rw [hr] at hgoes'
        generalize hv : M.record v = rv at hgoes'
        cases hgoes' with
        | becomes hb' =>
            obtain ⟨hat, hexp⟩ := hb'.still hret hother
            exact ⟨r, _, hr, rfl, hret, hat, hexp⟩

end Runs

end ControlMachine

/-! ## SQLite -/

/-- The record in a row. -/
def ControlRow.record (row : ControlRow) : ControlRecord :=
  ⟨row.state, row.retiredAt, some row.expiresAt⟩

namespace ControlTable

open ControlRecord

/-- The record of the control with this key. -/
def record (t : ControlTable) (k : ControlKey) : Option ControlRecord :=
  (t k).map ControlRow.record

/-- A `request` on the control with this key returns true. -/
def Granted (k : ControlKey) (t : ControlTable) (l : ControlStep) : Prop :=
  l.call.isRequest ∧ l.ref.key = k ∧ (t.apply l).2 = .flag true

/-- A `retire` of the control with this key. -/
def Retires (k : ControlKey) (l : ControlStep) : Prop := l.call = .retire ∧ l.ref.key = k

/-- The record has not expired when the transaction purges. -/
def Lives (k : ControlKey) (t : ControlTable) (l : ControlStep) : Prop :=
  ∀ row, t k = some row → ¬ row.expired (l.clock 0)

variable {t u : ControlTable} {k : ControlKey} {l : ControlStep} {grant retire : Prop}

theorem purge_of_lives (h : Lives k t l) : t.purge (l.clock 0) k = t k := by
  unfold purge
  cases hrow : t k with
  | none => rfl
  | some row =>
      rw [Option.filter_some, if_pos]
      simpa using h row hrow

theorem goes_same (h : u k = t k) (hgrant : ¬ grant) (hretire : ¬ retire) :
    Goes grant retire (t.record k) (u.record k) := by
  unfold record
  rw [h]
  cases t k with
  | none => exact .absent _ hgrant
  | some row => exact .becomes (.same hgrant hretire _)

/-- Touching moves the expiry of rows that are not retired. -/
theorem Touches.goes {t' : ControlTable} (h : Touches t' u) (ht : t' k = t k) (hgrant : ¬ grant)
    (hretire : ¬ retire) : Goes grant retire (t.record k) (u.record k) := by
  rcases h k with hk | ⟨row, e, hrow, hret, hk⟩
  · exact goes_same (hk.trans ht) hgrant hretire
  · unfold record
    rw [hk, ← ht, hrow]
    refine .becomes ?_
    constructor
    · exact fun hg ↦ absurd hg hgrant
    · exact fun _ ↦ rfl
    · exact fun hr ↦ absurd hr hretire
    · exact fun hr ↦ hr
    · exact fun hr _ ↦ absurd hr (not_lt.mpr hret)

theorem goes_create {clock : ℕ → Time} {ref : CancellationRef} (ht : t.Wf)
    (hpurge : t.purge (clock 0) k = t k) (h : t.create ref clock = .ok u) (hgrant : ¬ grant)
    (hretire : ¬ retire) : Goes grant retire (t.record k) (u.record k) := by
  obtain ⟨row, hrow, -, rfl⟩ := create_ok ht h
  cases hkey : t.purge (clock 0) ref.key with
  | some row₀ =>
      obtain rfl : row = row₀ := by rw [hrow, hkey, Option.getD_some]
      exact (touches_refresh hkey _ _).goes hpurge hgrant hretire
  | none =>
      by_cases hk : k = ref.key
      · subst hk
        unfold record
        rw [← hpurge, hkey]
        exact .absent _ hgrant
      · exact goes_same (by rw [Function.update_of_ne hk, hpurge]) hgrant hretire

theorem goes_requestUpdate {reason : String} (hcall : l.call = .request reason)
    (hpurge : t.purge (l.clock 0) k = t k) :
    Goes (Granted k t l) (Retires k l) (t.record k)
      ((t.requestUpdate l.ref reason l.clock).2.record k) := by
  have hretire : ¬ Retires k l := fun h ↦ by simp [Retires, hcall] at h
  have happly : (t.apply l).2 = .flag (t.requestUpdate l.ref reason l.clock).1 := by
    simp only [apply, hcall]
  by_cases hk : l.ref.key = k
  · subst hk
    cases hrow : t l.ref.key with
    | none =>
        have hreq : t.requestUpdate l.ref reason l.clock = (false, t.purge (l.clock 0)) := by
          unfold requestUpdate
          dsimp only
          rw [hpurge, hrow]
        exact goes_same (by rw [hreq]; exact hpurge) (fun h ↦ by simp [happly, hreq, Granted] at h)
          hretire
    | some row =>
        by_cases hopen : row.state.requested = false ∧ row.retiredAt ≤ 0
        · have hreq : t.requestUpdate l.ref reason l.clock = (true, Function.update
              (t.purge (l.clock 0)) l.ref.key
              (some { row with state := requestedState reason (l.clock 1) })) := by
            unfold requestUpdate
            dsimp only
            rw [hpurge, hrow]
            exact if_pos hopen
          unfold record
          rw [hreq]
          dsimp only
          rw [Function.update_self, hrow]
          refine .becomes ?_
          constructor
          · exact fun _ ↦ ⟨hopen.1, not_lt.mpr hopen.2, rfl⟩
          · exact fun h ↦ by simp [ControlRow.record, hopen.1] at h
          · exact fun h ↦ absurd h hretire
          · exact fun h ↦ absurd h (not_lt.mpr hopen.2)
          · exact fun h _ ↦ absurd h (not_lt.mpr hopen.2)
        · have hreq : t.requestUpdate l.ref reason l.clock = (false, t.purge (l.clock 0)) := by
            unfold requestUpdate
            dsimp only
            rw [hpurge, hrow]
            exact if_neg hopen
          exact goes_same (by rw [hreq]; exact hpurge)
            (fun h ↦ by simp [happly, hreq, Granted] at h) hretire
  · refine goes_same ?_ (fun h ↦ hk h.2.1) hretire
    unfold requestUpdate
    dsimp only
    split
    · exact hpurge
    · split
      · dsimp only
        rw [Function.update_of_ne fun h ↦ hk h.symm, hpurge]
      · exact hpurge

theorem goes_retire (hcall : l.call = .retire)
    (hproper : l.ref.key = k → 0 < l.ref.retentionSeconds ∧ 0 < l.clock 0) :
    Goes (Granted k t l) (Retires k l) (t.record k) ((t.retire l.ref l.clock).record k) := by
  have hgrant : ¬ Granted k t l := fun h ↦ by simp [Granted, hcall, ControlCall.isRequest] at h
  by_cases hk : l.ref.key = k
  · obtain ⟨hretention, hclock⟩ := hproper hk
    subst hk
    unfold retire record
    rw [if_pos hretention]
    cases hrow : t l.ref.key with
    | none =>
        dsimp only
        rw [hrow]
        exact .absent _ hgrant
    | some row =>
        dsimp only
        rw [Function.update_self]
        refine .becomes ?_
        constructor
        · exact fun h ↦ absurd h hgrant
        · exact fun _ ↦ rfl
        · exact fun _ ↦ hclock
        · exact fun _ ↦ hclock
        · exact fun _ h ↦ absurd ⟨hcall, rfl⟩ h
  · refine goes_same ?_ hgrant fun h ↦ hk h.2
    unfold retire
    split
    · cases t l.ref.key with
      | none => rfl
      | some row => exact Function.update_of_ne (fun h ↦ hk h.symm) ..
    · exact Function.update_of_ne (fun h ↦ hk h.symm) ..

/-- What a transaction makes of a record that does not expire. -/
theorem goes_apply (ht : t.Wf) (hlives : Lives k t l)
    (hproper : l.call = .retire → l.ref.key = k → 0 < l.ref.retentionSeconds ∧ 0 < l.clock 0) :
    Goes (Granted k t l) (Retires k l) (t.record k) ((t.apply l).1.record k) := by
  have hpurge := purge_of_lives hlives
  have hgrant : l.call.isRequest = false → ¬ Granted k t l := fun hcall h ↦ by
    rw [h.1] at hcall
    cases hcall
  have hretire : l.call ≠ .retire → ¬ Retires k l := fun hcall h ↦ hcall h.1
  cases hcall : l.call with
  | create =>
      simp only [apply, hcall]
      split
      · exact goes_same rfl (hgrant (by rw [hcall]; rfl)) (hretire (by simp [hcall]))
      · next h =>
          exact goes_create ht hpurge h (hgrant (by rw [hcall]; rfl)) (hretire (by simp [hcall]))
  | read =>
      simp only [apply, hcall]
      cases h : (t.read l.ref l.clock).1 with
      | error e =>
          exact goes_same (by rw [read_error h]) (hgrant (by rw [hcall]; rfl))
            (hretire (by simp [hcall]))
      | ok found =>
          exact (touches_read h).goes hpurge (hgrant (by rw [hcall]; rfl))
            (hretire (by simp [hcall]))
  | request reason =>
      simp only [apply, hcall]
      exact goes_requestUpdate hcall hpurge
  | touch =>
      simp only [apply, hcall]
      exact touches_touch.goes hpurge (hgrant (by rw [hcall]; rfl)) (hretire (by simp [hcall]))
  | retire =>
      simp only [apply, hcall]
      exact goes_retire hcall (hproper hcall)
  | expire =>
      simp only [apply, hcall]
      exact goes_same hpurge (hgrant (by rw [hcall]; rfl)) (hretire (by simp [hcall]))

end ControlTable

/-- The SQLite store and the control with this key. -/
def sqliteMachine (k : ControlKey) : ControlMachine where
  State := ControlTable
  Label := ControlStep
  step t l := some (t.apply l).1
  start := .empty
  record t := t.record k
  proper _ l := l.call = .retire → l.ref.key = k → 0 < l.ref.retentionSeconds ∧ 0 < l.clock 0
  lives := ControlTable.Lives k
  granted := ControlTable.Granted k
  retires _ l := ControlTable.Retires k l
  Inv := ControlTable.Wf

theorem sqliteMachine_lawful (k : ControlKey) : (sqliteMachine k).Lawful where
  inv_start := sqliteStore_lawful.inv_empty
  inv_step t l u ht _ h := by
    obtain rfl := Option.some.inj h
    exact ControlTable.Wf.apply ht l
  goes t l u ht hproper hlives h := by
    obtain rfl := Option.some.inj h
    exact ControlTable.goes_apply ht hlives hproper

end Blackbase.Resources
