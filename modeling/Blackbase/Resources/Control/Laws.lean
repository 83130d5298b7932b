import Blackbase.Resources.Control.Views

/-!
# The three stores meet the specification

`inMemoryStore`, `sqliteStore` and `redisStore` instantiate `ControlStore` with the
methods of the source; for each, what one method does to a record comes first, and the
laws follow.
-/

namespace Blackbase.Resources

open ControlStore

theorem does_self (l : ControlStep) (id : String) (v : Option ControlView) : Does l id v v := by
  cases v with
  | none => exact .absent
  | some v => exact .kept (.same v)

/-! ## In memory -/

namespace InMemoryControls

/-- The record of a control. -/
def view (s : InMemoryControls) (ns id : String) : Option ControlView :=
  (s.states (ns, id)).map fun state ↦ ⟨(s.parents (ns, id)).getD none, state⟩

/-- A parent link belongs to a record, and only a control that was requested first has a
record without one. -/
structure Wf (s : InMemoryControls) : Prop where
  states : ∀ k, (s.parents k).isSome → (s.states k).isSome
  parents : ∀ k st, s.states k = some st → s.parents k = none → st.requested

/-- One call. -/
def apply (s : InMemoryControls) (l : ControlStep) : InMemoryControls × ControlReply :=
  match l.call with
  | .create => match s.create l.ref with
      | .error e => (s, .raised e)
      | .ok t => (t, .done)
  | .read => (s, .ofRead (s.read l.ref))
  | .request reason => ((s.request l.ref reason (l.clock 0)).2,
      .flag (s.request l.ref reason (l.clock 0)).1)
  | .touch => (s, .flag (s.touch l.ref))
  | .retire => (s.retire l.ref, .done)
  | .expire => (s, .done)

theorem wf_empty : empty.Wf := ⟨by simp [empty], by simp [empty]⟩

variable {s t : InMemoryControls} {ref : CancellationRef}

theorem create_ok (h : s.create ref = .ok t) :
    (s.parents ref.key = none ∨ s.parents ref.key = some ref.parentControlId) ∧
      t = ⟨Function.update s.states ref.key (some ((s.states ref.key).getD .initial)),
        Function.update s.parents ref.key (some ref.parentControlId)⟩ := by
  unfold create at h
  dsimp only at h
  cases hp : s.parents ref.key with
  | none =>
      rw [hp] at h
      exact ⟨.inl rfl, by simpa using h.symm⟩
  | some p =>
      rw [hp] at h
      by_cases hne : p = ref.parentControlId
      · exact ⟨.inr (congrArg some hne), by simpa [hne] using h.symm⟩
      · simp [hne] at h

theorem Wf.create (hs : s.Wf) (h : s.create ref = .ok t) : t.Wf := by
  obtain ⟨-, rfl⟩ := create_ok h
  constructor
  · intro k
    by_cases hk : k = ref.key
    · simp [hk]
    · simpa [Function.update_of_ne hk] using hs.states k
  · intro k st
    by_cases hk : k = ref.key
    · simp [hk]
    · simpa [Function.update_of_ne hk] using hs.parents k st

theorem Wf.request (hs : s.Wf) (reason : String) (now : Time) :
    (s.request ref reason now).2.Wf := by
  unfold InMemoryControls.request
  split
  · exact hs
  · constructor
    · intro k hk
      by_cases hkey : k = ref.key
      · simp [hkey]
      · simpa [Function.update_of_ne hkey] using hs.states k hk
    · intro k st hst hp
      by_cases hkey : k = ref.key
      · subst hkey
        simp only [Function.update_self, Option.some.injEq] at hst
        rw [← hst]
        rfl
      · simp only [Function.update_of_ne hkey] at hst
        exact hs.parents k st hst hp

theorem Wf.retire (hs : s.Wf) : (s.retire ref).Wf := by
  constructor
  · intro k
    by_cases hk : k = ref.key
    · simp [InMemoryControls.retire, hk]
    · simpa [InMemoryControls.retire, Function.update_of_ne hk] using hs.states k
  · intro k st
    by_cases hk : k = ref.key
    · simp [InMemoryControls.retire, hk]
    · simpa [InMemoryControls.retire, Function.update_of_ne hk] using hs.parents k st

theorem Wf.apply (hs : s.Wf) (l : ControlStep) : (s.apply l).1.Wf := by
  unfold InMemoryControls.apply
  split
  · split
    · exact hs
    · next h => exact hs.create h
  · exact hs
  · exact hs.request _ _
  · exact hs
  · exact hs.retire
  · exact hs

theorem look_eq (hs : s.Wf) (ns id : String) : s.look ns id = sightOf (s.view ns id) := by
  unfold look view
  cases hst : s.states (ns, id) with
  | some st => rfl
  | none =>
      have hp : s.parents (ns, id) = none := by
        rw [← Option.not_isSome_iff_eq_none]
        intro h
        have := hs.states _ h
        rw [hst] at this
        cases this
      simp [hp, sightOf, CancellationState.initial]

/-! ### What a call does to a record -/

theorem view_create (hs : s.Wf) (h : s.create ref = .ok t) {l : ControlStep} (hl : l.ref = ref)
    (hcall : l.call = .create) (id : String) : Does l id (s.view ref.ns id) (t.view ref.ns id) := by
  obtain ⟨hp, rfl⟩ := create_ok h
  by_cases hid : id = ref.controlId
  · subst hid
    have hkey : (ref.ns, ref.controlId) = ref.key := rfl
    cases hst : s.states ref.key with
    | none =>
        simp only [view, hkey, hst, Option.map_none, Function.update_self, Option.getD_none,
          Option.map_some, Option.getD_some]
        exact .made (by rw [hl]) (hl ▸ .fresh hcall)
    | some st =>
        simp only [view, hkey, hst, Function.update_self, Option.getD_some, Option.map_some]
        rcases hp with hp | hp
        · have := hs.parents _ _ hst hp
          rw [hp]
          exact .kept (.linked ⟨none, st⟩ _ this)
        · rw [hp]
          exact .kept (.same _)
  · have hkey : (ref.ns, id) ≠ ref.key := fun h ↦ hid (Prod.mk.inj h).2
    simp only [view, Function.update_of_ne hkey]
    cases s.states (ref.ns, id) with
    | none => exact .absent
    | some st => exact .kept (.same _)

theorem view_request (l : ControlStep) (hl : l.ref = ref) (reason : String)
    (hcall : l.call = .request reason) (now : Time) (id : String) :
    Does l id (s.view ref.ns id) ((s.request ref reason now).2.view ref.ns id) := by
  unfold request
  split
  · exact does_self _ _ _
  · next hreq =>
      by_cases hid : id = ref.controlId
      · subst hid
        have hkey : (ref.ns, ref.controlId) = ref.key := rfl
        cases hst : s.states ref.key with
        | none =>
            simp only [view, hkey, hst, Option.map_none, Function.update_self, Option.map_some]
            exact .made (by rw [hl]) (.requested _ _ (by rw [hcall]; rfl) rfl)
        | some st =>
            simp only [view, hkey, hst, Function.update_self, Option.map_some]
            rw [hst] at hreq
            exact .kept (.requested ⟨_, st⟩ _ (by rw [hcall]; rfl) (by simpa using hreq) rfl)
      · have hkey : (ref.ns, id) ≠ ref.key := fun h ↦ hid (Prod.mk.inj h).2
        simp only [view, Function.update_of_ne hkey]
        exact does_self _ _ _

theorem view_retire (l : ControlStep) (hl : l.ref = ref) (hcall : l.call = .retire)
    (id : String) : Does l id (s.view ref.ns id) ((s.retire ref).view ref.ns id) := by
  by_cases hid : id = ref.controlId
  · subst hid
    have hkey : (ref.ns, ref.controlId) = ref.key := rfl
    simp only [view, retire, hkey, Function.update_self, Option.map_none]
    exact .retired (by rw [hl]) hcall
  · have hkey : (ref.ns, id) ≠ ref.key := fun h ↦ hid (Prod.mk.inj h).2
    simp only [view, retire, Function.update_of_ne hkey]
    exact does_self _ _ _

theorem view_apply (hs : s.Wf) (l : ControlStep) (id : String)
    (hraised : ∀ e, (s.apply l).2 ≠ .raised e) :
    Does l id (s.view l.ref.ns id) ((s.apply l).1.view l.ref.ns id) := by
  cases hcall : l.call with
  | create =>
      cases h : s.create l.ref with
      | error e => exact absurd (by simp only [apply, hcall, h]) (hraised e)
      | ok t =>
          simp only [apply, hcall, h]
          exact view_create hs h rfl hcall id
  | request reason =>
      simp only [apply, hcall]
      exact view_request l rfl _ hcall _ id
  | retire =>
      simp only [apply, hcall]
      exact view_retire l rfl hcall id
  | read | touch | expire =>
      simp only [apply, hcall]
      exact does_self _ _ _

theorem apply_raised {l : ControlStep} {e : ControlError} (h : (s.apply l).2 = .raised e) :
    (s.apply l).1 = s := by
  cases hcall : l.call with
  | create =>
      simp only [apply, hcall] at h ⊢
      cases hc : s.create l.ref with
      | error e => rfl
      | ok t => simp [hc] at h
  | read =>
      simp only [apply, hcall]
  | request reason | touch | retire | expire => simp [apply, hcall] at h

theorem granted {l : ControlStep} {reason : String} (hcall : l.call = .request reason)
    (h : (s.apply l).2 = .flag true) :
    Requested ((s.apply l).1.view l.ref.ns l.ref.controlId) := by
  simp only [apply, hcall, ControlReply.flag.injEq] at h ⊢
  unfold request at h ⊢
  split at h
  · cases h
  · next hreq =>
      rw [if_neg hreq]
      simp [Requested, view, CancellationRef.key, requestedState]

theorem apply_read (hs : s.Wf) {l : ControlStep} (hcall : l.call = .read) :
    (s.apply l).2 = .ofRead (reported (Chain.chase (fun id ↦ sightOf (s.view l.ref.ns id)) []
      maxVisited l.ref.controlId)) := by
  have hlook : s.look l.ref.ns = fun id ↦ sightOf (s.view l.ref.ns id) :=
    funext fun id ↦ look_eq hs _ id
  simp only [apply, hcall, read, hlook]

end InMemoryControls

/-- `InMemoryCancellationStore`; its records do not expire. -/
def inMemoryStore : ControlStore where
  State := InMemoryControls
  empty := .empty
  expire s _ := s
  apply := InMemoryControls.apply
  view := InMemoryControls.view
  Inv := InMemoryControls.Wf

theorem inMemoryStore_lawful : inMemoryStore.Lawful where
  inv_empty := InMemoryControls.wf_empty
  inv_apply _ l hs := InMemoryControls.Wf.apply hs l
  view_empty _ _ := rfl
  view_expire _ _ _ _ := .inl rfl
  view_apply _ l id hs h := InMemoryControls.view_apply hs l id h
  view_raised _ l id _ _ h := .inl (congrArg
    (fun s : InMemoryControls ↦ s.view l.ref.ns id) (InMemoryControls.apply_raised h))
  granted _ _ _ _ hcall h := InMemoryControls.granted hcall h
  read _ _ hs hcall := InMemoryControls.apply_read hs hcall

/-! ## SQLite -/

namespace ControlTable

/-- The record of a control. -/
def view (t : ControlTable) (ns id : String) : Option ControlView :=
  (t (ns, id)).map fun row ↦ ⟨row.parentControlId, row.state⟩

/-- No row lacks its lineage. -/
def Wf (t : ControlTable) : Prop := ∀ k row, t k = some row → ¬ row.legacy

/-- The rows a call acts on: all but `retire` purge first. -/
def expire (t : ControlTable) (l : ControlStep) : ControlTable :=
  match l.call with
  | .retire => t
  | _ => t.purge (l.clock 0)

/-- One call. -/
def apply (t : ControlTable) (l : ControlStep) : ControlTable × ControlReply :=
  match l.call with
  | .create => match t.create l.ref l.clock with
      | .error e => (t, .raised e)
      | .ok t' => (t', .done)
  | .read => ((t.read l.ref l.clock).2, .ofRead (t.read l.ref l.clock).1)
  | .request reason => ((t.requestUpdate l.ref reason l.clock).2,
      .flag (t.requestUpdate l.ref reason l.clock).1)
  | .touch => ((t.touch l.ref l.clock).2, .flag (t.touch l.ref l.clock).1)
  | .retire => (t.retire l.ref l.clock, .done)
  | .expire => (t.purge (l.clock 0), .done)

variable {t t' u : ControlTable} {ref : CancellationRef}

/-! ### Touching rows -/

/-- The rows of `t'` are those of `t`, some of those not retired with their expiry moved. -/
def Touches (t t' : ControlTable) : Prop :=
  ∀ k, t' k = t k ∨
    ∃ row e, t k = some row ∧ row.retiredAt ≤ 0 ∧ t' k = some { row with expiresAt := e }

theorem Touches.refl (t : ControlTable) : Touches t t := fun _ ↦ .inl rfl

theorem Touches.trans (h : Touches t t') (h' : Touches t' u) : Touches t u := by
  intro k
  rcases h' k with hk' | ⟨row, e, hrow, hret, hk'⟩
  · rw [hk']
    exact h k
  · rcases h k with hk | ⟨row₀, e₀, hrow₀, hret₀, hk⟩
    · exact .inr ⟨row, e, hk ▸ hrow, hret, hk'⟩
    · rw [hk] at hrow
      obtain rfl := Option.some.inj hrow
      exact .inr ⟨row₀, e, hrow₀, hret₀, hk'⟩

theorem touches_refresh {k : ControlKey} {row : ControlRow} (hrow : t k = some row)
    (active : Bool) (e : Time) :
    Touches t (Function.update t k (some (row.refresh active e))) := by
  intro k'
  by_cases hk : k' = k
  · subst hk
    rw [Function.update_self]
    unfold ControlRow.refresh
    split
    · next h => exact .inr ⟨row, e, hrow, h.2, rfl⟩
    · exact .inl hrow.symm
  · exact .inl (Function.update_of_ne hk _ _)

theorem Touches.view_eq (h : Touches t t') (ns id : String) : t'.view ns id = t.view ns id := by
  unfold view
  rcases h (ns, id) with hk | ⟨row, e, hrow, -, hk⟩
  · rw [hk]
  · rw [hk, hrow]
    rfl

theorem Touches.wf (h : Touches t t') (ht : t.Wf) : t'.Wf := by
  intro k row hrow
  rcases h k with hk | ⟨row₀, e, hrow₀, -, hk⟩
  · exact ht k row (hk ▸ hrow)
  · rw [hk] at hrow
    obtain rfl := Option.some.inj hrow
    exact ht k row₀ hrow₀

theorem sight_eq (row : ControlRow) :
    row.sight = ControlView.sight ⟨row.parentControlId, row.state⟩ := rfl

theorem look_eq (t : ControlTable) (ns id : String) : t.look ns id = sightOf (t.view ns id) := by
  unfold look view
  cases t (ns, id) with
  | none => rfl
  | some row => exact sight_eq row

theorem Touches.look_eq (h : Touches t t') (ns : String) : t'.look ns = t.look ns := by
  funext id
  rw [ControlTable.look_eq, ControlTable.look_eq, h.view_eq]

/-- The loop of `read` touches rows. -/
theorem touches_readLoop (clock : ℕ → Time) (t : ControlTable) (visited : List String) (n : ℕ)
    (id : String) : Touches t (readLoop ref clock t visited n id).1 := by
  induction n generalizing t visited id with
  | zero => exact .refl t
  | succ n ih =>
      unfold readLoop
      split
      · exact .refl t
      · split
        · exact .refl t
        · next row hrow =>
            have htouch := touches_refresh hrow (decide (0 < ref.activeTtlSeconds))
              (activeExpiresAt ref (clock (visited.length + 1)))
            dsimp only
            split
            · exact htouch
            · exact htouch.trans (ih _ _ _)
            · exact htouch

/-- Touching the rows on the way does not change what the loop finds. -/
theorem readLoop_found (ref : CancellationRef) (clock : ℕ → Time) (t : ControlTable)
    (visited : List String) (n : ℕ) (id : String) :
    (readLoop ref clock t visited n id).2 = Chain.chase (t.look ref.ns) visited n id := by
  induction n generalizing t visited id with
  | zero => rfl
  | succ n ih =>
      unfold readLoop Chain.chase
      split
      · rfl
      · cases hrow : t (ref.ns, id) with
        | none => simp only [look, hrow]
        | some row =>
            have htouch := touches_refresh hrow (decide (0 < ref.activeTtlSeconds))
              (activeExpiresAt ref (clock (visited.length + 1)))
            simp only [look, hrow]
            cases row.sight with
            | answer state => rfl
            | dead => rfl
            | next parent =>
                dsimp only
                rw [ih, htouch.look_eq]

/-! ### What a call does to a record -/

theorem purge_eq (t : ControlTable) (now : Time) (k : ControlKey) :
    t.purge now k = t k ∨ t.purge now k = none := by
  unfold purge
  cases t k with
  | none => exact .inl rfl
  | some row =>
      rw [Option.filter_some]
      split
      · exact .inl rfl
      · exact .inr rfl

theorem Wf.purge (ht : t.Wf) (now : Time) : (t.purge now).Wf := by
  intro k row hrow
  rcases purge_eq t now k with h | h
  · exact ht k row (h ▸ hrow)
  · rw [h] at hrow
    cases hrow

theorem expire_eq (t : ControlTable) (l : ControlStep) (k : ControlKey) :
    t.expire l k = t k ∨ t.expire l k = none := by
  unfold expire
  cases l.call with
  | retire => exact .inl rfl
  | create | read | request reason | touch | expire => exact purge_eq t _ k

theorem fresh_not_legacy (ref : CancellationRef) (e : Time) : ¬ (ControlRow.fresh ref e).legacy := by
  rintro ⟨hroot | hroot, -⟩
  · cases hroot
  · exact ref.root_ne (Option.some.inj hroot)

/-- The row a successful `create` leaves behind. -/
theorem create_ok {clock : ℕ → Time} (ht : t.Wf) (h : t.create ref clock = .ok u) :
    ∃ row, row = ((t.purge (clock 0)) ref.key).getD
        (ControlRow.fresh ref (activeExpiresAt ref (clock 1))) ∧ row.lineage = ref.lineage ∧
      u = Function.update (t.purge (clock 0)) ref.key
        (some (row.refresh (0 < activeExpiresAt ref (clock 1)) (activeExpiresAt ref (clock 1)))) := by
  have hadopt : ControlRow.adopt ref (((t.purge (clock 0)) ref.key).getD
      (ControlRow.fresh ref (activeExpiresAt ref (clock 1)))) =
      ((t.purge (clock 0)) ref.key).getD
        (ControlRow.fresh ref (activeExpiresAt ref (clock 1))) := by
    refine if_neg ?_
    cases hrow : (t.purge (clock 0)) ref.key with
    | none => exact fresh_not_legacy ref _
    | some row => exact ht.purge _ _ row hrow
  unfold create at h
  dsimp only at h
  rw [hadopt] at h
  split at h
  · cases h
  · next hlin => exact ⟨_, rfl, not_not.mp hlin, (Except.ok.inj h).symm⟩

theorem refresh_eq (row : ControlRow) (active : Bool) (e : Time) :
    (row.refresh active e).parentControlId = row.parentControlId ∧
      (row.refresh active e).state = row.state ∧
      ((row.refresh active e).legacy ↔ row.legacy) := by
  unfold ControlRow.refresh
  split
  · exact ⟨rfl, rfl, Iff.rfl⟩
  · exact ⟨rfl, rfl, Iff.rfl⟩

theorem Wf.update {k : ControlKey} {row : ControlRow} (ht : t.Wf) (hrow : ¬ row.legacy) :
    Wf (Function.update t k (some row)) := by
  intro k' row' h
  by_cases hk : k' = k
  · subst hk
    rw [Function.update_self] at h
    exact Option.some.inj h ▸ hrow
  · rw [Function.update_of_ne hk] at h
    exact ht k' row' h

theorem Wf.create {clock : ℕ → Time} (ht : t.Wf) (h : t.create ref clock = .ok u) : u.Wf := by
  obtain ⟨row, hrow, -, rfl⟩ := create_ok ht h
  refine (ht.purge _).update ?_
  rw [(refresh_eq row _ _).2.2, hrow]
  cases hk : (t.purge (clock 0)) ref.key with
  | none => exact fresh_not_legacy ref _
  | some row => exact ht.purge _ _ row hk

theorem view_update_ne {id : String} (row : Option ControlRow) (h : id ≠ ref.controlId) :
    view (Function.update t ref.key row) ref.ns id = t.view ref.ns id := by
  have hkey : (ref.ns, id) ≠ ref.key := fun hk ↦ h (Prod.mk.inj hk).2
  simp only [view, Function.update_of_ne hkey]

theorem view_update_self {ns id : String} (row : Option ControlRow) :
    view (Function.update t (ns, id) row) ns id =
      row.map fun row ↦ ⟨row.parentControlId, row.state⟩ := by
  simp only [view, Function.update_self]

theorem view_create {clock : ℕ → Time} (ht : t.Wf) (h : t.create ref clock = .ok u)
    {l : ControlStep} (hl : l.ref = ref) (hcall : l.call = .create) (id : String) :
    Does l id ((t.purge (clock 0)).view ref.ns id) (u.view ref.ns id) := by
  obtain ⟨row, hrow, -, rfl⟩ := create_ok ht h
  by_cases hid : id = ref.controlId
  · subst hid
    rw [CancellationRef.key, view_update_self, Option.map_some, (refresh_eq row _ _).1,
      (refresh_eq row _ _).2.1]
    have hkey : (ref.ns, ref.controlId) = ref.key := rfl
    unfold view
    rw [hkey]
    cases hk : (t.purge (clock 0)) ref.key with
    | none =>
        rw [hk] at hrow
        rw [hrow]
        exact .made (by rw [hl]) (hl ▸ .fresh hcall)
    | some row₀ =>
        rw [hk] at hrow
        rw [hrow]
        exact .kept (.same _)
  · rw [view_update_ne _ hid]
    exact does_self _ _ _

theorem view_requestUpdate {clock : ℕ → Time} {reason : String} {l : ControlStep}
    (hcall : l.call = .request reason) (id : String) :
    Does l id ((t.purge (clock 0)).view ref.ns id)
      ((t.requestUpdate ref reason clock).2.view ref.ns id) := by
  unfold requestUpdate
  dsimp only
  split
  · exact does_self _ _ _
  · next row hrow =>
      split
      · next hreq =>
          by_cases hid : id = ref.controlId
          · subst hid
            rw [CancellationRef.key, view_update_self, Option.map_some]
            unfold view
            rw [show (ref.ns, ref.controlId) = ref.key from rfl, hrow]
            exact .kept (.requested ⟨_, row.state⟩ _ (by rw [hcall]; rfl) hreq.1 rfl)
          · rw [view_update_ne _ hid]
            exact does_self _ _ _
      · exact does_self _ _ _

theorem touches_touch {clock : ℕ → Time} : Touches (t.purge (clock 0)) (t.touch ref clock).2 := by
  unfold touch
  dsimp only
  split
  · exact .refl _
  · next row hrow =>
      split
      · exact touches_refresh hrow _ _
      · exact .refl _

theorem view_retire {clock : ℕ → Time} {l : ControlStep} (hl : l.ref = ref)
    (hcall : l.call = .retire) (id : String) :
    Does l id (t.view ref.ns id) ((t.retire ref clock).view ref.ns id) := by
  by_cases hid : id = ref.controlId
  · subst hid
    unfold retire
    split
    · split
      · exact does_self _ _ _
      · next row hrow =>
          rw [CancellationRef.key, view_update_self, Option.map_some]
          unfold view
          rw [show (ref.ns, ref.controlId) = ref.key from rfl, hrow]
          exact .kept (.same _)
    · rw [CancellationRef.key, view_update_self]
      exact .retired (by rw [hl]) hcall
  · unfold retire
    split
    · split
      · exact does_self _ _ _
      · rw [view_update_ne _ hid]
        exact does_self _ _ _
    · rw [view_update_ne _ hid]
      exact does_self _ _ _

/-- A `read` that does not raise touches the rows that have not expired. -/
theorem touches_read {clock : ℕ → Time} {found : CancellationState}
    (h : (t.read ref clock).1 = .ok found) : Touches (t.purge (clock 0)) (t.read ref clock).2 := by
  unfold read at h ⊢
  dsimp only at h ⊢
  split at h
  · cases h
  · exact touches_readLoop clock _ _ _ _

theorem read_error {clock : ℕ → Time} {e : ControlError}
    (h : (t.read ref clock).1 = .error e) : (t.read ref clock).2 = t := by
  unfold read at h ⊢
  dsimp only at h ⊢
  split at h
  · rfl
  · cases h

theorem read_found (clock : ℕ → Time) :
    (t.read ref clock).1 = reported (Chain.chase
      (fun id ↦ sightOf ((t.purge (clock 0)).view ref.ns id)) [] maxVisited ref.controlId) := by
  have hlook : (t.purge (clock 0)).look ref.ns =
      fun id ↦ sightOf ((t.purge (clock 0)).view ref.ns id) := funext fun id ↦ look_eq _ _ id
  have hfound := readLoop_found ref clock (t.purge (clock 0)) [] maxVisited ref.controlId
  rw [hlook] at hfound
  rw [← hfound]
  unfold read
  dsimp only
  split
  · next h => exact h.symm
  · next h => exact h.symm

theorem Wf.apply (ht : t.Wf) (l : ControlStep) : (t.apply l).1.Wf := by
  unfold ControlTable.apply
  split
  · split
    · exact ht
    · next h => exact ht.create h
  · cases h : (t.read l.ref l.clock).1 with
    | error e =>
        dsimp only
        rw [read_error h]
        exact ht
    | ok found => exact (touches_read h).wf (ht.purge _)
  · unfold requestUpdate
    dsimp only
    split
    · exact ht.purge _
    · next row hrow =>
        split
        · exact (ht.purge _).update (ht.purge _ _ row hrow)
        · exact ht.purge _
  · exact touches_touch.wf (ht.purge _)
  · unfold retire
    split
    · split
      · exact ht
      · next row hrow => exact ht.update (ht _ row hrow)
    · intro k row h
      by_cases hk : k = l.ref.key
      · subst hk
        simp at h
      · simp only [Function.update_of_ne hk] at h
        exact ht k row h
  · exact ht.purge _

theorem view_apply (ht : t.Wf) (l : ControlStep) (id : String)
    (hraised : ∀ e, (t.apply l).2 ≠ .raised e) :
    Does l id ((t.expire l).view l.ref.ns id) ((t.apply l).1.view l.ref.ns id) := by
  cases hcall : l.call with
  | create =>
      cases h : t.create l.ref l.clock with
      | error e => exact absurd (by simp only [apply, hcall, h]) (hraised e)
      | ok u =>
          simp only [apply, expire, hcall, h]
          exact view_create ht h rfl hcall id
  | read =>
      cases h : (t.read l.ref l.clock).1 with
      | error e => exact absurd (by simp only [apply, hcall, h, ControlReply.ofRead]) (hraised e)
      | ok found =>
          simp only [apply, expire, hcall, (touches_read h).view_eq]
          exact does_self _ _ _
  | request reason =>
      simp only [apply, expire, hcall]
      exact view_requestUpdate hcall id
  | touch =>
      simp only [apply, expire, hcall, touches_touch.view_eq]
      exact does_self _ _ _
  | retire =>
      simp only [apply, expire, hcall]
      exact view_retire rfl hcall id
  | expire =>
      simp only [apply, expire, hcall]
      exact does_self _ _ _

theorem apply_raised {l : ControlStep} {e : ControlError} (h : (t.apply l).2 = .raised e) :
    (t.apply l).1 = t := by
  cases hcall : l.call with
  | create =>
      simp only [apply, hcall] at h ⊢
      cases hc : t.create l.ref l.clock with
      | error e => rfl
      | ok t => simp [hc] at h
  | read =>
      simp only [apply, hcall] at h ⊢
      cases hc : (t.read l.ref l.clock).1 with
      | error e => exact read_error hc
      | ok found => simp [hc, ControlReply.ofRead] at h
  | request reason | touch | retire | expire => simp [apply, hcall] at h

theorem granted {l : ControlStep} {reason : String} (hcall : l.call = .request reason)
    (h : (t.apply l).2 = .flag true) :
    Requested ((t.apply l).1.view l.ref.ns l.ref.controlId) := by
  simp only [apply, hcall, ControlReply.flag.injEq] at h ⊢
  unfold requestUpdate at h ⊢
  dsimp only at h ⊢
  split at h
  · cases h
  · split at h
    · next hreq =>
        rw [if_pos hreq]
        simp [Requested, view, CancellationRef.key, requestedState]
    · cases h

theorem apply_read {l : ControlStep} (hcall : l.call = .read) :
    (t.apply l).2 = .ofRead (reported (Chain.chase
      (fun id ↦ sightOf ((t.expire l).view l.ref.ns id)) [] maxVisited l.ref.controlId)) := by
  simp only [apply, expire, hcall]
  rw [read_found]

end ControlTable

/-- `SQLiteCancellationStore`. -/
def sqliteStore : ControlStore where
  State := ControlTable
  empty := .empty
  expire := ControlTable.expire
  apply := ControlTable.apply
  view := ControlTable.view
  Inv := ControlTable.Wf

theorem sqliteStore_lawful : sqliteStore.Lawful where
  inv_empty := by
    intro k row h
    cases h
  inv_apply _ l ht := ControlTable.Wf.apply ht l
  view_empty _ _ := rfl
  view_expire t l ns id := by
    change (ControlTable.expire t l).view ns id = ControlTable.view t ns id ∨
      (ControlTable.expire t l).view ns id = none
    unfold ControlTable.view
    rcases ControlTable.expire_eq t l (ns, id) with h | h
    · exact .inl (by rw [h])
    · exact .inr (by rw [h, Option.map_none])
  view_apply _ l id ht h := ControlTable.view_apply ht l id h
  view_raised _ l id _ _ h := .inl (congrArg
    (fun t : ControlTable ↦ t.view l.ref.ns id) (ControlTable.apply_raised h))
  granted _ _ _ _ hcall h := ControlTable.granted hcall h
  read _ _ _ hcall := ControlTable.apply_read hcall

/-! ## Redis -/

theorem redisControlKey_inj {ns id id' : String} (h : redisControlKey ns id = redisControlKey ns id') :
    id = id' := by
  simpa [redisControlKey, String.append_assoc, String.append_right_inj, toString] using h

namespace RedisControls

/-- The record of a control. -/
def view (db : RedisControls) (ns id : String) : Option ControlView :=
  (db (redisControlKey ns id)).map fun e ↦ ⟨e.payload.parentControlId, e.payload.state⟩

/-- One call, on the keys that have not expired. -/
def apply (db : RedisControls) (l : ControlStep) : RedisControls × ControlReply :=
  let now := db.live l.server
  match l.call with
  | .create => match now.create l.ref l.server with
      | .error e => (now, .raised e)
      | .ok db' => (db', .done)
  | .read => ((now.read l.ref l.server).2, .ofRead (now.read l.ref l.server).1)
  | .request reason => match now.request l.ref reason (l.clock 0) l.server with
      | .error e => (now, .raised e)
      | .ok (granted, db') => (db', .flag granted)
  | .touch =>
      let out := now.touchKey (redisControlKey l.ref.ns l.ref.controlId) (redisTtl l.ref) l.server
      (out.2, .flag out.1)
  | .retire => (now.retire l.ref (l.clock 0) l.server, .done)
  | .expire => (now, .done)

variable {db db' : RedisControls} {ref : CancellationRef}

/-! ### Touching keys -/

/-- The keys of `db'` are those of `db`, some of those not retired with their expiry
moved. -/
def Touches (db db' : RedisControls) : Prop :=
  ∀ k, db' k = db k ∨
    ∃ e x, db k = some e ∧ e.payload.retiredAt ≤ 0 ∧ db' k = some { e with expiresAt := x }

theorem Touches.refl (db : RedisControls) : Touches db db := fun _ ↦ .inl rfl

theorem Touches.trans {db'' : RedisControls} (h : Touches db db') (h' : Touches db' db'') :
    Touches db db'' := by
  intro k
  rcases h' k with hk' | ⟨e, x, he, hret, hk'⟩
  · rw [hk']
    exact h k
  · rcases h k with hk | ⟨e₀, x₀, he₀, hret₀, hk⟩
    · exact .inr ⟨e, x, hk ▸ he, hret, hk'⟩
    · rw [hk] at he
      obtain rfl := Option.some.inj he
      exact .inr ⟨e₀, x, he₀, hret₀, hk'⟩

theorem touches_touchKey (db : RedisControls) (key : String) (ttl : Option ℤ) (server : Time) :
    Touches db (db.touchKey key ttl server).2 := by
  unfold touchKey
  split
  · exact .refl db
  · next e he =>
      split
      · exact .refl db
      · next hret =>
          split
          · exact .refl db
          · intro k
            by_cases hk : k = key
            · subst hk
              exact .inr ⟨e, _, he, not_lt.mp hret, Function.update_self _ _ _⟩
            · exact .inl (Function.update_of_ne hk _ _)

theorem Touches.view_eq (h : Touches db db') (ns id : String) : db'.view ns id = db.view ns id := by
  unfold view
  rcases h (redisControlKey ns id) with hk | ⟨e, x, he, -, hk⟩
  · rw [hk]
  · rw [hk, he]
    rfl

theorem look_eq (db : RedisControls) (ns id : String) : db.look ns id = sightOf (db.view ns id) := by
  unfold look view
  cases db (redisControlKey ns id) with
  | none => rfl
  | some e => rfl

theorem Touches.look_eq (h : Touches db db') (ns : String) : db'.look ns = db.look ns := by
  funext id
  rw [RedisControls.look_eq, RedisControls.look_eq, h.view_eq]

/-- The `_touch_key` of a `read`. -/
theorem touches_ite (p : Prop) [Decidable p] (key : String) (ttl : Option ℤ) (server : Time) :
    Touches db (if p then (db.touchKey key ttl server).2 else db) := by
  split
  · exact touches_touchKey _ _ _ _
  · exact .refl db

theorem touches_readLoop (server : Time) (db : RedisControls) (visited : List String) (n : ℕ)
    (id : String) : Touches db (readLoop ref server db visited n id).1 := by
  induction n generalizing db visited id with
  | zero => exact .refl db
  | succ n ih =>
      unfold readLoop
      split
      · exact .refl db
      · split
        · exact .refl db
        · next e he =>
            dsimp only
            split
            · exact touches_ite _ _ _ _
            · exact (touches_ite _ _ _ _).trans (ih _ _ _)
            · exact touches_ite _ _ _ _

theorem readLoop_found (server : Time) (db : RedisControls) (visited : List String) (n : ℕ)
    (id : String) :
    (readLoop ref server db visited n id).2 = Chain.chase (db.look ref.ns) visited n id := by
  induction n generalizing db visited id with
  | zero => rfl
  | succ n ih =>
      unfold readLoop Chain.chase
      split
      · rfl
      · cases he : db (redisControlKey ref.ns id) with
        | none => simp only [look, he]
        | some e =>
            simp only [look, he]
            cases e.payload.sight with
            | answer state => rfl
            | dead => rfl
            | next parent =>
                dsimp only
                rw [ih, (touches_ite _ _ _ _).look_eq]

/-! ### What a call does to a record -/

theorem live_eq (db : RedisControls) (server : Time) (k : String) :
    db.live server k = db k ∨ db.live server k = none := by
  unfold live
  cases db k with
  | none => exact .inl rfl
  | some e =>
      rw [Option.filter_some]
      split
      · exact .inl rfl
      · exact .inr rfl

theorem view_live (db : RedisControls) (server : Time) (ns id : String) :
    (db.live server).view ns id = db.view ns id ∨ (db.live server).view ns id = none := by
  unfold view
  rcases live_eq db server (redisControlKey ns id) with h | h
  · exact .inl (by rw [h])
  · exact .inr (by rw [h, Option.map_none])

theorem view_update_ne {id : String} (e : Option RedisEntry) (h : id ≠ ref.controlId) :
    view (Function.update db (redisControlKey ref.ns ref.controlId) e) ref.ns id =
      db.view ref.ns id := by
  have hkey : redisControlKey ref.ns id ≠ redisControlKey ref.ns ref.controlId :=
    fun hk ↦ h (redisControlKey_inj hk)
  simp only [view, Function.update_of_ne hkey]

theorem view_update_self {ns id : String} (e : Option RedisEntry) :
    view (Function.update db (redisControlKey ns id) e) ns id =
      e.map fun e ↦ ⟨e.payload.parentControlId, e.payload.state⟩ := by
  simp only [view, Function.update_self]

theorem view_eq_some {e : RedisEntry} (he : db (redisControlKey ref.ns ref.controlId) = some e) :
    db.view ref.ns ref.controlId = some ⟨e.payload.parentControlId, e.payload.state⟩ := by
  rw [view, he, Option.map_some]

/-- A successful `create`: the key is set anew, or it was set and is touched. -/
theorem create_ok {server : Time} (h : db.create ref server = .ok db') :
    db (redisControlKey ref.ns ref.controlId) = none ∧
        db' = Function.update db (redisControlKey ref.ns ref.controlId)
          (some ⟨.fresh ref, expiry server (redisTtl ref)⟩) ∨
      (∃ e, db (redisControlKey ref.ns ref.controlId) = some e) ∧ Touches db db' := by
  unfold create at h
  dsimp only at h
  cases he : db (redisControlKey ref.ns ref.controlId) with
  | none =>
      rw [he] at h
      exact .inl ⟨rfl, (Except.ok.inj h).symm⟩
  | some e =>
      rw [he] at h
      refine .inr ⟨⟨e, rfl⟩, ?_⟩
      dsimp only at h
      split at h
      · cases h
      · split at h
        · exact Except.ok.inj h ▸ touches_touchKey _ _ _ _
        · exact Except.ok.inj h ▸ .refl db

theorem view_create {server : Time} (h : db.create ref server = .ok db') {l : ControlStep}
    (hl : l.ref = ref) (hcall : l.call = .create) (id : String) :
    Does l id (db.view ref.ns id) (db'.view ref.ns id) := by
  rcases create_ok h with ⟨hnone, rfl⟩ | ⟨-, htouch⟩
  · by_cases hid : id = ref.controlId
    · subst hid
      rw [view_update_self, view, hnone]
      exact .made (by rw [hl]) (hl ▸ .fresh hcall)
    · rw [view_update_ne _ hid]
      exact does_self _ _ _
  · rw [htouch.view_eq]
    exact does_self _ _ _

/-- A `request` after its `create`: it leaves the keys as they are, or it records the
request. -/
theorem request_ok {reason : String} {now server : Time} {granted : Bool}
    (h : db.request ref reason now server = .ok (granted, db')) :
    ∃ created, db.create ref server = .ok created ∧ (db' = created ∨
      ∃ e, created (redisControlKey ref.ns ref.controlId) = some e ∧
        e.payload.state.requested = false ∧
        db' = Function.update created (redisControlKey ref.ns ref.controlId)
          (some ⟨{ e.payload with state := requestedState reason now },
            expiry server (redisTtl ref)⟩)) := by
  unfold request at h
  cases hc : db.create ref server with
  | error e => simp [hc] at h
  | ok created =>
      refine ⟨created, rfl, ?_⟩
      simp only [hc] at h
      cases he : created (redisControlKey ref.ns ref.controlId) with
      | none =>
          simp only [he, Except.ok.injEq, Prod.mk.injEq] at h
          exact .inl h.2.symm
      | some e =>
          simp only [he] at h
          split at h
          · simp only [Except.ok.injEq, Prod.mk.injEq] at h
            exact .inl h.2.symm
          · split at h
            · simp only [Except.ok.injEq, Prod.mk.injEq] at h
              exact .inl h.2.symm
            · next hreq =>
                simp only [Except.ok.injEq, Prod.mk.injEq] at h
                exact .inr ⟨e, rfl, by simpa using hreq, h.2.symm⟩

/-- A `request` on a control without a record stores it requested. -/
theorem request_fresh {reason : String} {now server : Time}
    (h : db (redisControlKey ref.ns ref.controlId) = none) :
    ∃ created, db.request ref reason now server = .ok (true,
      Function.update created (redisControlKey ref.ns ref.controlId)
        (some ⟨{ ControlPayload.fresh ref with state := requestedState reason now },
          expiry server (redisTtl ref)⟩)) ∧
      ∀ k ≠ redisControlKey ref.ns ref.controlId, created k = db k := by
  refine ⟨Function.update db (redisControlKey ref.ns ref.controlId)
    (some ⟨.fresh ref, expiry server (redisTtl ref)⟩), ?_, fun k hk ↦ Function.update_of_ne hk _ _⟩
  have hcreate : db.create ref server = .ok (Function.update db
      (redisControlKey ref.ns ref.controlId)
      (some ⟨.fresh ref, expiry server (redisTtl ref)⟩)) := by
    simp only [create, h]
  simp [request, hcreate, ControlPayload.fresh, CancellationState.initial]

theorem view_request {reason : String} {now server : Time} {granted : Bool}
    (h : db.request ref reason now server = .ok (granted, db')) {l : ControlStep}
    (hl : l.ref = ref) (hcall : l.call = .request reason) (id : String) :
    Does l id (db.view ref.ns id) (db'.view ref.ns id) := by
  have hrequest : l.call.isRequest := by rw [hcall]; rfl
  cases hkey : db (redisControlKey ref.ns ref.controlId) with
  | none =>
      obtain ⟨created, hreq, hother⟩ := request_fresh hkey
      rw [h] at hreq
      obtain ⟨rfl, rfl⟩ := Prod.mk.inj (Except.ok.inj hreq)
      by_cases hid : id = ref.controlId
      · subst hid
        rw [view_update_self, view, hkey]
        exact .made (by rw [hl]) (.requested _ _ hrequest rfl)
      · have hview : view created ref.ns id = db.view ref.ns id := by
          unfold view
          rw [hother _ fun hk ↦ hid (redisControlKey_inj hk)]
        rw [view_update_ne _ hid, hview]
        exact does_self _ _ _
  | some e₀ =>
      obtain ⟨created, hcreate, hdb'⟩ := request_ok h
      rcases create_ok hcreate with ⟨hnone, -⟩ | ⟨-, htouch⟩
      · rw [hkey] at hnone
        cases hnone
      · rcases hdb' with rfl | ⟨e, he, hreq, rfl⟩
        · rw [htouch.view_eq]
          exact does_self _ _ _
        · rw [← htouch.view_eq]
          by_cases hid : id = ref.controlId
          · subst hid
            rw [view_update_self, view_eq_some he]
            exact .kept (.requested ⟨_, e.payload.state⟩ _ hrequest hreq rfl)
          · rw [view_update_ne _ hid]
            exact does_self _ _ _

theorem request_granted {reason : String} {now server : Time}
    (h : db.request ref reason now server = .ok (true, db')) :
    Requested (db'.view ref.ns ref.controlId) := by
  unfold request at h
  cases hc : db.create ref server with
  | error e => simp [hc] at h
  | ok created =>
      simp only [hc] at h
      cases he : created (redisControlKey ref.ns ref.controlId) with
      | none => simp [he] at h
      | some e =>
          simp only [he] at h
          split at h
          · simp at h
          · split at h
            · simp at h
            · simp only [Except.ok.injEq, Prod.mk.injEq, true_and] at h
              rw [← h, view_update_self]
              exact ⟨_, rfl, rfl⟩

theorem view_retire {now server : Time} {l : ControlStep} (hl : l.ref = ref)
    (hcall : l.call = .retire) (id : String) :
    Does l id (db.view ref.ns id) ((db.retire ref now server).view ref.ns id) := by
  by_cases hid : id = ref.controlId
  · subst hid
    unfold retire
    dsimp only
    split
    · split
      · exact does_self _ _ _
      · next e he =>
          rw [view_update_self, view_eq_some he]
          exact .kept (.same _)
    · rw [view_update_self]
      exact .retired (by rw [hl]) hcall
  · unfold retire
    dsimp only
    split
    · split
      · exact does_self _ _ _
      · rw [view_update_ne _ hid]
        exact does_self _ _ _
    · rw [view_update_ne _ hid]
      exact does_self _ _ _

theorem read_found (server : Time) :
    (db.read ref server).1 = reported (Chain.chase (fun id ↦ sightOf (db.view ref.ns id)) []
      maxVisited ref.controlId) := by
  have hlook : db.look ref.ns = fun id ↦ sightOf (db.view ref.ns id) :=
    funext fun id ↦ look_eq _ _ id
  unfold read
  dsimp only
  rw [readLoop_found, hlook]

theorem view_apply (db : RedisControls) (l : ControlStep) (id : String) :
    Does l id ((db.live l.server).view l.ref.ns id) ((db.apply l).1.view l.ref.ns id) := by
  cases hcall : l.call with
  | create =>
      simp only [apply, hcall]
      cases h : (db.live l.server).create l.ref l.server with
      | error e => exact does_self _ _ _
      | ok db' => exact view_create h rfl hcall id
  | read =>
      simp only [apply, hcall, RedisControls.read, (touches_readLoop _ _ _ _ _).view_eq]
      exact does_self _ _ _
  | request reason =>
      simp only [apply, hcall]
      cases h : (db.live l.server).request l.ref reason (l.clock 0) l.server with
      | error e => exact does_self _ _ _
      | ok out => exact view_request h rfl hcall id
  | touch =>
      simp only [apply, hcall, (touches_touchKey _ _ _ _).view_eq]
      exact does_self _ _ _
  | retire =>
      simp only [apply, hcall]
      exact view_retire rfl hcall id
  | expire =>
      simp only [apply, hcall]
      exact does_self _ _ _

theorem apply_raised {l : ControlStep} {e : ControlError} (h : (db.apply l).2 = .raised e)
    (id : String) : (db.apply l).1.view l.ref.ns id = (db.live l.server).view l.ref.ns id := by
  cases hcall : l.call with
  | create =>
      simp only [apply, hcall] at h ⊢
      cases hc : (db.live l.server).create l.ref l.server with
      | error e => rfl
      | ok db' => simp [hc] at h
  | read =>
      simp only [apply, hcall, RedisControls.read, (touches_readLoop _ _ _ _ _).view_eq]
  | request reason =>
      simp only [apply, hcall] at h ⊢
      cases hc : (db.live l.server).request l.ref reason (l.clock 0) l.server with
      | error e => rfl
      | ok out => simp [hc] at h
  | touch | retire | expire => simp [apply, hcall] at h

theorem granted {l : ControlStep} {reason : String} (hcall : l.call = .request reason)
    (h : (db.apply l).2 = .flag true) :
    Requested ((db.apply l).1.view l.ref.ns l.ref.controlId) := by
  simp only [apply, hcall] at h ⊢
  cases hc : (db.live l.server).request l.ref reason (l.clock 0) l.server with
  | error e => simp [hc] at h
  | ok out =>
      obtain ⟨granted, db'⟩ := out
      simp only [hc, ControlReply.flag.injEq] at h
      exact request_granted (h ▸ hc)

theorem apply_read {l : ControlStep} (hcall : l.call = .read) :
    (db.apply l).2 = .ofRead (reported (Chain.chase
      (fun id ↦ sightOf ((db.live l.server).view l.ref.ns id)) [] maxVisited
      l.ref.controlId)) := by
  simp only [apply, hcall]
  rw [read_found]

end RedisControls

/-- `RedisCancellationStore`. -/
def redisStore : ControlStore where
  State := RedisControls
  empty := .empty
  expire db l := RedisControls.live db l.server
  apply := RedisControls.apply
  view := RedisControls.view
  Inv := fun _ ↦ True

theorem redisStore_lawful : redisStore.Lawful where
  inv_empty := trivial
  inv_apply _ _ _ := trivial
  view_empty _ _ := rfl
  view_expire db l ns id := RedisControls.view_live db l.server ns id
  view_apply db l id _ _ := RedisControls.view_apply db l id
  view_raised db l id e _ h := by
    rcases RedisControls.view_live db l.server l.ref.ns id with hlive | hlive
    · exact .inl ((RedisControls.apply_raised h id).trans hlive)
    · exact .inr ⟨(RedisControls.apply_raised h id).trans hlive, hlive⟩
  granted _ _ _ _ hcall h := RedisControls.granted hcall h
  read _ _ _ hcall := RedisControls.apply_read hcall

/-- `build_cancellation_store`: the store a backend stands for. -/
def storeOf : ControlBackend → ControlStore
  | .memory => inMemoryStore
  | .sqlite => sqliteStore
  | .redis => redisStore

theorem storeOf_lawful (b : ControlBackend) : (storeOf b).Lawful := by
  cases b with
  | memory => exact inMemoryStore_lawful
  | sqlite => exact sqliteStore_lawful
  | redis => exact redisStore_lawful

end Blackbase.Resources
