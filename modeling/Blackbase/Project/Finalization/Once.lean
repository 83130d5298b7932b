import Blackbase.Project.Finalization.Threads

/-!
# One finalization of a run

Whether the finalization is already committed is read off two fields: the transaction, which
the seal makes inactive, and the committed refs, which are written after the seal and outside
the lock it holds, and which are empty after an empty commit.  A run seals at most one
transaction, and begins and hands out nothing afterwards, if no call looks at the two fields
while they say that nothing was committed although it was, and if the seal comes while no other
call is between its look and what it does about it.
-/

namespace Blackbase.Project

open Resources Resources.Artifacts

/-- A transaction is sealed. -/
def FinalizationEvent.isSeal : FinalizationEvent → Bool
  | sealed _ => true
  | _ => false

/-- Nothing happens after a transaction has been sealed. -/
def Once (history : List FinalizationEvent) : Prop :=
  ∀ later t earlier, history = later ++ .sealed t :: earlier → later = []

/-- A transaction has been sealed. -/
def HasSealed (history : List FinalizationEvent) : Prop := ∃ e ∈ history, e.isSeal

instance (history : List FinalizationEvent) : Decidable (HasSealed history) :=
  inferInstanceAs (Decidable (∃ e ∈ history, _))

theorem once_nil : Once [] := fun later t earlier h ↦ by
  simp at h

/-- What happens while nothing has been sealed. -/
theorem once_cons {history : List FinalizationEvent} (e : FinalizationEvent)
    (h : ¬ HasSealed history) : Once (e :: history) := by
  intro later t earlier heq
  cases later with
  | nil => rfl
  | cons a later =>
      obtain ⟨-, hrest⟩ := List.cons.inj heq
      exact absurd ⟨.sealed t, by rw [hrest]; simp, rfl⟩ h

/-- Only the last thing that happened can be a seal. -/
theorem Once.tail {history : List FinalizationEvent} (h : Once history) :
    ∀ e ∈ history.tail, e.isSeal = false := by
  intro e he
  cases history with
  | nil => cases he
  | cons a rest =>
      obtain ⟨later, earlier, rfl⟩ := List.append_of_mem he
      cases e with
      | sealed t => exact absurd (h (a :: later) t earlier rfl) (List.cons_ne_nil a later)
      | _ => rfl

/-! ## Calls on their way -/

namespace FinalizationPc

/-- The call has found no finalization transaction, or it has found its own active, and goes
on to what it does about it. -/
def midway : FinalizationPc → Bool
  | beginCreate _ => true
  | beginInstall _ _ => true
  | checkPrepared _ _ => true
  | reserve _ _ => true
  | checkpoint _ _ => true
  | store _ _ => true
  | attach _ _ => true
  | stage _ _ => true
  | recheck _ _ => true
  | stagedEvent _ _ => true
  | _ => false

/-- The transaction a call publishes into or seals. -/
def holds : FinalizationPc → Option ℕ
  | checkActive _ t => some t
  | checkPrepared _ t => some t
  | reserve _ t => some t
  | checkpoint _ t => some t
  | store _ t => some t
  | attach _ t => some t
  | stage _ t => some t
  | recheck _ t => some t
  | stagedEvent _ t => some t
  | sealCheck t => some t
  | sealCheckpoint t => some t
  | sealLocked t => some t
  | _ => none

/-- The step looks whether the finalization is committed and finds nothing. -/
def findsNothing (s : CaseRuntime) : FinalizationPc → Prop
  | beginLook _ => s.current = none ∧ s.committedRefs.entries = []
  | _ => False

instance (s : CaseRuntime) (pc : FinalizationPc) : Decidable (pc.findsNothing s) := by
  cases pc <;> unfold findsNothing <;> infer_instance

/-- The transaction the step seals. -/
def seals (m : Instant) (s : CaseRuntime) : FinalizationPc → Option ℕ
  | sealLocked t =>
      if s.conflicts t = [] ∧ s.isActive t ∧ s.hasPublisher ∧ m.fault = none then some t else none
  | _ => none

end FinalizationPc

namespace FinalizationState

/-- The step does not look at an outcome that is not written down, and does not seal while
another call is midway. -/
def InOrder (s : FinalizationState) : FinalizationAction → Prop
  | .call _ => True
  | .step i m => ∀ pc ∈ s.threads[i]?,
      (pc.findsNothing s.runtime → ¬ HasSealed s.history) ∧
        (pc.seals m s.runtime ≠ none → ∀ other ∈ s.threads, other.midway = false)

instance (s : FinalizationState) (l : FinalizationAction) : Decidable (s.InOrder l) := by
  cases l with
  | call c => exact inferInstanceAs (Decidable True)
  | step i m => exact inferInstanceAs (Decidable (∀ pc ∈ s.threads[i]?, _))

end FinalizationState

/-! ## The runtime under a step -/

namespace CaseRuntime

variable {s : CaseRuntime}

theorem current_eq_some {t : ℕ} : s.current = some t ↔ s.finalization = some t ∧ s.isActive t := by
  unfold current
  rw [Option.filter_eq_some_iff]

theorem isActive_modify_of_ne {t u : ℕ} {f : ArtifactPublicationTransaction → _} (h : u ≠ t) :
    (s.modify t f).isActive u = s.isActive u := by
  simp [isActive, modify, h.symm]

/-- What is done to a transaction does not open it again. -/
theorem isActive_of_modify {t u : ℕ} {f : ArtifactPublicationTransaction → _}
    (hf : ∀ x, (f x).active → x.active) (h : (s.modify t f).isActive u) : s.isActive u := by
  by_cases hu : u = t
  · subst hu
    simp only [isActive, modify, List.getElem?_modify_eq] at h ⊢
    cases hx : s.transactions[u]? with
    | none => simp [hx] at h
    | some x =>
        simp only [hx, Option.any_some] at h ⊢
        exact hf x h
  · rwa [isActive_modify_of_ne hu] at h

theorem not_isActive_sealed (t : ℕ) (receipts : Dict ArtifactPublicationReceipt) :
    (s.sealed t receipts).isActive t = false := by
  cases hx : s.transactions[t]? <;> simp [isActive, sealed, modify, hx]

/-- How the runtime goes on: transactions are not opened again, and the finalization
transaction is not replaced while it is active. -/
structure Follows (s s' : CaseRuntime) : Prop where
  length : s.transactions.length ≤ s'.transactions.length
  active : ∀ t < s.transactions.length, s'.isActive t → s.isActive t
  finalization : s'.finalization = s.finalization ∨ s.current = none

theorem Follows.refl (s : CaseRuntime) : Follows s s := ⟨le_rfl, fun _ _ h ↦ h, .inl rfl⟩

theorem follows_modify (s : CaseRuntime) (t : ℕ) {f : ArtifactPublicationTransaction → _}
    (hf : ∀ x, (f x).active → x.active) : Follows s (s.modify t f) where
  length := by simp [modify]
  active _ _ h := isActive_of_modify hf h
  finalization := .inl rfl

theorem follows_close (s : CaseRuntime) (t : ℕ) : Follows s (s.close t) where
  length := by simp [close, modify]
  active u _ h := isActive_of_modify (t := t) (f := fun x ↦ { x with active := false })
    (fun x hx ↦ by cases hx) h
  finalization := .inl rfl

theorem follows_sealed (s : CaseRuntime) (t : ℕ) (receipts : Dict ArtifactPublicationReceipt) :
    Follows s ((s.prepare t).sealed t receipts) where
  length := by simp [sealed, prepare, modify]
  active u _ h := by
    refine isActive_of_modify (t := t) (f := fun x ↦ { x with prepared := true })
      (fun x hx ↦ hx) ?_
    exact isActive_of_modify (t := t)
      (f := fun x ↦ { x with receipts := receipts, active := false }) (fun x hx ↦ by cases hx) h
  finalization := .inl rfl

theorem follows_create (s : CaseRuntime) (label : String) : Follows s (s.create label) where
  length := by simp [create]
  active t ht h := by
    simpa [isActive, create, List.getElem?_append_left ht] using h
  finalization := .inl rfl

/-- Without a change of the finalization transaction there is none afterwards either. -/
theorem Follows.current_eq_none {s' : CaseRuntime} (h : Follows s s')
    (hfin : s'.finalization = s.finalization)
    (hlt : ∀ t, s.finalization = some t → t < s.transactions.length) (hnone : s.current = none) :
    s'.current = none := by
  rw [Option.eq_none_iff_forall_ne_some]
  intro t ht
  obtain ⟨hf, ha⟩ := current_eq_some.mp ht
  rw [hfin] at hf
  have : s.current = some t := current_eq_some.mpr ⟨hf, h.active t (hlt t hf) ha⟩
  rw [hnone] at this
  cases this

end CaseRuntime

/-! ## What is known of a call -/

namespace FinalizationPc

/-- The transaction a call holds is the finalization transaction for as long as it is active. -/
structure Known (s : CaseRuntime) (pc : FinalizationPc) : Prop where
  holds : ∀ t, pc.holds = some t →
    t < s.transactions.length ∧ (s.isActive t → s.finalization = some t)
  begun : ∀ goal t, pc = beginInstall goal t → t < s.transactions.length

theorem Known.follows {s s' : CaseRuntime} {pc : FinalizationPc} (h : pc.Known s)
    (hf : s.Follows s') : pc.Known s' where
  holds t ht := by
    obtain ⟨hlt, hfin⟩ := h.holds t ht
    refine ⟨hlt.trans_le hf.length, fun ha ↦ ?_⟩
    have ha' := hf.active t hlt ha
    rcases hf.finalization with heq | hnone
    · rw [heq]
      exact hfin ha'
    · have : s.current = some t := CaseRuntime.current_eq_some.mpr ⟨hfin ha', ha'⟩
      rw [hnone] at this
      cases this
  begun goal t ht := (h.begun goal t ht).trans_le hf.length

/-- A call that holds nothing. -/
theorem known_idle (s : CaseRuntime) {pc : FinalizationPc} (hholds : pc.holds = none)
    (hmidway : pc.midway = false) : pc.Known s where
  holds t ht := by
    rw [hholds] at ht
    cases ht
  begun goal t ht := by
    subst ht
    cases hmidway

/-- A call that has come to hold the finalization transaction. -/
theorem known_next {s : CaseRuntime} {t : ℕ} (hlt : t < s.transactions.length)
    (h : s.finalization = some t) (goal : BeginGoal) : (goal.next t).Known s := by
  cases goal with
  | begin label => exact known_idle s rfl rfl
  | publish call =>
      refine ⟨fun u hu ↦ ?_, fun goal u hu ↦ by cases hu⟩
      obtain rfl := Option.some.inj hu
      exact ⟨hlt, fun _ ↦ h⟩

theorem known_create (s : CaseRuntime) (goal : BeginGoal) : (beginCreate goal).Known s where
  holds t ht := by cases ht
  begun g t ht := by cases ht

theorem known_install {s : CaseRuntime} {t : ℕ} (goal : BeginGoal)
    (hlt : t < s.transactions.length) : (beginInstall goal t).Known s where
  holds u hu := by cases hu
  begun g u hu := by
    cases hu
    exact hlt

theorem known_seal {s : CaseRuntime} {t : ℕ} (hlt : t < s.transactions.length)
    (h : s.finalization = some t) : (sealCheck t).Known s where
  holds u hu := by
    cases hu
    exact ⟨hlt, fun _ ↦ h⟩
  begun g u hu := by cases hu

/-- A call goes on holding what it held. -/
theorem Known.same {s : CaseRuntime} {pc pc' : FinalizationPc} (h : pc.Known s)
    (hholds : pc'.holds = pc.holds) (hbegin : ∀ goal t, pc' ≠ beginInstall goal t) :
    pc'.Known s where
  holds t ht := h.holds t (hholds ▸ ht)
  begun goal t ht := absurd ht (hbegin goal t)

theorem holds_next (t : ℕ) (after : AfterAbort) :
    (after.next t).holds = none ∧ (after.next t).midway = false := by
  cases after <;> exact ⟨rfl, rfl⟩

theorem holds_raises (t : ℕ) (exc : Exn) (after : AfterAbort) :
    (after.raises t exc).holds = none ∧ (after.raises t exc).midway = false := by
  cases after <;> exact ⟨rfl, rfl⟩

/-- What a step of a call comes to. -/
structure Steps (sealedBefore : Prop) (s : CaseRuntime) (s' : CaseRuntime) (pc' : FinalizationPc)
    (events : List FinalizationEvent) (seals : Option ℕ) : Prop where
  follows : s.Follows s'
  known : pc'.Known s'
  lt : ∀ t, s'.finalization = some t → t < s'.transactions.length
  /-- Once a transaction has been sealed nothing more happens. -/
  after : sealedBefore → events = [] ∧ pc'.midway = false ∧ s'.current = none
  single : ∃ e, events = [] ∨ events = [e]
  closes : (∃ e ∈ events, e.isSeal) → seals ≠ none ∧ pc'.midway = false ∧ s'.current = none

/-- A step that leaves the finalization transaction where it is and shows nothing. -/
theorem Steps.silent {sealedBefore : Prop} {s s' : CaseRuntime} {pc' : FinalizationPc}
    {seals : Option ℕ} (hfollows : s.Follows s') (hfin : s'.finalization = s.finalization)
    (hknown : pc'.Known s') (hlt : ∀ t, s.finalization = some t → t < s.transactions.length)
    (hbefore : sealedBefore → s.current = none ∧ pc'.midway = false) :
    Steps sealedBefore s s' pc' [] seals where
  follows := hfollows
  known := hknown
  lt t ht := (hlt t (hfin ▸ ht)).trans_le hfollows.length
  after h := ⟨rfl, (hbefore h).2, hfollows.current_eq_none hfin hlt (hbefore h).1⟩
  single := ⟨.begun 0, .inl rfl⟩
  closes h := by simp at h

/-- A step on its way of a call that is midway. -/
theorem Steps.midway {sealedBefore : Prop} {s s' : CaseRuntime} {pc' : FinalizationPc}
    {seals : Option ℕ} {events : List FinalizationEvent} (hnot : ¬ sealedBefore)
    (hfollows : s.Follows s') (hlt : ∀ t, s'.finalization = some t → t < s'.transactions.length)
    (hknown : pc'.Known s') (hsingle : ∃ e, events = [] ∨ events = [e])
    (hquiet : ∀ e ∈ events, e.isSeal = false) : Steps sealedBefore s s' pc' events seals where
  follows := hfollows
  known := hknown
  lt := hlt
  after h := absurd h hnot
  single := hsingle
  closes h := by
    obtain ⟨e, he, hseal⟩ := h
    rw [hquiet e he] at hseal
    cases hseal

/-- **What one step of a call comes to.** -/
theorem step_spec {P : Publisher} {m : Instant} {sealedBefore : Prop} {s s' : CaseRuntime}
    {pc pc' : FinalizationPc} {events : List FinalizationEvent} (h : pc.Known s)
    (hlt : ∀ t, s.finalization = some t → t < s.transactions.length)
    (hbefore : sealedBefore → s.current = none ∧ pc.midway = false ∧ ¬ pc.findsNothing s)
    (hstep : pc.step P m s = some (s', pc', events)) :
    Steps sealedBefore s s' pc' events (pc.seals m s) := by
  have hcurrent : sealedBefore → s.current = none := fun hs ↦ (hbefore hs).1
  have hheld : sealedBefore → ∀ t, pc.holds = some t → s.isActive t = false := by
    intro hs t ht
    refine Bool.eq_false_iff.mpr fun ha ↦ ?_
    have : s.current = some t := CaseRuntime.current_eq_some.mpr ⟨(h.holds t ht).2 ha, ha⟩
    rw [hcurrent hs] at this
    cases this
  -- A call that is not midway afterwards and does not change the runtime.
  have hstay : ∀ pc', pc'.Known s → pc'.midway = false →
      Steps sealedBefore s s pc' [] (pc.seals m s) := fun pc' hknown hmid ↦
    .silent (.refl s) rfl hknown hlt fun hs ↦ ⟨hcurrent hs, hmid⟩
  have hidle : ∀ pc', pc'.holds = none → pc'.midway = false →
      Steps sealedBefore s s pc' [] (pc.seals m s) := fun pc' hholds hmid ↦
    hstay pc' (known_idle s hholds hmid) hmid
  -- A call that is midway goes on, and may change the transaction it holds.
  have hgo : ∀ s' pc', pc.midway → s.Follows s' → s'.finalization = s.finalization →
      pc'.Known s' → Steps sealedBefore s s' pc' [] (pc.seals m s) :=
    fun s' pc' hmid hfollows hfin hknown ↦
      .midway (fun hs ↦ by simp [(hbefore hs).2.1] at hmid) hfollows
        (fun t ht ↦ (hlt t (hfin ▸ ht)).trans_le hfollows.length) hknown ⟨.begun 0, .inl rfl⟩
        (by simp)
  cases pc with
  | publishStart call =>
      simp only [step, Option.some.injEq, Prod.mk.injEq] at hstep
      obtain ⟨rfl, rfl, rfl⟩ := hstep
      split_ifs
      · exact hidle _ rfl rfl
      · exact hidle _ rfl rfl
  | beginLook goal =>
      simp only [step, Option.some.injEq, Prod.mk.injEq] at hstep
      obtain ⟨rfl, rfl, rfl⟩ := hstep
      cases hc : s.current with
      | some t =>
          obtain ⟨hfin, hactive⟩ := CaseRuntime.current_eq_some.mp hc
          refine hstay _ (known_next (hlt t hfin) hfin goal) ?_
          cases goal <;> rfl
      | none =>
          dsimp only
          split_ifs with hrefs
          · exact hidle _ rfl rfl
          · have hnot : ¬ sealedBefore := fun hs ↦ (hbefore hs).2.2 ⟨hc, not_not.mp hrefs⟩
            exact .midway hnot (.refl s) hlt (known_create s goal) ⟨.begun 0, .inl rfl⟩ (by simp)
  | beginCreate goal =>
      simp only [step, Option.some.injEq, Prod.mk.injEq] at hstep
      obtain ⟨rfl, rfl, rfl⟩ := hstep
      have hnot : ¬ sealedBefore := fun hs ↦ by cases (hbefore hs).2.1
      refine .midway hnot (CaseRuntime.follows_create s _)
        (fun t ht ↦ (hlt t ht).trans_le (CaseRuntime.follows_create s goal.label).length) ?_
        ⟨_, .inr rfl⟩ (by simp [FinalizationEvent.isSeal])
      cases m.fault with
      | some exc => exact known_idle _ rfl rfl
      | none => exact known_install _ (by simp [CaseRuntime.create])
  | beginInstall goal t =>
      have hnot : ¬ sealedBefore := fun hs ↦ by cases (hbefore hs).2.1
      cases hc : s.current with
      | some c =>
          simp only [step, hc, Option.some.injEq, Prod.mk.injEq] at hstep
          obtain ⟨rfl, rfl, rfl⟩ := hstep
          obtain ⟨hfin, hactive⟩ := CaseRuntime.current_eq_some.mp hc
          have hfollows : s.Follows (if s.isActive t then s.close t else s) := by
            split_ifs
            · exact CaseRuntime.follows_close s t
            · exact .refl s
          have hfin' : (if s.isActive t then s.close t else s).finalization = s.finalization := by
            split_ifs
            · rfl
            · rfl
          have hnext := known_next ((hlt c hfin).trans_le hfollows.length) (hfin'.trans hfin) goal
          refine hgo _ _ rfl hfollows hfin' ?_
          cases m.fault with
          | some exc =>
              by_cases ha : s.isActive t
              · simp only [if_pos ha]
                exact known_idle _ rfl rfl
              · simp only [if_neg ha] at hnext ⊢
                exact hnext
          | none => exact hnext
      | none =>
          simp only [step, hc, Option.some.injEq, Prod.mk.injEq] at hstep
          obtain ⟨rfl, rfl, rfl⟩ := hstep
          have ht : t < (s.install t).transactions.length := h.begun goal t rfl
          refine .midway hnot ⟨le_rfl, fun _ _ h ↦ h, .inr hc⟩ ?_ (known_next ht rfl goal)
            ⟨.begun 0, .inl rfl⟩ (by simp)
          intro u hu
          obtain rfl := Option.some.inj hu
          exact ht
  | checkActive call t =>
      simp only [step, Option.some.injEq, Prod.mk.injEq] at hstep
      obtain ⟨rfl, rfl, rfl⟩ := hstep
      split_ifs with ha
      · have hnot : ¬ sealedBefore := fun hs ↦ by
          rw [hheld hs t rfl] at ha
          cases ha
        exact .midway hnot (.refl s) hlt (h.same rfl (by simp)) ⟨.begun 0, .inl rfl⟩ (by simp)
      · exact hidle _ rfl rfl
  | checkPrepared call t =>
      simp only [step, Option.some.injEq, Prod.mk.injEq] at hstep
      obtain ⟨rfl, rfl, rfl⟩ := hstep
      split_ifs
      · exact hgo _ _ rfl (.refl s) rfl (known_idle s rfl rfl)
      · exact hgo _ _ rfl (.refl s) rfl (known_idle s rfl rfl)
      · exact hgo _ _ rfl (.refl s) rfl (h.same rfl (by simp))
  | reserve call t =>
      simp only [step] at hstep
      split_ifs at hstep
      · simp only [Option.some.injEq, Prod.mk.injEq] at hstep
        obtain ⟨rfl, rfl, rfl⟩ := hstep
        exact hgo _ _ rfl (.refl s) rfl (known_idle s rfl rfl)
      · cases hfault : m.fault with
        | some exc =>
            simp only [hfault, Option.some.injEq, Prod.mk.injEq] at hstep
            obtain ⟨rfl, rfl, rfl⟩ := hstep
            exact hgo _ _ rfl (.refl s) rfl (known_idle s rfl rfl)
        | none =>
            simp only [hfault, Option.some.injEq, Prod.mk.injEq] at hstep
            obtain ⟨rfl, rfl, rfl⟩ := hstep
            have hfollows : s.Follows (s.reserve t call.artifactName) :=
              CaseRuntime.follows_modify s t fun x hx ↦ hx
            have hknown : (checkpoint call t).Known s := h.same rfl (by simp)
            exact hgo _ _ rfl hfollows rfl (hknown.follows hfollows)
  | checkpoint call t =>
      simp only [step, Option.some.injEq, Prod.mk.injEq] at hstep
      obtain ⟨rfl, rfl, rfl⟩ := hstep
      cases m.fault with
      | some exc => exact hgo _ _ rfl (.refl s) rfl (known_idle s rfl rfl)
      | none => exact hgo _ _ rfl (.refl s) rfl (h.same rfl (by simp))
  | store call t =>
      simp only [step, Option.some.injEq, Prod.mk.injEq] at hstep
      obtain ⟨rfl, rfl, rfl⟩ := hstep
      cases m.fault with
      | some exc => exact hgo _ _ rfl (.refl s) rfl (known_idle s rfl rfl)
      | none => exact hgo _ _ rfl (.refl s) rfl (h.same rfl (by simp))
  | attach call t =>
      simp only [step, Option.some.injEq, Prod.mk.injEq] at hstep
      obtain ⟨rfl, rfl, rfl⟩ := hstep
      cases m.fault with
      | some exc => exact hgo _ _ rfl (.refl s) rfl (known_idle s rfl rfl)
      | none => exact hgo _ _ rfl (.refl s) rfl (h.same rfl (by simp))
  | stage call t =>
      simp only [step, Option.some.injEq, Prod.mk.injEq] at hstep
      obtain ⟨rfl, rfl, rfl⟩ := hstep
      have hfollows : s.Follows (s.stage t call.artifactName (s.published t call)) :=
        CaseRuntime.follows_modify s t fun x hx ↦ hx
      have hknown : (recheck call t).Known s := h.same rfl (by simp)
      exact hgo _ _ rfl hfollows rfl (hknown.follows hfollows)
  | recheck call t =>
      simp only [step, Option.some.injEq, Prod.mk.injEq] at hstep
      obtain ⟨rfl, rfl, rfl⟩ := hstep
      cases m.fault with
      | some exc => exact hgo _ _ rfl (.refl s) rfl (known_idle s rfl rfl)
      | none => exact hgo _ _ rfl (.refl s) rfl (h.same rfl (by simp))
  | stagedEvent call t =>
      have hnot : ¬ sealedBefore := fun hs ↦ by cases (hbefore hs).2.1
      cases hfault : m.fault with
      | some exc =>
          simp only [step, hfault, Option.some.injEq, Prod.mk.injEq] at hstep
          obtain ⟨rfl, rfl, rfl⟩ := hstep
          exact hgo _ _ rfl (.refl s) rfl (known_idle s rfl rfl)
      | none =>
          simp only [step, hfault, Option.some.injEq, Prod.mk.injEq] at hstep
          obtain ⟨rfl, rfl, rfl⟩ := hstep
          exact .midway hnot (.refl s) hlt (known_idle s rfl rfl) ⟨_, .inr rfl⟩
            (by simp [FinalizationEvent.isSeal])
  | abortLook =>
      simp only [step, Option.some.injEq, Prod.mk.injEq] at hstep
      obtain ⟨rfl, rfl, rfl⟩ := hstep
      cases s.finalization with
      | some t => exact hidle _ rfl rfl
      | none => exact hidle _ rfl rfl
  | abortCheck t after =>
      simp only [step, Option.some.injEq, Prod.mk.injEq] at hstep
      obtain ⟨rfl, rfl, rfl⟩ := hstep
      split_ifs
      · exact hidle _ rfl rfl
      · exact hidle _ (holds_next t after).1 (holds_next t after).2
  | abortClose t after =>
      simp only [step, Option.some.injEq, Prod.mk.injEq] at hstep
      obtain ⟨rfl, rfl, rfl⟩ := hstep
      refine .silent (CaseRuntime.follows_close s t) rfl ?_ hlt fun hs ↦ ⟨hcurrent hs, ?_⟩
      · split_ifs
        · exact known_idle _ rfl rfl
        · exact known_idle _ rfl rfl
      · split_ifs
        · rfl
        · rfl
  | abortLedger t after =>
      simp only [step, Option.some.injEq, Prod.mk.injEq] at hstep
      obtain ⟨rfl, rfl, rfl⟩ := hstep
      cases m.fault with
      | some exc => exact hidle _ (holds_raises t exc after).1 (holds_raises t exc after).2
      | none => exact hidle _ rfl rfl
  | abortEvent t after =>
      simp only [step, Option.some.injEq, Prod.mk.injEq] at hstep
      obtain ⟨rfl, rfl, rfl⟩ := hstep
      cases m.fault with
      | some exc => exact hidle _ (holds_raises t exc after).1 (holds_raises t exc after).2
      | none => exact hidle _ (holds_next t after).1 (holds_next t after).2
  | commitLook =>
      simp only [step, Option.some.injEq, Prod.mk.injEq] at hstep
      obtain ⟨rfl, rfl, rfl⟩ := hstep
      cases hc : s.current with
      | some t =>
          obtain ⟨hfin, hactive⟩ := CaseRuntime.current_eq_some.mp hc
          exact hstay _ (known_seal (hlt t hfin) hfin) rfl
      | none => exact hidle _ rfl rfl
  | sealCheck t =>
      simp only [step, Option.some.injEq, Prod.mk.injEq] at hstep
      obtain ⟨rfl, rfl, rfl⟩ := hstep
      split_ifs
      · exact hstay _ (h.same rfl (by simp)) rfl
      · exact hidle _ rfl rfl
  | sealCheckpoint t =>
      simp only [step, Option.some.injEq, Prod.mk.injEq] at hstep
      obtain ⟨rfl, rfl, rfl⟩ := hstep
      cases m.fault with
      | some exc => exact hidle _ rfl rfl
      | none => exact hstay _ (h.same rfl (by simp)) rfl
  | sealLocked t =>
      have hprepare : ∀ exc, Steps sealedBefore s (s.prepare t) (raised exc) []
          ((sealLocked t).seals m s) := fun exc ↦
        .silent (CaseRuntime.follows_modify s t fun x hx ↦ hx) rfl (known_idle _ rfl rfl) hlt
          fun hs ↦ ⟨hcurrent hs, rfl⟩
      simp only [step] at hstep
      split_ifs at hstep with hconflicts hactive hpublisher
      · simp only [Option.some.injEq, Prod.mk.injEq] at hstep
        obtain ⟨rfl, rfl, rfl⟩ := hstep
        exact hidle _ rfl rfl
      · cases hfault : m.fault with
        | some exc =>
            simp only [hfault, Option.some.injEq, Prod.mk.injEq] at hstep
            obtain ⟨rfl, rfl, rfl⟩ := hstep
            exact hprepare exc
        | none =>
            simp only [hfault, Option.some.injEq, Prod.mk.injEq] at hstep
            obtain ⟨rfl, rfl, rfl⟩ := hstep
            have hseals : (sealLocked t).seals m s = some t := by
              simp [seals, not_not.mp hconflicts, hactive, hpublisher, hfault]
            have hnot : ¬ sealedBefore := fun hs ↦ by
              rw [hheld hs t rfl] at hactive
              cases hactive
            refine ⟨CaseRuntime.follows_sealed s t _, known_idle _ rfl rfl, fun u hu ↦ ?_,
              fun hs ↦ absurd hs hnot, ⟨_, .inr rfl⟩, fun _ ↦ ⟨by simp [hseals], rfl, ?_⟩⟩
            · exact (hlt u hu).trans_le (CaseRuntime.follows_sealed s t _).length
            · -- The transaction that is sealed is the finalization transaction.
              rw [Option.eq_none_iff_forall_ne_some]
              intro u hu
              obtain ⟨hfin, ha⟩ := CaseRuntime.current_eq_some.mp hu
              obtain rfl : t = u := Option.some.inj (((h.holds t rfl).2 hactive).symm.trans hfin)
              rw [CaseRuntime.not_isActive_sealed] at ha
              cases ha
      · simp only [Option.some.injEq, Prod.mk.injEq] at hstep
        obtain ⟨rfl, rfl, rfl⟩ := hstep
        exact hprepare _
      · simp only [Option.some.injEq, Prod.mk.injEq] at hstep
        obtain ⟨rfl, rfl, rfl⟩ := hstep
        exact hidle _ rfl rfl
  | sealEvent refs =>
      simp only [step, Option.some.injEq, Prod.mk.injEq] at hstep
      obtain ⟨rfl, rfl, rfl⟩ := hstep
      cases m.fault with
      | some exc => exact hidle _ rfl rfl
      | none => exact hidle _ rfl rfl
  | commitRecord refs =>
      simp only [step, Option.some.injEq, Prod.mk.injEq] at hstep
      obtain ⟨rfl, rfl, rfl⟩ := hstep
      exact .silent ⟨le_rfl, fun _ _ h ↦ h, .inl rfl⟩ rfl (known_idle _ rfl rfl) hlt
        fun hs ↦ ⟨hcurrent hs, rfl⟩
  | _ => cases hstep

end FinalizationPc

/-! ## Runs -/

namespace FinalizationState

variable {P : Publisher}

/-- What holds in every state of a run in order. -/
structure Inv (s : FinalizationState) : Prop where
  once : Once s.history
  lt : ∀ t, s.runtime.finalization = some t → t < s.runtime.transactions.length
  known : ∀ pc ∈ s.threads, pc.Known s.runtime
  after : HasSealed s.history →
    s.runtime.current = none ∧ ∀ pc ∈ s.threads, pc.midway = false

theorem inv_start (hasPublisher : Bool) : (start hasPublisher).Inv where
  once := once_nil
  lt t h := by cases h
  known pc h := by cases h
  after h := by
    obtain ⟨e, he, -⟩ := h
    cases he

/-- A call that starts holds nothing. -/
theorem start_idle (c : FinalizationCall) : c.start.holds = none ∧ c.start.midway = false := by
  cases c <;> exact ⟨rfl, rfl⟩

/-- **A step in order keeps the invariant.** -/
theorem Inv.step {s s' : FinalizationState} {l : FinalizationAction} (h : s.Inv)
    (hok : s.InOrder l) (hstep : s.step P l = some s') : s'.Inv := by
  cases l with
  | call c =>
      obtain rfl := Option.some.inj hstep
      obtain ⟨hholds, hmidway⟩ := start_idle c
      refine ⟨h.once, h.lt, fun pc hpc ↦ ?_, fun hsealed ↦ ⟨(h.after hsealed).1, fun pc hpc ↦ ?_⟩⟩
      · rcases List.mem_append.mp hpc with hold | hnew
        · exact h.known pc hold
        · obtain rfl := List.mem_singleton.mp hnew
          exact FinalizationPc.known_idle _ hholds hmidway
      · rcases List.mem_append.mp hpc with hold | hnew
        · exact (h.after hsealed).2 pc hold
        · obtain rfl := List.mem_singleton.mp hnew
          exact hmidway
  | step i m =>
      simp only [FinalizationState.step] at hstep
      cases hpc : s.threads[i]? with
      | none => simp [hpc] at hstep
      | some pc =>
          simp only [hpc] at hstep
          obtain ⟨⟨r, pc', events⟩, hcall, rfl⟩ := Option.map_eq_some_iff.mp hstep
          have hmem : pc ∈ s.threads := List.mem_of_getElem? hpc
          obtain ⟨hlook, hseals⟩ := hok pc hpc
          have hspec := FinalizationPc.step_spec (h.known pc hmem) h.lt
            (fun hsealed ↦ ⟨(h.after hsealed).1, (h.after hsealed).2 pc hmem,
              fun hfinds ↦ hlook hfinds hsealed⟩) hcall
          refine ⟨?_, hspec.lt, fun q hq ↦ ?_, fun hsealed ↦ ?_⟩
          · by_cases hsealed : HasSealed s.history
            · obtain ⟨rfl, -, -⟩ := hspec.after hsealed
              exact h.once
            · obtain ⟨e, rfl | rfl⟩ := hspec.single
              · exact h.once
              · exact once_cons e hsealed
          · rcases List.mem_or_eq_of_mem_set hq with hold | rfl
            · exact (h.known q hold).follows hspec.follows
            · exact hspec.known
          · obtain ⟨e, he, hseal⟩ := hsealed
            rcases List.mem_append.mp he with hnew | hold
            · -- The step seals, so that nothing else is midway.
              obtain ⟨hne, hmid, hcurrent⟩ := hspec.closes ⟨e, hnew, hseal⟩
              refine ⟨hcurrent, fun q hq ↦ ?_⟩
              rcases List.mem_or_eq_of_mem_set hq with hq | rfl
              · exact hseals hne q hq
              · exact hmid
            · obtain ⟨-, hmid, hcurrent⟩ := hspec.after ⟨e, hold, hseal⟩
              refine ⟨hcurrent, fun q hq ↦ ?_⟩
              rcases List.mem_or_eq_of_mem_set hq with hq | rfl
              · exact (h.after ⟨e, hold, hseal⟩).2 q hq
              · exact hmid

/-- **One finalization.**  On a run in order at most one transaction is sealed, and nothing
is begun or handed out afterwards. -/
theorem one_finalization (P : Publisher) (hasPublisher : Bool) {s : FinalizationState}
    (h : Machine.Reach (step P) InOrder (start hasPublisher) s) : Once s.history :=
  (h.invariant (inv_start hasPublisher) fun _ _ _ hs hok hstep ↦ hs.step hok hstep).once

section Runs

def samplePublisher : Publisher where
  ledger := ⟨["artifacts"], "project", "run", "case", fun s ↦ s⟩
  leaseId := ""
  fencingToken := 0

def sampleCall (name : String) : ArtifactCall :=
  ⟨name, ⟨["artifacts", name], "artifact", "filesystem", "text/plain", "sha256:0", some 1, []⟩⟩

/-- The call `i` makes `n` steps, and nothing fails. -/
def go (i n : ℕ) : List FinalizationAction := List.replicate n (.step i {})

/-- A transaction is begun and committed empty; then `model` is published and committed. -/
def emptyCommit : List FinalizationAction :=
  .call (.begin "result") :: go 0 3 ++ .call .commit :: go 1 6 ++
    .call (.publish (sampleCall "model")) :: go 2 13 ++ .call .commit :: go 3 6

/-- `model` is published and committed, and `late` comes too late. -/
def publishAndCommit : List FinalizationAction :=
  .call (.publish (sampleCall "model")) :: go 0 13 ++ .call .commit :: go 1 6 ++
    .call (.publish (sampleCall "late")) :: go 2 2 ++ .call .commit :: go 3 1

/-- After an empty commit a second transaction is begun, filled and sealed. -/
theorem second_finalization :
    ¬ ∀ s, Machine.Reach (step samplePublisher) Machine.anyStep (start true) s →
      Once s.history := by
  intro hall
  have hend : ((Machine.run (Machine.guarded (step samplePublisher) fun _ _ ↦ True) (start true)
      emptyCommit).map fun s ↦ decide (∃ e ∈ s.history.tail, e.isSeal)) = some true := by
    decide +kernel
  obtain ⟨s, hrun, hs⟩ := Option.map_eq_some_iff.mp hend
  obtain ⟨e, he, hseal⟩ := of_decide_eq_true hs
  have honce := hall s ((Machine.reach_of_run hrun).mono fun _ _ h ↦ h)
  rw [honce.tail e he] at hseal
  cases hseal

/-- A publication that comes after the commit is refused. -/
theorem one_finalization_of_run : ∃ s : FinalizationState, HasSealed s.history ∧
    s.history.length = 3 ∧ Once s.history := by
  have hend : ((Machine.run (Machine.guarded (step samplePublisher) InOrder) (start true)
      publishAndCommit).map fun s ↦ decide (HasSealed s.history ∧ s.history.length = 3)) =
      some true := by
    decide +kernel
  obtain ⟨s, hrun, hs⟩ := Option.map_eq_some_iff.mp hend
  obtain ⟨hsealed, hlength⟩ := of_decide_eq_true hs
  exact ⟨s, hsealed, hlength, one_finalization samplePublisher true (Machine.reach_of_run hrun)⟩

end Runs

end FinalizationState

end Blackbase.Project
