import Blackbase.Plugin.Lifecycle

/-!
# Receipts

A receipt lists the plugins whose start hook has completed, each once, exactly when nothing raises
after a hook has completed and the loop never comes to a plugin whose hook has completed before.
The end hooks of a receipt without repetition are called once.
-/

namespace Blackbase.Plugin.Lifecycle

variable {A : Attributes} {start : Start}

namespace Loop

/-! ## One turn -/

theorem applyAll_locals (s : Loop) (ops : List Op) :
    (s.applyAll A ops).started = s.started ∧ (s.applyAll A ops).completed = s.completed := by
  induction ops generalizing s with
  | nil => exact ⟨rfl, rfl⟩
  | cons op rest ih => exact ih (s.apply A op)

/-- The start hook is called: the plugin has been attached. -/
def reaches (start : Start) (v : Visit) : Bool :=
  !(start.attaches && (v.attach.map Prod.snd).getD false)

/-- The start hook completes. -/
def completes (start : Start) (v : Visit) : Bool :=
  reaches start v && (v.ending = .completed || v.ending = .spoiled)

/-- The start hook completes, and the plugin is appended to the started ones. -/
def records (start : Start) (v : Visit) : Bool := reaches start v && v.ending = .completed

/-- The loop after a turn, and the result, if it is the last turn. -/
def leaves : Loop ⊕ Loop × Result → Loop × Option Result
  | .inl t => (t, none)
  | .inr (t, result) => (t, some result)

variable (A start) in
theorem hook_spec (v : Visit) (plugin : ℕ) (s : Loop) :
    (leaves (s.hook A start v plugin)).1.started =
        s.started ++ (if v.ending = .completed then [plugin] else []) ∧
      (leaves (s.hook A start v plugin)).1.completed =
        s.completed ++ (if v.ending = .completed ∨ v.ending = .spoiled then [plugin] else []) ∧
      ∀ r ∈ (leaves (s.hook A start v plugin)).2, ∀ receipt ∈ r.receipt,
        receipt = (leaves (s.hook A start v plugin)).1.started := by
  obtain ⟨hstarted, hcompleted⟩ := applyAll_locals (A := A) s v.ops
  cases hending : v.ending with
  | completed => simp [hook, hending, leaves, hstarted, hcompleted]
  | spoiled =>
      by_cases hraises : raises start v = true
      · simp [hook, hending, hraises, leaves, hstarted, hcompleted, Result.receipt]
      · simp [hook, hending, hraises, leaves, hstarted, hcompleted]
  | raised =>
      by_cases hraises : raises start v = true
      · simp [hook, hending, hraises, leaves, hstarted, hcompleted, Result.receipt]
      · simp [hook, hending, hraises, leaves, hstarted, hcompleted]
  | escaped => simp [hook, hending, leaves, hstarted, hcompleted, Result.receipt]

variable (A start) in
/-- What a turn does: a plugin whose hook completes is appended to the completed ones, and to the
started ones if it is recorded.  A receipt is of the started ones. -/
theorem turn_spec (v : Visit) (plugin : ℕ) (s : Loop) :
    (leaves (s.turn A start v plugin)).1.started =
        s.started ++ (if records start v then [plugin] else []) ∧
      (leaves (s.turn A start v plugin)).1.completed =
        s.completed ++ (if completes start v then [plugin] else []) ∧
      ∀ r ∈ (leaves (s.turn A start v plugin)).2, ∀ receipt ∈ r.receipt,
        receipt = (leaves (s.turn A start v plugin)).1.started := by
  have hhook (hreaches : reaches start v = true) (t : Loop) (hstarted : t.started = s.started)
      (hcompleted : t.completed = s.completed)
      (hturn : s.turn A start v plugin = t.hook A start v plugin) :
      (leaves (s.turn A start v plugin)).1.started =
          s.started ++ (if records start v then [plugin] else []) ∧
        (leaves (s.turn A start v plugin)).1.completed =
          s.completed ++ (if completes start v then [plugin] else []) ∧
        ∀ r ∈ (leaves (s.turn A start v plugin)).2, ∀ receipt ∈ r.receipt,
          receipt = (leaves (s.turn A start v plugin)).1.started := by
    rw [hturn, ← hstarted, ← hcompleted]
    simpa [records, completes, hreaches] using hook_spec A start v plugin t
  cases hattaches : start.attaches with
  | false => exact hhook (by simp [reaches, hattaches]) s rfl rfl (by simp [turn, hattaches])
  | true =>
      cases hattach : v.attach with
      | none => exact hhook (by simp [reaches, hattach]) s rfl rfl (by simp [turn, hattach])
      | some attach =>
          obtain ⟨ops, fails⟩ := attach
          obtain ⟨hstarted, hcompleted⟩ := applyAll_locals (A := A) s ops
          cases fails with
          | false =>
              exact hhook (by simp [reaches, hattach]) _ hstarted hcompleted
                (by simp [turn, hattaches, hattach])
          | true =>
              by_cases hstrict : (start.strict || start.solverStrict) = true
              · simp [turn, hattaches, hattach, records, completes, reaches, leaves, failAttach,
                  hstarted, hcompleted, hstrict, Result.receipt]
              · simp [turn, hattaches, hattach, records, completes, reaches, leaves, failAttach,
                  hstarted, hcompleted, hstrict]

/-! ## Runs -/

/-- In every turn whose hook completes nothing raises after it, and the hook of the plugin has not
completed before. -/
def Once (A : Attributes) (start : Start) : List Visit → Loop → Prop
  | [], _ => True
  | v :: rest, s =>
      match s.next start with
      | none => True
      | some (plugin, index) =>
          (completes start v = true → v.ending ≠ .spoiled ∧ plugin ∉ s.completed) ∧
            match turn A start v plugin { s with position := index + 1 } with
            | .inl t => Once A start rest t
            | .inr _ => True

/-- A turn keeps the started and the completed plugins alike, and these without repetition, exactly
when nothing raises after its hook has completed and that is for the first time. -/
theorem turn_exact {v : Visit} {plugin : ℕ} {s t : Loop}
    (hle : s.started.length ≤ s.completed.length)
    (hstarted : t.started = s.started ++ (if records start v then [plugin] else []))
    (hcompleted : t.completed = s.completed ++ (if completes start v then [plugin] else [])) :
    t.started.length ≤ t.completed.length ∧
      (t.started = t.completed ∧ t.completed.Nodup ↔
        s.started = s.completed ∧ s.completed.Nodup ∧
          (completes start v = true → v.ending ≠ .spoiled ∧ plugin ∉ s.completed)) := by
  rw [hstarted, hcompleted]
  by_cases hcompletes : completes start v = true
  · rw [if_pos hcompletes]
    obtain ⟨hreaches, hending⟩ := Bool.and_eq_true_iff.mp hcompletes
    by_cases hspoiled : v.ending = .spoiled
    · have hrecords : ¬ records start v = true := by simp [records, hspoiled]
      rw [if_neg hrecords, List.append_nil]
      refine ⟨hle.trans (by simp), ?_⟩
      constructor
      · rintro ⟨heq, -⟩
        have hlength := congrArg List.length heq
        rw [List.length_append, List.length_singleton] at hlength
        omega
      · rintro ⟨-, -, hcond⟩
        exact absurd hspoiled (hcond hcompletes).1
    · have hrecords : records start v = true := by
        simpa [records, hreaches, hspoiled] using hending
      rw [if_pos hrecords]
      refine ⟨by simpa using hle, ?_⟩
      rw [List.append_left_inj, ← List.concat_eq_append, List.nodup_concat]
      tauto
  · have hrecords : ¬ records start v = true := by
      intro h
      obtain ⟨hreaches, hending⟩ := Bool.and_eq_true_iff.mp h
      exact hcompletes (by simp [completes, hreaches, of_decide_eq_true hending])
    rw [if_neg hcompletes, if_neg hrecords, List.append_nil, List.append_nil]
    exact ⟨hle, by tauto⟩

theorem run_exact {script : List Visit} {s t : Loop} {result : Result} {receipt : List ℕ}
    (h : run A start script s = some (t, result)) (hreceipt : result.receipt = some receipt)
    (hle : s.started.length ≤ s.completed.length) :
    (receipt = t.completed ∧ t.completed.Nodup) ↔
      s.started = s.completed ∧ s.completed.Nodup ∧ Once A start script s := by
  induction script generalizing s with
  | nil =>
      rw [run] at h
      by_cases hnext : (s.next start).isNone = true
      · rw [if_pos hnext] at h
        obtain ⟨rfl, rfl⟩ := Prod.mk.inj (Option.some.inj h)
        obtain rfl := Option.some.inj hreceipt
        rw [Once, and_true]
      · rw [if_neg hnext] at h
        cases h
  | cons v rest ih =>
      rw [run] at h
      rw [Once]
      cases hnext : s.next start with
      | none =>
          rw [hnext] at h
          cases h
      | some found =>
          obtain ⟨plugin, index⟩ := found
          simp only [hnext] at h ⊢
          obtain ⟨hstarted, hcompleted, hresult⟩ :=
            turn_spec A start v plugin { s with position := index + 1 }
          obtain ⟨hlength, hexact⟩ := turn_exact hle hstarted hcompleted
          cases hturn : turn A start v plugin { s with position := index + 1 } with
          | inl e =>
              rw [hturn] at h hexact hlength
              change run A start rest e = _ at h
              change e.started = e.completed ∧ e.completed.Nodup ↔ _ at hexact
              rw [ih h hlength, ← and_assoc, hexact, and_assoc, and_assoc]
          | inr out =>
              rw [hturn] at h hexact hresult
              change (if rest.isEmpty = true then some out else none) = _ at h
              by_cases hrest : rest.isEmpty = true
              · rw [if_pos hrest] at h
                obtain rfl := Option.some.inj h
                obtain rfl := hresult result rfl receipt hreceipt
                rw [and_true]
                exact hexact
              · rw [if_neg hrest] at h
                cases h

/-! ## Hooks that register nothing -/

/-- An operation that registers nothing takes plugins out of the list of the loop, if it changes
it. -/
theorem iterated_apply (s : Loop) {op : Op} (h : ∀ plugin, op ≠ .register plugin) :
    (s.apply A op).iterated.Sublist s.iterated := by
  cases op with
  | register plugin => exact absurd rfl (h plugin)
  | setExecutionOrder names => exact List.Sublist.refl _
  | enable name =>
      have hplugins : (s.manager.setEnabled name true).plugins = s.manager.plugins := by
        unfold Manager.setEnabled
        cases s.manager.pluginMap name <;> rfl
      change (s.detached.getD (s.manager.setEnabled name true).plugins).Sublist _
      rw [hplugins]
      exact List.Sublist.refl _
  | disable name =>
      have hplugins : (s.manager.setEnabled name false).plugins = s.manager.plugins := by
        unfold Manager.setEnabled
        cases s.manager.pluginMap name <;> rfl
      change (s.detached.getD (s.manager.setEnabled name false).plugins).Sublist _
      rw [hplugins]
      exact List.Sublist.refl _
  | unregister name =>
      have hplugins : (s.manager.unregister name).plugins.Sublist s.manager.plugins := by
        unfold Manager.unregister
        cases s.manager.pluginMap name with
        | none => exact List.Sublist.refl _
        | some plugin =>
            by_cases hmem : plugin ∈ s.manager.plugins
            · simp only [if_pos hmem]
              exact List.erase_sublist
            · simp only [if_neg hmem]
              exact List.Sublist.refl _
      change (s.detached.getD (s.manager.unregister name).plugins).Sublist
        (s.detached.getD s.manager.plugins)
      cases s.detached with
      | none => exact hplugins
      | some l => exact List.Sublist.refl _

/-- The operations register nothing. -/
def RegistersNothing (ops : List Op) : Prop := ∀ op ∈ ops, ∀ plugin, op ≠ .register plugin

theorem iterated_applyAll (s : Loop) {ops : List Op} (h : RegistersNothing ops) :
    (s.applyAll A ops).iterated.Sublist s.iterated ∧
      (s.applyAll A ops).position = s.position := by
  induction ops generalizing s with
  | nil => exact ⟨List.Sublist.refl _, rfl⟩
  | cons op rest ih =>
      obtain ⟨hop, hrest⟩ := List.forall_mem_cons.mp h
      obtain ⟨hsub, hposition⟩ := ih (s.apply A op) hrest
      exact ⟨hsub.trans (iterated_apply s hop), hposition⟩

/-- The hooks of a visit register nothing. -/
def Quiet (v : Visit) : Prop :=
  RegistersNothing v.ops ∧ ∀ attach ∈ v.attach, RegistersNothing attach.1

variable (A start) in
theorem iterated_turn {v : Visit} (h : Quiet v) (plugin : ℕ) (s : Loop) :
    (leaves (s.turn A start v plugin)).1.iterated.Sublist s.iterated ∧
      (leaves (s.turn A start v plugin)).1.position = s.position := by
  have hhook (t : Loop) :
      (leaves (t.hook A start v plugin)).1.iterated.Sublist t.iterated ∧
        (leaves (t.hook A start v plugin)).1.position = t.position := by
    have hops := iterated_applyAll (A := A) t h.1
    cases hending : v.ending with
    | completed => simpa [hook, hending, leaves, iterated] using hops
    | spoiled =>
        by_cases hraises : raises start v = true
        · simpa [hook, hending, hraises, leaves, iterated] using hops
        · simpa [hook, hending, hraises, leaves, iterated] using hops
    | raised =>
        by_cases hraises : raises start v = true
        · simpa [hook, hending, hraises, leaves, iterated] using hops
        · simpa [hook, hending, hraises, leaves, iterated] using hops
    | escaped => simpa [hook, hending, leaves, iterated] using hops
  cases hattaches : start.attaches with
  | false => simpa [turn, hattaches] using hhook s
  | true =>
      cases hattach : v.attach with
      | none => simpa [turn, hattaches, hattach] using hhook s
      | some attach =>
          obtain ⟨ops, fails⟩ := attach
          have hops := iterated_applyAll (A := A) s (h.2 (ops, fails) hattach)
          cases fails with
          | false =>
              have hrest := hhook (s.applyAll A ops)
              simpa [turn, hattaches, hattach] using
                ⟨hrest.1.trans hops.1, hrest.2.trans hops.2⟩
          | true =>
              by_cases hstrict : (start.strict || start.solverStrict) = true
              · simpa [turn, hattaches, hattach, hstrict, leaves, failAttach, iterated] using hops
              · simpa [turn, hattaches, hattach, hstrict, leaves, failAttach, iterated] using hops

theorem next_eq_some {s : Loop} {plugin index : ℕ} (h : s.next start = some (plugin, index)) :
    s.iterated[index]? = some plugin ∧ s.position ≤ index := by
  have hmem := List.mem_of_find?_eq_some h
  obtain ⟨k, hk, heq⟩ := List.mem_drop_iff_getElem.mp hmem
  rw [List.getElem_zipIdx, Nat.zero_add] at heq
  obtain ⟨rfl, rfl⟩ := Prod.mk.inj heq
  exact ⟨List.getElem?_eq_getElem _, Nat.le_add_right _ _⟩

/-- A loop whose hooks register nothing, and where nothing raises after a hook has completed, comes
to every plugin once. -/
theorem once_of_quiet {script : List Visit} {s : Loop} (hnodup : s.iterated.Nodup)
    (hpassed : ∀ p ∈ s.completed, p ∉ s.iterated.drop s.position)
    (hquiet : ∀ v ∈ script, Quiet v ∧ v.ending ≠ .spoiled) : Once A start script s := by
  induction script generalizing s with
  | nil => trivial
  | cons v rest ih =>
      obtain ⟨⟨hv, hspoiled⟩, hrest⟩ := List.forall_mem_cons.mp hquiet
      rw [Once]
      cases hnext : s.next start with
      | none => trivial
      | some found =>
          obtain ⟨plugin, index⟩ := found
          obtain ⟨hindex, hposition⟩ := next_eq_some hnext
          obtain ⟨hlt, hget⟩ := List.getElem?_eq_some_iff.mp hindex
          have hdrop : s.iterated.drop index = plugin :: s.iterated.drop (index + 1) := by
            rw [List.drop_eq_getElem_cons hlt, hget]
          have hnew : plugin ∉ s.completed := by
            intro hmem
            refine hpassed plugin hmem ?_
            refine (List.drop_sublist_drop_left _ hposition).subset ?_
            rw [hdrop]
            exact List.mem_cons_self
          refine ⟨fun _ ↦ ⟨hspoiled, hnew⟩, ?_⟩
          obtain ⟨hsub, hpos⟩ := iterated_turn A start hv plugin
            { s with position := index + 1 }
          obtain ⟨-, hcompleted, -⟩ := turn_spec A start v plugin
            { s with position := index + 1 }
          cases hturn : turn A start v plugin { s with position := index + 1 } with
          | inr out => trivial
          | inl t =>
              rw [hturn] at hsub hpos hcompleted
              change t.iterated.Sublist s.iterated at hsub
              change t.position = index + 1 at hpos
              change t.completed = s.completed ++ _ at hcompleted
              refine ih (hsub.nodup hnodup) (fun p hp hlater ↦ ?_) hrest
              rw [hpos] at hlater
              have hpast := (hsub.drop (index + 1)).subset hlater
              rw [hcompleted] at hp
              have hone : p ∈ s.completed ∨ p = plugin := by
                by_cases hcompletes : completes start v = true
                · rw [if_pos hcompletes] at hp
                  exact (List.mem_append.mp hp).imp_right List.mem_singleton.mp
                · rw [if_neg hcompletes, List.append_nil] at hp
                  exact .inl hp
              rcases hone with hold | rfl
              · exact hpassed p hold
                  ((List.drop_sublist_drop_left _ (hposition.trans index.le_succ)).subset hpast)
              · have hno := hnodup.sublist (List.drop_sublist index _)
                rw [hdrop] at hno
                exact (List.nodup_cons.mp hno).1 hpast

end Loop

/-! ## End hooks -/

/-- There is an end hook to call. -/
def EndAnswer.called : EndAnswer → Bool
  | missing => false
  | _ => true

/-- The exception that leaves an end hook. -/
def EndAnswer.error : EndAnswer → Option String
  | raised error => some error
  | _ => none

theorem finishLoop_spec (l : List (ℕ × EndAnswer)) :
    finishLoop l =
      ((l.filter fun e ↦ e.2.called).map Prod.fst, l.filterMap fun e ↦ e.2.error.map (e.1, ·)) := by
  induction l with
  | nil => rfl
  | cons e rest ih =>
      obtain ⟨plugin, answer⟩ := e
      rw [finishLoop, ih]
      cases answer <;> simp [EndAnswer.called, EndAnswer.error]

theorem calls_finishLifecycle (strict : Bool) (receipt : List ℕ) (answer : ℕ → EndAnswer) :
    (finishLifecycle strict receipt answer).calls =
      (receipt.zipIdx.filter fun e ↦ (answer e.2).called).map Prod.fst := by
  rw [finishLifecycle, finishLoop_spec, List.filter_map, List.map_map]
  rfl

theorem calls_sublist (strict : Bool) (receipt : List ℕ) (answer : ℕ → EndAnswer) :
    (finishLifecycle strict receipt answer).calls.Sublist receipt := by
  have hzip : receipt.zipIdx.map Prod.fst = receipt := List.zipIdx_map_fst 0 receipt
  have hsub : ((receipt.zipIdx.filter fun e ↦ (answer e.2).called).map Prod.fst).Sublist
      (receipt.zipIdx.map Prod.fst) := List.filter_sublist.map Prod.fst
  rw [calls_finishLifecycle]
  rwa [hzip] at hsub

/-- The end hook of every participant is called once, if there is one, whatever the others raise;
every exception is collected, and they are raised together in strict mode. -/
def EndsOnce (receipt : List ℕ) : Prop :=
  ∀ (strict : Bool) (answer : ℕ → EndAnswer),
    (∀ (i plugin : ℕ), receipt[i]? = some plugin →
      (finishLifecycle strict receipt answer).calls.count plugin =
        if (answer i).called then 1 else 0) ∧
    (finishLifecycle strict receipt answer).calls ⊆ receipt ∧
    (finishLifecycle strict receipt answer).errors =
      receipt.zipIdx.filterMap (fun e ↦ (answer e.2).error.map (e.1, ·)) ∧
    ((finishLifecycle strict receipt answer).raised = true ↔
      strict = true ∧ (finishLifecycle strict receipt answer).errors ≠ [])

theorem endsOnce_of_nodup {receipt : List ℕ} (hnodup : receipt.Nodup) : EndsOnce receipt := by
  intro strict answer
  have hsub := calls_sublist strict receipt answer
  refine ⟨fun i plugin hi ↦ ?_, hsub.subset, ?_, ?_⟩
  · have hmem : plugin ∈ (finishLifecycle strict receipt answer).calls ↔
        (answer i).called = true := by
      rw [calls_finishLifecycle, List.mem_map]
      constructor
      · rintro ⟨⟨p, j⟩, he, rfl⟩
        obtain ⟨hj, hcalled⟩ := List.mem_filter.mp he
        have hindex : j = i :=
          (List.getElem?_inj (List.getElem?_eq_some_iff.mp (List.mem_zipIdx_iff_getElem?.mp hj)).1
            hnodup).mp ((List.mem_zipIdx_iff_getElem?.mp hj).trans hi.symm)
        exact hindex ▸ hcalled
      · intro hcalled
        exact ⟨(plugin, i), List.mem_filter.mpr ⟨List.mem_zipIdx_iff_getElem?.mpr hi, hcalled⟩, rfl⟩
    rw [(hsub.nodup hnodup).count]
    exact if_congr hmem rfl rfl
  · rw [finishLifecycle, finishLoop_spec, List.filterMap_map]
    rfl
  · change (strict && !(finishLifecycle strict receipt answer).errors.isEmpty) = true ↔ _
    simp

/-! ## Receipts -/

/-- The receipt of a start loop, which is that of `begin_lifecycle` or of `on_solver_init`, lists
the plugins whose start hook has completed, each once and in order, and each of them is ended once,
exactly when in every turn whose hook completes nothing raises after it, and the hook of the plugin
has not completed before. -/
theorem receipt_exact_iff (A : Attributes) (start : Start) (m : Manager) (script : List Visit)
    (t : Loop) (result : Result) (receipt : List ℕ)
    (h : Loop.run A start script (.begin m) = some (t, result))
    (hreceipt : result.receipt = some receipt) :
    (receipt = t.completed ∧ receipt.Nodup ∧ EndsOnce receipt) ↔
      Loop.Once A start script (.begin m) := by
  have hexact := Loop.run_exact h hreceipt le_rfl
  have hends : (receipt = t.completed ∧ receipt.Nodup ∧ EndsOnce receipt) ↔
      receipt = t.completed ∧ t.completed.Nodup := by
    constructor
    · rintro ⟨rfl, hnodup, -⟩
      exact ⟨rfl, hnodup⟩
    · rintro ⟨rfl, hnodup⟩
      exact ⟨rfl, hnodup, endsOnce_of_nodup hnodup⟩
  rw [hends, hexact]
  constructor
  · exact fun hall ↦ hall.2.2
  · exact fun honce ↦ ⟨rfl, List.nodup_nil, honce⟩

/-- Two plugins, the second of which comes before the first. -/
def pair : Attributes where
  name := fun
    | 0 => "first"
    | _ => "second"
  priority := fun
    | 0 => 0
    | _ => -1

/-- A manager with the first of the two. -/
def single : Manager where
  plugins := [0]
  pluginMap := Function.update (fun _ ↦ none) "first" (some 0)
  enabled _ := true
  attachFailed _ := false

/-- The start hook of a plugin that registers nothing. -/
theorem receipt_exact_single :
    ∃ t, beginLifecycle pair true (fun _ ↦ true) single [⟨none, [], .completed, false⟩] =
        some (t, .returned [0]) ∧
      [0] = t.completed ∧ [0].Nodup ∧ EndsOnce [0] := by
  refine ⟨_, rfl, (receipt_exact_iff pair ⟨false, fun _ ↦ true, true, false⟩ single
    [⟨none, [], .completed, false⟩] _ _ [0] rfl rfl).mpr ?_⟩
  refine Loop.once_of_quiet (List.nodup_singleton 0) (fun p hp ↦ absurd hp List.not_mem_nil) ?_
  intro v hv
  obtain rfl := List.mem_singleton.mp hv
  refine ⟨⟨fun op hop ↦ absurd hop List.not_mem_nil, fun attach hattach ↦ ?_⟩, by decide⟩
  cases hattach

/-- A start hook that registers a plugin of a lower priority is called again: the plugin is listed
twice, and ended twice. -/
theorem receipt_repeats :
    ∃ t, beginLifecycle pair true (fun _ ↦ true) single
        [⟨none, [.register 1], .completed, false⟩, ⟨none, [], .completed, false⟩] =
          some (t, .returned [0, 0]) ∧
      ¬ ([0, 0] = t.completed ∧ [0, 0].Nodup ∧ EndsOnce [0, 0]) := by
  refine ⟨_, rfl, fun h ↦ ?_⟩
  exact absurd h.2.1 (by decide)

end Blackbase.Plugin.Lifecycle
