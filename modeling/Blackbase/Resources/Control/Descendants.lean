import Blackbase.Core.Machine
import Blackbase.Resources.Control.Laws

/-!
# Cancellation and the descendants of a control

The controls of a tree share one store, and any calls are made on them in any order.
Once a `request` on a control has returned true its record stays requested until the
control is retired or expires.  A `read` of a descendant climbs to it through the
records in between, and stops where one of these is missing.
-/

namespace Blackbase.Resources

/-- A tree of controls: the references of one namespace, one for each id, with the parent
of each among them one level up. -/
structure ControlTree where
  ns : String
  controls : Set CancellationRef
  same_ns : ∀ r ∈ controls, r.ns = ns
  unique : ∀ r ∈ controls, ∀ r' ∈ controls, r.controlId = r'.controlId → r = r'
  parent_mem : ∀ r ∈ controls, ∀ p, r.parentControlId = some p →
    ∃ q ∈ controls, q.controlId = p ∧ r.lineageDepth = q.lineageDepth + 1

/-- `parent` is the control the lineage of `child` names. -/
def IsParent (child parent : CancellationRef) : Prop :=
  child.parentControlId = some parent.controlId

instance (child parent : CancellationRef) : Decidable (IsParent child parent) :=
  inferInstanceAs (Decidable (_ = _))

namespace ControlTree

variable (tree : ControlTree)

/-- A line of controls of the tree, each followed by its parent. -/
structure Line (line : List CancellationRef) : Prop where
  mem : ∀ r ∈ line, r ∈ tree.controls
  parents : List.IsChain IsParent line

variable {tree}

theorem depth_parent {c p : CancellationRef} (hc : c ∈ tree.controls) (hp : p ∈ tree.controls)
    (h : IsParent c p) : c.lineageDepth = p.lineageDepth + 1 := by
  obtain ⟨q, hq, hid, hdepth⟩ := tree.parent_mem c hc p.controlId h
  rwa [tree.unique q hq p hp hid] at hdepth

theorem Line.tail {r : CancellationRef} {line : List CancellationRef} (h : tree.Line (r :: line)) :
    tree.Line line :=
  ⟨fun x hx ↦ h.mem x (List.mem_cons_of_mem _ hx), h.parents.tail⟩

theorem Line.depth {r : CancellationRef} {line : List CancellationRef} (h : tree.Line (r :: line)) :
    (∀ x ∈ line, x.lineageDepth < r.lineageDepth) ∧ line.length ≤ r.lineageDepth := by
  induction line generalizing r with
  | nil => simp
  | cons p line ih =>
      have hparent := (List.isChain_cons_cons.mp h.parents).1
      have hdepth := depth_parent (h.mem r List.mem_cons_self)
        (h.mem p (List.mem_cons_of_mem _ List.mem_cons_self)) hparent
      obtain ⟨hall, hlen⟩ := ih h.tail
      constructor
      · intro x hx
        rcases List.mem_cons.mp hx with rfl | hx
        · omega
        · have := hall x hx
          omega
      · rw [List.length_cons]
        omega

/-- A control of a line that is not its last has a parent. -/
theorem Line.exists_parent {before after : List CancellationRef} {x last : CancellationRef}
    (h : tree.Line (before ++ x :: after ++ [last])) : ∃ p, IsParent x p := by
  rw [List.append_assoc] at h
  have hx := h.parents.right_of_append
  cases after with
  | nil => exact ⟨last, (List.isChain_cons_cons.mp hx).1⟩
  | cons p after => exact ⟨p, (List.isChain_cons_cons.mp hx).1⟩

/-- No id occurs twice on a line. -/
theorem Line.nodup {line : List CancellationRef} (h : tree.Line line) :
    (line.map CancellationRef.controlId).Nodup := by
  induction line with
  | nil => exact List.nodup_nil
  | cons r line ih =>
      refine List.nodup_cons.mpr ⟨fun hmem ↦ ?_, ih h.tail⟩
      obtain ⟨x, hx, hid⟩ := List.mem_map.mp hmem
      have hxr := tree.unique x (h.mem x (List.mem_cons_of_mem _ hx)) r
        (h.mem r List.mem_cons_self) hid
      have := h.depth.1 x hx
      rw [hxr] at this
      exact absurd this (lt_irrefl _)

end ControlTree

namespace ControlStore

variable (S : ControlStore) (tree : ControlTree)

/-- A call. -/
def step (s : S.State) (l : ControlStep) : Option S.State := some (S.apply s l).1

/-- The call is made on a control of the tree. -/
def Admits (_ : S.State) (l : ControlStep) : Prop := l.ref ∈ tree.controls

/-- The call does not retire the control, which has not expired when it is made. -/
def Lives (c : CancellationRef) (s : S.State) (l : ControlStep) : Prop :=
  ¬ (l.call = .retire ∧ l.ref.controlId = c.controlId) ∧
    S.view (S.expire s l) c.ns c.controlId ≠ none

/-- The calls on the tree so far include a `request` on the control that returned true,
and since then the control has neither been retired nor expired. -/
def Cancelled (c : CancellationRef) (s : S.State) : Prop :=
  ∃ s₀ l reason, Machine.Reach S.step (S.Admits tree) S.empty s₀ ∧ S.Admits tree s₀ l ∧
    l.call = .request reason ∧ l.ref = c ∧ (S.apply s₀ l).2 = .flag true ∧
    Machine.Reach S.step (fun s l ↦ S.Admits tree s l ∧ S.Lives c s l) (S.apply s₀ l).1 s

/-- A record that has not been requested links to the parent of its control. -/
def Linked (s : S.State) : Prop :=
  ∀ r ∈ tree.controls, ∀ v, S.view s tree.ns r.controlId = some v → v.state.requested = false →
    v.parent = r.parentControlId

variable {S tree}

section Steps

variable {s : S.State} {l : ControlStep} {c : CancellationRef} (hS : S.Lawful)

include hS

theorem Linked.expire (h : S.Linked tree s) (l : ControlStep) :
    S.Linked tree (S.expire s l) := by
  intro r hr v hv hreq
  rcases hS.view_expire s l tree.ns r.controlId with he | he
  · exact h r hr v (he ▸ hv) hreq
  · rw [he] at hv
    cases hv

/-- Every call keeps the records linked. -/
theorem Linked.apply (hinv : S.Inv s) (h : S.Linked tree s) (hl : S.Admits tree s l) :
    S.Linked tree (S.apply s l).1 := by
  intro r hr v hv hreq
  have hns : l.ref.ns = tree.ns := tree.same_ns _ hl
  by_cases hraised : ∃ e, (S.apply s l).2 = .raised e
  · obtain ⟨e, he⟩ := hraised
    have hview := hS.view_raised s l r.controlId e hinv he
    rw [hns] at hview
    rcases hview with hview | ⟨hview, -⟩
    · exact h r hr v (hview ▸ hv) hreq
    · rw [hview] at hv
      cases hv
  · have hdoes := hS.view_apply s l r.controlId hinv fun e he ↦ hraised ⟨e, he⟩
    rw [hns, hv] at hdoes
    cases hv' : S.view (S.expire s l) tree.ns r.controlId with
    | none =>
        rw [hv'] at hdoes
        cases hdoes with
        | made hid hmade =>
            cases hmade with
            | fresh => rw [← tree.unique _ hl _ hr hid]
            | requested p st _ hst => simp [hst] at hreq
    | some w =>
        rw [hv'] at hdoes
        cases hdoes with
        | kept hkept =>
            have hw := h.expire hS l r hr w hv'
            cases hkept with
            | same => exact hw hreq
            | requested st _ _ hst => simp [hst] at hreq
            | linked p hst => simp [hst] at hreq

/-- A requested record stays requested while its control lives. -/
theorem requested_apply (hinv : S.Inv s) (hns : l.ref.ns = c.ns)
    (h : Requested (S.view s c.ns c.controlId)) (hlives : S.Lives c s l) :
    Requested (S.view (S.apply s l).1 c.ns c.controlId) := by
  have hexpire : S.view (S.expire s l) c.ns c.controlId = S.view s c.ns c.controlId :=
    (hS.view_expire s l c.ns c.controlId).resolve_right hlives.2
  by_cases hraised : ∃ e, (S.apply s l).2 = .raised e
  · obtain ⟨e, he⟩ := hraised
    have hview := hS.view_raised s l c.controlId e hinv he
    rw [hns] at hview
    rcases hview with hview | ⟨-, hgone⟩
    · rwa [hview]
    · exact absurd hgone hlives.2
  · have hdoes := hS.view_apply s l c.controlId hinv fun e he ↦ hraised ⟨e, he⟩
    obtain ⟨v, hv, hreq⟩ := h
    rw [hns, hexpire, Option.mem_def.mp hv] at hdoes
    generalize hw : S.view (S.apply s l).1 c.ns c.controlId = w at hdoes
    cases hdoes with
    | kept hkept =>
        cases hkept with
        | same => exact ⟨v, rfl, hreq⟩
        | requested st _ _ hst => exact ⟨_, rfl, hst⟩
        | linked p hst => exact ⟨_, rfl, hst⟩
    | retired hid hcall => exact absurd ⟨hcall, hid⟩ hlives.1

theorem reach_linked (h : Machine.Reach S.step (S.Admits tree) S.empty s) :
    S.Inv s ∧ S.Linked tree s := by
  refine h.invariant (I := fun s ↦ S.Inv s ∧ S.Linked tree s) ⟨hS.inv_empty, ?_⟩
    fun s l t hs hl hstep ↦ ?_
  · intro r _ v hv
    rw [hS.view_empty] at hv
    cases hv
  · obtain rfl := Option.some.inj hstep
    exact ⟨hS.inv_apply s l hs.1, hs.2.apply hS hs.1 hl⟩

/-- What the calls after a granted `request` keep. -/
theorem Cancelled.spec (h : S.Cancelled tree c s) :
    S.Inv s ∧ S.Linked tree s ∧ Requested (S.view s c.ns c.controlId) := by
  obtain ⟨s₀, l, reason, hreach, hl, hcall, rfl, htrue, hrun⟩ := h
  obtain ⟨hinv, hlinked⟩ := reach_linked hS hreach
  have hc := tree.same_ns _ hl
  refine hrun.invariant (I := fun s ↦ S.Inv s ∧ S.Linked tree s ∧
      Requested (S.view s l.ref.ns l.ref.controlId))
    ⟨hS.inv_apply _ _ hinv, hlinked.apply hS hinv hl, hS.granted _ _ _ hinv hcall htrue⟩
    fun s l' t hs hok hstep ↦ ?_
  obtain rfl := Option.some.inj hstep
  have hns : l'.ref.ns = l.ref.ns := (tree.same_ns _ hok.1).trans hc.symm
  exact ⟨hS.inv_apply s l' hs.1, hs.2.1.apply hS hs.1 hok.1,
    requested_apply hS hs.1 hns hs.2.2 hok.2⟩

end Steps

/-! ## What a `read` of a descendant reports -/

/-- A `read` reports cancellation exactly if its search finds an answer. -/
theorem ofRead_requested {look : String → Option ControlView} {n : ℕ} {id : String} :
    (∃ found, ControlReply.ofRead (reported (Chain.chase (fun id ↦ sightOf (look id)) [] n id)) =
        .state found ∧ found.requested) ↔
      ∃ st, Chain.chase (fun id ↦ sightOf (look id)) [] n id = .ok (some st) := by
  cases h : Chain.chase (fun id ↦ sightOf (look id)) [] n id with
  | error e => simp [reported, ControlReply.ofRead]
  | ok found =>
      cases found with
      | none => simp [reported, ControlReply.ofRead, CancellationState.initial]
      | some st =>
          obtain ⟨b, hb⟩ := Chain.exists_of_chase h
          simp [reported, ControlReply.ofRead, (sightOf_eq_answer hb).1]

/-- On a line of the tree each record answers, is missing, or links to the next one. -/
theorem Linked.along {s : S.State} (h : S.Linked tree s) {line : List CancellationRef}
    (hline : tree.Line line) :
    List.IsChain (Chain.Along fun id ↦ sightOf (S.view s tree.ns id))
      (line.map CancellationRef.controlId) := by
  induction line with
  | nil => exact List.isChain_nil
  | cons r line ih =>
      cases line with
      | nil => exact List.isChain_singleton _
      | cons p line =>
          have hparent := (List.isChain_cons_cons.mp hline.parents).1
          refine List.isChain_cons_cons.mpr ⟨?_, ih hline.tail⟩
          unfold Chain.Along
          dsimp only
          cases hv : S.view s tree.ns r.controlId with
          | none => exact .inr (.inl rfl)
          | some v =>
              cases hreq : v.state.requested with
              | true => exact .inl ⟨_, sightOf_requested hreq⟩
              | false =>
                  have hlink := h r (hline.mem r List.mem_cons_self) v hv hreq
                  rw [hparent] at hlink
                  exact .inr (.inr (sightOf_link hreq hlink))

/-- A record of a line that is followed by its parent is a dead end only if it is
missing. -/
theorem Linked.dead_iff {s : S.State} (h : S.Linked tree s) {r p : CancellationRef}
    (hr : r ∈ tree.controls) (hparent : IsParent r p) :
    sightOf (S.view s tree.ns r.controlId) = .dead ↔ S.view s tree.ns r.controlId = none := by
  cases hv : S.view s tree.ns r.controlId with
  | none => simp
  | some v =>
      cases hreq : v.state.requested with
      | true => simp [sightOf_requested hreq]
      | false =>
          have hlink := h r hr v hv hreq
          rw [hparent] at hlink
          simp [sightOf_link hreq hlink]

theorem requested_iff {v : Option ControlView} : (∃ st, sightOf v = .answer st) ↔ Requested v := by
  constructor
  · rintro ⟨st, h⟩
    exact (sightOf_eq_answer h).2
  · rintro ⟨w, hw, hreq⟩
    rw [Option.mem_def.mp hw]
    exact ⟨_, sightOf_requested hreq⟩

/-- Every missing record among `line` comes after a requested one. -/
def Unbroken (S : ControlStore) (s : S.State) (ns : String) (line : List CancellationRef) : Prop :=
  ∀ before x after, line = before ++ x :: after → S.view s ns x.controlId = none →
    ∃ y ∈ before, Requested (S.view s ns y.controlId)

/-- **Cancellation and descendants.**  Once a `request` on a control has returned true, and
until the control is retired or expires, a `read` of a descendant reports cancellation
exactly if no record from the descendant's own up to the control is missing, unless one
below it is itself requested. -/
theorem read_descendant_iff (b : ControlBackend) (tree : ControlTree)
    {cancelled descendant : CancellationRef} {between : List CancellationRef}
    {s : (storeOf b).State} {l : ControlStep}
    (hcancelled : (storeOf b).Cancelled tree cancelled s)
    (hlives : (storeOf b).Lives cancelled s l)
    (hcall : l.call = .read) (href : l.ref = descendant)
    (hline : tree.Line (descendant :: between ++ [cancelled])) :
    (∃ found, ((storeOf b).apply s l).2 = .state found ∧ found.requested) ↔
      (storeOf b).Unbroken ((storeOf b).expire s l) tree.ns (descendant :: between) := by
  have hS := storeOf_lawful b
  obtain ⟨hinv, hlinked, hreq⟩ := hcancelled.spec hS
  have hlinked' := hlinked.expire hS l
  have hmem : cancelled ∈ tree.controls := hline.mem _ (by simp)
  have hns : cancelled.ns = tree.ns := tree.same_ns _ hmem
  -- The cancelled control is still requested when the `read` takes place.
  have hlast : ∃ st, sightOf ((storeOf b).view ((storeOf b).expire s l) tree.ns
      cancelled.controlId) = .answer st := by
    rw [requested_iff, ← hns, (hS.view_expire s l _ _).resolve_right hlives.2]
    exact hreq
  have hread := hS.read s l hinv hcall
  rw [href, tree.same_ns _ (hline.mem descendant (by simp))] at hread
  rw [hread, ofRead_requested]
  have hids : (descendant :: between ++ [cancelled]).map CancellationRef.controlId =
      descendant.controlId :: (between ++ [cancelled]).map CancellationRef.controlId := rfl
  have hlen : ((between ++ [cancelled]).map CancellationRef.controlId).length < maxVisited := by
    have h1 := (ControlTree.Line.depth hline).2
    have h2 := descendant.depth_le
    rw [List.length_map]
    exact Nat.lt_succ_of_le (h1.trans h2)
  have hends : (descendant.controlId :: (between ++ [cancelled]).map
      CancellationRef.controlId).getLast (List.cons_ne_nil _ _) = cancelled.controlId := by simp
  rw [Chain.chase_isSome_iff (hids ▸ hlinked'.along hline) hends hlast hline.nodup hlen]
  have hsplit : descendant.controlId :: (between ++ [cancelled]).map CancellationRef.controlId =
      (descendant :: between).map CancellationRef.controlId ++ [cancelled.controlId] := by simp
  rw [hsplit, Chain.leads_append_iff hlast]
  constructor
  · intro hall before x after hpath hx
    obtain ⟨y, hy, hanswer⟩ := hall (before.map _) x.controlId (after.map _)
      (by rw [hpath, List.map_append, List.map_cons]) (by rw [hx, sightOf_none])
    obtain ⟨z, hz, rfl⟩ := List.mem_map.mp hy
    exact ⟨z, hz, requested_iff.mp hanswer⟩
  · intro hall before x after hpath hx
    obtain ⟨before', rest, hrefs, rfl, hrest⟩ := List.map_eq_append_iff.mp hpath
    obtain ⟨x', after', rfl, rfl, rfl⟩ := List.map_eq_cons_iff.mp hrest
    rw [hrefs] at hline
    obtain ⟨p, hparent⟩ := hline.exists_parent
    have hmissing := (hlinked'.dead_iff (hline.mem x' (by simp)) hparent).mp hx
    obtain ⟨y, hy, hyreq⟩ := hall before' x' after' hrefs hmissing
    exact ⟨y.controlId, List.mem_map_of_mem hy, requested_iff.mpr hyreq⟩

/-! ### A Case, a stage and a child -/

/-- The control of a Case. -/
def caseRef : CancellationRef :=
  .memoryRoot zeroDigest 1 "case" 0 strip_case case_ne no_expiry_nonneg

/-- The control of a stage of the Case. -/
def stageRef : CancellationRef :=
  caseRef.below zeroDigest "stage" 0 strip_stage stage_ne (by decide) (by decide) no_expiry_nonneg

/-- The control of a child Case the stage has called. -/
def childRef : CancellationRef :=
  stageRef.below zeroDigest "child" 0 strip_child child_ne (by decide) (by decide) no_expiry_nonneg

/-- The three controls. -/
def caseTree : ControlTree where
  ns := "blackbase"
  controls := {r | r = caseRef ∨ r = stageRef ∨ r = childRef}
  same_ns := by rintro r (rfl | rfl | rfl) <;> rfl
  unique := by
    rintro r (rfl | rfl | rfl) r' (rfl | rfl | rfl) h <;>
      first | rfl | exact absurd h (by decide)
  parent_mem := by
    rintro r (rfl | rfl | rfl) p hp
    · cases hp
    · exact ⟨caseRef, .inl rfl, Option.some.inj hp, rfl⟩
    · exact ⟨stageRef, .inr (.inl rfl), Option.some.inj hp, rfl⟩

/-- A call at time 1. -/
def callAt (call : ControlCall) (ref : CancellationRef) : ControlStep := ⟨call, ref, fun _ ↦ 1, 1⟩

/-- The store after the three controls have been created and the Case is cancelled. -/
def caseCancelled : InMemoryControls :=
  [callAt .create caseRef, callAt .create stageRef, callAt .create childRef,
    callAt (.request "stop") caseRef].foldl (fun s l ↦ (s.apply l).1) .empty

theorem reach_foldl (S : ControlStore) (tree : ControlTree) (s : S.State) (ls : List ControlStep)
    (h : ∀ l ∈ ls, l.ref ∈ tree.controls) :
    Machine.Reach S.step (S.Admits tree) s (ls.foldl (fun s l ↦ (S.apply s l).1) s) := by
  induction ls generalizing s with
  | nil => exact .refl
  | cons l ls ih =>
      have hl := h l List.mem_cons_self
      have hfirst : Machine.Reach S.step (S.Admits tree) s (S.apply s l).1 := .single hl rfl
      exact hfirst.trans (ih _ fun l' hl' ↦ h l' (List.mem_cons_of_mem _ hl'))

theorem caseCancelled_cancelled : inMemoryStore.Cancelled caseTree caseRef caseCancelled := by
  refine ⟨_, callAt (.request "stop") caseRef, "stop", reach_foldl inMemoryStore caseTree .empty
    [callAt .create caseRef, callAt .create stageRef, callAt .create childRef] ?_, .inl rfl, rfl,
    rfl, by decide, .refl⟩
  simp [caseTree, callAt]

theorem caseLine : caseTree.Line ([childRef] ++ [stageRef] ++ [caseRef]) where
  mem := by simp [caseTree]
  parents := by decide

/-- While the record of the stage is there, the child sees that the Case is cancelled. -/
theorem read_descendant_case :
    (∃ found, (inMemoryStore.apply caseCancelled (callAt .read childRef)).2 = .state found ∧
        found.requested) ↔
      inMemoryStore.Unbroken caseCancelled "blackbase" [childRef, stageRef] :=
  read_descendant_iff .memory caseTree caseCancelled_cancelled ⟨by decide, by decide⟩ rfl rfl
    caseLine

/-- Once the stage is retired the child no longer sees it. -/
theorem read_past_retired :
    inMemoryStore.Cancelled caseTree caseRef (caseCancelled.apply (callAt .retire stageRef)).1 ∧
      inMemoryStore.Lives caseRef (caseCancelled.apply (callAt .retire stageRef)).1
        (callAt .read childRef) ∧
      (caseCancelled.apply (callAt .retire stageRef)).1.view "blackbase" "child" ≠ none ∧
      ((caseCancelled.apply (callAt .retire stageRef)).1.apply (callAt .read childRef)).2 =
        .state .initial := by
  refine ⟨?_, ⟨by decide, by decide⟩, by decide, by decide⟩
  obtain ⟨s₀, l, reason, hreach, hl, hcall, href, htrue, hrun⟩ := caseCancelled_cancelled
  exact ⟨s₀, l, reason, hreach, hl, hcall, href, htrue,
    hrun.tail ⟨.inr (.inl rfl), by decide, by decide⟩ rfl⟩

end ControlStore

end Blackbase.Resources
