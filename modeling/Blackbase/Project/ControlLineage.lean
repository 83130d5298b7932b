import Blackbase.Project.ExecutionControl
import Blackbase.Resources.Control.Descendants

/-!
# The lineage of stored controls

Controls are derived from one another by `derive_child` and stored, retired and left to
expire in one cancellation store.  The store keeps the link to the parent's id, and an id
may come to be used again: `derive_child` compares the id of a child with the deriving
control, its root and the intermediate references only.

`origin` remembers, next to the store, the reference each record was created from.
-/

namespace Blackbase.Project

open Blackbase.Resources

/-- A store, the controls that exist, and the reference behind each record. -/
structure LineageState (S : ControlStore) where
  store : S.State
  known : List ExecutionControl
  origin : String → Option CancellationRef

/-- A derivation, or a call of the store, by the index of the control it is made on. -/
inductive LineageStep where
  | derive (i : ℕ) (call : DeriveCall)
  | create (i : ℕ) (clock : ℕ → Time) (server : Time)
  | retire (i : ℕ) (clock : ℕ → Time) (server : Time)
  | expire (i : ℕ) (clock : ℕ → Time) (server : Time)

namespace LineageStep

/-- The call of the store on the control `ref`. -/
def onStore (ref : CancellationRef) : LineageStep → ControlStep
  | .derive _ call => ⟨.expire, ref, fun _ ↦ call.now, call.now⟩
  | .create _ clock server => ⟨.create, ref, clock, server⟩
  | .retire _ clock server => ⟨.retire, ref, clock, server⟩
  | .expire _ clock server => ⟨.expire, ref, clock, server⟩

/-- The index of the control. -/
def index : LineageStep → ℕ
  | .derive i _ => i
  | .create i _ _ | .retire i _ _ | .expire i _ _ => i

end LineageStep

namespace LineageState

variable {S : ControlStore} (sha256 : String → Digest) (ns : String)

/-- Nothing is stored yet. -/
def start (S : ControlStore) (roots : List ExecutionControl) : LineageState S :=
  ⟨S.empty, roots, fun _ ↦ none⟩

/-- The store after a call.  A record it stores where there was none belongs to the reference
of the call. -/
def call (s : LineageState S) (l : ControlStep) : LineageState S where
  store := (S.apply s.store l).1
  known := s.known
  origin := fun id ↦
    if id = l.ref.controlId ∧ (S.view (S.expire s.store l) ns id).isNone ∧
        ¬ (S.apply s.store l).2.isRaised then some l.ref
    else s.origin id

/-- One step; the calls are made in the namespace `ns`. -/
def step (s : LineageState S) (l : LineageStep) : Option (LineageState S) :=
  match s.known[l.index]? with
  | none => none
  | some control => match l with
    | .derive _ call =>
        match control.deriveChild sha256 call.now call.child call.intermediates with
        | .error _ => none
        | .ok derived => some { s with known := s.known ++ [derived] }
    | l => if control.cancellation.ns = ns then some (s.call ns (l.onStore control.cancellation))
        else none

/-- A call that is about to store a new record stores it above the depth of the record of
its parent and below the depth of the records that name it as their parent. -/
def Fits (s : LineageState S) (l : ControlStep) : Prop :=
  l.call = .create → S.view (S.expire s.store l) ns l.ref.controlId = none →
    ∀ id r, S.view (S.expire s.store l) ns id ≠ none → s.origin id = some r →
      (r.parentControlId = some l.ref.controlId → l.ref.lineageDepth < r.lineageDepth) ∧
      (l.ref.parentControlId = some id → r.lineageDepth < l.ref.lineageDepth)

/-- No step of the run stores a record that does not fit. -/
def Fitting (s : LineageState S) (l : LineageStep) : Prop :=
  ∀ control, s.known[l.index]? = some control → s.Fits ns (l.onStore control.cancellation)

/-- The parent link a `read` follows from a stored control. -/
def Link (s : LineageState S) : String → String → Prop :=
  Chain.Link fun id ↦ sightOf (S.view s.store ns id)

variable {ns}

/-- Each record has the parent link of the reference it was created from, and the record
it links to is not as deep. -/
structure Sound (ns : String) (s : LineageState S) : Prop where
  inv : S.Inv s.store
  record : ∀ id v, S.view s.store ns id = some v → v.state.requested = false ∧
    ∃ r, s.origin id = some r ∧ v.parent = r.parentControlId
  depth : ∀ id r p q, S.view s.store ns id ≠ none → s.origin id = some r →
    r.parentControlId = some p → S.view s.store ns p ≠ none → s.origin p = some q →
    q.lineageDepth < r.lineageDepth

/-- The depth of the record of a control. -/
def rank (ns : String) (s : LineageState S) (id : String) : ℕ :=
  if S.view s.store ns id = none then 0
  else ((s.origin id).map CancellationRef.lineageDepth).getD 0

/-- What a call makes of the record of the control `id`. -/
inductive Becomes (ns : String) (s : LineageState S) (l : ControlStep) (id : String) : Prop
  | gone (hview : S.view (s.call ns l).store ns id = none)
  | stays (hview : S.view (s.call ns l).store ns id = S.view s.store ns id)
      (horigin : (s.call ns l).origin id = s.origin id)
      (hlive : (S.apply s.store l).2.isRaised = false → S.view (S.expire s.store l) ns id ≠ none)
  | made (hid : id = l.ref.controlId) (hcall : l.call = .create)
      (hreply : (S.apply s.store l).2.isRaised = false)
      (hfree : S.view (S.expire s.store l) ns id = none)
      (hview : S.view (s.call ns l).store ns id = some ⟨l.ref.parentControlId, .initial⟩)
      (horigin : (s.call ns l).origin id = some l.ref)

section Sound

variable {s : LineageState S} {l : ControlStep}

theorem rank_le (id : String) : s.rank ns id ≤ maxCancellationLineageDepth := by
  unfold rank
  split
  · exact Nat.zero_le _
  · cases s.origin id with
    | none => exact Nat.zero_le _
    | some r => exact r.depth_le

/-- Links between records go down in depth. -/
theorem Sound.descending (h : s.Sound ns) :
    Chain.Descending (fun id ↦ sightOf (S.view s.store ns id)) (s.rank ns) := by
  intro id p hlink
  cases hv : S.view s.store ns id with
  | none => simp [Chain.Link, hv] at hlink
  | some v =>
      obtain ⟨hreq, r, hr, hparent⟩ := h.record id v hv
      have hp : v.parent = some p := by
        cases hp : v.parent with
        | none => simp [Chain.Link, hv, sightOf_root hreq hp] at hlink
        | some q =>
            simp only [Chain.Link, hv, sightOf_link hreq hp, Chain.Sight.next.injEq] at hlink
            rw [hlink]
      have hrp : r.parentControlId = some p := hparent ▸ hp
      have hpos : 0 < r.lineageDepth := by
        apply Nat.pos_of_ne_zero
        intro h0
        rw [r.root_iff.mp h0] at hrp
        cases hrp
      have hrank : s.rank ns id = r.lineageDepth := by simp [rank, hv, hr]
      rw [hrank]
      by_cases hpv : S.view s.store ns p = none
      · simpa [rank, hpv] using hpos
      · obtain ⟨w, hw⟩ := Option.ne_none_iff_exists'.mp hpv
        obtain ⟨-, q, hq, -⟩ := h.record p w hw
        have hlt := h.depth id r p q (by simp [hv]) hr hrp hpv hq
        simpa [rank, hpv, hq] using hlt

/-- A call that is not a `request` takes records away, or it is a `create` that adds the
record of its reference. -/
theorem Sound.becomes (hS : S.Lawful) (h : s.Sound ns) (hns : l.ref.ns = ns)
    (hcall : l.call.isRequest = false) (id : String) : s.Becomes ns l id := by
  subst hns
  cases hreply : (S.apply s.store l).2.isRaised with
  | true =>
      obtain ⟨e, he⟩ := ControlReply.isRaised_iff.mp hreply
      rcases hS.view_raised s.store l id e h.inv he with hview | ⟨hview, -⟩
      · exact .stays hview (if_neg fun hc ↦ hc.2.2 hreply) (by simp [hreply])
      · exact .gone hview
  | false =>
      have hdoes := hS.view_apply s.store l id h.inv fun e he ↦ by
        rw [ControlReply.isRaised_iff.mpr ⟨e, he⟩] at hreply
        cases hreply
      have hstore : (s.call l.ref.ns l).store = (S.apply s.store l).1 := rfl
      rw [← hstore] at hdoes
      generalize hw : S.view (s.call l.ref.ns l).store l.ref.ns id = w at hdoes
      cases hv : S.view (S.expire s.store l) l.ref.ns id with
      | none =>
          rw [hv] at hdoes
          cases hdoes with
          | absent => exact .gone hw
          | retired => exact .gone hw
          | made hid hmade =>
              cases hmade with
              | requested p st hreq => simp [hcall] at hreq
              | fresh hcreate =>
                  exact .made hid.symm hcreate hreply hv hw
                    (if_pos ⟨hid.symm, by rw [hv]; rfl, by simp [hreply]⟩)
      | some v =>
          rw [hv] at hdoes
          have hview : S.view (S.expire s.store l) l.ref.ns id = S.view s.store l.ref.ns id :=
            (hS.view_expire s.store l l.ref.ns id).resolve_right (by simp [hv])
          have horigin : (s.call l.ref.ns l).origin id = s.origin id :=
            if_neg fun hc ↦ by simp [hv] at hc
          cases hdoes with
          | retired => exact .gone hw
          | kept hkept =>
              cases hkept with
              | same => exact .stays (by rw [hw, ← hview, hv]) horigin (by simp [hv])
              | requested st hreq => simp [hcall] at hreq
              | linked p hst =>
                  have := (h.record id v (hview ▸ hv)).1
                  simp [this] at hst

/-- Calls that fit keep the records sound. -/
theorem Sound.call (hS : S.Lawful) (h : s.Sound ns) (hns : l.ref.ns = ns)
    (hcall : l.call.isRequest = false) (hfit : s.Fits ns l) : (s.call ns l).Sound ns := by
  have hbecomes := h.becomes hS hns hcall
  refine ⟨hS.inv_apply _ _ h.inv, fun id v hv ↦ ?_, fun id r p q hid hr hlink hp hq ↦ ?_⟩
  · cases hbecomes id with
    | gone hview => simp [hview] at hv
    | stays hview horigin =>
        rw [horigin]
        exact h.record id v (hview ▸ hv)
    | made hid _ _ _ hview horigin =>
        rw [hview] at hv
        obtain rfl := Option.some.inj hv
        exact ⟨rfl, l.ref, horigin, rfl⟩
  · cases hbecomes id with
    | gone hview => exact absurd hview hid
    | stays hview horigin hlive =>
        rw [hview] at hid
        rw [horigin] at hr
        cases hbecomes p with
        | gone hview' => exact absurd hview' hp
        | stays hview' horigin' =>
            exact h.depth id r p q hid hr hlink (hview' ▸ hp) (horigin' ▸ hq)
        | made hpid hcreate hreply hfree _ horigin' =>
            -- The new record is the parent of an old one.
            rw [horigin'] at hq
            obtain rfl := Option.some.inj hq
            exact (hfit hcreate (hpid ▸ hfree) id r (hlive hreply) hr).1 (hpid ▸ hlink)
    | made hidref hcreate hreply hfree _ horigin =>
        rw [horigin] at hr
        obtain rfl := Option.some.inj hr
        cases hbecomes p with
        | gone hview' => exact absurd hview' hp
        | stays _ horigin' hlive =>
            rw [horigin'] at hq
            exact (hfit hcreate (hidref ▸ hfree) p q (hlive hreply) hq).2 hlink
        | made hpid => exact absurd (hpid ▸ hlink) l.ref.parent_ne

/-- Every fitting step keeps the records sound. -/
theorem Sound.step {sha256 : String → Digest} (hS : S.Lawful) {l : LineageStep}
    {t : LineageState S} (h : s.Sound ns) (hfit : s.Fitting ns l)
    (hstep : s.step sha256 ns l = some t) : t.Sound ns := by
  unfold LineageState.step at hstep
  split at hstep
  · cases hstep
  · next control hcontrol =>
      cases l with
      | derive i call =>
          dsimp only at hstep
          split at hstep
          · cases hstep
          · obtain rfl := Option.some.inj hstep
            exact ⟨h.inv, h.record, h.depth⟩
      | create | retire | expire =>
          dsimp only at hstep
          split at hstep
          · next hns =>
              obtain rfl := Option.some.inj hstep
              exact h.call hS hns rfl (hfit control hcontrol)
          · cases hstep

/-- A `read` does not raise in a sound state. -/
theorem Sound.read (hS : S.Lawful) (h : s.Sound ns) (hcall : l.call = .read)
    (hns : l.ref.ns = ns) : (S.apply s.store l).2.isRaised = false := by
  subst hns
  -- The records that have not expired link to one another as before.
  have hdesc : Chain.Descending (fun id ↦ sightOf (S.view (S.expire s.store l) l.ref.ns id))
      (s.rank l.ref.ns) := by
    intro id p hlink
    apply h.descending id p
    rcases hS.view_expire s.store l l.ref.ns id with hview | hview
    · simpa [Chain.Link, hview] using hlink
    · simp [Chain.Link, hview] at hlink
  have hvisited : ∀ v ∈ ([] : List String), s.rank l.ref.ns l.ref.controlId < s.rank l.ref.ns v :=
    fun v hv ↦ absurd hv List.not_mem_nil
  have hrank : s.rank l.ref.ns l.ref.controlId < maxVisited := Nat.lt_succ_of_le (s.rank_le _)
  obtain ⟨found, hfound⟩ := hdesc.chase_ok hvisited hrank
  rw [hS.read s.store l h.inv hcall, hfound]
  rfl

end Sound

/-- The lineages of a state: from every stored control the parent links lead on without
meeting a control twice, in no more steps than the control is deep; no `read` raises; and
every derived control is one deeper than the reference it hangs on. -/
structure Bounded (sha256 : String → Digest) (ns : String) (s : LineageState S) : Prop where
  path : ∀ id, S.view s.store ns id ≠ none → ∃ r, s.origin id = some r ∧
    ∀ path, List.IsChain (s.Link ns) (id :: path) → (id :: path).Nodup ∧ path.length ≤ r.lineageDepth
  read : ∀ l : ControlStep, l.call = .read → l.ref.ns = ns →
    (S.apply s.store l).2.isRaised = false
  derived : ∀ control ∈ s.known, ∀ (call : DeriveCall) derived,
    control.deriveChild sha256 call.now call.child call.intermediates = .ok derived →
    derived.cancellation.lineageDepth =
      ((control.cancellation :: call.intermediates).getLast (List.cons_ne_nil _ _)).lineageDepth + 1

theorem Sound.bounded (hS : S.Lawful) {s : LineageState S} (h : s.Sound ns)
    (sha256 : String → Digest) : s.Bounded sha256 ns := by
  constructor
  · intro id hid
    obtain ⟨v, hv⟩ := Option.ne_none_iff_exists'.mp hid
    obtain ⟨-, r, hr, -⟩ := h.record id v hv
    refine ⟨r, hr, fun path hpath ↦ ⟨h.descending.nodup hpath, ?_⟩⟩
    have hrank : s.rank ns id = r.lineageDepth := by simp [rank, hv, hr]
    rw [← hrank]
    exact h.descending.length_le hpath
  · intro l hcall hns
    exact h.read hS hcall hns
  · intro control _ call derived hderived
    exact (ExecutionControl.deriveChild_ok hderived).ref.lineage.2.2.1

/-- **Lineage.**  As long as no `create` stores a record that is not above the records that
name it as their parent and below that of its own parent, the lineages stay bounded. -/
theorem lineage_bounded (b : ControlBackend) (sha256 : String → Digest) (ns : String)
    (roots : List ExecutionControl) {s : LineageState (storeOf b)}
    (h : Machine.Reach (step sha256 ns) (Fitting ns) (start (storeOf b) roots) s) :
    s.Bounded sha256 ns := by
  have hS := storeOf_lawful b
  have hstart : (start (storeOf b) roots).Sound ns := by
    have hview : ∀ id, (storeOf b).view (start (storeOf b) roots).store ns id = none :=
      hS.view_empty ns
    refine ⟨hS.inv_empty, fun id v hv ↦ ?_, fun id r p q hid ↦ ?_⟩
    · simp [hview] at hv
    · exact absurd (hview id) hid
  exact (h.invariant hstart fun _ _ _ hs hfit hstep ↦ hs.step hS hfit hstep).bounded hS sha256

/-! ### An id that is used again -/

/-- The root of the lineages below. -/
def rootRef (sha256 : String → Digest) : CancellationRef :=
  .memoryRoot (sha256 "root:case") 1 "case" 0 strip_case case_ne no_expiry_nonneg

/-- A child of the control without intermediate references. -/
def child (sha256 : String → Digest) (id : String) (hid : Text.strip id = id) (hne : id ≠ "") :
    DeriveCall where
  now := 1
  child := .ref (.memoryRoot (sha256 id) 1 id 0 hid hne no_expiry_nonneg)
  intermediates := []

/-- What is known of a control derived like this. -/
structure ChildOf (p : ExecutionControl) (id : String) (c : ExecutionControl) : Prop where
  controlId : c.cancellation.controlId = id
  ns : c.cancellation.ns = p.cancellation.ns
  parent : c.cancellation.parentControlId = some p.cancellation.controlId
  root : c.cancellation.rootControlId = p.cancellation.rootControlId
  depth : c.cancellation.lineageDepth = p.cancellation.lineageDepth + 1

theorem exists_child (sha256 : String → Digest) (parent : ExecutionControl) {id : String}
    (hid : Text.strip id = id) (hne : id ≠ "") (hparent : id ≠ parent.cancellation.controlId)
    (hroot : id ≠ parent.cancellation.rootControlId)
    (hdepth : parent.cancellation.lineageDepth < maxCancellationLineageDepth) :
    ∃ c, parent.deriveChild sha256 (child sha256 id hid hne).now (child sha256 id hid hne).child
      (child sha256 id hid hne).intermediates = .ok c ∧ ChildOf parent id c := by
  obtain ⟨c, hc⟩ := ExecutionControl.exists_deriveChild sha256 1 parent
    (child sha256 id hid hne).child [] (by simp) (List.isChain_singleton _)
    (by simp [child, ChildControl.cancellation, CancellationRef.memoryRoot, hparent, hroot]) hdepth
  have href := (ExecutionControl.deriveChild_ok hc).ref
  refine ⟨c, hc, href.controlId, href.authority.2.1, href.lineage.1, ?_, href.lineage.2.2.1⟩
  rw [href.lineage.2.1, rootOf_eq]
  rfl

/-- The id `a` comes to be used again below `b`, a child of its first use. -/
def reuse (sha256 : String → Digest) : List LineageStep :=
  [.derive 0 (child sha256 "a" (by decide) (by decide)),
    .derive 1 (child sha256 "b" (by decide) (by decide)),
    .create 0 (fun _ ↦ 1) 1, .create 1 (fun _ ↦ 1) 1, .create 2 (fun _ ↦ 1) 1,
    .retire 1 (fun _ ↦ 1) 1,
    .derive 2 (child sha256 "a" (by decide) (by decide)),
    .create 3 (fun _ ↦ 1) 1]

theorem step_derive {S : ControlStore} {sha256 : String → Digest} {ns : String}
    {s : LineageState S} {i : ℕ} {c d : ExecutionControl} {call : DeriveCall}
    (hc : s.known[i]? = some c)
    (h : c.deriveChild sha256 call.now call.child call.intermediates = .ok d) :
    s.step sha256 ns (.derive i call) = some { s with known := s.known ++ [d] } := by
  simp [step, LineageStep.index, hc, h]

theorem step_create {S : ControlStore} {sha256 : String → Digest} {ns : String}
    {s : LineageState S} {i : ℕ} {c : ExecutionControl} (clock : ℕ → Time) (server : Time)
    (hc : s.known[i]? = some c) (hns : c.cancellation.ns = ns) :
    s.step sha256 ns (.create i clock server) =
      some (s.call ns ⟨.create, c.cancellation, clock, server⟩) := by
  simp [step, LineageStep.index, LineageStep.onStore, hc, hns]

theorem step_retire {S : ControlStore} {sha256 : String → Digest} {ns : String}
    {s : LineageState S} {i : ℕ} {c : ExecutionControl} (clock : ℕ → Time) (server : Time)
    (hc : s.known[i]? = some c) (hns : c.cancellation.ns = ns) :
    s.step sha256 ns (.retire i clock server) =
      some (s.call ns ⟨.retire, c.cancellation, clock, server⟩) := by
  simp [step, LineageStep.index, LineageStep.onStore, hc, hns]

/-- The run derives `a`, `b` and another `a`, and leaves the store as these calls do. -/
theorem run_reuse (sha256 : String → Digest) : ∃ (s : LineageState inMemoryStore)
    (a b a' : ExecutionControl),
    Machine.run (step sha256 "blackbase") (start inMemoryStore [.ofRef (rootRef sha256)])
      (reuse sha256) = some s ∧
    ChildOf (.ofRef (rootRef sha256)) "a" a ∧ ChildOf a "b" b ∧ ChildOf b "a" a' ∧
    s.known = [.ofRef (rootRef sha256), a, b, a'] ∧
    s.store = (((((InMemoryControls.empty.apply
      ⟨.create, rootRef sha256, fun _ ↦ 1, 1⟩).1.apply
      ⟨.create, a.cancellation, fun _ ↦ 1, 1⟩).1.apply
      ⟨.create, b.cancellation, fun _ ↦ 1, 1⟩).1.apply
      ⟨.retire, a.cancellation, fun _ ↦ 1, 1⟩).1.apply
      ⟨.create, a'.cancellation, fun _ ↦ 1, 1⟩).1 := by
  have hroot : (ExecutionControl.ofRef (rootRef sha256)).cancellation.rootControlId = "case" := rfl
  have hid : (ExecutionControl.ofRef (rootRef sha256)).cancellation.controlId = "case" := rfl
  have hdepth : (ExecutionControl.ofRef (rootRef sha256)).cancellation.lineageDepth = 0 := rfl
  have hns : (ExecutionControl.ofRef (rootRef sha256)).cancellation.ns = "blackbase" := rfl
  obtain ⟨a, ha, hca⟩ := exists_child sha256 (.ofRef (rootRef sha256))
    (show Text.strip "a" = "a" by decide) (by decide) (by simp [hid]) (by simp [hroot])
    (by simp [hdepth, maxCancellationLineageDepth])
  have har := hca.root.trans hroot
  have hans := hca.ns.trans hns
  obtain ⟨b, hb, hcb⟩ := exists_child sha256 a (show Text.strip "b" = "b" by decide) (by decide)
    (by simp [hca.controlId]) (by simp [har])
    (by simp [hca.depth, hdepth, maxCancellationLineageDepth])
  obtain ⟨a', ha', hca'⟩ := exists_child sha256 b (show Text.strip "a" = "a" by decide) (by decide)
    (by simp [hcb.controlId]) (by simp [hcb.root, har])
    (by simp [hcb.depth, hca.depth, hdepth, maxCancellationLineageDepth])
  have hbns := hcb.ns.trans hans
  simp only [reuse, Machine.run_cons]
  rw [step_derive rfl ha, Option.bind_some, step_derive rfl hb, Option.bind_some,
    step_create _ _ rfl hns, Option.bind_some, step_create _ _ rfl hans, Option.bind_some,
    step_create _ _ rfl hbns, Option.bind_some, step_retire _ _ rfl hans, Option.bind_some,
    step_derive rfl ha', Option.bind_some, step_create _ _ rfl (hca'.ns.trans hbns),
    Option.bind_some, Machine.run_nil]
  exact ⟨_, a, b, a', rfl, hca, hcb, hca', rfl, rfl⟩

/-- The record of `a` then links to `b`, and that of `b` to `a`. -/
theorem exists_lineage_cycle (sha256 : String → Digest) : ∃ s : LineageState inMemoryStore,
    Machine.run (step sha256 "blackbase") (start inMemoryStore [.ofRef (rootRef sha256)])
      (reuse sha256) = some s ∧
    ∃ c ∈ s.known, (inMemoryStore.apply s.store ⟨.read, c.cancellation, fun _ ↦ 1, 1⟩).2 =
      .raised .cycle := by
  obtain ⟨s, a, b, a', hrun, hca, hcb, hca', hknown, hstore⟩ := run_reuse sha256
  refine ⟨s, hrun, a', by simp [hknown], ?_⟩
  have hkey : (rootRef sha256).key = ("blackbase", "case") := rfl
  have hka : a.cancellation.key = ("blackbase", "a") := Prod.ext hca.ns hca.controlId
  have hkb : b.cancellation.key = ("blackbase", "b") :=
    Prod.ext (hcb.ns.trans hca.ns) hcb.controlId
  have hka' : a'.cancellation.key = ("blackbase", "a") :=
    Prod.ext (hca'.ns.trans (hcb.ns.trans hca.ns)) hca'.controlId
  have hns : a'.cancellation.ns = "blackbase" := hca'.ns.trans (hcb.ns.trans hca.ns)
  have hpb : b.cancellation.parentControlId = some "a" := by rw [hcb.parent, hca.controlId]
  have hpa : a'.cancellation.parentControlId = some "b" := by rw [hca'.parent, hcb.controlId]
  have hlooka : s.store.look "blackbase" "a" = .next "b" := by
    rw [hstore]
    simp [InMemoryControls.apply, InMemoryControls.create, InMemoryControls.retire, hkey, hka,
      hkb, hka', InMemoryControls.empty, InMemoryControls.look, hpa,
      CancellationState.initial]
  have hlookb : s.store.look "blackbase" "b" = .next "a" := by
    rw [hstore]
    simp [InMemoryControls.apply, InMemoryControls.create, InMemoryControls.retire, hkey, hka,
      hkb, hka', InMemoryControls.empty, InMemoryControls.look, hpb,
      CancellationState.initial]
  have hchase : Chain.chase (s.store.look "blackbase") [] maxVisited "a" = .error .cycle := by
    rw [show maxVisited = 254 + 1 + 1 + 1 from rfl, Chain.chase_next (by simp) hlooka,
      Chain.chase_next (by simp) hlookb, Chain.chase, if_pos (by simp)]
  show ControlReply.ofRead (s.store.read a'.cancellation) = _
  unfold InMemoryControls.read
  rw [hns, hca'.controlId, hchase]
  rfl

/-- So it is under a digest that maps every text to zeros. -/
theorem lineage_cycle : ∃ s : LineageState inMemoryStore,
    Machine.run (step (fun _ ↦ ControlStore.zeroDigest) "blackbase")
      (start inMemoryStore [.ofRef (rootRef fun _ ↦ ControlStore.zeroDigest)])
      (reuse fun _ ↦ ControlStore.zeroDigest) = some s ∧
    ∃ c ∈ s.known, (inMemoryStore.apply s.store ⟨.read, c.cancellation, fun _ ↦ 1, 1⟩).2 =
      .raised .cycle :=
  exists_lineage_cycle fun _ ↦ ControlStore.zeroDigest

/-! ### A lineage of two -/

/-- A child of the root is derived, and both are stored. -/
theorem reach_two (sha256 : String → Digest) : ∃ s : LineageState inMemoryStore,
    Machine.Reach (step sha256 "blackbase") (Fitting "blackbase")
      (start inMemoryStore [.ofRef (rootRef sha256)]) s ∧
    inMemoryStore.view s.store "blackbase" "a" = some ⟨some "case", .initial⟩ := by
  obtain ⟨a, ha, hca⟩ := exists_child sha256 (.ofRef (rootRef sha256))
    (show Text.strip "a" = "a" by decide) (by decide) (by simp [rootRef, ExecutionControl.ofRef, CancellationRef.memoryRoot])
    (by simp [rootRef, ExecutionControl.ofRef, CancellationRef.memoryRoot])
    (by simp [rootRef, ExecutionControl.ofRef, CancellationRef.memoryRoot,
      maxCancellationLineageDepth])
  have hns : (ExecutionControl.ofRef (rootRef sha256)).cancellation.ns = "blackbase" := rfl
  have hkey : (rootRef sha256).key = ("blackbase", "case") := rfl
  have hka : a.cancellation.key = ("blackbase", "a") := Prod.ext hca.ns hca.controlId
  have hpa : a.cancellation.parentControlId = some "case" := hca.parent
  refine ⟨_, ((Machine.Reach.single ?_ (step_derive (i := 0) rfl ha)).tail ?_
    (step_create (fun _ ↦ 1) 1 (i := 0) rfl hns)).tail ?_
    (step_create (fun _ ↦ 1) 1 (i := 1) rfl (hca.ns.trans hns)), ?_⟩
  · intro control _ hcreate
    cases hcreate
  · intro control _ _ _ id r hid
    exact absurd rfl hid
  · rintro control hcontrol - - id r - hr
    obtain rfl : a = control := Option.some.inj hcontrol
    -- Only the root is stored.
    obtain rfl : rootRef sha256 = r :=
      Option.some.inj (Option.ite_none_right_eq_some.mp hr).2
    constructor
    · rintro ⟨⟩
    · intro _
      show _ < a.cancellation.lineageDepth
      rw [hca.depth]
      exact Nat.lt_succ_self _
  · show InMemoryControls.view _ "blackbase" "a" = _
    simp [LineageState.call, inMemoryStore, InMemoryControls.apply, InMemoryControls.create, hka,
      hpa, InMemoryControls.view, InMemoryControls.empty, start, ExecutionControl.ofRef, hkey]

/-- From the child the links lead to the root and no further. -/
theorem lineage_bounded_two : ∃ s : LineageState inMemoryStore,
    inMemoryStore.view s.store "blackbase" "a" = some ⟨some "case", .initial⟩ ∧
      s.Bounded (fun _ ↦ ControlStore.zeroDigest) "blackbase" := by
  obtain ⟨s, hs, hview⟩ := reach_two fun _ ↦ ControlStore.zeroDigest
  exact ⟨s, hview, lineage_bounded .memory _ _ _ hs⟩

end LineageState

end Blackbase.Project
