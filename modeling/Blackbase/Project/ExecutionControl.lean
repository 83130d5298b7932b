import Blackbase.Core.Machine
import Blackbase.Resources.Control.Model

/-!
# Execution controls and their derivation

`ExecutionControl` of `project/execution.py` and its `derive_child`, followed down a
line of descent: a control derives a child, the child derives a child of its own,
each time through whatever intermediate references the method accepts.

The ancestors of a derived control are the controls it descends from and the
intermediate references on the way.  Its deadline is computed from the last of them
and from the deadline the caller asks for.
-/

namespace Blackbase.Project

open Blackbase.Resources

/-- A value on the wire. -/
inductive WireValue where
  | null
  | flag (b : Bool)
  | number (x : ℚ)
  | text (s : String)
  | list (items : List WireValue)
  | mapping (items : List (String × WireValue))

/-- The metadata of a control, by its keys. -/
abbrev Metadata := String → Option WireValue

/-- `{**base, **update}`. -/
def Metadata.merge (base update : Metadata) : Metadata := fun k ↦ (update k).or (base k)

/-- `ExecutionControl`. -/
structure ExecutionControl where
  cancellation : CancellationRef
  termination : TerminationPolicy
  metadata : Metadata

namespace ExecutionControl

/-- `deadline_at`. -/
def deadlineAt (c : ExecutionControl) : Time := c.cancellation.deadlineAt

/-- `ExecutionControl(cancellation=ref)`. -/
def ofRef (ref : CancellationRef) : ExecutionControl := ⟨ref, .default, fun _ ↦ none⟩

end ExecutionControl

/-- What `derive_child` may be handed as its `child`. -/
inductive ChildControl where
  | control (c : ExecutionControl)
  | ref (r : CancellationRef)

namespace ChildControl

/-- `child_cancellation`. -/
def cancellation : ChildControl → CancellationRef
  | .control c => c.cancellation
  | .ref r => r

/-- `termination`, which a bare reference takes from the deriving control. -/
def termination (parent : ExecutionControl) : ChildControl → TerminationPolicy
  | .control c => c.termination
  | .ref _ => parent.termination

/-- `child_metadata`. -/
def metadata : ChildControl → Metadata
  | .control c => c.metadata
  | .ref _ => fun _ ↦ none

end ChildControl

/-- Why `derive_child` raises. -/
inductive DeriveError where
  | intermediateAuthority
  | intermediateLineage
  | lineageCycle
  | ref (e : ControlRefError)
deriving DecidableEq, Repr

/-- The texts of the `ValueError`s. -/
def DeriveError.message : DeriveError → String
  | .intermediateAuthority => "intermediate cancellation must use the parent authority"
  | .intermediateLineage => "intermediate cancellation does not extend the parent lineage"
  | .lineageCycle => "child cancellation control_id would create a lineage cycle"
  | .ref e => e.message

section Derivation

variable (sha256 : String → Digest)

/-- The lineage digest of the control `childId` below `parent`. -/
def childDigest (parent : CancellationRef) (childId : String) : Digest :=
  let parentDigest := parent.lineageDigest.text
  let parentId := parent.controlId
  sha256 s!"{parentDigest}:{parentId}:{childId}"

/-- `parent.root_control_id or parent.control_id`. -/
def rootOf (parent : CancellationRef) : String := orDefault parent.rootControlId parent.controlId

/-- `intermediate` carries the lineage of a child of `parent`. -/
def ExtendsLineage (parent intermediate : CancellationRef) : Prop :=
  intermediate.parentControlId = some parent.controlId ∧
    intermediate.rootControlId = rootOf parent ∧
    intermediate.lineageDepth = parent.lineageDepth + 1 ∧
    intermediate.lineageDigest = childDigest sha256 parent intermediate.controlId

instance (parent intermediate : CancellationRef) :
    Decidable (ExtendsLineage sha256 parent intermediate) :=
  inferInstanceAs (Decidable (_ ∧ _ ∧ _ ∧ _))

/-- `intermediate` is stored where the deriving control is. -/
def SameAuthority (self intermediate : CancellationRef) : Prop :=
  intermediate.backend = self.backend ∧ intermediate.ns = self.ns ∧ intermediate.path = self.path

instance (self intermediate : CancellationRef) : Decidable (SameAuthority self intermediate) :=
  inferInstanceAs (Decidable (_ ∧ _ ∧ _))

/-- The loop over the intermediate references: the reference the child hangs on. -/
def expectedParent (self : CancellationRef) :
    CancellationRef → List CancellationRef → Except DeriveError CancellationRef
  | parent, [] => .ok parent
  | parent, intermediate :: rest =>
      if ¬ SameAuthority self intermediate then .error .intermediateAuthority
      else if ¬ ExtendsLineage sha256 parent intermediate then .error .intermediateLineage
      else expectedParent self intermediate rest

/-- `min` of the deadlines that are set, and zero if none is. -/
def effectiveDeadline (values : List Time) : Time :=
  ((values.filter fun v ↦ 0 < v).min?).getD 0

/-- The fields of the reference of the derived control. -/
def childFields (parent child : CancellationRef) : ControlFields where
  controlId := child.controlId
  backend := parent.backend.name
  ns := parent.ns
  path := parent.path
  redisUrlEnv := parent.redisUrlEnv
  deadlineAt := effectiveDeadline [parent.deadlineAt, child.deadlineAt]
  createdAt := child.createdAt
  parentControlId := some parent.controlId
  rootControlId := some (rootOf parent)
  lineageDepth := parent.lineageDepth + 1
  lineageDigest := (childDigest sha256 parent child.controlId).text
  activeTtlSeconds := parent.activeTtlSeconds
  heartbeatSeconds := parent.heartbeatSeconds
  retentionSeconds := parent.retentionSeconds

/-- What `derive_child` records in the metadata of the derived control. -/
def lineageMetadata (self derived : CancellationRef) (intermediates : List CancellationRef) :
    Metadata
  | "parent_control_id" => some (.text self.controlId)
  | "lineage_root_control_id" => some (.text derived.rootControlId)
  | "lineage_depth" => some (.number derived.lineageDepth)
  | "lineage_digest" => some (.text derived.lineageDigest.text)
  | "intermediate_control_ids" => some (.list (intermediates.map fun r ↦ .text r.controlId))
  | _ => none

/-- `ExecutionControl.derive_child`. -/
def ExecutionControl.deriveChild (now : Time) (self : ExecutionControl) (child : ChildControl)
    (intermediates : List CancellationRef) : Except DeriveError ExecutionControl :=
  match expectedParent sha256 self.cancellation self.cancellation intermediates with
  | .error e => .error e
  | .ok parent =>
      if child.cancellation.controlId ∈ self.cancellation.controlId ::
          self.cancellation.rootControlId :: intermediates.map CancellationRef.controlId then
        .error .lineageCycle
      else match CancellationRef.make sha256 now (childFields sha256 parent child.cancellation) with
        | .error e => .error (.ref e)
        | .ok cancellation => .ok {
            cancellation := cancellation
            termination := child.termination self
            metadata := (self.metadata.merge child.metadata).merge
              (lineageMetadata self.cancellation cancellation intermediates) }

end Derivation

/-! ## What a derivation gives -/

section Spec

variable {sha256 : String → Digest}

/-- The loop accepts a chain of references of one authority, and returns its end. -/
theorem expectedParent_eq_ok {self parent last : CancellationRef}
    {intermediates : List CancellationRef} :
    expectedParent sha256 self parent intermediates = .ok last ↔
      (∀ r ∈ intermediates, SameAuthority self r) ∧
        List.IsChain (ExtendsLineage sha256) (parent :: intermediates) ∧
        (parent :: intermediates).getLast (List.cons_ne_nil _ _) = last := by
  induction intermediates generalizing parent with
  | nil => simp [expectedParent]
  | cons r rest ih =>
      unfold expectedParent
      split
      · next h => simp [h]
      · next h =>
          split
          · next h' => simp [h']
          · next h' =>
              rw [ih, List.isChain_cons_cons, List.getLast_cons (List.cons_ne_nil _ _)]
              simp only [not_not] at h h'
              simp [h, h']

/-- `derived` is what `derive_child` makes of `child` below `parent`. -/
structure DerivedRef (sha256 : String → Digest) (parent child derived : CancellationRef) :
    Prop where
  controlId : derived.controlId = child.controlId
  authority : SameAuthority parent derived
  redisUrlEnv : derived.redisUrlEnv = parent.redisUrlEnv
  deadlineAt : derived.deadlineAt = effectiveDeadline [parent.deadlineAt, child.deadlineAt]
  lineage : ExtendsLineage sha256 parent derived
  activeTtlSeconds : derived.activeTtlSeconds = parent.activeTtlSeconds
  heartbeatSeconds : derived.heartbeatSeconds = parent.heartbeatSeconds
  retentionSeconds : derived.retentionSeconds = parent.retentionSeconds

theorem effectiveDeadline_nonneg (values : List Time) : 0 ≤ effectiveDeadline values := by
  unfold effectiveDeadline
  cases h : (values.filter fun v ↦ 0 < v).min? with
  | none => exact le_refl 0
  | some v =>
      have hv := List.mem_filter.mp (List.min?_mem h)
      exact le_of_lt (by simpa using hv.2)

/-- The deadline computed is within `d` exactly if one of those it is computed from is. -/
theorem effectiveDeadline_within {values : List Time} {d : Time} :
    0 < effectiveDeadline values ∧ effectiveDeadline values ≤ d ↔
      ∃ v ∈ values, 0 < v ∧ v ≤ d := by
  unfold effectiveDeadline
  cases h : (values.filter fun v ↦ 0 < v).min? with
  | none =>
      have hnone : ∀ v ∈ values, v ≤ 0 := by
        simpa [List.filter_eq_nil_iff] using List.min?_eq_none_iff.mp h
      constructor
      · rintro ⟨h0, -⟩
        exact absurd h0 (lt_irrefl 0)
      · rintro ⟨v, hv, h0, -⟩
        exact absurd (hnone v hv) (not_le.mpr h0)
  | some m =>
      have hm := List.mem_filter.mp (List.min?_mem h)
      have hpos : 0 < m := by simpa using hm.2
      constructor
      · rintro ⟨-, hle⟩
        exact ⟨m, hm.1, hpos, hle⟩
      · rintro ⟨v, hv, h0, hle⟩
        have hmin : m ≤ v := (List.min?_eq_some_iff.mp h).2 v
          (List.mem_filter.mpr ⟨hv, by simpa using h0⟩)
        exact ⟨hpos, hmin.trans hle⟩

theorem rootOf_eq (parent : CancellationRef) : rootOf parent = parent.rootControlId :=
  orDefault_of_ne parent.root_ne

/-- A reference with the digest of a child extends the lineage. -/
theorem below_extends {parent : CancellationRef} {id : String} {deadline : Time}
    (hid : Text.strip id = id) (hne : id ≠ "") (hparent : parent.controlId ≠ id)
    (hdepth : parent.lineageDepth < maxCancellationLineageDepth) (hdeadline : 0 ≤ deadline) :
    ExtendsLineage sha256 parent
      (parent.below (childDigest sha256 parent id) id deadline hid hne hparent hdepth hdeadline) :=
  ⟨rfl, (rootOf_eq parent).symm, rfl, rfl⟩

theorem childFields_digest (parent child : CancellationRef) :
    (childFields sha256 parent child).digest? sha256 =
      some (childDigest sha256 parent child.controlId) := by
  simp [ControlFields.digest?, childFields, Digest.text_ne_empty]

theorem derivedRef_of_make {now : Time} {parent child derived : CancellationRef}
    (h : CancellationRef.make sha256 now (childFields sha256 parent child) = .ok derived) :
    DerivedRef sha256 parent child derived := by
  obtain ⟨hf, rfl⟩ := CancellationRef.make_ok h
  have hbackend : (childFields sha256 parent child).backend? = some parent.backend :=
    ControlBackend.parse_name _
  have hroot : (childFields sha256 parent child).root = rootOf parent := by
    simp [ControlFields.root, childFields, rootOf_eq, orDefault_of_ne parent.root_ne,
      parent.root_stripped]
  have hid : (childFields sha256 parent child).control = child.controlId := child.id_stripped
  have hparent : (childFields sha256 parent child).parent = some parent.controlId :=
    stripOrNone_some parent.id_stripped parent.id_ne
  constructor
  · exact hid
  · refine ⟨?_, orDefault_of_ne parent.ns_ne, rfl⟩
    simp [CancellationRef.build, hbackend]
  · exact orDefault_of_ne parent.redisUrlEnv_ne
  · exact max_eq_right (effectiveDeadline_nonneg _)
  · refine ⟨hparent, hroot, ?_, ?_⟩
    · simp [CancellationRef.build, childFields]
    · simp [CancellationRef.build, childFields_digest, hid]
  · rfl
  · rfl
  · rfl

theorem childFields_accepted {parent child : CancellationRef}
    (hid : child.controlId ≠ parent.controlId)
    (hdepth : parent.lineageDepth < maxCancellationLineageDepth) :
    (childFields sha256 parent child).Accepted sha256 := by
  have hbackend : (childFields sha256 parent child).backend? = some parent.backend :=
    ControlBackend.parse_name _
  have hcontrol : (childFields sha256 parent child).control = child.controlId := child.id_stripped
  have hparent : (childFields sha256 parent child).parent = some parent.controlId :=
    stripOrNone_some parent.id_stripped parent.id_ne
  have hdepth' : (childFields sha256 parent child).lineageDepth = parent.lineageDepth + 1 := rfl
  constructor
  · simp [hbackend]
  · rw [hcontrol]
    exact child.id_ne
  · intro hb
    exact parent.path_ne (Option.some.inj (hbackend ▸ hb))
  · rw [hcontrol, hparent]
    exact fun h ↦ hid (Option.some.inj h).symm
  · rw [hdepth']
    omega
  · rw [hdepth', hparent]
    simp only [reduceCtorEq, iff_false]
    omega
  · simp [ControlFields.root, childFields, rootOf_eq, orDefault_of_ne parent.root_ne,
      parent.root_stripped, parent.root_ne]
  · simp [childFields_digest]
  · exact parent.timing
  · exact parent.heartbeat_ttl
  · exact parent.ttl_heartbeat
  · exact parent.heartbeat_le

/-- A successful `derive_child`: the path from the deriving control to the reference the
child hangs on, and the child below it. -/
structure Derives (sha256 : String → Digest) (control : ExecutionControl)
    (child : ChildControl) (intermediates : List CancellationRef) (derived : ExecutionControl) :
    Prop where
  authority : ∀ r ∈ intermediates, SameAuthority control.cancellation r
  chain : List.IsChain (ExtendsLineage sha256) (control.cancellation :: intermediates)
  fresh : child.cancellation.controlId ∉ control.cancellation.controlId ::
    control.cancellation.rootControlId :: intermediates.map CancellationRef.controlId
  ref : DerivedRef sha256
    ((control.cancellation :: intermediates).getLast (List.cons_ne_nil _ _)) child.cancellation
    derived.cancellation

theorem ExecutionControl.deriveChild_ok {now : Time} {self derived : ExecutionControl}
    {child : ChildControl} {intermediates : List CancellationRef}
    (h : self.deriveChild sha256 now child intermediates = .ok derived) :
    Derives sha256 self child intermediates derived := by
  unfold deriveChild at h
  split at h
  · cases h
  · next parent hparent =>
      obtain ⟨hauth, hchain, rfl⟩ := expectedParent_eq_ok.mp hparent
      split at h
      · cases h
      · next hfresh =>
          split at h
          · cases h
          · next ref href =>
              obtain rfl := Except.ok.inj h
              exact ⟨hauth, hchain, hfresh, derivedRef_of_make href⟩

/-- `derive_child` succeeds on an accepted chain of references, with a fresh id and below
the depth limit. -/
theorem ExecutionControl.exists_deriveChild (sha256 : String → Digest) (now : Time)
    (control : ExecutionControl) (child : ChildControl) (intermediates : List CancellationRef)
    (hauth : ∀ r ∈ intermediates, SameAuthority control.cancellation r)
    (hchain : List.IsChain (ExtendsLineage sha256) (control.cancellation :: intermediates))
    (hfresh : child.cancellation.controlId ∉ control.cancellation.controlId ::
      control.cancellation.rootControlId :: intermediates.map CancellationRef.controlId)
    (hdepth : ((control.cancellation :: intermediates).getLast
      (List.cons_ne_nil _ _)).lineageDepth < maxCancellationLineageDepth) :
    ∃ derived, control.deriveChild sha256 now child intermediates = .ok derived := by
  have hparent := expectedParent_eq_ok.mpr ⟨hauth, hchain, rfl⟩
  -- The reference the child hangs on is on the path, so its id is not the child's.
  have hid : child.cancellation.controlId ≠ ((control.cancellation :: intermediates).getLast
      (List.cons_ne_nil _ _)).controlId := by
    intro h
    have hmem := List.mem_map_of_mem (f := CancellationRef.controlId)
      (List.getLast_mem (List.cons_ne_nil control.cancellation intermediates))
    rw [← h, List.map_cons, List.mem_cons] at hmem
    apply hfresh
    rcases hmem with h | h
    · exact h ▸ List.mem_cons_self
    · exact List.mem_cons_of_mem _ (List.mem_cons_of_mem _ h)
  unfold deriveChild
  rw [hparent]
  dsimp only
  rw [if_neg hfresh, CancellationRef.make_of_accepted _ (childFields_accepted hid hdepth)]
  exact ⟨_, rfl⟩

end Spec

/-! ## Lines of descent -/

/-- A control together with the references it descends from. -/
structure Descent where
  control : ExecutionControl
  ancestors : List CancellationRef

/-- A call of `derive_child` on the control at the end of a line of descent. -/
structure DeriveCall where
  now : Time
  child : ChildControl
  intermediates : List CancellationRef

namespace Descent

/-- A control no derivation leads to. -/
def start (c : ExecutionControl) : Descent := ⟨c, []⟩

/-- The references between the control and the child of a call, the control first. -/
def path (s : Descent) (call : DeriveCall) : List CancellationRef :=
  s.control.cancellation :: call.intermediates

/-- One derivation; it is not a step if `derive_child` raises. -/
def step (sha256 : String → Digest) (s : Descent) (call : DeriveCall) : Option Descent :=
  match s.control.deriveChild sha256 call.now call.child call.intermediates with
  | .error _ => none
  | .ok c => some ⟨c, s.ancestors ++ s.path call⟩

variable {sha256 : String → Digest} {s t : Descent} {call : DeriveCall}

theorem step_eq_some (h : step sha256 s call = some t) :
    Derives sha256 s.control call.child call.intermediates t.control ∧
      t.ancestors = s.ancestors ++ s.path call := by
  unfold step at h
  split at h
  · cases h
  · next c hc =>
      obtain rfl := Option.some.inj h
      exact ⟨ExecutionControl.deriveChild_ok hc, rfl⟩

/-! ### Deadlines -/

/-- The deadline of the control is within that of every ancestor that has one. -/
def Tight (s : Descent) : Prop :=
  ∀ a ∈ s.ancestors, 0 < a.deadlineAt →
    0 < s.control.deadlineAt ∧ s.control.deadlineAt ≤ a.deadlineAt

/-- The reference the child hangs on. -/
def last (s : Descent) (call : DeriveCall) : CancellationRef :=
  (s.path call).getLast (List.cons_ne_nil _ _)

/-- For every reference of the path that has a deadline, the last reference of the path
or the child comes with a deadline within it. -/
def Tightens (s : Descent) (call : DeriveCall) : Prop :=
  ∀ r ∈ s.path call, 0 < r.deadlineAt →
    (0 < (s.last call).deadlineAt ∧ (s.last call).deadlineAt ≤ r.deadlineAt) ∨
      (0 < call.child.cancellation.deadlineAt ∧
        call.child.cancellation.deadlineAt ≤ r.deadlineAt)

instance : Decidable (Tightens s call) :=
  inferInstanceAs (Decidable (∀ r ∈ s.path call, _))

theorem step_within (h : step sha256 s call = some t) (d : Time) :
    0 < t.control.deadlineAt ∧ t.control.deadlineAt ≤ d ↔
      (0 < (s.last call).deadlineAt ∧ (s.last call).deadlineAt ≤ d) ∨
        (0 < call.child.cancellation.deadlineAt ∧ call.child.cancellation.deadlineAt ≤ d) := by
  have hd : t.control.deadlineAt =
      effectiveDeadline [(s.last call).deadlineAt, call.child.cancellation.deadlineAt] :=
    (step_eq_some h).1.ref.deadlineAt
  rw [hd, effectiveDeadline_within]
  simp

/-- Below a control that is tight, a derived one is tight exactly if the call tightens. -/
theorem step_tight (hs : s.Tight) (h : step sha256 s call = some t) :
    t.Tight ↔ s.Tightens call := by
  have hanc := (step_eq_some h).2
  constructor
  · intro ht r hr hpos
    exact (step_within h r.deadlineAt).mp
      (ht r (hanc ▸ List.mem_append_right _ hr) hpos)
  · intro hcall a ha hpos
    rw [hanc] at ha
    rcases List.mem_append.mp ha with ha | ha
    · -- An older ancestor bounds the control, and the control bounds the child.
      obtain ⟨h0, hle⟩ := hs a ha hpos
      have hself := hcall s.control.cancellation List.mem_cons_self h0
      obtain ⟨ht0, htle⟩ := (step_within h s.control.deadlineAt).mpr hself
      exact ⟨ht0, htle.trans hle⟩
    · exact (step_within h a.deadlineAt).mpr (hcall a ha hpos)

/-- **Deadlines.**  Down a line of descent every derived control keeps within the deadlines
of all its ancestors exactly if every call brings, for each deadline on its path, one
within it: that of the last reference of the path or the child's own. -/
theorem deadlines_tighten_iff (sha256 : String → Digest) (c : ExecutionControl)
    (calls : List DeriveCall) :
    (∀ before call s t, before ++ [call] <+: calls →
        Machine.run (step sha256) (start c) before = some s → step sha256 s call = some t →
        t.Tight) ↔
      ∀ before call s t, before ++ [call] <+: calls →
        Machine.run (step sha256) (start c) before = some s → step sha256 s call = some t →
        s.Tightens call := by
  have hstart : (start c).Tight := fun a ha ↦ absurd ha List.not_mem_nil
  have key := Machine.forall_step_iff (B := fun s call ↦ ∀ t, step sha256 s call = some t → t.Tight)
    hstart
    (fun s call t hs (hgood : ¬ ¬ s.Tightens call) h ↦ (step_tight hs h).mpr (not_not.mp hgood))
    (fun s call t hs h ↦ by
      rw [not_not, ← step_tight hs h]
      constructor
      · intro hall
        exact hall t h
      · intro ht t' ht'
        rw [h] at ht'
        exact Option.some.inj ht' ▸ ht) calls
  simp only [not_not] at key
  rw [← key]
  constructor
  · intro hall before call s t hprefix hs _ t' ht'
    exact hall before call s t' hprefix hs ht'
  · intro hall before call s t hprefix hs ht
    exact hall before call s t hprefix hs ht t ht

/-- A Case that is due at 100. -/
def caseDue (sha256 : String → Digest) : CancellationRef :=
  .memoryRoot (sha256 "root:case") 1 "case" 100 strip_case case_ne (by norm_num)

/-- A stage of that Case whose reference carries no deadline. -/
def stageUndated (sha256 : String → Digest) : CancellationRef :=
  (caseDue sha256).below (childDigest sha256 (caseDue sha256) "stage") "stage" 0 strip_stage
    stage_ne (by simp [caseDue, CancellationRef.memoryRoot])
    (by simp [caseDue, CancellationRef.memoryRoot, maxCancellationLineageDepth]) no_expiry_nonneg

/-- A child of the stage that asks for no deadline. -/
def childUndated (sha256 : String → Digest) : DeriveCall where
  now := 1
  child := .ref (.memoryRoot (sha256 "root:child") 1 "child" 0 strip_child child_ne no_expiry_nonneg)
  intermediates := [stageUndated sha256]

/-- The deadline of a Case is not handed on past an intermediate that carries none. -/
theorem exists_deadline_lost (sha256 : String → Digest) : ∃ t,
    step sha256 (start (.ofRef (caseDue sha256))) (childUndated sha256) = some t ∧
      t.control.deadlineAt = 0 ∧ ¬ t.Tight := by
  obtain ⟨derived, hderived⟩ := ExecutionControl.exists_deriveChild sha256 1
    (.ofRef (caseDue sha256)) (childUndated sha256).child [stageUndated sha256]
    (by simp [stageUndated, CancellationRef.below, SameAuthority, ExecutionControl.ofRef])
    (List.isChain_pair.mpr (below_extends _ _ _ _ _))
    (by simp [stageUndated, CancellationRef.below, childUndated, caseDue,
      CancellationRef.memoryRoot, ChildControl.cancellation, ExecutionControl.ofRef])
    (by simp [stageUndated, CancellationRef.below, caseDue, CancellationRef.memoryRoot,
      maxCancellationLineageDepth])
  have hstep : step sha256 (start (.ofRef (caseDue sha256))) (childUndated sha256) =
      some ⟨derived, [caseDue sha256, stageUndated sha256]⟩ := by
    unfold step
    rw [show (start (.ofRef (caseDue sha256))).control.deriveChild sha256 (childUndated sha256).now
      (childUndated sha256).child (childUndated sha256).intermediates = .ok derived from hderived]
    rfl
  have hzero : derived.deadlineAt = 0 := by
    have hd := (ExecutionControl.deriveChild_ok hderived).ref.deadlineAt
    rw [ExecutionControl.deadlineAt, hd]
    simp [stageUndated, CancellationRef.below, childUndated, ChildControl.cancellation,
      CancellationRef.memoryRoot, effectiveDeadline]
  refine ⟨_, hstep, hzero, fun htight ↦ ?_⟩
  have h100 : (caseDue sha256).deadlineAt = 100 := rfl
  have := (htight (caseDue sha256) List.mem_cons_self (by rw [h100]; norm_num)).1
  exact absurd hzero (ne_of_gt this)

/-- So it is under a digest that maps every text to zeros. -/
theorem deadline_lost : ∃ t,
    step (fun _ ↦ ControlStore.zeroDigest) (start (.ofRef (caseDue fun _ ↦ ControlStore.zeroDigest)))
      (childUndated fun _ ↦ ControlStore.zeroDigest) = some t ∧
      t.control.deadlineAt = 0 ∧ ¬ t.Tight :=
  exists_deadline_lost fun _ ↦ ControlStore.zeroDigest

end Descent

end Blackbase.Project
