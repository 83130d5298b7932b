import Blackbase.Resources.Model

/-!
# Cancellation references

`CancellationRef`, `CancellationState` and `TerminationPolicy` of
`resources/control.py`.  A reference that exists has passed its constructor, so the
checks of `__post_init__` are fields of the structure.

SHA-256 is a parameter wherever a digest is computed; what is known of it is its
format, which `Digest` carries.
-/

namespace Blackbase.Resources

/-- `MAX_CANCELLATION_LINEAGE_DEPTH`. -/
def maxCancellationLineageDepth : ℕ := 256

/-! ## Digests -/

/-- The characters of a lower-case hex digest. -/
def hexDigits : List Char :=
  ['0', '1', '2', '3', '4', '5', '6', '7', '8', '9', 'a', 'b', 'c', 'd', 'e', 'f']

/-- A character of a lower-case hex digest. -/
def isHexDigit (c : Char) : Bool := c ∈ hexDigits

/-- A 64-character SHA-256 hex digest. -/
structure Digest where
  text : String
  length_eq : text.toList.length = 64
  hex : ∀ c ∈ text.toList, isHexDigit c
deriving DecidableEq

/-- A digest of zeros. -/
def ControlStore.zeroDigest : Digest where
  text := String.ofList (List.replicate 64 '0')
  length_eq := by simp
  hex := by simp [isHexDigit, hexDigits]

/-- The check `__post_init__` makes of a digest it was given. -/
def Digest.parse (text : String) : Option Digest :=
  if h : text.toList.length = 64 ∧ ∀ c ∈ text.toList, isHexDigit c then
    some ⟨text, h.1, h.2⟩
  else none

theorem isSpace_of_isHexDigit {c : Char} (h : isHexDigit c) : ¬ Text.isSpace c := by
  have hall : hexDigits.all (fun c ↦ !Text.isSpace c) := by decide
  have hc : c ∈ hexDigits := by simpa [isHexDigit] using h
  simpa using List.all_eq_true.mp hall c hc

theorem toLower_of_isHexDigit {c : Char} (h : isHexDigit c) : c.toLower = c := by
  have hall : hexDigits.all (fun c ↦ c.toLower == c) := by decide
  have hc : c ∈ hexDigits := by simpa [isHexDigit] using h
  simpa using List.all_eq_true.mp hall c hc

namespace Digest

@[simp] theorem parse_text (d : Digest) : parse d.text = some d := by
  rw [parse, dif_pos ⟨d.length_eq, d.hex⟩]

@[simp] theorem strip_text (d : Digest) : Text.strip d.text = d.text := by
  apply Text.strip_eq_self
  · intro h
    exact isSpace_of_isHexDigit (d.hex _ (List.head_mem h))
  · intro h
    exact isSpace_of_isHexDigit (d.hex _ (List.getLast_mem h))

@[simp] theorem lower_text (d : Digest) : Text.lower d.text = d.text := by
  rw [Text.lower, List.map_congr_left fun c hc ↦ toLower_of_isHexDigit (d.hex c hc),
    List.map_id', String.ofList_toList]

theorem text_ne_empty (d : Digest) : d.text ≠ "" := by
  intro h
  have := d.length_eq
  rw [h] at this
  simp at this

end Digest

/-! ## References -/

/-- `str(value or default)`. -/
def orDefault (value default : String) : String := if value = "" then default else value

theorem orDefault_of_ne {value default : String} (h : value ≠ "") :
    orDefault value default = value := if_neg h

theorem orDefault_ne {value default : String} (h : default ≠ "") :
    orDefault value default ≠ "" := by
  unfold orDefault
  split
  · exact h
  · assumption

/-- Where a cancellation control is stored. -/
inductive ControlBackend where
  | memory | sqlite | redis
deriving DecidableEq, Repr

/-- The backend a normalised name stands for. -/
def ControlBackend.parse : String → Option ControlBackend
  | "memory" => some .memory
  | "sqlite" => some .sqlite
  | "redis" => some .redis
  | _ => none

/-- The name of a backend. -/
def ControlBackend.name : ControlBackend → String
  | .memory => "memory"
  | .sqlite => "sqlite"
  | .redis => "redis"

theorem ControlBackend.parse_name (b : ControlBackend) :
    ControlBackend.parse (Text.lower (Text.strip (orDefault b.name "memory"))) = some b := by
  cases b <;> decide

/-- What `CancellationRef.__post_init__` refuses. -/
inductive ControlRefError where
  | backend
  | emptyControlId
  | sqlitePath
  | parentIsSelf
  | lineageDepth
  | rootWithParent
  | childWithoutParent
  | emptyRootControlId
  | lineageDigest
  | negativeTiming
  | heartbeatWithoutTtl
  | ttlWithoutHeartbeat
  | heartbeatTooSlow
deriving DecidableEq, Repr

/-- The texts of the `ValueError`s. -/
def ControlRefError.message : ControlRefError → String
  | .backend => "cancellation backend must be memory, sqlite, or redis"
  | .emptyControlId => "control_id must be non-empty"
  | .sqlitePath => "sqlite cancellation requires a database path"
  | .parentIsSelf => "cancellation parent_control_id must differ from control_id"
  | .lineageDepth => "cancellation lineage_depth must be between 0 and 256"
  | .rootWithParent => "root cancellation cannot declare a parent_control_id"
  | .childWithoutParent => "child cancellation requires parent_control_id"
  | .emptyRootControlId => "root_control_id must be non-empty"
  | .lineageDigest => "lineage_digest must be a 64-character SHA-256 hex digest"
  | .negativeTiming => "cancellation TTL, heartbeat, and retention must be non-negative"
  | .heartbeatWithoutTtl => "cancellation heartbeat requires a positive active TTL"
  | .ttlWithoutHeartbeat => "cancellation active TTL requires a positive heartbeat"
  | .heartbeatTooSlow =>
      "cancellation heartbeat must be no greater than active_ttl_seconds / 2"

/-- The arguments of the constructor of `CancellationRef`. -/
structure ControlFields where
  controlId : String
  backend : String
  ns : String
  path : String
  redisUrlEnv : String
  deadlineAt : Time
  createdAt : Time
  parentControlId : Option String
  rootControlId : Option String
  lineageDepth : ℤ
  lineageDigest : String
  activeTtlSeconds : Time
  heartbeatSeconds : Time
  retentionSeconds : Time

/-- `CancellationRef`. -/
structure CancellationRef where
  controlId : String
  backend : ControlBackend
  ns : String
  path : String
  redisUrlEnv : String
  deadlineAt : Time
  createdAt : Time
  parentControlId : Option String
  rootControlId : String
  lineageDepth : ℕ
  lineageDigest : Digest
  activeTtlSeconds : Time
  heartbeatSeconds : Time
  retentionSeconds : Time
  id_stripped : Text.strip controlId = controlId
  id_ne : controlId ≠ ""
  ns_ne : ns ≠ ""
  redisUrlEnv_ne : redisUrlEnv ≠ ""
  path_ne : backend = .sqlite → Text.strip path ≠ ""
  parent_stripped : ∀ p ∈ parentControlId, Text.strip p = p ∧ p ≠ ""
  parent_ne : parentControlId ≠ some controlId
  depth_le : lineageDepth ≤ maxCancellationLineageDepth
  root_iff : lineageDepth = 0 ↔ parentControlId = none
  root_stripped : Text.strip rootControlId = rootControlId
  root_ne : rootControlId ≠ ""
  deadline_nonneg : 0 ≤ deadlineAt
  timing : 0 ≤ activeTtlSeconds ∧ 0 ≤ heartbeatSeconds ∧ 0 ≤ retentionSeconds
  heartbeat_ttl : activeTtlSeconds = 0 → heartbeatSeconds ≤ 0
  ttl_heartbeat : 0 < activeTtlSeconds → 0 < heartbeatSeconds
  heartbeat_le : 0 < activeTtlSeconds → heartbeatSeconds * 2 ≤ activeTtlSeconds

namespace CancellationRef

/-- The names in a reference. -/
def names (r : CancellationRef) : String × String × String × String × String :=
  (r.controlId, r.ns, r.path, r.redisUrlEnv, r.rootControlId)

/-- The times in a reference. -/
def times (r : CancellationRef) : Time × Time × Time × Time × Time :=
  (r.deadlineAt, r.createdAt, r.activeTtlSeconds, r.heartbeatSeconds, r.retentionSeconds)

theorem eq_iff (r r' : CancellationRef) :
    r.names = r'.names ∧ r.times = r'.times ∧ r.backend = r'.backend ∧
      r.parentControlId = r'.parentControlId ∧ r.lineageDepth = r'.lineageDepth ∧
      r.lineageDigest = r'.lineageDigest ↔ r = r' := by
  constructor
  · rintro ⟨hnames, htimes, hbackend, hparent, hdepth, hdigest⟩
    cases r
    cases r'
    simp only [names, times, Prod.mk.injEq] at hnames htimes hbackend hparent hdepth hdigest
    obtain ⟨rfl, rfl, rfl, rfl, rfl⟩ := hnames
    obtain ⟨rfl, rfl, rfl, rfl, rfl⟩ := htimes
    obtain rfl := hbackend
    obtain rfl := hparent
    obtain rfl := hdepth
    obtain rfl := hdigest
    rfl
  · rintro rfl
    exact ⟨rfl, rfl, rfl, rfl, rfl, rfl⟩

end CancellationRef

instance : DecidableEq CancellationRef :=
  fun r r' ↦ decidable_of_iff _ (CancellationRef.eq_iff r r')

/-- `None if value is None else str(value).strip() or None`. -/
def stripOrNone (value : Option String) : Option String :=
  value.bind fun v ↦ if Text.strip v = "" then none else some (Text.strip v)

theorem stripOrNone_stripped {value : Option String} {p : String} (h : p ∈ stripOrNone value) :
    Text.strip p = p ∧ p ≠ "" := by
  cases value with
  | none => cases h
  | some v =>
      simp only [stripOrNone, Option.bind_some] at h
      split at h
      · cases h
      · next hne =>
          obtain rfl := Option.some.inj h
          exact ⟨Text.strip_strip v, hne⟩

theorem stripOrNone_some {p : String} (hs : Text.strip p = p) (hne : p ≠ "") :
    stripOrNone (some p) = some p := by
  simp [stripOrNone, hs, hne]

namespace ControlFields

variable (f : ControlFields)

/-- `str(self.backend or "memory").strip().lower()`. -/
def backend? : Option ControlBackend :=
  ControlBackend.parse (Text.lower (Text.strip (orDefault f.backend "memory")))

/-- `str(self.control_id or "").strip()`. -/
def control : String := Text.strip f.controlId

/-- `parent_control_id`, stripped. -/
def parent : Option String := stripOrNone f.parentControlId

/-- `str(self.root_control_id or control_id).strip()`. -/
def root : String := Text.strip (orDefault (f.rootControlId.getD "") f.control)

/-- `lineage_digest`: the one given, or the digest of a root. -/
def digest? (sha256 : String → Digest) : Option Digest :=
  let given := Text.lower (Text.strip f.lineageDigest)
  let root := f.root
  if given = "" then some (sha256 s!"root:{root}") else Digest.parse given

/-- The checks of `CancellationRef.__post_init__` in their order: the first one that
fails. -/
def refusal (sha256 : String → Digest) : Option ControlRefError :=
  if f.backend? = none then some .backend
  else if f.control = "" then some .emptyControlId
  else if f.backend? = some .sqlite ∧ Text.strip f.path = "" then some .sqlitePath
  else if f.parent = some f.control then some .parentIsSelf
  else if f.lineageDepth < 0 ∨ maxCancellationLineageDepth < f.lineageDepth then
    some .lineageDepth
  else if f.lineageDepth = 0 ∧ f.parent ≠ none then some .rootWithParent
  else if 0 < f.lineageDepth ∧ f.parent = none then some .childWithoutParent
  else if f.root = "" then some .emptyRootControlId
  else if f.digest? sha256 = none then some .lineageDigest
  else if f.activeTtlSeconds < 0 ∨ f.heartbeatSeconds < 0 ∨ f.retentionSeconds < 0 then
    some .negativeTiming
  else if f.activeTtlSeconds = 0 ∧ 0 < f.heartbeatSeconds then some .heartbeatWithoutTtl
  else if 0 < f.activeTtlSeconds ∧ f.heartbeatSeconds ≤ 0 then some .ttlWithoutHeartbeat
  else if 0 < f.activeTtlSeconds ∧ f.activeTtlSeconds < f.heartbeatSeconds * 2 then
    some .heartbeatTooSlow
  else none

/-- No check fails. -/
structure Accepted (sha256 : String → Digest) : Prop where
  backend : f.backend? ≠ none
  control : f.control ≠ ""
  path : f.backend? = some .sqlite → Text.strip f.path ≠ ""
  parent : f.parent ≠ some f.control
  depth : 0 ≤ f.lineageDepth ∧ f.lineageDepth ≤ maxCancellationLineageDepth
  depth_parent : f.lineageDepth = 0 ↔ f.parent = none
  root : f.root ≠ ""
  digest : f.digest? sha256 ≠ none
  timing : 0 ≤ f.activeTtlSeconds ∧ 0 ≤ f.heartbeatSeconds ∧ 0 ≤ f.retentionSeconds
  heartbeat_ttl : f.activeTtlSeconds = 0 → f.heartbeatSeconds ≤ 0
  ttl_heartbeat : 0 < f.activeTtlSeconds → 0 < f.heartbeatSeconds
  heartbeat_le : 0 < f.activeTtlSeconds → f.heartbeatSeconds * 2 ≤ f.activeTtlSeconds

variable {f}

theorem ite_some_eq_none {c : Prop} [Decidable c] {e : ControlRefError}
    {rest : Option ControlRefError} :
    (if c then some e else rest) = none ↔ ¬ c ∧ rest = none := by
  by_cases hc : c <;> simp [hc]

theorem refusal_eq_none {sha256 : String → Digest} :
    f.refusal sha256 = none ↔ f.Accepted sha256 := by
  unfold refusal
  simp only [ite_some_eq_none]
  constructor
  · rintro ⟨h1, h2, h3, h4, h5, h6, h7, h8, h9, h10, h11, h12, h13, -⟩
    refine ⟨h1, h2, fun hb hp ↦ h3 ⟨hb, hp⟩, h4, by omega, ?_, h8, h9, ?_, ?_, ?_, ?_⟩
    · constructor
      · intro h0
        by_contra hp
        exact h6 ⟨h0, hp⟩
      · intro hp
        by_contra h0
        exact h7 ⟨by omega, hp⟩
    · simpa only [not_or, not_lt] using h10
    · exact fun h0 ↦ not_lt.mp fun hb ↦ h11 ⟨h0, hb⟩
    · exact fun h0 ↦ not_le.mp fun hb ↦ h12 ⟨h0, hb⟩
    · exact fun h0 ↦ not_lt.mp fun hb ↦ h13 ⟨h0, hb⟩
  · intro h
    refine ⟨h.backend, h.control, fun hp ↦ h.path hp.1 hp.2, h.parent, ?_, ?_, ?_, h.root,
      h.digest, ?_, ?_, ?_, ?_, trivial⟩
    · have := h.depth
      omega
    · exact fun h0 ↦ h0.2 (h.depth_parent.mp h0.1)
    · intro h0
      have := h.depth_parent.mpr h0.2
      omega
    · simpa only [not_or, not_lt] using h.timing
    · exact fun h0 ↦ absurd h0.2 (not_lt.mpr (h.heartbeat_ttl h0.1))
    · exact fun h0 ↦ absurd (h.ttl_heartbeat h0.1) (not_lt.mpr h0.2)
    · exact fun h0 ↦ absurd h0.2 (not_lt.mpr (h.heartbeat_le h0.1))

end ControlFields

/-- The reference accepted arguments stand for; `now` replaces a missing `created_at`. -/
def CancellationRef.build (sha256 : String → Digest) (now : Time) (f : ControlFields)
    (h : f.Accepted sha256) : CancellationRef where
  controlId := f.control
  backend := f.backend?.get (Option.ne_none_iff_isSome.mp h.backend)
  ns := orDefault f.ns "blackbase"
  path := f.path
  redisUrlEnv := orDefault f.redisUrlEnv "BLACKBASE_REDIS_URL"
  deadlineAt := max 0 f.deadlineAt
  createdAt := if f.createdAt = 0 then now else f.createdAt
  parentControlId := f.parent
  rootControlId := f.root
  lineageDepth := f.lineageDepth.toNat
  lineageDigest := (f.digest? sha256).get (Option.ne_none_iff_isSome.mp h.digest)
  activeTtlSeconds := f.activeTtlSeconds
  heartbeatSeconds := f.heartbeatSeconds
  retentionSeconds := f.retentionSeconds
  id_stripped := Text.strip_strip _
  id_ne := h.control
  ns_ne := orDefault_ne (by decide)
  redisUrlEnv_ne := orDefault_ne (by decide)
  path_ne := fun hb ↦ h.path (Option.eq_some_of_isSome _ |>.trans (congrArg some hb))
  parent_stripped := fun _ hp ↦ stripOrNone_stripped hp
  parent_ne := h.parent
  depth_le := by
    have := h.depth
    omega
  root_iff := by
    rw [← h.depth_parent]
    have := h.depth
    omega
  root_stripped := Text.strip_strip _
  root_ne := h.root
  deadline_nonneg := le_max_left _ _
  timing := h.timing
  heartbeat_ttl := h.heartbeat_ttl
  ttl_heartbeat := h.ttl_heartbeat
  heartbeat_le := h.heartbeat_le

/-- `CancellationRef.__post_init__`. -/
def CancellationRef.make (sha256 : String → Digest) (now : Time) (f : ControlFields) :
    Except ControlRefError CancellationRef :=
  match h : f.refusal sha256 with
  | some e => .error e
  | none => .ok (build sha256 now f (ControlFields.refusal_eq_none.mp h))

theorem CancellationRef.make_ok {sha256 : String → Digest} {now : Time} {f : ControlFields}
    {r : CancellationRef} (h : make sha256 now f = .ok r) :
    ∃ hf : f.Accepted sha256, r = build sha256 now f hf := by
  unfold make at h
  split at h
  · cases h
  · next hf => exact ⟨ControlFields.refusal_eq_none.mp hf, (Except.ok.inj h).symm⟩

theorem CancellationRef.make_of_accepted {sha256 : String → Digest} (now : Time)
    {f : ControlFields} (h : f.Accepted sha256) : make sha256 now f = .ok (build sha256 now f h) := by
  unfold make
  split
  · next e he =>
      rw [ControlFields.refusal_eq_none.mpr h] at he
      cases he
  · rfl

/-! The ids of the controls in the runs below. -/

theorem strip_case : Text.strip "case" = "case" := by decide
theorem strip_stage : Text.strip "stage" = "stage" := by decide
theorem strip_child : Text.strip "child" = "child" := by decide
theorem case_ne : "case" ≠ "" := by decide
theorem stage_ne : "stage" ≠ "" := by decide
theorem child_ne : "child" ≠ "" := by decide

/-- `CancellationRef(control_id=id, deadline_at=deadline)`: a root of the in-memory store. -/
def CancellationRef.memoryRoot (digest : Digest) (now : Time) (id : String)
    (deadline : Time) (hid : Text.strip id = id) (hne : id ≠ "") (hdeadline : 0 ≤ deadline) :
    CancellationRef where
  controlId := id
  backend := .memory
  ns := "blackbase"
  path := ""
  redisUrlEnv := "BLACKBASE_REDIS_URL"
  deadlineAt := deadline
  createdAt := now
  parentControlId := none
  rootControlId := id
  lineageDepth := 0
  lineageDigest := digest
  activeTtlSeconds := 0
  heartbeatSeconds := 0
  retentionSeconds := 0
  id_stripped := hid
  id_ne := hne
  ns_ne := by decide
  redisUrlEnv_ne := by decide
  path_ne := by simp
  parent_stripped := by simp
  parent_ne := by simp
  depth_le := by decide
  root_iff := by simp
  root_stripped := hid
  root_ne := hne
  deadline_nonneg := hdeadline
  timing := by simp
  heartbeat_ttl := by simp
  ttl_heartbeat := by simp
  heartbeat_le := by simp

/-- The reference of a control below `parent`, with a digest and a deadline of its own. -/
def CancellationRef.below (parent : CancellationRef) (digest : Digest) (id : String)
    (deadline : Time) (hid : Text.strip id = id) (hne : id ≠ "") (hparent : parent.controlId ≠ id)
    (hdepth : parent.lineageDepth < maxCancellationLineageDepth) (hdeadline : 0 ≤ deadline) :
    CancellationRef :=
  { parent with
    controlId := id
    deadlineAt := deadline
    parentControlId := some parent.controlId
    lineageDepth := parent.lineageDepth + 1
    lineageDigest := digest
    id_stripped := hid
    id_ne := hne
    parent_stripped := by
      rintro p hp
      obtain rfl := Option.some.inj hp
      exact ⟨parent.id_stripped, parent.id_ne⟩
    parent_ne := fun h ↦ hparent (Option.some.inj h)
    depth_le := hdepth
    root_iff := by simp
    deadline_nonneg := hdeadline }

/-- `CancellationState`. -/
structure CancellationState where
  requested : Bool
  reason : String
  requestedAt : Time
deriving DecidableEq

/-- `CancellationState()`. -/
def CancellationState.initial : CancellationState := ⟨false, "", 0⟩

/-! ## Termination policies -/

/-- The mode of a `TerminationPolicy`. -/
inductive TerminationMode where
  | cooperative | cooperativeThenTerminate
deriving DecidableEq, Repr

/-- `TerminationPolicy`. -/
structure TerminationPolicy where
  mode : TerminationMode
  graceSeconds : Time
  killGraceSeconds : Time
  pollIntervalSeconds : Time
  grace_nonneg : 0 ≤ graceSeconds ∧ 0 ≤ killGraceSeconds
  poll_pos : 0 < pollIntervalSeconds
deriving DecidableEq

/-- `TerminationPolicy()`. -/
def TerminationPolicy.default : TerminationPolicy where
  mode := .cooperative
  graceSeconds := 5
  killGraceSeconds := 1
  pollIntervalSeconds := 1 / 20
  grace_nonneg := by norm_num
  poll_pos := by norm_num

end Blackbase.Resources
