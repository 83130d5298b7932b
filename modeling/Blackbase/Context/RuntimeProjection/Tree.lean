import Blackbase.Context.RuntimeProjection.Evidence
import Blackbase.Context.RuntimeProjection.Loop

/-!
# Health in trees of components

What a projection at the root of a tree says of the tree: its status is `ok` exactly when every
component is well, its audit digest stands for the evidence of the tree, and of every field it has
the value of the first leaf that gives one, with the name of that leaf.

Each is a fact about a tree alone (`category`, `issue`, `supplies`).  That the projection at a node
agrees with them goes by induction over the tree: what is known of the components below the node
is what the aggregation makes of them.
-/

namespace Blackbase.Context.RuntimeProjection

open Resources (Digest)

variable {sha256 : List UInt8 → Digest} {V : Type}

/-- The counts of components of these classes. -/
def countsFrom (classes : List Class) : Counts where
  component := classes.length
  successful := classes.count .successful
  degraded := classes.count .degraded
  failed := classes.count .failed
  invalid := classes.count .invalid
  unavailable := classes.count .unavailable

def Status.category : Status → Class
  | ok => .successful
  | degraded => .degraded
  | error => .failed

mutual

/-- The class of a component. -/
def Tree.category : Tree V → Class
  | .unavailable => .unavailable
  | .raises _ _ => .failed
  | .invalid _ => .invalid
  | .unreadable _ _ => .failed
  | .plain _ => .successful
  | .node children => (countsFrom (categories children)).expectedStatus.category

def categories : List (ComponentName × Tree V) → List Class
  | [] => []
  | (_, t) :: rest => t.category :: categories rest

end

def statusOf (children : Children V) : Status := (countsFrom (categories children)).expectedStatus

mutual

/-- The issues of a component, at most one: its texts, and the evidence that it is caused by. -/
def Tree.issue (name : ComponentName) : Tree V → List (IssueTexts × Option Evidence)
  | .unavailable => []
  | .raises errorType message =>
      [(⟨name.text, PointText.ofString "error", errorType, message⟩, none)]
  | .invalid typeName =>
      [(⟨name.text, PointText.ofString "invalid_result", PointText.ofString "TypeError",
        invalidMessage typeName⟩, none)]
  | .unreadable errorType message =>
      [(⟨name.text, PointText.ofString "error", errorType, message⟩, none)]
  | .plain _ => []
  | .node children =>
    if statusOf children = .ok then []
    else [(⟨name.text, PointText.ofString (nestedReason (statusOf children)), [], []⟩,
      some (.node (countsFrom (categories children)) (childIssues children)))]

/-- The issues below a node. -/
def childIssues : List (ComponentName × Tree V) → List (IssueTexts × Option Evidence)
  | [] => []
  | (name, t) :: rest => t.issue name ++ childIssues rest

end

/-- The evidence of a node. -/
def evidence (children : Children V) : Evidence :=
  .node (countsFrom (categories children)) (childIssues children)

mutual

/-- The fields that the leaves give, in their order, with the components that give them. -/
def Tree.supplies (name : ComponentName) : Tree V → List (PointText × V × ComponentName)
  | .plain items => (readable items).map fun e ↦ (e.1, e.2, name)
  | .node children => childSupplies children
  | .unavailable | .raises _ _ | .invalid _ | .unreadable _ _ => []

def childSupplies : List (ComponentName × Tree V) → List (PointText × V × ComponentName)
  | [] => []
  | (name, t) :: rest => t.supplies name ++ childSupplies rest

end

mutual

/-- No projector in the tree raises, returns what is no mapping or returns a mapping that cannot be
read. -/
def Tree.Healthy : Tree V → Prop
  | .unavailable | .plain _ => True
  | .raises _ _ | .invalid _ | .unreadable _ _ => False
  | .node children => AllHealthy children

def AllHealthy : List (ComponentName × Tree V) → Prop
  | [] => True
  | (_, t) :: rest => t.Healthy ∧ AllHealthy rest

end

mutual

/-- No node has more components than the protocol counts. -/
def Tree.WithinLimit : Tree V → Prop
  | .node children => children.length ≤ maxComponents ∧ AllWithinLimit children
  | .unavailable | .raises _ _ | .invalid _ | .unreadable _ _ | .plain _ => True

def AllWithinLimit : List (ComponentName × Tree V) → Prop
  | [] => True
  | (_, t) :: rest => t.WithinLimit ∧ AllWithinLimit rest

end

/-- A node within the limit, whose fields a mapping can hold. -/
structure Fitting (children : Children V) : Prop where
  limit : children.length ≤ maxComponents
  below : AllWithinLimit children
  size : (childSupplies children).length ≤ maxSize

/-! ## Counts -/

theorem countsOf_eq (cs : List (Asked sha256 V)) :
    countsOf cs = countsFrom (cs.map fun c ↦ classify c.2) := by
  rw [countsOf, countsFrom, List.length_map]

theorem unhealthy_eq_zero_iff (classes : List Class) :
    (countsFrom classes).unhealthy = 0 ↔ ∀ k ∈ classes, k.isHealthy := by
  simp only [countsFrom, Counts.unhealthy, Nat.add_eq_zero_iff, List.count_eq_zero]
  constructor
  · rintro ⟨⟨hdegraded, hfailed⟩, hinvalid⟩ k hk
    cases k with
    | successful => rfl
    | degraded => exact absurd hk hdegraded
    | failed => exact absurd hk hfailed
    | invalid => exact absurd hk hinvalid
    | unavailable => rfl
  · intro h
    exact ⟨⟨fun hk ↦ absurd (h _ hk) (by decide), fun hk ↦ absurd (h _ hk) (by decide)⟩,
      fun hk ↦ absurd (h _ hk) (by decide)⟩

/-- The status is `ok` exactly when every class is healthy. -/
theorem expectedStatus_eq_ok_iff (classes : List Class) :
    (countsFrom classes).expectedStatus = .ok ↔ ∀ k ∈ classes, k.isHealthy := by
  rw [← unhealthy_eq_zero_iff, Counts.expectedStatus]
  split
  · next h => exact iff_of_true rfl h
  · next h =>
      refine iff_of_false ?_ h
      split
      · decide
      · decide

mutual

theorem isHealthy_category : ∀ t : Tree V, t.category.isHealthy = true ↔ t.Healthy
  | .unavailable => iff_of_true rfl trivial
  | .raises _ _ => iff_of_false Bool.false_ne_true id
  | .invalid _ => iff_of_false Bool.false_ne_true id
  | .unreadable _ _ => iff_of_false Bool.false_ne_true id
  | .plain _ => iff_of_true rfl trivial
  | .node children => by
      have hstatus : (countsFrom (categories children)).expectedStatus.category.isHealthy = true ↔
          (countsFrom (categories children)).expectedStatus = .ok := by
        cases (countsFrom (categories children)).expectedStatus <;> decide
      exact hstatus.trans ((expectedStatus_eq_ok_iff _).trans (allHealthy_iff children).symm)

theorem allHealthy_iff : ∀ children : List (ComponentName × Tree V),
    AllHealthy children ↔ ∀ k ∈ categories children, k.isHealthy = true
  | [] => iff_of_true trivial fun _ h ↦ absurd h List.not_mem_nil
  | (_, t) :: rest => by
      rw [AllHealthy, categories, List.forall_mem_cons, isHealthy_category t, allHealthy_iff rest]

end

theorem status_eq_ok_iff (children : Children V) :
    statusOf children = .ok ↔ AllHealthy children :=
  (expectedStatus_eq_ok_iff _).trans (allHealthy_iff children).symm

/-! ## What the aggregation makes of a tree -/

/-- The outcome of a component agrees with what is said of its tree. -/
structure Described (sha256 : List UInt8 → Digest) (name : ComponentName) (t : Tree V) : Prop where
  category : classify (t.outcome sha256) = t.category
  digests : (issueOf (name, t.outcome sha256)).toList.map Issue.digest =
    issueDigests sha256 (t.issue name)
  lookup : ∀ k, (supplied (name, t.outcome sha256)).lookup k =
    ((t.supplies name).lookup k).map fun e ↦ (e.1, e.2.text)
  length_le : (supplied (name, t.outcome sha256)).length ≤ (t.supplies name).length

/-- The outcomes below a node agree with what is said of its tree. -/
structure AllDescribed (sha256 : List UInt8 → Digest) (children : Children V) : Prop where
  length : (asked sha256 children).length = children.length
  categories : (asked sha256 children).map (fun c ↦ classify c.2) = categories children
  digests : ((asked sha256 children).filterMap issueOf).map Issue.digest =
    issueDigests sha256 (childIssues children)
  lookup : ∀ k, ((asked sha256 children).flatMap supplied).lookup k =
    ((childSupplies children).lookup k).map fun e ↦ (e.1, e.2.text)
  length_le : ((asked sha256 children).flatMap supplied).length ≤ (childSupplies children).length

/-- A projection agrees with what is said of the tree below. -/
structure Reports (children : Children V) (p : Projection sha256 V) : Prop where
  counts : p.counts = countsFrom (categories children)
  auditDigest : p.auditDigest = (evidence children).digest sha256
  fields : ∀ k, p.fields.lookup k = ((childSupplies children).lookup k).map Prod.fst
  sources : ∀ k, p.fieldSources.lookup k =
    ((childSupplies children).lookup k).map fun e ↦ e.2.text
  length_le : p.fields.length ≤ (childSupplies children).length

theorem issueDigests_append (issues issues' : List (IssueTexts × Option Evidence)) :
    issueDigests sha256 (issues ++ issues') =
      issueDigests sha256 issues ++ issueDigests sha256 issues' := by
  induction issues with
  | nil => rfl
  | cons i rest ih =>
      obtain ⟨t, cause⟩ := i
      rw [List.cons_append, issueDigests_cons, issueDigests_cons, ih, List.cons_append]

theorem AllDescribed.cons {name : ComponentName} {t : Tree V}
    {rest : List (ComponentName × Tree V)} (ht : Described sha256 name t)
    (hrest : AllDescribed sha256 rest) : AllDescribed sha256 ((name, t) :: rest) where
  length := congrArg (· + 1) hrest.length
  categories := by
    rw [asked, List.map_cons, hrest.categories, ht.category]
    rfl
  digests := by
    rw [childIssues, issueDigests_append, ← ht.digests, ← hrest.digests, asked]
    cases hissue : issueOf (name, t.outcome sha256) with
    | none => rw [List.filterMap_cons_none hissue]; rfl
    | some i => rw [List.filterMap_cons_some hissue]; rfl
  lookup := by
    intro k
    rw [asked, List.flatMap_cons, List.lookup_append, ht.lookup, hrest.lookup, childSupplies,
      List.lookup_append, Option.map_or]
  length_le := by
    rw [asked, List.flatMap_cons, List.length_append, childSupplies, List.length_append]
    exact Nat.add_le_add ht.length_le hrest.length_le

/-- The projection of a node, from the components below. -/
theorem AllDescribed.reports {children : Children V} (h : AllDescribed sha256 children)
    (hlimit : children.length ≤ maxComponents) (hsize : (childSupplies children).length ≤ maxSize) :
    ∃ p, aggregate (asked sha256 children) = .ok p ∧ Reports children p := by
  obtain ⟨p, hp, hagg⟩ := aggregate_ok (h.length ▸ hlimit) (h.length_le.trans hsize)
  have hcounts : p.counts = countsFrom (RuntimeProjection.categories children) := by
    rw [hagg.counts, countsOf_eq, h.categories]
  refine ⟨p, hp, hcounts, ?_, ?_, ?_, hagg.length_le.trans h.length_le⟩
  · have hdigest : p.issueDigest =
        digestOf sha256 ((issueDigests sha256 (childIssues children)).map textOf) := by
      rw [hagg.issueDigest, issuesDigest, ← h.digests, List.map_map]
      rfl
    calc p.auditDigest = digestOf sha256 (auditParts p.counts p.issueDigest) := rfl
      _ = (evidence children).digest sha256 := by
        rw [hcounts, hdigest, evidence, Evidence.digest]
  · intro k
    rw [hagg.fields, h.lookup, Option.map_map]
    rfl
  · intro k
    rw [hagg.sources, h.lookup, Option.map_map]
    cases (childSupplies children).lookup k with
    | none => rfl
    | some e =>
        have hkept : boundedText sha256 e.2.text componentMaxBytes = (e.2.text, false) :=
          if_pos e.2.length_le
        rw [Option.map_some, Option.map_some, Function.comp_apply, hkept]

theorem lookup_supplied_projection {children : Children V} {p : Projection sha256 V}
    (h : Reports children p) (name : ComponentName) (k : PointText) :
    (supplied (name, .projection p)).lookup k =
      ((childSupplies children).lookup k).map fun e ↦ (e.1, e.2.text) := by
  rw [supplied, lookup_map_snd (fun k v ↦ (v, (p.fieldSources.lookup k).getD name.text)), h.fields,
    h.sources]
  cases (childSupplies children).lookup k <;> rfl

theorem issueOf_projection (name : ComponentName) (p : Projection sha256 V) :
    issueOf (name, .projection p) =
      if p.status = .ok then none else some (nestedIssue sha256 name p.status p.auditDigest) := by
  simp only [issueOf]
  cases p.status <;> rfl

/-- What a node is to the node above. -/
theorem Reports.described {children : Children V} {p : Projection sha256 V}
    (h : Reports children p) (hp : aggregate (asked sha256 children) = .ok p)
    (name : ComponentName) : Described sha256 name (.node children) := by
  have houtcome : (Tree.node children).outcome sha256 = .projection p := by
    rw [Tree.outcome, hp]
  have hstatus : p.status = statusOf children := congrArg Counts.expectedStatus h.counts
  constructor
  · rw [houtcome, classify, Tree.category, hstatus, statusOf]
    cases (countsFrom (categories children)).expectedStatus <;> rfl
  · rw [houtcome, issueOf_projection, Tree.issue, hstatus]
    by_cases hok : statusOf children = .ok
    · rw [if_pos hok, if_pos hok]
      rfl
    · rw [if_neg hok, if_neg hok, issueDigests_cons, Option.map_some, ← evidence, ← h.auditDigest]
      rfl
  · intro k
    rw [houtcome, lookup_supplied_projection h, Tree.supplies]
  · rw [houtcome, supplied, List.length_map, Tree.supplies]
    exact h.length_le

theorem described_plain (name : ComponentName) (items : List (Option PointText × Option V)) :
    Described sha256 name (.plain items) where
  category := rfl
  digests := rfl
  lookup := by
    intro k
    rw [Tree.outcome, supplied, Tree.supplies, lookup_map_snd (fun _ v ↦ (v, name.text)),
      lookup_map_snd (fun _ v ↦ (v, name)), Option.map_map]
    rfl
  length_le := by
    rw [Tree.outcome, supplied, Tree.supplies, List.length_map, List.length_map]

mutual

/-- Every component agrees with its tree: by induction on the tree. -/
theorem described (name : ComponentName) : ∀ t : Tree V, t.WithinLimit →
    (t.supplies name).length ≤ maxSize → Described sha256 name t
  | .unavailable, _, _ => ⟨rfl, rfl, fun _ ↦ rfl, le_rfl⟩
  | .raises _ _, _, _ => ⟨rfl, rfl, fun _ ↦ rfl, le_rfl⟩
  | .invalid _, _, _ => ⟨rfl, rfl, fun _ ↦ rfl, le_rfl⟩
  | .unreadable _ _, _, _ => ⟨rfl, rfl, fun _ ↦ rfl, le_rfl⟩
  | .plain items, _, _ => described_plain name items
  | .node children, hlimit, hsize => by
      obtain ⟨p, hp, hreports⟩ :=
        (allDescribed children hlimit.2 hsize).reports hlimit.1 hsize
      exact hreports.described hp name

theorem allDescribed : ∀ children : List (ComponentName × Tree V), AllWithinLimit children →
    (childSupplies children).length ≤ maxSize → AllDescribed sha256 children
  | [], _, _ => ⟨rfl, rfl, rfl, fun _ ↦ rfl, le_rfl⟩
  | (name, t) :: rest, hlimit, hsize => by
      rw [childSupplies, List.length_append] at hsize
      exact .cons (described name t hlimit.1 (by omega)) (allDescribed rest hlimit.2 (by omega))

end

variable (sha256) in
/-- The aggregation of a tree that fits returns a projection that agrees with the tree. -/
theorem Fitting.reports {children : Children V} (h : Fitting children) :
    ∃ p, aggregate (asked sha256 children) = .ok p ∧ Reports children p :=
  (allDescribed children h.below h.size).reports h.limit h.size

end Blackbase.Context.RuntimeProjection
