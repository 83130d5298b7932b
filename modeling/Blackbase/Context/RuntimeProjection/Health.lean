import Blackbase.Context.RuntimeProjection.Tree

/-!
# Health of nested projections

The projection of a tree of components is well exactly when no projector in the tree raises,
returns what is no mapping, or returns a mapping that cannot be read.  Its audit digest changes
with every issue in the tree, and its fields are those of the first leaves that give them.
-/

namespace Blackbase.Context.RuntimeProjection

open Resources (Digest)

variable {sha256 : List UInt8 → Digest} {V : Type}

/-! ## Evidence of a tree that fits -/

mutual

/-- The texts of the issues of some evidence, at any depth. -/
def Evidence.texts : Evidence → List IssueTexts
  | .node _ issues => issueTexts issues

def issueTexts : List (IssueTexts × Option Evidence) → List IssueTexts
  | [] => []
  | (t, none) :: rest => t :: issueTexts rest
  | (t, some e) :: rest => t :: (e.texts ++ issueTexts rest)

end

theorem issueTexts_append (issues issues' : List (IssueTexts × Option Evidence)) :
    issueTexts (issues ++ issues') = issueTexts issues ++ issueTexts issues' := by
  induction issues with
  | nil => rfl
  | cons i rest ih =>
      obtain ⟨t, cause⟩ := i
      cases cause with
      | none => rw [List.cons_append, issueTexts, issueTexts, ih, List.cons_append]
      | some e =>
          rw [List.cons_append, issueTexts, issueTexts, ih, List.cons_append, List.append_assoc]

theorem issuesSized_append {issues issues' : List (IssueTexts × Option Evidence)}
    (h : IssuesSized issues) (h' : IssuesSized issues') : IssuesSized (issues ++ issues') := by
  induction issues with
  | nil => exact h'
  | cons i rest ih =>
      obtain ⟨t, cause⟩ := i
      cases cause with
      | none => exact ⟨h.1, ih h.2⟩
      | some e => exact ⟨h.1, h.2.1, ih h.2.2⟩

theorem length_categories (children : Children V) :
    (categories children).length = children.length := by
  induction children with
  | nil => rfl
  | cons c rest ih =>
      obtain ⟨name, t⟩ := c
      rw [categories, List.length_cons, List.length_cons, ih]

/-- The unhealthy components are not more than all. -/
theorem unhealthy_countsFrom_le (classes : List Class) :
    (countsFrom classes).unhealthy ≤ classes.length := by
  induction classes with
  | nil => exact Nat.zero_le _
  | cons k rest ih =>
      simp only [countsFrom, Counts.unhealthy, List.count_cons, List.length_cons] at ih ⊢
      cases k <;> simp <;> omega

theorem countsFrom_le {classes : List Class} (h : classes.length ≤ maxComponents) :
    ∀ n ∈ (countsFrom classes).all, n ≤ maxComponents := by
  intro n hn
  have hcount (k : Class) : classes.count k ≤ maxComponents := List.count_le_length.trans h
  simp only [Counts.all, countsFrom, List.mem_cons, List.not_mem_nil, or_false] at hn
  rcases hn with rfl | rfl | rfl | rfl | rfl | rfl
  · exact h
  · exact hcount _
  · exact hcount _
  · exact hcount _
  · exact hcount _
  · exact hcount _

/-- The evidence of a node within the limit is sized when its issues are. -/
theorem sized_evidence {children : Children V} (h : children.length ≤ maxComponents)
    (hissues : IssuesSized (childIssues children)) : (evidence children).Sized := by
  rw [← length_categories] at h
  exact ⟨countsFrom_le h, (unhealthy_countsFrom_le _).trans h, hissues⟩

mutual

theorem issuesSized_issue (name : ComponentName) : ∀ t : Tree V, t.WithinLimit →
    (∀ i ∈ issueTexts (t.issue name), i.Hashable) → IssuesSized (t.issue name)
  | .unavailable, _, _ => trivial
  | .raises _ _, _, h => ⟨h _ List.mem_cons_self, trivial⟩
  | .invalid _, _, h => ⟨h _ List.mem_cons_self, trivial⟩
  | .unreadable _ _, _, h => ⟨h _ List.mem_cons_self, trivial⟩
  | .plain _, _, _ => trivial
  | .node children, hlimit, h => by
      rw [Tree.issue] at h ⊢
      by_cases hok : statusOf children = .ok
      · rw [if_pos hok]
        trivial
      · rw [if_neg hok] at h ⊢
        obtain ⟨hhead, hbelow⟩ := List.forall_mem_cons.mp h
        have hissues : IssuesSized (childIssues children) :=
          issuesSized_childIssues children hlimit.2 fun i hi ↦
            hbelow i (List.mem_append_left _ hi)
        exact ⟨hhead, sized_evidence hlimit.1 hissues, trivial⟩

theorem issuesSized_childIssues : ∀ children : List (ComponentName × Tree V),
    AllWithinLimit children → (∀ i ∈ issueTexts (childIssues children), i.Hashable) →
    IssuesSized (childIssues children)
  | [], _, _ => trivial
  | (name, t) :: rest, hlimit, h => by
      rw [childIssues, issueTexts_append] at h
      rw [childIssues]
      refine issuesSized_append (issuesSized_issue name t hlimit.1 fun i hi ↦ ?_)
        (issuesSized_childIssues rest hlimit.2 fun i hi ↦ ?_)
      · exact h i (List.mem_append_left _ hi)
      · exact h i (List.mem_append_right _ hi)

end

/-! ## Trees -/

theorem issue_eq_nil_iff (name : ComponentName) (t : Tree V) : t.issue name = [] ↔ t.Healthy := by
  cases t with
  | unavailable => exact iff_of_true rfl trivial
  | plain items => exact iff_of_true rfl trivial
  | node children =>
      rw [Tree.issue, Tree.Healthy, ← status_eq_ok_iff]
      by_cases hok : statusOf children = .ok
      · rw [if_pos hok]
        exact iff_of_true rfl hok
      · rw [if_neg hok]
        exact iff_of_false (List.cons_ne_nil _ _) hok
  | _ => exact iff_of_false (List.cons_ne_nil _ _) id

/-- A tree has an issue exactly when it is not well. -/
theorem childIssues_eq_nil_iff (children : Children V) :
    childIssues children = [] ↔ AllHealthy children := by
  induction children with
  | nil => exact iff_of_true rfl trivial
  | cons c rest ih =>
      obtain ⟨name, t⟩ := c
      rw [childIssues, AllHealthy, List.append_eq_nil_iff, issue_eq_nil_iff, ih]

variable (sha256) in
/-- What the projection of a tree says: its status, the sources of its fields, and by its audit
digest the issues of the tree, without a collision of SHA-256 among the inputs that are hashed. -/
theorem aggregate_tree {children : Children V} (h : Fitting children) :
    ∃ p, aggregate (asked sha256 children) = .ok p ∧
      (p.status = .ok ↔ AllHealthy children) ∧
      (∀ k, p.fields.lookup k = ((childSupplies children).lookup k).map Prod.fst ∧
        p.fieldSources.lookup k = ((childSupplies children).lookup k).map fun e ↦ e.2.text) ∧
      ∀ (children' : Children V) (p' : Projection sha256 V), Fitting children' →
        aggregate (asked sha256 children') = .ok p' →
        (∀ i ∈ issueTexts (childIssues children), i.Hashable) →
        (∀ i ∈ issueTexts (childIssues children'), i.Hashable) →
        Set.InjOn sha256 {x | x ∈ (evidence children).hashed sha256 ∨
          x ∈ (evidence children').hashed sha256} →
        childIssues children ≠ childIssues children' → p.auditDigest ≠ p'.auditDigest := by
  obtain ⟨p, hp, hreports⟩ := h.reports sha256
  refine ⟨p, hp, ?_, fun k ↦ ⟨hreports.fields k, hreports.sources k⟩, ?_⟩
  · rw [← status_eq_ok_iff, Projection.status, hreports.counts]
    rfl
  · intro children' p' h' hp' hclean hclean' hinj hne heq
    obtain ⟨q, hq, hreports'⟩ := h'.reports sha256
    obtain rfl : q = p' := Except.ok.inj (hq.symm.trans hp')
    rw [hreports.auditDigest, hreports'.auditDigest] at heq
    have hevidence := Evidence.eq_of_digest_eq hinj _ _
      (sized_evidence h.limit (issuesSized_childIssues children h.below hclean))
      (sized_evidence h'.limit (issuesSized_childIssues children' h'.below hclean'))
      (fun _ hx ↦ .inl hx) (fun _ hx ↦ .inr hx) heq
    injection hevidence with _ hissues
    exact hne hissues

/-! ## A failure among the components of a tree -/

section Failing

def componentName (s : String) (h : s.toList ≠ [])
    (hle : (PointText.ofString s).bytes.length ≤ componentMaxBytes) : ComponentName :=
  ⟨PointText.ofString s, by simpa [PointText.ofString, PointText.ofChars] using h, hle⟩

def hexDigest (s : String)
    (h : (s.toList.length == 64 && s.toList.all Resources.isHexDigit) = true) : Digest :=
  ⟨s, by simpa using (Bool.and_eq_true_iff.mp h).1,
    fun c hc ↦ List.all_eq_true.mp (Bool.and_eq_true_iff.mp h).2 c hc⟩

/-- The inputs that are hashed for a failure with a message, with their digests. -/
def failingEntries (message : String) (issue issues audit : Digest) :
    List (List UInt8 × Digest) :=
  [([runtimeProjectionSchema, "left", "error", "ValueError", message], issue),
    ([issue.text], issues),
    ([runtimeProjectionSchema, "degraded", "3", "2", "0", "1", "0", "0", "1", issues.text],
      audit)].map fun e ↦ ((e.1.map PointText.ofString).flatMap frame, e.2)

def failingTable : List (List UInt8 × Digest) :=
  failingEntries "no budget"
    (hexDigest "d94a8ae776a30efdc953de042553b6c87141ff5534daa0d03e0867d4f5a8709b"
      (by decide +kernel))
    (hexDigest "8d8bc082dbad89fe5a3afba6a50af0e0b75680ab55597236d4c723505eede78b"
      (by decide +kernel))
    (hexDigest "f043a1d5bb3c6bf26657cb0a6db0d734f1862118a2815d399c1013643c17def7"
      (by decide +kernel)) ++
  failingEntries "no memory"
    (hexDigest "d93f5a2ad868a014cf0a34ce36e5b9566cbadbc9d5fcdfc25a92a1e9eb12b10d"
      (by decide +kernel))
    (hexDigest "a5fdec70031efff32d09e3b60424763a95fbece1a2e420776be0ed354687a10e"
      (by decide +kernel))
    (hexDigest "ad50e4eabd038316bf930342250a337e54238e83163bf63c52b0b175297f50f4"
      (by decide +kernel)) ++
  [(PointText.utf8 "no budget".toList,
      hexDigest "fa2e594590847843ef8343043013ca1f2dec55c2dd6df61cc2bdd2b696413466"
        (by decide +kernel)),
    (PointText.utf8 "no memory".toList,
      hexDigest "bf3fab57933c1917353561d563de321def2acf193f7632b63e531aba39512147"
        (by decide +kernel)),
    ([], hexDigest "e3b0c44298fc1c149afbf4c8996fb92427ae41e4649b934ca495991b7852b855"
      (by decide +kernel)),
    (([runtimeProjectionSchema, "ok", "1", "1", "0", "0", "0", "0", "0",
        "e3b0c44298fc1c149afbf4c8996fb92427ae41e4649b934ca495991b7852b855"].map
          PointText.ofString).flatMap frame,
      hexDigest "c2e0bd318518f8d5a467561bf46eace653d52ce36fe40b08f63104de5a3ca3be"
        (by decide +kernel)),
    ((["blackbase.runtime_projection.field_sources.v1", "beta", "right"].map
        PointText.ofString).flatMap frame,
      hexDigest "44b8422ac4497761c7c6ac0dc6dea128a85d7e26be234e020c99d4828660757d"
        (by decide +kernel))]

/-- The digests of the texts of two trees. -/
def failingDigests (bytes : List UInt8) : Digest :=
  (failingTable.lookup bytes).getD Resources.ControlStore.zeroDigest

/-- A projector that fails, a node with a component that gives a field, and a component that gives
it again. -/
def failingTree (message : String) : Children ℕ :=
  [(componentName "left" (by decide +kernel) (by decide +kernel),
      .raises (PointText.ofString "ValueError") (PointText.ofString message)),
    (componentName "inner" (by decide +kernel) (by decide +kernel), .node
      [(componentName "right" (by decide +kernel) (by decide +kernel),
        .plain [(some (PointText.ofString "gamma"), none),
          (some (PointText.ofString "beta"), some 1)])]),
    (componentName "outer" (by decide +kernel) (by decide +kernel),
      .plain [(some (PointText.ofString "beta"), some 2)])]

theorem fitting_failingTree (message : String) : Fitting (failingTree message) := by
  have hthree : 3 ≤ maxComponents := by decide
  have hone : 1 ≤ maxComponents := by decide
  refine ⟨hthree, ⟨trivial, ⟨hone, trivial, trivial⟩, trivial, trivial⟩, ?_⟩
  change 2 ≤ maxSize
  decide

theorem hashable_failingTree {message : String} (h : message.toList.length ≤ 2 ^ 32) :
    ∀ i ∈ issueTexts (childIssues (failingTree message)), i.Hashable := by
  intro i hi
  obtain rfl := List.mem_singleton.mp hi
  exact ⟨hashable_ofChars (by decide +kernel), hashable_ofChars (by decide +kernel),
    hashable_ofChars (by decide +kernel), hashable_ofChars h⟩

/-- The digests of the inputs that are hashed for the two trees are different. -/
theorem nodup_failingDigests : (((evidence (failingTree "no budget")).hashed failingDigests ++
    (evidence (failingTree "no memory")).hashed failingDigests).map
    fun x ↦ (failingDigests x).text).Nodup := by
  decide +kernel

theorem injOn_failingDigests : Set.InjOn failingDigests
    {x | x ∈ (evidence (failingTree "no budget")).hashed failingDigests ∨
      x ∈ (evidence (failingTree "no memory")).hashed failingDigests} := by
  intro x hx y hy h
  exact List.inj_on_of_nodup_map nodup_failingDigests (List.mem_append.mpr hx)
    (List.mem_append.mpr hy) (congrArg Digest.text h)

/-- The projection of such a tree, and of the same tree with another message. -/
theorem aggregate_failingTree : ∃ p p' : Projection failingDigests ℕ,
    aggregate (asked failingDigests (failingTree "no budget")) = .ok p ∧
      aggregate (asked failingDigests (failingTree "no memory")) = .ok p' ∧ p.status ≠ .ok ∧
      p.fields.lookup (PointText.ofString "beta") = some 1 ∧
      p.fieldSources.lookup (PointText.ofString "beta") = some (PointText.ofString "right") ∧
      p.auditDigest ≠ p'.auditDigest := by
  obtain ⟨p, hp, hstatus, hfields, hdigest⟩ :=
    aggregate_tree failingDigests (fitting_failingTree "no budget")
  obtain ⟨p', hp', -⟩ := aggregate_tree failingDigests (fitting_failingTree "no memory")
  refine ⟨p, p', hp, hp', fun h ↦ (hstatus.mp h).1, ?_, ?_, ?_⟩
  · rw [(hfields _).1]
    decide +kernel
  · rw [(hfields _).2]
    decide +kernel
  · refine hdigest _ p' (fitting_failingTree "no memory") hp'
      (hashable_failingTree (by decide +kernel)) (hashable_failingTree (by decide +kernel))
      injOn_failingDigests ?_
    intro heq
    have htexts := congrArg issueTexts heq
    revert htexts
    decide +kernel

end Failing

/-! ## A mapping that cannot be read -/

section Unreadable

mutual

/-- No projector in the tree raises or returns what is no mapping. -/
def Tree.ReturnsMapping : Tree V → Prop
  | .unavailable | .plain _ | .unreadable _ _ => True
  | .raises _ _ | .invalid _ => False
  | .node children => AllReturnMappings children

def AllReturnMappings : List (ComponentName × Tree V) → Prop
  | [] => True
  | (_, t) :: rest => t.ReturnsMapping ∧ AllReturnMappings rest

end

/-- A component whose projector returns a mapping that raises when its items are read. -/
def unreadableTree : Children ℕ :=
  [(componentName "left" (by decide +kernel) (by decide +kernel),
    .unreadable (PointText.ofString "KeyError") (PointText.ofString "'beta'"))]

/-- No projector raises, and every one returns a mapping; the status is not `ok`. -/
theorem not_status_iff_unreadable : Fitting unreadableTree ∧ AllReturnMappings unreadableTree ∧
    (aggregate (asked failingDigests unreadableTree)).toOption.map Projection.status =
      some .error := by
  refine ⟨⟨?_, ⟨trivial, trivial⟩, Nat.zero_le _⟩, ⟨trivial, trivial⟩, ?_⟩
  · change 1 ≤ maxComponents
    decide
  · decide +kernel

end Unreadable

end Blackbase.Context.RuntimeProjection
