import Blackbase.Core.Attempt
import Blackbase.Context.RuntimeProjection.Aggregate

/-!
# What an aggregation returns

What a component gives is read off its outcome alone (`classify`, `issueOf`, `supplied`), and the
aggregation is described by these: an aggregation of not too many components returns, with the
counts, the issues and the fields that they say.
-/

namespace Blackbase.Context.RuntimeProjection

open Resources (Digest)

variable {sha256 : List UInt8 → Digest} {V : Type}

/-! ## What a component gives -/

def classify : Outcome sha256 V → Class
  | .unavailable => .unavailable
  | .raises _ _ => .failed
  | .invalid _ => .invalid
  | .unreadable _ _ => .failed
  | .plain _ => .successful
  | .projection p =>
    match p.status with
    | .ok => .successful
    | .degraded => .degraded
    | .error => .failed

def issueOf (c : Asked sha256 V) : Option Issue :=
  match c.2 with
  | .unavailable => none
  | .raises errorType message => some (issueFromError sha256 c.1 "error" errorType message)
  | .invalid typeName =>
      some (issueFromError sha256 c.1 "invalid_result" (PointText.ofString "TypeError")
        (invalidMessage typeName))
  | .unreadable errorType message => some (issueFromError sha256 c.1 "error" errorType message)
  | .plain _ => none
  | .projection p =>
    match p.status with
    | .ok => none
    | .degraded => some (nestedIssue sha256 c.1 .degraded p.auditDigest)
    | .error => some (nestedIssue sha256 c.1 .error p.auditDigest)

/-- The fields that a component gives, with their sources. -/
def supplied (c : Asked sha256 V) : List (PointText × V × PointText) :=
  match c.2 with
  | .plain items => (readable items).map fun e ↦ (e.1, e.2, c.1.text)
  | .projection p => p.fields.map fun e ↦ (e.1, e.2, (p.fieldSources.lookup e.1).getD c.1.text)
  | _ => []

/-- An accumulator with one more issue. -/
def Accumulator.push (a : Accumulator) (i : Issue) : Accumulator where
  sampleLimit := a.sampleLimit
  count := a.count + 1
  samples := if a.samples.length < a.sampleLimit then a.samples ++ [i] else a.samples
  parts := a.parts ++ [textOf i.digest]

/-- A turn of the loop, as long as the accumulator has room. -/
def Progress.turn (s : Progress V) (c : Asked sha256 V) : Progress V :=
  ({ s.count (classify c.2) with
    issues := ((issueOf c).map s.issues.push).getD s.issues } : Progress V).addFields (supplied c)

theorem Accumulator.add_eq {a : Accumulator} (h : a.count < maxComponents) (i : Issue) :
    a.add i = .ok (a.push i) := if_neg (not_le.mpr h)

theorem Progress.issues_count (s : Progress V) (k : Class) : (s.count k).issues = s.issues := by
  cases k <;> rfl

theorem Progress.addIssue_eq {s : Progress V} (h : s.issues.count < maxComponents) (i : Issue) :
    s.addIssue i = .ok { s with issues := s.issues.push i } := by
  rw [addIssue, Accumulator.add_eq h]
  rfl

/-- The loop takes a turn while the accumulator has room. -/
theorem Progress.ask_eq {s : Progress V} (h : s.issues.count < maxComponents)
    (c : Asked sha256 V) : s.ask c = .ok (s.turn c) := by
  have hroom (k : Class) : (s.count k).issues.count < maxComponents := by
    rw [issues_count]
    exact h
  obtain ⟨name, outcome⟩ := c
  cases outcome with
  | unavailable => rfl
  | raises errorType message => exact addIssue_eq (hroom .failed) _
  | invalid typeName => exact addIssue_eq (hroom .invalid) _
  | unreadable errorType message => exact addIssue_eq (hroom .failed) _
  | plain items => rfl
  | projection p =>
      cases hstatus : p.status with
      | ok => simp [ask, turn, hstatus, classify, issueOf, supplied, Attempt.bind_ok, count]
      | degraded =>
          simp only [ask, turn, hstatus, classify, issueOf, supplied, addIssue_eq (hroom .degraded),
            Attempt.bind_ok]
          rfl
      | error =>
          simp only [ask, turn, hstatus, classify, issueOf, supplied, addIssue_eq (hroom .failed),
            Attempt.bind_ok]
          rfl

/-! ## The whole loop -/

namespace Progress

/-- The number of the components of one class. -/
def number (s : Progress V) : Class → ℕ
  | .successful => s.successful
  | .degraded => s.degraded
  | .failed => s.failed
  | .invalid => s.invalid
  | .unavailable => s.unavailable

theorem number_count (s : Progress V) (k k' : Class) :
    (s.count k).number k' = s.number k' + if k = k' then 1 else 0 := by
  cases k <;> cases k' <;> rfl

theorem addField_frame (s : Progress V) (k : PointText) (v : V) (source : PointText) :
    (s.addField k v source).number = s.number ∧ (s.addField k v source).issues = s.issues := by
  unfold addField
  split
  · exact ⟨rfl, rfl⟩
  · exact ⟨rfl, rfl⟩

/-- Fields change neither the counts nor the issues. -/
theorem addFields_frame (s : Progress V) (fields : List (PointText × V × PointText)) :
    (s.addFields fields).number = s.number ∧ (s.addFields fields).issues = s.issues := by
  induction fields generalizing s with
  | nil => exact ⟨rfl, rfl⟩
  | cons e rest ih =>
      have hhead := s.addField_frame e.1 e.2.1 e.2.2
      have hrest := ih (s.addField e.1 e.2.1 e.2.2)
      exact ⟨hrest.1.trans hhead.1, hrest.2.trans hhead.2⟩

theorem number_turn (s : Progress V) (c : Asked sha256 V) (k : Class) :
    (s.turn c).number k = s.number k + if classify c.2 = k then 1 else 0 := by
  rw [turn, (addFields_frame _ _).1, ← number_count]
  rfl

theorem issues_turn (s : Progress V) (c : Asked sha256 V) :
    (s.turn c).issues = ((issueOf c).map s.issues.push).getD s.issues := by
  rw [turn, (addFields_frame _ _).2]

theorem number_foldl (cs : List (Asked sha256 V)) (s : Progress V) (k : Class) :
    (cs.foldl turn s).number k = s.number k + (cs.map fun c ↦ classify c.2).count k := by
  induction cs generalizing s with
  | nil => rfl
  | cons c rest ih =>
      rw [List.foldl_cons, ih, number_turn, List.map_cons, List.count_cons]
      simp only [beq_iff_eq]
      omega

theorem issues_foldl (cs : List (Asked sha256 V)) (s : Progress V) :
    (cs.foldl turn s).issues = (cs.filterMap issueOf).foldl Accumulator.push s.issues := by
  induction cs generalizing s with
  | nil => rfl
  | cons c rest ih =>
      rw [List.foldl_cons, ih, issues_turn]
      cases h : issueOf c with
      | none => rw [List.filterMap_cons_none h]; rfl
      | some i => rw [List.filterMap_cons_some h]; rfl

end Progress

theorem Accumulator.foldl_push (issues : List Issue) (a : Accumulator)
    (h : a.samples.length = min a.sampleLimit a.count) :
    (issues.foldl push a).count = a.count + issues.length ∧
      (issues.foldl push a).sampleLimit = a.sampleLimit ∧
      (issues.foldl push a).parts = a.parts ++ issues.map (fun i ↦ textOf i.digest) ∧
      (issues.foldl push a).samples =
        a.samples ++ issues.take (a.sampleLimit - a.samples.length) := by
  induction issues generalizing a with
  | nil => simp
  | cons i rest ih =>
      have hnext : (a.push i).samples.length = min (a.push i).sampleLimit (a.push i).count := by
        simp only [push]
        split
        · rw [List.length_append, List.length_singleton]
          omega
        · omega
      obtain ⟨hcount, hlimit, hparts, hsamples⟩ := ih (a.push i) hnext
      refine ⟨?_, hlimit, ?_, ?_⟩
      · rw [List.foldl_cons, hcount, List.length_cons, push]
        dsimp only
        omega
      · rw [List.foldl_cons, hparts, push, List.map_cons, List.append_assoc]
        rfl
      · rw [List.foldl_cons, hsamples]
        simp only [push]
        split
        · next hlt =>
            obtain ⟨m, hm⟩ : ∃ m, a.sampleLimit - a.samples.length = m + 1 :=
              ⟨a.sampleLimit - a.samples.length - 1, by omega⟩
            rw [hm, List.take_succ_cons, List.append_assoc, List.length_append,
              List.length_singleton, show a.sampleLimit - (a.samples.length + 1) = m by omega]
            rfl
        · next hge =>
            rw [show a.sampleLimit - a.samples.length = 0 by omega, List.take_zero, List.take_zero]

/-! ## Counts and issues -/

/-- The counts of components. -/
def countsOf (cs : List (Asked sha256 V)) : Counts where
  component := cs.length
  successful := (cs.map fun c ↦ classify c.2).count .successful
  degraded := (cs.map fun c ↦ classify c.2).count .degraded
  failed := (cs.map fun c ↦ classify c.2).count .failed
  invalid := (cs.map fun c ↦ classify c.2).count .invalid
  unavailable := (cs.map fun c ↦ classify c.2).count .unavailable

def Class.isHealthy : Class → Bool
  | .successful => true
  | .unavailable => true
  | _ => false

/-- Exactly the components that are not well leave an issue. -/
theorem isSome_issueOf (c : Asked sha256 V) :
    (issueOf c).isSome = !(classify c.2).isHealthy := by
  obtain ⟨name, outcome⟩ := c
  cases outcome with
  | projection p => cases h : p.status <;> simp [issueOf, classify, h, Class.isHealthy]
  | _ => rfl

theorem sum_countsOf (cs : List (Asked sha256 V)) :
    (countsOf cs).successful + (countsOf cs).degraded + (countsOf cs).failed +
      (countsOf cs).invalid + (countsOf cs).unavailable = cs.length := by
  induction cs with
  | nil => rfl
  | cons c rest ih =>
      simp only [countsOf, List.map_cons, List.count_cons, List.length_cons] at ih ⊢
      cases classify c.2 <;> simp <;> omega

theorem unhealthy_countsOf (cs : List (Asked sha256 V)) :
    (countsOf cs).unhealthy = (cs.filterMap issueOf).length := by
  induction cs with
  | nil => rfl
  | cons c rest ih =>
      have hissue := isSome_issueOf c
      simp only [countsOf, Counts.unhealthy, List.map_cons, List.count_cons] at ih ⊢
      cases h : issueOf c with
      | none =>
          rw [List.filterMap_cons_none h, ← ih]
          rw [h] at hissue
          cases hclass : classify c.2 <;> simp [hclass, Class.isHealthy] at hissue ⊢
      | some i =>
          rw [List.filterMap_cons_some h, List.length_cons, ← ih]
          rw [h] at hissue
          cases hclass : classify c.2 <;> simp [hclass, Class.isHealthy] at hissue ⊢ <;> omega

/-! ## Fields -/

theorem lookup_append_single {α : Type} (l : List (PointText × α)) (k : PointText) (a : α)
    (k' : PointText) :
    (l ++ [(k, a)]).lookup k' = (l.lookup k').or (if k' = k then some a else none) := by
  induction l with
  | nil =>
      rw [List.nil_append, List.lookup_cons]
      by_cases h : k' = k
      · simp [h]
      · simp [h, beq_eq_false_iff_ne.mpr h]
  | cons e rest ih =>
      rw [List.cons_append, List.lookup_cons, List.lookup_cons, ih]
      cases k' == e.1 <;> rfl

theorem lookup_isSome {α : Type} {l : List (PointText × α)} {k : PointText} :
    (l.lookup k).isSome ↔ k ∈ l.map Prod.fst := by
  induction l with
  | nil => simp
  | cons e rest ih =>
      rw [List.lookup_cons, List.map_cons, List.mem_cons]
      by_cases h : k = e.1
      · simp [h]
      · simp only [beq_eq_false_iff_ne.mpr h, ih, h, false_or]

theorem lookup_map_snd {α β : Type} (f : PointText → α → β) (l : List (PointText × α))
    (k : PointText) : (l.map fun e ↦ (e.1, f e.1 e.2)).lookup k = (l.lookup k).map (f k) := by
  induction l with
  | nil => rfl
  | cons e rest ih =>
      rw [List.map_cons, List.lookup_cons, List.lookup_cons, ih]
      by_cases h : k = e.1
      · simp [h]
      · simp [beq_eq_false_iff_ne.mpr h]

namespace Progress

variable (s : Progress V)

theorem isSome_writers (k : PointText) :
    (s.writers.lookup k).isSome = (s.merged.lookup k).isSome := by
  rw [Bool.eq_iff_iff, lookup_isSome, lookup_isSome, s.keys_eq]

theorem lookup_addField (k : PointText) (v : V) (source k' : PointText) :
    (s.addField k v source).merged.lookup k' =
        (s.merged.lookup k').or (if k' = k then some v else none) ∧
      (s.addField k v source).writers.lookup k' =
        (s.writers.lookup k').or (if k' = k then some source else none) := by
  unfold addField
  split
  · next h =>
      have hmerged := lookup_isSome.mpr h
      have hwriters := s.isSome_writers k ▸ hmerged
      obtain ⟨w, hw⟩ := Option.isSome_iff_exists.mp hmerged
      obtain ⟨src, hsrc⟩ := Option.isSome_iff_exists.mp hwriters
      by_cases hk : k' = k
      · subst hk
        rw [hw, hsrc]
        exact ⟨rfl, rfl⟩
      · rw [if_neg hk, if_neg hk, Option.or_none, Option.or_none]
        exact ⟨rfl, rfl⟩
  · exact ⟨lookup_append_single _ _ _ _, lookup_append_single _ _ _ _⟩

/-- Of every field the first value is kept, with its source. -/
theorem lookup_addFields (fields : List (PointText × V × PointText)) (k : PointText) :
    (s.addFields fields).merged.lookup k =
        (s.merged.lookup k).or ((fields.lookup k).map Prod.fst) ∧
      (s.addFields fields).writers.lookup k =
        (s.writers.lookup k).or ((fields.lookup k).map Prod.snd) := by
  induction fields generalizing s with
  | nil => exact ⟨(Option.or_none).symm, (Option.or_none).symm⟩
  | cons e rest ih =>
      obtain ⟨hmerged, hwriters⟩ := ih (s.addField e.1 e.2.1 e.2.2)
      obtain ⟨hm, hw⟩ := s.lookup_addField e.1 e.2.1 e.2.2 k
      rw [addFields, List.foldl_cons, ← addFields, hmerged, hwriters, hm, hw, Option.or_assoc,
        Option.or_assoc, List.lookup_cons]
      by_cases h : k = e.1
      · simp [h]
      · simp [h, beq_eq_false_iff_ne.mpr h]

theorem length_addFields (fields : List (PointText × V × PointText)) :
    (s.addFields fields).writers.length ≤ s.writers.length + fields.length := by
  induction fields generalizing s with
  | nil => exact le_rfl
  | cons e rest ih =>
      have hrest := ih (s.addField e.1 e.2.1 e.2.2)
      have hhead : (s.addField e.1 e.2.1 e.2.2).writers.length ≤ s.writers.length + 1 := by
        unfold addField
        split
        · exact Nat.le_succ _
        · rw [List.length_append, List.length_singleton]
      rw [addFields, List.foldl_cons, ← addFields, List.length_cons]
      omega

theorem fields_count (k : Class) :
    (s.count k).merged = s.merged ∧ (s.count k).writers = s.writers := by
  cases k <;> exact ⟨rfl, rfl⟩

theorem lookup_foldl (cs : List (Asked sha256 V)) (k : PointText) :
    (cs.foldl turn s).merged.lookup k =
        (s.merged.lookup k).or (((cs.flatMap supplied).lookup k).map Prod.fst) ∧
      (cs.foldl turn s).writers.lookup k =
        (s.writers.lookup k).or (((cs.flatMap supplied).lookup k).map Prod.snd) := by
  induction cs generalizing s with
  | nil => exact ⟨(Option.or_none).symm, (Option.or_none).symm⟩
  | cons c rest ih =>
      obtain ⟨hmerged, hwriters⟩ := ih (s.turn c)
      have hm := (lookup_addFields ({ s.count (classify c.2) with
        issues := ((issueOf c).map s.issues.push).getD s.issues } : Progress V) (supplied c) k).1
      have hw := (lookup_addFields ({ s.count (classify c.2) with
        issues := ((issueOf c).map s.issues.push).getD s.issues } : Progress V) (supplied c) k).2
      rw [List.foldl_cons, hmerged, hwriters, turn, hm, hw]
      dsimp only
      rw [(s.fields_count _).1, (s.fields_count _).2, List.flatMap_cons, List.lookup_append,
        Option.map_or, Option.map_or, Option.or_assoc, Option.or_assoc]
      exact ⟨rfl, rfl⟩

theorem length_foldl (cs : List (Asked sha256 V)) :
    (cs.foldl turn s).writers.length ≤ s.writers.length + (cs.flatMap supplied).length := by
  induction cs generalizing s with
  | nil => exact le_rfl
  | cons c rest ih =>
      have hhead : (s.turn c).writers.length ≤ s.writers.length + (supplied c).length := by
        refine (length_addFields _ _).trans ?_
        dsimp only
        rw [(s.fields_count _).2]
      have hrest := ih (s.turn c)
      rw [List.foldl_cons, List.flatMap_cons, List.length_append]
      omega

/-- The loop returns for as many components as there may be. -/
theorem foldlM_ask (cs : List (Asked sha256 V)) (h : s.issues.count + cs.length ≤ maxComponents) :
    cs.foldlM ask s = .ok (cs.foldl turn s) := by
  induction cs generalizing s with
  | nil => rfl
  | cons c rest ih =>
      rw [List.length_cons] at h
      rw [List.foldlM_cons, ask_eq (by omega), Attempt.bind_ok, List.foldl_cons]
      refine ih _ ?_
      rw [issues_turn]
      cases issueOf c with
      | none =>
          rw [Option.map_none, Option.getD_none]
          omega
      | some i =>
          rw [Option.map_some, Option.getD_some, Accumulator.push]
          dsimp only
          omega

end Progress

/-! ## What an aggregation returns -/

/-- What a projection says of the components that it was put together from. -/
structure Aggregates (cs : List (Asked sha256 V)) (p : Projection sha256 V) : Prop where
  counts : p.counts = countsOf cs
  issueDigest : p.issueDigest = issuesDigest sha256 (cs.filterMap issueOf)
  fields : ∀ k, p.fields.lookup k = ((cs.flatMap supplied).lookup k).map Prod.fst
  sources : ∀ k, p.fieldSources.lookup k = ((cs.flatMap supplied).lookup k).map fun e ↦
    (boundedText sha256 e.2 componentMaxBytes).1
  length_le : p.fields.length ≤ (cs.flatMap supplied).length

variable (sha256) in
/-- The constructor accepts consistent arguments. -/
theorem Projection.make_ok {a : Args V} {d : Digest}
    (hsource : ∀ e ∈ a.fieldSources, e.1 ∈ a.fields.map Prod.fst)
    (hcounts : ∀ n ∈ a.counts.all, n ≤ maxComponents)
    (hsum : a.counts.successful + a.counts.degraded + a.counts.failed + a.counts.invalid +
      a.counts.unavailable = a.counts.component)
    (hstatus : a.status = a.counts.expectedStatus) (hlimit : a.issueSampleLimit ≤ maxIssueSamples)
    (hsamples : a.issueSamples.length ≤ a.issueSampleLimit)
    (hcount : a.issueCount = some a.counts.unhealthy)
    (hfew : a.issueSamples.length ≤ a.counts.unhealthy) (hdigest : a.issueDigest = some d)
    (hall : a.issueSamples.length = a.counts.unhealthy → d = issuesDigest sha256 a.issueSamples) :
    ∃ p, Projection.make sha256 a = .ok p ∧ p.fields = a.fields ∧
      p.fieldSources = a.fieldSources.map (fun e ↦
        (e.1, (boundedText sha256 e.2 componentMaxBytes).1)) ∧
      p.counts = a.counts ∧ p.issueDigest = d := by
  have hcount' : a.issueCount.getD a.issueSamples.length = a.counts.unhealthy ∧
      a.issueSamples.length ≤ a.counts.unhealthy := by
    rw [hcount]
    exact ⟨rfl, hfew⟩
  unfold Projection.make
  rw [dif_pos hsource, dif_pos hcounts, dif_pos hsum, if_pos hstatus, dif_pos hlimit,
    if_pos (hsamples.trans hlimit), dif_pos hsamples, dif_pos hcount']
  by_cases h : a.issueSamples.length = a.counts.unhealthy
  · have hgiven : a.issueDigest.getD (issuesDigest sha256 a.issueSamples) =
        issuesDigest sha256 a.issueSamples := by
      rw [hdigest]
      exact hall h
    rw [dif_pos h, if_pos hgiven]
    exact ⟨_, rfl, rfl, rfl, rfl, (hall h).symm⟩
  · rw [dif_neg h]
    split
    · next hnone => exact absurd (hnone.symm.trans hdigest) (by simp)
    · next digest hsome =>
        have heq : digest = d := Option.some.inj (hsome.symm.trans hdigest)
        exact ⟨_, rfl, rfl, rfl, rfl, heq⟩

/-- When the loop is done, the counts are those of the components. -/
theorem counts_loop (cs : List (Asked sha256 V)) :
    (cs.foldl Progress.turn .start).counts cs.length = countsOf cs := by
  have hnumber (k : Class) :
      (cs.foldl Progress.turn .start).number k = (cs.map fun c ↦ classify c.2).count k := by
    rw [Progress.number_foldl]
    cases k <;> exact Nat.zero_add _
  rw [Progress.counts, countsOf, ← hnumber, ← hnumber, ← hnumber, ← hnumber, ← hnumber]
  rfl

/-- When the loop is done, the accumulator has seen the issues of the components. -/
theorem issues_loop (cs : List (Asked sha256 V)) :
    (cs.foldl Progress.turn .start).issues.count = (cs.filterMap issueOf).length ∧
      (cs.foldl Progress.turn .start).issues.sampleLimit = maxIssueSamples ∧
      (cs.foldl Progress.turn .start).issues.parts =
        (cs.filterMap issueOf).map (fun i ↦ textOf i.digest) ∧
      (cs.foldl Progress.turn .start).issues.samples =
        (cs.filterMap issueOf).take maxIssueSamples := by
  obtain ⟨hcount, hlimit, hparts, hsamples⟩ :=
    Accumulator.foldl_push (cs.filterMap issueOf) .empty rfl
  rw [Progress.issues_foldl]
  exact ⟨hcount.trans (Nat.zero_add _), hlimit, hparts, hsamples⟩

/-- An aggregation of not too many components returns. -/
theorem aggregate_ok {cs : List (Asked sha256 V)} (hlen : cs.length ≤ maxComponents)
    (hsize : (cs.flatMap supplied).length ≤ maxSize) :
    ∃ p, aggregate cs = .ok p ∧ Aggregates cs p := by
  have hroom : (Progress.start (V := V)).issues.count + cs.length ≤ maxComponents := by
    rw [show (Progress.start (V := V)).issues.count = 0 from rfl, Nat.zero_add]
    exact hlen
  have hrun := Progress.start.foldlM_ask cs hroom
  have hwriters : (cs.foldl Progress.turn .start).writers.length ≤ maxSize := by
    refine (Progress.start.length_foldl cs).trans ?_
    rw [show (Progress.start (V := V)).writers.length = 0 from rfl, Nat.zero_add]
    exact hsize
  have hcounts := counts_loop cs
  obtain ⟨hcount, hlimit, hparts, hsamples⟩ := issues_loop cs
  have hunhealthy : (countsOf cs).unhealthy = (cs.filterMap issueOf).length :=
    unhealthy_countsOf cs
  have hfew : (cs.foldl Progress.turn .start).issues.samples.length ≤ (countsOf cs).unhealthy := by
    rw [hsamples, List.length_take, hunhealthy]
    exact Nat.min_le_right _ _
  have hall : (cs.foldl Progress.turn .start).issues.samples.length = (countsOf cs).unhealthy →
      digestOf sha256 (cs.foldl Progress.turn .start).issues.parts =
        issuesDigest sha256 (cs.foldl Progress.turn .start).issues.samples := by
    intro heq
    rw [hsamples, List.length_take, hunhealthy] at heq
    rw [hparts, hsamples, List.take_of_length_le (by omega)]
    rfl
  have hle : ∀ n ∈ (countsOf cs).all, n ≤ maxComponents := by
    intro n hn
    have hsum := sum_countsOf cs
    have hcomponent : (countsOf cs).component = cs.length := rfl
    simp only [Counts.all, List.mem_cons, List.not_mem_nil, or_false] at hn
    omega
  have hlimited : (cs.foldl Progress.turn .start).issues.samples.length ≤
      (cs.foldl Progress.turn .start).issues.sampleLimit := by
    rw [hsamples, List.length_take, hlimit]
    exact Nat.min_le_left _ _
  rw [← hcounts] at hall hle hfew hunhealthy
  obtain ⟨p, hp, hfields, hsources, hpcounts, hdigest⟩ := Projection.make_ok sha256
    (a := (cs.foldl Progress.turn .start).args sha256 cs.length hwriters)
    (fun e he ↦ (cs.foldl Progress.turn .start).keys_eq ▸ List.mem_map_of_mem he) hle
    (by
      have hsum := sum_countsOf cs
      rw [← hcounts] at hsum
      exact hsum)
    rfl hlimit.le hlimited (congrArg some (hcount.trans hunhealthy.symm)) hfew rfl hall
  have hlookup := Progress.start.lookup_foldl cs
  refine ⟨p, ?_, hpcounts.trans hcounts, ?_, ?_, ?_, ?_⟩
  · rw [aggregate, hrun, Attempt.bind_ok, Progress.finish, dif_pos hwriters, hp]
    rfl
  · rw [hdigest, hparts]
    rfl
  · intro k
    rw [hfields]
    exact (hlookup k).1.trans (Option.none_or ..)
  · intro k
    rw [hsources, lookup_map_snd (fun _ e ↦ (boundedText sha256 e componentMaxBytes).1)]
    refine (congrArg (Option.map _) (hlookup k).2).trans ?_
    rw [show (Progress.start (V := V)).writers.lookup k = none from rfl, Option.none_or,
      Option.map_map]
    rfl
  · have hkeys := congrArg List.length (cs.foldl Progress.turn .start).keys_eq
    rw [List.length_map, List.length_map] at hkeys
    have hlength := Progress.start.length_foldl cs
    rw [show (Progress.start (V := V)).writers.length = 0 from rfl, Nat.zero_add] at hlength
    rw [hfields]
    exact hkeys ▸ hlength

end Blackbase.Context.RuntimeProjection
