import Blackbase.Core.Attempt
import Blackbase.Context.RuntimeProjection.Model

/-!
# Audits within their budget

An audit starts without samples, and that it fits follows from the bounds of its counts and
digests.  It grows by one sample at a time and every growth is measured, so it never stops
fitting; what is left to go wrong is a sample that cannot be encoded.  A sample is measured when
all the samples in front of it fit.
-/

namespace Blackbase.Context.RuntimeProjection

open Resources (Digest)

variable {sha256 : List UInt8 → Digest} {V : Type}

/-! ## Sizes -/

namespace Json

theorem pairsSize_eq (items : List (String × Json)) :
    pairsSize items =
      ((items.map Prod.fst).map fun k ↦ textSize (PointText.ofString k) + 1).sum +
        itemsSize (items.map Prod.snd) := by
  induction items with
  | nil => rfl
  | cons e rest ih =>
      simp only [pairsSize, List.map_cons, List.sum_cons, itemsSize, ih]
      omega

theorem pairsWhole_eq (items : List (String × Json)) :
    pairsWhole items = (items.map Prod.snd).all isWhole := by
  induction items with
  | nil => rfl
  | cons e rest ih => simp [pairsWhole, ih]

theorem itemsWhole_eq (items : List Json) : itemsWhole items = items.all isWhole := by
  induction items with
  | nil => rfl
  | cons j rest ih => simp [itemsWhole, ih]

@[simp] theorem size_text (t : PointText) : (Json.text t).size = textSize t := rfl

@[simp] theorem size_number (n : ℕ) : (Json.number n).size = numberSize n := rfl

@[simp] theorem size_array (items : List Json) :
    (Json.array items).size = 2 + itemsSize items + (items.length - 1) := rfl

theorem size_bool_le (b : Bool) : (Json.bool b).size ≤ 5 := by
  cases b <;> decide

end Json

theorem pointSize_of_isHexDigit {c : Char} (h : Resources.isHexDigit c) :
    pointSize (.scalar c) = 1 := by
  have hall : Resources.hexDigits.all (fun c ↦ pointSize (.scalar c) == 1) := by decide
  have hc : c ∈ Resources.hexDigits := by simpa [Resources.isHexDigit] using h
  simpa using List.all_eq_true.mp hall c hc

/-- A digest is a text of 66 bytes. -/
theorem size_digestJson (d : Digest) : (digestJson d).size = 66 := by
  have hsum : ∀ cs : List Char, (∀ c ∈ cs, Resources.isHexDigit c) →
      ((PointText.ofChars cs).map pointSize).sum = cs.length := by
    intro cs hcs
    induction cs with
    | nil => rfl
    | cons c rest ih =>
        have hrest := ih fun c' hc' ↦ hcs c' (List.mem_cons_of_mem _ hc')
        rw [PointText.ofChars] at hrest
        rw [PointText.ofChars, List.map_cons, List.map_cons, List.sum_cons, hrest,
          pointSize_of_isHexDigit (hcs c List.mem_cons_self), List.length_cons]
        omega
  rw [digestJson, Json.size, textSize, textOf, PointText.ofString, hsum _ d.hex, d.length_eq]

theorem numberSize_le {n k : ℕ} (hk : 0 < k) (h : n < 10 ^ k) : numberSize n ≤ k :=
  (Nat.length_toDigits_le_iff (by decide) hk).mpr h

theorem numberSize_count {n : ℕ} (h : n ≤ maxComponents) : numberSize n ≤ 10 :=
  numberSize_le (by decide) (lt_of_le_of_lt h (by decide))

namespace Projection

variable (p : Projection sha256 V)

theorem issueCount_le : p.issueCount ≤ maxComponents := by
  have hcomponent := p.counts_le p.counts.component List.mem_cons_self
  have hsum := p.sum_eq
  rw [issueCount, Counts.unhealthy]
  omega

theorem size_status (s : Status) : textSize (PointText.ofString s.name) ≤ 10 := by
  cases s <;> decide

/-- The names of the entries of an audit. -/
def auditKeys : List String :=
  ["schema", "status", "component_count", "successful_component_count",
    "degraded_component_count", "failed_component_count", "invalid_component_count",
    "unavailable_component_count", "issue_count", "issue_digest", "issue_samples",
    "issue_sample_count", "issue_sample_limit", "field_source_count", "field_source_digest",
    "audit_max_bytes", "audit_truncated", "audit_digest"]

theorem size_auditKeys :
    (auditKeys.map fun k ↦ textSize (PointText.ofString k) + 1).sum ≤ 500 := by
  decide +kernel

/-- The values of the entries of an audit. -/
def auditValues (a : Audit) : List Json :=
  [.text (PointText.ofString runtimeProjectionSchema), .text (PointText.ofString p.status.name),
    .number p.counts.component, .number p.counts.successful, .number p.counts.degraded,
    .number p.counts.failed, .number p.counts.invalid, .number p.counts.unavailable,
    .number p.issueCount, digestJson p.issueDigest, .array (a.samples.map Issue.asDict),
    .number a.samples.length, .number p.issueSampleLimit, .number p.fieldSources.length,
    digestJson p.fieldSourceDigest, .number auditMaxBytes, .bool a.truncated,
    digestJson p.auditDigest]

theorem size_auditJson (a : Audit) :
    (p.auditJson a).size =
      2 + ((auditKeys.map fun k ↦ textSize (PointText.ofString k) + 1).sum +
        Json.itemsSize (p.auditValues a)) + 17 := by
  rw [auditJson, Json.size, Json.pairsSize_eq]
  rfl

/-- An audit without samples fits, whatever its counts are. -/
theorem size_base (truncated : Bool) : (p.auditJson ⟨[], truncated⟩).size ≤ auditMaxBytes := by
  have hkeys := size_auditKeys
  have hschema : textSize (PointText.ofString runtimeProjectionSchema) ≤ 40 := by decide +kernel
  have hstatus := size_status p.status
  have hcomponent := numberSize_count (p.counts_le p.counts.component (by simp [Counts.all]))
  have hsuccessful := numberSize_count (p.counts_le p.counts.successful (by simp [Counts.all]))
  have hdegraded := numberSize_count (p.counts_le p.counts.degraded (by simp [Counts.all]))
  have hfailed := numberSize_count (p.counts_le p.counts.failed (by simp [Counts.all]))
  have hinvalid := numberSize_count (p.counts_le p.counts.invalid (by simp [Counts.all]))
  have hunavailable := numberSize_count (p.counts_le p.counts.unavailable (by simp [Counts.all]))
  have hissues := numberSize_count p.issueCount_le
  have hzero : numberSize 0 = 1 := by decide
  have hlimit : numberSize p.issueSampleLimit ≤ 2 :=
    numberSize_le (by decide) (lt_of_le_of_lt p.sampleLimit_le (by decide))
  have hsources : numberSize p.fieldSources.length ≤ 19 :=
    numberSize_le (by decide) (lt_of_le_of_lt p.length_sources (by decide))
  have hmax : numberSize auditMaxBytes = 4 := by decide
  have hbool := Json.size_bool_le truncated
  rw [size_auditJson]
  simp only [auditValues, Json.itemsSize, Json.size_text, Json.size_number, Json.size_array,
    size_digestJson, List.map_nil, List.length_nil, hzero, hmax]
  rw [auditMaxBytes]
  omega

end Projection

/-! ## Texts that can be encoded -/

/-- No surrogate stands alone in the texts of an issue. -/
structure Issue.IsWhole (i : Issue) : Prop where
  component : i.component.isWhole
  reason : i.reason.isWhole
  errorType : i.errorType.isWhole
  message : i.message.isWhole

theorem isWhole_digestJson (d : Digest) : (digestJson d).isWhole :=
  PointText.isWhole_ofChars _

theorem isWhole_ofString (s : String) : (PointText.ofString s).isWhole :=
  PointText.isWhole_ofChars _

/-- An issue can be encoded when its texts can. -/
theorem Issue.isWhole_asDict (i : Issue) : i.asDict.isWhole ↔ i.IsWhole := by
  have herror : ((if i.errorType = [] then [] else [("error_type", Json.text i.errorType)]).map
      Prod.snd).all Json.isWhole = i.errorType.isWhole := by
    split
    · next h =>
        rw [h]
        rfl
    · simp [Json.isWhole]
  have hmessage : ((if i.message = [] then []
      else [("message", Json.text i.message), ("message_hash", digestJson i.messageHash)]).map
      Prod.snd).all Json.isWhole = i.message.isWhole := by
    split
    · next h =>
        rw [h]
        rfl
    · simp [Json.isWhole, isWhole_digestJson]
  have hcause : (((i.causeDigest.map fun d ↦ [("cause_digest", digestJson d)]).getD []).map
      Prod.snd).all Json.isWhole = true := by
    cases i.causeDigest with
    | none => rfl
    | some d => simp [isWhole_digestJson]
  rw [asDict, Json.isWhole, Json.pairsWhole_eq, List.map_append, List.map_append, List.map_append,
    List.all_append, List.all_append, List.all_append, herror, hmessage, hcause]
  simp only [List.map_cons, List.map_nil, List.all_cons, List.all_nil, isWhole_digestJson,
    Json.isWhole, Bool.and_true, Bool.and_eq_true]
  exact ⟨fun h ↦ ⟨h.1.1.1, h.1.1.2, h.1.2, h.2⟩,
    fun h ↦ ⟨⟨⟨h.component, h.reason⟩, h.errorType⟩, h.message⟩⟩

namespace Projection

variable (p : Projection sha256 V)

theorem isWhole_auditJson (a : Audit) :
    (p.auditJson a).isWhole ↔ ∀ i ∈ a.samples, i.IsWhole := by
  have hsamples : (Json.array (a.samples.map Issue.asDict)).isWhole =
      (a.samples.map Issue.asDict).all Json.isWhole := Json.itemsWhole_eq _
  have hvalues : (p.auditJson a).isWhole = (p.auditValues a).all Json.isWhole := by
    rw [auditJson, Json.isWhole, Json.pairsWhole_eq]
    rfl
  have htext (s : String) : (Json.text (PointText.ofString s)).isWhole = true :=
    isWhole_ofString s
  have hnumber (n : ℕ) : (Json.number n).isWhole = true := rfl
  have hbool (b : Bool) : (Json.bool b).isWhole = true := rfl
  rw [hvalues]
  simp only [auditValues, List.all_cons, List.all_nil, htext, hnumber, hbool, isWhole_digestJson,
    hsamples, Bool.and_true, Bool.true_and, List.all_map, List.all_eq_true, Function.comp_apply]
  exact forall₂_congr fun i _ ↦ i.isWhole_asDict

/-- The audit can be measured, and is within the limit. -/
def FitsBudget (a : Audit) : Prop :=
  (∀ i ∈ a.samples, i.IsWhole) ∧ (p.auditJson a).size ≤ auditMaxBytes

/-- The audit of the first samples. -/
def withSamples (samples : List Issue) : Audit where
  samples := samples
  truncated := p.auditTruncated || decide (samples.length < p.issueCount)

variable {p} {a : Audit}

theorem sizeOf_of_isWhole (h : ∀ i ∈ a.samples, i.IsWhole) :
    p.sizeOf a = .ok (p.auditJson a).size := by
  rw [sizeOf, Json.auditSize, if_pos ((p.isWhole_auditJson a).mpr h)]

theorem sizeOf_of_not_isWhole (h : ¬ ∀ i ∈ a.samples, i.IsWhole) :
    p.sizeOf a = .error .encode := by
  rw [sizeOf, Json.auditSize, if_neg ((p.isWhole_auditJson a).not.mpr h)]

/-- Marking an audit as truncated makes it no longer. -/
theorem FitsBudget.mark (h : p.FitsBudget a) {b : Bool} (hb : a.truncated = true → b = true) :
    p.FitsBudget ⟨a.samples, b⟩ := by
  refine ⟨h.1, le_trans ?_ h.2⟩
  have hbool : (Json.bool b).size ≤ (Json.bool a.truncated).size := by
    cases hbefore : a.truncated with
    | true => rw [hb hbefore]
    | false => exact Json.size_bool_le b
  rw [size_auditJson, size_auditJson]
  simp only [auditValues, Json.itemsSize]
  omega

variable (p) in
theorem fitsBudget_base (truncated : Bool) : p.FitsBudget ⟨[], truncated⟩ :=
  ⟨fun _ h ↦ absurd h List.not_mem_nil, p.size_base truncated⟩

theorem candidate_eq (a : Audit) (i : Issue) :
    p.candidate a i = p.withSamples (a.samples ++ [i]) := by
  rw [candidate, withSamples, List.length_append]
  rfl

/-! ## Runs of the loops -/

variable (p) in
/-- The mark of an audit says no more than that something was left out. -/
def Marked (a : Audit) : Prop :=
  (a.truncated = true → p.auditTruncated = true ∨ a.samples.length < p.issueCount) ∧
    (p.auditTruncated = true → a.truncated = true)

theorem marked_withSamples (samples : List Issue) : p.Marked (p.withSamples samples) := by
  constructor
  · intro h
    simpa [withSamples] using h
  · intro h
    simp [withSamples, h]

variable (p) in
/-- No sample that stands behind samples that fit has a lone surrogate. -/
def Measurable : Prop :=
  ∀ before i after, p.issueSamples = before ++ i :: after →
    (∀ first, first <+: before → p.FitsBudget (p.withSamples first)) → i.IsWhole

/-- The samples are added as long as they fit. -/
theorem addSamples_ok (hp : p.Measurable) {rest : List Issue}
    (hsplit : p.issueSamples = a.samples ++ rest)
    (hfirst : ∀ first, first <+: a.samples → p.FitsBudget (p.withSamples first))
    (hfits : p.FitsBudget a) (hmarked : p.Marked a) :
    ∃ b, p.addSamples rest a = .ok b ∧ p.FitsBudget b ∧ p.Marked b ∧
      b.samples <+: p.issueSamples := by
  induction rest generalizing a with
  | nil => exact ⟨a, rfl, hfits, hmarked, [], hsplit.symm⟩
  | cons i rest ih =>
      have hi := hp a.samples i rest hsplit hfirst
      have hwhole : ∀ j ∈ (p.withSamples (a.samples ++ [i])).samples, j.IsWhole := by
        intro j hj
        rcases List.mem_append.mp hj with hj | hj
        · exact hfits.1 j hj
        · rw [List.mem_singleton.mp hj]
          exact hi
      rw [addSamples, candidate_eq, sizeOf_of_isWhole hwhole, Attempt.bind_ok]
      by_cases hover : auditMaxBytes < (p.auditJson (p.withSamples (a.samples ++ [i]))).size
      · -- The sample does not fit, and at least one sample is left out.
        rw [if_pos hover]
        refine ⟨{ a with truncated := true }, rfl, hfits.mark fun _ ↦ rfl, ?_, ?_⟩
        · refine ⟨fun _ ↦ .inr ?_, fun _ ↦ rfl⟩
          have hlen := p.samples_le_count
          rw [hsplit, List.length_append, List.length_cons] at hlen
          have hlt : a.samples.length < p.counts.unhealthy := by omega
          exact hlt
        · exact ⟨i :: rest, hsplit.symm⟩
      · have hnext : p.FitsBudget (p.withSamples (a.samples ++ [i])) := ⟨hwhole, not_lt.mp hover⟩
        have hsplit' : p.issueSamples =
            (p.withSamples (a.samples ++ [i])).samples ++ rest := by
          rw [hsplit, withSamples, List.append_assoc]
          rfl
        have hfirst' : ∀ first, first <+: (p.withSamples (a.samples ++ [i])).samples →
            p.FitsBudget (p.withSamples first) := by
          intro first hprefix
          rcases List.prefix_concat_iff.mp hprefix with rfl | hprefix
          · exact hnext
          · exact hfirst first hprefix
        obtain ⟨b, hb, hrest⟩ := ih hsplit' hfirst' hnext (marked_withSamples _)
        rw [if_neg hover]
        exact ⟨b, hb, hrest⟩

/-- A sample with a lone surrogate, behind samples that fit, is not survived. -/
theorem addSamples_error {before : List Issue} {i : Issue} {after : List Issue}
    (hfits : ∀ first, first <+: a.samples ++ before → p.FitsBudget (p.withSamples first))
    (hi : ¬ i.IsWhole) : p.addSamples (before ++ i :: after) a = .error .encode := by
  induction before generalizing a with
  | nil =>
      have hwhole : ¬ ∀ j ∈ (p.withSamples (a.samples ++ [i])).samples, j.IsWhole :=
        fun h ↦ hi (h i (List.mem_append_right _ (List.mem_singleton_self i)))
      rw [List.nil_append, addSamples, candidate_eq, sizeOf_of_not_isWhole hwhole]
      rfl
  | cons j before ih =>
      have hnext : p.FitsBudget (p.withSamples (a.samples ++ [j])) := by
        refine hfits _ ⟨before, ?_⟩
        rw [List.append_assoc]
        rfl
      rw [List.cons_append, addSamples, candidate_eq, sizeOf_of_isWhole hnext.1, Attempt.bind_ok,
        if_neg (not_lt.mpr hnext.2)]
      refine ih fun first hprefix ↦ hfits first ?_
      rw [withSamples, List.append_assoc] at hprefix
      exact hprefix

theorem dropSamples_of_fits (h : p.FitsBudget a) (k : ℕ) : p.dropSamples k a = .ok a := by
  cases k with
  | zero => rfl
  | succ k =>
      have hunder : ¬ (auditMaxBytes < (p.auditJson a).size ∧ a.samples ≠ []) :=
        fun hover ↦ absurd hover.1 (not_lt.mpr h.2)
      rw [dropSamples, sizeOf_of_isWhole h.1, Attempt.bind_ok, if_neg hunder]

/-! ## Audits -/

variable (p) in
/-- What an audit should be: within the limit, of the first samples of the projection, and marked
exactly when the projection is or some issue has no sample in it. -/
structure Sound (a : Audit) : Prop where
  size : ∃ n, (p.auditJson a).auditSize = some n ∧ n ≤ auditMaxBytes
  samples : a.samples <+: p.issueSamples
  truncated : a.truncated = true ↔
    p.auditTruncated = true ∨ a.samples.length < p.issueCount

theorem asAudit_of_measurable (hp : p.Measurable) : ∃ a, p.asAudit = .ok a ∧ p.Sound a := by
  have hfirst : ∀ first, first <+: ([] : List Issue) → p.FitsBudget (p.withSamples first) := by
    intro first hprefix
    rw [List.prefix_nil.mp hprefix]
    exact p.fitsBudget_base _
  obtain ⟨b, hb, hfits, hmarked, hprefix⟩ := addSamples_ok hp rfl hfirst
    (p.fitsBudget_base p.auditTruncated) ⟨.inl, id⟩
  -- The mark that is set after the loop.
  have hfits' : p.FitsBudget ⟨b.samples, b.truncated || decide (b.samples.length < p.issueCount)⟩ :=
    hfits.mark fun h ↦ by simp [h]
  refine ⟨⟨b.samples, b.truncated || decide (b.samples.length < p.issueCount)⟩, ?_, ?_⟩
  · rw [asAudit, hb, Attempt.bind_ok]
    dsimp only
    rw [dropSamples_of_fits hfits', Attempt.bind_ok, sizeOf_of_isWhole hfits'.1, Attempt.bind_ok,
      if_neg (not_lt.mpr hfits'.2)]
  · refine ⟨⟨_, if_pos ((p.isWhole_auditJson _).mpr hfits'.1), hfits'.2⟩, hprefix, ?_⟩
    rw [Bool.or_eq_true, decide_eq_true_eq]
    constructor
    · rintro (h | h)
      · exact hmarked.1 h
      · exact .inr h
    · rintro (h | h)
      · exact .inl (hmarked.2 h)
      · exact .inr h

variable (p) in
/-- A projection has a sound audit exactly when no sample that is measured has a lone
surrogate. -/
theorem asAudit_iff : (∃ a, p.asAudit = .ok a ∧ p.Sound a) ↔ p.Measurable := by
  constructor
  · rintro ⟨a, ha, -⟩ before i after hsplit hfits
    by_contra hi
    have herror : p.addSamples p.issueSamples ⟨[], p.auditTruncated⟩ = .error .encode := by
      rw [hsplit]
      exact addSamples_error hfits hi
    have hraised : p.asAudit = .error .encode := by
      rw [asAudit, herror]
      rfl
    rw [hraised] at ha
    cases ha
  · exact asAudit_of_measurable

end Projection

/-! ## A message with a lone surrogate -/

section Surrogate

theorem isHex_failed {hex : String} (h : hex.toList.all Resources.isHexDigit) :
    ∀ c ∈ hex.toList, Resources.isHexDigit c := List.all_eq_true.mp h

/-- The digests of the texts of one projection. -/
def failedDigests (bytes : List UInt8) : Digest :=
  if bytes = (issueParts (PointText.ofString "a") (PointText.ofString "error")
      (PointText.ofString "ValueError") [.surrogate 0] none).flatMap frame then
    ⟨"a0e165d257e585477aa243d99257b025523a308fe8617322ae2a469ceb4c3aa6", by decide +kernel,
      isHex_failed (by decide +kernel)⟩
  else if bytes = PointText.utf8 ['?'] then
    ⟨"8a8de823d5ed3e12746a62ef169bcf372be0ca44f0a1236abc35df05d96928e1", by decide +kernel,
      isHex_failed (by decide +kernel)⟩
  else if bytes = frame (PointText.ofString
      "a0e165d257e585477aa243d99257b025523a308fe8617322ae2a469ceb4c3aa6") then
    ⟨"ad85aab0bedea4ecc9bfafcec508cd954a7ed2fa9d959e66a39945b38aed86f4", by decide +kernel,
      isHex_failed (by decide +kernel)⟩
  else if bytes = frame (PointText.ofString "blackbase.runtime_projection.field_sources.v1") then
    ⟨"b21b5bb7fdbbd28051fc4462972a66dc718ad4b34a6c98f9caf9f4fe63f530e7", by decide +kernel,
      isHex_failed (by decide +kernel)⟩
  else
    ⟨"3a51aa9d1efac6e421130d7e151209ecfacd640f8084d75d7da97d33b640f7b8", by decide +kernel,
      isHex_failed (by decide +kernel)⟩

/-- What a projection over one component that has failed is made from. -/
def failedArgs : Args ℕ where
  fields := []
  fieldSources := []
  status := .error
  counts := ⟨1, 0, 0, 1, 0, 0⟩
  issueSamples := [.make failedDigests (PointText.ofString "a") (PointText.ofString "error")
    (PointText.ofString "ValueError") [.surrogate 0] none]
  issueSampleLimit := 16
  issueCount := none
  issueDigest := none
  auditTruncated := false
  nodup_fields := List.nodup_nil
  nodup_sources := List.nodup_nil
  length_sources := Nat.zero_le _

/-- The constructor accepts the projection, and its audit raises. -/
theorem not_sound_surrogate : ∃ p, Projection.make failedDigests failedArgs = .ok p ∧
    ¬ ∃ a, p.asAudit = .ok a ∧ p.Sound a := by
  have hrun : ((Projection.make failedDigests failedArgs).toOption.map fun p ↦
      p.asAudit.toOption.isNone) = some true := by
    decide +kernel
  obtain ⟨p, hp, hnone⟩ := Option.map_eq_some_iff.mp hrun
  refine ⟨p, Attempt.eq_ok_of_toOption hp, ?_⟩
  rintro ⟨a, ha, -⟩
  rw [ha] at hnone
  cases hnone

end Surrogate

end Blackbase.Context.RuntimeProjection
