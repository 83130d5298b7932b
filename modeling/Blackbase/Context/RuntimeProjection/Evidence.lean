import Mathlib.Data.Set.Function
import Blackbase.Context.RuntimeProjection.Model

/-!
# The evidence of a projection

What an audit digest stands for: the counts of a projection with its issues, and behind the issue
of a projection that is not well the evidence of that projection.  The digest of some evidence is
computed from the bottom up.  Two pieces of evidence have the same digest only if they are the
same, as long as SHA-256 has no collision among the inputs that are hashed for the two.
-/

namespace Blackbase.Context.RuntimeProjection

open Resources (Digest)

/-- The texts of an issue as they are given. -/
structure IssueTexts where
  component : PointText
  reason : PointText
  errorType : PointText
  message : PointText
deriving DecidableEq

/-- The counts of a projection and its issues, with the evidence that an issue is caused by. -/
inductive Evidence where
  | node (counts : Counts) (issues : List (IssueTexts × Option Evidence))

/-- The parts that an audit digest is made of. -/
def auditParts (counts : Counts) (issueDigest : Digest) : List PointText :=
  [PointText.ofString runtimeProjectionSchema, PointText.ofString counts.expectedStatus.name] ++
    counts.all.map numberText ++ [numberText counts.unhealthy, textOf issueDigest]

def IssueTexts.parts (t : IssueTexts) (cause : Option Digest) : List PointText :=
  issueParts t.component t.reason t.errorType t.message cause

section Digests

variable (sha256 : List UInt8 → Digest)

mutual

def Evidence.digest : Evidence → Digest
  | .node counts issues =>
      digestOf sha256 (auditParts counts (digestOf sha256 ((issueDigests issues).map textOf)))

def issueDigests : List (IssueTexts × Option Evidence) → List Digest
  | [] => []
  | (t, none) :: rest => digestOf sha256 (t.parts none) :: issueDigests rest
  | (t, some e) :: rest => digestOf sha256 (t.parts (some e.digest)) :: issueDigests rest

end

mutual

/-- The inputs that are hashed for a digest. -/
def Evidence.hashed : Evidence → List (List UInt8)
  | .node counts issues =>
      (auditParts counts (digestOf sha256 ((issueDigests sha256 issues).map textOf))).flatMap frame ::
        ((issueDigests sha256 issues).map textOf).flatMap frame :: hashedIssues issues

def hashedIssues : List (IssueTexts × Option Evidence) → List (List UInt8)
  | [] => []
  | (t, none) :: rest => (t.parts none).flatMap frame :: hashedIssues rest
  | (t, some e) :: rest =>
      (t.parts (some (e.digest sha256))).flatMap frame :: (e.hashed ++ hashedIssues rest)

end

end Digests

/-- A text without a lone surrogate, whose length eight bytes hold. -/
def Hashable (t : PointText) : Prop := t.isWhole ∧ t.bytes.length < 2 ^ 64

structure IssueTexts.Hashable (t : IssueTexts) : Prop where
  component : RuntimeProjection.Hashable t.component
  reason : RuntimeProjection.Hashable t.reason
  errorType : RuntimeProjection.Hashable t.errorType
  message : RuntimeProjection.Hashable t.message

mutual

/-- The counts are within their limit, and the texts can be hashed. -/
def Evidence.Sized : Evidence → Prop
  | .node counts issues => (∀ n ∈ counts.all, n ≤ maxComponents) ∧
      counts.unhealthy ≤ maxComponents ∧ IssuesSized issues

def IssuesSized : List (IssueTexts × Option Evidence) → Prop
  | [] => True
  | (t, none) :: rest => t.Hashable ∧ IssuesSized rest
  | (t, some e) :: rest => t.Hashable ∧ e.Sized ∧ IssuesSized rest

end

/-! ## Frames -/

theorem length_toBytes8 (n : ℕ) : (toBytes8 n).length = 8 := by
  rw [toBytes8, List.length_map, List.length_range]

theorem toBytes8_injective {n m : ℕ} (hn : n < 2 ^ 64) (hm : m < 2 ^ 64)
    (h : toBytes8 n = toBytes8 m) : n = m := by
  have hbyte : ∀ i < 8, n / 256 ^ (7 - i) % 256 = m / 256 ^ (7 - i) % 256 := by
    intro i hi
    have hi' := congrArg (fun l : List UInt8 ↦ l[i]?) h
    simp only [toBytes8, List.getElem?_map, List.getElem?_range hi, Option.map_some,
      Option.some.injEq] at hi'
    have hnat := congrArg UInt8.toNat hi'
    rwa [UInt8.toNat_ofNat', UInt8.toNat_ofNat'] at hnat
  have h0 := hbyte 0 (by decide)
  have h1 := hbyte 1 (by decide)
  have h2 := hbyte 2 (by decide)
  have h3 := hbyte 3 (by decide)
  have h4 := hbyte 4 (by decide)
  have h5 := hbyte 5 (by decide)
  have h6 := hbyte 6 (by decide)
  have h7 := hbyte 7 (by decide)
  norm_num at h0 h1 h2 h3 h4 h5 h6 h7 hn hm
  omega

/-- A sequence of parts is read back from its frames. -/
theorem frames_injective {parts parts' : List PointText}
    (hparts : ∀ t ∈ parts, Hashable t) (hparts' : ∀ t ∈ parts', Hashable t)
    (h : parts.flatMap frame = parts'.flatMap frame) : parts = parts' := by
  induction parts generalizing parts' with
  | nil =>
      cases parts' with
      | nil => rfl
      | cons t' rest' =>
          have hlen := congrArg List.length h
          rw [List.flatMap_nil, List.flatMap_cons, List.length_append, frame, List.length_append,
            length_toBytes8, List.length_nil] at hlen
          omega
  | cons t rest ih =>
      cases parts' with
      | nil =>
          have hlen := congrArg List.length h
          rw [List.flatMap_nil, List.flatMap_cons, List.length_append, frame, List.length_append,
            length_toBytes8, List.length_nil] at hlen
          omega
      | cons t' rest' =>
          obtain ⟨ht, hrest⟩ := List.forall_mem_cons.mp hparts
          obtain ⟨ht', hrest'⟩ := List.forall_mem_cons.mp hparts'
          rw [List.flatMap_cons, List.flatMap_cons, frame, frame, List.append_assoc,
            List.append_assoc] at h
          obtain ⟨hlen, hbody⟩ := List.append_inj h (by rw [length_toBytes8, length_toBytes8])
          have hlength := toBytes8_injective ht.2 ht'.2 hlen
          obtain ⟨hbytes, htail⟩ := List.append_inj hbody hlength
          rw [PointText.bytes_injective ht.1 ht'.1 hbytes, ih hrest hrest' htail]

/-! ## Parts that can be hashed -/

theorem length_utf8_le (cs : List Char) : (PointText.utf8 cs).length ≤ 4 * cs.length := by
  induction cs with
  | nil => exact Nat.zero_le _
  | cons c rest ih =>
      have hc := c.utf8Size_le_four
      rw [PointText.utf8] at ih
      rw [PointText.utf8, List.flatMap_cons, List.length_append, String.length_utf8EncodeChar,
        List.length_cons]
      omega

theorem hashable_ofChars {cs : List Char} (h : cs.length ≤ 2 ^ 32) :
    Hashable (PointText.ofChars cs) := by
  refine ⟨PointText.isWhole_ofChars cs, ?_⟩
  have hlen := length_utf8_le cs
  rw [length_bytes_ofChars]
  omega

theorem hashable_textOf (d : Digest) : Hashable (textOf d) :=
  hashable_ofChars (by rw [d.length_eq]; decide)

theorem hashable_numberText {n : ℕ} (h : n ≤ maxComponents) : Hashable (numberText n) := by
  refine hashable_ofChars (le_trans ?_ (by decide : 10 ≤ 2 ^ 32))
  exact (Nat.length_toDigits_le_iff (by decide) (by decide)).mpr (lt_of_le_of_lt h (by decide))

theorem hashable_schema : Hashable (PointText.ofString runtimeProjectionSchema) :=
  hashable_ofChars (by decide +kernel)

theorem hashable_status (s : Status) : Hashable (PointText.ofString s.name) := by
  cases s <;> exact hashable_ofChars (by decide +kernel)

theorem hashable_auditParts {counts : Counts} (h : ∀ n ∈ counts.all, n ≤ maxComponents)
    (hissues : counts.unhealthy ≤ maxComponents) (d : Digest) :
    ∀ t ∈ auditParts counts d, Hashable t := by
  intro t ht
  rw [auditParts, List.mem_append, List.mem_append] at ht
  rcases ht with (ht | ht) | ht
  · rcases List.mem_pair.mp ht with rfl | rfl
    · exact hashable_schema
    · exact hashable_status _
  · obtain ⟨n, hn, rfl⟩ := List.mem_map.mp ht
    exact hashable_numberText (h n hn)
  · rcases List.mem_pair.mp ht with rfl | rfl
    · exact hashable_numberText hissues
    · exact hashable_textOf d

theorem hashable_parts {t : IssueTexts} (h : t.Hashable) (cause : Option Digest) :
    ∀ part ∈ t.parts cause, Hashable part := by
  intro part hpart
  rw [IssueTexts.parts, issueParts, List.mem_append] at hpart
  rcases hpart with hpart | hpart
  · simp only [List.mem_cons, List.not_mem_nil, or_false] at hpart
    rcases hpart with rfl | rfl | rfl | rfl | rfl
    · exact hashable_schema
    · exact h.component
    · exact h.reason
    · exact h.errorType
    · exact h.message
  · cases cause with
    | none => exact absurd hpart List.not_mem_nil
    | some d =>
        rcases List.mem_pair.mp hpart with rfl | rfl
        · exact hashable_ofChars (by decide +kernel)
        · exact hashable_textOf d

theorem ofChars_injective {cs cs' : List Char}
    (h : PointText.ofChars cs = PointText.ofChars cs') : cs = cs' := by
  have hreplaced := congrArg PointText.replaced h
  rwa [PointText.replaced_ofChars, PointText.replaced_ofChars] at hreplaced

theorem textOf_injective {d d' : Digest} (h : textOf d = textOf d') : d = d' := by
  have htext := String.toList_inj.mp (ofChars_injective h)
  cases d
  cases d'
  obtain rfl : _ = _ := htext
  rfl

theorem numberText_injective {n m : ℕ} (h : numberText n = numberText m) : n = m := by
  have hdigits := congrArg (Nat.ofDigitChars 10 · 0) (ofChars_injective h)
  simpa only [Nat.ofDigitChars_ten_toDigits] using hdigits

/-- The parts of an audit digest say what the counts are. -/
theorem auditParts_injective {counts counts' : Counts} {d d' : Digest}
    (h : auditParts counts d = auditParts counts' d') : counts = counts' ∧ d = d' := by
  simp only [auditParts, Counts.all, List.map_cons, List.map_nil, List.cons_append,
    List.nil_append, List.cons.injEq] at h
  obtain ⟨-, -, hcomponent, hsuccessful, hdegraded, hfailed, hinvalid, hunavailable, -, hd, -⟩ := h
  refine ⟨?_, textOf_injective hd⟩
  cases counts
  cases counts'
  rw [Counts.mk.injEq]
  exact ⟨numberText_injective hcomponent, numberText_injective hsuccessful,
    numberText_injective hdegraded, numberText_injective hfailed, numberText_injective hinvalid,
    numberText_injective hunavailable⟩

/-- The parts of an issue digest say what the issue is, and its cause. -/
theorem parts_injective {t t' : IssueTexts} {cause cause' : Option Digest}
    (h : t.parts cause = t'.parts cause') : t = t' ∧ cause = cause' := by
  simp only [IssueTexts.parts, issueParts, List.cons_append, List.nil_append,
    List.cons.injEq] at h
  obtain ⟨-, hcomponent, hreason, herror, hmessage, hcause⟩ := h
  refine ⟨?_, ?_⟩
  · cases t
    cases t'
    rw [IssueTexts.mk.injEq]
    exact ⟨hcomponent, hreason, herror, hmessage⟩
  · cases cause with
    | none =>
        cases cause' with
        | none => rfl
        | some d' => exact absurd hcause.symm (List.cons_ne_nil _ _)
    | some d =>
        cases cause' with
        | none => exact absurd hcause (List.cons_ne_nil _ _)
        | some d' =>
            simp only [Option.map_some, Option.getD_some, List.cons.injEq, and_true,
              true_and] at hcause
            rw [textOf_injective hcause]

/-! ## Digests that are the same -/

section Injective

variable {sha256 : List UInt8 → Digest} {S : Set (List UInt8)}

theorem parts_eq_of_digest (hS : Set.InjOn sha256 S) {parts parts' : List PointText}
    (hparts : ∀ t ∈ parts, Hashable t) (hparts' : ∀ t ∈ parts', Hashable t)
    (hmem : parts.flatMap frame ∈ S) (hmem' : parts'.flatMap frame ∈ S)
    (h : digestOf sha256 parts = digestOf sha256 parts') : parts = parts' :=
  frames_injective hparts hparts' (hS hmem hmem' h)

theorem issueDigests_cons (t : IssueTexts) (cause : Option Evidence)
    (rest : List (IssueTexts × Option Evidence)) :
    issueDigests sha256 ((t, cause) :: rest) =
      digestOf sha256 (t.parts (cause.map (Evidence.digest sha256))) ::
        issueDigests sha256 rest := by
  cases cause <;> rfl

theorem sized_of_cons {t : IssueTexts} {cause : Option Evidence}
    {rest : List (IssueTexts × Option Evidence)} (h : IssuesSized ((t, cause) :: rest)) :
    t.Hashable ∧ IssuesSized rest := by
  cases cause with
  | none => exact h
  | some e => exact ⟨h.1, h.2.2⟩

theorem hashed_of_cons {t : IssueTexts} {cause : Option Evidence}
    {rest : List (IssueTexts × Option Evidence)}
    (h : ∀ x ∈ hashedIssues sha256 ((t, cause) :: rest), x ∈ S) :
    (t.parts (cause.map (Evidence.digest sha256))).flatMap frame ∈ S ∧
      ∀ x ∈ hashedIssues sha256 rest, x ∈ S := by
  cases cause with
  | none => exact List.forall_mem_cons.mp h
  | some e =>
      obtain ⟨hhead, hrest⟩ := List.forall_mem_cons.mp h
      exact ⟨hhead, fun x hx ↦ hrest x (List.mem_append_right _ hx)⟩

/-- The first issues of two lists with the same digests have the same texts, and their causes the
same digests. -/
theorem head_eq_of_digests_eq (hS : Set.InjOn sha256 S) {t t' : IssueTexts}
    {cause cause' : Option Evidence} {rest rest' : List (IssueTexts × Option Evidence)}
    (hsized : IssuesSized ((t, cause) :: rest)) (hsized' : IssuesSized ((t', cause') :: rest'))
    (hmem : ∀ x ∈ hashedIssues sha256 ((t, cause) :: rest), x ∈ S)
    (hmem' : ∀ x ∈ hashedIssues sha256 ((t', cause') :: rest'), x ∈ S)
    (h : issueDigests sha256 ((t, cause) :: rest) =
      issueDigests sha256 ((t', cause') :: rest')) :
    (t = t' ∧ cause.map (Evidence.digest sha256) = cause'.map (Evidence.digest sha256)) ∧
      issueDigests sha256 rest = issueDigests sha256 rest' := by
  rw [issueDigests_cons, issueDigests_cons, List.cons.injEq] at h
  refine ⟨parts_injective ?_, h.2⟩
  exact parts_eq_of_digest hS (hashable_parts (sized_of_cons hsized).1 _)
    (hashable_parts (sized_of_cons hsized').1 _) (hashed_of_cons hmem).1 (hashed_of_cons hmem').1
    h.1

mutual

/-- Evidence with the same digest is the same, without a collision among the inputs. -/
theorem Evidence.eq_of_digest_eq (hS : Set.InjOn sha256 S) : ∀ e e' : Evidence, e.Sized → e'.Sized →
    (∀ x ∈ e.hashed sha256, x ∈ S) → (∀ x ∈ e'.hashed sha256, x ∈ S) →
    e.digest sha256 = e'.digest sha256 → e = e'
  | .node counts issues, .node counts' issues', hsized, hsized', hmem, hmem', h => by
      simp only [Evidence.hashed, List.forall_mem_cons] at hmem hmem'
      have hparts := parts_eq_of_digest hS (hashable_auditParts hsized.1 hsized.2.1 _)
        (hashable_auditParts hsized'.1 hsized'.2.1 _) hmem.1 hmem'.1 h
      obtain ⟨rfl, hissues⟩ := auditParts_injective hparts
      have htexts (ds : List Digest) : ∀ t ∈ ds.map textOf, Hashable t := by
        intro t ht
        obtain ⟨d, -, rfl⟩ := List.mem_map.mp ht
        exact hashable_textOf d
      have hdigests := parts_eq_of_digest hS (htexts _) (htexts _) hmem.2.1 hmem'.2.1 hissues
      have hdigests' := List.map_injective_iff.mpr (fun _ _ ↦ textOf_injective) hdigests
      rw [issues_eq_of_digests_eq hS issues issues' hsized.2.2 hsized'.2.2 hmem.2.2 hmem'.2.2
        hdigests']

theorem issues_eq_of_digests_eq (hS : Set.InjOn sha256 S) :
    ∀ issues issues' : List (IssueTexts × Option Evidence), IssuesSized issues →
    IssuesSized issues' → (∀ x ∈ hashedIssues sha256 issues, x ∈ S) →
    (∀ x ∈ hashedIssues sha256 issues', x ∈ S) →
    issueDigests sha256 issues = issueDigests sha256 issues' → issues = issues'
  | [], [], _, _, _, _, _ => rfl
  | [], (t', cause') :: rest', _, _, _, _, h => by
      rw [issueDigests_cons] at h
      exact absurd h.symm (List.cons_ne_nil _ _)
  | (t, cause) :: rest, [], _, _, _, _, h => by
      rw [issueDigests_cons] at h
      exact absurd h (List.cons_ne_nil _ _)
  | (t, none) :: rest, (t', none) :: rest', hsized, hsized', hmem, hmem', h => by
      obtain ⟨⟨rfl, -⟩, htail⟩ := head_eq_of_digests_eq hS hsized hsized' hmem hmem' h
      rw [issues_eq_of_digests_eq hS rest rest' (sized_of_cons hsized).2 (sized_of_cons hsized').2
        (hashed_of_cons hmem).2 (hashed_of_cons hmem').2 htail]
  | (t, none) :: rest, (t', some e') :: rest', hsized, hsized', hmem, hmem', h => by
      obtain ⟨⟨-, hcause⟩, -⟩ := head_eq_of_digests_eq hS hsized hsized' hmem hmem' h
      cases hcause
  | (t, some e) :: rest, (t', none) :: rest', hsized, hsized', hmem, hmem', h => by
      obtain ⟨⟨-, hcause⟩, -⟩ := head_eq_of_digests_eq hS hsized hsized' hmem hmem' h
      cases hcause
  | (t, some e) :: rest, (t', some e') :: rest', hsized, hsized', hmem, hmem', h => by
      obtain ⟨⟨rfl, hcause⟩, htail⟩ := head_eq_of_digests_eq hS hsized hsized' hmem hmem' h
      have hin : ∀ x ∈ e.hashed sha256, x ∈ S := fun x hx ↦
        hmem x (List.mem_cons_of_mem _ (List.mem_append_left _ hx))
      have hin' : ∀ x ∈ e'.hashed sha256, x ∈ S := fun x hx ↦
        hmem' x (List.mem_cons_of_mem _ (List.mem_append_left _ hx))
      rw [Evidence.eq_of_digest_eq hS e e' hsized.2.1 hsized'.2.1 hin hin'
          (Option.some.inj hcause),
        issues_eq_of_digests_eq hS rest rest' (sized_of_cons hsized).2 (sized_of_cons hsized').2
          (hashed_of_cons hmem).2 (hashed_of_cons hmem').2 htail]

end

end Injective

end Blackbase.Context.RuntimeProjection
