import Blackbase.Core.Text
import Blackbase.Resources.Artifacts.Ledger
import Blackbase.Resources.Control.Model

/-!
# Ledger paths

The records of a ledger stand under paths made of its identifiers.  An identifier that is not a
plain segment is cleaned and marked with a digest of itself; a plain one stands for itself, also
where it reads like another one that was marked.
-/

namespace Blackbase.Resources.Artifacts

/-! ## Segments -/

/-- What `[A-Za-z0-9._-]` matches. -/
def isSegmentChar (c : Char) : Bool := c.isAlphanum || c ∈ ['.', '_', '-']

/-- What `strip("._")` removes. -/
def isMark (c : Char) : Bool := c ∈ ['.', '_']

/-- `re.sub(r"[^A-Za-z0-9._-]+", "_", raw)`, where `inRun` says that the character before was
replaced. -/
def replaceRuns : Bool → List Char → List Char
  | _, [] => []
  | inRun, c :: l =>
    if isSegmentChar c then c :: replaceRuns false l
    else if inRun then replaceRuns true l
    else '_' :: replaceRuns true l

/-- `.strip("._")`. -/
def stripMarks (l : List Char) : List Char := (l.dropWhile isMark).rdropWhile isMark

/-- `cleaned`. -/
def cleaned (raw : List Char) : List Char :=
  match stripMarks (replaceRuns false raw) with
  | [] => "item".toList
  | l => l

/-- The identifier is a segment as it stands. -/
def Plain (raw : List Char) : Prop := cleaned raw = raw ∧ (cleaned raw).length ≤ 96

instance (raw : List Char) : Decidable (Plain raw) :=
  inferInstanceAs (Decidable (cleaned raw = raw ∧ (cleaned raw).length ≤ 96))

section Digests

variable (sha256 : String → Digest)

/-- `hashlib.sha256(raw.encode("utf-8")).hexdigest()[:n]`. -/
def shortDigest (n : Nat) (raw : List Char) : List Char :=
  (sha256 (String.ofList raw)).text.toList.take n

/-- The segment of an identifier that is not plain. -/
def marked (raw : List Char) : List Char :=
  (cleaned raw).take 72 ++ ['-', '-'] ++ shortDigest sha256 10 raw

/-- `_safe_segment`. -/
def safeSegment (value : String) : String :=
  let raw := (Text.strip (if value = "" then "item" else value)).toList
  String.ofList (if Plain raw then cleaned raw else marked sha256 raw)

end Digests

/-! ## What is cleaned -/

theorem replaceRuns_eq_self {l : List Char} (h : ∀ c ∈ l, isSegmentChar c) (inRun : Bool) :
    replaceRuns inRun l = l := by
  induction l generalizing inRun with
  | nil => rfl
  | cons c l ih =>
    obtain ⟨hc, hl⟩ := List.forall_mem_cons.mp h
    rw [replaceRuns, if_pos hc, ih hl]

theorem isSegmentChar_of_mem_replaceRuns {l : List Char} {inRun : Bool} {c : Char}
    (h : c ∈ replaceRuns inRun l) : isSegmentChar c := by
  induction l generalizing inRun with
  | nil => cases h
  | cons d l ih =>
    rw [replaceRuns] at h
    by_cases hd : isSegmentChar d
    · rw [if_pos hd] at h
      obtain rfl | h := List.mem_cons.mp h
      · exact hd
      · exact ih h
    · rw [if_neg hd] at h
      cases inRun with
      | true => exact ih h
      | false =>
        obtain rfl | h := List.mem_cons.mp h
        · rfl
        · exact ih h

theorem stripMarks_subset (l : List Char) : stripMarks l ⊆ l :=
  fun _ h ↦ (List.dropWhile_suffix _).subset ((List.rdropWhile_prefix _ _).subset h)

theorem stripMarks_eq_self {l : List Char} (hfirst : ∀ c ∈ l.head?, ¬ isMark c)
    (hlast : ∀ c ∈ l.getLast?, ¬ isMark c) : stripMarks l = l := by
  have hd : l.dropWhile isMark = l := by
    cases l with
    | nil => rfl
    | cons c l => exact List.dropWhile_cons_of_neg (hfirst c rfl)
  rw [stripMarks, hd, List.rdropWhile_eq_self_iff]
  intro hne
  exact hlast _ (List.getLast?_eq_some_getLast hne)

theorem not_isMark_head?_stripMarks {l : List Char} {c : Char} (h : c ∈ (stripMarks l).head?) :
    ¬ isMark c := by
  have hprefix : stripMarks l <+: l.dropWhile isMark := List.rdropWhile_prefix _ _
  obtain ⟨rest, hrest⟩ := hprefix
  have hhead : c ∈ (l.dropWhile isMark).head? := by
    rw [← hrest, List.head?_append, Option.mem_def.mp h]
    rfl
  have hne : l.dropWhile isMark ≠ [] := by
    intro hnil
    rw [hnil] at hhead
    cases hhead
  obtain rfl : (l.dropWhile isMark).head hne = c :=
    Option.some.inj ((List.head?_eq_some_head hne).symm.trans hhead)
  exact Bool.eq_false_iff.mp (List.head_dropWhile_not isMark hne)

theorem isSegmentChar_of_mem_cleaned {raw : List Char} {c : Char} (h : c ∈ cleaned raw) :
    isSegmentChar c := by
  rw [cleaned] at h
  cases hs : stripMarks (replaceRuns false raw) with
  | nil =>
    rw [hs] at h
    have hitem : "item".toList.all isSegmentChar := by decide
    exact List.all_eq_true.mp hitem c h
  | cons d l =>
    rw [hs] at h
    have hmem : c ∈ stripMarks (replaceRuns false raw) := by
      rw [hs]
      exact h
    exact isSegmentChar_of_mem_replaceRuns (stripMarks_subset _ hmem)

theorem cleaned_ne_nil (raw : List Char) : cleaned raw ≠ [] := by
  rw [cleaned]
  cases hs : stripMarks (replaceRuns false raw) with
  | nil => exact (by decide : "item".toList ≠ [])
  | cons d l => exact List.cons_ne_nil d l

theorem not_isMark_head?_cleaned {raw : List Char} {c : Char} (h : c ∈ (cleaned raw).head?) :
    ¬ isMark c := by
  rw [cleaned] at h
  cases hs : stripMarks (replaceRuns false raw) with
  | nil =>
    rw [hs] at h
    obtain rfl : 'i' = c := Option.some.inj h
    decide
  | cons d l =>
    have hhead : c ∈ (stripMarks (replaceRuns false raw)).head? := by
      rw [hs] at h ⊢
      exact h
    exact not_isMark_head?_stripMarks hhead

theorem cleaned_eq_self {l : List Char} (hne : l ≠ []) (hchars : ∀ c ∈ l, isSegmentChar c)
    (hfirst : ∀ c ∈ l.head?, ¬ isMark c) (hlast : ∀ c ∈ l.getLast?, ¬ isMark c) :
    cleaned l = l := by
  rw [cleaned, replaceRuns_eq_self hchars, stripMarks_eq_self hfirst hlast]
  cases l with
  | nil => exact absurd rfl hne
  | cons c l => rfl

/-! ## What is marked -/

section Marked

variable {sha256 : String → Digest} {raw : List Char}

theorem length_shortDigest {n : Nat} (hn : n ≤ 64) : (shortDigest sha256 n raw).length = n := by
  rw [shortDigest, List.length_take, (sha256 _).length_eq]
  omega

theorem isHexDigit_of_mem_shortDigest {n : Nat} {c : Char} (h : c ∈ shortDigest sha256 n raw) :
    isHexDigit c :=
  (sha256 _).hex c (List.mem_of_mem_take h)

theorem segment_of_isHexDigit {c : Char} (h : isHexDigit c) : isSegmentChar c ∧ ¬ isMark c := by
  have hall : hexDigits.all (fun c ↦ isSegmentChar c && !isMark c) := by decide
  have hmem : c ∈ hexDigits := by simpa [isHexDigit] using h
  simpa using List.all_eq_true.mp hall c hmem

theorem isSegmentChar_of_mem_marked {c : Char} (h : c ∈ marked sha256 raw) : isSegmentChar c := by
  rw [marked, List.append_assoc, List.mem_append, List.mem_append] at h
  obtain h | h | h := h
  · exact isSegmentChar_of_mem_cleaned (List.mem_of_mem_take h)
  · have hdash : ['-', '-'].all isSegmentChar := by decide
    exact List.all_eq_true.mp hdash c h
  · exact (segment_of_isHexDigit (isHexDigit_of_mem_shortDigest h)).1

/-- What an identifier is marked as is itself a plain identifier. -/
theorem plain_marked : Plain (marked sha256 raw) := by
  have hself : cleaned (marked sha256 raw) = marked sha256 raw := by
    refine cleaned_eq_self ?_ (fun c ↦ isSegmentChar_of_mem_marked) ?_ ?_
    · simp [marked]
    · intro c hc
      have hhead : c ∈ (cleaned raw).head? := by
        cases hraw : cleaned raw with
        | nil => exact absurd hraw (cleaned_ne_nil raw)
        | cons d l =>
          rw [marked, hraw] at hc
          exact hc
      exact not_isMark_head?_cleaned hhead
    · intro c hc
      have hdigest : c ∈ (shortDigest sha256 10 raw).getLast? := by
        rw [marked, List.getLast?_append_of_ne_nil _ ?_] at hc
        · exact hc
        · refine List.ne_nil_of_length_pos ?_
          rw [length_shortDigest (by decide)]
          decide
      exact (segment_of_isHexDigit
        (isHexDigit_of_mem_shortDigest (List.mem_of_getLast? hdigest))).2
  refine ⟨hself, ?_⟩
  rw [hself, marked, List.length_append, List.length_append, List.length_take,
    length_shortDigest (by decide), List.length_cons, List.length_singleton]
  omega

/-- Identifiers whose digests differ are marked differently. -/
theorem shortDigest_eq_of_marked_eq {other : List Char}
    (h : marked sha256 raw = marked sha256 other) :
    shortDigest sha256 10 raw = shortDigest sha256 10 other := by
  have hlen : (shortDigest sha256 10 raw).length = (shortDigest sha256 10 other).length := by
    rw [length_shortDigest (by decide), length_shortDigest (by decide)]
  exact (List.append_inj' h hlen).2

end Marked

/-! ## Identifiers -/

/-- An identifier that a ledger accepts. -/
structure Identifier where
  text : String
  strip_eq : Text.strip text = text
  ne_empty : text ≠ ""

namespace Identifier

/-- `str(value or "").strip()`, refused when nothing is left. -/
def parse (value : String) : Option Identifier :=
  if h : Text.strip value = "" then none
  else some ⟨Text.strip value, Text.strip_strip value, h⟩

def chars (i : Identifier) : List Char := i.text.toList

theorem chars_injective {i j : Identifier} (h : i.chars = j.chars) : i = j := by
  cases i
  cases j
  obtain rfl := String.toList_inj.mp h
  rfl

instance : DecidableEq Identifier := fun i j ↦
  decidable_of_iff (i.chars = j.chars) ⟨chars_injective, congrArg chars⟩

end Identifier

section Shadows

variable (sha256 : String → Digest)

/-- The first identifier reads like the segment that the second one, not being plain, is given. -/
def ReadsAs (i j : Identifier) : Prop := ¬ Plain j.chars ∧ i.chars = marked sha256 j.chars

instance (i j : Identifier) : Decidable (ReadsAs sha256 i j) :=
  inferInstanceAs (Decidable (¬ Plain j.chars ∧ i.chars = marked sha256 j.chars))

/-- One of the two identifiers reads like the segment of the other. -/
def Shadows (i j : Identifier) : Prop := ReadsAs sha256 i j ∨ ReadsAs sha256 j i

instance (i j : Identifier) : Decidable (Shadows sha256 i j) :=
  inferInstanceAs (Decidable (ReadsAs sha256 i j ∨ ReadsAs sha256 j i))

variable {sha256} {i j : Identifier}

theorem ReadsAs.plain (h : ReadsAs sha256 i j) : Plain i.chars := by
  rw [h.2]
  exact plain_marked

theorem ReadsAs.ne (h : ReadsAs sha256 i j) : i ≠ j := by
  rintro rfl
  exact h.1 h.plain

theorem Shadows.ne (h : Shadows sha256 i j) : i ≠ j := by
  obtain h | h := h
  · exact h.ne
  · exact h.ne.symm

theorem safeSegment_of_plain (h : Plain i.chars) : safeSegment sha256 i.text = i.text := by
  rw [safeSegment, if_neg i.ne_empty, i.strip_eq]
  change String.ofList (if Plain i.chars then _ else _) = _
  rw [if_pos h]
  exact (congrArg String.ofList h.1).trans (String.ofList_toList (s := i.text))

theorem safeSegment_of_not_plain (h : ¬ Plain i.chars) :
    safeSegment sha256 i.text = String.ofList (marked sha256 i.chars) := by
  rw [safeSegment, if_neg i.ne_empty, i.strip_eq]
  change String.ofList (if Plain i.chars then _ else _) = _
  rw [if_neg h]
  rfl

theorem ReadsAs.safeSegment_eq (h : ReadsAs sha256 i j) :
    safeSegment sha256 i.text = safeSegment sha256 j.text := by
  rw [safeSegment_of_plain h.plain, safeSegment_of_not_plain h.1, ← h.2]
  exact (String.ofList_toList (s := i.text)).symm

/-- Two identifiers are given one segment just when they are equal or one reads like the segment of
the other, unless their digests agree. -/
theorem safeSegment_eq_iff
    (hdigest : shortDigest sha256 10 i.chars = shortDigest sha256 10 j.chars → i = j) :
    safeSegment sha256 i.text = safeSegment sha256 j.text ↔ i = j ∨ Shadows sha256 i j := by
  constructor
  · intro h
    by_cases hi : Plain i.chars
    · rw [safeSegment_of_plain hi] at h
      by_cases hj : Plain j.chars
      · rw [safeSegment_of_plain hj] at h
        exact .inl (Identifier.chars_injective (congrArg String.toList h))
      · rw [safeSegment_of_not_plain hj] at h
        refine .inr (.inl ⟨hj, ?_⟩)
        rw [Identifier.chars, h, String.toList_ofList]
    · rw [safeSegment_of_not_plain hi] at h
      by_cases hj : Plain j.chars
      · rw [safeSegment_of_plain hj] at h
        refine .inr (.inr ⟨hi, ?_⟩)
        rw [Identifier.chars, ← h, String.toList_ofList]
      · rw [safeSegment_of_not_plain hj, String.ofList_inj] at h
        exact .inl (hdigest (shortDigest_eq_of_marked_eq h))
  · rintro (rfl | h | h)
    · rfl
    · exact h.safeSegment_eq
    · exact h.safeSegment_eq.symm

/-- A segment is a name that a path can have: it is not empty, begins with no dot and has no
separator. -/
theorem safeSegment_wellFormed (i : Identifier) :
    safeSegment sha256 i.text ≠ "" ∧ (∀ c ∈ (safeSegment sha256 i.text).toList, isSegmentChar c) ∧
      ∀ c ∈ (safeSegment sha256 i.text).toList.head?, c ≠ '.' := by
  have hseg : ∃ raw, (safeSegment sha256 i.text).toList = cleaned raw := by
    by_cases h : Plain i.chars
    · refine ⟨i.chars, ?_⟩
      rw [safeSegment_of_plain h, h.1]
      rfl
    · refine ⟨marked sha256 i.chars, ?_⟩
      rw [safeSegment_of_not_plain h, String.toList_ofList, plain_marked.1]
  obtain ⟨raw, hraw⟩ := hseg
  refine ⟨?_, ?_, ?_⟩
  · intro hempty
    rw [hempty] at hraw
    exact cleaned_ne_nil raw hraw.symm
  · intro c hc
    exact isSegmentChar_of_mem_cleaned (hraw ▸ hc)
  · rintro c hc rfl
    exact not_isMark_head?_cleaned (hraw ▸ hc) (by decide)

end Shadows

/-! ## Paths -/

/-- What the records of an artifact in a transaction of a Case run are kept under. -/
structure LedgerKey where
  caseRunId : Identifier
  artifactName : Identifier
  transactionId : Identifier

section Paths

variable (sha256 : String → Digest) (root : Path)

/-- `_reservation_path`. -/
def reservationPath (k : LedgerKey) : Path :=
  let exact := String.ofList (shortDigest sha256 16 k.artifactName.chars)
  root ++ ["names", safeSegment sha256 k.caseRunId.text,
    safeSegment sha256 k.artifactName.text ++ "--" ++ exact ++ ".json"]

/-- `_commit_path`.  The commit record holds the receipts too. -/
def commitPath (k : LedgerKey) : Path :=
  root ++ ["commits", safeSegment sha256 k.transactionId.text ++ ".json"]

/-- `_tombstone_path`. -/
def tombstonePath (k : LedgerKey) : Path :=
  root ++ ["tombstones", safeSegment sha256 k.transactionId.text ++ ".json"]

/-- Records that belong to different artifacts, transactions or Case runs have different paths, and
so have records of different kinds. -/
structure Separated (k k' : LedgerKey) : Prop where
  reservations : k.artifactName ≠ k'.artifactName ∨ k.caseRunId ≠ k'.caseRunId →
    reservationPath sha256 root k ≠ reservationPath sha256 root k'
  commits : k.transactionId ≠ k'.transactionId ∨ k.caseRunId ≠ k'.caseRunId →
    commitPath sha256 root k ≠ commitPath sha256 root k'
  tombstones : k.transactionId ≠ k'.transactionId ∨ k.caseRunId ≠ k'.caseRunId →
    tombstonePath sha256 root k ≠ tombstonePath sha256 root k'
  reservation_commit : reservationPath sha256 root k ≠ commitPath sha256 root k'
  reservation_tombstone : reservationPath sha256 root k ≠ tombstonePath sha256 root k'
  commit_tombstone : commitPath sha256 root k ≠ tombstonePath sha256 root k'

/-- The digests that the paths show tell the identifiers apart. -/
structure DigestsInjective (k k' : LedgerKey) : Prop where
  artifactName : shortDigest sha256 16 k.artifactName.chars =
    shortDigest sha256 16 k'.artifactName.chars → k.artifactName = k'.artifactName
  caseRunId : shortDigest sha256 10 k.caseRunId.chars =
    shortDigest sha256 10 k'.caseRunId.chars → k.caseRunId = k'.caseRunId
  transactionId : shortDigest sha256 10 k.transactionId.chars =
    shortDigest sha256 10 k'.transactionId.chars → k.transactionId = k'.transactionId

variable {sha256 root} {k k' : LedgerKey}

theorem commitPath_eq_iff : commitPath sha256 root k = commitPath sha256 root k' ↔
    safeSegment sha256 k.transactionId.text = safeSegment sha256 k'.transactionId.text := by
  simp [commitPath]

theorem tombstonePath_eq_iff : tombstonePath sha256 root k = tombstonePath sha256 root k' ↔
    safeSegment sha256 k.transactionId.text = safeSegment sha256 k'.transactionId.text := by
  simp [tombstonePath]

/-- The name of a reservation ends with the digest of the artifact name. -/
theorem reservationPath_eq_iff (h : DigestsInjective sha256 k k') :
    reservationPath sha256 root k = reservationPath sha256 root k' ↔
      k.artifactName = k'.artifactName ∧
        safeSegment sha256 k.caseRunId.text = safeSegment sha256 k'.caseRunId.text := by
  have hname : ∀ i : Identifier, (safeSegment sha256 i.text ++ "--" ++
      String.ofList (shortDigest sha256 16 i.chars) ++ ".json").toList =
        ((safeSegment sha256 i.text).toList ++ "--".toList) ++
          (shortDigest sha256 16 i.chars ++ ".json".toList) := by
    intro i
    simp only [String.toList_append, String.toList_ofList, List.append_assoc]
  constructor
  · intro heq
    have hsegments := List.append_cancel_left heq
    have hcase := (List.cons.inj (List.cons.inj hsegments).2).1
    have hlast := (List.cons.inj (List.cons.inj (List.cons.inj hsegments).2).2).1
    have hchars := congrArg String.toList hlast
    rw [hname, hname] at hchars
    have hlength : (shortDigest sha256 16 k.artifactName.chars ++ ".json".toList).length =
        (shortDigest sha256 16 k'.artifactName.chars ++ ".json".toList).length := by
      rw [List.length_append, List.length_append, length_shortDigest (by decide),
        length_shortDigest (by decide)]
    have hdigest := List.append_cancel_right (List.append_inj' hchars hlength).2
    exact ⟨h.artifactName hdigest, hcase⟩
  · rintro ⟨hartifact, hcase⟩
    rw [reservationPath, reservationPath, hartifact, hcase]

variable (sha256 root k k') in
theorem kinds_ne :
    reservationPath sha256 root k ≠ commitPath sha256 root k' ∧
      reservationPath sha256 root k ≠ tombstonePath sha256 root k' ∧
      commitPath sha256 root k ≠ tombstonePath sha256 root k' := by
  simp [reservationPath, commitPath, tombstonePath]

/-- The records of two keys are kept apart just when no Case run and no transaction reads like the
segment of the other's, and different Case runs do not share a transaction. -/
theorem separated_iff (h : DigestsInjective sha256 k k') :
    Separated sha256 root k k' ↔
      (k.artifactName = k'.artifactName → ¬ Shadows sha256 k.caseRunId k'.caseRunId) ∧
        ¬ Shadows sha256 k.transactionId k'.transactionId ∧
        (k.caseRunId ≠ k'.caseRunId → k.transactionId ≠ k'.transactionId) := by
  have hcase := safeSegment_eq_iff h.caseRunId
  have htransaction := safeSegment_eq_iff h.transactionId
  constructor
  · intro hsep
    refine ⟨?_, ?_, ?_⟩
    · intro hname hshadows
      refine hsep.reservations (.inr hshadows.ne) ?_
      exact (reservationPath_eq_iff h).mpr ⟨hname, hcase.mpr (.inr hshadows)⟩
    · intro hshadows
      refine hsep.commits (.inl hshadows.ne) ?_
      exact commitPath_eq_iff.mpr (htransaction.mpr (.inr hshadows))
    · intro hne heq
      refine hsep.commits (.inr hne) ?_
      exact commitPath_eq_iff.mpr (htransaction.mpr (.inl heq))
  · rintro ⟨hcases, htransactions, hshared⟩
    have hdiffer : k.transactionId ≠ k'.transactionId ∨ k.caseRunId ≠ k'.caseRunId →
        safeSegment sha256 k.transactionId.text ≠ safeSegment sha256 k'.transactionId.text := by
      intro hne heq
      obtain heq | hshadows := htransaction.mp heq
      · obtain hne | hne := hne
        · exact hne heq
        · exact hshared hne heq
      · exact htransactions hshadows
    obtain ⟨hcommit, htombstone, hboth⟩ := kinds_ne sha256 root k k'
    refine ⟨?_, ?_, ?_, hcommit, htombstone, hboth⟩
    · intro hne heq
      obtain ⟨hname, hsegment⟩ := (reservationPath_eq_iff h).mp heq
      obtain heq | hshadows := hcase.mp hsegment
      · obtain hne | hne := hne
        · exact hne hname
        · exact hne heq
      · exact hcases hname hshadows
    · intro hne heq
      exact hdiffer hne (commitPath_eq_iff.mp heq)
    · intro hne heq
      exact hdiffer hne (tombstonePath_eq_iff.mp heq)

end Paths

/-! ## A shadowed transaction -/

/-- The digest that is written like this. -/
def digestOfHex (hex : String) (h : hex.toList.length = 64 ∧ hex.toList.all isHexDigit) : Digest :=
  ⟨hex, h.1, List.all_eq_true.mp h.2⟩

/-- The digests of a few texts. -/
def knownDigests (text : String) : Digest :=
  if text = "model" then
    digestOfHex "9372c470eeadd5ecd9c3c74c2b3cb633f8e2f2fad799250a0f70d652b6b825e4"
      (by decide +kernel)
  else if text = "metrics" then
    digestOfHex "177a7ea3611fe6b138557deaf44941614b66c0ece1766308044c8b65c8ba2123"
      (by decide +kernel)
  else if text = "tx 1" then
    digestOfHex "8c985b2d9224b0990ca78846b48567f739e5deb2fc2ab7f81f16fc379107e55d"
      (by decide +kernel)
  else if text = "tx-2" then
    digestOfHex "0ab25f3049004ce5969100672c92a2768481db2abf7e0267a3b0828a639d5f75"
      (by decide +kernel)
  else if text = "tx_1--8c985b2d92" then
    digestOfHex "6344b1beabdbbcc53912f1e56ccc67bae5d43d3a1a4f029288696a03f3219b9f"
      (by decide +kernel)
  else if text = "case-1" then
    digestOfHex "ba225b9895eafb5ed01ea5320527c9d986b70b8fc754ee8e7693cb81b760d156"
      (by decide +kernel)
  else ControlStore.zeroDigest

/-- The key of an artifact in a transaction of one Case run. -/
def LedgerKey.ofCase1 (artifactName transactionId : Identifier) : LedgerKey where
  caseRunId := ⟨"case-1", by decide, by decide⟩
  artifactName := artifactName
  transactionId := transactionId

/-- A transaction whose name is not plain. -/
def keyTx1 : LedgerKey :=
  .ofCase1 ⟨"model", by decide, by decide⟩ ⟨"tx 1", by decide, by decide⟩

/-- A transaction that reads like the segment of that one. -/
def keyShadow : LedgerKey :=
  .ofCase1 ⟨"metrics", by decide, by decide⟩ ⟨"tx_1--8c985b2d92", by decide, by decide⟩

/-- A transaction of another name. -/
def keyTx2 : LedgerKey :=
  .ofCase1 ⟨"metrics", by decide, by decide⟩ ⟨"tx-2", by decide, by decide⟩

theorem separated_two : DigestsInjective knownDigests keyTx1 keyTx2 ∧
    Separated knownDigests ["ledger"] keyTx1 keyTx2 := by
  have hdigests : DigestsInjective knownDigests keyTx1 keyTx2 :=
    ⟨by decide +kernel, by decide +kernel, by decide +kernel⟩
  refine ⟨hdigests, (separated_iff hdigests).mpr ⟨?_, ?_, ?_⟩⟩
  · exact fun h ↦ absurd h (by decide)
  · decide +kernel
  · exact fun h ↦ absurd rfl h

/-- The two transactions write one commit record. -/
theorem not_separated_shadow : DigestsInjective knownDigests keyTx1 keyShadow ∧
    ¬ Separated knownDigests ["ledger"] keyTx1 keyShadow := by
  refine ⟨⟨by decide +kernel, by decide +kernel, by decide +kernel⟩, ?_⟩
  intro h
  exact h.commits (by decide) (by decide +kernel)

end Blackbase.Resources.Artifacts
