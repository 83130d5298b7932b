import Blackbase.Core.Positions
import Blackbase.Project.Envelope.Reading

/-!
# Batch dispositions

`BatchDisposition` of `contracts/batch.py`: which items of a proposal survive a decision, its
projection onto a contiguous range, and its composition with a later decision over the items that
were accepted.  The constructor checks the indices at every step, and none of these checks fails.
-/

namespace Blackbase.Contracts

open Project.Envelope (PyValue Filled obj)
open Positions (pick keep within Ranges)

/-- `BatchDisposition`. -/
structure BatchDisposition where
  proposedCount : ℕ
  acceptedIndices : List ℕ
  reason : Filled
  reservationId : String
  metadata : OrderedDict PyValue
  increasing : acceptedIndices.Pairwise (· < ·)
  bounded : ∀ i ∈ acceptedIndices, i < proposedCount

/-- The text of a tuple of integers. -/
def tupleText : List ℤ → String
  | [i] => s!"({i},)"
  | items => "(" ++ ", ".intercalate (items.map toString) ++ ")"

/-- The order of a list in which `sorted(set(...))` leaves it. -/
def sortedSet (items : List ℤ) : List ℤ := items.dedup.insertionSort (· ≤ ·)

/-- A strictly increasing list is its own sorted set. -/
theorem sortedSet_eq_self_iff {items : List ℤ} :
    sortedSet items = items ↔ items.Pairwise (· < ·) := by
  constructor
  · intro h
    have hle : (sortedSet items).Pairwise (· ≤ ·) := List.pairwise_insertionSort _ _
    have hnodup : (sortedSet items).Nodup :=
      (List.perm_insertionSort _ _).nodup_iff.mpr (List.nodup_dedup _)
    rw [h] at hle hnodup
    exact (hle.and hnodup).imp fun h ↦ lt_of_le_of_ne h.1 h.2
  · intro h
    have hnodup : items.Nodup := h.imp fun h ↦ h.ne
    rw [sortedSet, hnodup.dedup]
    exact (h.imp le_of_lt).insertionSort_eq

namespace BatchDisposition

/-- `BatchDisposition.__post_init__`. -/
def make (proposed : ℤ) (accepted : List ℤ) (reason : String) (reservationId : String)
    (metadata : OrderedDict PyValue) : Except String BatchDisposition :=
  if hproposed : proposed < 0 then .error "proposed_count must be >= 0"
  else if hsorted : accepted ≠ sortedSet accepted then
    .error "accepted_indices must be unique and strictly increasing"
  else if hrange : accepted.any (fun i ↦ i < 0 || proposed ≤ i) then
    .error ("accepted_indices must reference the original proposal: " ++
      s!"proposed_count={proposed}, accepted_indices={tupleText accepted}")
  else .ok {
    proposedCount := proposed.toNat
    acceptedIndices := accepted.map Int.toNat
    reason := Filled.orDefault reason ⟨"unspecified", by decide⟩
    reservationId := reservationId
    metadata := metadata
    increasing := by
      have hpairwise := sortedSet_eq_self_iff.mp (not_not.mp hsorted).symm
      simp only [List.any_eq_true, Bool.or_eq_true, decide_eq_true_eq, not_exists,
        not_and] at hrange
      refine List.pairwise_map.mpr (hpairwise.imp_of_mem fun {i j} hi hj hij ↦ ?_)
      have hi' := hrange i hi
      omega
    bounded := by
      simp only [List.any_eq_true, Bool.or_eq_true, decide_eq_true_eq, not_exists,
        not_and] at hrange
      intro n hn
      obtain ⟨i, hi, rfl⟩ := List.mem_map.mp hn
      have hi' := hrange i hi
      omega }

variable (d : BatchDisposition)

/-- `accepted_count`. -/
def acceptedCount : ℕ := d.acceptedIndices.length

/-- `rejected_indices`. -/
def rejectedIndices : List ℕ := (List.range d.proposedCount).filter (· ∉ d.acceptedIndices)

/-- `for_range`. -/
def forRange (start stop : ℤ) : Except String BatchDisposition :=
  if start < 0 ∨ stop < start ∨ (d.proposedCount : ℤ) < stop then
    .error ("child range must be contained in the proposal: " ++
      s!"range=({start}, {stop}), proposed_count={d.proposedCount}")
  else
    make (stop - start)
      (d.acceptedIndices.filterMap fun (i : ℕ) ↦
        if start ≤ (i : ℤ) ∧ (i : ℤ) < stop then some ((i : ℤ) - start) else none)
      d.reason.text d.reservationId
      (d.metadata.insert "parent_range" (.tuple [.int start, .int stop]))

/-- An entry of the audit of `compose`. -/
def stage : PyValue := obj [
  ("reason", .text d.reason.text),
  ("proposed_count", .int d.proposedCount),
  ("accepted_count", .int d.acceptedCount)]

/-- `accepted_indices[i]`. -/
def acceptedIndex (i : ℕ) : Except String ℤ :=
  match d.acceptedIndices[i]? with
  | some index => .ok index
  | none => .error "tuple index out of range"

/-- `compose`. -/
def compose (subsequent : BatchDisposition) (reason : Option String)
    (metadata : OrderedDict PyValue) : Except String BatchDisposition :=
  if subsequent.proposedCount ≠ d.acceptedCount then
    .error ("composed disposition cardinality mismatch: " ++
      s!"first accepted={d.acceptedCount}, subsequent proposed={subsequent.proposedCount}")
  else do
    let accepted ← subsequent.acceptedIndices.mapM d.acceptedIndex
    let audit := OrderedDict.ofList
      (("stages", .tuple [d.stage, subsequent.stage]) :: metadata.entries)
    make d.proposedCount accepted
      (match reason with
        | some reason => if reason = "" then subsequent.reason.text else reason
        | none => subsequent.reason.text)
      (if subsequent.reservationId = "" then d.reservationId else subsequent.reservationId)
      audit

/-! ## The checks of the constructor -/

variable {d}

/-- The constructor accepts increasing indices below the count. -/
theorem make_eq_ok (reason reservationId : String) (metadata : OrderedDict PyValue) {n : ℕ}
    {is : List ℕ} {accepted : List ℤ} (haccepted : accepted = is.map Nat.cast)
    (hincreasing : is.Pairwise (· < ·)) (hbounded : ∀ i ∈ is, i < n) :
    ∃ d, make n accepted reason reservationId metadata = .ok d ∧ d.proposedCount = n ∧
      d.acceptedIndices = is := by
  subst haccepted
  have hsorted : ¬ is.map (Nat.cast : ℕ → ℤ) ≠ sortedSet (is.map Nat.cast) := by
    rw [not_not, eq_comm, sortedSet_eq_self_iff, List.pairwise_map]
    exact hincreasing.imp Int.ofNat_lt.mpr
  have hrange : ¬ ((is.map (Nat.cast : ℕ → ℤ)).any fun i ↦ i < 0 || (n : ℤ) ≤ i) = true := by
    simp only [List.any_map, List.any_eq_true, Function.comp_apply, Bool.or_eq_true,
      decide_eq_true_eq, not_exists, not_and]
    intro i hi
    have hlt := hbounded i hi
    omega
  rw [make, dif_neg (not_lt.mpr (Int.natCast_nonneg n)), dif_neg hsorted, dif_neg hrange]
  refine ⟨_, rfl, Int.toNat_natCast n, ?_⟩
  simp [Function.comp_def]

/-- Accepted and rejected indices partition the proposal. -/
theorem rejected_partition (d : BatchDisposition) :
    (d.acceptedIndices ++ d.rejectedIndices).Perm (List.range d.proposedCount) := by
  have haccepted : d.acceptedIndices.Nodup := d.increasing.imp fun h ↦ h.ne
  have hnodup : (d.acceptedIndices ++ d.rejectedIndices).Nodup := by
    refine List.Nodup.append haccepted (List.nodup_range.filter _) fun i hi hrejected ↦ ?_
    have hnot := (List.mem_filter.mp hrejected).2
    exact of_decide_eq_true hnot hi
  rw [List.perm_ext_iff_of_nodup hnodup List.nodup_range]
  intro i
  rw [List.mem_append, List.mem_range, rejectedIndices, List.mem_filter, List.mem_range,
    decide_eq_true_eq]
  constructor
  · rintro (hi | ⟨hlt, -⟩)
    · exact d.bounded i hi
    · exact hlt
  · intro hlt
    by_cases hi : i ∈ d.acceptedIndices
    · exact .inl hi
    · exact .inr ⟨hlt, hi⟩

theorem filterMap_within (is : List ℕ) (a b : ℕ) :
    (is.filterMap fun (i : ℕ) ↦
      if (a : ℤ) ≤ (i : ℤ) ∧ (i : ℤ) < b then some ((i : ℤ) - a) else none) =
        ((within is a b).map (· - a)).map Nat.cast := by
  induction is with
  | nil => rfl
  | cons i is ih =>
      rw [Positions.within_cons, List.filterMap_cons, ih]
      by_cases h : a ≤ i ∧ i < b
      · have h' : (a : ℤ) ≤ i ∧ (i : ℤ) < b := ⟨Int.ofNat_le.mpr h.1, Int.ofNat_lt.mpr h.2⟩
        rw [if_pos h, if_pos h', List.map_cons, List.map_cons, Nat.cast_sub h.1]
      · have h' : ¬ ((a : ℤ) ≤ i ∧ (i : ℤ) < b) := by
          rwa [Int.ofNat_le, Int.ofNat_lt]
        rw [if_neg h, if_neg h']

/-- The projection onto a range has the accepted indices in the range, counted from its start. -/
theorem forRange_eq_ok {a b : ℕ} (hab : a ≤ b) (hb : b ≤ d.proposedCount) :
    ∃ c, d.forRange a b = .ok c ∧ c.proposedCount = b - a ∧
      c.acceptedIndices.map (· + a) = within d.acceptedIndices a b := by
  have hmem : ∀ i ∈ within d.acceptedIndices a b, a ≤ i ∧ i < b :=
    fun i hi ↦ of_decide_eq_true (List.mem_filter.mp hi).2
  have hincreasing : ((within d.acceptedIndices a b).map (· - a)).Pairwise (· < ·) := by
    refine List.pairwise_map.mpr ((d.increasing.filter _).imp_of_mem fun {i j} hi hj hij ↦ ?_)
    have hi' := hmem i hi
    omega
  have hbounded : ∀ i ∈ (within d.acceptedIndices a b).map (· - a), i < b - a := by
    intro n hn
    obtain ⟨i, hi, rfl⟩ := List.mem_map.mp hn
    have hi' := hmem i hi
    omega
  have hguard : ¬ ((a : ℤ) < 0 ∨ (b : ℤ) < a ∨ (d.proposedCount : ℤ) < b) := by omega
  have hcount : (b : ℤ) - a = ((b - a : ℕ) : ℤ) := (Nat.cast_sub hab).symm
  obtain ⟨c, hc, hproposed, haccepted⟩ := make_eq_ok d.reason.text d.reservationId
    (d.metadata.insert "parent_range" (.tuple [.int a, .int b]))
    (filterMap_within d.acceptedIndices a b) hincreasing hbounded
  refine ⟨c, ?_, hproposed, ?_⟩
  · rw [forRange, if_neg hguard, hcount]
    exact hc
  · rw [haccepted, List.map_map]
    have hback : (within d.acceptedIndices a b).map ((· + a) ∘ (· - a)) =
        (within d.acceptedIndices a b).map id :=
      List.map_congr_left fun i hi ↦ Nat.sub_add_cancel (hmem i hi).1
    rw [hback, List.map_id]

theorem mapM_acceptedIndex {is : List ℕ} (h : ∀ i ∈ is, i < d.acceptedCount) :
    is.mapM d.acceptedIndex = .ok ((pick is d.acceptedIndices).map Nat.cast) := by
  induction is with
  | nil => rfl
  | cons i is ih =>
      have hi : i < d.acceptedIndices.length := h i List.mem_cons_self
      have hget : d.acceptedIndex i = .ok ((d.acceptedIndices.get ⟨i, hi⟩ : ℕ) : ℤ) := by
        rw [acceptedIndex, List.getElem?_eq_getElem hi]
        rfl
      rw [List.mapM_cons, hget, ih fun j hj ↦ h j (List.mem_cons_of_mem _ hj),
        Positions.pick_cons hi]
      rfl

theorem lt_length_acceptedIndices {e : BatchDisposition} (h : e.proposedCount = d.acceptedCount) :
    ∀ i ∈ e.acceptedIndices, i < d.acceptedIndices.length :=
  fun i hi ↦ (e.bounded i hi).trans_eq h

/-- The composition accepts the accepted indices at the positions that are accepted later. -/
theorem compose_eq_ok {e : BatchDisposition} (h : e.proposedCount = d.acceptedCount)
    (reason : Option String) (metadata : OrderedDict PyValue) :
    ∃ c, d.compose e reason metadata = .ok c ∧ c.proposedCount = d.proposedCount ∧
      c.acceptedIndices = pick e.acceptedIndices d.acceptedIndices := by
  have hmapM := mapM_acceptedIndex (lt_length_acceptedIndices h)
  have hincreasing : (pick e.acceptedIndices d.acceptedIndices).Pairwise (· < ·) :=
    d.increasing.sublist (Positions.pick_sublist e.increasing)
  have hbounded : ∀ i ∈ pick e.acceptedIndices d.acceptedIndices, i < d.proposedCount :=
    fun i hi ↦ d.bounded i (Positions.mem_of_mem_pick hi)
  simp only [compose, if_neg (not_not.mpr h), hmapM]
  exact make_eq_ok _ _ _ rfl hincreasing hbounded

/-! ## The algebra -/

/-- The rows of a list that a disposition accepts. -/
def rows {α : Type} (d : BatchDisposition) (xs : List α) : List α := pick d.acceptedIndices xs

/-- The rows of a list that are left when it is filtered by a disposition. -/
def filtered {α : Type} (d : BatchDisposition) (xs : List α) : List α :=
  keep d.acceptedIndices xs

/-- Some projections onto consecutive ranges, each shifted back by the start of its range, one
after the other. -/
def reconstituted (ranges : List (ℕ × ℕ)) (projections : List BatchDisposition) : List ℕ :=
  (ranges.zip projections).flatMap fun e ↦ e.2.acceptedIndices.map (· + e.1.1)

theorem exists_projections {a b : ℕ} {ranges : List (ℕ × ℕ)} (h : Ranges a b ranges)
    (hb : b ≤ d.proposedCount) :
    ∃ projections, ranges.mapM (fun r ↦ d.forRange r.1 r.2) = .ok projections ∧
      reconstituted ranges projections =
        ranges.flatMap fun r ↦ within d.acceptedIndices r.1 r.2 := by
  induction h with
  | nil a => exact ⟨[], rfl, rfl⟩
  | cons hab hrest ih =>
      obtain ⟨projections, hmapM, hrest'⟩ := ih hb
      obtain ⟨c, hc, -, haccepted⟩ := forRange_eq_ok (d := d) hab (hrest.le.trans hb)
      refine ⟨c :: projections, ?_, ?_⟩
      · rw [List.mapM_cons, hc, hmapM]
        rfl
      · rw [reconstituted] at hrest'
        rw [reconstituted, List.zip_cons_cons, List.flatMap_cons, hrest', List.flatMap_cons,
          haccepted]

theorem rows_compose {α : Type} {c e : BatchDisposition}
    (h : c.acceptedIndices = pick e.acceptedIndices d.acceptedIndices) {xs : List α}
    (hxs : xs.length = d.proposedCount) : c.rows xs = e.rows (d.rows xs) := by
  rw [rows, rows, rows, h, Positions.pick_pick fun i hi ↦ hxs ▸ d.bounded i hi]

theorem rows_eq_filtered {α : Type} (d : BatchDisposition) (xs : List α) :
    d.rows xs = d.filtered xs := Positions.pick_eq_keep d.increasing

/-- Accepted and rejected indices partition the proposal; the projections onto consecutive ranges
give back the accepted indices; and composition is associative and filters one decision after the
other. -/
theorem disposition_algebra :
    (∀ d : BatchDisposition,
      (d.acceptedIndices ++ d.rejectedIndices).Perm (List.range d.proposedCount)) ∧
    (∀ (d : BatchDisposition) (ranges : List (ℕ × ℕ)), Ranges 0 d.proposedCount ranges →
      ∃ projections, ranges.mapM (fun r ↦ d.forRange r.1 r.2) = .ok projections ∧
        reconstituted ranges projections = d.acceptedIndices) ∧
    ∀ (d₁ d₂ d₃ : BatchDisposition) (reason : Fin 4 → Option String)
      (metadata : Fin 4 → OrderedDict PyValue),
      d₂.proposedCount = d₁.acceptedCount → d₃.proposedCount = d₂.acceptedCount →
      ∃ d₁₂ d₂₃ l r, d₁.compose d₂ (reason 0) (metadata 0) = .ok d₁₂ ∧
        d₁₂.compose d₃ (reason 1) (metadata 1) = .ok l ∧
        d₂.compose d₃ (reason 2) (metadata 2) = .ok d₂₃ ∧
        d₁.compose d₂₃ (reason 3) (metadata 3) = .ok r ∧
        l.acceptedIndices = r.acceptedIndices ∧
        ∀ {α : Type} (xs : List α), xs.length = d₁.proposedCount →
          l.rows xs = d₃.filtered (d₂.filtered (d₁.filtered xs)) := by
  refine ⟨rejected_partition, fun d ranges h ↦ ?_, ?_⟩
  · obtain ⟨projections, hmapM, heq⟩ := exists_projections (d := d) h le_rfl
    refine ⟨projections, hmapM, ?_⟩
    rw [heq, Positions.flatMap_within d.increasing h]
    exact List.filter_eq_self.mpr fun i hi ↦ decide_eq_true ⟨Nat.zero_le i, d.bounded i hi⟩
  · intro d₁ d₂ d₃ reason metadata h₁₂ h₂₃
    obtain ⟨d₁₂, hd₁₂, hproposed₁₂, hacc₁₂⟩ := compose_eq_ok h₁₂ (reason 0) (metadata 0)
    have hcount₁₂ : d₁₂.acceptedCount = d₂.acceptedCount := by
      rw [acceptedCount, hacc₁₂, Positions.length_pick (lt_length_acceptedIndices h₁₂)]
      rfl
    obtain ⟨l, hl, -, haccl⟩ := compose_eq_ok (h₂₃.trans hcount₁₂.symm) (reason 1) (metadata 1)
    obtain ⟨d₂₃, hd₂₃, hproposed₂₃, hacc₂₃⟩ := compose_eq_ok h₂₃ (reason 2) (metadata 2)
    obtain ⟨r, hr, -, haccr⟩ := compose_eq_ok (hproposed₂₃.trans h₁₂) (reason 3) (metadata 3)
    refine ⟨d₁₂, d₂₃, l, r, hd₁₂, hl, hd₂₃, hr, ?_, fun xs hxs ↦ ?_⟩
    · rw [haccl, haccr, hacc₁₂, hacc₂₃, Positions.pick_pick (lt_length_acceptedIndices h₁₂)]
    · calc l.rows xs = d₃.rows (d₁₂.rows xs) := rows_compose haccl (hxs.trans hproposed₁₂.symm)
        _ = d₃.rows (d₂.rows (d₁.rows xs)) := by rw [rows_compose hacc₁₂ hxs]
        _ = d₃.filtered (d₂.filtered (d₁.filtered xs)) := by
          rw [rows_eq_filtered, rows_eq_filtered, rows_eq_filtered]

/-- Of three items the first two are accepted, and of these the second one. -/
def firstTwo : BatchDisposition where
  proposedCount := 3
  acceptedIndices := [0, 1]
  reason := ⟨"filtered", by decide⟩
  reservationId := ""
  metadata := ∅
  increasing := by decide
  bounded := by decide

/-- Of two items the second one is accepted. -/
def second : BatchDisposition where
  proposedCount := 2
  acceptedIndices := [1]
  reason := ⟨"filtered", by decide⟩
  reservationId := ""
  metadata := ∅
  increasing := by decide
  bounded := by decide

/-- Of one item none is accepted. -/
def nothing : BatchDisposition where
  proposedCount := 1
  acceptedIndices := []
  reason := ⟨"filtered", by decide⟩
  reservationId := ""
  metadata := ∅
  increasing := List.Pairwise.nil
  bounded := List.forall_mem_nil _

theorem disposition_algebra_three :
    (∃ projections, [(0, 2), (2, 2), (2, 3)].mapM (fun r : ℕ × ℕ ↦ firstTwo.forRange r.1 r.2) =
        .ok projections ∧
      reconstituted [(0, 2), (2, 2), (2, 3)] projections = firstTwo.acceptedIndices) ∧
    ∃ d₁₂ d₂₃ l r, firstTwo.compose second none ∅ = .ok d₁₂ ∧
      d₁₂.compose nothing none ∅ = .ok l ∧ second.compose nothing none ∅ = .ok d₂₃ ∧
      firstTwo.compose d₂₃ none ∅ = .ok r ∧ l.acceptedIndices = r.acceptedIndices ∧
      ∀ {α : Type} (xs : List α), xs.length = 3 →
        l.rows xs = nothing.filtered (second.filtered (firstTwo.filtered xs)) :=
  ⟨disposition_algebra.2.1 firstTwo _
      (.cons (by decide) (.cons le_rfl (.cons (by decide) (.nil 3)))),
    disposition_algebra.2.2 firstTwo second nothing (fun _ ↦ none) (fun _ ↦ ∅) rfl rfl⟩

end BatchDisposition

end Blackbase.Contracts
