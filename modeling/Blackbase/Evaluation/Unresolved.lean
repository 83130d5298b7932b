import Blackbase.Core.Attempt
import Blackbase.Evaluation.JournalMonotone

/-!
# The unresolved records of a journal

`list_records` of the three backends and `list_unresolved` of `evaluation/journal.py`.  The
unresolved records are the active ones, and the decided ones of an earlier version that carry
no verification.  `list_unresolved` lists the decided records with what is left of its limit,
and leaves out the verified ones afterwards, so a verified record takes the place of one that
is not.

A backend in memory goes through the keys of its dict, and the one on Redis through what SCAN
yields, which may be a key that is gone, or a key twice.
-/

namespace Blackbase.Evaluation

universe u

open Resources (Time)
open EvaluationEvidenceRecord

/-- `EVALUATION_EVIDENCE_ACTIVE_STATUSES`. -/
def EvidenceStatus.active : EvidenceStatus → Bool
  | preparing | pending | deciding => true
  | _ => false

theorem EvidenceStatus.decision_of_active {s : EvidenceStatus} (h : s.active = true) :
    s.decision = false := by
  cases s <;> first | rfl | cases h

/-! ## Listing -/

/-- The value of an integer that SQLite cannot bind. -/
def sqliteIntegerBound : ℤ := 2 ^ 63

/-- What `list_records` raises. -/
inductive ListError where
  | record (e : EvidenceError)
  | integerOverflow
deriving DecidableEq

/-- The key `list_records` orders by. -/
def ordered {α : Type u} (createdAt : α → Time) (eventId : α → String) (a b : α) : Bool :=
  createdAt a < createdAt b || createdAt a = createdAt b && eventId a ≤ eventId b

/-- The filter of `list_records`. -/
def wanted {α : Type u} (run : α → String) (status : α → EvidenceStatus)
    (runId : Option String) (statuses : Option (List String)) (a : α) : Bool :=
  runId.all (run a = ·) && statuses.all fun texts ↦ (status a).text ∈ texts.map Text.lower

/-- `[: max(0, int(limit))]`. -/
def cut {α : Type u} (limit : Option ℤ) (l : List α) : List α :=
  match limit with
  | none => l
  | some k => l.take k.toNat

section Listing

variable {V : Type u} {D : DispositionDigest V}

namespace EvaluationEvidenceRecord

/-- `terminal_verified`. -/
def terminalVerified (r : EvaluationEvidenceRecord D) : Bool :=
  r.status.decision && r.verification.isSome

/-- A record is active, or decided without a verification. -/
def unresolved (r : EvaluationEvidenceRecord D) : Bool :=
  r.status.active || r.status.decision && !r.terminalVerified

end EvaluationEvidenceRecord

/-- `key=lambda item: item.created_at`. -/
def byCreation (r r' : EvaluationEvidenceRecord D) : Bool := r.createdAt ≤ r'.createdAt

/-- The records that are listed, in the order of their creation. -/
def select (runId : Option String) (statuses : Option (List String))
    (records : List (EvaluationEvidenceRecord D)) : List (EvaluationEvidenceRecord D) :=
  (records.filter (wanted (·.runId) (·.status) runId statuses)).mergeSort
    (ordered (·.createdAt) (·.eventId))

/-- `list_records` in memory.  `keys` are the keys of the dict. -/
def InMemoryJournal.listRecords (s : InMemoryJournal D) (keys : List String)
    (runId : Option String) (statuses : Option (List String)) (limit : Option ℤ) :
    List (EvaluationEvidenceRecord D) :=
  cut limit (select runId statuses (keys.filterMap s.records))

/-- `list_records` on SQLite. -/
def SQLiteJournal.listRecords (D : DispositionDigest V) (s : SQLiteJournal V)
    (runId : Option String) (statuses : Option (List String)) (limit : Option ℤ) :
    Except ListError (List (EvaluationEvidenceRecord D)) :=
  if statuses = some [] then .ok []
  else if limit.any (sqliteIntegerBound ≤ ·) then .error .integerOverflow
  else
    let rows := cut limit ((s.rows.filter (wanted (·.runId) (·.status) runId statuses)).mergeSort
      (ordered (·.createdAt) (·.eventId)))
    (rows.mapM fun row ↦ make D row.payload).mapError .record

/-- `list_records` on Redis.  `scan` is what SCAN yields. -/
def RedisJournal.listRecords (D : DispositionDigest V) (s : RedisJournal V) (scan : List String)
    (runId : Option String) (statuses : Option (List String)) (limit : Option ℤ) :
    Except ListError (List (EvaluationEvidenceRecord D)) :=
  (((scan.filterMap s.values).mapM (make D)).map fun records ↦
    cut limit (select runId statuses records)).mapError .record

namespace Journal

/-- `list_records`. -/
def listRecords (j : Journal D) (scan : List String) (runId : Option String)
    (statuses : Option (List String)) (limit : Option ℤ) :
    Except ListError (List (EvaluationEvidenceRecord D)) :=
  match j with
  | memory s => .ok (s.listRecords scan runId statuses limit)
  | sqlite s => s.listRecords D runId statuses limit
  | redis s => s.listRecords D scan runId statuses limit

/-- The active statuses, sorted. -/
def activeTexts : List String := ["deciding", "pending", "preparing"]

/-- The statuses of a decision. -/
def decisionTexts : List String := ["committed", "rejected", "failed"]

/-- `list_unresolved`, with what its two listings go through. -/
def listUnresolved (j : Journal D) (scan scan' : List String) (runId : Option String)
    (limit : Option ℤ) : Except ListError (List (EvaluationEvidenceRecord D)) := do
  let active ← j.listRecords scan runId (some activeTexts) limit
  let remaining := limit.map fun k ↦ max 0 (k - (active.length : ℤ))
  if remaining = some 0 then return active
  let listed ← j.listRecords scan' runId (some decisionTexts) remaining
  let legacyTerminal := listed.filter fun r ↦ !r.terminalVerified
  return cut limit ((active ++ legacyTerminal).mergeSort byCreation)

/-! ## What a journal holds -/

/-- The records a journal holds, one for each event; in a table they are in the order of its
rows. -/
structure Holds (j : Journal D) (records : List (EvaluationEvidenceRecord D)) : Prop where
  unique : (records.map (·.eventId)).Nodup
  stored : match j with
    | memory s => ∀ e r, s.records e = some r ↔ r ∈ records ∧ r.eventId = e
    | sqlite s => s.rows = records.map fun r ↦ SQLiteJournal.row r.toEvidenceFields
    | redis s => ∀ k p, s.values k = some p ↔
        ∃ r ∈ records, r.toEvidenceFields = p ∧ s.key r.eventId = k

/-- What a listing goes through: the keys of the dict, or at least the keys that Redis holds. -/
def Scans (j : Journal D) (scan : List String) : Prop :=
  match j with
  | memory s => scan.Nodup ∧ ∀ e, e ∈ scan ↔ (s.records e).isSome
  | sqlite _ => True
  | redis s => ∀ k, (s.values k).isSome → k ∈ scan

/-- A limit that the backend cannot be given. -/
def Overflows (j : Journal D) (limit : Option ℤ) : Prop :=
  match j with
  | sqlite _ => limit.any (sqliteIntegerBound ≤ ·) = true
  | _ => False

end Journal

/-! ## What a listing finds -/

theorem mem_select {runId : Option String} {statuses : Option (List String)}
    {records : List (EvaluationEvidenceRecord D)} {r : EvaluationEvidenceRecord D} :
    r ∈ select runId statuses records ↔
      r ∈ records ∧ wanted (·.runId) (·.status) runId statuses r = true := by
  rw [select, (List.mergeSort_perm _ _).mem_iff, List.mem_filter]

/-- The rows of a selection. -/
theorem select_rows (runId : Option String) (statuses : Option (List String))
    (records : List (EvaluationEvidenceRecord D)) :
    ((records.map fun r ↦ SQLiteJournal.row r.toEvidenceFields).filter (wanted (·.runId)
        (·.status) runId statuses)).mergeSort (ordered (·.createdAt) (·.eventId)) =
      (select runId statuses records).map fun r ↦ SQLiteJournal.row r.toEvidenceFields := by
  rw [List.filter_map, select]
  symm
  apply List.map_mergeSort
  intro r _ r' _
  rfl

theorem cut_map {α β : Type u} (f : α → β) (limit : Option ℤ) (l : List α) :
    cut limit (l.map f) = (cut limit l).map f := by
  cases limit with
  | none => rfl
  | some k => exact List.map_take.symm

/-- Everything that has been stored is decoded. -/
theorem mapM_stored {α : Type u} (f : EvaluationEvidenceRecord D → α)
    (read : α → Except EvidenceError (EvaluationEvidenceRecord D))
    (hread : ∀ r, read (f r) = .ok r) (records : List (EvaluationEvidenceRecord D)) :
    (records.map f).mapM read = .ok records := by
  refine Attempt.mapM_eq_ok (List.forall₂_map_left_iff.mpr ?_)
  exact List.forall₂_same.mpr fun r _ ↦ hread r

namespace Journal

variable {j : Journal D} {records : List (EvaluationEvidenceRecord D)} {scan : List String}

/-- The records a listing goes through. -/
theorem exists_listing (hj : j.Holds records) (hscan : j.Scans scan) (runId : Option String)
    {statuses : Option (List String)} (hstatuses : statuses ≠ some []) :
    ∃ through : List (EvaluationEvidenceRecord D), (∀ r, r ∈ through ↔ r ∈ records) ∧
      ∀ limit, ¬ j.Overflows limit →
        j.listRecords scan runId statuses limit =
          .ok (cut limit (select runId statuses through)) := by
  have hstored := hj.stored
  cases j with
  | memory s =>
      refine ⟨scan.filterMap s.records, fun r ↦ ?_, fun _ _ ↦ rfl⟩
      rw [List.mem_filterMap]
      constructor
      · rintro ⟨e, -, hr⟩
        exact ((hstored e r).mp hr).1
      · intro hr
        have hfound := (hstored r.eventId r).mpr ⟨hr, rfl⟩
        exact ⟨r.eventId, (hscan.2 _).mpr (by rw [hfound]; rfl), hfound⟩
  | sqlite s =>
      refine ⟨records, fun r ↦ Iff.rfl, fun limit hlimit ↦ ?_⟩
      have hstored : s.rows = records.map fun r ↦ SQLiteJournal.row r.toEvidenceFields := hstored
      have hlimit : ¬ limit.any (sqliteIntegerBound ≤ ·) = true := hlimit
      simp only [listRecords, SQLiteJournal.listRecords, if_neg hstatuses, if_neg hlimit, hstored,
        select_rows, cut_map]
      have hread : ∀ r : EvaluationEvidenceRecord D,
          make D (SQLiteJournal.row r.toEvidenceFields).payload = .ok r := fun r ↦
        make_toEvidenceFields r
      exact congrArg (Except.mapError ListError.record)
        (mapM_stored (fun r : EvaluationEvidenceRecord D ↦ SQLiteJournal.row r.toEvidenceFields)
          (fun row ↦ make D row.payload) hread _)
  | redis s =>
      have hpayloads : ∃ through : List (EvaluationEvidenceRecord D),
          through.map (·.toEvidenceFields) = scan.filterMap s.values := by
        have hrange : scan.filterMap s.values ∈ Set.range
            (List.map fun r : EvaluationEvidenceRecord D ↦ r.toEvidenceFields) := by
          rw [Set.range_list_map]
          intro p hp
          obtain ⟨k, -, hk⟩ := List.mem_filterMap.mp hp
          obtain ⟨r, -, rfl, -⟩ := (hstored k p).mp hk
          exact ⟨r, rfl⟩
        exact hrange
      obtain ⟨through, hthrough⟩ := hpayloads
      refine ⟨through, fun r ↦ ?_, fun limit _ ↦ ?_⟩
      · constructor
        · intro hr
          have hp : r.toEvidenceFields ∈ scan.filterMap s.values :=
            hthrough ▸ List.mem_map_of_mem hr
          obtain ⟨k, -, hk⟩ := List.mem_filterMap.mp hp
          obtain ⟨r', hr', hfields, -⟩ := (hstored k _).mp hk
          exact EvaluationEvidenceRecord.ext hfields ▸ hr'
        · intro hr
          have hk := (hstored (s.key r.eventId) r.toEvidenceFields).mpr ⟨r, hr, rfl, rfl⟩
          have hp : r.toEvidenceFields ∈ through.map fun r ↦ r.toEvidenceFields := by
            rw [hthrough]
            exact List.mem_filterMap.mpr ⟨_, hscan _ (by rw [hk]; rfl), hk⟩
          obtain ⟨r', hr', hfields⟩ := List.mem_map.mp hp
          exact EvaluationEvidenceRecord.ext hfields ▸ hr'
      · simp only [listRecords, RedisJournal.listRecords, ← hthrough]
        rw [mapM_stored _ (make D) make_toEvidenceFields]
        rfl

end Journal

end Listing

/-! ## Counting what a limit leaves -/

section Counting

variable {α : Type u} {p : α → Bool} {wanted : List α}

/-- Of the first `m` of a list, as many as can be are wanted, unless one that is not comes
before one that is and is cut off. -/
theorem length_filter_take_iff (listed : List α) (m : ℕ) (hwanted : wanted.Nodup)
    (hmem : ∀ a, a ∈ wanted ↔ a ∈ listed ∧ p a = true)
    (hnodup : ((listed.take m).filter p).Nodup) :
    ((listed.take m).filter p).length = min m wanted.length ↔
      ∀ w ∈ listed, p w = true → w ∉ listed.take m → ∀ v ∈ listed.take m, p v = true := by
  have hsubset : (listed.take m).filter p ⊆ wanted := by
    intro a ha
    obtain ⟨ha, hp⟩ := List.mem_filter.mp ha
    exact (hmem a).mpr ⟨List.mem_of_mem_take ha, hp⟩
  have hle : ((listed.take m).filter p).length ≤ wanted.length :=
    (hnodup.subperm hsubset).length_le
  have htake : ((listed.take m).filter p).length ≤ (listed.take m).length :=
    List.length_filter_le _ _
  have hm : (listed.take m).length ≤ m := List.length_take_le m listed
  constructor
  · intro hlength w hw hpw hcut v hv
    have hnodup' : (w :: (listed.take m).filter p).Nodup :=
      List.nodup_cons.mpr ⟨fun h ↦ hcut (List.mem_of_mem_filter h), hnodup⟩
    have hsubset' : w :: (listed.take m).filter p ⊆ wanted := by
      intro a ha
      rcases List.mem_cons.mp ha with rfl | ha
      · exact (hmem a).mpr ⟨hw, hpw⟩
      · exact hsubset ha
    have hlt := (hnodup'.subperm hsubset').length_le
    rw [List.length_cons] at hlt
    have hfull : ((listed.take m).filter p).length = (listed.take m).length := by omega
    exact List.length_filter_eq_length_iff.mp hfull v hv
  · intro hcrowd
    by_cases hall : ∀ w ∈ listed, p w = true → w ∈ listed.take m
    · have hperm : ((listed.take m).filter p).Perm wanted := by
        refine (List.perm_ext_iff_of_nodup hnodup hwanted).mpr fun a ↦ ⟨fun h ↦ hsubset h, ?_⟩
        intro h
        obtain ⟨ha, hp⟩ := (hmem a).mp h
        exact List.mem_filter.mpr ⟨hall a ha hp, hp⟩
      have hlength := hperm.length_eq
      omega
    · push Not at hall
      obtain ⟨w, hw, hpw, hcut⟩ := hall
      have hfull := List.length_filter_eq_length_iff.mpr (hcrowd w hw hpw hcut)
      have hlong : m ≤ listed.length := by
        by_contra hshort
        rw [List.take_of_length_le (by omega)] at hcut
        exact hcut hw
      have hlength := List.length_take_of_le hlong
      omega

end Counting

/-! ## What is found -/

section Finding

variable {V : Type u} {D : DispositionDigest V}

theorem wanted_active_iff {runId : Option String} {r : EvaluationEvidenceRecord D} :
    wanted (·.runId) (·.status) runId (some Journal.activeTexts) r = true ↔
      runId.all (r.runId = ·) = true ∧ r.status.active = true := by
  have hstatus : r.status.text ∈ Journal.activeTexts.map Text.lower ↔ r.status.active = true := by
    cases r.status <;> decide
  rw [wanted, Bool.and_eq_true, Option.all_some, decide_eq_true_eq, hstatus]

theorem wanted_decision_iff {runId : Option String} {r : EvaluationEvidenceRecord D} :
    wanted (·.runId) (·.status) runId (some Journal.decisionTexts) r = true ↔
      runId.all (r.runId = ·) = true ∧ r.status.decision = true := by
  have hstatus : r.status.text ∈ Journal.decisionTexts.map Text.lower ↔
      r.status.decision = true := by
    cases r.status <;> decide
  rw [wanted, Bool.and_eq_true, Option.all_some, decide_eq_true_eq, hstatus]

namespace Journal

variable {j : Journal D} {records : List (EvaluationEvidenceRecord D)} {scan scan' : List String}
  {runId : Option String} {limit : Option ℕ}

/-- What a listing without a limit returns. -/
def listed (j : Journal D) (scan : List String) (runId : Option String) (statuses : List String) :
    List (EvaluationEvidenceRecord D) :=
  (j.listRecords scan runId (some statuses) none).toOption.getD []

theorem listed_eq (hj : j.Holds records) (hscan : j.Scans scan) (runId : Option String)
    {statuses : List String} (hstatuses : statuses ≠ []) :
    ∃ through : List (EvaluationEvidenceRecord D), (∀ r, r ∈ through ↔ r ∈ records) ∧
      j.listed scan runId statuses = select runId (some statuses) through ∧
        ∀ limit, ¬ j.Overflows limit →
          j.listRecords scan runId (some statuses) limit =
            .ok (cut limit (j.listed scan runId statuses)) := by
  have hsome : some statuses ≠ some [] := fun h ↦ hstatuses (Option.some.inj h)
  obtain ⟨through, hmem, hlist⟩ := exists_listing hj hscan runId hsome
  have hnone : ¬ j.Overflows none := by
    cases j with
    | memory s => exact not_false
    | sqlite s => exact Bool.false_ne_true
    | redis s => exact not_false
  have hlisted : j.listed scan runId statuses = select runId (some statuses) through := by
    rw [listed, hlist none hnone]
    rfl
  exact ⟨through, hmem, hlisted, fun limit hlimit ↦ hlisted ▸ hlist limit hlimit⟩

theorem mem_listed (hj : j.Holds records) (hscan : j.Scans scan) {statuses : List String}
    (hstatuses : statuses ≠ []) {r : EvaluationEvidenceRecord D} :
    r ∈ j.listed scan runId statuses ↔
      r ∈ records ∧ wanted (·.runId) (·.status) runId (some statuses) r = true := by
  obtain ⟨through, hmem, hlisted, -⟩ := listed_eq hj hscan runId hstatuses
  rw [hlisted, mem_select, hmem]

/-- The records that `list_unresolved` is to find. -/
def sought (records : List (EvaluationEvidenceRecord D)) (runId : Option String) :
    List (EvaluationEvidenceRecord D) :=
  records.filter fun r ↦ runId.all (r.runId = ·) && r.unresolved

/-- The records that `list_unresolved` keeps of its two listings. -/
def reached (active decided : List (EvaluationEvidenceRecord D)) :
    Option ℕ → List (EvaluationEvidenceRecord D)
  | none => active ++ decided.filter fun r ↦ !r.terminalVerified
  | some k =>
      active.take k ++ (decided.take (k - active.length)).filter fun r ↦ !r.terminalVerified

theorem not_overflows_of_le {k : ℕ} {l : ℤ} (hlimit : ¬ j.Overflows (some (k : ℤ))) (hle : l ≤ k) :
    ¬ j.Overflows (some l) := by
  cases j with
  | memory s => exact not_false
  | sqlite s =>
      simp only [Overflows, Option.any_some, decide_eq_true_eq, not_le] at hlimit ⊢
      exact hle.trans_lt hlimit
  | redis s => exact not_false

theorem activeTexts_ne_nil : activeTexts ≠ [] := List.cons_ne_nil _ _

theorem decisionTexts_ne_nil : decisionTexts ≠ [] := List.cons_ne_nil _ _

/-- What `list_unresolved` returns. -/
theorem listUnresolved_eq (hj : j.Holds records) (hscan : j.Scans scan) (hscan' : j.Scans scan')
    (runId : Option String) (hlimit : ¬ j.Overflows (limit.map (↑))) :
    ∃ found, j.listUnresolved scan scan' runId (limit.map (↑)) = .ok found ∧
      found.Perm (reached (j.listed scan runId activeTexts) (j.listed scan' runId decisionTexts)
        limit) ∧
        (limit = none → found.Pairwise fun r r' ↦ r.createdAt ≤ r'.createdAt) := by
  obtain ⟨-, -, -, hactive⟩ := listed_eq hj hscan runId activeTexts_ne_nil
  obtain ⟨-, -, -, hdecided⟩ := listed_eq hj hscan' runId decisionTexts_ne_nil
  have hfirst := hactive _ hlimit
  generalize j.listed scan runId activeTexts = active at hfirst ⊢
  generalize j.listed scan' runId decisionTexts = decided at hdecided ⊢
  cases limit with
  | none =>
      have hsecond := hdecided none hlimit
      rw [Option.map_none] at hfirst
      refine ⟨(reached active decided none).mergeSort byCreation, ?_, List.mergeSort_perm _ _,
        fun _ ↦ ?_⟩
      · simp only [listUnresolved, Option.map_none, hfirst, hsecond, bind, Except.bind, cut]
        rfl
      · refine (List.pairwise_mergeSort (fun r r' r'' h h' ↦ ?_) (fun r r' ↦ ?_) _).imp fun h ↦ ?_
        · simp only [byCreation, decide_eq_true_eq] at h h' ⊢
          exact h.trans h'
        · simpa [byCreation] using le_total r.createdAt r'.createdAt
        · exact of_decide_eq_true h
  | some k =>
      rw [Option.map_some] at hfirst hlimit
      have hlength : (active.take k).length = min k active.length := List.length_take
      have hleft : max 0 ((k : ℤ) - ((active.take k).length : ℤ)) =
          ((k - active.length : ℕ) : ℤ) := by
        omega
      have hsecond := hdecided (some ((k - active.length : ℕ) : ℤ))
        (not_overflows_of_le hlimit (by omega))
      by_cases hnone : k - active.length = 0
      · refine ⟨active.take k, ?_, ?_, fun h ↦ nomatch h⟩
        · simp only [listUnresolved, Option.map_some, hfirst, bind, Except.bind, cut,
            Int.toNat_natCast, hleft, hnone]
          rfl
        · simp [reached, hnone]
      · -- The active records are all there, so the last limit cuts nothing off.
        have hall : active.take k = active := List.take_of_length_le (by omega)
        have hshort : (reached active decided (some k)).length ≤ k := by
          have hfilter : ((decided.take (k - active.length)).filter fun r ↦
              !r.terminalVerified).length ≤ k - active.length :=
            (List.length_filter_le _ _).trans (List.length_take_le _ _)
          rw [reached, hall, List.length_append]
          omega
        refine ⟨(reached active decided (some k)).mergeSort byCreation, ?_, List.mergeSort_perm _ _,
          fun h ↦ nomatch h⟩
        simp only [listUnresolved, Option.map_some, hfirst, hsecond, bind, Except.bind, cut,
          Int.toNat_natCast, hleft]
        rw [if_neg (by simpa using hnone), List.take_of_length_le]
        · rfl
        · rw [List.length_mergeSort]
          exact hshort

/-- A limit that cannot be bound is an error. -/
theorem listUnresolved_overflows (scan scan' : List String) (runId : Option String) {k : ℤ}
    (h : j.Overflows (some k)) :
    j.listUnresolved scan scan' runId (some k) = .error .integerOverflow := by
  cases j with
  | memory s => exact h.elim
  | redis s => exact h.elim
  | sqlite s =>
      have hsome : some activeTexts ≠ some [] := fun h ↦ activeTexts_ne_nil (Option.some.inj h)
      have hlist : (sqlite s).listRecords scan runId (some activeTexts) (some k) =
          (.error .integerOverflow : Except ListError (List (EvaluationEvidenceRecord D))) := by
        have hk : (some k).any (sqliteIntegerBound ≤ ·) = true := h
        rw [listRecords, SQLiteJournal.listRecords, if_neg hsome, if_pos hk]
      rw [listUnresolved, hlist]
      rfl

/-- The journal is asked for a limit it can be given, keeps no record twice, and has no
verified record among the decided ones it lists while it leaves out one that is not. -/
structure Serves (j : Journal D) (scan scan' : List String) (runId : Option String)
    (limit : Option ℕ) : Prop where
  bound : ¬ j.Overflows (limit.map (↑))
  once : (reached (j.listed scan runId activeTexts) (j.listed scan' runId decisionTexts)
    limit).Nodup
  uncrowded : ∀ k, limit = some k →
    let asked := (j.listed scan' runId decisionTexts).take
      (k - (j.listed scan runId activeTexts).length)
    ∀ r ∈ j.listed scan' runId decisionTexts, r.terminalVerified = false → r ∉ asked →
      ∀ r' ∈ asked, r'.terminalVerified = false

/-- `list_unresolved` finds unresolved records up to its limit, and all of them in the order of
their creation if it has none. -/
structure Finds (j : Journal D) (records : List (EvaluationEvidenceRecord D))
    (scan scan' : List String) (runId : Option String) (limit : Option ℕ)
    (found : List (EvaluationEvidenceRecord D)) : Prop where
  returned : j.listUnresolved scan scan' runId (limit.map (↑)) = .ok found
  sought : ∀ r ∈ found, r ∈ sought records runId
  nodup : found.Nodup
  limited : ∀ k, limit = some k → found.length = min k (Journal.sought records runId).length
  unlimited : limit = none → found.length = (Journal.sought records runId).length ∧
    found.Pairwise fun r r' ↦ r.createdAt ≤ r'.createdAt

theorem mem_sought {r : EvaluationEvidenceRecord D} :
    r ∈ sought records runId ↔
      r ∈ records ∧ runId.all (r.runId = ·) = true ∧ r.unresolved = true := by
  rw [sought, List.mem_filter, Bool.and_eq_true]

theorem mem_active (hj : j.Holds records) (hscan : j.Scans scan) {r : EvaluationEvidenceRecord D} :
    r ∈ j.listed scan runId activeTexts ↔ r ∈ sought records runId ∧ r.status.active = true := by
  rw [mem_listed hj hscan activeTexts_ne_nil, wanted_active_iff, mem_sought]
  constructor
  · rintro ⟨hr, hrun, hactive⟩
    exact ⟨⟨hr, hrun, by simp [unresolved, hactive]⟩, hactive⟩
  · rintro ⟨⟨hr, hrun, -⟩, hactive⟩
    exact ⟨hr, hrun, hactive⟩

theorem mem_unverified (hj : j.Holds records) (hscan : j.Scans scan)
    {r : EvaluationEvidenceRecord D} :
    r ∈ sought records runId ∧ r.status.active = false ↔
      r ∈ j.listed scan runId decisionTexts ∧ (!r.terminalVerified) = true := by
  rw [mem_listed hj hscan decisionTexts_ne_nil, wanted_decision_iff, mem_sought]
  constructor
  · rintro ⟨⟨hr, hrun, hunresolved⟩, hactive⟩
    simp only [unresolved, hactive, Bool.false_or, Bool.and_eq_true] at hunresolved
    exact ⟨⟨hr, hrun, hunresolved.1⟩, hunresolved.2⟩
  · rintro ⟨⟨hr, hrun, hdecision⟩, hunverified⟩
    refine ⟨⟨hr, hrun, by simp [unresolved, hdecision, hunverified]⟩, ?_⟩
    cases hactive : r.status.active with
    | false => rfl
    | true =>
        rw [EvidenceStatus.decision_of_active hactive] at hdecision
        cases hdecision

/-- What is reached is sought. -/
theorem sought_of_reached (hj : j.Holds records) (hscan : j.Scans scan) (hscan' : j.Scans scan')
    {r : EvaluationEvidenceRecord D}
    (hr : r ∈ reached (j.listed scan runId activeTexts) (j.listed scan' runId decisionTexts)
      limit) : r ∈ sought records runId := by
  have hcases : r ∈ j.listed scan runId activeTexts ∨
      r ∈ j.listed scan' runId decisionTexts ∧ (!r.terminalVerified) = true := by
    cases limit with
    | none =>
        exact (List.mem_append.mp hr).imp id List.mem_filter.mp
    | some k =>
        refine (List.mem_append.mp hr).imp List.mem_of_mem_take fun h ↦ ?_
        obtain ⟨hr, hunverified⟩ := List.mem_filter.mp h
        exact ⟨List.mem_of_mem_take hr, hunverified⟩
  rcases hcases with hactive | hunverified
  · exact ((mem_active hj hscan).mp hactive).1
  · exact ((mem_unverified hj hscan').mpr hunverified).1

theorem sought_nodup (hj : j.Holds records) (runId : Option String) :
    (sought records runId).Nodup :=
  (List.Nodup.of_map _ hj.unique).filter _

/-- Without a limit all that is sought is reached. -/
theorem perm_reached_none (hj : j.Holds records) (hscan : j.Scans scan) (hscan' : j.Scans scan')
    (honce : (reached (j.listed scan runId activeTexts) (j.listed scan' runId decisionTexts)
      none).Nodup) :
    (reached (j.listed scan runId activeTexts) (j.listed scan' runId decisionTexts) none).Perm
      (sought records runId) := by
  refine (List.perm_ext_iff_of_nodup honce (sought_nodup hj _)).mpr fun r ↦ ⟨?_, ?_⟩
  · exact sought_of_reached hj hscan hscan'
  · intro hr
    cases hactive : r.status.active with
    | true => exact List.mem_append_left _ ((mem_active hj hscan).mpr ⟨hr, hactive⟩)
    | false =>
        have hunverified := (mem_unverified hj hscan').mp ⟨hr, hactive⟩
        exact List.mem_append_right _ (List.mem_filter.mpr hunverified)

/-- As many as the limit allows are reached, unless a verified record takes the place of one
that is not. -/
theorem length_reached_iff (hj : j.Holds records) (hscan : j.Scans scan)
    (hscan' : j.Scans scan') {k : ℕ}
    (honce : (reached (j.listed scan runId activeTexts) (j.listed scan' runId decisionTexts)
      (some k)).Nodup) :
    (reached (j.listed scan runId activeTexts) (j.listed scan' runId decisionTexts)
        (some k)).length = min k (sought records runId).length ↔
      let asked := (j.listed scan' runId decisionTexts).take
        (k - (j.listed scan runId activeTexts).length)
      ∀ r ∈ j.listed scan' runId decisionTexts, r.terminalVerified = false → r ∉ asked →
        ∀ r' ∈ asked, r'.terminalVerified = false := by
  have hactive : ∀ r, r ∈ j.listed scan runId activeTexts ↔
      r ∈ sought records runId ∧ r.status.active = true := fun r ↦ mem_active hj hscan
  have hunverified : ∀ r, r ∈ sought records runId ∧ r.status.active = false ↔
      r ∈ j.listed scan' runId decisionTexts ∧ (!r.terminalVerified) = true := fun r ↦
    mem_unverified hj hscan'
  have hnodup := sought_nodup hj runId
  generalize j.listed scan runId activeTexts = active at honce hactive ⊢
  generalize j.listed scan' runId decisionTexts = decided at honce hunverified ⊢
  generalize sought records runId = sought at hactive hunverified hnodup ⊢
  have hsplit := (List.filter_append_perm (fun r ↦ r.status.active) sought).length_eq
  rw [List.length_append] at hsplit
  obtain ⟨honce, honce', -⟩ := List.nodup_append.mp honce
  rw [reached, List.length_append]
  by_cases hshort : k ≤ active.length
  · -- The active records fill the limit.
    have hsubset : active.take k ⊆ sought.filter fun r ↦ r.status.active := by
      intro r hr
      exact List.mem_filter.mpr ((hactive r).mp (List.mem_of_mem_take hr))
    have hle := (honce.subperm hsubset).length_le
    rw [List.length_take_of_le hshort] at hle
    simp only [Nat.sub_eq_zero_of_le hshort, List.take_zero, List.filter_nil, List.length_nil,
      List.length_take_of_le hshort]
    constructor
    · intro _ r _ _ _ r' hr'
      cases hr'
    · intro _
      omega
  · have hall : active.take k = active := List.take_of_length_le (by omega)
    rw [hall] at honce ⊢
    have hactives : active.Perm (sought.filter fun r ↦ r.status.active) := by
      refine (List.perm_ext_iff_of_nodup honce (hnodup.filter _)).mpr fun r ↦ ?_
      rw [hactive, List.mem_filter]
    have hlength := hactives.length_eq
    have hmem : ∀ r, r ∈ sought.filter (fun r ↦ !r.status.active) ↔
        r ∈ decided ∧ (!r.terminalVerified) = true := by
      intro r
      rw [← hunverified, List.mem_filter, Bool.not_eq_true']
    have hiff := length_filter_take_iff decided (k - active.length) (hnodup.filter _) hmem honce'
    simp only [Bool.not_eq_true'] at hiff
    rw [← hiff]
    omega

end Journal

end Finding

/-! ## A verified record before one that is not -/

namespace Journal

/-- A record that has been settled. -/
def settled : EvaluationEvidenceRecord decidedDigest where
  eventId := "event"
  runId := "run"
  eventSnapshotKey := "snapshot"
  status := .committed
  disposition := some (decided .committed)
  dispositionSnapshotKey := ""
  verification := some committedReceipt
  identity := ∅
  metadata := ∅
  revision := 4
  createdAt := 1
  updatedAt := 4
  normal := by decide +kernel
  valid := by decide +kernel

/-- A rejected record of an earlier version, without a verification. -/
def legacy : EvaluationEvidenceRecord decidedDigest where
  eventId := "legacy"
  runId := "run"
  eventSnapshotKey := "snapshot"
  status := .rejected
  disposition := some { decided .rejected with eventId := "legacy", eventId_label := by decide }
  dispositionSnapshotKey := ""
  verification := none
  identity := ∅
  metadata := ∅
  revision := 4
  createdAt := 2
  updatedAt := 4
  normal := by decide +kernel
  valid := by decide +kernel

/-- A journal in memory with both. -/
def inherited : Journal decidedDigest :=
  .memory ⟨fun e ↦ if e = "event" then some settled else if e = "legacy" then some legacy else none⟩

theorem inherited_holds : inherited.Holds [settled, legacy] where
  unique := by decide
  stored e r := by
    simp only [List.mem_cons, List.not_mem_nil, or_false]
    constructor
    · intro h
      split_ifs at h with hevent hlegacy
      · obtain rfl := Option.some.inj h
        exact ⟨.inl rfl, hevent.symm⟩
      · obtain rfl := Option.some.inj h
        exact ⟨.inr rfl, hlegacy.symm⟩
    · rintro ⟨rfl | rfl, rfl⟩
      · rfl
      · rfl

theorem inherited_scans : inherited.Scans ["event", "legacy"] := by
  refine ⟨by decide, fun e ↦ ?_⟩
  simp only [List.mem_cons, List.not_mem_nil, or_false]
  split_ifs with hevent hlegacy
  · simp [hevent]
  · simp [hlegacy]
  · simp [hevent, hlegacy]

/-- A selection of records that are in order already. -/
theorem select_of_sorted {V : Type u} {D : DispositionDigest V} {runId : Option String}
    {statuses : Option (List String)} {selected : List (EvaluationEvidenceRecord D)}
    (records : List (EvaluationEvidenceRecord D))
    (hfilter : records.filter (wanted (·.runId) (·.status) runId statuses) = selected)
    (hsorted : selected.Pairwise fun r r' ↦ ordered (·.createdAt) (·.eventId) r r' = true) :
    select runId statuses records = selected := by
  rw [select, hfilter]
  exact List.mergeSort_of_pairwise hsorted

theorem inherited_active :
    inherited.listed ["event", "legacy"] none activeTexts = [] :=
  select_of_sorted [settled, legacy] (by decide +kernel) List.Pairwise.nil

theorem inherited_decided :
    inherited.listed ["event", "legacy"] none decisionTexts = [settled, legacy] :=
  select_of_sorted [settled, legacy] (by decide +kernel) (by decide +kernel)

end Journal

end Blackbase.Evaluation
