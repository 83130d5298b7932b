import Blackbase.Resources.Artifacts.Programs

/-!
# The operations of the ledger, one at a time

What an operation has done to the files when no other is at work and it has come to any of
its file steps, at the end or on the way.  A commit that creates its record has found every
name reserved and every ref intact.
-/

namespace Blackbase.Resources.Artifacts

/-- `reserve` alone on the files: the program of a publication up to its bytes. -/
def PublishCall.reserveAlone (c : PublishCall) (s : LedgerFiles × PublishPc) (m : Moment) :
    Option (LedgerFiles × PublishPc) :=
  if s.2 = .store then none else c.step m s.1 s.2

/-- The program of a publication alone on the files. -/
def PublishCall.alone (c : PublishCall) (s : LedgerFiles × PublishPc) (m : Moment) :
    Option (LedgerFiles × PublishPc) :=
  c.step m s.1 s.2

/-- `commit` alone on the files. -/
def CommitCall.alone (L : PublicationLedger) (c : CommitCall) (s : LedgerFiles × CommitPc)
    (m : Moment) : Option (LedgerFiles × CommitPc) :=
  c.step L m s.1 s.2

variable {L : PublicationLedger}

/-! ## Commit -/

namespace CommitCall

variable {c : CommitCall} {f g : LedgerFiles}

/-- The bytes of the ref check out. -/
def Checked (L : PublicationLedger) (f : LedgerFiles) (d : String × DataRef) : Prop :=
  ∃ p, f.payloads d.2.uri = some p ∧ L.contentError d.1 d.2 p.size p.checksum = none

/-- The ref is a file of the Case run whose bytes check out. -/
structure Validated (L : PublicationLedger) (f : LedgerFiles) (d : String × DataRef) : Prop where
  located : L.locationError d.1 d.2 = none
  checked : Checked L f d

/-- The name is reserved by the transaction, and the ref has a checksum. -/
structure Holds (c : CommitCall) (f : LedgerFiles) (d : String × DataRef) : Prop where
  held : ∃ r, f.names d.1 = .holds r ∧ (r.heldBy d.1 c.transaction).isSome
  checksum : d.2.checksum ≠ ""

/-- A retry finds its own names and refs in the record. -/
structure Restores (c : CommitCall) (existing : CommitRecord) : Prop where
  status : existing.status = "committed"
  names : ∀ n, (∃ e ∈ existing.receipts, e.1 = n) ↔ ∃ d ∈ c.refs, d.1 = n
  refs : ∀ d ∈ c.refs, (existing.receipts.lookup d.1).map (·.ref) = some d.2

/-- What the commit has found at the path of its record. -/
def Found (c : CommitCall) (f : LedgerFiles) : Option Receipts → Prop
  | none => f.commits c.transaction = .absent
  | some receipts => ∃ existing, f.commits c.transaction = .holds existing ∧
      existing.receipts = receipts ∧ c.Restores existing

/-- The refs other than those in `todo` have passed every check. -/
structure Checking (L : PublicationLedger) (c : CommitCall) (f : LedgerFiles)
    (restored : Option Receipts) (todo : List (String × DataRef)) : Prop where
  transaction : c.transaction ≠ ""
  found : c.Found f restored
  passed : ∀ d ∈ c.refs, d ∈ todo ∨ Validated L f d ∧ (restored = none → c.Holds f d)

/-- What a commit has found when it goes on to create its record. -/
abbrev Ready (L : PublicationLedger) (c : CommitCall) (f : LedgerFiles) : Prop :=
  c.Checking L f none []

/-- The transaction that holds the name of a ref. -/
theorem Holds.owner {d : String × DataRef} (h : c.Holds f d) :
    ∃ r, f.names d.1 = .holds r ∧ r.transactionId = c.transaction := by
  obtain ⟨⟨r, hr, hheld⟩, -⟩ := h
  cases r with
  | committed n t at_ => cases hheld
  | reserved r =>
      refine ⟨_, hr, ?_⟩
      by_contra hne
      simp [NameRecord.heldBy, NameRecord.transactionId] at hheld hne
      exact hne hheld.1

/-- The record is written, and some of the names are compacted. -/
structure Sealed (L : PublicationLedger) (c : CommitCall) (f : LedgerFiles) (committedAt : Time)
    (g : LedgerFiles) : Prop where
  ready : c.Ready L f
  commits : g.commits = Function.update f.commits c.transaction (.holds (c.record L committedAt))
  tombstones : g.tombstones = f.tombstones
  payloads : g.payloads = f.payloads
  names : ∀ n, g.names n = f.names n ∨ (∃ d ∈ c.refs, d.1 = n) ∧
    g.names n = .holds (.committed n c.transaction committedAt)

/-- What a commit alone makes of the files. -/
inductive Outcome (L : PublicationLedger) (c : CommitCall) (f : LedgerFiles) :
    LedgerFiles → Prop
  | same : Outcome L c f f
  | opened (h : c.Ready L f) : Outcome L c f (f.setCommit c.transaction .opened)
  | sealed {g : LedgerFiles} (committedAt : Time) (h : c.Sealed L f committedAt g) :
      Outcome L c f g

/-- What `commit` returns. -/
inductive Returned (L : PublicationLedger) (c : CommitCall) (f : LedgerFiles) :
    Receipts → LedgerFiles → Prop
  | restored {receipts : Receipts} (h : c.Checking L f (some receipts) []) :
      Returned L c f receipts f
  | issued {g : LedgerFiles} (committedAt : Time) (h : c.Sealed L f committedAt g) :
      Returned L c f (c.receipts L committedAt) g

/-- What is known where the commit is.  It has started on the files `f` and is alone. -/
def Trace (L : PublicationLedger) (c : CommitCall) (f g : LedgerFiles) : CommitPc → Prop
  | .readCommit => g = f
  | .checkTombstone => g = f ∧ c.transaction ≠ "" ∧ c.Found f none
  | .readName name ref todo => g = f ∧ c.Checking L f none ((name, ref) :: todo)
  | .validate restored check name ref todo =>
      g = f ∧ c.Checking L f restored ((name, ref) :: todo) ∧
        L.locationError name ref = none ∧ (restored = none → c.Holds f (name, ref)) ∧
          ∀ size, check = .digest size → ∃ p, f.payloads ref.uri = some p ∧ p.size = size
  | .stamp => g = f ∧ c.Ready L f
  | .create record => g = f ∧ c.Ready L f ∧ ∃ at_, record = c.record L at_
  | .write record => g = f.setCommit c.transaction .opened ∧ c.Ready L f ∧
      ∃ at_, record = c.record L at_
  -- Nobody else creates the record.
  | .conflict _ => False
  | .compact record todo => (∃ at_, record = c.record L at_ ∧ c.Sealed L f at_ g) ∧
      ∀ n ∈ todo, ∃ d ∈ c.refs, d.1 = n
  | .returned receipts => c.Returned L f receipts g
  | .raised _ => c.Outcome L f g

theorem trace_reserveNext {todo : List (String × DataRef)} (h : c.Checking L f none todo) :
    c.Trace L f f (reserveNext todo) := by
  cases todo with
  | nil => exact ⟨rfl, h⟩
  | cons d todo => exact ⟨rfl, h⟩

theorem trace_validateNext {restored : Option Receipts} {name : String} {ref : DataRef}
    {todo : List (String × DataRef)} (h : c.Checking L f restored ((name, ref) :: todo))
    (hholds : restored = none → c.Holds f (name, ref)) :
    c.Trace L f f (validateNext L restored name ref todo) := by
  unfold validateNext
  cases hloc : L.locationError name ref with
  | some e => exact .same
  | none => exact ⟨rfl, h, hloc, hholds, fun size hs ↦ by cases hs⟩

theorem trace_restoreNext {receipts : Receipts} {todo : List (String × DataRef)}
    (h : c.Checking L f (some receipts) todo) : c.Trace L f f (restoreNext L receipts todo) := by
  cases todo with
  | nil => exact .restored h
  | cons d todo => exact trace_validateNext h fun hn ↦ by cases hn

theorem Restores.restore {existing : CommitRecord} (h : c.Restores existing) :
    c.restore L existing = restoreNext L existing.receipts c.refs := by
  have hnames : existing.receipts.all (fun e ↦ c.refs.any fun r ↦ r.1 = e.1) = true := by
    simp only [List.all_eq_true, List.any_eq_true, decide_eq_true_eq]
    exact fun e he ↦ (h.names e.1).mp ⟨e, he, rfl⟩
  have hrefs : c.refs.all (fun r ↦ existing.receipts.any fun e ↦ e.1 = r.1) = true := by
    simp only [List.all_eq_true, List.any_eq_true, decide_eq_true_eq]
    exact fun d hd ↦ (h.names d.1).mpr ⟨d, hd, rfl⟩
  unfold CommitCall.restore
  rw [if_neg (not_not.mpr h.status), if_neg (by simp only [hnames, hrefs]; decide), if_neg]
  intro hany
  obtain ⟨d, hd, hne⟩ := List.any_eq_true.mp hany
  exact of_decide_eq_true hne (h.refs d hd)

/-- A retry that does not find them raises. -/
theorem restores_or_raised (c : CommitCall) (existing : CommitRecord) :
    c.Restores existing ∨ ∃ e, c.restore L existing = .raised e := by
  unfold CommitCall.restore
  split_ifs with hstatus hnames hrefs
  · exact .inr ⟨_, rfl⟩
  · exact .inr ⟨_, rfl⟩
  · exact .inr ⟨_, rfl⟩
  · left
    simp only [not_or, not_not, List.all_eq_true, List.any_eq_true, decide_eq_true_eq] at hnames
    refine ⟨not_not.mp hstatus, fun n ↦ ⟨?_, ?_⟩, fun d hd ↦ ?_⟩
    · rintro ⟨e, he, rfl⟩
      exact hnames.1 e he
    · rintro ⟨d, hd, rfl⟩
      exact hnames.2 d hd
    · by_contra hne
      exact hrefs (List.any_eq_true.mpr ⟨d, hd, decide_eq_true hne⟩)

/-- A retry goes on to the checks, or raises. -/
theorem trace_restore {existing : CommitRecord} (ht : c.transaction ≠ "")
    (hread : f.commits c.transaction = .holds existing) :
    c.Trace L f f (c.restore L existing) := by
  rcases restores_or_raised (L := L) c existing with hrestores | ⟨e, hraised⟩
  · rw [hrestores.restore]
    exact trace_restoreNext ⟨ht, ⟨existing, hread, rfl, hrestores⟩, fun d hd ↦ .inl hd⟩
  · rw [hraised]
    exact Outcome.same

/-- The ref that has been checked is no longer to be checked. -/
theorem Checking.tail {restored : Option Receipts} {name : String} {ref : DataRef}
    {todo : List (String × DataRef)} (h : c.Checking L f restored ((name, ref) :: todo))
    (hvalidated : Validated L f (name, ref)) (hholds : restored = none → c.Holds f (name, ref)) :
    c.Checking L f restored todo := by
  refine ⟨h.transaction, h.found, fun d hd ↦ ?_⟩
  rcases h.passed d hd with hmem | hpassed
  · rcases List.mem_cons.mp hmem with rfl | htodo
    · exact .inr ⟨hvalidated, hholds⟩
    · exact .inl htodo
  · exact .inr hpassed

/-- The record has just been written. -/
theorem Ready.sealed (h : c.Ready L f) (at_ : Time) :
    c.Sealed L f at_ (f.setCommit c.transaction (.holds (c.record L at_))) where
  ready := h
  commits := rfl
  tombstones := rfl
  payloads := rfl
  names _ := .inl rfl

theorem Sealed.of_opened (h : c.Ready L f) (at_ : Time) :
    c.Sealed L f at_ ((f.setCommit c.transaction .opened).setCommit c.transaction
      (.holds (c.record L at_))) := by
  have hsame : (f.setCommit c.transaction .opened).setCommit c.transaction
      (.holds (c.record L at_)) = f.setCommit c.transaction (.holds (c.record L at_)) := by
    simp [LedgerFiles.setCommit]
  rw [hsame]
  exact h.sealed at_

/-- One more name is compacted. -/
theorem Sealed.compact {at_ : Time} {name : String} (h : c.Sealed L f at_ g)
    (hname : ∃ d ∈ c.refs, d.1 = name) :
    c.Sealed L f at_ (g.setName name (.holds (.committed name c.transaction at_))) where
  ready := h.ready
  commits := h.commits
  tombstones := h.tombstones
  payloads := h.payloads
  names n := by
    by_cases hn : n = name
    · subst hn
      exact .inr ⟨hname, by simp [LedgerFiles.setName]⟩
    · simpa [LedgerFiles.setName, hn] using h.names n

/-- **A step of a commit that is alone.** -/
theorem Trace.step {pc : CommitPc} {s' : LedgerFiles × CommitPc} {m : Moment}
    (h : c.Trace L f g pc) (hstep : c.alone L (g, pc) m = some s') :
    c.Trace L f s'.1 s'.2 := by
  simp only [alone] at hstep
  cases pc with
  | readCommit =>
      obtain rfl := Option.some.inj hstep
      obtain rfl : g = f := h
      dsimp only
      split_ifs with ht
      · exact .same
      · cases hread : g.commits c.transaction with
        | absent => exact ⟨rfl, ht, hread⟩
        | opened => exact .same
        | holds existing => exact trace_restore ht hread
  | checkTombstone =>
      obtain rfl := Option.some.inj hstep
      obtain ⟨rfl, ht, hfound⟩ := h
      dsimp only
      split_ifs
      · exact .same
      · exact trace_reserveNext ⟨ht, hfound, fun d hd ↦ .inl hd⟩
  | readName name ref todo =>
      obtain rfl := Option.some.inj hstep
      obtain ⟨rfl, hchecking⟩ := h
      cases hread : g.names name with
      | opened => exact .same
      | absent => exact .same
      | holds record =>
          simp only [JsonFile.read, Option.bind_some]
          split_ifs with hnone hsum
          · exact .same
          · exact .same
          · have hheld : (record.heldBy name c.transaction).isSome := by
              simpa [Option.isSome_iff_ne_none] using hnone
            exact trace_validateNext hchecking fun _ ↦ ⟨⟨record, hread, hheld⟩, hsum⟩
  | validate restored check name ref todo =>
      obtain ⟨rfl, hchecking, hloc, hholds, hsize⟩ := h
      cases check with
      | isFile =>
          obtain rfl := Option.some.inj hstep
          dsimp only
          split_ifs
          · exact ⟨rfl, hchecking, hloc, hholds, fun size hs ↦ by cases hs⟩
          · exact .same
      | stat =>
          obtain rfl := Option.some.inj hstep
          cases hp : g.payloads ref.uri with
          | none => exact .same
          | some p =>
              dsimp only
              split_ifs
              · exact .same
              · exact ⟨rfl, hchecking, hloc, hholds, fun size hs ↦
                  ⟨p, hp, PhysicalCheck.digest.inj hs⟩⟩
      | digest size =>
          obtain rfl := Option.some.inj hstep
          cases hp : g.payloads ref.uri with
          | none => exact .same
          | some p =>
              dsimp only
              split_ifs
              · exact .same
              · cases hcontent : L.contentError name ref size p.checksum with
                | some e => exact .same
                | none =>
                    -- The size was read before the digest, of the same bytes.
                    obtain ⟨q, hq, rfl⟩ := hsize size rfl
                    obtain rfl := Option.some.inj (hq.symm.trans hp)
                    have htail := hchecking.tail ⟨hloc, q, hq, hcontent⟩ hholds
                    cases restored with
                    | none => exact trace_reserveNext htail
                    | some receipts => exact trace_restoreNext htail
  | stamp =>
      obtain rfl := Option.some.inj hstep
      obtain ⟨rfl, hready⟩ := h
      dsimp only
      cases (c.receipts L m.now).findSome? fun e ↦ e.2.error with
      | some e => exact .same
      | none => exact ⟨rfl, hready, m.now, rfl⟩
  | create record =>
      obtain ⟨rfl, hready, hrecord⟩ := h
      simp only [CommitCall.step] at hstep
      split_ifs at hstep with hfails hpresent
      · obtain rfl := Option.some.inj hstep
        exact .same
      · have habsent : g.commits c.transaction = .absent := hready.found
        rw [habsent] at hpresent
        cases hpresent
      · obtain rfl := Option.some.inj hstep
        exact ⟨rfl, hready, hrecord⟩
  | write record =>
      obtain ⟨rfl, hready, at_, rfl⟩ := h
      have hsealed := Sealed.of_opened hready at_
      simp only [CommitCall.step] at hstep
      split_ifs at hstep
      · obtain rfl := Option.some.inj hstep
        exact .sealed at_ hsealed
      · obtain rfl := Option.some.inj hstep
        exact .opened hready
      · obtain rfl := Option.some.inj hstep
        exact ⟨⟨at_, rfl, hsealed⟩, fun n hn ↦ List.mem_map.mp hn⟩
  | conflict record => exact h.elim
  | compact record todo =>
      obtain ⟨⟨at_, rfl, hsealed⟩, htodo⟩ := h
      cases todo with
      | nil =>
          obtain rfl := Option.some.inj hstep
          exact .issued at_ hsealed
      | cons name todo =>
          obtain rfl := Option.some.inj hstep
          have hrest : ∀ n ∈ todo, ∃ d ∈ c.refs, d.1 = n := fun n hn ↦
            htodo n (List.mem_cons_of_mem name hn)
          split_ifs
          · exact ⟨⟨at_, rfl, hsealed⟩, hrest⟩
          · exact ⟨⟨at_, rfl, hsealed.compact (htodo name List.mem_cons_self)⟩, hrest⟩
  | returned receipts => cases hstep
  | raised e => cases hstep

/-- **A commit that is alone**, wherever it has come to. -/
theorem trace_of_run {pc : CommitPc} {ms : List Moment}
    (hrun : Machine.run (c.alone L) (f, .readCommit) ms = some (g, pc)) : c.Trace L f g pc := by
  have hstart : c.Trace L f f .readCommit := rfl
  exact (Machine.reach_of_run_any hrun).invariant (I := fun s ↦ c.Trace L f s.1 s.2) hstart
    fun _ _ _ h _ hstep ↦ h.step hstep

/-- What a commit has made of the files, wherever it is. -/
theorem Trace.outcome {pc : CommitPc} (h : c.Trace L f g pc) : c.Outcome L f g := by
  cases pc with
  | readCommit => exact h ▸ .same
  | checkTombstone => exact h.1 ▸ .same
  | readName name ref todo => exact h.1 ▸ .same
  | validate restored check name ref todo => exact h.1 ▸ .same
  | stamp => exact h.1 ▸ .same
  | create record => exact h.1 ▸ .same
  | write record =>
      obtain ⟨rfl, hready, -⟩ := h
      exact .opened hready
  | conflict record => exact h.elim
  | compact record todo =>
      obtain ⟨⟨at_, -, hsealed⟩, -⟩ := h
      exact .sealed at_ hsealed
  | returned receipts =>
      cases h with
      | restored => exact .same
      | issued at_ hsealed => exact .sealed at_ hsealed
  | raised e => exact h

theorem Validated.of_payloads {d : String × DataRef} (h : Validated L f d)
    (hpayloads : g.payloads = f.payloads) : Validated L g d := by
  obtain ⟨hloc, p, hp, hcontent⟩ := h
  exact ⟨hloc, p, hpayloads ▸ hp, hcontent⟩

/-! ## A retry -/

/-- The entry a list with distinct keys has for one of its elements. -/
theorem lookup_map {α β : Type} {key : α → String} {value : α → β} {l : List α}
    (hnodup : (l.map key).Nodup) {a : α} (ha : a ∈ l) :
    (l.map fun x ↦ (key x, value x)).lookup (key a) = some (value a) := by
  induction l with
  | nil => cases ha
  | cons x l ih =>
      obtain ⟨hnot, hnodup⟩ := List.nodup_cons.mp hnodup
      rcases List.mem_cons.mp ha with rfl | hmem
      · simp
      · have hne : key a ≠ key x := fun h ↦ hnot (h ▸ List.mem_map_of_mem hmem)
        simp only [List.map_cons, List.lookup_cons, beq_eq_false_iff_ne.mpr hne]
        exact ih hnodup hmem

/-- A retry that returns gives the receipts of the record, and has checked every ref. -/
theorem Returned.of_holds {existing : CommitRecord} {receipts : Receipts}
    (h : c.Returned L f receipts g) (hexisting : f.commits c.transaction = .holds existing) :
    receipts = existing.receipts ∧ ∀ d ∈ c.refs, Validated L f d := by
  cases h with
  | restored h =>
      obtain ⟨existing', hfound, rfl, -⟩ := h.found
      obtain rfl := JsonFile.holds.inj (hfound.symm.trans hexisting)
      exact ⟨rfl, fun d hd ↦ ((h.passed d hd).resolve_left List.not_mem_nil).1⟩
  | issued at_ h =>
      have habsent : f.commits c.transaction = .absent := h.ready.found
      rw [hexisting] at habsent
      cases habsent

/-- The record of a commit is found by its retry. -/
theorem restores_record (hnodup : (c.refs.map (·.1)).Nodup) (at_ : Time) :
    c.Restores (c.record L at_) where
  status := rfl
  names n := by
    constructor
    · rintro ⟨e, he, rfl⟩
      obtain ⟨d, hd, rfl⟩ := List.mem_map.mp he
      exact ⟨d, hd, rfl⟩
    · rintro ⟨d, hd, rfl⟩
      exact ⟨_, List.mem_map_of_mem hd, rfl⟩
  refs d hd := by
    rw [record, receipts, lookup_map hnodup hd]
    rfl

/-- What a retry finds depends on the refs of the call as a dictionary. -/
theorem Restores.congr {c' : CommitCall} {existing : CommitRecord} (h : c.Restores existing)
    (hrefs : ∀ d, d ∈ c'.refs ↔ d ∈ c.refs) : c'.Restores existing where
  status := h.status
  names n := by
    simp only [h.names n, hrefs]
  refs d hd := h.refs d ((hrefs d).mp hd)

/-- The checks of a retry come to their end. -/
theorem restoreNext_returns (receipts : Receipts) (todo : List (String × DataRef))
    (hvalidated : ∀ d ∈ todo, Validated L f d) :
    ∃ ms, (∀ m ∈ ms, m.fails = false) ∧
      Machine.run (c.alone L) (f, restoreNext L receipts todo) ms =
        some (f, .returned receipts) := by
  induction todo with
  | nil => exact ⟨[], by simp, rfl⟩
  | cons d todo ih =>
      obtain ⟨ms, hms, hrun⟩ := ih fun e he ↦ hvalidated e (List.mem_cons_of_mem d he)
      obtain ⟨hlocation, p, hp, hcontent⟩ := hvalidated d List.mem_cons_self
      -- The three steps of `_validate_physical_ref`.
      refine ⟨{} :: {} :: {} :: ms, by simpa using hms, ?_⟩
      simpa [restoreNext, validateNext, hlocation, Machine.run_cons, alone, CommitCall.step, hp,
        hcontent, validated] using hrun

/-- **A retry of a commit whose record is there** returns the receipts of the record. -/
theorem retry_returns {existing : CommitRecord} (ht : c.transaction ≠ "")
    (hcommit : f.commits c.transaction = .holds existing)
    (hrestores : c.Restores existing)
    (hvalidated : ∀ d ∈ c.refs, Validated L f d) :
    ∃ ms, (∀ m ∈ ms, m.fails = false) ∧ Machine.run (c.alone L) (f, .readCommit) ms =
      some (f, .returned existing.receipts) := by
  obtain ⟨ms, hms, hrun⟩ := restoreNext_returns (c := c) existing.receipts c.refs hvalidated
  refine ⟨{} :: ms, by simpa using hms, ?_⟩
  have hread : c.alone L (f, .readCommit) {} =
      some (f, restoreNext L existing.receipts c.refs) := by
    simp only [alone, CommitCall.step, if_neg ht, hcommit, JsonFile.read, hrestores.restore]
  rw [Machine.run_cons, hread]
  exact hrun

end CommitCall

/-! ## Reserve and attach -/

namespace PublishCall

variable {c : PublishCall} {f g : LedgerFiles}

/-- What `reserve` alone makes of the files. -/
inductive ReserveOutcome (c : PublishCall) (f : LedgerFiles) : LedgerFiles → Prop
  | same : ReserveOutcome c f f
  | created (file : JsonFile NameRecord) (hname : c.artifactName ≠ "") (ht : c.transaction ≠ "")
      (habsent : f.names c.artifactName = .absent)
      (hfile : file = .opened ∨ file = .holds (.reserved c.reservation)) :
      ReserveOutcome c f (f.setName c.artifactName file)

/-- What `attach_provisional` alone makes of the files. -/
inductive AttachOutcome (c : PublishCall) (f : LedgerFiles) : LedgerFiles → Prop
  | same : AttachOutcome c f f
  | attached (current : Reservation)
      (hcurrent : f.names c.artifactName = .holds (.reserved current))
      (hname : current.artifactName = c.artifactName)
      (ht : current.transactionId = c.transaction) :
      AttachOutcome c f (f.setName c.artifactName (.holds (.reserved
        { current with provisionalRef := some c.ref })))

/-- What is known where `reserve` is. -/
def ReserveTrace (c : PublishCall) (f g : LedgerFiles) : PublishPc → Prop
  | .reserve => g = f
  | .writeReservation => g = f.setName c.artifactName .opened ∧ c.artifactName ≠ "" ∧
      c.transaction ≠ "" ∧ f.names c.artifactName = .absent
  | .readReservation => g = f
  | .store => c.ReserveOutcome f g
  | .raised _ => c.ReserveOutcome f g
  | _ => False

/-- What is known where `attach_provisional` is. -/
def AttachTrace (c : PublishCall) (f g : LedgerFiles) : PublishPc → Prop
  | .attachRead => g = f
  | .attachReplace current => g = f ∧ f.names c.artifactName = .holds (.reserved current) ∧
      current.artifactName = c.artifactName ∧ current.transactionId = c.transaction
  | .returned => c.AttachOutcome f g
  | .raised _ => c.AttachOutcome f g
  | _ => False

/-- Writing a name twice. -/
theorem setName_setName (f : LedgerFiles) (name : String) (file file' : JsonFile NameRecord) :
    (f.setName name file).setName name file' = f.setName name file' := by
  simp [LedgerFiles.setName]

theorem ReserveTrace.step {pc : PublishPc} {s' : LedgerFiles × PublishPc} {m : Moment}
    (h : c.ReserveTrace f g pc) (hstep : c.reserveAlone (g, pc) m = some s') :
    c.ReserveTrace f s'.1 s'.2 := by
  simp only [reserveAlone] at hstep
  cases pc with
  | reserve =>
      obtain rfl : g = f := h
      simp only [reduceCtorEq, if_false, PublishCall.step] at hstep
      split_ifs at hstep with hempty hfails hpresent
      · obtain rfl := Option.some.inj hstep
        exact .same
      · obtain rfl := Option.some.inj hstep
        exact .same
      · obtain rfl := Option.some.inj hstep
        exact rfl
      · obtain rfl := Option.some.inj hstep
        obtain ⟨hname, ht⟩ := not_or.mp hempty
        exact ⟨rfl, hname, ht, JsonFile.eq_absent_iff.mpr (by simpa using hpresent)⟩
  | writeReservation =>
      obtain ⟨rfl, hname, ht, habsent⟩ := h
      simp only [reduceCtorEq, if_false, PublishCall.step, setName_setName] at hstep
      split_ifs at hstep
      · obtain rfl := Option.some.inj hstep
        exact .created _ hname ht habsent (.inr rfl)
      · obtain rfl := Option.some.inj hstep
        exact .created _ hname ht habsent (.inl rfl)
      · obtain rfl := Option.some.inj hstep
        exact .created _ hname ht habsent (.inr rfl)
  | readReservation =>
      obtain rfl : g = f := h
      obtain rfl := Option.some.inj hstep
      dsimp only
      cases (g.names c.artifactName).read with
      | error e => exact .same
      | ok record =>
          dsimp only
          split_ifs
          · exact .same
          · exact .same
  | store => cases hstep
  | attachRead => exact h.elim
  | attachReplace current => exact h.elim
  | returned => exact h.elim
  | raised e => cases hstep

theorem AttachTrace.step {pc : PublishPc} {s' : LedgerFiles × PublishPc} {m : Moment}
    (h : c.AttachTrace f g pc) (hstep : c.alone (g, pc) m = some s') :
    c.AttachTrace f s'.1 s'.2 := by
  simp only [alone] at hstep
  cases pc with
  | reserve => exact h.elim
  | writeReservation => exact h.elim
  | readReservation => exact h.elim
  | store => exact h.elim
  | attachRead =>
      obtain rfl : g = f := h
      obtain rfl := Option.some.inj hstep
      cases hread : (g.names c.artifactName).read with
      | error e => exact .same
      | ok record =>
          dsimp only
          cases hheld : c.held record with
          | none => exact .same
          | some current =>
              obtain ⟨rfl, hname, ht⟩ := held_eq_some hheld
              have hcurrent : g.names c.artifactName = .holds (.reserved current) := by
                cases hfile : g.names c.artifactName with
                | absent => simp [hfile, JsonFile.read] at hread
                | opened => simp [hfile, JsonFile.read] at hread
                | holds record => simpa [hfile, JsonFile.read] using hread
              dsimp only
              cases hprov : current.provisionalRef with
              | none => exact ⟨rfl, hcurrent, hname, ht⟩
              | some existing =>
                  dsimp only
                  split_ifs
                  · exact .same
                  · exact .same
  | attachReplace current =>
      obtain ⟨rfl, hcurrent, hname, ht⟩ := h
      simp only [PublishCall.step] at hstep
      split_ifs at hstep
      · obtain rfl := Option.some.inj hstep
        exact .same
      · obtain rfl := Option.some.inj hstep
        exact .attached current hcurrent hname ht
  | returned => cases hstep
  | raised e => cases hstep

/-- What `reserve` has made of the files, wherever it is. -/
theorem ReserveTrace.outcome {pc : PublishPc} (h : c.ReserveTrace f g pc) :
    c.ReserveOutcome f g := by
  cases pc with
  | reserve => exact h ▸ .same
  | writeReservation =>
      obtain ⟨rfl, hname, ht, habsent⟩ := h
      exact .created _ hname ht habsent (.inl rfl)
  | readReservation => exact h ▸ .same
  | store => exact h
  | raised e => exact h
  | attachRead => exact h.elim
  | attachReplace current => exact h.elim
  | returned => exact h.elim

/-- What `attach_provisional` has made of the files, wherever it is. -/
theorem AttachTrace.outcome {pc : PublishPc} (h : c.AttachTrace f g pc) :
    c.AttachOutcome f g := by
  cases pc with
  | attachRead => exact h ▸ .same
  | attachReplace current => exact h.1 ▸ .same
  | returned => exact h
  | raised e => exact h
  | reserve => exact h.elim
  | writeReservation => exact h.elim
  | readReservation => exact h.elim
  | store => exact h.elim

/-- **`reserve` alone**, wherever it has come to. -/
theorem reserve_of_run {pc : PublishPc} {ms : List Moment}
    (hrun : Machine.run c.reserveAlone (f, .reserve) ms = some (g, pc)) :
    c.ReserveTrace f g pc := by
  have hstart : c.ReserveTrace f f .reserve := rfl
  exact (Machine.reach_of_run_any hrun).invariant (I := fun s ↦ c.ReserveTrace f s.1 s.2) hstart
    fun _ _ _ h _ hstep ↦ h.step hstep

/-- **`attach_provisional` alone**, wherever it has come to. -/
theorem attach_of_run {pc : PublishPc} {ms : List Moment}
    (hrun : Machine.run c.alone (f, .attachRead) ms = some (g, pc)) : c.AttachTrace f g pc := by
  have hstart : c.AttachTrace f f .attachRead := rfl
  exact (Machine.reach_of_run_any hrun).invariant (I := fun s ↦ c.AttachTrace f s.1 s.2) hstart
    fun _ _ _ h _ hstep ↦ h.step hstep

end PublishCall

end Blackbase.Resources.Artifacts
