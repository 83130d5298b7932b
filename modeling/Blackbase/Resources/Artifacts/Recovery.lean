import Blackbase.Resources.Artifacts.Exclusion
import Blackbase.Resources.Artifacts.Removals

/-!
# Recovery from a crash of a commit

A process that commits alone may stop between any two of its file steps.  A fresh process
that comes afterwards can retry the commit, if the commit record is there, or abort the
transaction, if it is not there yet.  Only between the exclusive create of the record and
the write of its content can it do neither: the record is there and cannot be read.
-/

namespace Blackbase.Resources.Artifacts

variable {L : PublicationLedger}

/-! ## An abort alone -/

namespace AbortCall

variable {c : AbortCall}

/-- The refs of the call are files of the Case run. -/
def Located (L : PublicationLedger) (c : AbortCall) : Prop :=
  ∀ name ref, c.refs.lookup name = some ref → L.locationError name ref = none

/-- With the reservation out of the way the loop goes on to the next name. -/
theorem afterName_returns (hlocated : c.Located L) {todo : List String}
    (hrest : ∀ f : LedgerFiles, (∀ n ∈ todo, f.names n ≠ .opened) →
      ∃ ms f', Machine.run (c.alone L) (f, .sweep todo) ms = some (f', .returned))
    (name : String) (f : LedgerFiles) (hread : ∀ n ∈ todo, f.names n ≠ .opened) :
    ∃ ms f', Machine.run (c.alone L) (f, c.afterName L name todo) ms = some (f', .returned) := by
  unfold afterName
  cases href : c.refs.lookup name with
  | none => exact hrest f hread
  | some ref =>
      have hloc := hlocated name ref href
      unfold PublicationLedger.locationError at hloc
      split_ifs at hloc with hbackend hwithin
      simp only [if_neg hbackend, not_true_eq_false, hwithin, if_false]
      obtain ⟨ms, f', hrun⟩ := hrest (f.setPayload ref.uri none) hread
      refine ⟨{} :: ms, f', ?_⟩
      rw [Machine.run_cons]
      exact hrun

/-- The loop over the names comes to its end. -/
theorem sweep_returns (hlocated : c.Located L) (todo : List String) (hnodup : todo.Nodup) :
    ∀ f : LedgerFiles, (∀ n ∈ todo, f.names n ≠ .opened) →
      ∃ ms f', Machine.run (c.alone L) (f, .sweep todo) ms = some (f', .returned) := by
  induction todo with
  | nil => exact fun f _ ↦ ⟨[{}], f, rfl⟩
  | cons name todo ih =>
      intro f hread
      obtain ⟨hnot, hnodup⟩ := List.nodup_cons.mp hnodup
      have hrest := ih hnodup
      have htodo : ∀ n ∈ todo, f.names n ≠ .opened := fun n hn ↦
        hread n (List.mem_cons_of_mem name hn)
      have herase : (name :: todo).erase name = todo := List.erase_cons_head name todo
      obtain ⟨record, hrecord⟩ : ∃ record, (f.names name).read = .ok record := by
        cases hf : f.names name with
        | absent => exact ⟨none, rfl⟩
        | opened => exact absurd hf (hread name List.mem_cons_self)
        | holds r => exact ⟨some r, rfl⟩
      -- The first step reads the record of the name.
      have hstep : c.alone L (f, .sweep (name :: todo)) { name := name } = some (f,
          if record.any fun r ↦ r.transactionId = c.transaction then .unlinkName name todo
          else c.afterName L name todo) := by
        simp only [alone, step, if_pos (List.mem_cons_self (a := name) (l := todo)), hrecord, herase]
      by_cases hours : record.any fun r ↦ r.transactionId = c.transaction
      · rw [if_pos hours] at hstep
        have hread' : ∀ n ∈ todo, (f.setName name .absent).names n ≠ .opened := by
          intro n hn
          have hne : n ≠ name := fun h ↦ hnot (h ▸ hn)
          simp only [LedgerFiles.setName, Function.update_of_ne hne]
          exact htodo n hn
        obtain ⟨ms, f', hrun⟩ := afterName_returns hlocated hrest name _ hread'
        refine ⟨{ name := name } :: {} :: ms, f', ?_⟩
        rw [Machine.run_cons, hstep, Option.bind_some, Machine.run_cons]
        exact hrun
      · rw [if_neg hours] at hstep
        obtain ⟨ms, f', hrun⟩ := afterName_returns hlocated hrest name f htodo
        refine ⟨{ name := name } :: ms, f', ?_⟩
        rw [Machine.run_cons, hstep]
        exact hrun

/-- **An abort returns** where there is no commit record and the names can be read. -/
theorem returns (hlocated : c.Located L) {f : LedgerFiles}
    (hcommit : f.commits c.transaction = .absent) (hread : ∀ n ∈ c.allNames, f.names n ≠ .opened) :
    ∃ ms f', Machine.run (c.alone L) (f, .checkCommit) ms = some (f', .returned) := by
  by_cases ht : c.transaction = ""
  · exact ⟨[{}], f, by simp [Machine.run_cons, alone, step, ht]⟩
  · have hsweep := sweep_returns hlocated c.allNames (List.nodup_dedup _)
    by_cases htomb : (f.tombstones c.transaction).present
    · obtain ⟨ms, f', hrun⟩ := hsweep f hread
      refine ⟨{} :: {} :: ms, f', ?_⟩
      simpa [Machine.run_cons, alone, step, ht, hcommit, htomb] using hrun
    · obtain ⟨ms, f', hrun⟩ := hsweep ((f.setTombstone c.transaction .opened).setTombstone
        c.transaction (.holds (c.tombstone 1))) hread
      refine ⟨{} :: {} :: {} :: {} :: ms, f', ?_⟩
      simpa [Machine.run_cons, alone, step, ht, hcommit, htomb] using hrun

end AbortCall

/-! ## After a crash of a commit -/

namespace CommitCall

variable {c : CommitCall}

/-- A transaction with its reservations: each name is reserved by it, and each ref is a file
of the Case run. -/
structure Reserved (L : PublicationLedger) (c : CommitCall) (f : LedgerFiles) : Prop where
  transaction : c.transaction ≠ ""
  fresh : f.commits c.transaction = .absent
  names : ∀ r ∈ c.refs, ∃ res, f.names r.1 = .holds (.reserved res) ∧
    res.transactionId = c.transaction ∧ res.artifactName = r.1
  located : ∀ r ∈ c.refs, L.locationError r.1 r.2 = none
  /-- The refs are a dictionary. -/
  nodup : (c.refs.map (·.1)).Nodup

/-- A process that retries the commit is given the receipts. -/
def Retried (L : PublicationLedger) (c : CommitCall) (f : LedgerFiles) : Prop :=
  ∃ at_ ms f', Machine.run (c.alone L) (f, .readCommit) ms =
    some (f', .returned (c.receipts L at_))

/-- The abort of the transaction. -/
def abandon (c : CommitCall) (reason : String) : AbortCall where
  transactionId := c.transactionId
  refs := c.refs
  reason := reason
  artifactNames := c.refs.map (·.1)

/-- A process that aborts the transaction comes to the end. -/
def Aborted (L : PublicationLedger) (c : CommitCall) (f : LedgerFiles) : Prop :=
  ∀ reason, ∃ ms f', Machine.run ((c.abandon reason).alone L) (f, .checkCommit) ms =
    some (f', .returned)

/-- Commit, abort and verify all fail, with the files left as they are. -/
structure Stuck (L : PublicationLedger) (c : CommitCall) (f : LedgerFiles) : Prop where
  commit : ∀ (c' : CommitCall) ms f' pc, c'.transaction = c.transaction →
    Machine.run (c'.alone L) (f, .readCommit) ms = some (f', pc) →
      f' = f ∧ ∀ receipts, pc ≠ .returned receipts
  abort : ∀ (a : AbortCall) ms f' pc, a.transaction = c.transaction →
    Machine.run (a.alone L) (f, .checkCommit) ms = some (f', pc) → f' = f ∧ pc ≠ .returned
  verify : ∀ receipt, receipt.transactionId = c.transaction → L.verify f receipt ≠ .ok true

/-- The transaction can be retried or aborted, and is not stuck. -/
def Recovers (L : PublicationLedger) (c : CommitCall) (f : LedgerFiles) : Prop :=
  (c.Retried L f ∨ c.Aborted L f) ∧ ¬ c.Stuck L f

/-- **A record that cannot be read** leaves the transaction stuck. -/
theorem stuck_of_opened {f : LedgerFiles} (ht : c.transaction ≠ "")
    (hopened : f.commits c.transaction = .opened) : c.Stuck L f := by
  constructor
  · intro c' ms f' pc hsame hrun
    have hfirst : ∀ m, c'.alone L (f, .readCommit) m = some (f, .raised .invalidRecord) := by
      intro m
      simp only [alone, CommitCall.step, hsame, if_neg ht, hopened, JsonFile.read]
    rcases Machine.run_of_last hfirst (fun m ↦ rfl) hrun with h | h <;> cases h <;> simp
  · intro a ms f' pc hsame hrun
    have hfirst : ∀ m, a.alone L (f, .checkCommit) m =
        some (f, .raised (.committed a.transaction)) := by
      intro m
      simp only [AbortCall.alone, AbortCall.step, hsame, if_neg ht, hopened,
        JsonFile.present_opened, if_true]
    rcases Machine.run_of_last hfirst (fun m ↦ rfl) hrun with h | h <;> cases h <;> simp
  · intro receipt hsame
    unfold PublicationLedger.verify
    split_ifs
    · simp
    · simp [hsame, hopened, JsonFile.read, Except.map]

/-- One operation that succeeds is enough. -/
theorem not_stuck {f : LedgerFiles} (h : c.Retried L f ∨ c.Aborted L f) : ¬ c.Stuck L f := by
  intro hstuck
  rcases h with ⟨at_, ms, f', hrun⟩ | habort
  · exact (hstuck.commit c ms f' _ rfl hrun).2 _ rfl
  · obtain ⟨ms, f', hrun⟩ := habort ""
    exact (hstuck.abort (c.abandon "") ms f' _ rfl hrun).2 rfl

/-- Wherever the commit stops, no name record is left half written. -/
theorem Outcome.names_read {f₀ f : LedgerFiles} (h : c.Outcome L f₀ f)
    (hreserved : c.Reserved L f₀) : ∀ d ∈ c.refs, f.names d.1 ≠ .opened := by
  have hstart : ∀ d ∈ c.refs, f₀.names d.1 ≠ .opened := by
    intro d hd
    obtain ⟨res, hres, -⟩ := hreserved.names d hd
    simp [hres]
  cases h with
  | same => exact hstart
  | opened => exact hstart
  | sealed at_ h =>
      intro d hd
      rcases h.names d.1 with hsame | ⟨-, hcompact⟩
      · exact hsame ▸ hstart d hd
      · simp [hcompact]

/-- A record that is whole is that of the commit, and a retry returns its receipts. -/
theorem Outcome.retried {f₀ f : LedgerFiles} {record : CommitRecord} (h : c.Outcome L f₀ f)
    (hreserved : c.Reserved L f₀) (hfile : f.commits c.transaction = .holds record) :
    c.Retried L f := by
  have hfresh := hreserved.fresh
  cases h with
  | same => rw [hfresh] at hfile; cases hfile
  | opened => simp [LedgerFiles.setCommit] at hfile
  | sealed at_ h =>
      have hrecord : f.commits c.transaction = .holds (c.record L at_) := by simp [h.commits]
      obtain ⟨ms, -, hrun⟩ := retry_returns hreserved.transaction hrecord
        (restores_record hreserved.nodup at_) fun d hd ↦
          ((h.ready.passed d hd).resolve_left List.not_mem_nil).1.of_payloads h.payloads
      exact ⟨at_, ms, f, hrun⟩

/-- The names and refs of the abort are those of the commit. -/
theorem Reserved.aborted {f₀ f : LedgerFiles} (h : c.Reserved L f₀)
    (hnames : ∀ r ∈ c.refs, f.names r.1 ≠ .opened) (hcommit : f.commits c.transaction = .absent) :
    c.Aborted L f := by
  intro reason
  refine AbortCall.returns (c := c.abandon reason) ?_ hcommit ?_
  · intro name ref hlookup
    obtain ⟨l₁, l₂, hl, -⟩ := List.lookup_eq_some_iff.mp hlookup
    have hmem : (name, ref) ∈ c.refs := by
      change c.refs = _ at hl
      rw [hl]
      exact List.mem_append_right _ List.mem_cons_self
    exact h.located _ hmem
  · intro n hn
    rw [AbortCall.allNames, List.mem_dedup, abandon, List.mem_append, or_self] at hn
    obtain ⟨r, hr, rfl⟩ := List.mem_map.mp hn
    exact hnames r hr

/-- **A commit recovers from a crash** exactly where its record is not left between the
exclusive create and the write of its content. -/
theorem commit_recovers {f₀ f : LedgerFiles} {pc : CommitPc} {ms : List Moment}
    (hreserved : c.Reserved L f₀)
    (hcrash : Machine.run (c.alone L) (f₀, .readCommit) ms = some (f, pc)) :
    c.Recovers L f ↔ f.commits c.transaction ≠ .opened := by
  have houtcome := (trace_of_run hcrash).outcome
  constructor
  · intro hrecovers hopened
    exact hrecovers.2 (stuck_of_opened hreserved.transaction hopened)
  · intro hread
    have hdone : c.Retried L f ∨ c.Aborted L f := by
      cases hfile : f.commits c.transaction with
      | absent => exact .inr (hreserved.aborted (houtcome.names_read hreserved) hfile)
      | opened => exact absurd hfile hread
      | holds record => exact .inl (houtcome.retried hreserved hfile)
    exact ⟨hdone, not_stuck hdone⟩

section Runs

open LedgerState (sample sampleRef sampleCommitCall)

/-- `model` is reserved by `t` and its bytes are stored. -/
def sampleReserved : LedgerFiles :=
  (LedgerFiles.empty.setName "model" (.holds (.reserved ⟨"model", "t", "", 0, 1, none⟩))).setPayload
    sampleRef.uri (some ⟨3, "sha256:00"⟩)

theorem sampleReserved_reserved : sampleCommitCall.Reserved sample sampleReserved where
  transaction := by decide
  fresh := rfl
  names r hr := by
    obtain rfl := List.mem_singleton.mp hr
    exact ⟨_, rfl, by decide, rfl⟩
  located := by decide
  nodup := by decide

/-- A crash right after the exclusive create. -/
theorem crash_in_create : ∃ f pc ms, sampleCommitCall.Reserved sample sampleReserved ∧
    Machine.run (sampleCommitCall.alone sample) (sampleReserved, .readCommit) ms = some (f, pc) ∧
      ¬ sampleCommitCall.Recovers sample f := by
  refine ⟨_, _, List.replicate 8 {}, sampleReserved_reserved, rfl, fun h ↦ h.2 ?_⟩
  exact stuck_of_opened (by decide) rfl

/-- A crash right after the write: the receipts are there. -/
theorem commit_recovers_after_write : ∃ f pc ms,
    Machine.run (sampleCommitCall.alone sample) (sampleReserved, .readCommit) ms = some (f, pc) ∧
      sampleCommitCall.Recovers sample f := by
  have hend : ((Machine.run (sampleCommitCall.alone sample) (sampleReserved, .readCommit)
      (List.replicate 9 {})).map fun s ↦ decide (s.1.commits "t" ≠ .opened)) = some true := by
    decide +kernel
  obtain ⟨⟨f, pc⟩, hrun, hread⟩ := Option.map_eq_some_iff.mp hend
  exact ⟨f, pc, _, hrun, (commit_recovers sampleReserved_reserved hrun).mpr
    (of_decide_eq_true hread)⟩

end Runs

end CommitCall

end Blackbase.Resources.Artifacts
