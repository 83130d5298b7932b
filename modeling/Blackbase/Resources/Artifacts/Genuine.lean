import Blackbase.Resources.Artifacts.Exclusion
import Blackbase.Resources.Artifacts.Removals

/-!
# Verified receipts are genuine

The ledgers of the Case runs of one Project run have the commit records, the tombstones and
the payload files in common; each has name records of its own.  Operations come one at a
time, with any arguments, and each stops after any of its file steps.  The bytes of a sealed
artifact go only when somebody hands an abort or a scavenger a ref to them.
-/

namespace Blackbase.Resources.Artifacts

/-- What the ledgers of one Project run have in common. -/
structure ProjectLedgers where
  root : Path
  authorityNamespace : String
  projectRunId : String
  /-- `_safe_segment`. -/
  safeSegment : String → String
  sha256 : String → String

/-- The ledger of a Case run. -/
def ProjectLedgers.ledger (P : ProjectLedgers) (caseRunId : String) : PublicationLedger where
  caseRoot := P.root ++ [P.safeSegment P.authorityNamespace, P.safeSegment P.projectRunId,
    P.safeSegment caseRunId]
  authorityNamespace := P.authorityNamespace
  projectRunId := P.projectRunId
  caseRunId := caseRunId
  sha256 := P.sha256

/-- The files of one Project run.  Name records stand in one directory for each Case run. -/
structure ProjectFiles where
  commits : String → JsonFile CommitRecord
  tombstones : String → JsonFile Tombstone
  names : String → String → JsonFile NameRecord
  payloads : Path → Option Payload
  /-- The paths under which bytes have been stored. -/
  stored : List Path

/-- An operation with its arguments. -/
inductive LedgerCall where
  | reserve (c : PublishCall)
  | publishFile (uri : Path) (payload : Payload)
  | attachProvisional (c : PublishCall)
  | commit (c : CommitCall)
  | abort (c : AbortCall)
  | scavenge (c : ScavengeCall)

/-- The files once the operation has made the steps `ms` and no other is at work. -/
def LedgerCall.run (L : PublicationLedger) (f : LedgerFiles) (ms : List Moment) :
    LedgerCall → Option LedgerFiles
  | reserve c => (Machine.run c.reserveAlone (f, .reserve) ms).map (·.1)
  | publishFile uri payload => some (f.setPayload uri (some payload))
  | attachProvisional c => (Machine.run c.alone (f, .attachRead) ms).map (·.1)
  | commit c => (Machine.run (c.alone L) (f, .readCommit) ms).map (·.1)
  | abort c => (Machine.run (c.alone L) (f, .checkCommit) ms).map (·.1)
  | scavenge c => (Machine.run (c.alone L) (f, .glob) ms).map (·.1)

/-- The path under which the operation stores bytes. -/
def LedgerCall.stores : LedgerCall → Option Path
  | publishFile uri _ => some uri
  | _ => none

/-- The refs of a commit are a dictionary. -/
def LedgerCall.dictionary : LedgerCall → Prop
  | commit c => (c.refs.map (·.1)).Nodup
  | _ => True

instance : DecidablePred LedgerCall.dictionary
  | .commit c => inferInstanceAs (Decidable (c.refs.map (·.1)).Nodup)
  | .reserve _ => inferInstanceAs (Decidable True)
  | .publishFile _ _ => inferInstanceAs (Decidable True)
  | .attachProvisional _ => inferInstanceAs (Decidable True)
  | .abort _ => inferInstanceAs (Decidable True)
  | .scavenge _ => inferInstanceAs (Decidable True)

/-- One operation on the ledger of a Case run, with the steps it makes. -/
structure LedgerOp where
  caseRunId : String
  call : LedgerCall
  steps : List Moment

namespace ProjectFiles

/-- Nothing has been written. -/
def empty : ProjectFiles where
  commits _ := .absent
  tombstones _ := .absent
  names _ _ := .absent
  payloads _ := none
  stored := []

/-- The files the ledger of a Case run works on. -/
def view (p : ProjectFiles) (dir : String) : LedgerFiles where
  commits := p.commits
  tombstones := p.tombstones
  names := p.names dir
  payloads := p.payloads

/-- The files once that ledger has changed its own. -/
def put (p : ProjectFiles) (dir : String) (f : LedgerFiles) : ProjectFiles where
  commits := f.commits
  tombstones := f.tombstones
  names := Function.update p.names dir f.names
  payloads := f.payloads
  stored := p.stored

variable (P : ProjectLedgers)

/-- One operation.  The paths under which bytes are stored end in a `uuid4`, so that none is
used twice. -/
def step (p : ProjectFiles) (op : LedgerOp) : Option ProjectFiles :=
  if op.call.dictionary ∧ ∀ uri ∈ op.call.stores, uri ∉ p.stored then
    let dir := P.safeSegment op.caseRunId
    (op.call.run (P.ledger op.caseRunId) (p.view dir) op.steps).map fun f ↦
      { p.put dir f with stored := op.call.stores.toList ++ p.stored }
  else none

/-- The commit record of `t` lists the artifact name for a Case run. -/
def Seals (p : ProjectFiles) (caseRunId name t : String) : Prop :=
  ∃ record receipt, p.commits t = .holds record ∧ (name, receipt) ∈ record.receipts ∧
    receipt.caseRunId = caseRunId

/-- The receipt is in the commit record that its own Case run has written, and its bytes are
stored. -/
structure Genuine (p : ProjectFiles) (receipt : ArtifactPublicationReceipt) : Prop where
  project : receipt.projectRunId = P.projectRunId
  listed : ∃ c at_, (c : CommitCall).transaction = receipt.transactionId ∧
    p.commits receipt.transactionId = .holds (c.record (P.ledger receipt.caseRunId) at_) ∧
      (c.receipts (P.ledger receipt.caseRunId) at_).lookup receipt.artifactName = some receipt
  bytes : ∃ payload, p.payloads receipt.ref.uri = some payload ∧
    receipt.ref.sizeBytes = some payload.size ∧ receipt.ref.checksum = payload.checksum

/-- A commit runs to its end and returns the receipts. -/
def Commits (p : ProjectFiles) (caseRunId : String) (c : CommitCall) (ms : List Moment)
    (receipts : Receipts) (q : ProjectFiles) : Prop :=
  p.step P ⟨caseRunId, .commit c, ms⟩ = some q ∧ ∃ f,
    Machine.run (c.alone (P.ledger caseRunId)) (p.view (P.safeSegment caseRunId), .readCommit) ms =
      some (f, .returned receipts)

/-- A retry returns no other receipts, and it returns these, if no file operation fails, as
long as the bytes are stored. -/
def Recommits (p : ProjectFiles) (caseRunId : String) (c : CommitCall) (receipts : Receipts) :
    Prop :=
  let run := Machine.run (c.alone (P.ledger caseRunId)) (p.view (P.safeSegment caseRunId),
    .readCommit)
  (∀ ms f receipts', run ms = some (f, .returned receipts') → receipts' = receipts) ∧
    ((∃ ms f, (∀ m ∈ ms, m.fails = false) ∧ run ms = some (f, .returned receipts)) ↔
      ∀ d ∈ c.refs, (p.payloads d.2.uri).isSome)

/-! ## What one operation keeps -/

/-- Records, the names of committed transactions and stored bytes stay, but bytes may be
deleted. -/
structure Later (p q : ProjectFiles) : Prop where
  commits : ∀ t record, p.commits t = .holds record → q.commits t = .holds record
  names : ∀ dir n r record, p.names dir n = .holds r →
    p.commits r.transactionId = .holds record →
      ∃ r', q.names dir n = .holds r' ∧ r'.transactionId = r.transactionId
  payloads : ∀ u ∈ p.stored, q.payloads u = p.payloads u ∨ q.payloads u = none
  stored : ∀ u ∈ p.stored, u ∈ q.stored

namespace Later

variable {p q r : ProjectFiles}

theorem refl (p : ProjectFiles) : Later p p where
  commits _ _ h := h
  names _ _ r _ h _ := ⟨r, h, rfl⟩
  payloads _ _ := .inl rfl
  stored _ h := h

theorem trans (hpq : Later p q) (hqr : Later q r) : Later p r where
  commits t record h := hqr.commits t record (hpq.commits t record h)
  names dir n name record h hrecord := by
    obtain ⟨name', hname', hsame⟩ := hpq.names dir n name record h hrecord
    have hrecord' : q.commits name'.transactionId = .holds record := by
      rw [hsame]
      exact hpq.commits _ record hrecord
    obtain ⟨name'', hname'', hsame'⟩ := hqr.names dir n name' record hname' hrecord'
    exact ⟨name'', hname'', hsame'.trans hsame⟩
  payloads u hu := by
    rcases hqr.payloads u (hpq.stored u hu) with hsame | hgone
    · rw [hsame]
      exact hpq.payloads u hu
    · exact .inr hgone
  stored u hu := hqr.stored u (hpq.stored u hu)

end Later

/-- What holds of the record of a committed transaction. -/
structure Record (p : ProjectFiles) (caseRunId : String) (c : CommitCall) (t : String) : Prop where
  transaction : c.transaction = t
  located : ∀ d ∈ c.refs, (P.ledger caseRunId).locationError d.1 d.2 = none
  held : ∀ d ∈ c.refs, ∃ r, p.names (P.safeSegment caseRunId) d.1 = .holds r ∧
    r.transactionId = t
  stored : ∀ d ∈ c.refs, d.2.uri ∈ p.stored
  bytes : ∀ d ∈ c.refs, ∀ payload, p.payloads d.2.uri = some payload →
    d.2.sizeBytes = some payload.size ∧ d.2.checksum = payload.checksum

/-- What holds between operations. -/
structure Inv (p : ProjectFiles) : Prop where
  strip : ∀ dir n r, p.names dir n = .holds (.reserved r) →
    Text.strip r.transactionId = r.transactionId
  stored : ∀ u payload, p.payloads u = some payload → u ∈ p.stored
  records : ∀ t record, p.commits t = .holds record → ∃ caseRunId c at_,
    record = c.record (P.ledger caseRunId) at_ ∧ p.Record P caseRunId c t

variable {P} {p q : ProjectFiles}

theorem Record.later {caseRunId t : String} {c : CommitCall} {record : CommitRecord}
    (h : p.Record P caseRunId c t) (hrecord : p.commits t = .holds record) (hlater : Later p q) :
    q.Record P caseRunId c t where
  transaction := h.transaction
  located := h.located
  held d hd := by
    obtain ⟨r, hr, rfl⟩ := h.held d hd
    exact hlater.names _ _ r record hr hrecord
  stored d hd := hlater.stored _ (h.stored d hd)
  bytes d hd payload hpayload := by
    rcases hlater.payloads _ (h.stored d hd) with hsame | hgone
    · exact h.bytes d hd payload (hsame ▸ hpayload)
    · rw [hgone] at hpayload
      cases hpayload

/-! ## What each operation does -/

/-- The same of the files of one Case run. -/
structure Evolves (used : List Path) (stores : Option Path) (f g : LedgerFiles) : Prop where
  commits : ∀ t record, f.commits t = .holds record → g.commits t = .holds record
  names : ∀ n r record, f.names n = .holds r → f.commits r.transactionId = .holds record →
    ∃ r', g.names n = .holds r' ∧ r'.transactionId = r.transactionId
  payloads : ∀ u ∈ used, g.payloads u = f.payloads u ∨ g.payloads u = none
  stored : ∀ u payload, g.payloads u = some payload →
    f.payloads u = some payload ∨ u ∈ stores
  strip : (∀ n r, f.names n = .holds (.reserved r) →
      Text.strip r.transactionId = r.transactionId) →
    ∀ n r, g.names n = .holds (.reserved r) → Text.strip r.transactionId = r.transactionId

section Operations

variable {used : List Path} {stores : Option Path} {f g : LedgerFiles} {L : PublicationLedger}

theorem Evolves.refl (f : LedgerFiles) : Evolves used stores f f where
  commits _ _ h := h
  names _ r _ h _ := ⟨r, h, rfl⟩
  payloads _ _ := .inl rfl
  stored _ _ h := .inl h
  strip h := h

/-- A name record is written where there is none, or for the same transaction. -/
theorem Evolves.setName {name : String} {file : JsonFile NameRecord}
    (hsame : ∀ r, f.names name = .holds r →
      ∃ r', file = .holds r' ∧ r'.transactionId = r.transactionId)
    (hstrip : ∀ r, file = .holds (.reserved r) → Text.strip r.transactionId = r.transactionId) :
    Evolves used stores f (f.setName name file) where
  commits _ _ h := h
  names n r record h hrecord := by
    by_cases hn : n = name
    · subst hn
      simpa [LedgerFiles.setName] using hsame r h
    · exact ⟨r, by simpa [LedgerFiles.setName, hn] using h, rfl⟩
  payloads _ _ := .inl rfl
  stored _ _ h := .inl h
  strip hf n r h := by
    by_cases hn : n = name
    · subst hn
      exact hstrip r (by simpa [LedgerFiles.setName] using h)
    · exact hf n r (by simpa [LedgerFiles.setName, hn] using h)

theorem evolves_reserve {c : PublishCall} (h : c.ReserveOutcome f g) : Evolves used stores f g := by
  cases h with
  | same => exact .refl f
  | created file hname ht habsent hfile =>
      refine .setName (fun r hr ↦ ?_) fun r hr ↦ ?_
      · rw [habsent] at hr
        cases hr
      · rcases hfile with rfl | rfl
        · cases hr
        · obtain rfl := NameRecord.reserved.inj (JsonFile.holds.inj hr)
          exact Text.strip_strip _

theorem evolves_attach {c : PublishCall} (h : c.AttachOutcome f g) : Evolves used stores f g := by
  cases h with
  | same => exact .refl f
  | attached current hcurrent hname ht =>
      refine .setName (fun r hr ↦ ?_) fun r hr ↦ ?_
      · rw [hcurrent] at hr
        obtain rfl := JsonFile.holds.inj hr
        exact ⟨_, rfl, rfl⟩
      · obtain rfl := NameRecord.reserved.inj (JsonFile.holds.inj hr)
        change Text.strip current.transactionId = current.transactionId
        rw [ht]
        exact Text.strip_strip _

theorem evolves_sweeps {T : String → Prop} {D : Path → Prop} (h : f.Sweeps T D g)
    (hT : ∀ t, T t → f.commits t = .absent) : Evolves used stores f g where
  commits t record hrecord := by rwa [h.commits]
  names n r record hr hrecord := by
    rcases h.names n with hsame | ⟨-, r', hr', ht⟩
    · exact ⟨r, hsame ▸ hr, rfl⟩
    · -- The name of a committed transaction is not removed.
      rw [hr] at hr'
      obtain rfl := JsonFile.holds.inj hr'
      rw [hT _ ht] at hrecord
      cases hrecord
  payloads u _ := (h.payloads u).imp_right And.left
  stored u payload hpayload := by
    rcases h.payloads u with hsame | ⟨hgone, -⟩
    · exact .inl (hsame ▸ hpayload)
    · rw [hgone] at hpayload
      cases hpayload
  strip hf n r hr := by
    rcases h.names n with hsame | ⟨hgone, -⟩
    · exact hf n r (hsame ▸ hr)
    · rw [hgone] at hr
      cases hr

theorem evolves_commit {c : CommitCall} (h : c.Outcome L f g) : Evolves used stores f g := by
  cases h with
  | same => exact .refl f
  | opened hready =>
      refine ⟨fun t record hrecord ↦ ?_, fun n r record hr _ ↦ ⟨r, hr, rfl⟩,
        fun u _ ↦ .inl rfl, fun u payload hpayload ↦ .inl hpayload, fun hf ↦ hf⟩
      have hne : t ≠ c.transaction := by
        rintro rfl
        rw [hready.found] at hrecord
        cases hrecord
      simpa [LedgerFiles.setCommit, hne] using hrecord
  | sealed at_ hsealed =>
      have hfresh : f.commits c.transaction = .absent := hsealed.ready.found
      refine ⟨fun t record hrecord ↦ ?_, fun n r record hr hrecord ↦ ?_, fun u _ ↦ ?_,
        fun u payload hpayload ↦ ?_, fun hf n r hr ↦ ?_⟩
      · have hne : t ≠ c.transaction := by
          rintro rfl
          rw [hfresh] at hrecord
          cases hrecord
        simpa [hsealed.commits, hne] using hrecord
      · rcases hsealed.names n with hsame | ⟨⟨d, hd, rfl⟩, -⟩
        · exact ⟨r, hsame ▸ hr, rfl⟩
        · -- The name is reserved by the transaction that commits.
          obtain ⟨-, hholds⟩ := (hsealed.ready.passed d hd).resolve_left List.not_mem_nil
          obtain ⟨r', hr', howner⟩ := (hholds rfl).owner
          rw [hr] at hr'
          obtain rfl := JsonFile.holds.inj hr'
          rw [howner, hfresh] at hrecord
          cases hrecord
      · exact .inl (congrFun hsealed.payloads u)
      · exact .inl (hsealed.payloads ▸ hpayload)
      · rcases hsealed.names n with hsame | ⟨-, hcompact⟩
        · exact hf n r (hsame ▸ hr)
        · rw [hcompact] at hr
          cases hr

theorem evolves_publishFile {uri : Path} (payload : Payload) (h : uri ∉ used) :
    Evolves used (some uri) f (f.setPayload uri (some payload)) where
  commits _ _ h := h
  names _ r _ h _ := ⟨r, h, rfl⟩
  payloads u hu := by
    have hne : u ≠ uri := fun heq ↦ h (heq ▸ hu)
    exact .inl (by simp [LedgerFiles.setPayload, hne])
  stored u payload hpayload := by
    by_cases hu : u = uri
    · exact .inr (hu ▸ rfl)
    · exact .inl (by simpa [LedgerFiles.setPayload, hu] using hpayload)
  strip h := h

/-- **Every operation** keeps records, committed names and used paths. -/
theorem evolves_run {call : LedgerCall} {ms : List Moment}
    (hstrip : ∀ n r, f.names n = .holds (.reserved r) →
      Text.strip r.transactionId = r.transactionId)
    (hfresh : ∀ uri ∈ call.stores, uri ∉ used) (hrun : call.run L f ms = some g) :
    Evolves used call.stores f g := by
  cases call with
  | reserve c =>
      obtain ⟨⟨g, pc⟩, hcall, rfl⟩ := Option.map_eq_some_iff.mp hrun
      exact evolves_reserve (PublishCall.reserve_of_run hcall).outcome
  | publishFile uri payload =>
      obtain rfl := Option.some.inj hrun
      exact evolves_publishFile payload (hfresh uri rfl)
  | attachProvisional c =>
      obtain ⟨⟨g, pc⟩, hcall, rfl⟩ := Option.map_eq_some_iff.mp hrun
      exact evolves_attach (PublishCall.attach_of_run hcall).outcome
  | commit c =>
      obtain ⟨⟨g, pc⟩, hcall, rfl⟩ := Option.map_eq_some_iff.mp hrun
      exact evolves_commit (CommitCall.trace_of_run hcall).outcome
  | abort c =>
      obtain ⟨⟨g, pc⟩, hcall, rfl⟩ := Option.map_eq_some_iff.mp hrun
      exact evolves_sweeps (AbortCall.trace_of_run hcall).removes fun t ht ↦ ht.2
  | scavenge c =>
      obtain ⟨⟨g, pc⟩, hcall, rfl⟩ := Option.map_eq_some_iff.mp hrun
      cases ms with
      | nil =>
          obtain ⟨rfl, -⟩ := Prod.mk.inj (Option.some.inj hcall)
          exact .refl f
      | cons m ms =>
          have hremoves := ScavengeCall.removes_of_run hstrip hcall
          exact evolves_sweeps hremoves fun t ht ↦ ht.uncommitted

end Operations

/-! ## Runs -/

/-- What an operation does to the Project run. -/
theorem step_cases {op : LedgerOp} (hstep : p.step P op = some q) :
    ∃ f, op.call.dictionary ∧ (∀ uri ∈ op.call.stores, uri ∉ p.stored) ∧
      op.call.run (P.ledger op.caseRunId) (p.view (P.safeSegment op.caseRunId)) op.steps = some f ∧
        q = { p.put (P.safeSegment op.caseRunId) f with
          stored := op.call.stores.toList ++ p.stored } := by
  simp only [step] at hstep
  split_ifs at hstep with hcall
  obtain ⟨f, hf, rfl⟩ := Option.map_eq_some_iff.mp hstep
  exact ⟨f, hcall.1, hcall.2, hf, rfl⟩

/-- **What an operation keeps.** -/
theorem later_of_step {op : LedgerOp} (hp : p.Inv P) (hstep : p.step P op = some q) :
    Later p q := by
  obtain ⟨f, -, hfresh, hrun, rfl⟩ := step_cases hstep
  have hevolves := evolves_run (hp.strip _) hfresh hrun
  refine ⟨hevolves.commits, fun dir n r record hr hrecord ↦ ?_, hevolves.payloads,
    fun u hu ↦ List.mem_append_right _ hu⟩
  by_cases hdir : dir = P.safeSegment op.caseRunId
  · subst hdir
    simpa [put] using hevolves.names n r record hr hrecord
  · exact ⟨r, by simpa [put, hdir] using hr, rfl⟩

/-- A commit record that is there was there before, or the operation is the commit that has
sealed it. -/
theorem record_of_run {L : PublicationLedger} {f g : LedgerFiles} {call : LedgerCall}
    {ms : List Moment} {t : String} {record : CommitRecord}
    (hstrip : ∀ n r, f.names n = .holds (.reserved r) →
      Text.strip r.transactionId = r.transactionId)
    (hrun : call.run L f ms = some g) (hrecord : g.commits t = .holds record) :
    f.commits t = .holds record ∨ ∃ c at_, call = .commit c ∧ c.Sealed L f at_ g ∧
      c.transaction = t ∧ record = c.record L at_ := by
  cases call with
  | reserve c =>
      obtain ⟨⟨g, pc⟩, hcall, rfl⟩ := Option.map_eq_some_iff.mp hrun
      left
      cases (PublishCall.reserve_of_run hcall).outcome with
      | same => exact hrecord
      | created => exact hrecord
  | publishFile uri payload =>
      obtain rfl := Option.some.inj hrun
      exact .inl hrecord
  | attachProvisional c =>
      obtain ⟨⟨g, pc⟩, hcall, rfl⟩ := Option.map_eq_some_iff.mp hrun
      left
      cases (PublishCall.attach_of_run hcall).outcome with
      | same => exact hrecord
      | attached => exact hrecord
  | commit c =>
      obtain ⟨⟨g, pc⟩, hcall, rfl⟩ := Option.map_eq_some_iff.mp hrun
      cases (CommitCall.trace_of_run hcall).outcome with
      | same => exact .inl hrecord
      | opened =>
          by_cases ht : t = c.transaction
          · subst ht
            simp [LedgerFiles.setCommit] at hrecord
          · exact .inl (by simpa [LedgerFiles.setCommit, ht] using hrecord)
      | sealed at_ hsealed =>
          by_cases ht : t = c.transaction
          · subst ht
            simp only [hsealed.commits, Function.update_self, JsonFile.holds.injEq] at hrecord
            exact .inr ⟨c, at_, rfl, hsealed, rfl, hrecord.symm⟩
          · exact .inl (by simpa [hsealed.commits, ht] using hrecord)
  | abort c =>
      obtain ⟨⟨g, pc⟩, hcall, rfl⟩ := Option.map_eq_some_iff.mp hrun
      exact .inl ((AbortCall.trace_of_run hcall).removes.commits ▸ hrecord)
  | scavenge c =>
      obtain ⟨⟨g, pc⟩, hcall, rfl⟩ := Option.map_eq_some_iff.mp hrun
      cases ms with
      | nil =>
          obtain ⟨rfl, -⟩ := Prod.mk.inj (Option.some.inj hcall)
          exact .inl hrecord
      | cons m ms => exact .inl ((ScavengeCall.removes_of_run hstrip hcall).commits ▸ hrecord)

/-- A record that has just been written. -/
theorem record_of_sealed {caseRunId : String} {c : CommitCall} {at_ : Time} {f : LedgerFiles}
    {paths : List Path} (hp : p.Inv P)
    (h : c.Sealed (P.ledger caseRunId) (p.view (P.safeSegment caseRunId)) at_ f) :
    ProjectFiles.Record P { p.put (P.safeSegment caseRunId) f with stored := paths ++ p.stored }
      caseRunId c c.transaction := by
  have hpassed : ∀ d ∈ c.refs,
      CommitCall.Validated (P.ledger caseRunId) (p.view (P.safeSegment caseRunId)) d ∧
        c.Holds (p.view (P.safeSegment caseRunId)) d := by
    intro d hd
    obtain ⟨hvalidated, hholds⟩ := (h.ready.passed d hd).resolve_left List.not_mem_nil
    exact ⟨hvalidated, hholds rfl⟩
  refine ⟨rfl, fun d hd ↦ (hpassed d hd).1.located, fun d hd ↦ ?_, fun d hd ↦ ?_,
    fun d hd payload hpayload ↦ ?_⟩
  · obtain ⟨r, hr, hsame⟩ := (hpassed d hd).2.owner
    simp only [put, Function.update_self]
    rcases h.names d.1 with hkept | ⟨-, hcompact⟩
    · exact ⟨r, hkept.trans hr, hsame⟩
    · exact ⟨_, hcompact, rfl⟩
  · obtain ⟨payload, hpayload, -⟩ := (hpassed d hd).1.checked
    exact List.mem_append_right _ (hp.stored _ _ hpayload)
  · obtain ⟨payload', hpayload', hcontent⟩ := (hpassed d hd).1.checked
    obtain rfl : payload = payload' := by
      have hsame : f.payloads d.2.uri = some payload' := by
        rw [h.payloads]
        exact hpayload'
      exact Option.some.inj (hpayload.symm.trans hsame)
    exact PublicationLedger.content_of_contentError hcontent

/-- **An operation keeps the invariant.** -/
theorem Inv.step {op : LedgerOp} (hp : p.Inv P) (hstep : p.step P op = some q) : q.Inv P := by
  have hlater := later_of_step hp hstep
  obtain ⟨f, -, hfresh, hrun, rfl⟩ := step_cases hstep
  have hevolves := evolves_run (hp.strip _) hfresh hrun
  refine ⟨fun dir n r hr ↦ ?_, fun u payload hpayload ↦ ?_, fun t record hrecord ↦ ?_⟩
  · by_cases hdir : dir = P.safeSegment op.caseRunId
    · subst hdir
      exact hevolves.strip (hp.strip _) n r (by simpa [put] using hr)
    · exact hp.strip dir n r (by simpa [put, hdir] using hr)
  · rcases hevolves.stored u payload hpayload with hbefore | hstored
    · exact List.mem_append_right _ (hp.stored u payload hbefore)
    · exact List.mem_append_left _ (Option.mem_toList.mpr hstored)
  · rcases record_of_run (hp.strip _) hrun hrecord with hbefore | ⟨c, at_, -, hsealed, rfl, rfl⟩
    · obtain ⟨caseRunId, c, at_, hrec, hrecorded⟩ := hp.records t record hbefore
      exact ⟨caseRunId, c, at_, hrec, hrecorded.later hbefore hlater⟩
    · exact ⟨op.caseRunId, c, at_, rfl, record_of_sealed hp hsealed⟩

theorem inv_empty : empty.Inv P where
  strip _ _ _ h := by cases h
  stored _ _ h := by cases h
  records _ _ h := by cases h

/-- The invariant of every run. -/
theorem inv_of_reach (h : Machine.Reach (step P) Machine.anyStep empty p) : p.Inv P :=
  h.invariant inv_empty fun _ _ _ hp _ hstep ↦ hp.step hstep

/-- What a run keeps. -/
theorem later_of_reach (hp : p.Inv P) (h : Machine.Reach (step P) Machine.anyStep p q) :
    Later p q :=
  (h.invariant (I := fun r ↦ r.Inv P ∧ Later p r) ⟨hp, .refl p⟩ fun _ _ _ hr _ hstep ↦
    ⟨hr.1.step hstep, hr.2.trans (later_of_step hr.1 hstep)⟩).2

/-! ## Receipts -/

/-- A receipt of a record was issued by the Case run that has written the record. -/
theorem mem_receipts {L : PublicationLedger} {c : CommitCall} {at_ : Time} {name : String}
    {receipt : ArtifactPublicationReceipt} (h : (name, receipt) ∈ c.receipts L at_) :
    receipt.caseRunId = L.caseRunId ∧ (name, receipt.ref) ∈ c.refs := by
  obtain ⟨d, hd, heq⟩ := List.mem_map.mp h
  obtain ⟨rfl, rfl⟩ := Prod.mk.inj heq
  exact ⟨rfl, hd⟩

theorem mem_of_lookup {α : Type} {l : List (String × α)} {key : String} {a : α}
    (h : l.lookup key = some a) : (key, a) ∈ l := by
  obtain ⟨l₁, l₂, rfl, -⟩ := List.lookup_eq_some_iff.mp h
  simp

/-- What `verify` has found when it returns `True`. -/
theorem verify_spec {L : PublicationLedger} {f : LedgerFiles} {receipt : ArtifactPublicationReceipt}
    (h : L.verify f receipt = .ok true) :
    receipt.projectRunId = L.projectRunId ∧ receipt.caseRunId = L.caseRunId ∧
      ∃ record, f.commits receipt.transactionId = .holds record ∧
        record.receipts.lookup receipt.artifactName = some receipt ∧
          (receipt.ref.backend ≠ "filesystem" ∨ L.bytesAgree f receipt.ref) := by
  unfold PublicationLedger.verify at h
  split_ifs at h with hids
  · cases h
  obtain ⟨hproject, hcase, -⟩ : receipt.projectRunId = L.projectRunId ∧
      receipt.caseRunId = L.caseRunId ∧ receipt.authorityNamespace = L.authorityNamespace := by
    simpa only [not_or, not_not] using hids
  refine ⟨hproject, hcase, ?_⟩
  cases hfile : f.commits receipt.transactionId with
  | absent => simp [hfile, JsonFile.read, Except.map] at h
  | opened => simp [hfile, JsonFile.read, Except.map] at h
  | holds record =>
      cases hlookup : record.receipts.lookup receipt.artifactName with
      | none => simp [hfile, JsonFile.read, Except.map, hlookup] at h
      | some authoritative =>
          simp only [hfile, JsonFile.read, Except.map, hlookup, Except.ok.injEq, Bool.and_eq_true,
            Bool.or_eq_true, decide_eq_true_eq] at h
          obtain ⟨-, rfl, hbytes⟩ := h
          exact ⟨record, rfl, hlookup, hbytes⟩

/-- **What verifies is genuine.** -/
theorem genuine_of_verify (hp : p.Inv P) {caseRunId : String}
    {receipt : ArtifactPublicationReceipt}
    (h : (P.ledger caseRunId).verify (p.view (P.safeSegment caseRunId)) receipt = .ok true) :
    receipt.caseRunId = caseRunId ∧ p.Genuine P receipt := by
  obtain ⟨hproject, hcase, record, hrecord, hlookup, hbytes⟩ := verify_spec h
  obtain ⟨caseRunId', c, at_, rfl, hwritten⟩ := hp.records _ record hrecord
  obtain ⟨hcase', hmem⟩ := mem_receipts (mem_of_lookup hlookup)
  obtain rfl : caseRunId = caseRunId' := hcase.symm.trans hcase'
  have hcase : receipt.caseRunId = caseRunId := hcase
  refine ⟨hcase, hproject, ⟨c, at_, hwritten.transaction, ?_, ?_⟩, ?_⟩
  · rw [hcase]
    exact hrecord
  · rw [hcase]
    exact hlookup
  · have hbackend : receipt.ref.backend = "filesystem" := by
      have hlocated := hwritten.located _ hmem
      unfold PublicationLedger.locationError at hlocated
      split_ifs at hlocated with hne
      exact not_not.mp hne
    have hagree := hbytes.resolve_left (not_not.mpr hbackend)
    simp only [PublicationLedger.bytesAgree, Bool.and_eq_true, Option.any_eq_true] at hagree
    obtain ⟨-, payload, hpayload, -⟩ := hagree
    exact ⟨payload, hpayload, hwritten.bytes _ hmem payload hpayload⟩

/-- **A name is sealed once.** -/
theorem seals_unique (hp : p.Inv P) {caseRunId name t t' : String}
    (h : p.Seals caseRunId name t) (h' : p.Seals caseRunId name t') : t = t' := by
  have howner : ∀ {t}, p.Seals caseRunId name t →
      ∃ r, p.names (P.safeSegment caseRunId) name = .holds r ∧ r.transactionId = t := by
    rintro t ⟨record, receipt, hrecord, hmem, rfl⟩
    obtain ⟨caseRunId', c, at_, rfl, hwritten⟩ := hp.records t record hrecord
    obtain ⟨hcase, href⟩ := mem_receipts hmem
    rw [hcase]
    exact hwritten.held _ href
  obtain ⟨r, hr, rfl⟩ := howner h
  obtain ⟨r', hr', rfl⟩ := howner h'
  rw [JsonFile.holds.inj (hr.symm.trans hr')]

/-- What a commit that has returned leaves behind. -/
theorem returned_spec {L : PublicationLedger} {c : CommitCall} {f g : LedgerFiles}
    {receipts : Receipts} (hnodup : (c.refs.map (·.1)).Nodup)
    (h : c.Returned L f receipts g) :
    c.transaction ≠ "" ∧ (∃ existing, g.commits c.transaction = .holds existing ∧
      existing.receipts = receipts ∧ c.Restores existing) ∧
        ∀ d ∈ c.refs, CommitCall.Validated L g d := by
  cases h with
  | restored h =>
      exact ⟨h.transaction, h.found, fun d hd ↦
        ((h.passed d hd).resolve_left List.not_mem_nil).1⟩
  | issued at_ h =>
      refine ⟨h.ready.transaction, ⟨c.record L at_, by simp [h.commits], rfl,
        CommitCall.restores_record hnodup at_⟩, fun d hd ↦ ?_⟩
      exact ((h.ready.passed d hd).resolve_left List.not_mem_nil).1.of_payloads h.payloads

/-- Bytes that are still stored check out as before. -/
theorem validated_later {caseRunId : String} {d : String × DataRef} (hp : p.Inv P)
    (hlater : Later p q)
    (h : CommitCall.Validated (P.ledger caseRunId) (p.view (P.safeSegment caseRunId)) d)
    (hstored : (q.payloads d.2.uri).isSome) :
    CommitCall.Validated (P.ledger caseRunId) (q.view (P.safeSegment caseRunId)) d := by
  obtain ⟨hlocated, payload, hpayload, hcontent⟩ := h
  refine ⟨hlocated, payload, ?_, hcontent⟩
  rcases hlater.payloads _ (hp.stored _ _ hpayload) with hsame | hgone
  · exact hsame.trans hpayload
  · rw [hgone] at hstored
    cases hstored

/-- **A retry** after any further operations. -/
theorem recommits (hp : p.Inv P) {caseRunId : String} {c c' : CommitCall} {ms : List Moment}
    {receipts : Receipts} {q' : ProjectFiles} (h : p.Commits P caseRunId c ms receipts q)
    (hlater : Later q q') (ht : c'.transaction = c.transaction)
    (hrefs : ∀ d, d ∈ c'.refs ↔ d ∈ c.refs) : q'.Recommits P caseRunId c' receipts := by
  obtain ⟨hstep, f, hrun⟩ := h
  have hq : q.Inv P := hp.step hstep
  obtain ⟨g, hnodup, -, hcall, rfl⟩ := step_cases hstep
  obtain rfl : f = g := by
    simp only [LedgerCall.run, hrun, Option.map_some] at hcall
    exact Option.some.inj hcall
  obtain ⟨htransaction, ⟨existing, hexisting, rfl, hrestores⟩, hvalidated⟩ :=
    returned_spec hnodup (CommitCall.trace_of_run hrun)
  have hexisting' : q'.commits c'.transaction = .holds existing := by
    rw [ht]
    exact hlater.commits _ _ hexisting
  refine ⟨fun ms f receipts' hrun' ↦ ?_, ⟨?_, fun hstored ↦ ?_⟩⟩
  · have hreturned : c'.Returned _ _ receipts' f := CommitCall.trace_of_run hrun'
    exact (hreturned.of_holds hexisting').1
  · rintro ⟨ms, f, -, hrun'⟩ d hd
    have hreturned : c'.Returned _ _ existing.receipts f := CommitCall.trace_of_run hrun'
    obtain ⟨payload, hpayload, -⟩ := ((hreturned.of_holds hexisting').2 d hd).checked
    exact Option.isSome_iff_exists.mpr ⟨payload, hpayload⟩
  · have hall : ∀ d ∈ c'.refs, CommitCall.Validated (P.ledger caseRunId)
        (q'.view (P.safeSegment caseRunId)) d := by
      intro d hd
      refine validated_later hq hlater ?_ (hstored d hd)
      simpa [view, put] using hvalidated d ((hrefs d).mp hd)
    obtain ⟨ms, hms, hretry⟩ := CommitCall.retry_returns (f := q'.view (P.safeSegment caseRunId))
      (ht ▸ htransaction) hexisting' (hrestores.congr hrefs) hall
    exact ⟨ms, _, hms, hretry⟩

/-- **Receipts are genuine.**  What verifies is listed in the record of its own Case run and
has its bytes; a retry of a commit gives the same receipts as long as the bytes are there; a
name is sealed by one transaction. -/
theorem receipts_genuine (P : ProjectLedgers) {p : ProjectFiles}
    (h : Machine.Reach (step P) Machine.anyStep empty p) :
    (∀ caseRunId receipt,
      (P.ledger caseRunId).verify (p.view (P.safeSegment caseRunId)) receipt = .ok true →
        receipt.caseRunId = caseRunId ∧ p.Genuine P receipt) ∧
    (∀ caseRunId c ms receipts q, p.Commits P caseRunId c ms receipts q →
      ∀ q', Machine.Reach (step P) Machine.anyStep q q' → ∀ c' : CommitCall,
        c'.transaction = c.transaction → (∀ d, d ∈ c'.refs ↔ d ∈ c.refs) →
          q'.Recommits P caseRunId c' receipts) ∧
    ∀ caseRunId name t t', p.Seals caseRunId name t → p.Seals caseRunId name t' → t = t' := by
  have hp := inv_of_reach h
  refine ⟨fun k receipt hverify ↦ genuine_of_verify hp hverify, ?_,
    fun k name t t' hseals hseals' ↦ seals_unique hp hseals hseals'⟩
  intro k c ms receipts q hcommits q' hreach c' ht hrefs
  have hq : q.Inv P := hp.step hcommits.1
  exact recommits hp hcommits (later_of_reach hq hreach) ht hrefs

section Runs

open LedgerState (sample sampleRef sampleCommitCall)

/-- The ledgers of the Project run of `sample`. -/
def sampleLedgers : ProjectLedgers where
  root := ["artifacts"]
  authorityNamespace := "project"
  projectRunId := "run"
  safeSegment s := s
  sha256 s := s

/-- `model` is reserved by `t` and its bytes are stored. -/
def staged : List LedgerOp :=
  [⟨"case", .reserve ⟨"model", "t", "", 0, 1, sampleRef, ⟨3, "sha256:00"⟩⟩, [{}, {}]⟩,
    ⟨"case", .publishFile sampleRef.uri ⟨3, "sha256:00"⟩, []⟩]

/-- The steps of an abort of `u` that is given the ref of `t`. -/
def foreignAbort : LedgerOp :=
  ⟨"case", .abort ⟨"u", [("model", sampleRef)], "aborted", []⟩,
    [{}, {}, {}, {}, { name := "model" }, {}, {}]⟩

/-- The receipts of the commit of `t`. -/
def sampleReceipts : Receipts := sampleCommitCall.receipts (sampleLedgers.ledger "case") 1

/-- A commit of `t` can be made. -/
theorem commits_sample : ∃ p q, Machine.Reach (step sampleLedgers) Machine.anyStep empty p ∧
    p.Commits sampleLedgers "case" sampleCommitCall (List.replicate 11 {}) sampleReceipts q ∧
      (sampleLedgers.ledger "case").verify (q.view "case")
          (sampleLedgers.ledger "case" |>.receipt "t" "" 0 [] 1 "model" sampleRef) = .ok true ∧
        ∃ q', q.step sampleLedgers foreignAbort = some q' ∧ q'.payloads sampleRef.uri = none := by
  have hend : ((Machine.run (step sampleLedgers) empty staged).bind fun p ↦
      (p.step sampleLedgers ⟨"case", .commit sampleCommitCall, List.replicate 11 {}⟩).bind fun q ↦
        (q.step sampleLedgers foreignAbort).map fun q' ↦ decide
          (((Machine.run (sampleCommitCall.alone (sampleLedgers.ledger "case"))
            (p.view "case", .readCommit) (List.replicate 11 {})).map (·.2)) =
              some (.returned sampleReceipts) ∧
            ((sampleLedgers.ledger "case").verify (q.view "case")
              (sampleLedgers.ledger "case" |>.receipt "t" "" 0 [] 1 "model" sampleRef)).toOption =
                some true ∧ q'.payloads sampleRef.uri = none)) = some true := by
    decide +kernel
  obtain ⟨p, hp, hend⟩ := Option.bind_eq_some_iff.mp hend
  obtain ⟨q, hq, hend⟩ := Option.bind_eq_some_iff.mp hend
  obtain ⟨q', hq', hend⟩ := Option.map_eq_some_iff.mp hend
  obtain ⟨hreturned, hverify, hgone⟩ := of_decide_eq_true hend
  obtain ⟨⟨f, pc⟩, hrun, rfl⟩ := Option.map_eq_some_iff.mp hreturned
  refine ⟨p, q, Machine.reach_of_run_any hp, ⟨hq, f, hrun⟩, ?_, q', hq', hgone⟩
  generalize (sampleLedgers.ledger "case").verify (q.view "case") _ = result at hverify ⊢
  cases result with
  | error e => cases hverify
  | ok b => exact congrArg Except.ok (Option.some.inj hverify)

/-- A retry of a commit whose bytes an abort of another transaction has deleted does not
return. -/
theorem retry_refused : ∃ p q q', Machine.Reach (step sampleLedgers) Machine.anyStep empty p ∧
    p.Commits sampleLedgers "case" sampleCommitCall (List.replicate 11 {}) sampleReceipts q ∧
      Machine.Reach (step sampleLedgers) Machine.anyStep q q' ∧
        ¬ ∃ ms f, (∀ m ∈ ms, m.fails = false) ∧
          Machine.run (sampleCommitCall.alone (sampleLedgers.ledger "case"))
            (q'.view (sampleLedgers.safeSegment "case"), .readCommit) ms =
              some (f, .returned sampleReceipts) := by
  obtain ⟨p, q, hp, hcommits, -, q', hq', hgone⟩ := commits_sample
  have hreach : Machine.Reach (step sampleLedgers) Machine.anyStep q q' :=
    Machine.Reach.single trivial hq'
  have hinv := inv_of_reach hp
  have hretry : q'.Recommits sampleLedgers "case" sampleCommitCall sampleReceipts :=
    recommits hinv hcommits (later_of_reach (hinv.step hcommits.1) hreach) rfl fun _ ↦ Iff.rfl
  refine ⟨p, q, q', hp, hcommits, hreach, fun h ↦ ?_⟩
  have hstored := hretry.2.mp h ("model", sampleRef) List.mem_cons_self
  rw [hgone] at hstored
  cases hstored

/-- The receipt of a commit verifies and is genuine, and a retry gives it again. -/
theorem receipts_genuine_after_commit : ∃ p q : ProjectFiles,
    p.Commits sampleLedgers "case" sampleCommitCall (List.replicate 11 {}) sampleReceipts q ∧
      q.Genuine sampleLedgers
        (sampleLedgers.ledger "case" |>.receipt "t" "" 0 [] 1 "model" sampleRef) ∧
      q.Recommits sampleLedgers "case" sampleCommitCall sampleReceipts := by
  obtain ⟨p, q, hp, hcommits, hverify, -⟩ := commits_sample
  have hq := hp.tail trivial hcommits.1
  exact ⟨p, q, hcommits, ((receipts_genuine sampleLedgers hq).1 _ _ hverify).2,
    (receipts_genuine sampleLedgers hp).2.1 _ _ _ _ _ hcommits q .refl sampleCommitCall rfl
      fun _ ↦ Iff.rfl⟩

end Runs

end ProjectFiles

end Blackbase.Resources.Artifacts
