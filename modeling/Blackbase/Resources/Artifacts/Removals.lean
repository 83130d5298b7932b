import Blackbase.Resources.Artifacts.Operations

/-!
# What an abort and a scavenger remove

An abort that is alone removes the names of its transaction and the refs it is given, if
there is no commit record.  A scavenger that is alone removes what belongs to transactions
without a commit record all of whose reservations it takes for stale.
-/

namespace Blackbase.Resources.Artifacts

/-- `abort` alone on the files. -/
def AbortCall.alone (L : PublicationLedger) (c : AbortCall) (s : LedgerFiles × AbortPc)
    (m : Moment) : Option (LedgerFiles × AbortPc) :=
  c.step L m s.1 s.2

/-- `scavenge_stale_reservations` alone on the files. -/
def ScavengeCall.alone (L : PublicationLedger) (c : ScavengeCall) (s : LedgerFiles × ScavengePc)
    (m : Moment) : Option (LedgerFiles × ScavengePc) :=
  c.step L m s.1 s.2

variable {L : PublicationLedger}

/-- Nothing is removed but name records of the transactions `T` and files at the paths `D`. -/
structure LedgerFiles.Sweeps (T : String → Prop) (D : Path → Prop) (f g : LedgerFiles) : Prop where
  commits : g.commits = f.commits
  names : ∀ n, g.names n = f.names n ∨
    g.names n = .absent ∧ ∃ r, f.names n = .holds r ∧ T r.transactionId
  payloads : ∀ u, g.payloads u = f.payloads u ∨ g.payloads u = none ∧ D u

namespace LedgerFiles.Sweeps

variable {T T' : String → Prop} {D D' : Path → Prop} {f g h : LedgerFiles}

theorem refl (f : LedgerFiles) : Sweeps T D f f where
  commits := rfl
  names _ := .inl rfl
  payloads _ := .inl rfl

theorem trans (hfg : Sweeps T D f g) (hgh : Sweeps T D g h) : Sweeps T D f h where
  commits := hgh.commits.trans hfg.commits
  names n := by
    rcases hgh.names n with hsame | ⟨hgone, r, hr, hT⟩
    · rw [hsame]
      exact hfg.names n
    · rcases hfg.names n with hsame | ⟨habsent, -⟩
      · exact .inr ⟨hgone, r, hsame ▸ hr, hT⟩
      · rw [habsent] at hr
        cases hr
  payloads u := by
    rcases hgh.payloads u with hsame | hgone
    · rw [hsame]
      exact hfg.payloads u
    · exact .inr hgone

theorem mono (hfg : Sweeps T D f g) (hT : ∀ t, T t → T' t) (hD : ∀ u, D u → D' u) :
    Sweeps T' D' f g where
  commits := hfg.commits
  names n := (hfg.names n).imp_right fun ⟨hgone, r, hr, ht⟩ ↦ ⟨hgone, r, hr, hT _ ht⟩
  payloads u := (hfg.payloads u).imp_right fun ⟨hgone, hu⟩ ↦ ⟨hgone, hD u hu⟩

theorem tombstone (t : String) (file : JsonFile Tombstone) :
    Sweeps T D f (f.setTombstone t file) where
  commits := rfl
  names _ := .inl rfl
  payloads _ := .inl rfl

theorem unlink {name : String} {r : NameRecord} (hr : f.names name = .holds r)
    (hT : T r.transactionId) : Sweeps T D f (f.setName name .absent) where
  commits := rfl
  names n := by
    by_cases hn : n = name
    · subst hn
      exact .inr ⟨by simp [LedgerFiles.setName], r, hr, hT⟩
    · exact .inl (by simp [LedgerFiles.setName, hn])
  payloads _ := .inl rfl

theorem delete {uri : Path} (hD : D uri) : Sweeps T D f (f.setPayload uri none) where
  commits := rfl
  names _ := .inl rfl
  payloads u := by
    by_cases hu : u = uri
    · subst hu
      exact .inr ⟨by simp [LedgerFiles.setPayload], hD⟩
    · exact .inl (by simp [LedgerFiles.setPayload, hu])

end LedgerFiles.Sweeps

/-! ## Abort -/

namespace AbortCall

variable {c : AbortCall} {f g : LedgerFiles}

/-- The path of a ref that the call has been given for a name. -/
def Given (c : AbortCall) (u : Path) : Prop := ∃ r ∈ c.refs, r.2.uri = u

/-- What an abort alone may remove: the names of its transaction, if it has no commit record,
and the refs it has been given. -/
abbrev Removes (c : AbortCall) (f : LedgerFiles) : LedgerFiles → Prop :=
  LedgerFiles.Sweeps (fun t ↦ t = c.transaction ∧ f.commits t = .absent) c.Given f

/-- What is known where the abort is.  It has started on the files `f` and is alone. -/
structure Trace (c : AbortCall) (f g : LedgerFiles) (pc : AbortPc) : Prop where
  removes : c.Removes f g
  absent : (∀ e, pc ≠ .raised e) → pc ≠ .checkCommit → pc ≠ .returned →
    f.commits c.transaction = .absent
  unlink : ∀ name todo, pc = .unlinkName name todo →
    ∃ r, g.names name = .holds r ∧ r.transactionId = c.transaction
  delete : ∀ ref todo, pc = .deleteRef ref todo → c.Given ref.uri

/-- Where nothing is about to be removed. -/
theorem trace_idle {pc : AbortPc} (hremoves : c.Removes f g)
    (habsent : f.commits c.transaction = .absent) (hunlink : ∀ name todo, pc ≠ .unlinkName name todo)
    (hdelete : ∀ ref todo, pc ≠ .deleteRef ref todo) : c.Trace f g pc where
  removes := hremoves
  absent _ _ _ := habsent
  unlink name todo hpc := absurd hpc (hunlink name todo)
  delete ref todo hpc := absurd hpc (hdelete ref todo)

theorem trace_raised (hremoves : c.Removes f g) (e : LedgerError) : c.Trace f g (.raised e) where
  removes := hremoves
  absent hraised := absurd rfl (hraised e)
  unlink name todo hpc := by cases hpc
  delete ref todo hpc := by cases hpc

theorem trace_afterName (hremoves : c.Removes f g) (habsent : f.commits c.transaction = .absent)
    (name : String) (todo : List String) : c.Trace f g (c.afterName L name todo) := by
  unfold afterName
  cases href : c.refs.lookup name with
  | none => exact trace_idle hremoves habsent (by simp) (by simp)
  | some ref =>
      dsimp only
      split_ifs
      · exact trace_idle hremoves habsent (by simp) (by simp)
      · obtain ⟨l₁, l₂, hl, -⟩ := List.lookup_eq_some_iff.mp href
        refine ⟨hremoves, fun _ _ _ ↦ habsent, fun n t hpc ↦ (by cases hpc), fun r t hpc ↦ ?_⟩
        obtain ⟨rfl, -⟩ := AbortPc.deleteRef.inj hpc
        exact ⟨(name, ref), by rw [hl]; simp, rfl⟩
      · exact trace_raised hremoves _

/-- **A step of an abort that is alone.** -/
theorem Trace.step {pc : AbortPc} {s' : LedgerFiles × AbortPc} {m : Moment}
    (h : c.Trace f g pc) (hstep : c.alone L (g, pc) m = some s') : c.Trace f s'.1 s'.2 := by
  have hremoves := h.removes
  have hgoes : (∀ e, pc ≠ .raised e) → pc ≠ .checkCommit → pc ≠ .returned →
      f.commits c.transaction = .absent := h.absent
  simp only [alone] at hstep
  cases pc with
  | checkCommit =>
      obtain rfl := Option.some.inj hstep
      dsimp only
      split_ifs with ht hpresent
      · exact ⟨hremoves, fun _ _ hpc ↦ absurd rfl hpc, fun n t hpc ↦ (by cases hpc),
          fun r t hpc ↦ by cases hpc⟩
      · exact trace_raised hremoves _
      · have habsent : f.commits c.transaction = .absent := by
          rw [← hremoves.commits]
          exact JsonFile.eq_absent_iff.mpr (by simpa using hpresent)
        exact trace_idle hremoves habsent (by simp) (by simp)
  | checkTombstone tombstone =>
      obtain rfl := Option.some.inj hstep
      have habsent := hgoes (by simp) (by simp) (by simp)
      dsimp only
      split_ifs
      · exact trace_idle hremoves habsent (by simp) (by simp)
      · exact trace_idle hremoves habsent (by simp) (by simp)
  | createTombstone tombstone =>
      have habsent := hgoes (by simp) (by simp) (by simp)
      simp only [AbortCall.step] at hstep
      split_ifs at hstep
      · obtain rfl := Option.some.inj hstep
        exact trace_raised hremoves _
      · obtain rfl := Option.some.inj hstep
        exact trace_idle (hremoves.trans (.tombstone _ _)) habsent (by simp) (by simp)
  | writeTombstone tombstone =>
      have habsent := hgoes (by simp) (by simp) (by simp)
      simp only [AbortCall.step] at hstep
      split_ifs at hstep
      · obtain rfl := Option.some.inj hstep
        exact trace_raised (hremoves.trans (.tombstone _ _)) _
      · obtain rfl := Option.some.inj hstep
        exact trace_raised hremoves _
      · obtain rfl := Option.some.inj hstep
        exact trace_idle (hremoves.trans (.tombstone _ _)) habsent (by simp) (by simp)
  | sweep todo =>
      have habsent := hgoes (by simp) (by simp) (by simp)
      cases todo with
      | nil =>
          obtain rfl := Option.some.inj hstep
          exact trace_idle hremoves habsent (by simp) (by simp)
      | cons first rest =>
          simp only [AbortCall.step] at hstep
          split_ifs at hstep
          obtain rfl := Option.some.inj hstep
          dsimp only
          cases hfile : g.names m.name with
          | opened => exact trace_raised hremoves _
          | absent => exact trace_afterName hremoves habsent _ _
          | holds r =>
              simp only [JsonFile.read, Option.any_some, decide_eq_true_eq]
              split_ifs with hours
              · refine ⟨hremoves, fun _ _ _ ↦ habsent, fun n t hpc ↦ ?_, fun r t hpc ↦ by cases hpc⟩
                obtain ⟨rfl, -⟩ := AbortPc.unlinkName.inj hpc
                exact ⟨r, hfile, hours⟩
              · exact trace_afterName hremoves habsent _ _
  | unlinkName name todo =>
      have habsent := hgoes (by simp) (by simp) (by simp)
      simp only [AbortCall.step] at hstep
      split_ifs at hstep
      · obtain rfl := Option.some.inj hstep
        exact trace_raised hremoves _
      · obtain rfl := Option.some.inj hstep
        obtain ⟨r, hr, hours⟩ := h.unlink name todo rfl
        have hown : r.transactionId = c.transaction ∧ f.commits r.transactionId = .absent :=
          ⟨hours, hours ▸ habsent⟩
        exact trace_afterName (hremoves.trans (.unlink hr hown)) habsent _ _
  | deleteRef ref todo =>
      have habsent := hgoes (by simp) (by simp) (by simp)
      simp only [AbortCall.step] at hstep
      split_ifs at hstep
      · obtain rfl := Option.some.inj hstep
        exact trace_raised hremoves _
      · obtain rfl := Option.some.inj hstep
        exact trace_idle (hremoves.trans (.delete (h.delete ref todo rfl))) habsent (by simp)
          (by simp)
  | returned => cases hstep
  | raised e => cases hstep

/-- Before its first step. -/
theorem trace_start (f : LedgerFiles) : c.Trace f f .checkCommit where
  removes := .refl f
  absent _ hpc := absurd rfl hpc
  unlink name todo hpc := by cases hpc
  delete ref todo hpc := by cases hpc

/-- **An abort that is alone**, wherever it has come to. -/
theorem trace_of_run {pc : AbortPc} {ms : List Moment}
    (hrun : Machine.run (c.alone L) (f, .checkCommit) ms = some (g, pc)) : c.Trace f g pc :=
  (Machine.reach_of_run_any hrun).invariant (I := fun s ↦ c.Trace f s.1 s.2) (trace_start f)
    fun _ _ _ h _ hstep ↦ h.step hstep

end AbortCall

/-! ## Scavenge -/

namespace ScavengeCall

variable {c : ScavengeCall} {f g : LedgerFiles} {observedAt : Time} {listed : List String}

/-- The scavenger takes the transaction for abandoned: it has no commit record, and all of its
reservations among the listed names are stale.  All listed records can be read. -/
structure Abandoned (c : ScavengeCall) (f : LedgerFiles) (observedAt : Time) (listed : List String)
    (t : String) : Prop where
  uncommitted : f.commits t = .absent
  readable : ∀ n ∈ listed, f.names n ≠ .opened
  stale : ∀ n ∈ listed, ∀ r, f.names n = .holds (.reserved r) → r.transactionId = t →
    c.stale observedAt r

/-- The path of a provisional ref of such a transaction. -/
def AbandonedPath (c : ScavengeCall) (f : LedgerFiles) (observedAt : Time) (listed : List String)
    (u : Path) : Prop :=
  ∃ n r ref, f.names n = .holds (.reserved r) ∧
    c.Abandoned f observedAt listed r.transactionId ∧ r.provisionalRef = some ref ∧ ref.uri = u

/-- What a scavenger alone may remove. -/
abbrev Removes (c : ScavengeCall) (f : LedgerFiles) (observedAt : Time) (listed : List String) :
    LedgerFiles → Prop :=
  LedgerFiles.Sweeps (c.Abandoned f observedAt listed) (c.AbandonedPath f observedAt listed) f

/-- The reservations that have been read, with `todo` still to come. -/
structure Reads (c : ScavengeCall) (f : LedgerFiles) (observedAt : Time) (listed todo : List String)
    (entries : List (Reservation × Bool)) : Prop where
  every : ∀ n ∈ listed, n ∈ todo ∨ ∀ r, f.names n = .holds (.reserved r) →
    r.transactionId ≠ "" → (r, c.stale observedAt r) ∈ entries
  readable : ∀ n ∈ listed, n ∈ todo ∨ f.names n ≠ .opened
  entries : ∀ e ∈ entries, e.1.transactionId ≠ "" ∧ ∃ n, f.names n = .holds (.reserved e.1)

/-- The transactions the scavenger is going to abort. -/
structure IsGroup (c : ScavengeCall) (f : LedgerFiles) (observedAt : Time) (listed : List String)
    (group : String × List Reservation) : Prop where
  strip : Text.strip group.1 = group.1
  readable : ∀ n ∈ listed, f.names n ≠ .opened
  stale : ∀ n ∈ listed, ∀ r, f.names n = .holds (.reserved r) → r.transactionId = group.1 →
    c.stale observedAt r
  members : ∀ r ∈ group.2, r.transactionId = group.1 ∧ ∃ n, f.names n = .holds (.reserved r)

/-- What is known where the scavenger is.  It has started on the files `f`, has listed the
names `listed` at `observedAt`, and is alone. -/
def Trace (c : ScavengeCall) (f : LedgerFiles) (observedAt : Time) (listed : List String)
    (g : LedgerFiles) : ScavengePc → Prop
  | .glob => False
  | .read at_ todo entries => g = f ∧ at_ = observedAt ∧ c.Reads f observedAt listed todo entries
  | .checkCommit t entries rest _ => c.Removes f observedAt listed g ∧
      ∀ group ∈ (t, entries) :: rest, c.IsGroup f observedAt listed group
  | .aborting call pc rest _ =>
      (∀ group ∈ rest, c.IsGroup f observedAt listed group) ∧
        c.Abandoned f observedAt listed call.transaction ∧
          (∀ u, call.Given u → c.AbandonedPath f observedAt listed u) ∧
            ∃ f', c.Removes f observedAt listed f' ∧ call.Trace f' g pc
  | .returned _ => c.Removes f observedAt listed g
  | .raised _ => c.Removes f observedAt listed g

/-- The groups of what has been read. -/
theorem isGroup_of_reads {entries : List (Reservation × Bool)}
    (hstrip : ∀ n r, f.names n = .holds (.reserved r) →
      Text.strip r.transactionId = r.transactionId)
    (h : c.Reads f observedAt listed [] entries) :
    ∀ group ∈ groups entries, c.IsGroup f observedAt listed group := by
  intro group hgroup
  obtain ⟨t, ht, rfl⟩ := List.mem_map.mp hgroup
  rw [List.mem_filter, List.mem_eraseDups, List.mem_map] at ht
  obtain ⟨⟨e, he, rfl⟩, hall⟩ := ht
  obtain ⟨hne, n, hn⟩ := h.entries e he
  refine ⟨hstrip n e.1 hn, fun n hn ↦ (h.readable n hn).resolve_left List.not_mem_nil,
    fun n hn r hr hsame ↦ ?_, fun r hr ↦ ?_⟩
  · have hread := ((h.every n hn).resolve_left List.not_mem_nil) r hr (hsame ▸ hne)
    have hstale := List.all_eq_true.mp hall _ hread
    simpa [hsame] using hstale
  · obtain ⟨e', he', rfl⟩ := List.mem_map.mp hr
    obtain ⟨hmem, hsame⟩ := List.mem_filter.mp he'
    exact ⟨of_decide_eq_true hsame, (h.entries e' hmem).2⟩

theorem trace_next (evidence : List ScavengeEvidence) {rest : ReservationGroups}
    (hremoves : c.Removes f observedAt listed g)
    (hrest : ∀ group ∈ rest, c.IsGroup f observedAt listed group) :
    c.Trace f observedAt listed g (next evidence rest) := by
  cases rest with
  | nil => exact hremoves
  | cons group rest => exact ⟨hremoves, hrest⟩

theorem trace_readNext {entries : List (Reservation × Bool)} {todo : List String}
    (hstrip : ∀ n r, f.names n = .holds (.reserved r) →
      Text.strip r.transactionId = r.transactionId)
    (h : c.Reads f observedAt listed todo entries) :
    c.Trace f observedAt listed f (readNext observedAt entries todo) := by
  cases todo with
  | nil => exact trace_next [] (.refl f) (isGroup_of_reads hstrip h)
  | cons name todo => exact ⟨rfl, rfl, h⟩

/-- A record that is no reservation of a transaction is passed over. -/
theorem Reads.skip {entries : List (Reservation × Bool)} {name : String} {todo : List String}
    (h : c.Reads f observedAt listed (name :: todo) entries)
    (hread : f.names name ≠ .opened)
    (hname : ∀ r, f.names name = .holds (.reserved r) → r.transactionId = "") :
    c.Reads f observedAt listed todo entries where
  every n hn := by
    rcases h.every n hn with hmem | hread
    · rcases List.mem_cons.mp hmem with rfl | htodo
      · exact .inr fun r hr hne ↦ absurd (hname r hr) hne
      · exact .inl htodo
    · exact .inr hread
  readable n hn := by
    rcases h.readable n hn with hmem | hopened
    · rcases List.mem_cons.mp hmem with rfl | htodo
      · exact .inr hread
      · exact .inl htodo
    · exact .inr hopened
  entries := h.entries

/-- One more reservation is read. -/
theorem Reads.read {entries : List (Reservation × Bool)} {name : String} {todo : List String}
    {r : Reservation} (h : c.Reads f observedAt listed (name :: todo) entries)
    (hr : f.names name = .holds (.reserved r)) (hne : r.transactionId ≠ "") :
    c.Reads f observedAt listed todo (entries ++ [(r, c.stale observedAt r)]) where
  every n hn := by
    rcases h.every n hn with hmem | hread
    · rcases List.mem_cons.mp hmem with rfl | htodo
      · refine .inr fun r' hr' _ ↦ ?_
        obtain rfl : r = r' := NameRecord.reserved.inj (JsonFile.holds.inj (hr.symm.trans hr'))
        exact List.mem_append_right _ List.mem_cons_self
      · exact .inl htodo
    · exact .inr fun r' hr' hne' ↦ List.mem_append_left _ (hread r' hr' hne')
  readable n hn := by
    rcases h.readable n hn with hmem | hopened
    · rcases List.mem_cons.mp hmem with rfl | htodo
      · exact .inr (by simp [hr])
      · exact .inl htodo
    · exact .inr hopened
  entries e he := by
    rcases List.mem_append.mp he with hmem | hlast
    · exact h.entries e hmem
    · obtain rfl := List.mem_singleton.mp hlast
      exact ⟨hne, name, hr⟩

/-- What the abort of a group may remove. -/
theorem IsGroup.abandoned {t : String} {entries : List Reservation}
    (h : c.IsGroup f observedAt listed (t, entries)) (huncommitted : f.commits t = .absent) :
    c.Abandoned f observedAt listed (abortCall t entries).transaction ∧
      ∀ u, (abortCall t entries).Given u → c.AbandonedPath f observedAt listed u := by
  have habandoned : c.Abandoned f observedAt listed t := ⟨huncommitted, h.readable, h.stale⟩
  constructor
  · have ht : (abortCall t entries).transaction = t := h.strip
    rw [ht]
    exact habandoned
  · rintro u ⟨d, hd, rfl⟩
    obtain ⟨r, hr, hsome⟩ := List.mem_filterMap.mp hd
    obtain ⟨ref, href, rfl⟩ := Option.map_eq_some_iff.mp hsome
    obtain ⟨hsame, n, hn⟩ := h.members r hr
    exact ⟨n, r, ref, hn, hsame ▸ habandoned, href, rfl⟩

/-- **A step of a scavenger that is alone.** -/
theorem Trace.step {pc : ScavengePc} {s' : LedgerFiles × ScavengePc} {m : Moment}
    (hstrip : ∀ n r, f.names n = .holds (.reserved r) →
      Text.strip r.transactionId = r.transactionId)
    (h : c.Trace f observedAt listed g pc) (hstep : c.alone L (g, pc) m = some s') :
    c.Trace f observedAt listed s'.1 s'.2 := by
  simp only [alone] at hstep
  cases pc with
  | glob => exact h.elim
  | read at_ todo entries =>
      obtain ⟨rfl, rfl, hreads⟩ := h
      cases todo with
      | nil =>
          obtain rfl := Option.some.inj hstep
          exact trace_readNext hstrip hreads
      | cons name todo =>
          obtain rfl := Option.some.inj hstep
          dsimp only
          cases hfile : g.names name with
          | opened => exact LedgerFiles.Sweeps.refl g
          | absent => exact trace_readNext hstrip (hreads.skip (by simp [hfile])
              fun r hr ↦ by simp [hfile] at hr)
          | holds record =>
              cases record with
              | committed n t at_ =>
                  exact trace_readNext hstrip (hreads.skip (by simp [hfile])
                    fun r hr ↦ by simp [hfile] at hr)
              | reserved r =>
                  simp only [JsonFile.read]
                  split_ifs with hempty
                  · refine trace_readNext hstrip (hreads.skip (by simp [hfile]) fun r' hr' ↦ ?_)
                    have hsame := NameRecord.reserved.inj (JsonFile.holds.inj
                      (hfile.symm.trans hr'))
                    exact hsame ▸ hempty
                  · exact trace_readNext hstrip (hreads.read hfile hempty)
  | checkCommit t entries rest evidence =>
      obtain rfl := Option.some.inj hstep
      obtain ⟨hremoves, hgroups⟩ := h
      have hrest : ∀ group ∈ rest, c.IsGroup f observedAt listed group := fun group hgroup ↦
        hgroups group (List.mem_cons_of_mem _ hgroup)
      dsimp only
      split_ifs with hpresent
      · exact trace_next evidence hremoves hrest
      · exact trace_next _ hremoves hrest
      · have habsent : f.commits t = .absent := by
          rw [← hremoves.commits]
          exact JsonFile.eq_absent_iff.mpr (by simpa using hpresent)
        obtain ⟨habandoned, hpaths⟩ :=
          (hgroups (t, entries) List.mem_cons_self).abandoned habsent
        exact ⟨hrest, habandoned, hpaths, g, hremoves, AbortCall.trace_start g⟩
  | aborting call pc rest evidence =>
      obtain ⟨hrest, habandoned, hpaths, f', hremoves, htrace⟩ := h
      obtain ⟨⟨g', pc'⟩, hcall, rfl⟩ := Option.map_eq_some_iff.mp hstep
      have htrace' : call.Trace f' g' pc' := htrace.step hcall
      have hremoves' : c.Removes f observedAt listed g' := hremoves.trans
        (htrace'.removes.mono (fun t ht ↦ ht.1 ▸ habandoned) hpaths)
      cases pc' with
      | returned => exact trace_next _ hremoves' hrest
      | raised e => exact hremoves'
      | _ => exact ⟨hrest, habandoned, hpaths, f', hremoves, htrace'⟩
  | returned evidence => cases hstep
  | raised e => cases hstep

/-- **A scavenger that is alone**, wherever it has come to. -/
theorem removes_of_run {pc : ScavengePc} {m : Moment} {ms : List Moment}
    (hstrip : ∀ n r, f.names n = .holds (.reserved r) →
      Text.strip r.transactionId = r.transactionId)
    (hrun : Machine.run (c.alone L) (f, .glob) (m :: ms) = some (g, pc)) :
    c.Removes f (c.now.getD m.now) m.names g := by
  rw [Machine.run_cons, Option.bind_eq_some_iff] at hrun
  obtain ⟨s, hfirst, hrun⟩ := hrun
  simp only [alone, ScavengeCall.step] at hfirst
  split_ifs at hfirst
  obtain rfl := Option.some.inj hfirst
  have hreads : c.Reads f (c.now.getD m.now) m.names m.names [] :=
    ⟨fun n hn ↦ .inl hn, fun n hn ↦ .inl hn, fun e he ↦ by cases he⟩
  have htrace : c.Trace f (c.now.getD m.now) m.names g pc :=
    (Machine.reach_of_run_any hrun).invariant
      (I := fun s ↦ c.Trace f (c.now.getD m.now) m.names s.1 s.2) (trace_readNext hstrip hreads)
      fun _ _ _ h _ hstep ↦ h.step hstrip hstep
  cases pc with
  | glob => exact htrace.elim
  | read at_ todo entries =>
      obtain ⟨rfl, -⟩ := htrace
      exact .refl g
  | checkCommit t entries rest evidence => exact htrace.1
  | aborting call pc rest evidence =>
      obtain ⟨-, habandoned, hpaths, f', hremoves, habort⟩ := htrace
      exact hremoves.trans (habort.removes.mono (fun t ht ↦ ht.1 ▸ habandoned) hpaths)
  | returned evidence => exact htrace
  | raised e => exact htrace

end ScavengeCall

end Blackbase.Resources.Artifacts
