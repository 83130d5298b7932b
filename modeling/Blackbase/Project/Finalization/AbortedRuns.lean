import Blackbase.Project.Finalization.Aborted

/-!
# Runs of an aborted transaction

The steps of `publish`, and with them the whole runs: after an orderly run in which `abort` has
returned and every call of `publish` is over, the names and the bytes of the ledger are those from
before the transaction, and no call of `publish` that `abort` has cut off has returned.  Runs that
are not orderly leave bytes behind, also after a single failure or none.
-/

namespace Blackbase.Project

open Resources Resources.Artifacts

namespace Staging

variable {transactionId : String} {f : LedgerFiles} {L : PublicationLedger} {taken : List String}
  {s t : Staging} {i : ℕ} {c : PublishCall} {pc pc' : StagePc} {m : Moment}

/-! ## Steps of `publish` -/

theorem creating_eq {name : String} (h : (StagingThread.publish c pc).creating = some name) :
    name = c.artifactName := by
  cases pc
  case writeReservation | recordName => exact (Option.some.inj h).symm
  all_goals cases h

/-- Inside the lock, the file of a name that has not been recorded is as it was. -/
theorem Inv.untouched (h : s.Inv transactionId f) (hi : s.threads[i]? = some (.publish c pc))
    (hlocked : s.Locked i c) (hcreating : (StagingThread.publish c pc).creating = none) :
    s.files.names c.artifactName = f.names c.artifactName := by
  obtain hsame | hmem | ⟨j, th, hj, hth⟩ := h.names c.artifactName
  · exact hsame
  · exact absurd hmem hlocked.unrecorded
  · have hlock := (h.threads j th hj).locked hth
    obtain rfl := Option.some.inj (hlocked.lock.symm.trans hlock)
    rw [Option.some.inj (hj.symm.trans hi), hcreating] at hth
    cases hth

/-- `publish` writes to the file of its own name. -/
theorem Inv.writeName (h : s.Inv transactionId f) (hi : s.threads[i]? = some (.publish c pc))
    {file : JsonFile NameRecord} (hmay : s.lock = some i ∨ c.artifactName ∈ s.reservedNames)
    (hrecorded : c.artifactName ∈ s.reservedNames → s.files.names c.artifactName ≠ .absent ∧
      (StagingThread.publish c pc).owning = some c.artifactName ∧ ∃ r, file = .holds (.reserved r) ∧ Reservation.Of transactionId c.artifactName r)
    (hcreates : c.artifactName ∈ s.reservedNames ∨
      (StagingThread.publish c pc').creating = some c.artifactName)
    (hstoring : ∀ uri, (StagingThread.publish c pc).storing = some uri →
      (StagingThread.publish c pc').storing = some uri)
    (howning : ∀ name, (StagingThread.publish c pc').owning = some name →
      (StagingThread.publish c pc).owning = some name)
    (hreturns : pc' ≠ .returned)
    (hgood : ({ s with
      files := s.files.setName c.artifactName file
      threads := s.threads.set i (.publish c pc') } : Staging).PublishInv transactionId f i c
        pc') :
    ({ s with
      files := s.files.setName c.artifactName file
      threads := s.threads.set i (.publish c pc') } : Staging).Inv transactionId f := by
  have hset : ∀ n, (s.files.setName c.artifactName file).names n =
      if n = c.artifactName then file else s.files.names n := fun n ↦ by
    simp [LedgerFiles.setName, Function.update_apply]
  have hm : Moves f s ({ s with
      files := s.files.setName c.artifactName file
      threads := s.threads.set i (.publish c pc') } : Staging) i (.publish c pc)
        (.publish c pc') := by
    constructor
    · rfl
    · exact fun _ hn ↦ hn
    · exact fun _ hu ↦ hu
    · exact fun _ _ href ↦ href
    · refine fun j hne hj ↦ ⟨hj, rfl, fun n hn ↦ (hset n).trans (if_neg ?_)⟩
      rintro rfl
      obtain hlock | hmem := hmay
      · exact hne (Option.some.inj (hj.symm.trans hlock))
      · exact hn hmem
    · intro n hn habsent
      refine (hset n).trans ((if_neg ?_).trans habsent)
      rintro rfl
      exact (hrecorded hn).1 habsent
    · intro n hn
      by_cases hne : n = c.artifactName
      · exact .inr (.inr (hne ▸ (hrecorded (hne ▸ hn)).2.1))
      · exact .inl ((hset n).trans (if_neg hne))
    · exact .inl rfl
    · exact fun _ _ href ↦ .inl ⟨href, id⟩
    · intro n
      by_cases hn : n = c.artifactName
      · exact .inr (hn ▸ hcreates)
      · exact .inl ⟨(hset n).trans (if_neg hn), fun hold ↦ absurd (creating_eq hold) hn⟩
    · exact fun uri ↦ .inl ⟨rfl, hstoring uri⟩
    · exact fun n hn ↦ .inl (howning n hn)
    · exact fun _ hj ↦ .inl hj
    · exact id
    · exact fun c' hc' ↦ absurd (StagingThread.publish.inj hc').2 hreturns
  refine hm.inv h hi ⟨(h.threads i _ hi).1, hgood⟩ h.transaction (fun n hn ↦ ?_) h.refs
  refine (h.reserved n hn).imp_right fun hold ↦ ?_
  by_cases hne : n = c.artifactName
  · subst hne
    obtain ⟨r, hr, hof⟩ := (hrecorded hn).2.2
    exact .inr ⟨r, ((hset _).trans (if_pos rfl)).trans hr, hof⟩
  · refine hold.imp ((hset n).trans (if_neg hne)).trans ?_
    rintro ⟨r, hr, hof⟩
    exact ⟨r, ((hset n).trans (if_neg hne)).trans hr, hof⟩

/-- The reservation is created. -/
theorem Inv.reserve (h : s.Inv transactionId f) (hi : s.threads[i]? = some (.publish c .reserve))
    (hstep : s.stepReserve i c m .reserve = some t) : t.Inv transactionId f := by
  obtain ⟨hcall, hlocked⟩ := h.threads i _ hi
  have hlock : ∀ j, j ≠ i → s.lock = some j → (none : Option ℕ) = some j := by
    intro j hne hj
    exact absurd (Option.some.inj (hj.symm.trans hlocked.lock)) hne
  obtain ⟨⟨g, pc'⟩, hreserve, rfl⟩ := Option.map_eq_some_iff.mp hstep
  simp only [PublishCall.step] at hreserve
  split_ifs at hreserve with hempty hfails hpresent
  · obtain ⟨rfl, rfl⟩ := Prod.ext_iff.mp (Option.some.inj hreserve)
    exact h.goIdle hi hlock rfl rfl rfl (by rintro ⟨⟩) trivial
  · obtain ⟨rfl, rfl⟩ := Prod.ext_iff.mp (Option.some.inj hreserve)
    exact h.goIdle hi hlock rfl rfl rfl (by rintro ⟨⟩) trivial
  · obtain ⟨rfl, rfl⟩ := Prod.ext_iff.mp (Option.some.inj hreserve)
    exact h.goIdle hi (fun _ _ hj ↦ hj) rfl rfl rfl (by rintro ⟨⟩) ⟨hlocked.lock, hlocked.unrecorded⟩
  · obtain ⟨rfl, rfl⟩ := Prod.ext_iff.mp (Option.some.inj hreserve)
    have habsent : s.files.names c.artifactName = .absent :=
      JsonFile.eq_absent_iff.mpr (by simpa using hpresent)
    have hfresh := (h.untouched hi hlocked rfl).symm.trans habsent
    refine h.writeName hi (.inl hlocked.lock) (fun hmem ↦ absurd hmem hlocked.unrecorded)
      (.inr rfl) of_none of_none (by rintro ⟨⟩) ⟨⟨hlocked.lock, hlocked.unrecorded⟩, hfresh, ?_⟩
    rw [← hcall.1]
    exact (not_or.mp hempty).2

/-- The reservation is written. -/
theorem Inv.writeReservation (h : s.Inv transactionId f)
    (hi : s.threads[i]? = some (.publish c .writeReservation)) (hok : m.fails = false)
    (hstep : s.stepReserve i c m .writeReservation = some t) : t.Inv transactionId f := by
  obtain ⟨-, hlocked, hcreated⟩ := h.threads i _ hi
  obtain ⟨⟨g, pc'⟩, hwrite, rfl⟩ := Option.map_eq_some_iff.mp hstep
  simp only [PublishCall.step, hok, Bool.false_eq_true, if_false] at hwrite
  obtain ⟨rfl, rfl⟩ := Prod.ext_iff.mp (Option.some.inj hwrite)
  refine h.writeName hi (.inl hlocked.lock) (fun hmem ↦ absurd hmem hlocked.unrecorded)
    (.inr rfl) of_none of_none (by rintro ⟨⟩)
    ⟨⟨hlocked.lock, hlocked.unrecorded⟩, hcreated, ?_⟩
  simp [LedgerFiles.setName]

/-- The file of the name is there already, and it is not the transaction's. -/
theorem Inv.readReservation (h : s.Inv transactionId f)
    (hclean : ∀ name record, f.names name = .holds record →
      record.transactionId ≠ Text.strip transactionId)
    (hi : s.threads[i]? = some (.publish c .readReservation))
    (hstep : s.stepReserve i c m .readReservation = some t) : t.Inv transactionId f := by
  obtain ⟨hcall, hlocked⟩ := h.threads i _ hi
  have hlock : ∀ j, j ≠ i → s.lock = some j → (none : Option ℕ) = some j := by
    intro j hne hj
    exact absurd (Option.some.inj (hj.symm.trans hlocked.lock)) hne
  obtain ⟨⟨g, pc'⟩, hread, rfl⟩ := Option.map_eq_some_iff.mp hstep
  obtain ⟨rfl, rfl⟩ := Prod.ext_iff.mp (Option.some.inj hread)
  cases hfile : s.files.names c.artifactName with
  | opened =>
      simp only [JsonFile.read]
      exact h.goIdle hi hlock rfl rfl rfl (by rintro ⟨⟩) trivial
  | absent =>
      simp only [JsonFile.read]
      exact h.goIdle hi hlock rfl rfl rfl (by rintro ⟨⟩) trivial
  | holds record =>
      simp only [JsonFile.read]
      have hnone : c.held (some record) = none := by
        rw [Option.eq_none_iff_forall_ne_some]
        intro r hr
        obtain ⟨hrecord, -, htransaction⟩ := PublishCall.held_eq_some hr
        have hf := (h.untouched hi hlocked rfl).symm.trans hfile
        refine hclean c.artifactName record hf ?_
        rw [Option.some.inj hrecord, ← hcall.1]
        exact htransaction
      simp only [hnone, Option.isSome_none, Bool.false_eq_true, if_false]
      exact h.goIdle hi hlock rfl rfl rfl (by rintro ⟨⟩) trivial

/-- The name is recorded. -/
theorem Inv.recordName (h : s.Inv transactionId f)
    (hi : s.threads[i]? = some (.publish c .recordName))
    (hok : ∀ th ∈ s.threads, ∀ pc ∈ th.abortPc, pc.collected = false) :
    ({ s with
      reservedNames := c.artifactName :: s.reservedNames
      lock := none
      threads := s.threads.set i (.publish c .checkpoint) } : Staging).Inv transactionId f := by
  obtain ⟨hcall, hlocked, hcreated, hwritten⟩ := h.threads i _ hi
  have hm : Moves f s ({ s with
      reservedNames := c.artifactName :: s.reservedNames
      lock := none
      threads := s.threads.set i (.publish c .checkpoint) } : Staging) i
        (.publish c .recordName) (.publish c .checkpoint) := by
    constructor
    · rfl
    · exact fun _ hn ↦ List.mem_cons_of_mem _ hn
    · exact fun _ hu ↦ hu
    · exact fun _ _ href ↦ href
    · exact fun j hne hj ↦ absurd (Option.some.inj (hj.symm.trans hlocked.lock)) hne
    · exact fun _ _ habsent ↦ habsent
    · exact fun _ _ ↦ .inl rfl
    · exact .inr hok
    · exact fun _ _ href ↦ .inl ⟨href, id⟩
    · intro n
      by_cases hn : n = c.artifactName
      · exact .inr (.inl (hn ▸ List.mem_cons_self ..))
      · exact .inl ⟨rfl, fun hold ↦ absurd (creating_eq hold) hn⟩
    · exact fun _ ↦ .inl ⟨rfl, by rintro ⟨⟩⟩
    · intro n hn
      obtain rfl := Option.some.inj hn
      exact .inr hlocked.unrecorded
    · exact fun _ hj ↦ .inl hj
    · exact id
    · rintro c' ⟨⟩
  have hunregistered : c.artifactName ∉ s.refs := by
    intro hmem
    obtain ⟨ref, href⟩ := Dict.mem_iff.mp hmem
    exact hlocked.unrecorded (h.refs _ ref href).1
  have hunattached : s.Unattached c := by
    intro r hr
    rw [hwritten] at hr
    rw [← NameRecord.reserved.inj (JsonFile.holds.inj hr)]
    rfl
  have hreserved : ReservedBy transactionId s.files c.artifactName :=
    ⟨c.reservation, hwritten, congrArg Text.strip hcall.1, rfl⟩
  refine hm.inv h hi ⟨hcall, ⟨List.mem_cons_self .., hunregistered⟩, hunattached⟩
    (fun hempty ↦ absurd hempty hcreated.transaction) (fun n hn ↦ ?_) (fun n ref href ↦ ?_)
  · obtain rfl | hn := List.mem_cons.mp hn
    · exact ⟨hcreated.fresh, .inr hreserved⟩
    · exact h.reserved n hn
  · exact (h.refs n ref href).imp_left (List.mem_cons_of_mem _)

/-- The bytes are stored. -/
theorem Inv.store (h : s.Inv transactionId f) (hi : s.threads[i]? = some (.publish c .store))
    (hunused : c.ref.uri ∉ s.used) (hnothing : s.files.payloads c.ref.uri = none) :
    ({ s with
      files := s.files.setPayload c.ref.uri (some c.payload)
      used := c.ref.uri :: s.used
      threads := s.threads.set i (.publish c .stat) } : Staging).Inv transactionId f := by
  obtain ⟨hcall, howned, hunattached⟩ := h.threads i _ hi
  have hset : ∀ u, (s.files.setPayload c.ref.uri (some c.payload)).payloads u =
      if u = c.ref.uri then some c.payload else s.files.payloads u := fun u ↦ by
    simp [LedgerFiles.setPayload, Function.update_apply]
  have hfresh : f.payloads c.ref.uri = none := by
    obtain hsame | ⟨n, ref, href, huri⟩ | ⟨j, th, hj, hth⟩ := h.payloads c.ref.uri
    · exact hsame.symm.trans hnothing
    · exact absurd (huri ▸ (h.refs n ref href).2.2.2) hunused
    · exact absurd ((h.threads j th hj).stored hth) hunused
  have hm : Moves f s ({ s with
      files := s.files.setPayload c.ref.uri (some c.payload)
      used := c.ref.uri :: s.used
      threads := s.threads.set i (.publish c .stat) } : Staging) i (.publish c .store)
        (.publish c .stat) := by
    constructor
    · rfl
    · exact fun _ hn ↦ hn
    · exact fun _ hu ↦ List.mem_cons_of_mem _ hu
    · exact fun _ _ href ↦ href
    · exact fun _ _ hj ↦ ⟨hj, rfl, fun _ _ ↦ rfl⟩
    · exact fun _ _ habsent ↦ habsent
    · exact fun _ _ ↦ .inl rfl
    · exact .inl rfl
    · refine fun n ref href ↦ .inl ⟨href, fun hnone ↦ (hset ref.uri).trans ((if_neg ?_).trans hnone)⟩
      intro huri
      exact hunused (huri ▸ (h.refs n ref href).2.2.2)
    · exact fun _ ↦ .inl ⟨rfl, by rintro ⟨⟩⟩
    · intro u
      by_cases hu : u = c.ref.uri
      · exact .inr (.inr (.inr (hu ▸ rfl)))
      · exact .inl ⟨(hset u).trans (if_neg hu), by rintro ⟨⟩⟩
    · exact fun n hn ↦ .inl hn
    · exact fun _ hj ↦ .inl hj
    · exact id
    · rintro c' ⟨⟩
  have hstored := List.mem_cons_self (a := c.ref.uri) (l := s.used)
  refine hm.inv h hi ⟨hcall, ⟨howned.recorded, howned.unregistered⟩, ⟨hstored, hfresh⟩, hunattached⟩
    h.transaction h.reserved fun n ref href ↦ ?_
  obtain ⟨hn, hbackend, hf, hused⟩ := h.refs n ref href
  exact ⟨hn, hbackend, hf, List.mem_cons_of_mem _ hused⟩

/-- The reservation is read again, and it is still there. -/
theorem Inv.attachRead (h : s.Inv transactionId f)
    (hi : s.threads[i]? = some (.publish c .attachRead))
    (hok : (s.files.names c.artifactName).present = true)
    (hstep : s.stepAttach i c m .attachRead = some t) : t.Inv transactionId f := by
  obtain ⟨hcall, howned, hstored, hunattached⟩ := h.threads i _ hi
  obtain habsent | ⟨r, hr, htransaction, hname⟩ := (h.reserved _ howned.recorded).2
  · rw [habsent] at hok
    cases hok
  · have hheld : c.held (some (.reserved r)) = some r := by
      refine if_pos ⟨htransaction.trans ?_, hname⟩
      rw [PublishCall.transaction, hcall.1]
    obtain ⟨⟨g, pc'⟩, hread, rfl⟩ := Option.map_eq_some_iff.mp hstep
    obtain ⟨rfl, rfl⟩ := Prod.ext_iff.mp (Option.some.inj hread)
    simp only [hr, JsonFile.read, hheld, hunattached r hr]
    exact h.go hi (fun _ _ hj ↦ hj) of_none (fun _ hu ↦ hu) (fun _ hn ↦ hn) (by rintro ⟨⟩)
      ⟨⟨howned.recorded, howned.unregistered⟩, ⟨hstored.used, hstored.fresh⟩, htransaction, hname⟩

/-- The reservation is rewritten with the ref, and it is still there. -/
theorem Inv.attachReplace {current : Reservation} (h : s.Inv transactionId f)
    (hi : s.threads[i]? = some (.publish c (.attachReplace current)))
    (hok : m.fails = false ∧ (s.files.names c.artifactName).present = true)
    (hstep : s.stepAttach i c m (.attachReplace current) = some t) : t.Inv transactionId f := by
  obtain ⟨hcall, howned, hstored, hof⟩ := h.threads i _ hi
  obtain ⟨⟨g, pc'⟩, hwrite, rfl⟩ := Option.map_eq_some_iff.mp hstep
  simp only [PublishCall.step, hok.1, Bool.false_eq_true, if_false] at hwrite
  obtain ⟨rfl, rfl⟩ := Prod.ext_iff.mp (Option.some.inj hwrite)
  refine h.writeName hi (.inr howned.recorded) (fun _ ↦ ⟨fun habsent ↦ ?_, rfl, _, rfl, hof⟩)
    (.inl howned.recorded) (fun _ hu ↦ hu) (fun _ hn ↦ hn) (by rintro ⟨⟩)
    ⟨⟨howned.recorded, howned.unregistered⟩, hstored.used, hstored.fresh⟩
  rw [habsent] at hok
  cases hok.2

/-- The ref is registered, before it is looked up. -/
theorem Inv.register (h : s.Inv transactionId f)
    (hi : s.threads[i]? = some (.publish c .register))
    (hok : ∀ th ∈ s.threads, ∀ pc ∈ th.abortPc, pc.comesTo c.artifactName = true) :
    ({ s with
      refs := s.refs.insert c.artifactName c.ref
      threads := s.threads.set i (.publish c .lastCheckpoint) } : Staging).Inv
        transactionId f := by
  obtain ⟨hcall, howned, hstored⟩ := h.threads i _ hi
  have hlookup : ∀ n ref, (s.refs.insert c.artifactName c.ref).lookup n = some ref →
      n = c.artifactName ∧ ref = c.ref ∨ s.refs.lookup n = some ref := by
    intro n ref href
    by_cases hn : n = c.artifactName
    · subst hn
      rw [AList.lookup_insert] at href
      exact .inl ⟨rfl, (Option.some.inj href).symm⟩
    · rw [AList.lookup_insert_ne hn] at href
      exact .inr href
  have hm : Moves f s ({ s with
      refs := s.refs.insert c.artifactName c.ref
      threads := s.threads.set i (.publish c .lastCheckpoint) } : Staging) i
        (.publish c .register) (.publish c .lastCheckpoint) := by
    constructor
    · rfl
    · exact fun _ hn ↦ hn
    · exact fun _ hu ↦ hu
    · intro n ref href
      refine (AList.lookup_insert_ne ?_).trans href
      rintro rfl
      exact howned.unregistered (Dict.mem_iff.mpr ⟨ref, href⟩)
    · exact fun _ _ hj ↦ ⟨hj, rfl, fun _ _ ↦ rfl⟩
    · exact fun _ _ habsent ↦ habsent
    · exact fun _ _ ↦ .inl rfl
    · exact .inl rfl
    · intro n ref href
      obtain ⟨rfl, -⟩ | hold := hlookup n ref href
      · exact .inr ⟨rfl, hok⟩
      · exact .inl ⟨hold, id⟩
    · exact fun _ ↦ .inl ⟨rfl, by rintro ⟨⟩⟩
    · intro uri
      by_cases huri : uri = c.ref.uri
      · exact .inr (.inr (.inl ⟨c.artifactName, c.ref, AList.lookup_insert _, huri.symm⟩))
      · exact .inl ⟨rfl, fun hold ↦ absurd (Option.some.inj hold).symm huri⟩
    · exact of_none
    · exact fun _ hj ↦ .inl hj
    · exact id
    · rintro c' ⟨⟩
  refine hm.inv h hi ⟨hcall, trivial⟩ h.transaction h.reserved fun n ref href ↦ ?_
  obtain ⟨rfl, rfl⟩ | hold := hlookup n ref href
  · exact ⟨howned.recorded, hcall.2, hstored.fresh, hstored.used⟩
  · exact h.refs n ref hold

/-- One step of `publish`. -/
theorem Inv.stepPublish (h : s.Inv transactionId f)
    (hclean : ∀ name record, f.names name = .holds record →
      record.transactionId ≠ Text.strip transactionId)
    (hi : s.threads[i]? = some (.publish c pc)) (hok : s.PublishOrderly c m pc)
    (habort : ∀ apc ∈ (StagingThread.publish c pc).abortPc, s.AbortOrderly transactionId m apc)
    (hstep : s.stepPublish L transactionId taken i c m pc = some t) : t.Inv transactionId f := by
  have hgood := h.threads i _ hi
  cases pc with
  | check =>
      obtain rfl := Option.some.inj hstep
      split
      · exact h.goIdle hi (fun _ _ hj ↦ hj) rfl rfl rfl (by rintro ⟨⟩) trivial
      · exact h.goIdle hi (fun _ _ hj ↦ hj) rfl rfl rfl (by rintro ⟨⟩) trivial
  | acquire =>
      simp only [Staging.stepPublish] at hstep
      split_ifs at hstep with hlock htaken
      · obtain rfl := Option.some.inj hstep
        exact h.goIdle hi (fun _ _ hj ↦ hj) rfl rfl rfl (by rintro ⟨⟩) trivial
      · obtain rfl := Option.some.inj hstep
        have hfree : s.lock = none := by simpa using hlock
        refine h.goIdle hi (fun j _ hj ↦ ?_) rfl rfl rfl (by rintro ⟨⟩) ⟨rfl, (not_or.mp htaken).2⟩
        rw [hfree] at hj
        cases hj
  | reserve => exact h.reserve hi hstep
  | writeReservation => exact h.writeReservation hi hok hstep
  | readReservation => exact h.readReservation hclean hi hstep
  | recordName =>
      obtain rfl := Option.some.inj hstep
      exact h.recordName hi hok
  | checkpoint =>
      obtain rfl := Option.some.inj hstep
      split
      · exact h.goIdle hi (fun _ _ hj ↦ hj) rfl rfl rfl (by rintro ⟨⟩) trivial
      · exact h.go hi (fun _ _ hj ↦ hj) of_none of_none (fun _ hn ↦ hn) (by rintro ⟨⟩)
          ⟨⟨hgood.2.1.recorded, hgood.2.1.unregistered⟩, hgood.2.2⟩
  | store =>
      simp only [Staging.stepPublish] at hstep
      split_ifs at hstep with hfails hused
      · obtain rfl := Option.some.inj hstep
        exact h.goIdle hi (fun _ _ hj ↦ hj) rfl rfl rfl (by rintro ⟨⟩) trivial
      · obtain rfl := Option.some.inj hstep
        obtain ⟨hunused, hnothing⟩ := not_or.mp hused
        exact h.store hi hunused (by simpa using hnothing)
  | stat =>
      have hfails : m.fails = false := hok
      simp only [Staging.stepPublish, hfails, Bool.false_eq_true, if_false] at hstep
      obtain rfl := Option.some.inj hstep
      obtain ⟨-, howned, hstored, hunattached⟩ := hgood
      exact h.go hi (fun _ _ hj ↦ hj) of_none (fun _ hu ↦ hu) (fun _ hn ↦ hn) (by rintro ⟨⟩)
        ⟨⟨howned.recorded, howned.unregistered⟩, ⟨hstored.used, hstored.fresh⟩, hunattached⟩
  | attachRead =>
      obtain ⟨hfails, hpresent⟩ := hok
      simp only [Staging.stepPublish, hfails, Bool.false_eq_true, if_false] at hstep
      exact h.attachRead hi hpresent hstep
  | attachReplace current => exact h.attachReplace hi hok hstep
  | attached =>
      have hfails : m.fails = false := hok
      simp only [Staging.stepPublish, hfails, Bool.false_eq_true, if_false] at hstep
      obtain rfl := Option.some.inj hstep
      obtain ⟨-, howned, hstored⟩ := hgood
      exact h.go hi (fun _ _ hj ↦ hj) of_none (fun _ hu ↦ hu) (fun _ hn ↦ hn) (by rintro ⟨⟩)
        ⟨⟨howned.recorded, howned.unregistered⟩, hstored.used, hstored.fresh⟩
  | register =>
      simp only [Staging.stepPublish] at hstep
      split_ifs at hstep
      obtain rfl := Option.some.inj hstep
      exact h.register hi hok
  | lastCheckpoint =>
      obtain rfl := Option.some.inj hstep
      split
      · exact h.goIdle hi (fun _ _ hj ↦ hj) rfl rfl rfl (by rintro ⟨⟩) trivial
      · exact h.goIdle hi (fun _ _ hj ↦ hj) rfl rfl rfl (by rintro ⟨⟩) trivial
  | recordEvent =>
      obtain rfl := Option.some.inj hstep
      split
      next => exact h.goIdle hi (fun _ _ hj ↦ hj) rfl rfl rfl (by rintro ⟨⟩) trivial
      next hfails =>
        exact h.go hi (fun _ _ hj ↦ hj) of_none of_none of_none (fun _ ↦ hok (by simpa using hfails))
          trivial
  | aborting reason apc =>
      obtain ⟨⟨u, apc'⟩, hu, rfl⟩ := Option.map_eq_some_iff.mp hstep
      exact h.stepAbort (wraps_aborting reason hgood.1) hi (habort apc rfl) hu
  | returned => cases hstep
  | raised => cases hstep

/-! ## Runs -/

/-- What holds of a thread does not depend on which others there are. -/
theorem Good.withThreads {j : ℕ} {th : StagingThread} (h : s.Good transactionId f j th)
    (threads : List StagingThread) :
    ({ s with threads := threads } : Staging).Good transactionId f j th := by
  have habort : ∀ pc, s.AbortInv f pc →
      ({ s with threads := threads } : Staging).AbortInv f pc := fun pc hpc ↦
    hpc.frame (fun _ hn ↦ hn) (fun _ ↦ rfl) (fun _ _ habsent ↦ habsent)
      fun _ _ href ↦ .inl ⟨href, id⟩
  cases th with
  | abort reason pc => exact habort pc h
  | publish c pc =>
      obtain ⟨hcall, hpc⟩ := h
      refine ⟨hcall, ?_⟩
      cases pc with
      | check | acquire | lastCheckpoint | recordEvent | returned | raised => trivial
      | reserve | readReservation => exact ⟨hpc.lock, hpc.unrecorded⟩
      | writeReservation | recordName => exact ⟨⟨hpc.1.lock, hpc.1.unrecorded⟩, hpc.2⟩
      | checkpoint | store => exact ⟨⟨hpc.1.recorded, hpc.1.unregistered⟩, hpc.2⟩
      | stat | attachRead | attachReplace current =>
          exact ⟨⟨hpc.1.recorded, hpc.1.unregistered⟩, ⟨hpc.2.1.used, hpc.2.1.fresh⟩, hpc.2.2⟩
      | attached | register =>
          exact ⟨⟨hpc.1.recorded, hpc.1.unregistered⟩, hpc.2.used, hpc.2.fresh⟩
      | aborting reason pc => exact habort pc hpc

theorem getElem?_call {th th' : StagingThread} (h : (s.threads ++ [th])[i]? = some th') :
    s.threads[i]? = some th' ∨ th' = th := by
  by_cases hi : i < s.threads.length
  · rw [List.getElem?_append_left hi] at h
    exact .inl h
  · rw [List.getElem?_append_right (not_lt.mp hi)] at h
    exact .inr (List.mem_singleton.mp (List.mem_of_getElem? h))

theorem getElem?_old {th th' : StagingThread} (h : s.threads[i]? = some th') :
    (s.threads ++ [th])[i]? = some th' := by
  rw [List.getElem?_append_left (List.getElem?_eq_some_iff.mp h).1]
  exact h

/-- A call begins. -/
theorem Inv.call (h : s.Inv transactionId f) {th : StagingThread}
    (hth : Begins transactionId th) :
    ({ s with threads := s.threads ++ [th] } : Staging).Inv transactionId f := by
  have hgood : ∀ i, ({ s with threads := s.threads ++ [th] } : Staging).Good transactionId f i
      th := by
    intro i
    cases th with
    | publish c pc =>
        obtain ⟨rfl, hcall⟩ := hth
        exact ⟨hcall, trivial⟩
    | abort reason pc =>
        obtain rfl := hth
        trivial
  have howning : th.owning = none := by
    cases th with
    | publish c pc => rw [hth.1]; rfl
    | abort reason pc => rfl
  have hreturned : ∀ c, th ≠ .publish c .returned := by
    rintro c rfl
    cases hth.1
  constructor
  · intro i th' hi
    obtain hold | rfl := getElem?_call hi
    · exact (h.threads i th' hold).withThreads _
    · exact hgood i
  · intro i j th₁ th₂ name hi hj hown₁ hown₂
    obtain hi | rfl := getElem?_call hi
    · obtain hj | rfl := getElem?_call hj
      · exact h.owners i j th₁ th₂ name hi hj hown₁ hown₂
      · rw [howning] at hown₂
        cases hown₂
    · rw [howning] at hown₁
      cases hown₁
  · exact h.transaction
  · exact h.reserved
  · exact h.refs
  · intro name
    refine (h.names name).imp_right (Or.imp_right ?_)
    rintro ⟨i, th', hi, hcreating⟩
    exact ⟨i, th', getElem?_old hi, hcreating⟩
  · intro uri
    refine (h.payloads uri).imp_right (Or.imp_right ?_)
    rintro ⟨i, th', hi, hstoring⟩
    exact ⟨i, th', getElem?_old hi, hstoring⟩
  · intro i hi
    obtain ⟨hinactive, hnot⟩ := h.running i hi
    refine ⟨hinactive, fun c hc ↦ ?_⟩
    obtain hold | hnew := getElem?_call hc
    · exact hnot c hold
    · exact hreturned c hnew.symm

theorem Inv.step (h : s.Inv transactionId f)
    (hclean : ∀ name record, f.names name = .holds record →
      record.transactionId ≠ Text.strip transactionId)
    {l : StagingAction} (hok : s.Orderly transactionId l)
    (hstep : s.step L transactionId taken l = some t) : t.Inv transactionId f := by
  cases l with
  | call th =>
      simp only [Staging.step] at hstep
      split_ifs at hstep with hth
      obtain rfl := Option.some.inj hstep
      exact h.call hth
  | step i m =>
      simp only [Staging.step] at hstep
      cases hi : s.threads[i]? with
      | none => simp only [hi, reduceCtorEq] at hstep
      | some th =>
          have hth := hok th hi
          cases th with
          | publish c pc =>
              obtain ⟨hpublish, habort⟩ := hth
              simp only [hi] at hstep
              exact h.stepPublish hclean hi hpublish habort hstep
          | abort reason pc =>
              simp only [hi] at hstep
              obtain ⟨⟨u, pc'⟩, hu, rfl⟩ := Option.map_eq_some_iff.mp hstep
              exact h.stepAbort (wraps_abort reason) hi hth hu

/-- **An aborted transaction leaves nothing behind.**  Once `abort` has returned and every call of
`publish` is over, the ledger has the reservations and the bytes it had before the transaction,
and no call of `publish` that was on its way when the transaction was set inactive has returned. -/
theorem nothing_left {prepared : Bool}
    (hclean : ∀ name record, f.names name = .holds record →
      record.transactionId ≠ Text.strip transactionId)
    (h : Machine.Reach (step L transactionId taken) (Orderly transactionId)
      (start f prepared) s) :
    ((∃ th ∈ s.threads, th.abortPc = some .returned) →
      (∀ th ∈ s.threads, th.publishing = false) →
        s.files.names = f.names ∧ s.files.payloads = f.payloads) ∧
    ∀ i, s.running i = true → ∀ c, s.threads[i]? ≠ some (.publish c .returned) := by
  have hinv : s.Inv transactionId f :=
    h.invariant (start_inv f prepared) fun _ _ _ hs hok hstep ↦ Inv.step hs hclean hok hstep
  refine ⟨?_, fun i hi ↦ (hinv.running i hi).2⟩
  rintro ⟨th, hmem, hreturned⟩ hended
  -- The abort that has returned has dealt with everything that is recorded.
  have hcovered : s.Covered [] := by
    obtain ⟨i, hi⟩ := List.mem_iff_getElem?.mp hmem
    have hgood := hinv.threads i th hi
    cases th with
    | abort reason pc =>
        obtain rfl := Option.some.inj hreturned
        exact hgood
    | publish c pc =>
        cases pc with
        | aborting reason pc =>
            obtain rfl := Option.some.inj hreturned
            exact hgood.2
        | _ => cases hreturned
  constructor
  · funext name
    obtain hsame | hname | ⟨i, th, hi, hcreating⟩ := hinv.names name
    · exact hsame
    · have habsent := (hcovered.names name hname).resolve_left List.not_mem_nil
      exact habsent.trans (hinv.reserved name hname).1.symm
    · have hover := hended th (List.mem_of_getElem? hi)
      cases th with
      | abort reason pc => cases hcreating
      | publish c pc =>
          cases pc
          case writeReservation | recordName => cases hover
          all_goals cases hcreating
  · funext uri
    obtain hsame | ⟨name, ref, href, rfl⟩ | ⟨i, th, hi, hstoring⟩ := hinv.payloads uri
    · exact hsame
    · have hnone := (hcovered.refs name ref href).resolve_left List.not_mem_nil
      exact hnone.trans (hinv.refs name ref href).2.2.1.symm
    · have hover := hended th (List.mem_of_getElem? hi)
      cases th with
      | abort reason pc => cases hstoring
      | publish c pc =>
          cases pc
          case stat | attachRead | attachReplace | attached | register => cases hover
          all_goals cases hstoring

/-! ## Orderly and other runs -/

instance (s : Staging) (c : PublishCall) (m : Moment) :
    DecidablePred (s.PublishOrderly c m)
  | .writeReservation | .stat | .attached => inferInstanceAs (Decidable (m.fails = false))
  | .recordName => inferInstanceAs
      (Decidable (∀ th ∈ s.threads, ∀ pc ∈ th.abortPc, pc.collected = false))
  | .attachRead | .attachReplace _ => inferInstanceAs
      (Decidable (m.fails = false ∧ (s.files.names c.artifactName).present = true))
  | .register => inferInstanceAs
      (Decidable (∀ th ∈ s.threads, ∀ pc ∈ th.abortPc, pc.comesTo c.artifactName = true))
  | .recordEvent => inferInstanceAs (Decidable (m.fails = false → s.active = true))
  | .check | .acquire | .reserve | .readReservation | .checkpoint | .store | .lastCheckpoint
  | .aborting _ _ | .returned | .raised => isTrue trivial

instance (s : Staging) (m : Moment) : DecidablePred (s.AbortOrderly transactionId m)
  | .ledger names (.checkTombstone _) => inferInstanceAs (Decidable
      ((s.files.tombstones (Text.strip transactionId)).present = true →
        ∀ name ∈ s.reservedNames, name ∈ names ∨ name ∈ s.refs))
  | .ledger names (.writeTombstone _) => inferInstanceAs
      (Decidable (m.fails = false → ∀ name ∈ s.reservedNames, name ∈ names ∨ name ∈ s.refs))
  | .ledger _ .checkCommit | .ledger _ (.createTombstone _) | .ledger _ (.sweep _)
  | .ledger _ (.unlinkName _ _) | .ledger _ (.deleteRef _ _) | .ledger _ .returned
  | .ledger _ (.raised _) | .check | .deactivate | .takeNames | .recordEvent | .skipped
  | .returned | .raised => isTrue trivial

instance (s : Staging) (m : Moment) : DecidablePred (s.ThreadOrderly transactionId m)
  | .publish c pc => inferInstanceAs (Decidable (s.PublishOrderly c m pc ∧
      ∀ apc ∈ (StagingThread.publish c pc).abortPc, s.AbortOrderly transactionId m apc))
  | .abort _ pc => inferInstanceAs (Decidable (s.AbortOrderly transactionId m pc))

instance (s : Staging) : DecidablePred (s.Orderly transactionId)
  | .call _ => isTrue trivial
  | .step i m => inferInstanceAs
      (Decidable (∀ th ∈ s.threads[i]?, s.ThreadOrderly transactionId m th))

/-- A ledger of which only the directory matters. -/
def caseLedger : PublicationLedger where
  caseRoot := ["case"]
  authorityNamespace := "artifacts"
  projectRunId := "project"
  caseRunId := "case"
  sha256 text := text

/-- The publication of one artifact. -/
def modelCall : PublishCall where
  name := "model"
  transactionId := "tx"
  leaseId := ""
  fencingToken := 0
  reservedAt := 1
  ref :=
    { uri := ["case", "model.bin"]
      kind := "artifact"
      backend := "filesystem"
      mediaType := "application/octet-stream"
      checksum := "sha256:0"
      sizeBytes := some 1
      metadata := [] }
  payload := { size := 1, checksum := "sha256:0" }

/-- `n` steps of a thread in which nothing fails. -/
def steps (i n : ℕ) : List StagingAction := List.replicate n (.step i { name := "model" })

/-- The artifact is published, and the transaction is aborted. -/
def publishedAndAborted : List StagingAction :=
  .call (.publish modelCall .check) :: steps 0 14 ++ .call (.abort "" .check) :: steps 1 12

theorem nothing_left_published :
    ∃ s, Machine.Reach (step caseLedger "tx" []) (Orderly "tx") (start .empty false) s ∧
      s.threads = [.publish modelCall .returned, .abort "" .returned] ∧
      s.files.names = LedgerFiles.empty.names ∧ s.files.payloads = LedgerFiles.empty.payloads := by
  have hrun : ((Machine.run (Machine.guarded (step caseLedger "tx" []) (Orderly "tx"))
      (start .empty false) publishedAndAborted).map fun s ↦ s.threads) =
      some [.publish modelCall .returned, .abort "" .returned] := by
    decide +kernel
  obtain ⟨s, hs, hthreads⟩ := Option.map_eq_some_iff.mp hrun
  have hreach := Machine.reach_of_run hs
  have hclean : ∀ name record, LedgerFiles.empty.names name = .holds record →
      record.transactionId ≠ Text.strip "tx" := by
    intro name record h
    cases h
  have hleft := (nothing_left hclean hreach).1
  refine ⟨s, hreach, hthreads, hleft ?_ ?_⟩
  · rw [hthreads]
    exact ⟨.abort "" .returned, by simp, rfl⟩
  · rw [hthreads]
    decide

/-- A single step fails: the reservation is not read again. -/
def attachFails : List StagingAction :=
  .call (.publish modelCall .check) :: steps 0 8 ++ .step 0 { fails := true } :: steps 0 11

/-- Nothing fails: the transaction is aborted before the ref is registered. -/
def abortedBeforeRegister : List StagingAction :=
  .call (.publish modelCall .check) :: steps 0 11 ++ .call (.abort "" .check) :: steps 1 11 ++
    steps 0 3

/-- Two runs after which every call is over, `abort` has returned, and the bytes are still there;
in the second one `publish` has returned, although it was cut off. -/
theorem bytes_left :
    (∃ s, Machine.Reach (step caseLedger "tx" []) Machine.anyStep (start .empty false) s ∧
      s.threads = [.publish modelCall (.aborting "publish_failed" .returned)] ∧
      s.files.payloads modelCall.ref.uri = some modelCall.payload) ∧
    ∃ s, Machine.Reach (step caseLedger "tx" []) Machine.anyStep (start .empty false) s ∧
      s.threads = [.publish modelCall .returned, .abort "" .returned] ∧
      s.files.payloads modelCall.ref.uri = some modelCall.payload ∧ s.running 0 = true := by
  constructor
  · have hrun : ((Machine.run (step caseLedger "tx" []) (start .empty false) attachFails).map
        fun s ↦ (s.threads, s.files.payloads modelCall.ref.uri)) =
        some ([.publish modelCall (.aborting "publish_failed" .returned)],
          some modelCall.payload) := by
      decide +kernel
    obtain ⟨s, hs, hend⟩ := Option.map_eq_some_iff.mp hrun
    obtain ⟨hthreads, hpayload⟩ := Prod.ext_iff.mp hend
    exact ⟨s, Machine.reach_of_run_any hs, hthreads, hpayload⟩
  · have hrun : ((Machine.run (step caseLedger "tx" []) (start .empty false)
        abortedBeforeRegister).map
        fun s ↦ (s.threads, s.files.payloads modelCall.ref.uri, s.running 0)) =
        some ([.publish modelCall .returned, .abort "" .returned], some modelCall.payload,
          true) := by
      decide +kernel
    obtain ⟨s, hs, hend⟩ := Option.map_eq_some_iff.mp hrun
    obtain ⟨hthreads, hrest⟩ := Prod.ext_iff.mp hend
    obtain ⟨hpayload, hrunning⟩ := Prod.ext_iff.mp hrest
    exact ⟨s, Machine.reach_of_run_any hs, hthreads, hpayload, hrunning⟩

end Staging

end Blackbase.Project
