import Blackbase.Project.Finalization.Staging

/-!
# What an aborted transaction leaves behind

`abort` removes what the transaction has recorded by the time it looks.  Between a step of
`publish` on the files and the recording of it lie other steps: the name of a reservation is
recorded after its file has been created, and the ref after the bytes have been stored and the
reservation rewritten.  A run is *orderly* if no step fails in these gaps, and if what is recorded
after the transaction has been set inactive is recorded before `abort` comes to it.  After an
orderly run the ledger is as it was before the transaction.
-/

namespace Blackbase.Project

open Resources Resources.Artifacts

/-! ## Orderly runs -/

namespace TransactionAbortPc

/-- The names have been collected. -/
def collected : TransactionAbortPc → Bool
  | ledger _ (.sweep _) | ledger _ (.unlinkName _ _) | ledger _ (.deleteRef _ _) => true
  | recordEvent | returned => true
  | _ => false

/-- The ref of the name is still to be looked up. -/
def comesTo (name : String) : TransactionAbortPc → Bool
  | ledger _ (.sweep todo) => name ∈ todo
  | ledger _ (.unlinkName next todo) => name = next ∨ name ∈ todo
  | ledger _ (.deleteRef _ todo) => name ∈ todo
  | recordEvent | returned => false
  | _ => true

end TransactionAbortPc

namespace Staging

/-- The condition on a step of `publish`: no step fails between the creation of a reservation and
the recording of its name, or between the storing of bytes and the registration of their ref; a
reservation is rewritten only if it is still there, a name is recorded only before the names are
collected, and a ref is registered only before it is looked up; and `publish` returns only while
the transaction is active. -/
def PublishOrderly (s : Staging) (c : PublishCall) (m : Moment) : StagePc → Prop
  | .writeReservation => m.fails = false
  | .recordName => ∀ th ∈ s.threads, ∀ pc ∈ th.abortPc, pc.collected = false
  | .stat => m.fails = false
  | .attachRead => m.fails = false ∧ (s.files.names c.artifactName).present = true
  | .attachReplace _ => m.fails = false ∧ (s.files.names c.artifactName).present = true
  | .attached => m.fails = false
  | .register => ∀ th ∈ s.threads, ∀ pc ∈ th.abortPc, pc.comesTo c.artifactName = true
  | .recordEvent => m.fails = false → s.active = true
  | _ => True

/-- The condition on a step of `abort`: when it collects the names, every name that has been
recorded is among those it has copied, or has a ref. -/
def AbortOrderly (transactionId : String) (s : Staging) (m : Moment) : TransactionAbortPc → Prop
  | .ledger names (.checkTombstone _) =>
      (s.files.tombstones (Text.strip transactionId)).present = true →
        ∀ name ∈ s.reservedNames, name ∈ names ∨ name ∈ s.refs
  | .ledger names (.writeTombstone _) =>
      m.fails = false → ∀ name ∈ s.reservedNames, name ∈ names ∨ name ∈ s.refs
  | _ => True

/-- The condition on a step of a thread. -/
def ThreadOrderly (transactionId : String) (s : Staging) (m : Moment) : StagingThread → Prop
  | .publish c pc => s.PublishOrderly c m pc ∧
      ∀ apc ∈ (StagingThread.publish c pc).abortPc, s.AbortOrderly transactionId m apc
  | .abort _ pc => s.AbortOrderly transactionId m pc

/-- The condition on a step. -/
def Orderly (transactionId : String) (s : Staging) : StagingAction → Prop
  | .call _ => True
  | .step i m => ∀ th ∈ s.threads[i]?, s.ThreadOrderly transactionId m th

end Staging

/-! ## The invariant -/

namespace StagingThread

/-- The name whose reservation the thread has created and not recorded. -/
def creating : StagingThread → Option String
  | publish c .writeReservation | publish c .recordName => some c.artifactName
  | _ => none

/-- The bytes that the thread has stored and not registered. -/
def storing : StagingThread → Option Path
  | publish c .stat | publish c .attachRead | publish c (.attachReplace _)
  | publish c .attached | publish c .register => some c.ref.uri
  | _ => none

/-- The name that the thread has recorded and may register a ref for. -/
def owning : StagingThread → Option String
  | publish c .checkpoint | publish c .store | publish c .stat | publish c .attachRead
  | publish c (.attachReplace _) | publish c .attached | publish c .register =>
      some c.artifactName
  | _ => none

end StagingThread

/-- The reservation of the name belongs to the transaction. -/
def Reservation.Of (transactionId name : String) (r : Reservation) : Prop :=
  r.transactionId = Text.strip transactionId ∧ r.artifactName = name

/-- The files hold a reservation of the name by the transaction. -/
def ReservedBy (transactionId : String) (f : LedgerFiles) (name : String) : Prop :=
  ∃ r, f.names name = .holds (.reserved r) ∧ Reservation.Of transactionId name r

namespace Staging

/-- Once the names in `todo` have been dealt with, nothing of the transaction is left. -/
structure Covered (s : Staging) (todo : List String) : Prop where
  reserved : ∀ name ∈ todo, name ∈ s.reservedNames
  names : ∀ name ∈ s.reservedNames, name ∈ todo ∨ s.files.names name = .absent
  refs : ∀ name ref, s.refs.lookup name = some ref →
    name ∈ todo ∨ s.files.payloads ref.uri = none

/-- What an abort knows where it is. -/
def AbortInv (f : LedgerFiles) (s : Staging) : TransactionAbortPc → Prop
  | .ledger names pc => (∀ name ∈ names, name ∈ s.reservedNames) ∧
      match pc with
      | .sweep todo => s.Covered todo
      | .unlinkName next todo => s.Covered (next :: todo)
      | .deleteRef ref todo => f.payloads ref.uri = none ∧
          (∀ name ∈ todo, name ∈ s.reservedNames) ∧
          (∀ name ∈ s.reservedNames, name ∈ todo ∨ s.files.names name = .absent) ∧
          ∀ name ref', s.refs.lookup name = some ref' →
            name ∈ todo ∨ ref'.uri = ref.uri ∨ s.files.payloads ref'.uri = none
      | _ => True
  | .recordEvent | .returned => s.Covered []
  | _ => True

variable (transactionId : String) (f : LedgerFiles)

/-- Inside the lock, for a name that has not been recorded. -/
structure Locked (s : Staging) (i : ℕ) (c : PublishCall) : Prop where
  lock : s.lock = some i
  unrecorded : c.artifactName ∉ s.reservedNames

/-- The name has been recorded, and has no ref. -/
structure Owned (s : Staging) (c : PublishCall) : Prop where
  recorded : c.artifactName ∈ s.reservedNames
  unregistered : c.artifactName ∉ s.refs

/-- The bytes have been stored where there was nothing. -/
structure Stored (s : Staging) (c : PublishCall) : Prop where
  used : c.ref.uri ∈ s.used
  fresh : f.payloads c.ref.uri = none

/-- The file of the reservation has been created. -/
structure Created (c : PublishCall) : Prop where
  fresh : f.names c.artifactName = .absent
  transaction : Text.strip transactionId ≠ ""

/-- No ref has been attached to the reservation of the name. -/
def Unattached (s : Staging) (c : PublishCall) : Prop :=
  ∀ r, s.files.names c.artifactName = .holds (.reserved r) → r.provisionalRef = none

/-- What a call of `publish` knows where it is. -/
def PublishInv (s : Staging) (i : ℕ) (c : PublishCall) : StagePc → Prop
  | .reserve | .readReservation => s.Locked i c
  | .writeReservation => s.Locked i c ∧ Created transactionId f c
  | .recordName => s.Locked i c ∧ Created transactionId f c ∧
      s.files.names c.artifactName = .holds (.reserved c.reservation)
  | .checkpoint | .store => s.Owned c ∧ s.Unattached c
  | .stat | .attachRead => s.Owned c ∧ Stored f s c ∧ s.Unattached c
  | .attached | .register => s.Owned c ∧ Stored f s c
  | .attachReplace current => s.Owned c ∧ Stored f s c ∧
      Reservation.Of transactionId c.artifactName current
  | .aborting _ pc => s.AbortInv f pc
  | _ => True

/-- What holds of one thread. -/
def Good (s : Staging) (i : ℕ) : StagingThread → Prop
  | .publish c pc => (c.transactionId = transactionId ∧ c.ref.backend = "filesystem") ∧
      s.PublishInv transactionId f i c pc
  | .abort _ pc => s.AbortInv f pc

/-- What holds between any two steps of an orderly run that began with the files `f`. -/
structure Inv (s : Staging) : Prop where
  threads : ∀ (i : ℕ) (th : StagingThread), s.threads[i]? = some th → s.Good transactionId f i th
  owners : ∀ (i j : ℕ) (th th' : StagingThread) name, s.threads[i]? = some th → s.threads[j]? = some th' →
    th.owning = some name → th'.owning = some name → i = j
  transaction : Text.strip transactionId = "" → s.reservedNames = []
  reserved : ∀ name ∈ s.reservedNames, f.names name = .absent ∧
    (s.files.names name = .absent ∨ ReservedBy transactionId s.files name)
  refs : ∀ name ref, s.refs.lookup name = some ref → name ∈ s.reservedNames ∧
    ref.backend = "filesystem" ∧ f.payloads ref.uri = none ∧ ref.uri ∈ s.used
  names : ∀ name, s.files.names name = f.names name ∨ name ∈ s.reservedNames ∨
    ∃ (i : ℕ) (th : StagingThread), s.threads[i]? = some th ∧ th.creating = some name
  payloads : ∀ uri, s.files.payloads uri = f.payloads uri ∨
    (∃ name ref, s.refs.lookup name = some ref ∧ ref.uri = uri) ∨
    ∃ (i : ℕ) (th : StagingThread), s.threads[i]? = some th ∧ th.storing = some uri
  running : ∀ i, s.running i = true → s.active = false ∧
    ∀ c, s.threads[i]? ≠ some (.publish c .returned)

variable {transactionId f} {L : PublicationLedger} {taken : List String} {s t : Staging} {i : ℕ}

theorem start_inv (f : LedgerFiles) (prepared : Bool) : (start f prepared).Inv transactionId f where
  threads i th h := by simp [start] at h
  owners i j th th' name h := by simp [start] at h
  transaction _ := rfl
  reserved name h := by simp [start] at h
  refs name ref h := by simp [start] at h
  names name := .inl rfl
  payloads uri := .inl rfl
  running i h := by simp [start] at h

/-! ## What a step leaves to the others -/

/-- A step of thread `i`, as far as it concerns the invariant of the others and of the files. -/
structure Moves (f : LedgerFiles) (s t : Staging) (i : ℕ) (old new : StagingThread) : Prop where
  threads : t.threads = s.threads.set i new
  reserved : ∀ name ∈ s.reservedNames, name ∈ t.reservedNames
  used : ∀ uri ∈ s.used, uri ∈ t.used
  registered : ∀ name ref, s.refs.lookup name = some ref → t.refs.lookup name = some ref
  lock : ∀ j, j ≠ i → s.lock = some j → t.lock = some j ∧ t.reservedNames = s.reservedNames ∧
    ∀ name, name ∉ s.reservedNames → t.files.names name = s.files.names name
  absent : ∀ name ∈ s.reservedNames, s.files.names name = .absent → t.files.names name = .absent
  others : ∀ name ∈ s.reservedNames, t.files.names name = s.files.names name ∨
    t.files.names name = .absent ∨ old.owning = some name
  collected : t.reservedNames = s.reservedNames ∨
    ∀ th ∈ s.threads, ∀ pc ∈ th.abortPc, pc.collected = false
  refs : ∀ name ref, t.refs.lookup name = some ref →
    s.refs.lookup name = some ref ∧
      (s.files.payloads ref.uri = none → t.files.payloads ref.uri = none) ∨
    old.owning = some name ∧ ∀ th ∈ s.threads, ∀ pc ∈ th.abortPc, pc.comesTo name = true
  names : ∀ name, t.files.names name = s.files.names name ∧
      (old.creating = some name → new.creating = some name) ∨
    name ∈ t.reservedNames ∨ new.creating = some name
  payloads : ∀ uri, t.files.payloads uri = s.files.payloads uri ∧
      (old.storing = some uri → new.storing = some uri) ∨
    t.files.payloads uri = f.payloads uri ∨
    (∃ name ref, t.refs.lookup name = some ref ∧ ref.uri = uri) ∨ new.storing = some uri
  owning : ∀ name, new.owning = some name → old.owning = some name ∨ name ∉ s.reservedNames
  running : ∀ j, t.running j = true →
    s.running j = true ∨ t.active = false ∧ ∃ th, s.threads[j]? = some th ∧ th.publishing = true
  active : s.active = false → t.active = false
  returns : ∀ c, new = .publish c .returned → s.active = true ∧ t.active = true

theorem Covered.frame {todo : List String} (h : s.Covered todo)
    (hreserved : t.reservedNames = s.reservedNames)
    (habsent : ∀ name ∈ s.reservedNames, s.files.names name = .absent →
      t.files.names name = .absent)
    (hrefs : ∀ name ref, t.refs.lookup name = some ref → s.refs.lookup name = some ref ∧
      (s.files.payloads ref.uri = none → t.files.payloads ref.uri = none) ∨ name ∈ todo) :
    t.Covered todo where
  reserved name hname := hreserved ▸ h.reserved name hname
  names name hname := by
    rw [hreserved] at hname
    exact (h.names name hname).imp_right (habsent name hname)
  refs name ref href := by
    obtain ⟨hold, hnone⟩ | hcomes := hrefs name ref href
    · exact (h.refs name ref hold).imp_right hnone
    · exact .inl hcomes

theorem AbortInv.frame {pc : TransactionAbortPc} (h : s.AbortInv f pc)
    (hreserved : ∀ name ∈ s.reservedNames, name ∈ t.reservedNames)
    (hcollected : pc.collected = true → t.reservedNames = s.reservedNames)
    (habsent : ∀ name ∈ s.reservedNames, s.files.names name = .absent →
      t.files.names name = .absent)
    (hrefs : ∀ name ref, t.refs.lookup name = some ref → s.refs.lookup name = some ref ∧
      (s.files.payloads ref.uri = none → t.files.payloads ref.uri = none) ∨
      pc.comesTo name = true) : t.AbortInv f pc := by
  cases pc with
  | check | deactivate | takeNames | skipped | raised => trivial
  | recordEvent | returned =>
      exact Covered.frame h (hcollected rfl) habsent fun name ref href ↦
        (hrefs name ref href).imp_right fun hcomes ↦ by cases hcomes
  | ledger names pc =>
      obtain ⟨hnames, hpc⟩ := h
      refine ⟨fun name hname ↦ hreserved name (hnames name hname), ?_⟩
      cases pc with
      | checkCommit | checkTombstone tombstone | createTombstone tombstone
      | writeTombstone tombstone | returned | raised e => trivial
      | sweep todo =>
          exact Covered.frame hpc (hcollected rfl) habsent fun name ref href ↦
            (hrefs name ref href).imp_right of_decide_eq_true
      | unlinkName next todo =>
          refine Covered.frame hpc (hcollected rfl) habsent fun name ref href ↦
            (hrefs name ref href).imp_right fun hcomes ↦ ?_
          simpa [TransactionAbortPc.comesTo] using hcomes
      | deleteRef ref todo =>
          obtain ⟨hfresh, htodo, hcovered, hleft⟩ := hpc
          have hsame := hcollected rfl
          refine ⟨hfresh, fun name hname ↦ hreserved name (htodo name hname), ?_, ?_⟩
          · intro name hname
            rw [hsame] at hname
            exact (hcovered name hname).imp_right (habsent name hname)
          · intro name ref' href
            obtain ⟨hold, hnone⟩ | hcomes := hrefs name ref' href
            · exact (hleft name ref' hold).imp_right (Or.imp_right hnone)
            · exact .inl (of_decide_eq_true hcomes)

theorem Good.locked {th : StagingThread} {name : String} (h : s.Good transactionId f i th)
    (hname : th.creating = some name) : s.lock = some i := by
  cases th with
  | abort reason pc => cases hname
  | publish c pc =>
      cases pc
      case writeReservation | recordName => exact h.2.1.lock
      all_goals cases hname

theorem Good.owned {th : StagingThread} {name : String} (h : s.Good transactionId f i th)
    (hname : th.owning = some name) : name ∈ s.reservedNames := by
  cases th with
  | abort reason pc => cases hname
  | publish c pc =>
      cases pc
      case checkpoint | store | stat | attachRead | attachReplace | attached | register =>
        cases hname
        exact h.2.1.recorded
      all_goals cases hname

theorem Good.stored {th : StagingThread} {uri : Path} (h : s.Good transactionId f i th)
    (huri : th.storing = some uri) : uri ∈ s.used := by
  cases th with
  | abort reason pc => cases huri
  | publish c pc =>
      cases pc
      case stat | attachRead | attachReplace => cases huri; exact h.2.2.1.used
      case attached | register => cases huri; exact h.2.2.used
      all_goals cases huri

section Others

variable {old new : StagingThread} {j : ℕ} {c : PublishCall}

theorem Moves.locked (hm : Moves f s t i old new) (hne : j ≠ i) (h : s.Locked j c) :
    t.Locked j c ∧ t.files.names c.artifactName = s.files.names c.artifactName := by
  obtain ⟨hlock, hreserved, hnames⟩ := hm.lock j hne h.lock
  refine ⟨⟨hlock, ?_⟩, hnames _ h.unrecorded⟩
  rw [hreserved]
  exact h.unrecorded

theorem Moves.owned (hm : Moves f s t i old new) (h : s.Owned c)
    (hother : old.owning ≠ some c.artifactName) : t.Owned c where
  recorded := hm.reserved _ h.recorded
  unregistered hmem := by
    obtain ⟨ref, href⟩ := Dict.mem_iff.mp hmem
    obtain ⟨hold, -⟩ | ⟨hown, -⟩ := hm.refs _ ref href
    · exact h.unregistered (Dict.mem_iff.mpr ⟨ref, hold⟩)
    · exact hother hown

theorem Moves.stored (hm : Moves f s t i old new) (h : Stored f s c) : Stored f t c :=
  ⟨hm.used _ h.used, h.fresh⟩

theorem Moves.unattached (hm : Moves f s t i old new) (h : s.Owned c ∧ s.Unattached c)
    (hother : old.owning ≠ some c.artifactName) : t.Unattached c := by
  intro r hr
  obtain hsame | habsent | hown := hm.others _ h.1.recorded
  · exact h.2 r (hsame.symm.trans hr)
  · rw [habsent] at hr
    cases hr
  · exact absurd hown hother

theorem Moves.abortInv (hm : Moves f s t i old new) {th : StagingThread} {pc : TransactionAbortPc}
    (hth : th ∈ s.threads) (hpc : th.abortPc = some pc) (h : s.AbortInv f pc) :
    t.AbortInv f pc := by
  refine h.frame hm.reserved (fun hcollected ↦ ?_) hm.absent ?_
  · refine hm.collected.resolve_right fun hnone ↦ ?_
    exact absurd (hcollected.symm.trans (hnone th hth pc hpc)) (by decide)
  · intro name ref href
    exact (hm.refs name ref href).imp_right fun hcomes ↦ hcomes.2 th hth pc hpc

/-- The invariant of another thread. -/
theorem Moves.good {th : StagingThread} (hm : Moves f s t i old new)
    (h : s.Inv transactionId f) (hi : s.threads[i]? = some old) (hj : s.threads[j]? = some th)
    (hne : j ≠ i) : t.Good transactionId f j th := by
  have hgood := h.threads j th hj
  have hmem : th ∈ s.threads := List.mem_of_getElem? hj
  have hother : ∀ name, th.owning = some name → old.owning ≠ some name :=
    fun name hname hown ↦ hne (h.owners j i th old name hj hi hname hown)
  cases th with
  | abort reason pc => exact hm.abortInv hmem rfl hgood
  | publish c pc =>
      obtain ⟨hcall, hpc⟩ := hgood
      refine ⟨hcall, ?_⟩
      cases pc with
      | check | acquire | lastCheckpoint | recordEvent | returned | raised => trivial
      | reserve | readReservation => exact (hm.locked hne hpc).1
      | writeReservation => exact ⟨(hm.locked hne hpc.1).1, hpc.2⟩
      | recordName =>
          obtain ⟨hlocked, hcreated, hwritten⟩ := hpc
          obtain ⟨hlocked', hnames⟩ := hm.locked hne hlocked
          exact ⟨hlocked', hcreated, hnames.trans hwritten⟩
      | checkpoint | store =>
          exact ⟨hm.owned hpc.1 (hother _ rfl), hm.unattached hpc (hother _ rfl)⟩
      | stat | attachRead =>
          exact ⟨hm.owned hpc.1 (hother _ rfl), hm.stored hpc.2.1,
            hm.unattached ⟨hpc.1, hpc.2.2⟩ (hother _ rfl)⟩
      | attached | register =>
          exact ⟨hm.owned hpc.1 (hother _ rfl), hm.stored hpc.2⟩
      | attachReplace current =>
          exact ⟨hm.owned hpc.1 (hother _ rfl), hm.stored hpc.2.1, hpc.2.2⟩
      | aborting reason pc => exact hm.abortInv hmem rfl hpc

end Others

/-- The invariant is kept if the thread that moves keeps its own, and what it has put down is
accounted for. -/
theorem Moves.inv {old new : StagingThread} (hm : Moves f s t i old new)
    (h : s.Inv transactionId f) (hi : s.threads[i]? = some old)
    (hgood : t.Good transactionId f i new)
    (htransaction : Text.strip transactionId = "" → t.reservedNames = [])
    (hreserved : ∀ name ∈ t.reservedNames, f.names name = .absent ∧
      (t.files.names name = .absent ∨ ReservedBy transactionId t.files name))
    (hrefs : ∀ name ref, t.refs.lookup name = some ref → name ∈ t.reservedNames ∧
      ref.backend = "filesystem" ∧ f.payloads ref.uri = none ∧ ref.uri ∈ t.used) :
    t.Inv transactionId f := by
  have hlt : i < s.threads.length := (List.getElem?_eq_some_iff.mp hi).1
  have hnew : t.threads[i]? = some new := by
    rw [hm.threads, List.getElem?_set_self hlt]
  have hother : ∀ j, j ≠ i → t.threads[j]? = s.threads[j]? := fun j hne ↦ by
    rw [hm.threads, List.getElem?_set_ne hne.symm]
  constructor
  · intro j th hj
    by_cases hne : j = i
    · subst hne
      obtain rfl := Option.some.inj (hnew.symm.trans hj)
      exact hgood
    · exact hm.good h hi (hother j hne ▸ hj) hne
  · -- Who owns a name newly owns one that had not been recorded.
    have hfresh : ∀ (j : ℕ) (th : StagingThread) name, j ≠ i → t.threads[j]? = some th → th.owning = some name →
        new.owning ≠ some name := by
      intro j th name hne hj hth hname
      rw [hother j hne] at hj
      obtain hold | hnot := hm.owning name hname
      · exact hne (h.owners j i th old name hj hi hth hold)
      · exact hnot ((h.threads j th hj).owned hth)
    intro j k th th' name hj hk hth hth'
    by_cases hji : j = i
    · by_cases hki : k = i
      · exact hji.trans hki.symm
      · subst hji
        obtain rfl := Option.some.inj (hnew.symm.trans hj)
        exact absurd hth (hfresh k th' name hki hk hth')
    · by_cases hki : k = i
      · subst hki
        obtain rfl := Option.some.inj (hnew.symm.trans hk)
        exact absurd hth' (hfresh j th name hji hj hth)
      · rw [hother j hji] at hj
        rw [hother k hki] at hk
        exact h.owners j k th th' name hj hk hth hth'
  · exact htransaction
  · exact hreserved
  · exact hrefs
  · intro name
    obtain ⟨hsame, hkeeps⟩ | hname | hname := hm.names name
    · obtain hf | hname | ⟨j, th, hj, hth⟩ := h.names name
      · exact .inl (hsame.trans hf)
      · exact .inr (.inl (hm.reserved name hname))
      · by_cases hne : j = i
        · subst hne
          obtain rfl := Option.some.inj (hi.symm.trans hj)
          exact .inr (.inr ⟨j, new, hnew, hkeeps hth⟩)
        · exact .inr (.inr ⟨j, th, (hother j hne).trans hj, hth⟩)
    · exact .inr (.inl hname)
    · exact .inr (.inr ⟨i, new, hnew, hname⟩)
  · intro uri
    obtain ⟨hsame, hkeeps⟩ | hf | href | huri := hm.payloads uri
    · obtain hf | ⟨name, ref, href, huri⟩ | ⟨j, th, hj, hth⟩ := h.payloads uri
      · exact .inl (hsame.trans hf)
      · exact .inr (.inl ⟨name, ref, hm.registered name ref href, huri⟩)
      · by_cases hne : j = i
        · subst hne
          obtain rfl := Option.some.inj (hi.symm.trans hj)
          exact .inr (.inr ⟨j, new, hnew, hkeeps hth⟩)
        · exact .inr (.inr ⟨j, th, (hother j hne).trans hj, hth⟩)
    · exact .inl hf
    · exact .inr (.inl href)
    · exact .inr (.inr ⟨i, new, hnew, huri⟩)
  · intro j hj
    have hnever : t.active = false → ∀ c, new ≠ .publish c .returned := by
      intro hinactive c hc
      exact absurd (hinactive.symm.trans (hm.returns c hc).2) (by decide)
    obtain hrunning | ⟨hinactive, th, hth, hpublishing⟩ := hm.running j hj
    · obtain ⟨hinactive, hnot⟩ := h.running j hrunning
      refine ⟨hm.active hinactive, fun c hc ↦ ?_⟩
      by_cases hne : j = i
      · subst hne
        exact hnever (hm.active hinactive) c (Option.some.inj (hnew.symm.trans hc))
      · exact hnot c ((hother j hne).symm.trans hc)
    · refine ⟨hinactive, fun c hc ↦ ?_⟩
      by_cases hne : j = i
      · subst hne
        exact hnever hinactive c (Option.some.inj (hnew.symm.trans hc))
      · rw [hother j hne, hth] at hc
        rw [Option.some.inj hc] at hpublishing
        cases hpublishing

/-! ## Steps that touch neither reservations nor bytes -/

/-- The two states agree on what the transaction has put down and recorded. -/
structure Same (s t : Staging) : Prop where
  names : t.files.names = s.files.names
  payloads : t.files.payloads = s.files.payloads
  reserved : t.reservedNames = s.reservedNames
  refs : t.refs = s.refs
  used : t.used = s.used

theorem Inv.still (h : s.Inv transactionId f) {old new : StagingThread}
    (hi : s.threads[i]? = some old) (hthreads : t.threads = s.threads.set i new)
    (hsame : s.Same t) (hlock : ∀ j, j ≠ i → s.lock = some j → t.lock = some j)
    (hcreating : ∀ name, old.creating = some name → new.creating = some name)
    (hstoring : ∀ uri, old.storing = some uri → new.storing = some uri)
    (howning : ∀ name, new.owning = some name → old.owning = some name)
    (hrunning : ∀ j, t.running j = true → s.running j = true ∨
      t.active = false ∧ ∃ th, s.threads[j]? = some th ∧ th.publishing = true)
    (hactive : s.active = false → t.active = false)
    (hreturns : ∀ c, new = .publish c .returned → s.active = true ∧ t.active = true)
    (hgood : t.Good transactionId f i new) : t.Inv transactionId f := by
  obtain ⟨hnames, hpayloads, hreserved, hrefs, hused⟩ := hsame
  have hm : Moves f s t i old new := by
    constructor
    · exact hthreads
    · exact fun name hname ↦ hreserved ▸ hname
    · exact fun uri huri ↦ hused ▸ huri
    · exact fun name ref href ↦ hrefs ▸ href
    · exact fun j hne hj ↦ ⟨hlock j hne hj, hreserved, fun name _ ↦ by rw [hnames]⟩
    · exact fun name _ habsent ↦ hnames ▸ habsent
    · exact fun name _ ↦ .inl (by rw [hnames])
    · exact .inl hreserved
    · exact fun name ref href ↦ .inl ⟨hrefs ▸ href, fun hnone ↦ hpayloads ▸ hnone⟩
    · exact fun name ↦ .inl ⟨by rw [hnames], hcreating name⟩
    · exact fun uri ↦ .inl ⟨by rw [hpayloads], hstoring uri⟩
    · exact fun name hname ↦ .inl (howning name hname)
    · exact hrunning
    · exact hactive
    · exact hreturns
  refine hm.inv h hi hgood ?_ ?_ ?_
  · rw [hreserved]
    exact h.transaction
  · rw [hreserved, hnames]
    intro name hname
    refine (h.reserved name hname).imp_right (Or.imp_right ?_)
    rintro ⟨r, hr, hof⟩
    exact ⟨r, by rw [hnames, hr], hof⟩
  · rw [hreserved, hrefs, hused]
    exact h.refs

/-- Nothing is asked of what is not there. -/
theorem of_none {α : Type*} {P : α → Prop} : ∀ a, none = some a → P a := by
  intro a h
  cases h

/-- The thread goes on, and may take or release the lock. -/
theorem Inv.go (h : s.Inv transactionId f) {c : PublishCall} {pc pc' : StagePc}
    (hi : s.threads[i]? = some (.publish c pc)) {lock : Option ℕ}
    (hlock : ∀ j, j ≠ i → s.lock = some j → lock = some j)
    (hcreating : ∀ name, (StagingThread.publish c pc).creating = some name →
      (StagingThread.publish c pc').creating = some name)
    (hstoring : ∀ uri, (StagingThread.publish c pc).storing = some uri →
      (StagingThread.publish c pc').storing = some uri)
    (howning : ∀ name, (StagingThread.publish c pc').owning = some name →
      (StagingThread.publish c pc).owning = some name)
    (hreturns : pc' = .returned → s.active = true)
    (hgood : ({ s with lock := lock, threads := s.threads.set i (.publish c pc') } :
      Staging).PublishInv transactionId f i c pc') :
    ({ s with lock := lock, threads := s.threads.set i (.publish c pc') } : Staging).Inv
      transactionId f := by
  refine h.still hi rfl ⟨rfl, rfl, rfl, rfl, rfl⟩ hlock hcreating hstoring howning
    (fun _ hj ↦ .inl hj) id ?_ ⟨(h.threads i _ hi).1, hgood⟩
  intro c' hc'
  obtain ⟨-, hpc'⟩ := StagingThread.publish.inj hc'
  exact ⟨hreturns hpc', hreturns hpc'⟩

/-- A thread goes on to where it neither creates, stores nor owns anything. -/
theorem Inv.goIdle (h : s.Inv transactionId f) {c : PublishCall} {pc pc' : StagePc}
    (hi : s.threads[i]? = some (.publish c pc)) {lock : Option ℕ}
    (hlock : ∀ j, j ≠ i → s.lock = some j → lock = some j)
    (hcreating : (StagingThread.publish c pc).creating = none)
    (hstoring : (StagingThread.publish c pc).storing = none)
    (howning : (StagingThread.publish c pc').owning = none) (hreturns : pc' ≠ .returned)
    (hgood : ({ s with lock := lock, threads := s.threads.set i (.publish c pc') } :
      Staging).PublishInv transactionId f i c pc') :
    ({ s with lock := lock, threads := s.threads.set i (.publish c pc') } : Staging).Inv
      transactionId f := by
  refine h.go hi hlock ?_ ?_ ?_ (fun hpc ↦ absurd hpc hreturns) hgood
  · rw [hcreating]
    exact of_none
  · rw [hstoring]
    exact of_none
  · rw [howning]
    exact of_none

/-! ## Steps of `abort` -/

theorem lookup_refsList (s : Staging) (name : String) :
    s.refsList.lookup name = s.refs.lookup name := by
  unfold refsList AList.lookup
  induction s.refs.entries with
  | nil => rfl
  | cons e rest ih =>
      obtain ⟨key, ref⟩ := e
      by_cases hname : name = key
      · subst hname
        simp [List.dlookup_cons_eq]
      · have hkey : (name == key) = false := by simpa using hname
        rw [List.map_cons, List.lookup_cons, hkey, List.dlookup_cons_ne _ _ hname]
        exact ih

/-- The names that `abort` of the ledger collects. -/
theorem mem_allNames {reason : String} {names : List String} {name : String} :
    name ∈ (s.abortCall transactionId reason names).allNames ↔ name ∈ s.refs ∨ name ∈ names := by
  rw [AbortCall.allNames, List.mem_dedup, List.mem_append, AList.mem_keys]
  simp [abortCall, refsList, AList.keys, List.keys]

/-- What follows when the reservation of a name is gone. -/
theorem afterName_inv {c : AbortCall} {names todo : List String} {name : String}
    (hc : c.refs = s.refsList) (hnames : ∀ n ∈ names, n ∈ s.reservedNames)
    (htodo : ∀ n ∈ todo, n ∈ s.reservedNames)
    (hcovered : ∀ n ∈ s.reservedNames, n ∈ todo ∨ s.files.names n = .absent)
    (hleft : ∀ n ref, s.refs.lookup n = some ref →
      n = name ∨ n ∈ todo ∨ s.files.payloads ref.uri = none)
    (hrefs : ∀ n ref, s.refs.lookup n = some ref →
      ref.backend = "filesystem" ∧ f.payloads ref.uri = none) :
    s.AbortInv f (.afterLedger names (c.afterName L name todo)) := by
  have hlookup : c.refs.lookup name = s.refs.lookup name := by rw [hc, lookup_refsList]
  unfold AbortCall.afterName
  rw [hlookup]
  cases href : s.refs.lookup name with
  | none =>
      refine ⟨hnames, htodo, hcovered, fun n ref hn ↦ ?_⟩
      refine (hleft n ref hn).resolve_left fun hname ↦ ?_
      rw [hname, href] at hn
      cases hn
  | some ref =>
      obtain ⟨hbackend, hfresh⟩ := hrefs name ref href
      simp only [hbackend, ne_eq, not_true, if_false]
      split
      · trivial
      · refine ⟨hnames, hfresh, htodo, hcovered, fun n ref' hn ↦ ?_⟩
        obtain hname | hname | hnone := hleft n ref' hn
        · rw [hname, href] at hn
          exact .inr (.inl (congrArg DataRef.uri (Option.some.inj hn)).symm)
        · exact .inl hname
        · exact .inr (.inr hnone)

/-- A thread in `abort`, which it has called itself or in the handler of `publish`. -/
structure Wraps (transactionId : String) (f : LedgerFiles)
    (wrap : TransactionAbortPc → StagingThread) : Prop where
  creating : ∀ pc, (wrap pc).creating = none
  storing : ∀ pc, (wrap pc).storing = none
  owning : ∀ pc, (wrap pc).owning = none
  returns : ∀ pc c, wrap pc ≠ .publish c .returned
  good : ∀ s i pc, Good transactionId f s i (wrap pc) ↔ s.AbortInv f pc

theorem wraps_abort (reason : String) : Wraps transactionId f (.abort reason) where
  creating _ := rfl
  storing _ := rfl
  owning _ := rfl
  returns _ _ h := nomatch h
  good _ _ _ := .rfl

theorem wraps_aborting {c : PublishCall} (reason : String)
    (hc : c.transactionId = transactionId ∧ c.ref.backend = "filesystem") :
    Wraps transactionId f fun pc ↦ .publish c (.aborting reason pc) where
  creating _ := rfl
  storing _ := rfl
  owning _ := rfl
  returns _ _ h := nomatch h
  good _ _ _ := ⟨fun h ↦ h.2, fun h ↦ ⟨hc, h⟩⟩

section Abort

variable {wrap : TransactionAbortPc → StagingThread} {pc pc' : TransactionAbortPc}

/-- `abort` goes on, and what it has changed does not concern the names and bytes. -/
theorem Inv.goAbort (h : s.Inv transactionId f) (hwrap : Wraps transactionId f wrap)
    (hi : s.threads[i]? = some (wrap pc)) (hthreads : t.threads = s.threads.set i (wrap pc'))
    (hsame : s.Same t) (hlock : t.lock = s.lock)
    (hrunning : ∀ j, t.running j = true → s.running j = true ∨
      t.active = false ∧ ∃ th, s.threads[j]? = some th ∧ th.publishing = true)
    (hactive : s.active = false → t.active = false) (hinv : t.AbortInv f pc') :
    t.Inv transactionId f := by
  refine h.still hi hthreads hsame (fun j _ hj ↦ hlock.trans hj) ?_ ?_ ?_ hrunning hactive ?_
    ((hwrap.good t i pc').mpr hinv)
  · intro name hname
    rw [hwrap.creating] at hname
    cases hname
  · intro uri huri
    rw [hwrap.storing] at huri
    cases huri
  · intro name hname
    rw [hwrap.owning] at hname
    cases hname
  · exact fun c hc ↦ absurd hc (hwrap.returns pc' c)

/-- The names that are collected are dealt with one after another. -/
theorem Inv.collect (h : s.Inv transactionId f) {t : Staging} {reason : String}
    {names : List String} (hreserved : t.reservedNames = s.reservedNames) (hrefs : t.refs = s.refs)
    (hnames : ∀ name ∈ names, name ∈ s.reservedNames)
    (hall : ∀ name ∈ s.reservedNames, name ∈ names ∨ name ∈ s.refs) :
    t.AbortInv f (.afterLedger names
      (.sweep (s.abortCall transactionId reason names).allNames)) := by
  refine ⟨?_, fun name hname ↦ ?_, fun name hname ↦ .inl ?_, fun name ref href ↦ .inl ?_⟩
  · rwa [hreserved]
  · rw [hreserved]
    obtain hname | hname := mem_allNames.mp hname
    · obtain ⟨ref, href⟩ := Dict.mem_iff.mp hname
      exact (h.refs name ref href).1
    · exact hnames name hname
  · rw [hreserved] at hname
    exact mem_allNames.mpr (hall name hname).symm
  · rw [hrefs] at href
    exact mem_allNames.mpr (.inl (Dict.mem_iff.mpr ⟨ref, href⟩))

/-- A step of `abort` of the ledger that writes to no file, or only a tombstone. -/
theorem Inv.goLedger (h : s.Inv transactionId f) (hwrap : Wraps transactionId f wrap)
    (hi : s.threads[i]? = some (wrap pc)) {g : LedgerFiles} (hnames : g.names = s.files.names)
    (hpayloads : g.payloads = s.files.payloads)
    (hinv : (({ s with files := g } : Staging).goto i (wrap pc')).AbortInv f pc') :
    (({ s with files := g } : Staging).goto i (wrap pc')).Inv transactionId f :=
  h.goAbort hwrap hi rfl ⟨hnames, hpayloads, rfl, rfl, rfl⟩ rfl (fun _ hj ↦ .inl hj) id hinv

theorem reservedNames_goto (s : Staging) (i : ℕ) (th : StagingThread) :
    (s.goto i th).reservedNames = s.reservedNames := rfl

theorem refs_goto (s : Staging) (i : ℕ) (th : StagingThread) : (s.goto i th).refs = s.refs := rfl

theorem setTombstone_names (g : LedgerFiles) (id : String) (file : JsonFile Tombstone) :
    (g.setTombstone id file).names = g.names := rfl

theorem setTombstone_payloads (g : LedgerFiles) (id : String) (file : JsonFile Tombstone) :
    (g.setTombstone id file).payloads = g.payloads := rfl

/-- The tombstone is written. -/
theorem Inv.goTombstone (h : s.Inv transactionId f) (hwrap : Wraps transactionId f wrap)
    (hi : s.threads[i]? = some (wrap pc)) {id : String} {file : JsonFile Tombstone}
    (hinv : (({ s with files := s.files.setTombstone id file } : Staging).goto i
      (wrap pc')).AbortInv f pc') :
    (({ s with files := s.files.setTombstone id file } : Staging).goto i (wrap pc')).Inv
      transactionId f :=
  h.goLedger hwrap hi (setTombstone_names _ id file) (setTombstone_payloads _ id file) hinv

/-- The reservation of a name that has been recorded is unlinked. -/
theorem Inv.unlink (h : s.Inv transactionId f) (hwrap : Wraps transactionId f wrap)
    (hi : s.threads[i]? = some (wrap pc)) {name : String} (hname : name ∈ s.reservedNames)
    (hinv : (({ s with files := s.files.setName name .absent } : Staging).goto i
      (wrap pc')).AbortInv f pc') :
    (({ s with files := s.files.setName name .absent } : Staging).goto i (wrap pc')).Inv
      transactionId f := by
  have hset : ∀ n, (s.files.setName name .absent).names n =
      if n = name then .absent else s.files.names n := fun n ↦ by
    simp [LedgerFiles.setName, Function.update_apply]
  have hm : Moves f s (({ s with files := s.files.setName name .absent } : Staging).goto i
      (wrap pc')) i (wrap pc) (wrap pc') := by
    constructor
    · rfl
    · exact fun _ hn ↦ hn
    · exact fun _ hu ↦ hu
    · exact fun _ _ href ↦ href
    · refine fun j _ hj ↦ ⟨hj, rfl, fun n hn ↦ ?_⟩
      refine (hset n).trans (if_neg ?_)
      rintro rfl
      exact hn hname
    · intro n _ habsent
      refine (hset n).trans ?_
      split
      · rfl
      · exact habsent
    · intro n _
      by_cases hn : n = name
      · exact .inr (.inl ((hset n).trans (if_pos hn)))
      · exact .inl ((hset n).trans (if_neg hn))
    · exact .inl rfl
    · exact fun _ _ href ↦ .inl ⟨href, id⟩
    · intro n
      by_cases hn : n = name
      · exact .inr (.inl (hn ▸ hname))
      · refine .inl ⟨(hset n).trans (if_neg hn), fun hcreating ↦ ?_⟩
        rw [hwrap.creating] at hcreating
        cases hcreating
    · refine fun uri ↦ .inl ⟨rfl, fun hstoring ↦ ?_⟩
      rw [hwrap.storing] at hstoring
      cases hstoring
    · intro n howning
      rw [hwrap.owning] at howning
      cases howning
    · exact fun _ hj ↦ .inl hj
    · exact id
    · exact fun c hc ↦ absurd hc (hwrap.returns pc' c)
  refine hm.inv h hi ((hwrap.good _ i pc').mpr hinv) h.transaction ?_ h.refs
  intro n hn
  refine (h.reserved n hn).imp_right fun hold ↦ ?_
  by_cases hne : n = name
  · exact .inl ((hset n).trans (if_pos hne))
  · refine hold.imp ((hset n).trans (if_neg hne)).trans ?_
    rintro ⟨r, hr, hof⟩
    exact ⟨r, ((hset n).trans (if_neg hne)).trans hr, hof⟩

/-- Bytes are deleted where there had been nothing before the transaction. -/
theorem Inv.delete (h : s.Inv transactionId f) (hwrap : Wraps transactionId f wrap)
    (hi : s.threads[i]? = some (wrap pc)) {uri : Path} (huri : f.payloads uri = none)
    (hinv : (({ s with files := s.files.setPayload uri none } : Staging).goto i
      (wrap pc')).AbortInv f pc') :
    (({ s with files := s.files.setPayload uri none } : Staging).goto i (wrap pc')).Inv
      transactionId f := by
  have hset : ∀ u, (s.files.setPayload uri none).payloads u =
      if u = uri then none else s.files.payloads u := fun u ↦ by
    simp [LedgerFiles.setPayload, Function.update_apply]
  have hm : Moves f s (({ s with files := s.files.setPayload uri none } : Staging).goto i
      (wrap pc')) i (wrap pc) (wrap pc') := by
    constructor
    · rfl
    · exact fun _ hn ↦ hn
    · exact fun _ hu ↦ hu
    · exact fun _ _ href ↦ href
    · exact fun j _ hj ↦ ⟨hj, rfl, fun _ _ ↦ rfl⟩
    · exact fun _ _ habsent ↦ habsent
    · exact fun _ _ ↦ .inl rfl
    · exact .inl rfl
    · refine fun n ref href ↦ .inl ⟨href, fun hnone ↦ (hset ref.uri).trans ?_⟩
      split
      · rfl
      · exact hnone
    · refine fun n ↦ .inl ⟨rfl, fun hcreating ↦ ?_⟩
      rw [hwrap.creating] at hcreating
      cases hcreating
    · intro u
      by_cases hu : u = uri
      · exact .inr (.inl (((hset u).trans (if_pos hu)).trans (hu ▸ huri).symm))
      · refine .inl ⟨(hset u).trans (if_neg hu), fun hstoring ↦ ?_⟩
        rw [hwrap.storing] at hstoring
        cases hstoring
    · intro n howning
      rw [hwrap.owning] at howning
      cases howning
    · exact fun _ hj ↦ .inl hj
    · exact id
    · exact fun c hc ↦ absurd hc (hwrap.returns pc' c)
  exact hm.inv h hi ((hwrap.good _ i pc').mpr hinv) h.transaction h.reserved h.refs

/-- One step of `abort` of the ledger. -/
theorem Inv.ledger (h : s.Inv transactionId f) (hwrap : Wraps transactionId f wrap)
    {names : List String} {apc apc' : AbortPc} {m : Moment} {reason : String} {g : LedgerFiles}
    (hi : s.threads[i]? = some (wrap (.ledger names apc)))
    (hok : s.AbortOrderly transactionId m (.ledger names apc))
    (hstep : (s.abortCall transactionId reason names).step L m s.files apc = some (g, apc')) :
    (({ s with files := g } : Staging).goto i (wrap (.afterLedger names apc'))).Inv
      transactionId f := by
  obtain ⟨hnames, hinv⟩ := (hwrap.good s i _).mp (h.threads i _ hi)
  have hrefs : ∀ n ref, s.refs.lookup n = some ref →
      ref.backend = "filesystem" ∧ f.payloads ref.uri = none :=
    fun n ref href ↦ ⟨(h.refs n ref href).2.1, (h.refs n ref href).2.2.1⟩
  cases apc with
  | checkCommit =>
      obtain ⟨rfl, rfl⟩ := Prod.ext_iff.mp (Option.some.inj hstep)
      refine h.goLedger hwrap hi rfl rfl ?_
      dsimp only
      split_ifs with htransaction
      · have hnone := h.transaction htransaction
        refine ⟨fun _ hn ↦ absurd hn List.not_mem_nil, fun n hn ↦ ?_, fun n ref href ↦ ?_⟩
        · have hn' : n ∈ s.reservedNames := hn
          rw [hnone] at hn'
          cases hn'
        · have hn' := (h.refs n ref href).1
          rw [hnone] at hn'
          cases hn'
      · trivial
      · exact ⟨hnames, trivial⟩
  | checkTombstone tombstone =>
      obtain ⟨rfl, rfl⟩ := Prod.ext_iff.mp (Option.some.inj hstep)
      refine h.goLedger hwrap hi rfl rfl ?_
      dsimp only
      split_ifs with hpresent
      · apply h.collect ?_ ?_ hnames (hok hpresent)
        · exact reservedNames_goto _ _ _
        · exact refs_goto _ _ _
      · exact ⟨hnames, trivial⟩
  | createTombstone tombstone =>
      simp only [AbortCall.step] at hstep
      split_ifs at hstep
      · obtain ⟨rfl, rfl⟩ := Prod.ext_iff.mp (Option.some.inj hstep)
        exact h.goLedger hwrap hi rfl rfl trivial
      · obtain ⟨rfl, rfl⟩ := Prod.ext_iff.mp (Option.some.inj hstep)
        exact h.goTombstone hwrap hi ⟨hnames, trivial⟩
  | writeTombstone tombstone =>
      simp only [AbortCall.step] at hstep
      split_ifs at hstep with hfails hflushed
      · obtain ⟨rfl, rfl⟩ := Prod.ext_iff.mp (Option.some.inj hstep)
        exact h.goTombstone hwrap hi trivial
      · obtain ⟨rfl, rfl⟩ := Prod.ext_iff.mp (Option.some.inj hstep)
        exact h.goLedger hwrap hi rfl rfl trivial
      · obtain ⟨rfl, rfl⟩ := Prod.ext_iff.mp (Option.some.inj hstep)
        refine h.goTombstone hwrap hi ?_
        apply h.collect ?_ ?_ hnames (hok (by simpa using hfails))
        · exact reservedNames_goto _ _ _
        · exact refs_goto _ _ _
  | sweep todo =>
      cases todo with
      | nil =>
          obtain ⟨rfl, rfl⟩ := Prod.ext_iff.mp (Option.some.inj hstep)
          exact h.goLedger hwrap hi rfl rfl ⟨hinv.reserved, hinv.names, hinv.refs⟩
      | cons first rest =>
          simp only [AbortCall.step] at hstep
          split_ifs at hstep with hmem
          obtain ⟨rfl, rfl⟩ := Prod.ext_iff.mp (Option.some.inj hstep)
          have hname := hinv.reserved _ hmem
          -- What is left is the name that is taken and the rest.
          have htodo : ∀ n, n ∈ first :: rest → n = m.name ∨ n ∈ (first :: rest).erase m.name :=
            fun n hn ↦ or_iff_not_imp_left.mpr fun hne ↦ (List.mem_erase_of_ne hne).mpr hn
          have hrest : ∀ n ∈ (first :: rest).erase m.name, n ∈ s.reservedNames :=
            fun n hn ↦ hinv.reserved n (List.mem_of_mem_erase hn)
          have hleft : ∀ n ref, s.refs.lookup n = some ref → n = m.name ∨
              n ∈ (first :: rest).erase m.name ∨ s.files.payloads ref.uri = none := by
            intro n ref href
            obtain hn | hnone := hinv.refs n ref href
            · exact (htodo n hn).imp_right .inl
            · exact .inr (.inr hnone)
          refine h.goLedger hwrap hi rfl rfl ?_
          obtain habsent | ⟨r, hr, hof, -⟩ := (h.reserved _ hname).2
          · simp only [habsent, JsonFile.read, Option.any_none, Bool.false_eq_true, if_false]
            refine afterName_inv (s := Staging.goto _ _ _) rfl hnames hrest (fun n hn ↦ ?_) hleft
              hrefs
            obtain hn' | hnone := hinv.names n hn
            · refine (htodo n hn').symm.imp_right fun he ↦ ?_
              rw [he]
              exact habsent
            · exact .inr hnone
          · have htransaction :
                (NameRecord.reserved r).transactionId =
                  (s.abortCall transactionId reason names).transaction := hof
            simp only [hr, JsonFile.read, Option.any_some, htransaction, decide_true, if_true]
            refine ⟨hnames, fun n hn ↦ ?_, fun n hn ↦ ?_, fun n ref href ↦ ?_⟩
            · obtain rfl | hn' := List.mem_cons.mp hn
              · exact hname
              · exact hrest n hn'
            · refine (hinv.names n hn).imp_left fun hn' ↦ ?_
              exact List.mem_cons.mpr (htodo n hn')
            · refine (hinv.refs n ref href).imp_left fun hn' ↦ ?_
              exact List.mem_cons.mpr (htodo n hn')
  | unlinkName name todo =>
      simp only [AbortCall.step] at hstep
      split_ifs at hstep
      · obtain ⟨rfl, rfl⟩ := Prod.ext_iff.mp (Option.some.inj hstep)
        exact h.goLedger hwrap hi rfl rfl trivial
      · obtain ⟨rfl, rfl⟩ := Prod.ext_iff.mp (Option.some.inj hstep)
        have hname := hinv.reserved name (List.mem_cons_self ..)
        refine h.unlink hwrap hi hname ?_
        refine afterName_inv (s := Staging.goto _ _ _) rfl hnames
          (fun n hn ↦ hinv.reserved n (List.mem_cons_of_mem _ hn)) (fun n hn ↦ ?_)
          (fun n ref href ↦ ?_) hrefs
        · by_cases hne : n = name
          · right
            subst hne
            simp [goto, LedgerFiles.setName]
          · refine (hinv.names n hn).imp (fun hn' ↦ (List.mem_cons.mp hn').resolve_left hne) ?_
            intro habsent
            simpa [goto, LedgerFiles.setName, Function.update_of_ne hne] using habsent
        · obtain hn | hnone := hinv.refs n ref href
          · exact (List.mem_cons.mp hn).imp_right .inl
          · exact .inr (.inr hnone)
  | deleteRef ref todo =>
      obtain ⟨hfresh, htodo, hcovered, hleft⟩ := hinv
      simp only [AbortCall.step] at hstep
      split_ifs at hstep
      · obtain ⟨rfl, rfl⟩ := Prod.ext_iff.mp (Option.some.inj hstep)
        exact h.goLedger hwrap hi rfl rfl trivial
      · obtain ⟨rfl, rfl⟩ := Prod.ext_iff.mp (Option.some.inj hstep)
        refine h.delete hwrap hi hfresh ⟨hnames, htodo, hcovered, fun n ref' href ↦ ?_⟩
        by_cases huri : ref'.uri = ref.uri
        · right
          simp [goto, LedgerFiles.setPayload, huri]
        · refine (hleft n ref' href).imp_right fun hor ↦ ?_
          simpa [goto, LedgerFiles.setPayload, Function.update_of_ne huri] using
            hor.resolve_left huri
  | returned => cases hstep
  | raised e => cases hstep

/-- One step of `abort`. -/
theorem Inv.stepAbort (h : s.Inv transactionId f) (hwrap : Wraps transactionId f wrap)
    {m : Moment} {reason : String} (hi : s.threads[i]? = some (wrap pc))
    (hok : s.AbortOrderly transactionId m pc)
    (hstep : s.stepAbort L transactionId m reason pc = some (t, pc')) :
    (t.goto i (wrap pc')).Inv transactionId f := by
  have hinv := (hwrap.good s i pc).mp (h.threads i _ hi)
  cases pc with
  | check =>
      obtain ⟨rfl, rfl⟩ := Prod.ext_iff.mp (Option.some.inj hstep)
      refine h.goAbort hwrap hi rfl ⟨rfl, rfl, rfl, rfl, rfl⟩ rfl (fun _ hj ↦ .inl hj) id ?_
      dsimp only
      split <;> trivial
  | deactivate =>
      simp only [Staging.stepAbort] at hstep
      split_ifs at hstep
      obtain ⟨rfl, rfl⟩ := Prod.ext_iff.mp (Option.some.inj hstep)
      refine h.goAbort hwrap hi rfl ⟨rfl, rfl, rfl, rfl, rfl⟩ rfl (fun j hj ↦ ?_) (fun _ ↦ rfl)
        trivial
      obtain hj | hj := Bool.or_eq_true_iff.mp hj
      · exact .inl hj
      · exact .inr ⟨rfl, (Option.any_eq_true _ _).mp hj⟩
  | takeNames =>
      obtain ⟨rfl, rfl⟩ := Prod.ext_iff.mp (Option.some.inj hstep)
      exact h.goAbort hwrap hi rfl ⟨rfl, rfl, rfl, rfl, rfl⟩ rfl (fun _ hj ↦ .inl hj) id
        ⟨fun _ hn ↦ hn, trivial⟩
  | ledger names apc =>
      obtain ⟨⟨g, apc'⟩, hledger, heq⟩ := Option.map_eq_some_iff.mp hstep
      obtain ⟨rfl, rfl⟩ := Prod.ext_iff.mp heq
      exact h.ledger hwrap hi hok hledger
  | recordEvent =>
      obtain ⟨rfl, rfl⟩ := Prod.ext_iff.mp (Option.some.inj hstep)
      refine h.goAbort hwrap hi rfl ⟨rfl, rfl, rfl, rfl, rfl⟩ rfl (fun _ hj ↦ .inl hj) id ?_
      dsimp only
      split
      · trivial
      · exact ⟨fun _ hn ↦ absurd hn List.not_mem_nil, hinv.names, hinv.refs⟩
  | skipped => cases hstep
  | returned => cases hstep
  | raised => cases hstep

end Abort

end Staging

end Blackbase.Project
