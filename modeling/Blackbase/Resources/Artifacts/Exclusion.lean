import Blackbase.Resources.Artifacts.Programs

/-!
# Commits against aborts

`commit` looks for a tombstone and then creates the commit record; `abort` and the
scavenger look for a commit record and then create the tombstone.  Nothing is locked
between the look and the create.  On a run in which every commit record is created while
its transaction has no tombstone and no abort of it has passed its own check, a transaction
never has both records and the bytes of what is committed stay; a creation that is not
unopposed leads to both.
-/

namespace Blackbase.Resources.Artifacts

/-- The bytes of the ref are there, or its transaction has been aborted. -/
def LedgerFiles.Safe (f : LedgerFiles) (t : String) (ref : DataRef) : Prop :=
  f.Intact ref ∨ (f.tombstones t).present

/-- No transaction has both a commit record and a tombstone. -/
def LedgerFiles.Exclusive (f : LedgerFiles) : Prop :=
  ∀ t, ¬ ((f.commits t).present ∧ (f.tombstones t).present)

/-- The bytes of what is listed in a commit record are there. -/
def LedgerFiles.Kept (f : LedgerFiles) : Prop :=
  ∀ t record, f.commits t = .holds record → ∀ e ∈ record.receipts, f.Intact e.2.ref

/-! ## Creating a commit record -/

namespace AbortPc

/-- The commit check has been passed, and the tombstone is not there yet. -/
def inWindow : AbortPc → Bool
  | checkTombstone _ => true
  | createTombstone _ => true
  | _ => false

/-- The tombstone is there. -/
def pastTombstone : AbortPc → Bool
  | writeTombstone _ => true
  | sweep _ => true
  | unlinkName _ _ => true
  | deleteRef _ _ => true
  | _ => false

end AbortPc

namespace Process

/-- The abort a process is making. -/
def aborting : Process → Option (AbortCall × AbortPc)
  | abort c pc => some (c, pc)
  | scavenge _ (.aborting c pc _ _) => some (c, pc)
  | _ => none

/-- The transaction of which the process has found no commit record, and which it is about
to give a tombstone. -/
def window (p : Process) : Option String :=
  p.aborting.bind fun a ↦ if a.2.inWindow then some a.1.transaction else none

/-- The transaction whose commit record the step creates. -/
def seals (m : Moment) (f : LedgerFiles) : Process → Option String
  | commit c (.create _) =>
      if m.fails || (f.commits c.transaction).present then none else some c.transaction
  | _ => none

end Process

namespace LedgerState

/-- The transaction whose commit record the step creates. -/
def seals (s : LedgerState) : LedgerAction → Option String
  | .call _ => none
  | .step i m => (s.processes[i]?).bind fun p ↦ p.seals m s.files

/-- If the step creates a commit record, the transaction has no tombstone, and no abort of it
stands between its check and its tombstone. -/
def Unopposed (s : LedgerState) (l : LedgerAction) : Prop :=
  ∀ t ∈ s.seals l, (s.files.tombstones t).present = false ∧ ∀ q ∈ s.processes, q.window ≠ some t

instance (s : LedgerState) (l : LedgerAction) : Decidable (s.Unopposed l) :=
  inferInstanceAs (Decidable (∀ t ∈ s.seals l, _))

end LedgerState

/-! ## What is known -/

/-- The provisional ref of a reservation was staged for its transaction. -/
def Reservation.Owned (staged : List (String × DataRef)) (r : Reservation) : Prop :=
  ∀ ref ∈ r.provisionalRef, (Text.strip r.transactionId, ref) ∈ staged

section Facts

variable (f : LedgerFiles) (staged : List (String × DataRef))

/-- The refs of a commit other than those in `todo` have been found intact. -/
structure CommitCall.Pending (c : CommitCall) (todo : List (String × DataRef)) : Prop where
  staged : ∀ d ∈ todo, (c.transaction, d.2) ∈ staged
  safe : ∀ d ∈ c.refs, d ∈ todo ∨ f.Safe c.transaction d.2

/-- What a record is going to list has been found intact. -/
def CommitCall.Recorded (c : CommitCall) (record : CommitRecord) : Prop :=
  ∀ e ∈ record.receipts, (c.transaction, e.2.ref) ∈ staged ∧ f.Safe c.transaction e.2.ref

/-- What is known once the size of a file has been read. -/
def PhysicalCheck.Seen (t : String) (ref : DataRef) : PhysicalCheck → Prop
  | digest size =>
      (∃ p, f.payloads ref.uri = some p ∧ p.size = size) ∨ (f.tombstones t).present
  | _ => True

/-- What a commit knows where it is. -/
def CommitCall.Facts (c : CommitCall) : CommitPc → Prop
  | .readName name ref todo => c.Pending f staged ((name, ref) :: todo)
  | .validate none check name ref todo =>
      c.Pending f staged ((name, ref) :: todo) ∧ check.Seen f c.transaction ref
  | .stamp => c.Pending f staged []
  | .create record => c.Recorded f staged record
  | .write record => c.Recorded f staged record ∧ (f.commits c.transaction).present
  | _ => True

/-- What an abort knows where it is. -/
structure AbortCall.Facts (c : AbortCall) (pc : AbortPc) : Prop where
  window : pc.inWindow → (f.commits c.transaction).present = false
  tombstone : pc.pastTombstone → (f.tombstones c.transaction).present
  refs : ∀ r ∈ c.refs, (c.transaction, r.2) ∈ staged
  deletes : ∀ ref todo, pc = .deleteRef ref todo → (c.transaction, ref) ∈ staged

/-- The reservations of a group belong to its transaction. -/
def OwnedGroups (groups : ReservationGroups) : Prop :=
  ∀ g ∈ groups, ∀ r ∈ g.2, r.transactionId = g.1 ∧ r.Owned staged

/-- What the scavenger knows where it is. -/
def ScavengeCall.Facts : ScavengePc → Prop
  | .read _ _ entries => ∀ e ∈ entries, e.1.Owned staged
  | .checkCommit t entries rest _ => OwnedGroups staged ((t, entries) :: rest)
  | .aborting call pc rest _ => call.Facts f staged pc ∧ OwnedGroups staged rest
  | _ => True

/-- What a publication knows where it is. -/
def PublishCall.Facts (c : PublishCall) : PublishPc → Prop
  | .attachRead => (c.transaction, c.ref) ∈ staged
  | .attachReplace current =>
      (c.transaction, c.ref) ∈ staged ∧ current.transactionId = c.transaction
  | _ => True

/-- What a process knows where it is. -/
def Process.Facts : Process → Prop
  | .publish c pc => c.Facts staged pc
  | .commit c pc => (∀ r ∈ c.refs, (c.transaction, r.2) ∈ staged) ∧ c.Facts f staged pc
  | .abort c pc => c.Facts f staged pc
  | .scavenge _ pc => ScavengeCall.Facts f staged pc

/-- What holds of the files between any two steps. -/
structure FilesInv : Prop where
  exclusive : f.Exclusive
  kept : f.Kept
  listed : ∀ t record, f.commits t = .holds record →
    ∀ e ∈ record.receipts, (t, e.2.ref) ∈ staged
  names : ∀ name r, f.names name = .holds (.reserved r) → r.Owned staged
  /-- A path holds what was stored for one transaction. -/
  own : ∀ e ∈ staged, ∀ e' ∈ staged, e.2.uri = e'.2.uri → e.1 = e'.1

end Facts

/-! ## What a step may do to the files -/

/-- The changes of the files that a step makes which creates the commit record of
`sealed`. -/
inductive Writes (staged : List (String × DataRef)) (sealed : Option String) (f : LedgerFiles) :
    LedgerFiles → Prop
  | nothing : Writes staged sealed f f
  | openCommit (t : String) (hsealed : sealed = some t)
      (ht : (f.tombstones t).present = false) : Writes staged sealed f (f.setCommit t .opened)
  | writeCommit (t : String) (record : CommitRecord) (h : (f.commits t).present)
      (hrefs : ∀ e ∈ record.receipts, (t, e.2.ref) ∈ staged ∧ f.Safe t e.2.ref) :
      Writes staged sealed f (f.setCommit t (.holds record))
  | openTombstone (t : String) (h : (f.commits t).present = false) :
      Writes staged sealed f (f.setTombstone t .opened)
  | writeTombstone (t : String) (tombstone : Tombstone) (h : (f.tombstones t).present) :
      Writes staged sealed f (f.setTombstone t (.holds tombstone))
  | name (name : String) (file : JsonFile NameRecord)
      (h : ∀ r, file = .holds (.reserved r) → r.Owned staged) :
      Writes staged sealed f (f.setName name file)
  | store (uri : Path) (payload : Payload) (h : ∀ e ∈ staged, e.2.uri ≠ uri) :
      Writes staged sealed f (f.setPayload uri (some payload))
  | delete (t : String) (ref : DataRef) (h : (t, ref) ∈ staged)
      (ht : (f.tombstones t).present) : Writes staged sealed f (f.setPayload ref.uri none)

/-- What the others know survives the step: records stay, and bytes that were stored stay
unless their transaction has been aborted. -/
structure Leaves (staged : List (String × DataRef)) (f f' : LedgerFiles) : Prop where
  commits : ∀ t, (f.commits t).present → (f'.commits t).present
  tombstones : ∀ t, (f.tombstones t).present → (f'.tombstones t).present
  payloads : ∀ e ∈ staged, ∀ p, f.payloads e.2.uri = some p →
    f'.payloads e.2.uri = some p ∨ (f'.tombstones e.1).present

namespace Leaves

variable {staged : List (String × DataRef)} {f f' : LedgerFiles}

theorem refl (f : LedgerFiles) : Leaves staged f f where
  commits _ h := h
  tombstones _ h := h
  payloads _ _ _ h := .inl h

theorem intact (h : Leaves staged f f') {t : String} {ref : DataRef} (hs : (t, ref) ∈ staged)
    (hi : f.Intact ref) : f'.Safe t ref := by
  obtain ⟨p, hp, hsize, hsum⟩ := hi
  rcases h.payloads _ hs p hp with hp' | ht
  · exact .inl ⟨p, hp', hsize, hsum⟩
  · exact .inr ht

theorem safe (h : Leaves staged f f') {t : String} {ref : DataRef} (hs : (t, ref) ∈ staged)
    (hi : f.Safe t ref) : f'.Safe t ref := by
  rcases hi with hi | ht
  · exact h.intact hs hi
  · exact .inr (h.tombstones t ht)

theorem seen (h : Leaves staged f f') {t : String} {ref : DataRef} {check : PhysicalCheck}
    (hs : (t, ref) ∈ staged) (hi : check.Seen f t ref) : check.Seen f' t ref := by
  cases check with
  | isFile => trivial
  | stat => trivial
  | digest size =>
      rcases hi with ⟨p, hp, hsize⟩ | ht
      · rcases h.payloads _ hs p hp with hp' | ht
        · exact .inl ⟨p, hp', hsize⟩
        · exact .inr ht
      · exact .inr (h.tombstones t ht)

end Leaves

section Updates

variable {staged : List (String × DataRef)} {f : LedgerFiles}

theorem leaves_setCommit (t : String) {file : JsonFile CommitRecord} (h : file.present) :
    Leaves staged f (f.setCommit t file) where
  commits t' h' := by
    by_cases ht : t' = t
    · subst ht
      simpa [LedgerFiles.setCommit] using h
    · simpa [LedgerFiles.setCommit, ht] using h'
  tombstones _ h' := h'
  payloads _ _ _ h' := .inl h'

theorem leaves_setTombstone (t : String) {file : JsonFile Tombstone} (h : file.present) :
    Leaves staged f (f.setTombstone t file) where
  commits _ h' := h'
  tombstones t' h' := by
    by_cases ht : t' = t
    · subst ht
      simpa [LedgerFiles.setTombstone] using h
    · simpa [LedgerFiles.setTombstone, ht] using h'
  payloads _ _ _ h' := .inl h'

theorem leaves_setName (name : String) (file : JsonFile NameRecord) :
    Leaves staged f (f.setName name file) where
  commits _ h := h
  tombstones _ h := h
  payloads _ _ _ h := .inl h

theorem leaves_store {uri : Path} (payload : Payload) (h : ∀ e ∈ staged, e.2.uri ≠ uri) :
    Leaves staged f (f.setPayload uri (some payload)) where
  commits _ h := h
  tombstones _ h := h
  payloads e he p hp := by
    left
    simpa [LedgerFiles.setPayload, h e he] using hp

theorem leaves_delete {t : String} {ref : DataRef} (h : (t, ref) ∈ staged)
    (ht : (f.tombstones t).present)
    (own : ∀ e ∈ staged, ∀ e' ∈ staged, e.2.uri = e'.2.uri → e.1 = e'.1) :
    Leaves staged f (f.setPayload ref.uri none) where
  commits _ h := h
  tombstones _ h := h
  payloads e he p hp := by
    by_cases huri : e.2.uri = ref.uri
    · right
      rw [own e he (t, ref) h huri]
      exact ht
    · left
      simpa [LedgerFiles.setPayload, huri] using hp

end Updates

namespace Writes

variable {staged : List (String × DataRef)} {sealed : Option String} {f f' : LedgerFiles}

theorem leaves (h : Writes staged sealed f f') (hf : FilesInv f staged) : Leaves staged f f' := by
  cases h with
  | nothing => exact .refl f
  | openCommit t => exact leaves_setCommit t rfl
  | writeCommit t record => exact leaves_setCommit t rfl
  | openTombstone t => exact leaves_setTombstone t rfl
  | writeTombstone t tombstone => exact leaves_setTombstone t rfl
  | name name file => exact leaves_setName name file
  | store uri payload h => exact leaves_store payload h
  | delete t ref h ht => exact leaves_delete h ht hf.own

/-- No transaction gets its second record. -/
theorem keeps_exclusive (h : Writes staged sealed f f') (hf : FilesInv f staged) : f'.Exclusive := by
  rintro t' ⟨hc, ht⟩
  have hnot := hf.exclusive t'
  cases h with
  | nothing => exact hnot ⟨hc, ht⟩
  | openCommit t hsealed ht' =>
      by_cases he : t' = t
      · subst he
        simp only [LedgerFiles.setCommit] at ht
        rw [ht'] at ht
        cases ht
      · exact hnot ⟨by simpa [LedgerFiles.setCommit, he] using hc, ht⟩
  | writeCommit t record h =>
      by_cases he : t' = t
      · subst he
        exact hnot ⟨h, ht⟩
      · exact hnot ⟨by simpa [LedgerFiles.setCommit, he] using hc, ht⟩
  | openTombstone t h =>
      by_cases he : t' = t
      · subst he
        simp only [LedgerFiles.setTombstone] at hc
        rw [h] at hc
        cases hc
      · exact hnot ⟨hc, by simpa [LedgerFiles.setTombstone, he] using ht⟩
  | writeTombstone t tombstone h =>
      by_cases he : t' = t
      · subst he
        exact hnot ⟨hc, h⟩
      · exact hnot ⟨hc, by simpa [LedgerFiles.setTombstone, he] using ht⟩
  | name name file => exact hnot ⟨hc, ht⟩
  | store uri payload => exact hnot ⟨hc, ht⟩
  | delete t ref => exact hnot ⟨hc, ht⟩

/-- A record that is there afterwards was there before, or is the one that is written. -/
theorem commit_cases (h : Writes staged sealed f f') {t : String} {record : CommitRecord}
    (hr : f'.commits t = .holds record) :
    f.commits t = .holds record ∨
      ((f.commits t).present ∧
        ∀ e ∈ record.receipts, (t, e.2.ref) ∈ staged ∧ f.Safe t e.2.ref) := by
  cases h with
  | openCommit t' =>
      by_cases he : t = t'
      · subst he
        simp [LedgerFiles.setCommit] at hr
      · exact .inl (by simpa [LedgerFiles.setCommit, he] using hr)
  | writeCommit t' record' h hrefs =>
      by_cases he : t = t'
      · subst he
        obtain rfl : record' = record := by simpa [LedgerFiles.setCommit] using hr
        exact .inr ⟨h, hrefs⟩
      · exact .inl (by simpa [LedgerFiles.setCommit, he] using hr)
  | _ => exact .inl hr

/-- The invariant of the files. -/
theorem filesInv (h : Writes staged sealed f f') (hf : FilesInv f staged) : FilesInv f' staged := by
  have hleaves := h.leaves hf
  have hexcl := h.keeps_exclusive hf
  have hcommit : ∀ t record, f'.commits t = .holds record →
      ∀ e ∈ record.receipts, (t, e.2.ref) ∈ staged ∧ f'.Safe t e.2.ref := by
    intro t record hr e he
    rcases h.commit_cases hr with hold | ⟨-, hrefs⟩
    · have hs := hf.listed t record hold e he
      exact ⟨hs, hleaves.intact hs (hf.kept t record hold e he)⟩
    · exact ⟨(hrefs e he).1, hleaves.safe (hrefs e he).1 (hrefs e he).2⟩
  constructor
  · exact hexcl
  · intro t record hr e he
    -- A transaction that has a commit record has no tombstone, so its bytes are there.
    rcases (hcommit t record hr e he).2 with hi | ht
    · exact hi
    · exact absurd ⟨by rw [hr]; rfl, ht⟩ (hexcl t)
  · exact fun t record hr e he ↦ (hcommit t record hr e he).1
  · intro n r hr
    cases h with
    | name name file h =>
        by_cases he : n = name
        · subst he
          exact h r (by simpa [LedgerFiles.setName] using hr)
        · exact hf.names n r (by simpa [LedgerFiles.setName, he] using hr)
    | _ => exact hf.names n r hr
  · exact hf.own

/-- A transaction without a commit record gets none unless it is sealed. -/
theorem commit_absent (h : Writes staged sealed f f') {t : String} (hne : sealed ≠ some t)
    (hc : (f.commits t).present = false) : (f'.commits t).present = false := by
  cases h with
  | openCommit t' hsealed =>
      have ht : t ≠ t' := by
        rintro rfl
        exact hne hsealed
      simpa [LedgerFiles.setCommit, ht] using hc
  | writeCommit t' record h =>
      have ht : t ≠ t' := by
        rintro rfl
        rw [h] at hc
        cases hc
      simpa [LedgerFiles.setCommit, ht] using hc
  | _ => exact hc

end Writes

/-! ## What each program does -/

section Programs

variable {L : PublicationLedger} {m : Moment} {f f' : LedgerFiles}
  {staged : List (String × DataRef)}

namespace CommitCall

variable {c : CommitCall}

theorem facts_reserveNext {todo : List (String × DataRef)} (h : c.Pending f staged todo) :
    c.Facts f staged (reserveNext todo) := by
  cases todo with
  | nil => exact h
  | cons d todo => exact h

theorem facts_validateNext {name : String} {ref : DataRef} {todo : List (String × DataRef)}
    (h : c.Pending f staged ((name, ref) :: todo)) :
    c.Facts f staged (validateNext L none name ref todo) := by
  unfold validateNext
  cases L.locationError name ref with
  | some e => trivial
  | none => exact ⟨h, trivial⟩

theorem facts_restoreNext (receipts : Receipts) (todo : List (String × DataRef)) :
    c.Facts f staged (restoreNext L receipts todo) := by
  cases todo with
  | nil => trivial
  | cons d todo =>
      simp only [restoreNext, validateNext]
      cases L.locationError d.1 d.2 with
      | some e => trivial
      | none => trivial

theorem facts_restore (existing : CommitRecord) : c.Facts f staged (c.restore L existing) := by
  unfold restore
  split_ifs
  · trivial
  · trivial
  · trivial
  · exact facts_restoreNext _ _

/-- A ref that has been found intact is no longer pending. -/
theorem Pending.tail {name : String} {ref : DataRef} {todo : List (String × DataRef)}
    (h : c.Pending f staged ((name, ref) :: todo)) (hsafe : f.Safe c.transaction ref) :
    c.Pending f staged todo where
  staged d hd := h.staged d (List.mem_cons_of_mem _ hd)
  safe d hd := by
    rcases h.safe d hd with hmem | hs
    · rcases List.mem_cons.mp hmem with rfl | htodo
      · exact .inr hsafe
      · exact .inl htodo
    · exact .inr hs

/-- The record of a commit all of whose refs have been found intact. -/
theorem Pending.recorded (h : c.Pending f staged [])
    (hrefs : ∀ r ∈ c.refs, (c.transaction, r.2) ∈ staged) (now : Time) :
    c.Recorded f staged (c.record L now) := by
  intro e he
  obtain ⟨r, hr, rfl⟩ := List.mem_map.mp he
  refine ⟨hrefs r hr, ?_⟩
  rcases h.safe r hr with hmem | hs
  · cases hmem
  · exact hs

/-- Once the digest agrees, the file is what the ref describes. -/
theorem safe_of_digest {name : String} {ref : DataRef} {size : ℕ} {p : Payload} {t : String}
    (hseen : (PhysicalCheck.digest size).Seen f t ref) (hp : f.payloads ref.uri = some p)
    (hcontent : L.contentError name ref size p.checksum = none) : f.Safe t ref := by
  obtain ⟨hsize, hsum⟩ := PublicationLedger.content_of_contentError hcontent
  rcases hseen with ⟨q, hq, hqs⟩ | ht
  · obtain rfl : q = p := Option.some.inj (hq.symm.trans hp)
    exact .inl ⟨q, hp, by rw [hsize, hqs], hsum⟩
  · exact .inr ht

/-- **What a step of `commit` does.** -/
theorem step_spec {pc pc' : CommitPc} (hrefs : ∀ r ∈ c.refs, (c.transaction, r.2) ∈ staged)
    (h : c.Facts f staged pc)
    (hgood : ∀ t ∈ (Process.commit c pc).seals m f, (f.tombstones t).present = false)
    (hstep : c.step L m f pc = some (f', pc')) :
    Writes staged ((Process.commit c pc).seals m f) f f' ∧ c.Facts f' staged pc' := by
  cases pc with
  | readCommit =>
      obtain ⟨rfl, rfl⟩ := Prod.ext_iff.mp (Option.some.inj hstep)
      refine ⟨.nothing, ?_⟩
      dsimp only
      split_ifs
      · trivial
      · cases (f.commits c.transaction).read with
        | error e => trivial
        | ok existing =>
            cases existing with
            | none => trivial
            | some existing => exact facts_restore existing
  | checkTombstone =>
      obtain ⟨rfl, rfl⟩ := Prod.ext_iff.mp (Option.some.inj hstep)
      refine ⟨.nothing, ?_⟩
      dsimp only
      split_ifs
      · trivial
      · exact facts_reserveNext ⟨hrefs, fun d hd ↦ .inl hd⟩
  | readName name ref todo =>
      obtain ⟨rfl, rfl⟩ := Prod.ext_iff.mp (Option.some.inj hstep)
      refine ⟨.nothing, ?_⟩
      dsimp only
      cases (f.names name).read with
      | error e => trivial
      | ok record =>
          dsimp only
          split_ifs
          · trivial
          · trivial
          · exact facts_validateNext h
  | validate restored check name ref todo =>
      cases check with
      | isFile =>
          obtain ⟨rfl, rfl⟩ := Prod.ext_iff.mp (Option.some.inj hstep)
          refine ⟨.nothing, ?_⟩
          dsimp only
          split_ifs
          · cases restored with
            | none => exact ⟨h.1, trivial⟩
            | some receipts => trivial
          · trivial
      | stat =>
          obtain ⟨rfl, rfl⟩ := Prod.ext_iff.mp (Option.some.inj hstep)
          refine ⟨.nothing, ?_⟩
          cases hp : f.payloads ref.uri with
          | none => trivial
          | some p =>
              dsimp only
              split_ifs
              · trivial
              · cases restored with
                | none => exact ⟨h.1, .inl ⟨p, hp, rfl⟩⟩
                | some receipts => trivial
      | digest size =>
          obtain ⟨rfl, rfl⟩ := Prod.ext_iff.mp (Option.some.inj hstep)
          refine ⟨.nothing, ?_⟩
          cases hp : f.payloads ref.uri with
          | none => trivial
          | some p =>
              dsimp only
              split_ifs
              · trivial
              · cases hcontent : L.contentError name ref size p.checksum with
                | some e => trivial
                | none =>
                    cases restored with
                    | none =>
                        exact facts_reserveNext (h.1.tail (safe_of_digest h.2 hp hcontent))
                    | some receipts => exact facts_restoreNext receipts todo
  | stamp =>
      obtain ⟨rfl, rfl⟩ := Prod.ext_iff.mp (Option.some.inj hstep)
      refine ⟨.nothing, ?_⟩
      dsimp only
      cases (c.receipts L m.now).findSome? fun e ↦ e.2.error with
      | some e => trivial
      | none => exact Pending.recorded h hrefs m.now
  | create record =>
      simp only [step] at hstep
      split_ifs at hstep with hfails hpresent
      · obtain ⟨rfl, rfl⟩ := Prod.ext_iff.mp (Option.some.inj hstep)
        exact ⟨.nothing, trivial⟩
      · obtain ⟨rfl, rfl⟩ := Prod.ext_iff.mp (Option.some.inj hstep)
        exact ⟨.nothing, trivial⟩
      · obtain ⟨rfl, rfl⟩ := Prod.ext_iff.mp (Option.some.inj hstep)
        have hseals : c.transaction ∈ (Process.commit c (.create record)).seals m f := by
          simp [Process.seals, hfails, hpresent]
        refine ⟨.openCommit _ hseals (hgood _ hseals), ?_, ?_⟩
        · intro e he
          exact ⟨(h e he).1, (leaves_setCommit _ rfl).safe (h e he).1 (h e he).2⟩
        · simp [LedgerFiles.setCommit]
  | write record =>
      have hwrite : Writes staged none f (f.setCommit c.transaction (.holds record)) :=
        .writeCommit _ record h.2 h.1
      simp only [step] at hstep
      split_ifs at hstep
      · obtain ⟨rfl, rfl⟩ := Prod.ext_iff.mp (Option.some.inj hstep)
        exact ⟨hwrite, trivial⟩
      · obtain ⟨rfl, rfl⟩ := Prod.ext_iff.mp (Option.some.inj hstep)
        exact ⟨.nothing, trivial⟩
      · obtain ⟨rfl, rfl⟩ := Prod.ext_iff.mp (Option.some.inj hstep)
        exact ⟨hwrite, trivial⟩
  | conflict record =>
      obtain ⟨rfl, rfl⟩ := Prod.ext_iff.mp (Option.some.inj hstep)
      refine ⟨.nothing, ?_⟩
      dsimp only
      cases (f.commits c.transaction).read with
      | error e => trivial
      | ok existing =>
          dsimp only
          split_ifs
          · trivial
          · trivial
  | compact record todo =>
      cases todo with
      | nil =>
          obtain ⟨rfl, rfl⟩ := Prod.ext_iff.mp (Option.some.inj hstep)
          exact ⟨.nothing, trivial⟩
      | cons name todo =>
          obtain ⟨rfl, rfl⟩ := Prod.ext_iff.mp (Option.some.inj hstep)
          refine ⟨?_, trivial⟩
          dsimp only
          split_ifs
          · exact .nothing
          · exact .name name _ fun r hr ↦ by cases hr
  | returned receipts => cases hstep
  | raised e => cases hstep

end CommitCall

namespace AbortCall

variable {c : AbortCall}

theorem facts_idle (hrefs : ∀ r ∈ c.refs, (c.transaction, r.2) ∈ staged) {pc : AbortPc}
    (hwindow : pc.inWindow = false) (hpast : pc.pastTombstone = false) : c.Facts f staged pc where
  window h := absurd h (by simp [hwindow])
  tombstone h := absurd h (by simp [hpast])
  refs := hrefs
  deletes ref todo h := by
    subst h
    cases hpast

theorem facts_window (hrefs : ∀ r ∈ c.refs, (c.transaction, r.2) ∈ staged)
    (hc : (f.commits c.transaction).present = false) {pc : AbortPc}
    (hpast : pc.pastTombstone = false) : c.Facts f staged pc where
  window _ := hc
  tombstone h := absurd h (by simp [hpast])
  refs := hrefs
  deletes ref todo h := by
    subst h
    cases hpast

theorem facts_past (hrefs : ∀ r ∈ c.refs, (c.transaction, r.2) ∈ staged)
    (ht : (f.tombstones c.transaction).present) {pc : AbortPc} (hwindow : pc.inWindow = false)
    (hdeletes : ∀ ref todo, pc = .deleteRef ref todo → (c.transaction, ref) ∈ staged) :
    c.Facts f staged pc where
  window h := absurd h (by simp [hwindow])
  tombstone _ := ht
  refs := hrefs
  deletes := hdeletes

theorem facts_sweep (hrefs : ∀ r ∈ c.refs, (c.transaction, r.2) ∈ staged)
    (ht : (f.tombstones c.transaction).present) (todo : List String) :
    c.Facts f staged (.sweep todo) :=
  facts_past hrefs ht rfl (by simp)

theorem facts_afterName (hrefs : ∀ r ∈ c.refs, (c.transaction, r.2) ∈ staged)
    (ht : (f.tombstones c.transaction).present) (name : String) (todo : List String) :
    c.Facts f staged (c.afterName L name todo) := by
  unfold afterName
  cases href : c.refs.lookup name with
  | none => exact facts_sweep hrefs ht todo
  | some ref =>
      dsimp only
      split_ifs
      · exact facts_sweep hrefs ht todo
      · refine facts_past hrefs ht rfl fun ref' todo' h ↦ ?_
        obtain ⟨rfl, -⟩ := AbortPc.deleteRef.inj h
        obtain ⟨l₁, l₂, hl, -⟩ := List.lookup_eq_some_iff.mp href
        exact hrefs (name, ref) (by simp [hl])
      · exact facts_idle hrefs rfl rfl

/-- **What a step of `abort` does.** -/
theorem step_spec {pc pc' : AbortPc} (h : c.Facts f staged pc)
    (hstep : c.step L m f pc = some (f', pc')) :
    Writes staged none f f' ∧ c.Facts f' staged pc' := by
  have hrefs := h.refs
  cases pc with
  | checkCommit =>
      obtain ⟨rfl, rfl⟩ := Prod.ext_iff.mp (Option.some.inj hstep)
      refine ⟨.nothing, ?_⟩
      dsimp only
      split_ifs with _ hcommit
      · exact facts_idle hrefs rfl rfl
      · exact facts_idle hrefs rfl rfl
      · exact facts_window hrefs (Bool.eq_false_iff.mpr hcommit) rfl
  | checkTombstone tombstone =>
      obtain ⟨rfl, rfl⟩ := Prod.ext_iff.mp (Option.some.inj hstep)
      refine ⟨.nothing, ?_⟩
      dsimp only
      split_ifs with ht
      · exact facts_sweep hrefs ht _
      · exact facts_window hrefs (h.window rfl) rfl
  | createTombstone tombstone =>
      simp only [step] at hstep
      split_ifs at hstep
      · obtain ⟨rfl, rfl⟩ := Prod.ext_iff.mp (Option.some.inj hstep)
        exact ⟨.nothing, facts_idle hrefs rfl rfl⟩
      · obtain ⟨rfl, rfl⟩ := Prod.ext_iff.mp (Option.some.inj hstep)
        exact ⟨.openTombstone _ (h.window rfl),
          facts_past hrefs (by simp [LedgerFiles.setTombstone]) rfl (by simp)⟩
  | writeTombstone tombstone =>
      have hwrite : Writes staged none f (f.setTombstone c.transaction (.holds tombstone)) :=
        .writeTombstone _ tombstone (h.tombstone rfl)
      simp only [step] at hstep
      split_ifs at hstep
      · obtain ⟨rfl, rfl⟩ := Prod.ext_iff.mp (Option.some.inj hstep)
        exact ⟨hwrite, facts_idle hrefs rfl rfl⟩
      · obtain ⟨rfl, rfl⟩ := Prod.ext_iff.mp (Option.some.inj hstep)
        exact ⟨.nothing, facts_idle hrefs rfl rfl⟩
      · obtain ⟨rfl, rfl⟩ := Prod.ext_iff.mp (Option.some.inj hstep)
        exact ⟨hwrite, facts_sweep hrefs (by simp [LedgerFiles.setTombstone]) _⟩
  | sweep todo =>
      cases todo with
      | nil =>
          obtain ⟨rfl, rfl⟩ := Prod.ext_iff.mp (Option.some.inj hstep)
          exact ⟨.nothing, facts_idle hrefs rfl rfl⟩
      | cons first rest =>
          have ht := h.tombstone rfl
          simp only [step] at hstep
          split_ifs at hstep
          obtain ⟨rfl, rfl⟩ := Prod.ext_iff.mp (Option.some.inj hstep)
          refine ⟨.nothing, ?_⟩
          dsimp only
          cases (f.names m.name).read with
          | error e => exact facts_idle hrefs rfl rfl
          | ok record =>
              dsimp only
              split_ifs
              · exact facts_past hrefs ht rfl (by simp)
              · exact facts_afterName hrefs ht _ _
  | unlinkName name todo =>
      simp only [step] at hstep
      split_ifs at hstep
      · obtain ⟨rfl, rfl⟩ := Prod.ext_iff.mp (Option.some.inj hstep)
        exact ⟨.nothing, facts_idle hrefs rfl rfl⟩
      · obtain ⟨rfl, rfl⟩ := Prod.ext_iff.mp (Option.some.inj hstep)
        have ht : ((f.setName name .absent).tombstones c.transaction).present := h.tombstone rfl
        exact ⟨.name name _ fun r hr ↦ (by cases hr), facts_afterName hrefs ht _ _⟩
  | deleteRef ref todo =>
      simp only [step] at hstep
      split_ifs at hstep
      · obtain ⟨rfl, rfl⟩ := Prod.ext_iff.mp (Option.some.inj hstep)
        exact ⟨.nothing, facts_idle hrefs rfl rfl⟩
      · obtain ⟨rfl, rfl⟩ := Prod.ext_iff.mp (Option.some.inj hstep)
        have ht : ((f.setPayload ref.uri none).tombstones c.transaction).present :=
          h.tombstone rfl
        exact ⟨.delete _ ref (h.deletes ref todo rfl) (h.tombstone rfl), facts_sweep hrefs ht _⟩
  | returned => cases hstep
  | raised e => cases hstep

end AbortCall

namespace ScavengeCall

variable {c : ScavengeCall}

theorem owned_groups {entries : List (Reservation × Bool)} (h : ∀ e ∈ entries, e.1.Owned staged) :
    OwnedGroups staged (groups entries) := by
  intro g hg r hr
  obtain ⟨t, -, rfl⟩ := List.mem_map.mp hg
  obtain ⟨e, he, rfl⟩ := List.mem_map.mp hr
  obtain ⟨hmem, ht⟩ := List.mem_filter.mp he
  exact ⟨by simpa using ht, h e hmem⟩

theorem facts_next (evidence : List ScavengeEvidence) {rest : ReservationGroups}
    (h : OwnedGroups staged rest) : Facts f staged (next evidence rest) := by
  cases rest with
  | nil => trivial
  | cons g rest => exact h

theorem facts_readNext (observedAt : Time) {entries : List (Reservation × Bool)}
    (h : ∀ e ∈ entries, e.1.Owned staged) (todo : List String) :
    Facts f staged (readNext observedAt entries todo) := by
  cases todo with
  | nil => exact facts_next [] (owned_groups h)
  | cons name todo => exact h

/-- The refs of a group are those of its transaction. -/
theorem facts_abortCall {t : String} {entries : List Reservation} {rest : ReservationGroups}
    (h : OwnedGroups staged ((t, entries) :: rest)) :
    (abortCall t entries).Facts f staged .checkCommit := by
  refine AbortCall.facts_idle (fun e he ↦ ?_) rfl rfl
  obtain ⟨r, hr, hmap⟩ := List.mem_filterMap.mp he
  obtain ⟨ref, href, rfl⟩ := Option.map_eq_some_iff.mp hmap
  obtain ⟨ht, howned⟩ := h _ List.mem_cons_self r hr
  have hstaged := howned ref href
  rw [ht] at hstaged
  exact hstaged

/-- **What a step of the scavenger does.** -/
theorem step_spec {pc pc' : ScavengePc} (hf : FilesInv f staged) (h : Facts f staged pc)
    (hstep : c.step L m f pc = some (f', pc')) :
    Writes staged none f f' ∧ Facts f' staged pc' := by
  cases pc with
  | glob =>
      simp only [step] at hstep
      split_ifs at hstep
      obtain ⟨rfl, rfl⟩ := Prod.ext_iff.mp (Option.some.inj hstep)
      exact ⟨.nothing, facts_readNext _ (by simp) _⟩
  | read observedAt todo entries =>
      cases todo with
      | nil =>
          obtain ⟨rfl, rfl⟩ := Prod.ext_iff.mp (Option.some.inj hstep)
          refine ⟨.nothing, ?_⟩
          exact facts_readNext observedAt h []
      | cons name todo =>
          obtain ⟨rfl, rfl⟩ := Prod.ext_iff.mp (Option.some.inj hstep)
          refine ⟨.nothing, ?_⟩
          cases hname : f.names name with
          | absent => exact facts_readNext _ h _
          | opened => trivial
          | holds record =>
              cases record with
              | committed n t at_ => exact facts_readNext _ h _
              | reserved r =>
                  simp only [JsonFile.read]
                  split_ifs
                  · exact facts_readNext _ h _
                  · refine facts_readNext _ (fun e he ↦ ?_) _
                    rcases List.mem_append.mp he with hold | hnew
                    · exact h e hold
                    · obtain rfl := List.mem_singleton.mp hnew
                      exact hf.names name r hname
  | checkCommit t entries rest evidence =>
      obtain ⟨rfl, rfl⟩ := Prod.ext_iff.mp (Option.some.inj hstep)
      have hrest : OwnedGroups staged rest := fun g hg ↦ h g (List.mem_cons_of_mem _ hg)
      refine ⟨.nothing, ?_⟩
      dsimp only
      split_ifs
      · exact facts_next _ hrest
      · exact facts_next _ hrest
      · exact ⟨facts_abortCall h, hrest⟩
  | aborting call pc rest evidence =>
      obtain ⟨⟨f₁, pc₁⟩, hcall, heq⟩ := Option.map_eq_some_iff.mp hstep
      obtain ⟨rfl, rfl⟩ := Prod.ext_iff.mp heq
      obtain ⟨hwrites, hfacts⟩ := AbortCall.step_spec h.1 hcall
      refine ⟨hwrites, ?_⟩
      cases pc₁ with
      | returned => exact facts_next _ h.2
      | raised e => trivial
      | _ => exact ⟨hfacts, h.2⟩
  | returned evidence => cases hstep
  | raised e => cases hstep

end ScavengeCall

namespace PublishCall

variable {c : PublishCall}

/-- What is staged after the step. -/
def stagedAfter (c : PublishCall) (m : Moment) (staged : List (String × DataRef))
    (pc : PublishPc) : List (String × DataRef) :=
  ((Process.publish c pc).stages m).toList ++ staged

/-- **What a step of a publication does.** -/
theorem step_spec {pc pc' : PublishPc} (h : c.Facts staged pc)
    (hfresh : ∀ e ∈ (Process.publish c pc).stages m, ∀ e' ∈ staged, e'.2.uri ≠ e.2.uri)
    (hstep : c.step m f pc = some (f', pc')) :
    Writes staged none f f' ∧ c.Facts (c.stagedAfter m staged pc) pc' := by
  cases pc with
  | reserve =>
      simp only [step] at hstep
      split_ifs at hstep
      · obtain ⟨rfl, rfl⟩ := Prod.ext_iff.mp (Option.some.inj hstep)
        exact ⟨.nothing, trivial⟩
      · obtain ⟨rfl, rfl⟩ := Prod.ext_iff.mp (Option.some.inj hstep)
        exact ⟨.nothing, trivial⟩
      · obtain ⟨rfl, rfl⟩ := Prod.ext_iff.mp (Option.some.inj hstep)
        exact ⟨.nothing, trivial⟩
      · obtain ⟨rfl, rfl⟩ := Prod.ext_iff.mp (Option.some.inj hstep)
        exact ⟨.name _ _ fun r hr ↦ (by cases hr), trivial⟩
  | writeReservation =>
      have hwrite : Writes staged none f
          (f.setName c.artifactName (.holds (.reserved c.reservation))) := by
        refine .name _ _ fun r hr ref href ↦ ?_
        obtain rfl := NameRecord.reserved.inj (JsonFile.holds.inj hr)
        cases href
      simp only [step] at hstep
      split_ifs at hstep
      · obtain ⟨rfl, rfl⟩ := Prod.ext_iff.mp (Option.some.inj hstep)
        exact ⟨hwrite, trivial⟩
      · obtain ⟨rfl, rfl⟩ := Prod.ext_iff.mp (Option.some.inj hstep)
        exact ⟨.nothing, trivial⟩
      · obtain ⟨rfl, rfl⟩ := Prod.ext_iff.mp (Option.some.inj hstep)
        exact ⟨hwrite, trivial⟩
  | readReservation =>
      obtain ⟨rfl, rfl⟩ := Prod.ext_iff.mp (Option.some.inj hstep)
      refine ⟨.nothing, ?_⟩
      dsimp only
      cases (f.names c.artifactName).read with
      | error e => trivial
      | ok record =>
          dsimp only
          split_ifs
          · trivial
          · trivial
  | store =>
      simp only [step] at hstep
      split_ifs at hstep with hfails
      · obtain ⟨rfl, rfl⟩ := Prod.ext_iff.mp (Option.some.inj hstep)
        exact ⟨.nothing, trivial⟩
      · obtain ⟨rfl, rfl⟩ := Prod.ext_iff.mp (Option.some.inj hstep)
        have hstages : (Process.publish c .store).stages m = some (c.transaction, c.ref) := by
          simp [Process.stages, hfails]
        refine ⟨.store _ _ (hfresh _ hstages), ?_⟩
        show (c.transaction, c.ref) ∈ ((Process.publish c .store).stages m).toList ++ staged
        rw [hstages]
        exact List.mem_cons_self
  | attachRead =>
      obtain ⟨rfl, rfl⟩ := Prod.ext_iff.mp (Option.some.inj hstep)
      refine ⟨.nothing, ?_⟩
      dsimp only
      cases (f.names c.artifactName).read with
      | error e => trivial
      | ok record =>
          dsimp only
          cases hheld : c.held record with
          | none => trivial
          | some current =>
              dsimp only
              cases current.provisionalRef with
              | none => exact ⟨h, (held_eq_some hheld).2.2⟩
              | some existing =>
                  dsimp only
                  split_ifs
                  · trivial
                  · trivial
  | attachReplace current =>
      simp only [step] at hstep
      split_ifs at hstep
      · obtain ⟨rfl, rfl⟩ := Prod.ext_iff.mp (Option.some.inj hstep)
        exact ⟨.nothing, trivial⟩
      · obtain ⟨rfl, rfl⟩ := Prod.ext_iff.mp (Option.some.inj hstep)
        refine ⟨.name _ _ fun r hr ref href ↦ ?_, trivial⟩
        obtain rfl := NameRecord.reserved.inj (JsonFile.holds.inj hr)
        obtain rfl := Option.some.inj href
        rw [h.2, transaction, Text.strip_strip]
        exact h.1
  | returned => cases hstep
  | raised e => cases hstep

end PublishCall

/-! ## What the others do -/

/-- What a process knows survives a step of another one that leaves its windows alone. -/
theorem Process.Facts.leaves {p : Process} {staged' : List (String × DataRef)}
    (h : p.Facts f staged) (hl : Leaves staged f f') (hs : ∀ e ∈ staged, e ∈ staged')
    (hwindow : ∀ t, p.window = some t → (f.commits t).present = false →
      (f'.commits t).present = false) : p.Facts f' staged' := by
  have habort : ∀ (c : AbortCall) pc, c.Facts f staged pc →
      (∀ t, (if pc.inWindow then some c.transaction else none) = some t →
        (f.commits t).present = false → (f'.commits t).present = false) →
      c.Facts f' staged' pc := fun c pc h hw ↦
    { window := fun hpc ↦ hw _ (if_pos hpc) (h.window hpc)
      tombstone := fun hpc ↦ hl.tombstones _ (h.tombstone hpc)
      refs := fun r hr ↦ hs _ (h.refs r hr)
      deletes := fun ref todo hpc ↦ hs _ (h.deletes ref todo hpc) }
  have hgroups : ∀ groups, OwnedGroups staged groups → OwnedGroups staged' groups :=
    fun groups h g hg r hr ↦ ⟨(h g hg r hr).1, fun ref href ↦ hs _ ((h g hg r hr).2 ref href)⟩
  cases p with
  | publish c pc =>
      cases pc with
      | attachRead => exact hs _ h
      | attachReplace current => exact ⟨hs _ h.1, h.2⟩
      | _ => trivial
  | commit c pc =>
      obtain ⟨hrefs, hfacts⟩ := h
      have hpending : ∀ todo, c.Pending f staged todo → c.Pending f' staged' todo :=
        fun todo h ↦
          { staged := fun d hd ↦ hs _ (h.staged d hd)
            safe := fun d hd ↦ (h.safe d hd).imp_right (hl.safe (hrefs d hd)) }
      have hrecorded : ∀ record, c.Recorded f staged record → c.Recorded f' staged' record :=
        fun record h e he ↦ ⟨hs _ (h e he).1, hl.safe (h e he).1 (h e he).2⟩
      refine ⟨fun r hr ↦ hs _ (hrefs r hr), ?_⟩
      cases pc with
      | readName name ref todo => exact hpending _ hfacts
      | validate restored check name ref todo =>
          cases restored with
          | none =>
              exact ⟨hpending _ hfacts.1,
                hl.seen (hfacts.1.staged (name, ref) List.mem_cons_self) hfacts.2⟩
          | some receipts => trivial
      | stamp => exact hpending _ hfacts
      | create record => exact hrecorded _ hfacts
      | write record => exact ⟨hrecorded _ hfacts.1, hl.commits _ hfacts.2⟩
      | _ => trivial
  | abort c pc => exact habort c pc h hwindow
  | scavenge c pc =>
      cases pc with
      | read observedAt todo entries => exact fun e he ref href ↦ hs _ (h e he ref href)
      | checkCommit t entries rest evidence => exact hgroups _ h
      | aborting call pc rest evidence => exact ⟨habort call pc h.1 hwindow, hgroups _ h.2⟩
      | _ => trivial

/-- **What a step of a process does.** -/
theorem Process.step_spec {p p' : Process} (hf : FilesInv f staged) (h : p.Facts f staged)
    (hgood : ∀ t ∈ p.seals m f, (f.tombstones t).present = false)
    (hfresh : ∀ e ∈ p.stages m, ∀ e' ∈ staged, e'.2.uri ≠ e.2.uri)
    (hstep : p.step L m f = some (f', p')) :
    Writes staged (p.seals m f) f f' ∧ p'.Facts f' ((p.stages m).toList ++ staged) := by
  cases p with
  | publish c pc =>
      obtain ⟨⟨f₁, pc₁⟩, hcall, heq⟩ := Option.map_eq_some_iff.mp hstep
      obtain ⟨rfl, rfl⟩ := Prod.ext_iff.mp heq
      exact PublishCall.step_spec h hfresh hcall
  | commit c pc =>
      obtain ⟨⟨f₁, pc₁⟩, hcall, heq⟩ := Option.map_eq_some_iff.mp hstep
      obtain ⟨rfl, rfl⟩ := Prod.ext_iff.mp heq
      obtain ⟨hwrites, hfacts⟩ := CommitCall.step_spec h.1 h.2 hgood hcall
      exact ⟨hwrites, h.1, hfacts⟩
  | abort c pc =>
      obtain ⟨⟨f₁, pc₁⟩, hcall, heq⟩ := Option.map_eq_some_iff.mp hstep
      obtain ⟨rfl, rfl⟩ := Prod.ext_iff.mp heq
      exact AbortCall.step_spec h hcall
  | scavenge c pc =>
      obtain ⟨⟨f₁, pc₁⟩, hcall, heq⟩ := Option.map_eq_some_iff.mp hstep
      obtain ⟨rfl, rfl⟩ := Prod.ext_iff.mp heq
      exact ScavengeCall.step_spec hf h hcall

/-- A process that stands at its first step has been given what it may use. -/
theorem Process.facts_fresh {p : Process} (hfresh : p.fresh) (hgiven : ∀ e ∈ p.given, e ∈ staged) :
    p.Facts f staged := by
  cases p with
  | publish c pc =>
      obtain rfl : pc = .reserve := hfresh
      trivial
  | commit c pc =>
      obtain rfl : pc = .readCommit := hfresh
      exact ⟨fun r hr ↦ hgiven _ (List.mem_map_of_mem hr), trivial⟩
  | abort c pc =>
      obtain rfl : pc = .checkCommit := hfresh
      exact AbortCall.facts_idle (fun r hr ↦ hgiven _ (List.mem_map_of_mem hr)) rfl rfl
  | scavenge c pc =>
      obtain rfl : pc = .glob := hfresh
      trivial

/-- Staging bytes under a path of their own. -/
theorem FilesInv.stage {e : String × DataRef} (h : FilesInv f staged)
    (hfresh : ∀ e' ∈ staged, e'.2.uri ≠ e.2.uri) : FilesInv f (e :: staged) where
  exclusive := h.exclusive
  kept := h.kept
  listed t record hr e he := List.mem_cons_of_mem _ (h.listed t record hr e he)
  names name r hr ref href := List.mem_cons_of_mem _ (h.names name r hr ref href)
  own a ha b hb huri := by
    rcases List.mem_cons.mp ha with rfl | ha'
    · rcases List.mem_cons.mp hb with rfl | hb'
      · rfl
      · exact absurd huri.symm (hfresh b hb')
    · rcases List.mem_cons.mp hb with rfl | hb'
      · exact absurd huri (hfresh a ha')
      · exact h.own a ha' b hb' huri

end Programs

/-! ## Runs -/

namespace LedgerState

variable {L : PublicationLedger}

/-- What holds in every state of a run without opposition. -/
structure Inv (s : LedgerState) : Prop where
  files : FilesInv s.files s.staged
  facts : ∀ p ∈ s.processes, p.Facts s.files s.staged

theorem inv_start : start.Inv where
  files :=
    { exclusive := fun t ⟨h, _⟩ ↦ by cases h
      kept := fun t record h ↦ by cases h
      listed := fun t record h ↦ by cases h
      names := fun name r h ↦ by cases h
      own := fun e he ↦ by cases he }
  facts p hp := by cases hp

/-- What a step of a process is. -/
theorem step_cases {s s' : LedgerState} {i : ℕ} {m : Moment}
    (h : s.step L (.step i m) = some s') :
    ∃ p q, s.processes[i]? = some p ∧ p.step L m s.files = some (s'.files, q) ∧
      (∀ e ∈ p.stages m, ∀ e' ∈ s.staged, e'.2.uri ≠ e.2.uri) ∧
      s'.staged = (p.stages m).toList ++ s.staged ∧ s'.processes = s.processes.set i q := by
  simp only [step] at h
  cases hp : s.processes[i]? with
  | none => simp [hp] at h
  | some p =>
      simp only [hp] at h
      split_ifs at h with hfresh
      obtain ⟨⟨f', q⟩, hq, rfl⟩ := Option.map_eq_some_iff.mp h
      exact ⟨p, q, rfl, hq, hfresh, rfl, rfl⟩

/-- **An unopposed step keeps the invariant.** -/
theorem Inv.step {s s' : LedgerState} {l : LedgerAction} (h : s.Inv) (hok : s.Unopposed l)
    (hstep : s.step L l = some s') : s'.Inv := by
  cases l with
  | call p =>
      simp only [LedgerState.step] at hstep
      split_ifs at hstep with hcall
      obtain rfl := Option.some.inj hstep
      refine ⟨h.files, fun q hq ↦ ?_⟩
      rcases List.mem_append.mp hq with hold | hnew
      · exact h.facts q hold
      · obtain rfl := List.mem_singleton.mp hnew
        exact Process.facts_fresh hcall.1 hcall.2
  | step i m =>
      obtain ⟨p, q, hp, hq, hfresh, hstaged, hprocesses⟩ := step_cases hstep
      have hmem : p ∈ s.processes := List.mem_of_getElem? hp
      have hseals : s.seals (.step i m) = p.seals m s.files := by simp [seals, hp]
      obtain ⟨hwrites, hfacts⟩ := Process.step_spec h.files (h.facts p hmem)
        (fun t ht ↦ (hok t (hseals ▸ ht)).1) hfresh hq
      have hstay : ∀ e ∈ s.staged, e ∈ s'.staged := fun e he ↦ by
        rw [hstaged]
        exact List.mem_append_right _ he
      constructor
      · have hfiles := hwrites.filesInv h.files
        rw [hstaged]
        cases hs : p.stages m with
        | none => exact hfiles
        | some e => exact hfiles.stage (hfresh e hs)
      · intro r hr
        rw [hprocesses] at hr
        rcases List.mem_or_eq_of_mem_set hr with hold | rfl
        · -- The window of another process is not the transaction that is sealed.
          refine (h.facts r hold).leaves (hwrites.leaves h.files) hstay fun t hwindow hc ↦
            hwrites.commit_absent (fun hs ↦ ?_) hc
          exact (hok t (hseals ▸ hs)).2 r hold hwindow
        · rw [hstaged]
          exact hfacts

/-- The invariant of a run without opposition. -/
theorem inv_of_reach {s : LedgerState} (h : Machine.Reach (step L) Unopposed start s) : s.Inv :=
  h.invariant inv_start fun _ _ _ hs hok hstep ↦ hs.step hok hstep

/-! ## Opposition -/

/-- The process `i` makes a step, and nothing fails. -/
def go (i : ℕ) : LedgerAction := .step i {}

/-- An abort that is about to create the tombstone of `t` can do so. -/
theorem creates_tombstone {s : LedgerState} {i : ℕ} {p : Process} {c : AbortCall}
    {tombstone : Tombstone} (hp : s.processes[i]? = some p)
    (hc : p.aborting = some (c, .createTombstone tombstone)) :
    ∃ ls u, Machine.run (step L) s ls = some u ∧ u.files.commits = s.files.commits ∧
      (u.files.tombstones c.transaction).present := by
  by_cases ht : (s.files.tombstones c.transaction).present
  · exact ⟨[], s, rfl, rfl, ht⟩
  · refine ⟨[go i], ?_⟩
    cases p with
    | abort c' pc =>
        obtain ⟨rfl, rfl⟩ := Prod.mk.inj (Option.some.inj hc)
        simp [Machine.run_cons, go, step, hp, Process.stages, Process.step, AbortCall.step, ht,
          LedgerFiles.setTombstone]
    | scavenge c' pc =>
        cases pc with
        | aborting call pc rest evidence =>
            obtain ⟨rfl, rfl⟩ := Prod.mk.inj (Option.some.inj hc)
            simp [Machine.run_cons, go, step, hp, Process.stages, Process.step, ScavengeCall.step,
              AbortCall.step, ht, LedgerFiles.setTombstone]
        | _ => cases hc
    | _ => cases hc

/-- An abort that has passed the commit check of `t` can give it a tombstone. -/
theorem closes_window {s : LedgerState} {i : ℕ} {p : Process} {t : String}
    (hp : s.processes[i]? = some p) (hwindow : p.window = some t) :
    ∃ ls u, Machine.run (step L) s ls = some u ∧ u.files.commits = s.files.commits ∧
      (u.files.tombstones t).present := by
  obtain ⟨⟨c, pc⟩, hc, hin⟩ := Option.bind_eq_some_iff.mp hwindow
  obtain ⟨hpc, ht⟩ := Option.ite_none_right_eq_some.mp hin
  obtain rfl := Option.some.inj ht
  cases pc with
  | createTombstone tombstone => exact creates_tombstone hp hc
  | checkTombstone tombstone =>
      by_cases ht : (s.files.tombstones c.transaction).present
      · exact ⟨[], s, rfl, rfl, ht⟩
      · -- The look at the tombstone comes first, and changes nothing.
        obtain ⟨q, hq, hcq⟩ : ∃ q, p.step L {} s.files = some (s.files, q) ∧
            q.aborting = some (c, .createTombstone tombstone) := by
          cases p with
          | abort c' pc =>
              obtain ⟨rfl, rfl⟩ := Prod.mk.inj (Option.some.inj hc)
              simp [Process.step, AbortCall.step, ht, Process.aborting]
          | scavenge c' pc =>
              cases pc with
              | aborting call pc rest evidence =>
                  obtain ⟨rfl, rfl⟩ := Prod.mk.inj (Option.some.inj hc)
                  simp [Process.step, ScavengeCall.step, AbortCall.step, ht, Process.aborting]
              | _ => cases hc
          | _ => cases hc
        have hstages : p.stages {} = none := by
          cases p with
          | publish c' pc => cases hc
          | _ => rfl
        have hlook : s.step L (go i) = some { s with processes := s.processes.set i q } := by
          simp [step, go, hp, hstages, hq]
        have hi : (s.processes.set i q)[i]? = some q := by
          rw [List.getElem?_set_self']
          simp [hp]
        obtain ⟨ls, u, hrun, hcommits, htomb⟩ :=
          creates_tombstone (L := L) (s := { s with processes := s.processes.set i q }) hi hcq
        exact ⟨go i :: ls, u, by rw [Machine.run_cons, hlook]; exact hrun, hcommits, htomb⟩
  | _ => cases hpc

/-- **A commit record created against opposition.**  After it, or once an abort on its way
has gone on, the transaction has both records. -/
theorem opposed {s s' : LedgerState} {l : LedgerAction} (hstep : s.step L l = some s')
    (hnot : ¬ s.Unopposed l) :
    ∃ ls u, Machine.run (step L) s' ls = some u ∧ ¬ u.files.Exclusive := by
  obtain ⟨t, ht, hopposed⟩ : ∃ t, s.seals l = some t ∧
      ((s.files.tombstones t).present ∨ ∃ q ∈ s.processes, q.window = some t) := by
    by_contra hall
    refine hnot fun t ht ↦ ⟨?_, fun q hq hw ↦ hall ⟨t, ht, .inr ⟨q, hq, hw⟩⟩⟩
    exact Bool.eq_false_iff.mpr fun hp ↦ hall ⟨t, ht, .inl hp⟩
  cases l with
  | call p => cases ht
  | step i m =>
      obtain ⟨p, hp, hseals⟩ := Option.bind_eq_some_iff.mp ht
      obtain ⟨p', q, hp', hq, -, -, hprocesses⟩ := step_cases hstep
      obtain rfl := Option.some.inj (hp.symm.trans hp')
      -- The step opens the commit record and touches nothing else.
      obtain ⟨hfiles, hnowindow⟩ : s'.files = s.files.setCommit t .opened ∧ p.window = none := by
        cases p with
        | commit c pc =>
            cases pc with
            | create record =>
                simp only [Process.seals, Bool.or_eq_true] at hseals
                split_ifs at hseals with hnone
                obtain ⟨hfails, hpresent⟩ := not_or.mp hnone
                obtain rfl := Option.some.inj hseals
                simp only [Process.step, CommitCall.step, if_neg hfails, if_neg hpresent,
                  Option.map_some, Option.some.injEq, Prod.mk.injEq] at hq
                exact ⟨hq.1.symm, rfl⟩
            | _ => cases hseals
        | _ => cases hseals
      have hcommit : (s'.files.commits t).present := by
        rw [hfiles]
        simp [LedgerFiles.setCommit]
      rcases hopposed with htomb | ⟨q', hq', hwindow⟩
      · refine ⟨[], s', rfl, fun hexcl ↦ hexcl t ⟨hcommit, ?_⟩⟩
        rw [hfiles]
        exact htomb
      · obtain ⟨j, hj⟩ := List.mem_iff_getElem?.mp hq'
        have hij : i ≠ j := by
          rintro rfl
          obtain rfl := Option.some.inj (hj.symm.trans hp)
          rw [hnowindow] at hwindow
          cases hwindow
        have hj' : s'.processes[j]? = some q' := by
          rw [hprocesses, List.getElem?_set_ne hij]
          exact hj
        obtain ⟨ls, u, hrun, hcommits, htomb⟩ := closes_window (L := L) hj' hwindow
        exact ⟨ls, u, hrun, fun hexcl ↦ hexcl t ⟨hcommits ▸ hcommit, htomb⟩⟩

/-- **Commit and abort exclude each other on the runs without opposition.**  A step that is
opposed can be followed by the violation. -/
theorem commit_excludes_abort (L : PublicationLedger) :
    (∀ s, Machine.Reach (step L) Unopposed start s → s.files.Exclusive ∧ s.files.Kept) ∧
      ∀ s l s', Machine.Reach (step L) Machine.anyStep start s → s.step L l = some s' →
        ¬ s.Unopposed l → ∃ ls u, Machine.run (step L) s' ls = some u ∧ ¬ u.files.Exclusive := by
  constructor
  · intro s h
    exact ⟨(inv_of_reach h).files.exclusive, (inv_of_reach h).files.kept⟩
  · intro s l s' _ hstep hnot
    exact opposed hstep hnot

/-! ## A run of each kind -/

section Runs

/-- The ledger of one Case run. -/
def sample : PublicationLedger where
  caseRoot := ["artifacts", "project", "run", "case"]
  authorityNamespace := "project"
  projectRunId := "run"
  caseRunId := "case"
  sha256 s := s

def sampleRef : DataRef where
  uri := ["artifacts", "project", "run", "case", "model--0.bin"]
  kind := "artifact"
  backend := "filesystem"
  mediaType := "application/octet-stream"
  checksum := "sha256:00"
  sizeBytes := some 3
  metadata := [("artifact_name", "model"), ("project_run_id", "run"), ("case_run_id", "case")]

def samplePublish : Process :=
  .publish ⟨"model", "t", "", 0, 1, sampleRef, ⟨3, "sha256:00"⟩⟩ .reserve

def sampleCommitCall : CommitCall := ⟨"t", [("model", sampleRef)], "", 0, []⟩

def sampleAbortCall : AbortCall := ⟨"t", [("model", sampleRef)], "aborted", ["model"]⟩

/-- `model` is published by the process 0, and the process 1 comes to commit it up to the
creation of the record. -/
def upToCreate : List LedgerAction :=
  [.call samplePublish, go 0, go 0, go 0, go 0, go 0,
    .call (.commit sampleCommitCall .readCommit), go 1, go 1, go 1, go 1, go 1, go 1, go 1]

/-- An abort looks for a commit record before it is created, and goes on afterwards. -/
def crossed : List LedgerAction :=
  upToCreate ++ [.call (.abort sampleAbortCall .checkCommit), go 2, go 1, go 1, go 1, go 1,
    go 2, go 2, go 2, .step 2 { name := "model" }, go 2, go 2, go 2]

/-- An abort that comes when the record is there. -/
def inTurn : List LedgerAction :=
  upToCreate ++ [go 1, go 1, go 1, go 1, .call (.abort sampleAbortCall .checkCommit), go 2]

/-- The transaction of a crossed run ends with both records and without its bytes. -/
theorem commit_and_abort :
    ∃ s, Machine.Reach (step sample) Machine.anyStep start s ∧ ¬ s.files.Exclusive ∧
      ¬ s.files.Kept := by
  have hend : ((Machine.run (Machine.guarded (step sample) fun _ _ ↦ True) start crossed).map
      fun s ↦ decide (s.files.commits "t" = .holds (sampleCommitCall.record sample 1) ∧
        (s.files.tombstones "t").present ∧ s.files.payloads sampleRef.uri = none)) =
        some true := by
    decide +kernel
  obtain ⟨s, hrun, hs⟩ := Option.map_eq_some_iff.mp hend
  obtain ⟨hcommit, htomb, hbytes⟩ := of_decide_eq_true hs
  refine ⟨s, (Machine.reach_of_run hrun).mono fun _ _ h ↦ h, fun hexcl ↦ ?_, fun hkept ↦ ?_⟩
  · exact hexcl "t" ⟨by rw [hcommit]; rfl, htomb⟩
  · obtain ⟨p, hp, -⟩ := hkept "t" _ hcommit _ List.mem_cons_self
    exact absurd (hbytes.symm.trans hp) (by simp)

/-- An abort in its turn is refused, and the bytes stay. -/
theorem commit_excludes_abort_in_turn : ∃ s : LedgerState,
    (s.files.commits "t").present ∧
      s.processes[2]? = some (.abort sampleAbortCall (.raised (.committed "t"))) ∧
      s.files.Exclusive ∧ s.files.Kept := by
  have hend : ((Machine.run (Machine.guarded (step sample) Unopposed) start inTurn).map
      fun s ↦ decide ((s.files.commits "t").present ∧
        s.processes[2]? = some (.abort sampleAbortCall (.raised (.committed "t"))))) =
        some true := by
    decide +kernel
  obtain ⟨s, hrun, hs⟩ := Option.map_eq_some_iff.mp hend
  obtain ⟨hcommit, habort⟩ := of_decide_eq_true hs
  exact ⟨s, hcommit, habort, (commit_excludes_abort sample).1 s (Machine.reach_of_run hrun)⟩

end Runs

end LedgerState

end Blackbase.Resources.Artifacts
