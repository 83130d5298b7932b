import Blackbase.Resources.Artifacts.Exclusion
import Blackbase.Resources.Artifacts.Removals
import Blackbase.Resources.Lease.Store

/-!
# Scavenging and live owners

A publisher scavenges when it is constructed and when it is asked to.  It takes every
reservation of another lease for fenced off, whichever of the two leases came later, and
never asks the lease authority.  A live reservation is spared exactly where its transaction
is committed, or has a reservation that is fresh in the eyes of the scavenger, or where a
name record cannot be read, so that the scavenger raises.
-/

namespace Blackbase.Resources.Artifacts

/-! ## The reservations of publishers -/

/-- The reservation that a publisher of the transaction has written for the name. -/
structure Reservation.Written (staged : List (String × DataRef)) (name : String)
    (r : Reservation) : Prop where
  strip : Text.strip r.transactionId = r.transactionId
  transaction : r.transactionId ≠ ""
  artifactName : r.artifactName = name
  named : name ≠ ""
  staged : ∀ ref, r.provisionalRef = some ref → (r.transactionId, ref) ∈ staged

theorem Reservation.Written.mono {staged staged' : List (String × DataRef)} {name : String}
    {r : Reservation} (h : r.Written staged name) (hsub : ∀ e ∈ staged, e ∈ staged') :
    r.Written staged' name :=
  ⟨h.strip, h.transaction, h.artifactName, h.named, fun ref href ↦ hsub _ (h.staged ref href)⟩

/-- A step writes no reservations but those of publishers. -/
def WritesNames (staged : List (String × DataRef)) (f g : LedgerFiles) : Prop :=
  g.names = f.names ∨ ∃ name file, g.names = Function.update f.names name file ∧
    ∀ r, file = .holds (.reserved r) → r.Written staged name

section Steps

variable {L : PublicationLedger} {staged : List (String × DataRef)} {f g : LedgerFiles}
  {m : Moment}

theorem commit_writesNames {c : CommitCall} {pc pc' : CommitPc}
    (hstep : c.step L m f pc = some (g, pc')) : WritesNames staged f g := by
  cases pc with
  | create record =>
      simp only [CommitCall.step] at hstep
      split_ifs at hstep <;> obtain ⟨rfl, rfl⟩ := Prod.ext_iff.mp (Option.some.inj hstep) <;>
        exact .inl rfl
  | write record =>
      simp only [CommitCall.step] at hstep
      split_ifs at hstep <;> obtain ⟨rfl, rfl⟩ := Prod.ext_iff.mp (Option.some.inj hstep) <;>
        exact .inl rfl
  | compact record todo =>
      cases todo with
      | nil =>
          obtain ⟨rfl, rfl⟩ := Prod.ext_iff.mp (Option.some.inj hstep)
          exact .inl rfl
      | cons name todo =>
          obtain ⟨rfl, rfl⟩ := Prod.ext_iff.mp (Option.some.inj hstep)
          dsimp only
          split_ifs
          · exact .inl rfl
          · exact .inr ⟨name, _, rfl, fun r hr ↦ by cases hr⟩
  | validate restored check name ref todo =>
      cases check <;> obtain ⟨rfl, rfl⟩ := Prod.ext_iff.mp (Option.some.inj hstep) <;>
        exact .inl rfl
  | returned receipts => cases hstep
  | raised e => cases hstep
  | _ =>
      obtain ⟨rfl, rfl⟩ := Prod.ext_iff.mp (Option.some.inj hstep)
      exact .inl rfl

theorem abort_writesNames {c : AbortCall} {pc pc' : AbortPc}
    (hstep : c.step L m f pc = some (g, pc')) : WritesNames staged f g := by
  cases pc with
  | createTombstone tombstone =>
      simp only [AbortCall.step] at hstep
      split_ifs at hstep <;> obtain ⟨rfl, rfl⟩ := Prod.ext_iff.mp (Option.some.inj hstep) <;>
        exact .inl rfl
  | writeTombstone tombstone =>
      simp only [AbortCall.step] at hstep
      split_ifs at hstep <;> obtain ⟨rfl, rfl⟩ := Prod.ext_iff.mp (Option.some.inj hstep) <;>
        exact .inl rfl
  | sweep todo =>
      cases todo with
      | nil =>
          obtain ⟨rfl, rfl⟩ := Prod.ext_iff.mp (Option.some.inj hstep)
          exact .inl rfl
      | cons first rest =>
          simp only [AbortCall.step] at hstep
          split_ifs at hstep
          obtain ⟨rfl, rfl⟩ := Prod.ext_iff.mp (Option.some.inj hstep)
          exact .inl rfl
  | unlinkName name todo =>
      simp only [AbortCall.step] at hstep
      split_ifs at hstep
      · obtain ⟨rfl, rfl⟩ := Prod.ext_iff.mp (Option.some.inj hstep)
        exact .inl rfl
      · obtain ⟨rfl, rfl⟩ := Prod.ext_iff.mp (Option.some.inj hstep)
        exact .inr ⟨name, _, rfl, fun r hr ↦ by cases hr⟩
  | deleteRef ref todo =>
      simp only [AbortCall.step] at hstep
      split_ifs at hstep <;> obtain ⟨rfl, rfl⟩ := Prod.ext_iff.mp (Option.some.inj hstep) <;>
        exact .inl rfl
  | returned => cases hstep
  | raised e => cases hstep
  | _ =>
      obtain ⟨rfl, rfl⟩ := Prod.ext_iff.mp (Option.some.inj hstep)
      exact .inl rfl

theorem scavenge_writesNames {c : ScavengeCall} {pc pc' : ScavengePc}
    (hstep : c.step L m f pc = some (g, pc')) : WritesNames staged f g := by
  cases pc with
  | glob =>
      simp only [ScavengeCall.step] at hstep
      split_ifs at hstep
      obtain ⟨rfl, rfl⟩ := Prod.ext_iff.mp (Option.some.inj hstep)
      exact .inl rfl
  | read observedAt todo entries =>
      cases todo <;> obtain ⟨rfl, rfl⟩ := Prod.ext_iff.mp (Option.some.inj hstep) <;>
        exact .inl rfl
  | checkCommit t entries rest evidence =>
      obtain ⟨rfl, rfl⟩ := Prod.ext_iff.mp (Option.some.inj hstep)
      exact .inl rfl
  | aborting call pc rest evidence =>
      obtain ⟨⟨g', pc''⟩, hcall, heq⟩ := Option.map_eq_some_iff.mp hstep
      obtain ⟨rfl, rfl⟩ := Prod.mk.inj heq
      exact abort_writesNames hcall
  | returned evidence => cases hstep
  | raised e => cases hstep

end Steps

/-- What a publication knows where it is. -/
def PublishCall.Knows (c : PublishCall) (staged : List (String × DataRef)) : PublishPc → Prop
  | .reserve => True
  | .attachRead => c.artifactName ≠ "" ∧ c.transaction ≠ "" ∧ (c.transaction, c.ref) ∈ staged
  | .attachReplace current => c.artifactName ≠ "" ∧ c.transaction ≠ "" ∧
      (c.transaction, c.ref) ∈ staged ∧ current.artifactName = c.artifactName ∧
        current.transactionId = c.transaction
  | .returned => True
  | .raised _ => True
  | _ => c.artifactName ≠ "" ∧ c.transaction ≠ ""

namespace PublishCall

variable {c : PublishCall} {staged : List (String × DataRef)} {f g : LedgerFiles} {m : Moment}

theorem Knows.mono {staged' : List (String × DataRef)} {pc : PublishPc} (h : c.Knows staged pc)
    (hsub : ∀ e ∈ staged, e ∈ staged') : c.Knows staged' pc := by
  cases pc with
  | attachRead => exact ⟨h.1, h.2.1, hsub _ h.2.2⟩
  | attachReplace current => exact ⟨h.1, h.2.1, hsub _ h.2.2.1, h.2.2.2⟩
  | _ => exact h

theorem reservation_written (hname : c.artifactName ≠ "") (ht : c.transaction ≠ "") :
    c.reservation.Written staged c.artifactName where
  strip := Text.strip_strip _
  transaction := ht
  artifactName := rfl
  named := hname
  staged ref href := by cases href

/-- **A step of a publication.** -/
theorem Knows.step {pc pc' : PublishPc} (h : c.Knows staged pc)
    (hstep : c.step m f pc = some (g, pc')) :
    WritesNames (c.stagedAfter m staged pc) f g ∧ c.Knows (c.stagedAfter m staged pc) pc' := by
  cases pc with
  | reserve =>
      simp only [PublishCall.step] at hstep
      split_ifs at hstep with hempty hfails hpresent
      · obtain ⟨rfl, rfl⟩ := Prod.ext_iff.mp (Option.some.inj hstep)
        exact ⟨.inl rfl, trivial⟩
      · obtain ⟨rfl, rfl⟩ := Prod.ext_iff.mp (Option.some.inj hstep)
        exact ⟨.inl rfl, trivial⟩
      · obtain ⟨rfl, rfl⟩ := Prod.ext_iff.mp (Option.some.inj hstep)
        exact ⟨.inl rfl, not_or.mp hempty⟩
      · obtain ⟨rfl, rfl⟩ := Prod.ext_iff.mp (Option.some.inj hstep)
        exact ⟨.inr ⟨_, _, rfl, fun r hr ↦ by cases hr⟩, not_or.mp hempty⟩
  | writeReservation =>
      have hwrites : WritesNames (c.stagedAfter m staged .writeReservation) f
          (f.setName c.artifactName (.holds (.reserved c.reservation))) := by
        refine .inr ⟨_, _, rfl, fun r hr ↦ ?_⟩
        obtain rfl := NameRecord.reserved.inj (JsonFile.holds.inj hr)
        exact reservation_written h.1 h.2
      simp only [PublishCall.step] at hstep
      split_ifs at hstep
      · obtain ⟨rfl, rfl⟩ := Prod.ext_iff.mp (Option.some.inj hstep)
        exact ⟨hwrites, trivial⟩
      · obtain ⟨rfl, rfl⟩ := Prod.ext_iff.mp (Option.some.inj hstep)
        exact ⟨.inl rfl, trivial⟩
      · obtain ⟨rfl, rfl⟩ := Prod.ext_iff.mp (Option.some.inj hstep)
        exact ⟨hwrites, h⟩
  | readReservation =>
      obtain ⟨rfl, rfl⟩ := Prod.ext_iff.mp (Option.some.inj hstep)
      refine ⟨.inl rfl, ?_⟩
      dsimp only
      cases (f.names c.artifactName).read with
      | error e => trivial
      | ok record =>
          dsimp only
          split_ifs
          · exact h
          · trivial
  | store =>
      simp only [PublishCall.step] at hstep
      split_ifs at hstep with hfails
      · obtain ⟨rfl, rfl⟩ := Prod.ext_iff.mp (Option.some.inj hstep)
        exact ⟨.inl rfl, trivial⟩
      · obtain ⟨rfl, rfl⟩ := Prod.ext_iff.mp (Option.some.inj hstep)
        refine ⟨.inl rfl, h.1, h.2, ?_⟩
        simp [stagedAfter, Process.stages, hfails]
  | attachRead =>
      obtain ⟨rfl, rfl⟩ := Prod.ext_iff.mp (Option.some.inj hstep)
      refine ⟨.inl rfl, ?_⟩
      dsimp only
      cases (f.names c.artifactName).read with
      | error e => trivial
      | ok record =>
          dsimp only
          cases hheld : c.held record with
          | none => trivial
          | some current =>
              dsimp only
              cases current.provisionalRef with
              | none =>
                  obtain ⟨-, hname, ht⟩ := held_eq_some hheld
                  exact ⟨h.1, h.2.1, h.2.2, hname, ht⟩
              | some existing =>
                  dsimp only
                  split_ifs
                  · trivial
                  · trivial
  | attachReplace current =>
      obtain ⟨hname, ht, hstaged, hcurrent, htransaction⟩ := h
      simp only [PublishCall.step] at hstep
      split_ifs at hstep
      · obtain ⟨rfl, rfl⟩ := Prod.ext_iff.mp (Option.some.inj hstep)
        exact ⟨.inl rfl, trivial⟩
      · obtain ⟨rfl, rfl⟩ := Prod.ext_iff.mp (Option.some.inj hstep)
        refine ⟨.inr ⟨_, _, rfl, fun r hr ↦ ?_⟩, trivial⟩
        obtain rfl := NameRecord.reserved.inj (JsonFile.holds.inj hr)
        refine ⟨?_, htransaction ▸ ht, hcurrent, hname, fun ref href ↦ ?_⟩
        · change Text.strip current.transactionId = current.transactionId
          rw [htransaction]
          exact Text.strip_strip _
        · obtain rfl := Option.some.inj href
          change (current.transactionId, c.ref) ∈ staged
          rw [htransaction]
          exact hstaged
  | returned => cases hstep
  | raised e => cases hstep

end PublishCall

/-- What is known of a process. -/
def Process.Knows (staged : List (String × DataRef)) : Process → Prop
  | publish c pc => c.Knows staged pc
  | _ => True

theorem Process.Knows.mono {staged staged' : List (String × DataRef)} {p : Process}
    (h : p.Knows staged) (hsub : ∀ e ∈ staged, e ∈ staged') : p.Knows staged' := by
  cases p with
  | publish c pc => exact PublishCall.Knows.mono h hsub
  | _ => trivial

/-- **A step of a process.** -/
theorem Process.Knows.step {L : PublicationLedger} {staged : List (String × DataRef)}
    {p p' : Process} {f g : LedgerFiles} {m : Moment} (h : p.Knows staged)
    (hstep : p.step L m f = some (g, p')) :
    WritesNames ((p.stages m).toList ++ staged) f g ∧
      p'.Knows ((p.stages m).toList ++ staged) := by
  cases p with
  | publish c pc =>
      obtain ⟨⟨g', pc'⟩, hcall, heq⟩ := Option.map_eq_some_iff.mp hstep
      obtain ⟨rfl, rfl⟩ := Prod.mk.inj heq
      exact PublishCall.Knows.step h hcall
  | commit c pc =>
      obtain ⟨⟨g', pc'⟩, hcall, heq⟩ := Option.map_eq_some_iff.mp hstep
      obtain ⟨rfl, rfl⟩ := Prod.mk.inj heq
      exact ⟨commit_writesNames hcall, trivial⟩
  | abort c pc =>
      obtain ⟨⟨g', pc'⟩, hcall, heq⟩ := Option.map_eq_some_iff.mp hstep
      obtain ⟨rfl, rfl⟩ := Prod.mk.inj heq
      exact ⟨abort_writesNames hcall, trivial⟩
  | scavenge c pc =>
      obtain ⟨⟨g', pc'⟩, hcall, heq⟩ := Option.map_eq_some_iff.mp hstep
      obtain ⟨rfl, rfl⟩ := Prod.mk.inj heq
      exact ⟨scavenge_writesNames hcall, trivial⟩

/-- What holds of the files in every state of every run. -/
structure Published (f : LedgerFiles) (staged : List (String × DataRef)) : Prop where
  written : ∀ n r, f.names n = .holds (.reserved r) → r.Written staged n
  /-- A path holds what was stored for one transaction. -/
  own : ∀ e ∈ staged, ∀ e' ∈ staged, e.2.uri = e'.2.uri → e.1 = e'.1
  finite : ∃ names : List String, ∀ n, (f.names n).present → n ∈ names

/-- What a process may write to the names leaves them in order. -/
theorem Published.writes {f g : LedgerFiles} {staged staged' : List (String × DataRef)}
    (h : Published f staged) (hsub : ∀ e ∈ staged, e ∈ staged')
    (hown : ∀ e ∈ staged', ∀ e' ∈ staged', e.2.uri = e'.2.uri → e.1 = e'.1)
    (hwrites : WritesNames staged' f g) : Published g staged' := by
  obtain ⟨names, hnames⟩ := h.finite
  rcases hwrites with hsame | ⟨name, file, hupdate, hfile⟩
  · refine ⟨fun n r hr ↦ ?_, hown, names, fun n hn ↦ hnames n (hsame ▸ hn)⟩
    exact (h.written n r (hsame ▸ hr)).mono hsub
  · refine ⟨fun n r hr ↦ ?_, hown, name :: names, fun n hn ↦ ?_⟩
    · rw [hupdate] at hr
      by_cases hname : n = name
      · subst hname
        exact hfile r (by simpa using hr)
      · exact (h.written n r (by simpa [hname] using hr)).mono hsub
    · rw [hupdate] at hn
      by_cases hname : n = name
      · exact hname ▸ List.mem_cons_self
      · exact List.mem_cons_of_mem _ (hnames n (by simpa [hname] using hn))

namespace LedgerState

variable {L : PublicationLedger}

/-- What holds in every state of every run. -/
structure Publishing (s : LedgerState) : Prop where
  files : Published s.files s.staged
  processes : ∀ p ∈ s.processes, p.Knows s.staged

theorem publishing_start : start.Publishing where
  files := ⟨fun n r h ↦ (by cases h), fun e he ↦ (by cases he), [], fun n h ↦ (by cases h)⟩
  processes p hp := by cases hp

/-- **Every step** keeps the reservations in order. -/
theorem Publishing.step {s s' : LedgerState} {l : LedgerAction} (h : s.Publishing)
    (hstep : s.step L l = some s') : s'.Publishing := by
  cases l with
  | call p =>
      simp only [LedgerState.step] at hstep
      split_ifs at hstep with hcall
      obtain rfl := Option.some.inj hstep
      refine ⟨h.files, fun q hq ↦ ?_⟩
      rcases List.mem_append.mp hq with hmem | hlast
      · exact h.processes q hmem
      · obtain rfl := List.mem_singleton.mp hlast
        cases q with
        | publish c pc =>
            obtain rfl : pc = .reserve := hcall.1
            trivial
        | _ => trivial
  | step i m =>
      obtain ⟨p, p', hp, hpstep, hfresh, hstaged, hprocesses⟩ := step_cases hstep
      have hknown := h.processes p (List.mem_of_getElem? hp)
      obtain ⟨hwrites, hknows⟩ := hknown.step hpstep
      have hsub : ∀ e ∈ s.staged, e ∈ (p.stages m).toList ++ s.staged := fun e he ↦
        List.mem_append_right _ he
      rw [← hstaged] at hwrites hknows hsub
      refine ⟨h.files.writes hsub (fun e he e' he' huri ↦ ?_) hwrites, fun q hq ↦ ?_⟩
      · rw [hstaged] at he he'
        rcases List.mem_append.mp he with hnew | hold
        · rcases List.mem_append.mp he' with hnew' | hold'
          · rw [Option.mem_toList] at hnew hnew'
            rw [Option.mem_unique hnew hnew']
          · exact absurd huri.symm (hfresh e (Option.mem_toList.mp hnew) e' hold')
        · rcases List.mem_append.mp he' with hnew' | hold'
          · exact absurd huri (hfresh e' (Option.mem_toList.mp hnew') e hold)
          · exact h.files.own e hold e' hold' huri
      · rw [hprocesses] at hq
        rcases List.mem_or_eq_of_mem_set hq with hmem | rfl
        · exact (h.processes q hmem).mono hsub
        · exact hknows

theorem publishing_of_reach {s : LedgerState}
    (h : Machine.Reach (step L) Machine.anyStep start s) : s.Publishing :=
  h.invariant publishing_start fun _ _ _ hs _ hstep ↦ hs.step hstep

end LedgerState

/-! ## Live reservations -/

/-- The lease of the reservation is current in the lease authority, whose clocks read `now` at
the server and `clock` at the client. -/
def Reservation.Live (leases : LeaseStore) (now clock : Time) (r : Reservation) : Prop :=
  (leases.exec now clock (.isCurrent r.leaseId r.fencingToken)).1 = .flag true

instance (leases : LeaseStore) (now clock : Time) (r : Reservation) :
    Decidable (r.Live leases now clock) :=
  inferInstanceAs (Decidable (_ = _))

/-- The listing of the directory of name records. -/
def LedgerFiles.Lists (f : LedgerFiles) (names : List String) : Prop :=
  names.Nodup ∧ ∀ n, n ∈ names ↔ (f.names n).present

namespace ScavengeCall

variable (L : PublicationLedger) (c : ScavengeCall)

/-- The scavenger, which looks at its clock at `reading`, leaves the reservations of live leases
and the bytes of their transactions alone, whatever step it has come to. -/
def SparesLive (leases : LeaseStore) (now clock reading : Time) (s : LedgerState) : Prop :=
  ∀ m ms g pc, s.files.Lists m.names → m.now = reading →
    Machine.run (c.alone L) (s.files, .glob) (m :: ms) = some (g, pc) →
      ∀ n r, s.files.names n = .holds (.reserved r) → r.Live leases now clock →
        g.names n = s.files.names n ∧ ∀ ref, (r.transactionId, ref) ∈ s.staged →
          g.payloads ref.uri = s.files.payloads ref.uri

/-- The reservation is not of another lease or of an earlier token than the scavenger's, and
it is its own or young enough. -/
def Fresh (observedAt : Time) (r : Reservation) : Prop :=
  (c.currentLeaseId = "" ∨ r.leaseId = "" ∨
    (r.leaseId = c.currentLeaseId ∧ c.currentFencingToken ≤ r.fencingToken)) ∧
  ((c.currentLeaseId ≠ "" ∧ r.leaseId = c.currentLeaseId ∧
      r.fencingToken = c.currentFencingToken) ∨
    max 0 (observedAt - r.reservedAt) < max 1 c.staleAfterSeconds)

/-- Each live reservation is guarded: its transaction has a commit record, or a reservation
that is fresh in the eyes of the scavenger; or some name record cannot be read. -/
def Guarded (leases : LeaseStore) (now clock observedAt : Time) (f : LedgerFiles) : Prop :=
  (∃ n, f.names n = .opened) ∨
    ∀ n r, f.names n = .holds (.reserved r) → r.Live leases now clock →
      (f.commits r.transactionId).present ∨ ∃ n' r', f.names n' = .holds (.reserved r') ∧
        r'.transactionId = r.transactionId ∧ c.Fresh observedAt r'

variable {L c}

theorem fresh_iff {observedAt : Time} {r : Reservation} :
    c.Fresh observedAt r ↔ c.stale observedAt r = false := by
  simp only [Fresh, stale, fenced, sameCurrentOwner, Bool.or_eq_false_iff,
    Bool.and_eq_false_iff, decide_eq_false_iff_not, not_le, not_lt, not_not, ne_eq,
    Bool.not_eq_false', Bool.and_eq_true, decide_eq_true_eq, and_assoc]
  tauto

variable {leases : LeaseStore} {now clock observedAt reading : Time} {f g : LedgerFiles}
  {staged : List (String × DataRef)}

/-- What is guarded is not taken for abandoned. -/
theorem not_abandoned {listed : List String} {n : String} {r : Reservation}
    (hguarded : c.Guarded leases now clock observedAt f) (hlists : f.Lists listed)
    (hr : f.names n = .holds (.reserved r)) (hlive : r.Live leases now clock) :
    ¬ c.Abandoned f observedAt listed r.transactionId := by
  intro habandoned
  rcases hguarded with ⟨n', hopened⟩ | hguarded
  · refine habandoned.readable n' ((hlists.2 n').mpr ?_) hopened
    rw [hopened]
    rfl
  · rcases hguarded n r hr hlive with hcommit | ⟨n', r', hr', hsame, hfresh⟩
    · rw [habandoned.uncommitted] at hcommit
      cases hcommit
    · have hlisted : n' ∈ listed := (hlists.2 n').mpr (by rw [hr']; rfl)
      have hstale := habandoned.stale n' hlisted r' hr' hsame
      rw [fresh_iff.mp hfresh] at hstale
      cases hstale

/-- **A scavenger spares what is guarded.** -/
theorem spares_of_guarded {s : LedgerState} (h : Published s.files s.staged)
    (hguarded : c.Guarded leases now clock (c.now.getD reading) s.files) :
    c.SparesLive L leases now clock reading s := by
  rintro m ms g pc hlists rfl hrun n r hr hlive
  have hremoves := removes_of_run (fun n r hr ↦ (h.written n r hr).strip) hrun
  have hkept := not_abandoned hguarded hlists hr hlive
  constructor
  · rcases hremoves.names n with hsame | ⟨-, r', hr', habandoned⟩
    · exact hsame
    · rw [hr] at hr'
      obtain rfl := JsonFile.holds.inj hr'
      exact absurd habandoned hkept
  · intro ref href
    rcases hremoves.payloads ref.uri with hsame | ⟨-, n', r', ref', hr', habandoned, href', huri⟩
    · exact hsame
    · -- The bytes of another transaction stand under another path.
      have hstaged := (h.written n' r' hr').staged ref' href'
      have hown : r'.transactionId = r.transactionId := h.own _ hstaged _ href huri
      exact absurd (hown ▸ habandoned) hkept

/-! ## What is not guarded -/

/-- What the scavenger reads at a name. -/
def entriesAt (c : ScavengeCall) (f : LedgerFiles) (observedAt : Time) (n : String) :
    List (Reservation × Bool) :=
  match f.names n with
  | .holds (.reserved r) => if r.transactionId = "" then [] else [(r, c.stale observedAt r)]
  | _ => []

theorem mem_entriesAt {n : String} {e : Reservation × Bool}
    (h : e ∈ c.entriesAt f observedAt n) :
    f.names n = .holds (.reserved e.1) ∧ e.2 = c.stale observedAt e.1 := by
  unfold entriesAt at h
  cases hfile : f.names n with
  | absent => simp [hfile] at h
  | opened => simp [hfile] at h
  | holds record =>
      cases record with
      | committed name t at_ => simp [hfile] at h
      | reserved r =>
          simp only [hfile] at h
          split_ifs at h
          · cases h
          · obtain rfl := List.mem_singleton.mp h
            exact ⟨rfl, rfl⟩

/-- The loop over the names comes to its end if all of them can be read. -/
theorem reads_all (L : PublicationLedger) (c : ScavengeCall) (observedAt : Time)
    (todo : List String) (hread : ∀ n ∈ todo, f.names n ≠ .opened) :
    ∀ entries, ∃ ms, Machine.run (c.alone L) (f, readNext observedAt entries todo) ms =
      some (f, next [] (groups (entries ++ todo.flatMap (c.entriesAt f observedAt)))) := by
  induction todo with
  | nil => exact fun entries ↦ ⟨[], by simp [readNext]⟩
  | cons n todo ih =>
      intro entries
      have hrest := ih fun n' hn' ↦ hread n' (List.mem_cons_of_mem n hn')
      obtain ⟨ms, hrun⟩ := hrest (entries ++ c.entriesAt f observedAt n)
      refine ⟨{} :: ms, ?_⟩
      have hstep : c.alone L (f, readNext observedAt entries (n :: todo)) {} =
          some (f, readNext observedAt (entries ++ c.entriesAt f observedAt n) todo) := by
        simp only [readNext, alone, ScavengeCall.step, entriesAt]
        cases hfile : f.names n with
        | absent => simp [JsonFile.read]
        | opened => exact absurd hfile (hread n List.mem_cons_self)
        | holds record =>
            cases record with
            | committed name t at_ => simp [JsonFile.read]
            | reserved r =>
                simp only [JsonFile.read]
                split_ifs <;> simp
      rw [Machine.run_cons, hstep, Option.bind_some, hrun, List.flatMap_cons, List.append_assoc]

/-- An abort comes to remove a name of its transaction. -/
theorem reaches_unlink {a : AbortCall} {n : String} {r : NameRecord} (ht : a.transaction ≠ "")
    (habsent : f.commits a.transaction = .absent) (hn : n ∈ a.allNames)
    (hr : f.names n = .holds r) (hours : r.transactionId = a.transaction) :
    ∃ ms g todo, Machine.run (a.alone L) (f, .checkCommit) ms = some (g, .unlinkName n todo) ∧
      g.names = f.names := by
  -- From the head of the loop on.
  have hsweep : ∀ g : LedgerFiles, g.names = f.names →
      a.alone L (g, .sweep a.allNames) { name := n } =
        some (g, .unlinkName n (a.allNames.erase n)) := by
    intro g hnames
    cases hall : a.allNames with
    | nil => rw [hall] at hn; cases hn
    | cons first rest =>
        rw [hall] at hn
        simp [AbortCall.alone, AbortCall.step, hn, hnames, hr, JsonFile.read, hours]
  by_cases htomb : (f.tombstones a.transaction).present
  · refine ⟨[{}, {}, { name := n }], f, a.allNames.erase n, ?_, rfl⟩
    have hlast := hsweep f rfl
    simpa [Machine.run_cons, AbortCall.alone, AbortCall.step, ht, habsent, htomb] using hlast
  · refine ⟨[{}, {}, {}, {}, { name := n }], (f.setTombstone a.transaction .opened).setTombstone
      a.transaction (.holds (a.tombstone 1)), a.allNames.erase n, ?_, rfl⟩
    have hlast := hsweep ((f.setTombstone a.transaction .opened).setTombstone
      a.transaction (.holds (a.tombstone 1))) rfl
    simpa [Machine.run_cons, AbortCall.alone, AbortCall.step, ht, habsent, htomb] using hlast

/-- The steps of an abort on its way are steps of the scavenger that makes it. -/
theorem run_aborting {a : AbortCall} {rest : ReservationGroups} {evidence : List ScavengeEvidence}
    {n : String} {todo : List String} {ms : List Moment} :
    ∀ {f : LedgerFiles} {pc : AbortPc},
      Machine.run (a.alone L) (f, pc) ms = some (g, .unlinkName n todo) →
        Machine.run (c.alone L) (f, .aborting a pc rest evidence) ms =
          some (g, .aborting a (.unlinkName n todo) rest evidence) := by
  induction ms with
  | nil =>
      intro f pc hrun
      obtain ⟨rfl, rfl⟩ := Prod.mk.inj (Option.some.inj hrun)
      rfl
  | cons m ms ih =>
      intro f pc hrun
      rw [Machine.run_cons, Option.bind_eq_some_iff] at hrun
      obtain ⟨⟨f', pc'⟩, hstep, hrun⟩ := hrun
      have hcall : a.step L m f pc = some (f', pc') := hstep
      have hlift : c.alone L (f, .aborting a pc rest evidence) m =
          some (f', .aborting a pc' rest evidence) := by
        simp only [alone, ScavengeCall.step, hcall, Option.map_some, Option.some.injEq,
          Prod.mk.injEq, true_and]
        -- An abort that has come to its end makes no further step.
        cases pc' with
        | returned =>
            cases ms with
            | nil => cases hrun
            | cons m' ms => cases hrun
        | raised e =>
            cases ms with
            | nil => cases hrun
            | cons m' ms => cases hrun
        | _ => rfl
      rw [Machine.run_cons, hlift]
      exact ih hrun

/-- The transaction of the first entry comes first, if all of its entries are stale. -/
theorem groups_cons {e : Reservation × Bool} {entries : List (Reservation × Bool)}
    (hstale : ∀ e' ∈ e :: entries, e'.1.transactionId = e.1.transactionId → e'.2) :
    ∃ rest, groups (e :: entries) = (e.1.transactionId,
      ((e :: entries).filter fun e' ↦ e'.1.transactionId = e.1.transactionId).map (·.1)) ::
        rest := by
  have hall : (e :: entries).all (fun e' ↦ e'.1.transactionId ≠ e.1.transactionId || e'.2) := by
    refine List.all_eq_true.mpr fun e' he' ↦ ?_
    by_cases hsame : e'.1.transactionId = e.1.transactionId
    · simp [hsame, hstale e' he' hsame]
    · simp [hsame]
  unfold groups
  rw [List.map_cons, List.eraseDups_cons, List.filter_cons, if_pos hall, List.map_cons]
  exact ⟨_, rfl⟩

/-- The abort of a group removes each of its names. -/
theorem removes_member {t n : String} {r : Reservation} {entries : List Reservation}
    {rest : ReservationGroups} (ht : Text.strip t = t) (hne : t ≠ "")
    (habsent : f.commits t = .absent) (hr : f.names n = .holds (.reserved r))
    (hmem : r ∈ entries) (hname : r.artifactName = n) (hsame : r.transactionId = t)
    (hnamed : ∀ r' ∈ entries, r'.artifactName ≠ "") :
    ∃ ms g pc, Machine.run (c.alone L) (f, .checkCommit t entries rest []) ms = some (g, pc) ∧
      g.names n = .absent := by
  have htransaction : (abortCall t entries).transaction = t := ht
  have hn : n ∈ (abortCall t entries).allNames := by
    rw [AbortCall.allNames, List.mem_dedup]
    exact List.mem_append_right _ (List.mem_map.mpr ⟨r, hmem, hname⟩)
  have hne' : (abortCall t entries).transaction ≠ "" := by rwa [htransaction]
  have habsent' : f.commits (abortCall t entries).transaction = .absent := by rwa [htransaction]
  obtain ⟨ms, g, todo, hrun, hnames⟩ := reaches_unlink (L := L) hne' habsent' hn hr
    (hsame.trans htransaction.symm)
  have hfirst : c.alone L (f, .checkCommit t entries rest []) {} =
      some (f, .aborting (abortCall t entries) .checkCommit rest []) := by
    have hnone : ¬ entries.any fun r ↦ r.artifactName = "" := by
      simpa using hnamed
    simp only [alone, ScavengeCall.step, habsent, JsonFile.present_absent, if_neg hnone,
      Bool.false_eq_true, if_false]
  have hunlink : (abortCall t entries).step L {} g (.unlinkName n todo) =
      some (g.setName n .absent, (abortCall t entries).afterName L n todo) := by
    simp only [AbortCall.step, Bool.false_eq_true, if_false]
  obtain ⟨pc, hlast⟩ : ∃ pc, c.alone L
      (g, .aborting (abortCall t entries) (.unlinkName n todo) rest []) {} =
        some (g.setName n .absent, pc) := by
    simp only [alone, ScavengeCall.step, hunlink, Option.map_some, Option.some.injEq,
      Prod.mk.injEq, true_and]
    exact ⟨_, rfl⟩
  refine ⟨{} :: (ms ++ [({} : Moment)]), g.setName n .absent, pc, ?_, by
    simp [LedgerFiles.setName]⟩
  rw [Machine.run_cons, hfirst, Option.bind_some, Machine.run_append, run_aborting hrun,
    Option.bind_some, Machine.run_cons, hlast, Option.bind_some, Machine.run_nil]

/-- **A scavenger removes what is not guarded**, if it comes to that name first. -/
theorem removes_unguarded (h : Published f staged)
    (hguarded : ¬ c.Guarded leases now clock (c.now.getD reading) f) :
    ∃ n r, f.names n = .holds (.reserved r) ∧ r.Live leases now clock ∧
      ∃ m ms g pc, f.Lists m.names ∧ m.now = reading ∧
        Machine.run (c.alone L) (f, .glob) (m :: ms) = some (g, pc) ∧ g.names n = .absent := by
  simp only [Guarded, not_or, not_exists, not_forall, not_and] at hguarded
  obtain ⟨hread, n, r, hr, hlive, huncommitted, hnotfresh⟩ := hguarded
  have hwritten := h.written n r hr
  have habsent : f.commits r.transactionId = .absent :=
    JsonFile.eq_absent_iff.mpr (by simpa using huncommitted)
  have hstale : ∀ n' r', f.names n' = .holds (.reserved r') →
      r'.transactionId = r.transactionId → c.stale (c.now.getD reading) r' = true := by
    intro n' r' hr' hsame
    have hne := hnotfresh n' r' hr' hsame
    rw [fresh_iff] at hne
    simpa using hne
  -- A listing that begins with the name.
  obtain ⟨names, hnames⟩ := h.finite
  let listed := n :: ((names.filter fun n' ↦ (f.names n').present).dedup.erase n)
  have hlists : f.Lists listed := by
    have hnodup := List.nodup_dedup (names.filter fun n' ↦ (f.names n').present)
    refine ⟨List.nodup_cons.mpr ⟨hnodup.not_mem_erase, hnodup.erase n⟩, fun n' ↦ ?_⟩
    rw [List.mem_cons, hnodup.mem_erase_iff, List.mem_dedup, List.mem_filter]
    constructor
    · rintro (rfl | ⟨-, -, hpresent⟩)
      · rw [hr]
        rfl
      · exact hpresent
    · intro hpresent
      by_cases hn : n' = n
      · exact .inl hn
      · exact .inr ⟨hn, hnames n' hpresent, hpresent⟩
  let m : Moment := { now := reading, names := listed }
  let observedAt := c.now.getD reading
  -- Its entry is the first, and its transaction the first of the stale ones.
  let others := (listed.tail).flatMap (c.entriesAt f observedAt)
  have hentry : c.entriesAt f observedAt n = [(r, c.stale observedAt r)] := by
    simp [entriesAt, hr, hwritten.transaction]
  have hentries : listed.flatMap (c.entriesAt f observedAt) =
      (r, c.stale observedAt r) :: others := by
    rw [List.flatMap_cons, hentry]
    rfl
  have hknown : ∀ e ∈ (r, c.stale observedAt r) :: others,
      e.2 = c.stale observedAt e.1 ∧ ∃ n', f.names n' = .holds (.reserved e.1) := by
    intro e he
    rw [← hentries] at he
    obtain ⟨n', -, hmem⟩ := List.mem_flatMap.mp he
    exact ⟨(mem_entriesAt hmem).2, n', (mem_entriesAt hmem).1⟩
  have hstales : ∀ e ∈ (r, c.stale observedAt r) :: others,
      e.1.transactionId = r.transactionId → e.2 := by
    intro e he hsame
    obtain ⟨hstaleness, n', hn'⟩ := hknown e he
    rw [hstaleness]
    exact hstale n' e.1 hn' hsame
  obtain ⟨rest, hgroups⟩ := groups_cons hstales
  obtain ⟨ms, hreads⟩ := reads_all L c observedAt listed
    (fun n' _ ↦ hread n') []
  rw [List.nil_append, hentries, hgroups] at hreads
  have hmember : r ∈ (((r, c.stale observedAt r) :: others).filter fun e ↦
      e.1.transactionId = r.transactionId).map (·.1) :=
    List.mem_map.mpr ⟨(r, c.stale observedAt r), List.mem_filter.mpr
      ⟨List.mem_cons_self, decide_eq_true rfl⟩, rfl⟩
  have hnamed : ∀ r' ∈ (((r, c.stale observedAt r) :: others).filter fun e ↦
      e.1.transactionId = r.transactionId).map (·.1), r'.artifactName ≠ "" := by
    intro r' hr'
    obtain ⟨e, he, rfl⟩ := List.mem_map.mp hr'
    obtain ⟨-, n', hn'⟩ := hknown e (List.mem_filter.mp he).1
    have hwritten' := h.written n' e.1 hn'
    exact hwritten'.artifactName ▸ hwritten'.named
  obtain ⟨ms', g, pc, hremoves, hgone⟩ := removes_member (L := L) (c := c) hwritten.strip
    hwritten.transaction habsent hr hmember hwritten.artifactName rfl hnamed
  refine ⟨n, r, hr, hlive, m, ms ++ ms', g, pc, hlists, rfl, ?_, hgone⟩
  have hglob : c.alone L (f, .glob) m = some (f, readNext observedAt [] listed) := by
    simp only [alone, ScavengeCall.step, m, if_pos hlists.1, observedAt]
  rw [Machine.run_cons, hglob, Option.bind_some, Machine.run_append, hreads, Option.bind_some]
  exact hremoves

/-- **A scavenger spares live reservations exactly where they are guarded.** -/
theorem spares_iff_guarded {s : LedgerState} (h : Published s.files s.staged) :
    c.SparesLive L leases now clock reading s ↔
      c.Guarded leases now clock (c.now.getD reading) s.files := by
  constructor
  · intro hspares
    by_contra hguarded
    obtain ⟨n, r, hr, hlive, m, ms, g, pc, hlists, hreading, hrun, hgone⟩ :=
      removes_unguarded (L := L) h hguarded
    have hkept := (hspares m ms g pc hlists hreading hrun n r hr hlive).1
    rw [hgone, hr] at hkept
    cases hkept
  · exact spares_of_guarded h

/-- **Scavenging and live owners.**  Whatever publishers, commits, aborts and scavengers have
done to the ledger: a scavenger spares the reservations whose lease is current, and the bytes
of their transactions, if and only if they are guarded. -/
theorem scavenge_spares_live (L : PublicationLedger) {s : LedgerState}
    (h : Machine.Reach (LedgerState.step L) Machine.anyStep LedgerState.start s)
    (c : ScavengeCall) (leases : LeaseStore) (now clock reading : Time) :
    c.SparesLive L leases now clock reading s ↔
      c.Guarded leases now clock (c.now.getD reading) s.files :=
  spares_iff_guarded (LedgerState.publishing_of_reach h).files

section Runs

open LedgerState (sample sampleRef go)

/-- A candidate for a lease. -/
def candidate (leaseId ownerId : String) : ResourceLease where
  leaseId := leaseId
  ownerId := ownerId
  scope := "project"
  resources := ⟨none, none, none, none, []⟩
  status := .active
  createdAt := 0
  updatedAt := 0
  expiresAt := 0
  fencingToken := 0
  expiresAt_nonneg := no_expiry_nonneg
  fencingToken_nonneg := no_token_nonneg

/-- The lease of the first owner has expired, and the successor has one. -/
def sampleLeases : LeaseStore :=
  let allow : List ResourceLease → Except Unit Unit := fun _ ↦ .ok ()
  let first := (LeaseStore.empty .sqlite).acquireLease 0 0 (candidate "lease-a" "first") allow 10
  (first.2.acquireLease 20 20 (candidate "lease-b" "second") allow 10).2

/-- The reservation of the successor, once its bytes are attached. -/
def successor : Reservation := ⟨"model", "t", "lease-b", 2, 20, some sampleRef⟩

/-- The publication of the successor. -/
def succeeds : PublishCall := ⟨"model", "t", "lease-b", 2, 20, sampleRef, ⟨3, "sha256:00"⟩⟩

/-- The ledger once the successor has published `model`. -/
theorem publishes_spec : ∃ s, Machine.Reach (LedgerState.step sample) Machine.anyStep
    LedgerState.start s ∧ (∀ n, s.files.names n =
      if n = "model" then .holds (.reserved successor) else .absent) ∧
        s.files.commits "t" = .absent := by
  obtain ⟨s, hrun, hnames, hcommit⟩ : ∃ s, Machine.run (LedgerState.step sample)
      LedgerState.start [.call (.publish succeeds .reserve), go 0, go 0, go 0, go 0, go 0] =
        some s ∧ (∀ n, s.files.names n =
          if n = "model" then .holds (.reserved successor) else .absent) ∧
            s.files.commits "t" = .absent := by
    refine ⟨_, rfl, fun n ↦ ?_, rfl⟩
    by_cases hn : n = "model"
    · subst hn
      rfl
    · have hne : n ≠ succeeds.artifactName := fun h ↦ hn (h.trans (by decide))
      simp only [LedgerFiles.setName, LedgerFiles.setPayload, Function.update_of_ne hne, if_neg hn]
      rfl
  exact ⟨s, Machine.reach_of_run_any hrun, hnames, hcommit⟩

/-- A stale owner starts up when its successor has published. -/
def staleOwner : ScavengeCall := ⟨"lease-a", 1, 86400, none⟩

/-- The live reservation of a successor is removed by the stale owner's scavenger. -/
theorem stale_owner_removes : ∃ s, Machine.Reach (LedgerState.step sample) Machine.anyStep
    LedgerState.start s ∧ ¬ staleOwner.SparesLive sample sampleLeases 21 21 21 s := by
  obtain ⟨s, hreach, hnames, hcommit⟩ := publishes_spec
  have hpublished := (LedgerState.publishing_of_reach hreach).files
  refine ⟨s, hreach, fun hspares ↦ ?_⟩
  rcases (spares_iff_guarded hpublished).mp hspares with ⟨n, hopened⟩ | hguarded
  · rw [hnames] at hopened
    split_ifs at hopened
  · have hmodel : s.files.names "model" = .holds (.reserved successor) := hnames "model"
    rcases hguarded "model" successor hmodel (by decide +kernel) with h | ⟨n, r, hr, -, hfresh⟩
    · have hsame : s.files.commits successor.transactionId = .absent := hcommit
      rw [hsame] at h
      cases h
    · rw [hnames] at hr
      split_ifs at hr
      obtain rfl := NameRecord.reserved.inj (JsonFile.holds.inj hr)
      have hnotstale : staleOwner.stale 21 successor = false := fresh_iff.mp hfresh
      have hstale : staleOwner.stale 21 successor = true := by decide +kernel
      rw [hnotstale] at hstale
      cases hstale

/-- The successor's own scavenger spares it. -/
theorem scavenge_spares_own : ∃ s, Machine.Reach (LedgerState.step sample) Machine.anyStep
    LedgerState.start s ∧
      ScavengeCall.SparesLive sample ⟨"lease-b", 2, 86400, none⟩ sampleLeases 21 21 21 s := by
  obtain ⟨s, hreach, hnames, -⟩ := publishes_spec
  refine ⟨s, hreach, (scavenge_spares_live sample hreach _ _ 21 21 21).mpr (.inr ?_)⟩
  intro n r hr hlive
  rw [hnames] at hr
  split_ifs at hr with hn
  obtain rfl := NameRecord.reserved.inj (JsonFile.holds.inj hr)
  exact .inr ⟨"model", successor, hnames "model", rfl, fresh_iff.mpr (by decide +kernel)⟩

end Runs

end ScavengeCall

end Blackbase.Resources.Artifacts
