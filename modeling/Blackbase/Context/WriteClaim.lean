import Mathlib.Data.PNat.Basic
import Blackbase.Core.Machine
import Blackbase.Context.SnapshotFiles

/-!
# The write claim of a snapshot

`_claim_file_write` of `FileSnapshotStore` and the clause of `write` that gives the claim up,
for one key.  Any number of writers take file steps in any order; a writer belongs to a
process, which can stop at any moment, with all its writers, and start again.

Every claim file gets a token when it is created.  A writer is inside from the moment it has
created its claim until it gives the claim up, and a claim is live as long as a writer is
inside with it.  The claim excludes other writers as long as no live claim is misread and no
claim is replaced between being read and being removed; without this, a writer removes a live
claim and a second one comes in.
-/

namespace Blackbase.Context

open Resources (Time)

/-- The file that stands at the path of the claim.  It is empty until its payload, of which
only the process id is read, has been written. -/
structure ClaimFile where
  token : ℕ
  creator : ℕ
  pid : Option ℕ+
deriving DecidableEq

/-- An operation on the key. -/
inductive SnapshotCall where
  | write (call : WriteCall)
  | delete
  | pin (call : PinCall)
deriving DecidableEq

/-- Where a writer stands. -/
inductive WriterPc where
  | idle
  /-- The exclusive create of the first or of the second attempt. -/
  | create (call : WriteCall) (last : Bool)
  /-- The claim file exists, and is read. -/
  | inspect (call : WriteCall) (last : Bool)
  /-- The claim file has been found stale. -/
  | remove (call : WriteCall) (last : Bool) (seen : Option ℕ)
  | fill (call : WriteCall) (token : ℕ)
  | sync (call : WriteCall) (token : ℕ)
  /-- The claim has been obtained. -/
  | writing (call : WriteCall) (token : ℕ) (pc : WritePc)
  | deleting (pc : DeletePc)
  | pinning (call : PinCall) (pc : PinPc)
deriving DecidableEq

namespace WriterPc

/-- The token of the claim that the writer is inside with. -/
def token : WriterPc → Option ℕ
  | fill _ token | sync _ token | writing _ token _ => some token
  | _ => none

/-- The token of the claim that the writer is about to remove as stale. -/
def seen : WriterPc → Option ℕ
  | remove _ _ seen => seen
  | _ => none

end WriterPc

/-- The first step of an operation. -/
def SnapshotCall.start : SnapshotCall → WriterPc
  | write call => .create call false
  | delete => .deleting .readPins
  | pin call => .pinning call .read

/-- The files of the key, and where the writers stand. -/
structure Snapshots where
  claim : Option ClaimFile
  files : SnapshotFiles
  alive : ℕ+ → Bool
  pc : ℕ → WriterPc
  nextToken : ℕ

/-- A step.  Whether a file operation fails, what the clock reads and which of several paths is
next are choices of the step. -/
inductive SnapshotStep where
  | begin (writer : ℕ) (call : SnapshotCall)
  | act (writer : ℕ) (fails : Bool) (now : Time) (pick : ℕ)
  | stop (pid : ℕ+)
  | start (pid : ℕ+)

namespace Snapshots

/-- The writer goes on at `pc`. -/
def goto (s : Snapshots) (w : ℕ) (pc : WriterPc) : Snapshots :=
  { s with pc := Function.update s.pc w pc }

/-- The payload is written to the file that the writer has opened, which may have been removed
from the path of the claim since. -/
def writePayload (s : Snapshots) (token : ℕ) (pid : ℕ+) : Snapshots :=
  { s with claim := s.claim.map fun f ↦ if f.token = token then { f with pid := some pid } else f }

/-- Remove what stands at the path of the claim. -/
def removeClaim (s : Snapshots) : Snapshots := { s with claim := none }

/-- The claim that is found belongs to a process that is alive. -/
def ownerAlive (s : Snapshots) : Bool := (s.claim.bind ClaimFile.pid).any s.alive

/-- One file step of a writer. -/
def act (pid : ℕ → ℕ+) (s : Snapshots) (w : ℕ) (fails : Bool) (now : Time) (pick : ℕ) :
    Option Snapshots :=
  match s.pc w with
  | .idle => none
  | .create call last =>
      if fails then some (s.goto w .idle)
      else if s.claim.isSome then some (s.goto w (.inspect call last))
      else some
        { s.goto w (.fill call s.nextToken) with
          claim := some { token := s.nextToken, creator := w, pid := none }
          nextToken := s.nextToken + 1 }
  | .inspect call last =>
      -- Whatever goes wrong in reading the claim, its owner counts as dead.
      if ¬ fails ∧ s.ownerAlive then some (s.goto w .idle)
      else some (s.goto w (.remove call last (s.claim.map (·.token))))
  | .remove call last _ =>
      if fails then some (s.goto w .idle)
      else some (s.removeClaim.goto w (if last then .idle else .create call true))
  | .fill call token =>
      if fails then some (s.goto w .idle)
      else some ((s.writePayload token (pid w)).goto w (.sync call token))
  | .sync call token => some (s.goto w (if fails then .idle else .writing call token .readMeta))
  | .writing call token pc =>
      match pc with
      | .escaped => some (s.goto w .idle)
      | .release =>
          if fails then some (s.goto w .idle) else some (s.removeClaim.goto w .idle)
      | pc =>
          let (files, pc) := call.step s.files pc fails
          some ({ s with files := files }.goto w (.writing call token pc))
  | .deleting pc =>
      let (files, pc) := pc.step s.files fails pick
      some ({ s with files := files }.goto w (if pc = DeletePc.done then .idle else .deleting pc))
  | .pinning call pc =>
      let (files, pc) := call.step s.files pc fails now pick
      some ({ s with files := files }.goto w (if pc = PinPc.done then .idle else .pinning call pc))

variable (pid : ℕ → ℕ+)

/-- One step. -/
def step (s : Snapshots) : SnapshotStep → Option Snapshots
  | .begin w call =>
      if s.alive (pid w) ∧ s.pc w = .idle then some (s.goto w call.start) else none
  | .act w fails now pick => if s.alive (pid w) then s.act pid w fails now pick else none
  | .stop p =>
      if s.alive p then
        some
          { s with
            alive := Function.update s.alive p false
            pc := fun w ↦ if pid w = p then .idle else s.pc w }
      else none
  | .start p =>
      if s.alive p then none else some { s with alive := Function.update s.alive p true }

/-- The writer is inside with this claim. -/
def Inside (s : Snapshots) (w token : ℕ) : Prop := (s.pc w).token = some token

/-- Some writer is inside with the claim. -/
def Live (s : Snapshots) (f : ClaimFile) : Prop := ∃ w, s.Inside w f.token

/-- Nobody is at work, and the claim that may have been left behind is not from the future. -/
def Quiet (s : Snapshots) : Prop :=
  (∀ w, s.pc w = .idle) ∧ ∀ f, s.claim = some f → f.token < s.nextToken

/-- The condition on a step: a claim that cannot be read, or that is still empty, is not live;
and a claim that is removed as stale is the one that was read. -/
def Undisturbed (s : Snapshots) : SnapshotStep → Prop
  | .act w fails _ _ =>
      (∀ call last f, s.pc w = .inspect call last → s.claim = some f →
        fails = true ∨ f.pid = none → ¬ s.Live f) ∧
      ∀ call last seen f, s.pc w = .remove call last seen → s.claim = some f →
        seen = some f.token
  | _ => True

/-- The step takes the file away from the path of the claim. -/
def Removed (s t : Snapshots) (f : ClaimFile) : Prop :=
  s.claim = some f ∧ ∀ g, t.claim = some g → g.token ≠ f.token

end Snapshots

/-- The writer that takes the step. -/
def SnapshotStep.writer : SnapshotStep → Option ℕ
  | begin w _ => some w
  | act w _ _ _ => some w
  | _ => none

namespace Snapshots

variable {pid : ℕ → ℕ+} {s t : Snapshots}

/-! ## The invariant -/

/-- Who is inside owns the claim that stands, and what has been found stale stays so. -/
structure Inv (pid : ℕ → ℕ+) (s : Snapshots) : Prop where
  owns : ∀ w token, s.Inside w token → ∃ f, s.claim = some f ∧ f.token = token ∧ f.creator = w
  content : ∀ w f, s.Inside w f.token → s.claim = some f → f.pid = none ∨ f.pid = some (pid w)
  alive : ∀ w, s.pc w ≠ .idle → s.alive (pid w) = true
  fresh : ∀ f, s.claim = some f → f.token < s.nextToken
  inside : ∀ w token, s.Inside w token → token < s.nextToken
  seen : ∀ w token, (s.pc w).seen = some token →
    token < s.nextToken ∧ ∀ w', ¬ s.Inside w' token

theorem Quiet.inv (h : s.Quiet) : s.Inv pid where
  owns w token hw := by
    rw [Inside, h.1 w] at hw
    cases hw
  content w f hw _ := by
    rw [Inside, h.1 w] at hw
    cases hw
  alive w hw := absurd (h.1 w) hw
  fresh := h.2
  inside w token hw := by
    rw [Inside, h.1 w] at hw
    cases hw
  seen w token hw := by
    rw [h.1 w] at hw
    cases hw

/-! ## What a step changes -/

/-- What a file step of a writer changes of the claim. -/
inductive Change (pid : ℕ → ℕ+) (s : Snapshots) (w : ℕ) (fails : Bool) : Snapshots → Prop
  /-- The claim stays as it is; a writer may leave without giving it up. -/
  | quiet (files : SnapshotFiles) (pc : WriterPc) :
      (pc.token = none ∨ pc.token = (s.pc w).token) → pc.seen = none →
        Change pid s w fails ({ s with files := files }.goto w pc)
  | found (call : WriteCall) (last : Bool) : s.pc w = .inspect call last →
      (fails = true ∨ s.ownerAlive = false) →
        Change pid s w fails (s.goto w (.remove call last (s.claim.map (·.token))))
  | created (call : WriteCall) (last : Bool) : s.pc w = .create call last → s.claim = none →
      Change pid s w fails
        { s.goto w (.fill call s.nextToken) with
          claim := some { token := s.nextToken, creator := w, pid := none }
          nextToken := s.nextToken + 1 }
  | filled (call : WriteCall) (token : ℕ) : s.pc w = .fill call token →
      Change pid s w fails ((s.writePayload token (pid w)).goto w (.sync call token))
  | removed (call : WriteCall) (last : Bool) (seen : Option ℕ) (pc : WriterPc) :
      s.pc w = .remove call last seen → pc.token = none → pc.seen = none →
        Change pid s w fails (s.removeClaim.goto w pc)
  | released (call : WriteCall) (token : ℕ) : s.pc w = .writing call token .release →
      Change pid s w fails (s.removeClaim.goto w .idle)

theorem change_of_act {w : ℕ} {fails : Bool} {now : Time} {pick : ℕ}
    (h : s.act pid w fails now pick = some t) : s.Change pid w fails t ∧ s.pc w ≠ .idle := by
  -- A step that leaves the claim alone.
  have hquiet : ∀ pc, (pc.token = none ∨ pc.token = (s.pc w).token) → pc.seen = none →
      s.Change pid w fails (s.goto w pc) := fun pc ↦ .quiet s.files pc
  unfold act at h
  cases hpc : s.pc w with
  | idle => simp [hpc] at h
  | create call last =>
      simp only [hpc] at h
      refine ⟨?_, by simp⟩
      split_ifs at h with hfails hclaim
      · exact Option.some.inj h ▸ hquiet _ (.inl rfl) rfl
      · exact Option.some.inj h ▸ hquiet _ (.inl rfl) rfl
      · obtain rfl := Option.some.inj h
        exact .created call last hpc (by simpa using hclaim)
  | inspect call last =>
      simp only [hpc] at h
      refine ⟨?_, by simp⟩
      split_ifs at h with halive
      · exact Option.some.inj h ▸ hquiet _ (.inl rfl) rfl
      · obtain rfl := Option.some.inj h
        refine .found call last hpc ?_
        cases fails
        · exact .inr (by simpa using halive)
        · exact .inl rfl
  | remove call last seen =>
      simp only [hpc] at h
      refine ⟨?_, by simp⟩
      split_ifs at h with hfails hlast
      · exact Option.some.inj h ▸ hquiet _ (.inl rfl) rfl
      · obtain rfl := Option.some.inj h
        exact .removed call last seen _ hpc rfl rfl
      · obtain rfl := Option.some.inj h
        exact .removed call last seen _ hpc rfl rfl
  | fill call token =>
      simp only [hpc] at h
      refine ⟨?_, by simp⟩
      split_ifs at h with hfails
      · exact Option.some.inj h ▸ hquiet _ (.inl rfl) rfl
      · obtain rfl := Option.some.inj h
        exact .filled call token hpc
  | sync call token =>
      simp only [hpc] at h
      refine ⟨?_, by simp⟩
      obtain rfl := Option.some.inj h
      split_ifs
      · exact hquiet _ (.inl rfl) rfl
      · exact hquiet _ (.inr (by rw [hpc]; rfl)) rfl
  | writing call token pc =>
      refine ⟨?_, by simp⟩
      have hbody : some ({ s with files := (call.step s.files pc fails).1 }.goto w
          (.writing call token (call.step s.files pc fails).2)) = some t →
            s.Change pid w fails t := by
        intro h
        obtain rfl := Option.some.inj h
        exact .quiet _ _ (.inr (by rw [hpc]; rfl)) rfl
      cases pc with
      | escaped =>
          simp only [hpc] at h
          exact Option.some.inj h ▸ hquiet _ (.inl rfl) rfl
      | release =>
          simp only [hpc] at h
          split_ifs at h
          · exact Option.some.inj h ▸ hquiet _ (.inl rfl) rfl
          · obtain rfl := Option.some.inj h
            exact .released call token hpc
      | readMeta => simp only [hpc] at h; exact hbody h
      | writeArrays => simp only [hpc] at h; exact hbody h
      | writeExtras => simp only [hpc] at h; exact hbody h
      | readPins => simp only [hpc] at h; exact hbody h
      | replaceMeta => simp only [hpc] at h; exact hbody h
      | cleanNpz => simp only [hpc] at h; exact hbody h
      | cleanExtras => simp only [hpc] at h; exact hbody h
      | markOnce => simp only [hpc] at h; exact hbody h
      | discard => simp only [hpc] at h; exact hbody h
  | deleting pc =>
      simp only [hpc] at h
      refine ⟨?_, by simp⟩
      obtain rfl := Option.some.inj h
      split_ifs
      · exact .quiet _ _ (.inl rfl) rfl
      · exact .quiet _ _ (.inl rfl) rfl
  | pinning call pc =>
      simp only [hpc] at h
      refine ⟨?_, by simp⟩
      obtain rfl := Option.some.inj h
      split_ifs
      · exact .quiet _ _ (.inl rfl) rfl
      · exact .quiet _ _ (.inl rfl) rfl

/-! ## Steps keep the invariant -/

variable {w w' k : ℕ} {pc : WriterPc}

theorem goto_pc (s : Snapshots) (w w' : ℕ) (pc : WriterPc) :
    (s.goto w pc).pc w' = if w' = w then pc else s.pc w' :=
  Function.update_apply s.pc w pc w'

/-- Who is inside after a writer went on. -/
theorem inside_goto {files : SnapshotFiles} {claim : Option ClaimFile} {n : ℕ} :
    Inside { s.goto w pc with files := files, claim := claim, nextToken := n } w' k ↔
      w' = w ∧ pc.token = some k ∨ w' ≠ w ∧ s.Inside w' k := by
  have hpc := goto_pc s w w' pc
  unfold Inside
  by_cases hw : w' = w
  · subst hw
    simp [hpc]
  · simp [hpc, hw]

theorem alive_of_inside (h : s.Inv pid) (hw : s.Inside w k) : s.alive (pid w) = true := by
  refine h.alive w fun hidle ↦ ?_
  rw [Inside, hidle] at hw
  cases hw

/-- At most one writer is inside. -/
theorem Inv.unique (h : s.Inv pid) (hw : s.Inside w k) {k' : ℕ} (hw' : s.Inside w' k') :
    w = w' := by
  obtain ⟨f, hf, -, rfl⟩ := h.owns w k hw
  obtain ⟨f', hf', -, rfl⟩ := h.owns w' k' hw'
  rw [Option.some.inj (hf.symm.trans hf')]

theorem Inv.quiet (h : s.Inv pid) (halive : s.alive (pid w) = true) (files : SnapshotFiles)
    (htoken : pc.token = none ∨ pc.token = (s.pc w).token)
    (hseen : ∀ k, pc.seen = some k → k < s.nextToken ∧ ∀ w', ¬ s.Inside w' k) :
    ({ s with files := files }.goto w pc).Inv pid := by
  -- Who is inside afterwards was inside before.
  have hinside : ∀ w' k, ({ s with files := files }.goto w pc).Inside w' k → s.Inside w' k := by
    intro w' k hw'
    rcases inside_goto.mp hw' with ⟨rfl, hk⟩ | ⟨-, hk⟩
    · rcases htoken with hnone | hsame
      · rw [hnone] at hk
        cases hk
      · exact hsame.symm.trans hk
    · exact hk
  constructor
  case owns => exact fun w' k hw' ↦ h.owns w' k (hinside w' k hw')
  case content => exact fun w' f hw' hf ↦ h.content w' f (hinside w' f.token hw') hf
  case alive =>
    intro w' hw'
    rw [goto_pc] at hw'
    split_ifs at hw' with heq
    · rw [heq]
      exact halive
    · exact h.alive w' hw'
  case fresh => exact h.fresh
  case inside => exact fun w' k hw' ↦ h.inside w' k (hinside w' k hw')
  case seen =>
    intro w' k hk
    rw [goto_pc] at hk
    have hold : k < s.nextToken ∧ ∀ w', ¬ s.Inside w' k := by
      split_ifs at hk
      · exact hseen k hk
      · exact h.seen w' k hk
    exact ⟨hold.1, fun w'' hw'' ↦ hold.2 w'' (hinside w'' k hw'')⟩

/-- The claim is removed while nobody else is inside. -/
theorem Inv.cleared (h : s.Inv pid) (halive : s.alive (pid w) = true) (htoken : pc.token = none)
    (hseen : pc.seen = none) (hothers : ∀ w' k, w' ≠ w → ¬ s.Inside w' k) :
    (s.removeClaim.goto w pc).Inv pid := by
  have hinside : ∀ w' k, ¬ (s.removeClaim.goto w pc).Inside w' k := by
    intro w' k hw'
    rcases inside_goto.mp hw' with ⟨rfl, hk⟩ | ⟨hne, hk⟩
    · rw [htoken] at hk
      cases hk
    · exact hothers w' k hne hk
  constructor
  case owns => exact fun w' k hw' ↦ absurd hw' (hinside w' k)
  case content => exact fun w' f hw' ↦ absurd hw' (hinside w' f.token)
  case alive =>
    intro w' hw'
    rw [goto_pc] at hw'
    split_ifs at hw' with heq
    · rw [heq]
      exact halive
    · exact h.alive w' hw'
  case fresh => exact fun f hf ↦ nomatch hf
  case inside => exact fun w' k hw' ↦ absurd hw' (hinside w' k)
  case seen =>
    intro w' k hk
    rw [goto_pc] at hk
    split_ifs at hk
    · rw [hseen] at hk
      cases hk
    · exact ⟨(h.seen w' k hk).1, fun w'' ↦ hinside w'' k⟩

theorem Inv.created (h : s.Inv pid) (halive : s.alive (pid w) = true) (hclaim : s.claim = none)
    (call : WriteCall) :
    Inv pid { s.goto w (.fill call s.nextToken) with
      claim := some { token := s.nextToken, creator := w, pid := none }
      nextToken := s.nextToken + 1 } := by
  have hnone : ∀ w' k, ¬ s.Inside w' k := by
    intro w' k hw'
    obtain ⟨f, hf, -⟩ := h.owns w' k hw'
    rw [hclaim] at hf
    cases hf
  have hinside : ∀ w' k, Inside { s.goto w (.fill call s.nextToken) with
      claim := some { token := s.nextToken, creator := w, pid := none }
      nextToken := s.nextToken + 1 } w' k → w' = w ∧ k = s.nextToken := by
    intro w' k hw'
    rcases inside_goto.mp hw' with ⟨rfl, hk⟩ | ⟨-, hk⟩
    · exact ⟨rfl, (Option.some.inj hk).symm⟩
    · exact absurd hk (hnone w' k)
  constructor
  case owns =>
    intro w' k hw'
    obtain ⟨rfl, rfl⟩ := hinside w' k hw'
    exact ⟨_, rfl, rfl, rfl⟩
  case content =>
    intro w' f _ hf
    rw [← Option.some.inj hf]
    exact .inl rfl
  case alive =>
    intro w' hw'
    have hpc := goto_pc s w w' (.fill call s.nextToken)
    by_cases heq : w' = w
    · rw [heq]
      exact halive
    · refine h.alive w' fun hidle ↦ hw' ?_
      rw [if_neg heq] at hpc
      exact hpc.trans hidle
  case fresh =>
    intro f hf
    rw [← Option.some.inj hf]
    exact Nat.lt_succ_self _
  case inside =>
    intro w' k hw'
    obtain ⟨-, rfl⟩ := hinside w' k hw'
    exact Nat.lt_succ_self _
  case seen =>
    intro w' k hk
    have hold : k < s.nextToken := by
      have hpc := goto_pc s w w' (.fill call s.nextToken)
      change ((s.goto w (.fill call s.nextToken)).pc w').seen = some k at hk
      rw [hpc] at hk
      split_ifs at hk
      · cases hk
      · exact (h.seen w' k hk).1
    refine ⟨Nat.lt_succ_of_lt hold, fun w'' hw'' ↦ ?_⟩
    exact absurd (hinside w'' k hw'').2 hold.ne

theorem Inv.filled (h : s.Inv pid) {call : WriteCall} {token : ℕ}
    (hpc : s.pc w = .fill call token) :
    ((s.writePayload token (pid w)).goto w (.sync call token)).Inv pid := by
  have hw : s.Inside w token := by rw [Inside, hpc]; rfl
  have halive := alive_of_inside h hw
  obtain ⟨f, hf, rfl, hcreator⟩ := h.owns w token hw
  have hwritten : (s.writePayload f.token (pid w)).claim = some { f with pid := some (pid w) } := by
    simp [writePayload, hf]
  have hinside : ∀ w' k, ((s.writePayload f.token (pid w)).goto w (.sync call f.token)).Inside w' k
      → s.Inside w' k := by
    intro w' k hw'
    rcases inside_goto.mp hw' with ⟨rfl, hk⟩ | ⟨-, hk⟩
    · rw [Inside, hpc]
      exact hk
    · exact hk
  constructor
  case owns =>
    intro w' k hw'
    obtain ⟨f', hf', hk, hcreator'⟩ := h.owns w' k (hinside w' k hw')
    obtain rfl := Option.some.inj (hf.symm.trans hf')
    exact ⟨_, hwritten, hk, hcreator'⟩
  case content =>
    intro w' f' hw' hf'
    obtain rfl := h.unique hw (hinside w' f'.token hw')
    obtain rfl := Option.some.inj (hwritten.symm.trans hf')
    exact .inr rfl
  case alive =>
    intro w' hw'
    rw [goto_pc] at hw'
    split_ifs at hw' with heq
    · rw [heq]
      exact halive
    · exact h.alive w' hw'
  case fresh =>
    intro f' hf'
    obtain rfl := Option.some.inj (hwritten.symm.trans hf')
    exact h.fresh f hf
  case inside => exact fun w' k hw' ↦ h.inside w' k (hinside w' k hw')
  case seen =>
    intro w' k hk
    rw [goto_pc] at hk
    split_ifs at hk
    · cases hk
    · obtain ⟨hlt, hnone⟩ := h.seen w' k hk
      exact ⟨hlt, fun w'' hw'' ↦ hnone w'' (hinside w'' k hw'')⟩

/-- A claim whose owner is found dead is not live. -/
theorem Inv.not_live (h : s.Inv pid) {f : ClaimFile} (hf : s.claim = some f)
    (hpid : f.pid ≠ none) (hdead : s.ownerAlive = false) : ¬ s.Live f := by
  rintro ⟨w, hw⟩
  rcases h.content w f hw hf with hnone | hown
  · exact hpid hnone
  · simp [ownerAlive, hf, hown, alive_of_inside h hw] at hdead

/-- Nobody is inside when a claim is removed as stale. -/
theorem Inv.not_inside_of_seen (h : s.Inv pid) {call : WriteCall} {last : Bool} {seen : Option ℕ}
    (hpc : s.pc w = .remove call last seen)
    (hseen : ∀ f, s.claim = some f → seen = some f.token) (w' k : ℕ) : ¬ s.Inside w' k := by
  intro hw'
  obtain ⟨f, hf, rfl, -⟩ := h.owns w' k hw'
  have hfound : (s.pc w).seen = some f.token := by
    rw [hpc]
    exact hseen f hf
  exact (h.seen w f.token hfound).2 w' hw'

theorem Inv.change {fails : Bool} {now : Time} {pick : ℕ} (h : s.Inv pid)
    (halive : s.alive (pid w) = true) (hok : s.Undisturbed (.act w fails now pick))
    (hchange : s.Change pid w fails t) : t.Inv pid := by
  cases hchange with
  | quiet files pc htoken hseen =>
      refine h.quiet halive files htoken fun k hk ↦ ?_
      rw [hseen] at hk
      cases hk
  | found call last hpc hwhy =>
      refine h.quiet halive s.files (.inl rfl) fun k hk ↦ ?_
      obtain ⟨f, hf, rfl⟩ := Option.map_eq_some_iff.mp hk
      refine ⟨h.fresh f hf, fun w' hw' ↦ ?_⟩
      have hlive : s.Live f := ⟨w', hw'⟩
      by_cases hmisread : fails = true ∨ f.pid = none
      · exact hok.1 call last f hpc hf hmisread hlive
      · rw [not_or] at hmisread
        exact h.not_live hf hmisread.2 (hwhy.resolve_left hmisread.1) hlive
  | created call last hpc hclaim => exact h.created halive hclaim call
  | filled call token hpc => exact h.filled hpc
  | removed call last seen pc hpc htoken hseen =>
      have hnone := h.not_inside_of_seen hpc fun f hf ↦ hok.2 call last seen f hpc hf
      exact h.cleared halive htoken hseen fun w' k _ ↦ hnone w' k
  | released call token hpc =>
      have hw : s.Inside w token := by rw [Inside, hpc]; rfl
      exact h.cleared halive rfl rfl fun w' k hne hw' ↦ hne (h.unique hw' hw)

/-- A process stops, and with it all its writers. -/
theorem Inv.stopped (h : s.Inv pid) (p : ℕ+) :
    Inv pid
      { s with
        alive := Function.update s.alive p false
        pc := fun w ↦ if pid w = p then .idle else s.pc w } := by
  have hpc : ∀ w, (if pid w = p then WriterPc.idle else s.pc w) = .idle ∨
      (if pid w = p then WriterPc.idle else s.pc w) = s.pc w ∧ pid w ≠ p := by
    intro w
    split_ifs with hp
    · exact .inl rfl
    · exact .inr ⟨rfl, hp⟩
  have hinside : ∀ w k, (if pid w = p then WriterPc.idle else s.pc w).token = some k →
      s.Inside w k := by
    intro w k hw
    rcases hpc w with hidle | ⟨hsame, -⟩
    · rw [hidle] at hw
      cases hw
    · rwa [hsame] at hw
  constructor
  case owns => exact fun w k hw ↦ h.owns w k (hinside w k hw)
  case content => exact fun w f hw hf ↦ h.content w f (hinside w f.token hw) hf
  case alive =>
    intro w hw
    rcases hpc w with hidle | ⟨hsame, hne⟩
    · exact absurd hidle hw
    · simp only [Function.update_of_ne hne]
      exact h.alive w fun hidle ↦ hw (hsame.trans hidle)
  case fresh => exact h.fresh
  case inside => exact fun w k hw ↦ h.inside w k (hinside w k hw)
  case seen =>
    intro w k hk
    have hold : (s.pc w).seen = some k := by
      rcases hpc w with hidle | ⟨hsame, -⟩
      · simp only [hidle] at hk
        cases hk
      · simpa only [hsame] using hk
    exact ⟨(h.seen w k hold).1, fun w' hw' ↦ (h.seen w k hold).2 w' (hinside w' k hw')⟩

theorem Inv.step {l : SnapshotStep} (h : s.Inv pid) (hok : s.Undisturbed l)
    (hstep : s.step pid l = some t) : t.Inv pid := by
  cases l with
  | begin w call =>
      simp only [Snapshots.step] at hstep
      split_ifs at hstep with halive
      obtain rfl := Option.some.inj hstep
      refine h.quiet halive.1 s.files ?_ fun k hk ↦ ?_
      · cases call <;> exact .inl rfl
      · cases call <;> cases hk
  | act w fails now pick =>
      simp only [Snapshots.step] at hstep
      split_ifs at hstep with halive
      exact h.change halive hok (change_of_act hstep).1
  | stop p =>
      simp only [Snapshots.step] at hstep
      split_ifs at hstep
      obtain rfl := Option.some.inj hstep
      exact h.stopped p
  | start p =>
      simp only [Snapshots.step] at hstep
      split_ifs at hstep
      obtain rfl := Option.some.inj hstep
      refine ⟨h.owns, h.content, fun w hw ↦ ?_, h.fresh, h.inside, h.seen⟩
      simp only [Function.update_apply]
      split_ifs
      · rfl
      · exact h.alive w hw

/-! ## Exclusion -/

/-- A claim that a step removes is the writer's own, or it is not live. -/
theorem Inv.of_removed {l : SnapshotStep} {f : ClaimFile} (h : s.Inv pid) (hok : s.Undisturbed l)
    (hstep : s.step pid l = some t) (hremoved : s.Removed t f) :
    ¬ s.Live f ∨ ∃ w, l.writer = some w ∧ s.Inside w f.token ∧ f.creator = w := by
  obtain ⟨hf, hgone⟩ := hremoved
  -- A step that leaves the claim at its path removes nothing.
  have hkept : t.claim = s.claim → ¬ s.Live f ∨ ∃ w, l.writer = some w ∧ s.Inside w f.token ∧
      f.creator = w := by
    intro hclaim
    exact absurd rfl (hgone f (hclaim.trans hf))
  cases l with
  | begin w call =>
      simp only [Snapshots.step] at hstep
      split_ifs at hstep
      obtain rfl := Option.some.inj hstep
      exact hkept rfl
  | stop p =>
      simp only [Snapshots.step] at hstep
      split_ifs at hstep
      obtain rfl := Option.some.inj hstep
      exact hkept rfl
  | start p =>
      simp only [Snapshots.step] at hstep
      split_ifs at hstep
      obtain rfl := Option.some.inj hstep
      exact hkept rfl
  | act w fails now pick =>
      simp only [Snapshots.step] at hstep
      split_ifs at hstep
      cases (change_of_act hstep).1 with
      | quiet files pc => exact hkept rfl
      | found => exact hkept rfl
      | created call last hpc hclaim =>
          rw [hclaim] at hf
          cases hf
      | filled call token hpc =>
          refine absurd ?_ (hgone (if f.token = token then { f with pid := some (pid w) } else f) ?_)
          · split_ifs <;> rfl
          · simp [goto, writePayload, hf]
      | removed call last seen pc hpc htoken hseen =>
          refine .inl fun ⟨w', hw'⟩ ↦ ?_
          exact h.not_inside_of_seen hpc (fun f hf ↦ hok.2 call last seen f hpc hf) w' _ hw'
      | released call token hpc =>
          have hw : s.Inside w token := by rw [Inside, hpc]; rfl
          obtain ⟨f', hf', rfl, hcreator⟩ := h.owns w token hw
          obtain rfl := Option.some.inj (hf.symm.trans hf')
          exact .inr ⟨w, rfl, hw, hcreator⟩

/-- File snapshot writes are mutually exclusive in every run in which no live claim is misread
and no claim is replaced between being found stale and being removed: at most one writer is
inside, and a writer removes its own claim or one that is not live. -/
theorem exclusive (hs : s.Quiet) (hrun : Machine.Reach (step pid) Undisturbed s t) :
    (∀ w w' k k', t.Inside w k → t.Inside w' k' → w = w') ∧
      ∀ l u f, t.Undisturbed l → t.step pid l = some u → t.Removed u f →
        ¬ t.Live f ∨ ∃ w, l.writer = some w ∧ t.Inside w f.token ∧ f.creator = w := by
  have hinv : t.Inv pid := hrun.invariant hs.inv fun _ _ _ h hok hstep ↦ h.step hok hstep
  refine ⟨fun w w' k k' hw hw' ↦ hinv.unique hw hw', fun l u f hok hstep hremoved ↦ ?_⟩
  exact hinv.of_removed hok hstep hremoved

/-! ## Two writers -/

/-- A step is undisturbed if it reads a complete claim, or removes the one it has read. -/
def calm (s : Snapshots) : SnapshotStep → Bool
  | .act w fails _ _ =>
      match s.pc w with
      | .inspect _ _ => s.claim.all fun f ↦ !fails && f.pid.isSome
      | .remove _ _ seen => s.claim.all fun f ↦ seen = some f.token
      | _ => true
  | _ => true

theorem undisturbed_of_calm {l : SnapshotStep} (h : s.calm l = true) : s.Undisturbed l := by
  cases l with
  | begin => trivial
  | stop => trivial
  | start => trivial
  | act w fails now pick =>
      constructor
      · intro call last f hpc hf hmisread
        rw [calm] at h
        simp only [hpc, hf, Option.all_some, Bool.and_eq_true, Bool.not_eq_true'] at h
        rcases hmisread with hfails | hnone
        · rw [h.1] at hfails
          cases hfails
        · rw [hnone] at h
          cases h.2
      · intro call last seen f hpc hf
        rw [calm] at h
        simpa [hpc, hf] using h

/-- Two processes, and no files. -/
def fresh : Snapshots where
  claim := none
  files :=
    { metadata := none
      pins := none
      npz := false
      extras := false
      legacyExtras := false
      writeOnce := false
      payloads := fun _ ↦ false }
  alive := fun _ ↦ true
  pc := fun _ ↦ .idle
  nextToken := 0

/-- The processes of the writers. -/
def ownProcess (w : ℕ) : ℕ+ := w.succPNat

theorem fresh_quiet : fresh.Quiet := ⟨fun _ ↦ rfl, fun _ h ↦ nomatch h⟩

/-- A write of one array. -/
def oneArray (transactionId : String) : WriteCall where
  stem := "key"
  transactionId := transactionId
  arrays := true
  extras := false
  writeOnce := false
  expectedRevision := none
  expiresAt := none

/-- A process stops while it has the claim; the next writer takes it over. -/
def takeover : List SnapshotStep :=
  [.begin 0 (.write (oneArray "a")), .act 0 false 0 0, .act 0 false 0 0, .act 0 false 0 0,
    .stop 1, .begin 1 (.write (oneArray "b")), .act 1 false 0 0, .act 1 false 0 0,
    .act 1 false 0 0, .act 1 false 0 0, .act 1 false 0 0, .act 1 false 0 0]

theorem exclusive_takeover :
    ∃ t, Machine.Reach (step ownProcess) Undisturbed fresh t ∧ t.Inside 1 1 ∧
      ∀ w k, t.Inside w k → w = 1 := by
  have hrun : ((Machine.run (Machine.guarded (step ownProcess) fun s l ↦ s.calm l = true) fresh
      takeover).map fun t ↦ (t.pc 1).token) = some (some 1) := by
    decide +kernel
  obtain ⟨t, ht, hinside⟩ := Option.map_eq_some_iff.mp hrun
  have hreach : Machine.Reach (step ownProcess) Undisturbed fresh t :=
    (Machine.reach_of_run ht).mono fun _ _ ↦ undisturbed_of_calm
  refine ⟨t, hreach, hinside, fun w k hw ↦ ?_⟩
  exact (exclusive fresh_quiet hreach).1 w 1 k 1 hw hinside

/-- The second writer reads the claim of the first one before its payload has been written. -/
def misread : List SnapshotStep :=
  [.begin 0 (.write (oneArray "a")), .begin 1 (.write (oneArray "b")), .act 0 false 0 0,
    .act 1 false 0 0, .act 1 false 0 0, .act 1 false 0 0, .act 1 false 0 0, .act 1 false 0 0,
    .act 1 false 0 0, .act 0 false 0 0, .act 0 false 0 0]

/-- Two live writers that both have obtained the claim. -/
theorem both_inside :
    ∃ t, Machine.Reach (step ownProcess) Machine.anyStep fresh t ∧
      t.pc 0 = .writing (oneArray "a") 0 .readMeta ∧
        t.pc 1 = .writing (oneArray "b") 1 .readMeta := by
  have hrun : ((Machine.run (step ownProcess) fresh misread).map fun t ↦ (t.pc 0, t.pc 1)) =
      some (.writing (oneArray "a") 0 .readMeta, .writing (oneArray "b") 1 .readMeta) := by
    decide +kernel
  obtain ⟨t, ht, hpc⟩ := Option.map_eq_some_iff.mp hrun
  exact ⟨t, Machine.reach_of_run_any ht, congrArg Prod.fst hpc, congrArg Prod.snd hpc⟩

end Snapshots

end Blackbase.Context
