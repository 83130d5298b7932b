import Blackbase.Core.Machine
import Blackbase.Core.Precedence
import Blackbase.Resources.Lease.CallEffect

/-!
# Lease fencing

The fencing tokens that a store issues grow, and a call under another token than the stored one
leaves the active leases alone.  A lease that has been released does not become current again.
One that `is_current` has found expired may: on SQLite `is_current` does not sweep, and on Redis
the expiry can be reached between the sweep and the last reading of the clock, so that a call
which has read the clock before the expiry, and has waited since, still finds the lease active.
This is the only way in which a lease that was over comes back.
-/

namespace Blackbase.Resources

/-! ## What the log says -/

/-- The token that is issued. -/
def LeaseEvent.issuedToken : LeaseEvent → Option ℤ
  | issued _ token => some token
  | _ => none

/-- The tokens that have been issued, in order. -/
def issuedTokens (log : List LeaseEvent) : List ℤ := log.filterMap LeaseEvent.issuedToken

/-- The lease has been released, or reported not current after it was issued. -/
def Over (log : List LeaseEvent) (leaseId : String) (token : ℤ) : Prop :=
  .released leaseId token ∈ log ∨
    ∃ before after, log = before ++ .reported leaseId token false :: after ∧
      .issued leaseId token ∈ before

/-- The lease is reported current or is renewed. -/
def LeaseEvent.Revives (e : LeaseEvent) (leaseId : String) (token : ℤ) : Prop :=
  e = .reported leaseId token true ∨ e = .renewed leaseId token

/-- No lease that is over is reported current or renewed. -/
def NeverAgain (log : List LeaseEvent) : Prop :=
  Log.Justified (fun before e ↦ ∀ leaseId token, e.Revives leaseId token →
    ¬ Over before leaseId token) log

/-- What one more event makes over. -/
theorem over_concat {log : List LeaseEvent} {e : LeaseEvent} {leaseId : String} {token : ℤ}
    (h : Over (log ++ [e]) leaseId token) : Over log leaseId token ∨
      e = .released leaseId token ∨
        e = .reported leaseId token false ∧ .issued leaseId token ∈ log := by
  rcases h with h | ⟨before, after, heq, hissued⟩
  · rcases List.mem_append.mp h with h | h
    · exact .inl (.inl h)
    · exact .inr (.inl (List.mem_singleton.mp h).symm)
  · rcases List.eq_nil_or_concat after with rfl | ⟨after', last, rfl⟩
    · obtain ⟨rfl, hlast⟩ := List.append_inj' heq rfl
      exact .inr (.inr ⟨(List.cons.inj hlast).1, hissued⟩)
    · have hsplit : log ++ [e] = (before ++ .reported leaseId token false :: after') ++ [last] := by
        simpa using heq
      exact .inl (.inr ⟨before, after', (List.append_inj' hsplit rfl).1, hissued⟩)

/-! ## Steps -/

namespace LeaseClients

variable {ε : Type} {s t : LeaseClients ε}

/-- The state after a call. -/
def after (s : LeaseClients ε) (c : ℕ) (call : StoreCall ε) (events : List LeaseEvent)
    (store : LeaseStore) : LeaseClients ε :=
  { s with
    store := store
    stage := Function.update s.stage c .idle
    holder := if s.store.backend.locks call then none else s.holder
    log := s.log ++ events }

/-- What a step does. -/
inductive Moves (s : LeaseClients ε) : ClientStep ε → LeaseClients ε → Prop
  | tick (time : Time) : s.time ≤ time → Moves s (.tick time) { s with time := time }
  | begin (c : ℕ) (call : StoreCall ε) (reading : Option Time) :
      (∀ r ∈ reading, r = s.time ∧ s.store.backend.readsFirst call = true) →
      (reading = none → s.store.backend.readsFirst call = false) →
      Moves s (.begin c call)
        { s with stage := Function.update s.stage c (.waiting call reading) }
  | enter (c : ℕ) (call : StoreCall ε) (reading : Option Time) (holder : Option ℕ) :
      s.stage c = .waiting call reading →
      (s.store.backend.locks call = true → s.holder = none ∧ holder = some c) →
      (s.store.backend.locks call = false → holder = s.holder) →
      Moves s (.enter c)
        { s with
          stage := Function.update s.stage c (.inside call (reading.getD s.time))
          holder := holder }
  | finish (c : ℕ) (call : StoreCall ε) (reading : Time) (events : List LeaseEvent)
      (store : LeaseStore) : s.stage c = .inside call reading →
      s.store.Effect reading s.time call events store →
      Moves s (.finish c) (s.after c call events store)

theorem moves_of_step (hwf : s.store.Wf) {l : ClientStep ε} (h : s.step l = some t) :
    s.Moves l t := by
  cases l with
  | tick time =>
      simp only [step] at h
      split_ifs at h with htime
      exact Option.some.inj h ▸ .tick time htime
  | begin c call =>
      cases hstage : s.stage c with
      | idle =>
          simp only [step, hstage] at h
          refine Option.some.inj h ▸ .begin c call _ ?_ ?_
          · intro r hr
            split_ifs at hr with hfirst
            · exact ⟨(Option.some.inj hr).symm, hfirst⟩
            · cases hr
          · intro hnone
            split_ifs at hnone with hfirst
            exact Bool.not_eq_true _ ▸ hfirst
      | waiting _ _ => simp [step, hstage] at h
      | inside _ _ => simp [step, hstage] at h
  | enter c =>
      cases hstage : s.stage c with
      | idle => simp [step, hstage] at h
      | inside _ _ => simp [step, hstage] at h
      | waiting call reading =>
          simp only [step, hstage] at h
          split_ifs at h with hlocks hfree
          · refine Option.some.inj h ▸ .enter c call reading (some c) hstage ?_ ?_
            · exact fun _ ↦ ⟨hfree, rfl⟩
            · exact fun hnot ↦ absurd (hlocks.symm.trans hnot) Bool.noConfusion
          · refine Option.some.inj h ▸ .enter c call reading s.holder hstage ?_ ?_
            · exact fun hyes ↦ absurd hyes hlocks
            · exact fun _ ↦ rfl
  | finish c =>
      cases hstage : s.stage c with
      | idle => simp [step, hstage] at h
      | waiting _ _ => simp [step, hstage] at h
      | inside call reading =>
          obtain ⟨events, store, heq, heffect⟩ := hwf.take_effect reading s.time call
          simp only [step, hstage, heq] at h
          exact Option.some.inj h ▸ .finish c call reading events store hstage heffect

/-! ## What always holds -/

/-- The tokens issued lie below the next one, and so do those of the active leases; no reading is
from the future. -/
structure Fence (s : LeaseClients ε) : Prop where
  wf : s.store.Wf
  positive : 1 ≤ s.store.nextToken
  below : ∀ leaseId l, s.store.find leaseId = some l → l.status = .active →
    l.fencingToken < s.store.nextToken
  issued : ∀ leaseId token, .issued leaseId token ∈ s.log → token < s.store.nextToken
  increasing : (issuedTokens s.log).Pairwise (· < ·)
  readings : ∀ c call r, s.stage c = .inside call r ∨ s.stage c = .waiting call (some r) →
    r ≤ s.time
  first : ∀ c call r, s.stage c = .waiting call (some r) →
    s.store.backend.readsFirst call = true
  holder : ∀ c call r, s.stage c = .inside call r → s.store.backend.locks call = true →
    s.holder = some c

theorem fence_start (backend : LeaseBackend) (time : Time) :
    (start ε backend time).Fence := by
  refine ⟨LeaseStore.wf_empty backend, ?_, ?_, ?_, List.Pairwise.nil, ?_, ?_, ?_⟩
  · cases backend <;> exact le_rfl
  · cases backend <;> rintro leaseId l ⟨⟩
  · rintro leaseId token h
    cases h
  · rintro c call r (h | h) <;> cases h
  · rintro c call r h
    cases h
  · rintro c call r h
    cases h

/-- What a call leaves of the tokens. -/
structure Tokens (store after : LeaseStore) (events : List LeaseEvent) : Prop where
  wf : after.Wf
  backend : after.backend = store.backend
  nextToken : store.nextToken ≤ after.nextToken
  below : (∀ leaseId l, store.find leaseId = some l → l.status = .active →
    l.fencingToken < store.nextToken) → ∀ leaseId l, after.find leaseId = some l →
      l.status = .active → l.fencingToken < after.nextToken
  issued : ∀ leaseId token, .issued leaseId token ∈ events →
    store.nextToken ≤ token ∧ token < after.nextToken
  one : events.length ≤ 1

theorem tokens_of_keeps {store after : LeaseStore} (h : store.Keeps after)
    {events : List LeaseEvent} (hone : events.length ≤ 1)
    (hissued : ∀ leaseId token, LeaseEvent.issued leaseId token ∉ events) :
    Tokens store after events := by
  refine ⟨h.wf, h.backend, h.nextToken.ge, ?_, ?_, hone⟩
  · intro hbelow leaseId l hl hactive
    rw [h.nextToken]
    exact hbelow leaseId l (h.active leaseId l hl hactive) hactive
  · intro leaseId token hmem
    exact absurd hmem (hissued leaseId token)

theorem tokens_of_effect {store after : LeaseStore} {reading time : Time} {call : StoreCall ε}
    {events : List LeaseEvent} (hpos : 1 ≤ store.nextToken)
    (hs : store.Wf) (h : store.Effect reading time call events after) :
    Tokens store after events := by
  cases h with
  | quiet after hidles _ _ => exact tokens_of_keeps (hidles.keeps hs) (Nat.zero_le _) (by simp)
  | reported leaseId token current after _ hkeeps _ _ _ =>
      exact tokens_of_keeps hkeeps le_rfl (by simp)
  | released leaseId token l after _ _ _ _ hkeeps _ =>
      exact tokens_of_keeps hkeeps le_rfl (by simp)
  | issued issued after hissues _ =>
      have htoken : issued.fencingToken = store.nextToken :=
        hissues.token.trans (max_eq_right (by omega))
      have hnext := hissues.nextToken
      refine ⟨hissues.wf, hissues.backend, by omega, ?_, ?_, le_rfl⟩
      · intro hbelow leaseId l hl hactive
        rcases hissues.active leaseId l hl hactive with rfl | hl
        · omega
        · have := hbelow leaseId l hl hactive
          omega
      · intro leaseId token hmem
        obtain ⟨rfl, rfl⟩ : leaseId = issued.leaseId ∧ token = issued.fencingToken := by
          simpa using hmem
        omega
  | renewed leaseId token ttl after _ hholds hrenews =>
      refine ⟨hrenews.wf, hrenews.backend, hrenews.nextToken.ge, ?_, by simp, le_rfl⟩
      intro hbelow k l hl hactive
      rw [hrenews.nextToken]
      rcases hrenews.active k l hl hactive with ⟨rfl, rfl⟩ | ⟨-, hl⟩
      · obtain ⟨r, hr, htoken, hr'⟩ := hholds
        exact htoken ▸ hbelow k r hr (ResourceLease.active_iff.mp hr').1
      · exact hbelow k l hl hactive

theorem issuedTokens_concat (log events : List LeaseEvent) :
    issuedTokens (log ++ events) = issuedTokens log ++ issuedTokens events := by
  simp [issuedTokens]

theorem mem_issuedTokens {log : List LeaseEvent} {token : ℤ} :
    token ∈ issuedTokens log ↔ ∃ leaseId, .issued leaseId token ∈ log := by
  simp only [issuedTokens, List.mem_filterMap]
  constructor
  · rintro ⟨e, he, htoken⟩
    cases e with
    | issued leaseId token' =>
        obtain rfl := Option.some.inj htoken
        exact ⟨leaseId, he⟩
    | reported _ _ _ => cases htoken
    | renewed _ _ => cases htoken
    | released _ _ => cases htoken
  · rintro ⟨leaseId, h⟩
    exact ⟨_, h, rfl⟩

/-- The tokens of a log and of at most one event more. -/
theorem increasing_append {log events : List LeaseEvent} (hlog : (issuedTokens log).Pairwise (· < ·))
    (hone : events.length ≤ 1) {n : ℤ}
    (hbelow : ∀ leaseId token, .issued leaseId token ∈ log → token < n)
    (habove : ∀ leaseId token, .issued leaseId token ∈ events → n ≤ token) :
    (issuedTokens (log ++ events)).Pairwise (· < ·) := by
  rw [issuedTokens_concat, List.pairwise_append]
  refine ⟨hlog, ?_, ?_⟩
  · have hlength : (issuedTokens events).length ≤ 1 := (List.length_filterMap_le _ _).trans hone
    match issuedTokens events, hlength with
    | [], _ => exact List.Pairwise.nil
    | [_], _ => exact List.pairwise_singleton _ _
  · intro a ha b hb
    obtain ⟨leaseId, ha⟩ := mem_issuedTokens.mp ha
    obtain ⟨leaseId', hb⟩ := mem_issuedTokens.mp hb
    exact (hbelow leaseId a ha).trans_le (habove leaseId' b hb)

/-- A client that has just been moved, or another one. -/
theorem stage_update {stage : ℕ → ClientStage ε} {c c' : ℕ} {new old : ClientStage ε}
    (h : Function.update stage c new c' = old) : c' = c ∧ new = old ∨ c' ≠ c ∧ stage c' = old := by
  by_cases hc : c' = c
  · subst hc
    rw [Function.update_self] at h
    exact .inl ⟨rfl, h⟩
  · rw [Function.update_of_ne hc] at h
    exact .inr ⟨hc, h⟩

theorem Fence.step (h : s.Fence) {l : ClientStep ε} (hm : s.Moves l t) : t.Fence := by
  cases hm with
  | tick time htime =>
      refine ⟨h.wf, h.positive, h.below, h.issued, h.increasing, ?_, h.first, h.holder⟩
      exact fun c call r hr ↦ (h.readings c call r hr).trans htime
  | begin c call reading hsome hnone =>
      refine ⟨h.wf, h.positive, h.below, h.issued, h.increasing, ?_, ?_, ?_⟩
      · rintro c' call' r (hr | hr)
        · rcases stage_update hr with ⟨-, ⟨⟩⟩ | ⟨-, hr⟩
          exact h.readings c' call' r (.inl hr)
        · rcases stage_update hr with ⟨-, hnew⟩ | ⟨-, hr⟩
          · obtain ⟨-, hread⟩ := ClientStage.waiting.inj hnew
            exact (hsome r hread).1.le
          · exact h.readings c' call' r (.inr hr)
      · intro c' call' r hr
        rcases stage_update hr with ⟨-, hnew⟩ | ⟨-, hr⟩
        · obtain ⟨rfl, hread⟩ := ClientStage.waiting.inj hnew
          exact (hsome r hread).2
        · exact h.first c' call' r hr
      · intro c' call' r hr hlocks
        rcases stage_update hr with ⟨-, ⟨⟩⟩ | ⟨-, hr⟩
        exact h.holder c' call' r hr hlocks
  | enter c call reading holder hstage hlock hfree =>
      have hreading : reading.getD s.time ≤ s.time := by
        cases reading with
        | none => exact le_rfl
        | some r => exact h.readings c call r (.inr hstage)
      refine ⟨h.wf, h.positive, h.below, h.issued, h.increasing, ?_, ?_, ?_⟩
      · rintro c' call' r (hr | hr)
        · rcases stage_update hr with ⟨-, hnew⟩ | ⟨-, hr⟩
          · obtain ⟨-, rfl⟩ := ClientStage.inside.inj hnew
            exact hreading
          · exact h.readings c' call' r (.inl hr)
        · rcases stage_update hr with ⟨-, ⟨⟩⟩ | ⟨-, hr⟩
          exact h.readings c' call' r (.inr hr)
      · intro c' call' r hr
        rcases stage_update hr with ⟨-, ⟨⟩⟩ | ⟨-, hr⟩
        exact h.first c' call' r hr
      · intro c' call' r hr hlocks
        rcases stage_update hr with ⟨rfl, hnew⟩ | ⟨-, hr⟩
        · obtain ⟨rfl, -⟩ := ClientStage.inside.inj hnew
          exact (hlock hlocks).2
        · -- Somebody else holds the lock, so that this call does not take it.
          have hheld := h.holder c' call' r hr hlocks
          cases hcall : s.store.backend.locks call with
          | true =>
              rw [(hlock hcall).1] at hheld
              cases hheld
          | false =>
              change holder = some c'
              rw [hfree hcall]
              exact hheld
  | finish c call reading events store hstage heffect =>
      have htokens := tokens_of_effect h.positive h.wf heffect
      refine ⟨htokens.wf, h.positive.trans htokens.nextToken, htokens.below h.below, ?_, ?_, ?_, ?_,
        ?_⟩
      · intro leaseId token hmem
        rcases List.mem_append.mp hmem with hmem | hmem
        · exact (h.issued leaseId token hmem).trans_le htokens.nextToken
        · exact (htokens.issued leaseId token hmem).2
      · exact increasing_append h.increasing htokens.one h.issued
          fun leaseId token hmem ↦ (htokens.issued leaseId token hmem).1
      · rintro c' call' r (hr | hr)
        · rcases stage_update hr with ⟨-, ⟨⟩⟩ | ⟨-, hr⟩
          exact h.readings c' call' r (.inl hr)
        · rcases stage_update hr with ⟨-, ⟨⟩⟩ | ⟨-, hr⟩
          exact h.readings c' call' r (.inr hr)
      · intro c' call' r hr
        rcases stage_update hr with ⟨-, ⟨⟩⟩ | ⟨-, hr⟩
        change store.backend.readsFirst call' = true
        rw [htokens.backend]
        exact h.first c' call' r hr
      · intro c' call' r hr hlocks
        rcases stage_update hr with ⟨-, ⟨⟩⟩ | ⟨hne, hr⟩
        change store.backend.locks call' = true at hlocks
        rw [htokens.backend] at hlocks
        have hheld := h.holder c' call' r hr hlocks
        change (if s.store.backend.locks call then none else s.holder) = some c'
        split_ifs with hcall
        · have hheld' := h.holder c call reading hstage hcall
          exact absurd (Option.some.inj (hheld.symm.trans hheld')) hne
        · exact hheld

/-! ## Leases that are over -/

/-- The step is a renewal or an `is_current` with a reading from before the expiry of a lease
that is over and is still stored as active. -/
def Stale (s : LeaseClients ε) : ClientStep ε → Prop
  | .finish c => ∃ call reading leaseId token l, s.stage c = .inside call reading ∧
      (call = .other (.isCurrent leaseId token) ∨ ∃ ttl, call = .other (.renew leaseId token ttl)) ∧
      s.store.backend.readsFirst call = true ∧ Over s.log leaseId token ∧
      s.store.find leaseId = some l ∧ l.fencingToken = token ∧ l.status = .active ∧
      reading < l.expiresAt
  | _ => False

/-- The expiry of the lease has been reached, also by the readings taken inside. -/
structure RunOut (s : LeaseClients ε) (l : ResourceLease) : Prop where
  positive : 0 < l.expiresAt
  reached : l.expiresAt ≤ s.time
  inside : ∀ c leaseId token r, s.stage c = .inside (.other (.isCurrent leaseId token)) r →
    s.store.backend.readsFirst (.other (.isCurrent leaseId token) : StoreCall ε) = false →
      l.expiresAt ≤ r

/-- A lease that is over and is still stored as active has run out. -/
structure Closed (s : LeaseClients ε) : Prop where
  known : ∀ leaseId token, Over s.log leaseId token → token < s.store.nextToken
  runOut : ∀ leaseId token, Over s.log leaseId token → ∀ l, s.store.find leaseId = some l →
    l.fencingToken = token → l.status = .active → s.RunOut l
  never : NeverAgain s.log

theorem closed_start (backend : LeaseBackend) (time : Time) : (start ε backend time).Closed := by
  refine ⟨?_, ?_, Log.Justified.nil⟩
  · rintro leaseId token (h | ⟨before, after, h, -⟩)
    · cases h
    · cases before <;> cases h
  · intro leaseId token _ l hl
    cases backend <;> cases hl

theorem readsFirst_isCurrent {backend : LeaseBackend} {leaseId : String} {token : ℤ}
    (h : backend.readsFirst (.other (.isCurrent leaseId token) : StoreCall ε) = false) :
    backend = .redis := by
  cases backend with
  | sqlite => cases h
  | redis => rfl

/-- The lease that an `is_current` or a renewal finds active is not over, unless the step is
stale. -/
theorem Closed.not_over (h : s.Closed) {c : ℕ} {call : StoreCall ε} {reading : Time}
    {leaseId : String} {token : ℤ} (hstage : s.stage c = .inside call reading)
    (hcall : call = .other (.isCurrent leaseId token) ∨
      ∃ ttl, call = .other (.renew leaseId token ttl))
    (hholds : s.store.Holds leaseId token reading) (hstale : ¬ s.Stale (.finish c)) :
    ¬ Over s.log leaseId token := by
  intro hover
  obtain ⟨l, hl, htoken, hactive⟩ := hholds
  obtain ⟨hstatus, hexp⟩ := ResourceLease.active_iff.mp hactive
  have hout := h.runOut leaseId token hover l hl htoken hstatus
  have hlt : reading < l.expiresAt := hexp.resolve_left (not_le.mpr hout.positive)
  cases hfirst : s.store.backend.readsFirst call with
  | true => exact hstale ⟨call, reading, leaseId, token, l, hstage, hcall, hfirst, hover, hl, htoken,
      hstatus, hlt⟩
  | false =>
      rcases hcall with rfl | ⟨ttl, rfl⟩
      · exact absurd hlt (not_lt.mpr (hout.inside c leaseId token reading hstage hfirst))
      · cases hback : s.store.backend <;> rw [hback] at hfirst <;> cases hfirst

/-- After a call, what has run out has run out. -/
theorem RunOut.after {l : ResourceLease} (h : s.RunOut l) {c : ℕ} {call : StoreCall ε}
    {events : List LeaseEvent} {store : LeaseStore} (hback : store.backend = s.store.backend) :
    (s.after c call events store).RunOut l := by
  refine ⟨h.positive, h.reached, ?_⟩
  intro c' leaseId token r hr hfirst
  rcases stage_update hr with ⟨-, ⟨⟩⟩ | ⟨-, hr⟩
  change store.backend.readsFirst _ = false at hfirst
  rw [hback] at hfirst
  exact h.inside c' leaseId token r hr hfirst

/-- An `is_current` that finds no current lease shows that it has run out. -/
theorem Fence.runOut_reported (h : s.Fence) {c : ℕ} {leaseId : String} {token : ℤ} {reading : Time}
    (hstage : s.stage c = .inside (.other (.isCurrent leaseId token)) reading)
    {events : List LeaseEvent} {store : LeaseStore} (hback : store.backend = s.store.backend)
    {l : ResourceLease}
    (hexp : 0 < l.expiresAt ∧ l.expiresAt ≤ s.store.clockAt reading s.time) :
    (s.after c (.other (.isCurrent leaseId token)) events store).RunOut l := by
  have hreading := h.readings c _ reading (.inl hstage)
  have hclock : s.store.clockAt reading s.time ≤ s.time := by
    cases s.store with
    | sqlite _ => exact hreading
    | redis _ => exact le_rfl
  refine ⟨hexp.1, hexp.2.trans hclock, ?_⟩
  intro c' leaseId' token' r hr hfirst
  rcases stage_update hr with ⟨-, ⟨⟩⟩ | ⟨hne, hr⟩
  change store.backend.readsFirst _ = false at hfirst
  rw [hback] at hfirst
  -- On Redis both clients would hold the lock.
  have hredis := readsFirst_isCurrent hfirst
  have hheld := h.holder c _ reading hstage (by rw [hredis]; rfl)
  have hheld' := h.holder c' _ r hr (by rw [hredis]; rfl)
  exact absurd (Option.some.inj (hheld'.symm.trans hheld)) hne

theorem neverAgain_concat {log : List LeaseEvent} {e : LeaseEvent} (h : NeverAgain log)
    (he : ∀ leaseId token, e.Revives leaseId token → ¬ Over log leaseId token) :
    NeverAgain (log ++ [e]) := Log.Justified.concat h he

/-- A step that is not stale brings no lease back. -/
theorem Closed.step (h : s.Closed) (hf : s.Fence) {l : ClientStep ε} (hm : s.Moves l t)
    (hstale : ¬ s.Stale l) : t.Closed := by
  cases hm with
  | tick time htime =>
      refine ⟨h.known, ?_, h.never⟩
      intro leaseId token hover l hl htoken hactive
      have hout := h.runOut leaseId token hover l hl htoken hactive
      exact ⟨hout.positive, hout.reached.trans htime, hout.inside⟩
  | begin c call reading _ _ =>
      refine ⟨h.known, ?_, h.never⟩
      intro leaseId token hover l hl htoken hactive
      have hout := h.runOut leaseId token hover l hl htoken hactive
      refine ⟨hout.positive, hout.reached, ?_⟩
      intro c' leaseId' token' r hr hfirst
      rcases stage_update hr with ⟨-, ⟨⟩⟩ | ⟨-, hr⟩
      exact hout.inside c' leaseId' token' r hr hfirst
  | enter c call reading holder hstage _ _ =>
      refine ⟨h.known, ?_, h.never⟩
      intro leaseId token hover l hl htoken hactive
      have hout := h.runOut leaseId token hover l hl htoken hactive
      refine ⟨hout.positive, hout.reached, ?_⟩
      intro c' leaseId' token' r hr hfirst
      rcases stage_update hr with ⟨-, hnew⟩ | ⟨-, hr⟩
      · -- The clock is read inside, and has passed the expiry.
        obtain ⟨rfl, rfl⟩ := ClientStage.inside.inj hnew
        cases reading with
        | none => exact hout.reached
        | some r => exact absurd (hf.first c _ r hstage) (by simpa using hfirst)
      · exact hout.inside c' leaseId' token' r hr hfirst
  | finish c call reading events store hstage heffect =>
      have htokens := tokens_of_effect hf.positive hf.wf heffect
      have hback := htokens.backend
      cases heffect with
      | quiet store hidles _ _ =>
          have hkeeps := hidles.keeps hf.wf
          have hlog : (s.after c call [] store).log = s.log := List.append_nil _
          refine ⟨?_, ?_, hlog.symm ▸ h.never⟩
          · rw [hlog]
            exact fun leaseId token hover ↦ (h.known leaseId token hover).trans_le htokens.nextToken
          · rw [hlog]
            intro leaseId token hover l hl htoken hactive
            have hl' := hkeeps.active leaseId l hl hactive
            exact (h.runOut leaseId token hover l hl' htoken hactive).after hback
      | issued issued store hissues _ =>
          have hover : ∀ {leaseId token}, Over (s.log ++ [.issued issued.leaseId
              issued.fencingToken]) leaseId token → Over s.log leaseId token := by
            intro leaseId token hover
            rcases over_concat hover with hover | ⟨⟨⟩⟩ | ⟨⟨⟩, -⟩
            exact hover
          refine ⟨?_, ?_, neverAgain_concat h.never ?_⟩
          · intro leaseId token hov
            exact (h.known leaseId token (hover hov)).trans_le htokens.nextToken
          · intro leaseId token hov l hl htoken hactive
            rcases hissues.active leaseId l hl hactive with rfl | hl'
            · have hlt := h.known leaseId token (hover hov)
              have hge := (htokens.issued _ _ (List.mem_singleton.mpr rfl)).1
              omega
            · exact (h.runOut leaseId token (hover hov) l hl' htoken hactive).after hback
          · rintro leaseId token (⟨⟨⟩⟩ | ⟨⟨⟩⟩)
      | reported leaseId token current store hcall hkeeps hcurrent _ hnot =>
          subst hcall
          refine ⟨?_, ?_, neverAgain_concat h.never ?_⟩
          · intro k t hov
            refine lt_of_lt_of_le ?_ htokens.nextToken
            rcases over_concat hov with hov | ⟨⟨⟩⟩ | ⟨-, hissued⟩
            · exact h.known k t hov
            · exact hf.issued k t hissued
          · intro k t hov l hl htoken hactive
            have hl' := hkeeps.active k l hl hactive
            rcases over_concat hov with hov | ⟨⟨⟩⟩ | ⟨heq, -⟩
            · exact (h.runOut k t hov l hl' htoken hactive).after hback
            · obtain ⟨rfl, rfl, rfl⟩ := LeaseEvent.reported.inj heq
              exact hf.runOut_reported hstage hback (hnot rfl l hl htoken hactive)
          · rintro k t (heq | ⟨⟨⟩⟩)
            obtain ⟨rfl, rfl, rfl⟩ := LeaseEvent.reported.inj heq
            exact h.not_over hstage (.inl rfl) (hcurrent rfl) hstale
      | renewed leaseId token ttl store hcall hholds hrenews =>
          subst hcall
          have hfree := h.not_over hstage (.inr ⟨ttl, rfl⟩) hholds hstale
          have hover : ∀ {k t}, Over (s.log ++ [.renewed leaseId token]) k t → Over s.log k t := by
            intro k t hover
            rcases over_concat hover with hover | ⟨⟨⟩⟩ | ⟨⟨⟩, -⟩
            exact hover
          refine ⟨?_, ?_, neverAgain_concat h.never ?_⟩
          · intro k t hov
            exact (h.known k t (hover hov)).trans_le htokens.nextToken
          · intro k t hov l hl htoken hactive
            rcases hrenews.active k l hl hactive with ⟨rfl, hsame⟩ | ⟨-, hl'⟩
            · obtain rfl : t = token := htoken.symm.trans hsame
              exact absurd (hover hov) hfree
            · exact (h.runOut k t (hover hov) l hl' htoken hactive).after hback
          · rintro k t (⟨⟨⟩⟩ | heq)
            obtain ⟨rfl, rfl⟩ := LeaseEvent.renewed.inj heq
            exact hfree
      | released leaseId token r store hcall hr hractive _ hkeeps hgone =>
          refine ⟨?_, ?_, neverAgain_concat h.never ?_⟩
          · intro k t hov
            refine lt_of_lt_of_le ?_ htokens.nextToken
            rcases over_concat hov with hov | heq | ⟨⟨⟩, -⟩
            · exact h.known k t hov
            · obtain ⟨rfl, rfl⟩ := LeaseEvent.released.inj heq
              exact hf.below leaseId r hr hractive
          · intro k t hov l hl htoken hactive
            have hl' := hkeeps.active k l hl hactive
            rcases over_concat hov with hov | heq | ⟨⟨⟩, -⟩
            · exact (h.runOut k t hov l hl' htoken hactive).after hback
            · obtain ⟨rfl, rfl⟩ := LeaseEvent.released.inj heq
              exact absurd hactive (hgone l hl)
          · rintro k t (⟨⟨⟩⟩ | ⟨⟨⟩⟩)

/-- A stale step brings a lease back. -/
theorem Stale.revives {l : ClientStep ε} (hstale : s.Stale l) (hm : s.Moves l t) :
    ¬ NeverAgain t.log := by
  cases hm with
  | tick _ _ => exact hstale.elim
  | begin _ _ _ _ _ => exact hstale.elim
  | enter _ _ _ _ _ _ _ => exact hstale.elim
  | finish c call reading events store hstage heffect =>
      obtain ⟨call', reading', leaseId, token, l, hstage', hcall, hfirst, hover, hl, htoken, hactive,
        hlt⟩ := hstale
      obtain ⟨rfl, rfl⟩ := ClientStage.inside.inj (hstage'.symm.trans hstage)
      have hholds : s.store.Holds leaseId token reading' :=
        ⟨l, hl, htoken, ResourceLease.active_iff.mpr ⟨hactive, .inr hlt⟩⟩
      -- The last event of the log is the one that must not come.
      have hlast : ∀ e : LeaseEvent, e.Revives leaseId token → ¬ NeverAgain (s.log ++ [e]) :=
        fun e he hnever ↦ hnever s.log e [] rfl leaseId token he hover
      rcases hcall with rfl | ⟨ttl, rfl⟩
      · have hsqlite : s.store.backend = .sqlite := by
          cases hback : s.store.backend with
          | sqlite => rfl
          | redis =>
              rw [hback] at hfirst
              cases hfirst
        cases heffect with
        | quiet _ _ _ hnot => exact absurd rfl (hnot leaseId token)
        | issued _ _ _ hnot => exact absurd rfl (hnot _)
        | reported _ _ current _ heq _ _ hcurrent _ =>
            obtain ⟨rfl, rfl⟩ := LeaseCall.isCurrent.inj (StoreCall.other.inj heq)
            obtain rfl := hcurrent hsqlite hholds
            exact hlast _ (.inl rfl)
        | renewed _ _ _ _ heq _ _ => cases heq
        | released _ _ _ _ heq _ _ _ _ _ => cases heq
      · cases heffect with
        | quiet _ _ hnot _ => exact absurd hholds (hnot leaseId token ttl rfl)
        | issued _ _ _ hnot => exact absurd rfl (hnot _)
        | reported _ _ _ _ heq _ _ _ _ => cases heq
        | renewed _ _ _ _ heq _ _ =>
            obtain ⟨rfl, rfl, -⟩ := LeaseCall.renew.inj (StoreCall.other.inj heq)
            exact hlast _ (.inr rfl)
        | released _ _ _ _ heq _ _ _ _ _ => cases heq

/-! ## A token that is not the stored one -/

/-- The call renews or releases the lease under a token that is not stored. -/
def WrongToken (s : LeaseClients ε) (call : StoreCall ε) : Prop :=
  ∃ leaseId token, (call = .other (.release leaseId (some token)) ∨
      ∃ ttl, call = .other (.renew leaseId token ttl)) ∧
    ∀ l, s.store.find leaseId = some l → l.fencingToken ≠ token

theorem active_mono {l : ResourceLease} {now now' : Time} (hle : now ≤ now')
    (h : l.active now') : l.active now := by
  obtain ⟨hstatus, hexp⟩ := ResourceLease.active_iff.mp h
  exact ResourceLease.active_iff.mpr ⟨hstatus, hexp.imp_right hle.trans_lt⟩

/-- It changes no active lease. -/
theorem Fence.wrongToken (h : s.Fence) {c : ℕ} {call : StoreCall ε} {reading : Time}
    (hstage : s.stage c = .inside call reading) (hwrong : s.WrongToken call)
    {events : List LeaseEvent} {store : LeaseStore}
    (heffect : s.store.Effect reading s.time call events store) {l : ResourceLease}
    (hactive : l.active s.time) : l ∈ store.stored ↔ l ∈ s.store.stored := by
  obtain ⟨leaseId, token, hcall, hnone⟩ := hwrong
  have hreading := active_mono (h.readings c call reading (.inl hstage)) hactive
  have hidles : s.store.Idles store reading → (l ∈ store.stored ↔ l ∈ s.store.stored) := by
    rintro (rfl | hsweep)
    · rfl
    · rw [hsweep.wf.mem_stored, h.wf.mem_stored]
      have hiff : store.find l.leaseId = some l ∧ l.status = .active ↔
          s.store.find l.leaseId = some l ∧ l.active reading := hsweep.active_iff
      exact ⟨fun hl ↦ (hiff.mp ⟨hl, (ResourceLease.active_iff.mp hactive).1⟩).1,
        fun hl ↦ (hiff.mpr ⟨hl, hreading⟩).1⟩
  cases heffect with
  | quiet _ hquiet _ _ => exact hidles hquiet
  | issued _ _ _ hnot => rcases hcall with rfl | ⟨ttl, rfl⟩ <;> exact absurd rfl (hnot _)
  | reported _ _ _ _ heq _ _ _ _ => rcases hcall with rfl | ⟨ttl, rfl⟩ <;> cases heq
  | renewed _ _ _ _ heq hholds _ =>
      rcases hcall with rfl | ⟨ttl, rfl⟩
      · cases heq
      · obtain ⟨rfl, rfl, -⟩ := LeaseCall.renew.inj (StoreCall.other.inj heq)
        obtain ⟨r, hr, htoken, -⟩ := hholds
        exact absurd htoken (hnone r hr)
  | released _ _ r _ heq hr _ htoken _ _ =>
      rcases hcall with rfl | ⟨ttl, rfl⟩
      · obtain ⟨rfl, rfl⟩ := LeaseCall.release.inj (StoreCall.other.inj heq)
        exact absurd (htoken token rfl) (hnone r hr)
      · cases heq

/-! ## Runs -/

/-- The log is only ever appended to. -/
theorem log_prefix {l : ClientStep ε} (hm : s.Moves l t) : s.log <+: t.log := by
  cases hm with
  | finish c call reading events store _ _ => exact List.prefix_append s.log events
  | _ => exact List.prefix_rfl

/-- No step of the run is stale. -/
def NoStale (s : LeaseClients ε) (ls : List (ClientStep ε)) : Prop :=
  ∀ before l u, before ++ [l] <+: ls → Machine.run step s before = some u → ¬ u.Stale l

/-- What a run leads to: what always holds, and, as long as no step is stale, that no lease comes
back. -/
theorem run_spec (backend : LeaseBackend) (time : Time) {ls : List (ClientStep ε)}
    (hrun : Machine.run step (start ε backend time) ls = some t) : t.Fence ∧
      ((start ε backend time).NoStale ls → t.Closed) ∧
        (NeverAgain t.log → (start ε backend time).NoStale ls) := by
  induction ls using List.reverseRecOn generalizing t with
  | nil =>
      obtain rfl := Option.some.inj hrun
      refine ⟨fence_start backend time, fun _ ↦ closed_start backend time, fun _ before l u h ↦ ?_⟩
      exact absurd (List.prefix_nil.mp h) (by simp)
  | append_singleton ls l ih =>
      obtain ⟨u, hu, hl⟩ := Machine.run_concat hrun
      obtain ⟨hfence, hclosed, hnever⟩ := ih hu
      have hm := moves_of_step hfence.wf hl
      refine ⟨hfence.step hm, fun hno ↦ ?_, fun hlog ↦ ?_⟩
      · have hbefore : (start ε backend time).NoStale ls := fun before l' u' h ↦
          hno before l' u' (h.trans (List.prefix_append ls [l]))
        exact (hclosed hbefore).step hfence hm (hno ls l u List.prefix_rfl hu)
      · -- The run so far brings no lease back, and neither does the last step.
        obtain ⟨events, hevents⟩ := log_prefix hm
        have hlog' : NeverAgain u.log := by
          rw [← hevents] at hlog
          exact Log.Justified.of_append hlog
        intro before l' u' hprefix hu' hstale
        rcases List.prefix_concat_iff.mp hprefix with heq | hprefix
        · obtain ⟨rfl, hlast⟩ := List.append_inj' heq rfl
          obtain rfl := (List.cons.inj hlast).1
          obtain rfl := Option.some.inj (hu'.symm.trans hu)
          exact hstale.revives hm hlog
        · exact hnever hlog' before l' u' hprefix hu' hstale

end LeaseClients

/-- Lease fencing: tokens grow, a wrong token changes no active lease, and a lease that is over
comes back exactly by a stale step. -/
theorem lease_fencing {ε : Type} (backend : LeaseBackend) (time : Time)
    (ls : List (ClientStep ε)) (t : LeaseClients ε)
    (hrun : Machine.run LeaseClients.step (.start ε backend time) ls = some t) :
    (issuedTokens t.log).Pairwise (· < ·) ∧
    (∀ c call reading u, t.stage c = .inside call reading → t.WrongToken call →
      t.step (.finish c) = some u → ∀ l : ResourceLease, l.active t.time →
        (l ∈ u.store.stored ↔ l ∈ t.store.stored)) ∧
    (NeverAgain t.log ↔ (LeaseClients.start ε backend time).NoStale ls) := by
  obtain ⟨hfence, hclosed, hnever⟩ := LeaseClients.run_spec backend time hrun
  refine ⟨hfence.increasing, ?_, hnever, fun hno ↦ (hclosed hno).never⟩
  intro c call reading u hstage hwrong hu l hactive
  cases LeaseClients.moves_of_step hfence.wf hu with
  | finish _ call' reading' events store hstage' heffect =>
      obtain ⟨rfl, rfl⟩ := ClientStage.inside.inj (hstage'.symm.trans hstage)
      exact hfence.wrongToken hstage hwrong heffect hactive

/-! ## A stale reading -/

/-- A lease nobody has asked anything for. -/
def plainLease (leaseId : String) : ResourceLease where
  leaseId := leaseId
  ownerId := "case"
  scope := "project"
  resources := ⟨none, none, none, none, []⟩
  status := .active
  createdAt := 0
  updatedAt := 0
  expiresAt := 0
  fencingToken := 0
  expiresAt_nonneg := no_expiry_nonneg
  fencingToken_nonneg := no_token_nonneg

/-- The lease `a` is acquired for ten seconds. -/
def acquireTen : List (ClientStep Unit) :=
  [.begin 0 (.acquire (plainLease "a") (fun _ ↦ .ok ()) 10), .enter 0, .finish 0]

/-- Client 1 reads the clock for a renewal, and waits; client 2 finds the lease expired. -/
def overtaken : LeaseBackend → List (ClientStep Unit)
  | .sqlite => acquireTen ++
      [.tick 5, .begin 1 (.other (.renew "a" 1 10)), .tick 11,
        .begin 2 (.other (.isCurrent "a" 1)), .enter 2, .finish 2, .enter 1, .finish 1]
  | .redis => acquireTen ++
      [.tick 5, .begin 1 (.other (.renew "a" 1 10)), .tick 9,
        .begin 2 (.other (.isCurrent "a" 1)), .enter 2, .tick 11, .finish 2, .enter 1, .finish 1]

theorem overtaken_log (backend : LeaseBackend) :
    (Machine.run LeaseClients.step (.start Unit backend 0) (overtaken backend)).map (·.log) =
      some [.issued "a" 1, .reported "a" 1 false, .renewed "a" 1] := by
  cases backend <;> decide +kernel

theorem overtaken_revives (backend : LeaseBackend) : ∃ t,
    Machine.run LeaseClients.step (.start Unit backend 0) (overtaken backend) = some t ∧
      ¬ NeverAgain t.log := by
  obtain ⟨t, ht, hlog⟩ := Option.map_eq_some_iff.mp (overtaken_log backend)
  refine ⟨t, ht, fun hnever ↦ ?_⟩
  rw [hlog] at hnever
  refine hnever [.issued "a" 1, .reported "a" 1 false] (.renewed "a" 1) [] rfl "a" 1 (.inr rfl) ?_
  exact .inr ⟨[.issued "a" 1], [], rfl, List.mem_cons_self⟩

/-- On either store a lease that was reported not current is renewed. -/
theorem lease_revived :
    (∃ t, Machine.run LeaseClients.step (.start Unit .sqlite 0) (overtaken .sqlite) = some t ∧
      ¬ NeverAgain t.log) ∧
    ∃ t, Machine.run LeaseClients.step (.start Unit .redis 0) (overtaken .redis) = some t ∧
      ¬ NeverAgain t.log := ⟨overtaken_revives .sqlite, overtaken_revives .redis⟩

theorem lease_fencing_acquired : ∃ t : LeaseClients Unit,
    Machine.run LeaseClients.step (.start Unit .sqlite 0) acquireTen = some t ∧
      NeverAgain t.log ∧ (LeaseClients.start Unit .sqlite 0).NoStale acquireTen := by
  obtain ⟨t, ht, hlog⟩ := Option.map_eq_some_iff.mp (show
    (Machine.run LeaseClients.step (.start Unit .sqlite 0) acquireTen).map (·.log) =
      some [.issued "a" 1] by decide +kernel)
  have hspec := lease_fencing .sqlite 0 acquireTen t ht
  have hnever : NeverAgain t.log := by
    rw [hlog]
    refine LeaseClients.neverAgain_concat (Log.Justified.nil : NeverAgain []) ?_
    rintro leaseId token (⟨⟨⟩⟩ | ⟨⟨⟩⟩)
  exact ⟨t, ht, hnever, hspec.2.2.mp hnever⟩

end Blackbase.Resources
