import Blackbase.Resources.Control.Descendants
import Blackbase.Resources.Control.Retention

/-!
# Retired controls on Redis

The clients of a Redis server read a key, decide, and write it in a transaction, and the
commands of other clients come in between.  What a client has decided is still right when
its transaction takes place: nobody has written the key since (`ControlPc.Facts`).  So each
command that changes the record of a control does so by the rules of `ControlRecord.Goes`.
-/

namespace Blackbase.Resources

open Watch ControlRecord

namespace RedisServer

/-- The record under a key. -/
def record (s : RedisServer) (key : String) : Option ControlRecord :=
  (s.keys.value key).map fun e ↦ ⟨e.payload.state, e.payload.retiredAt, e.expiresAt⟩

variable {s t : RedisServer} {key : String} {grant retire : Prop}

theorem goes_same (h : t.keys.value key = s.keys.value key) (hgrant : ¬ grant)
    (hretire : ¬ retire) : Goes grant retire (s.record key) (t.record key) := by
  unfold record
  rw [h]
  cases s.keys.value key with
  | none => exact .absent _ hgrant
  | some e => exact .becomes (.same hgrant hretire _)

theorem record_none (h : s.keys.value key = none) : s.record key = none := by
  unfold record
  rw [h]
  rfl

theorem get_eq_none {k : String} (h : s.get k = none) : s.keys.value k = none :=
  Option.map_eq_none_iff.mp h

theorem get_eq_some {k : String} {p : ControlPayload} (h : s.get k = some p) :
    ∃ e, s.keys.value k = some e ∧ e.payload = p := Option.map_eq_some_iff.mp h

end RedisServer

/-! ## What a client knows -/

namespace ControlPc

/-- The record may still be requested, and `payload` is the payload it has with the request
recorded. -/
def Requestable (payload : ControlPayload) (v : Option RedisEntry) : Prop :=
  ∃ e, v = some e ∧ e.payload.retiredAt ≤ 0 ∧ e.payload.state.requested = false ∧
    payload.state.requested ∧ payload.retiredAt = e.payload.retiredAt

/-- The record is not retired. -/
def Active (v : Option RedisEntry) : Prop := ∃ e, v = some e ∧ e.payload.retiredAt ≤ 0

/-- `payload` is the payload the record has with its retirement recorded. -/
def Retirable (payload : ControlPayload) (v : Option RedisEntry) : Prop :=
  ∃ e, v = some e ∧ payload.state = e.payload.state

/-- What a client knows of the control with this key. -/
def Facts (key : String) (s : RedisServer) : ControlPc → Prop
  | .requestGet ref _ n => ref.redisKey = key → s.keys.Knows key n fun _ ↦ True
  | .requestExec ref _ n payload => ref.redisKey = key → s.keys.Knows key n (Requestable payload)
  | .touchGet k _ _ n => k = key → s.keys.Knows key n fun _ ↦ True
  | .touchExec k _ _ n => k = key → s.keys.Knows key n Active
  | .retireGet ref n => ref.redisKey = key → s.keys.Knows key n fun _ ↦ True
  | .retireExec ref n payload =>
      ref.redisKey = key → 0 < payload.retiredAt ∧ s.keys.Knows key n (Retirable payload)
  | .retireDelete ref => ref.redisKey ≠ key
  | _ => True

variable {key : String} {s t : RedisServer} {pc pc' : ControlPc} {time : Time}

/-- The facts hold on while `Knows` does. -/
theorem Facts.mono (h : pc.Facts key s)
    (hknows : ∀ n P, s.keys.Knows key n P → t.keys.Knows key n P) : pc.Facts key t := by
  cases pc with
  | requestGet | requestExec | touchGet | touchExec | retireGet =>
      exact fun hkey ↦ hknows _ _ (h hkey)
  | retireExec => exact fun hkey ↦ ⟨(h hkey).1, hknows _ _ (h hkey).2⟩
  | retireDelete => exact h
  | _ => trivial

/-- What a client does next when its method calls no command that needs facts. -/
theorem facts_goal {ref : CancellationRef} {goal : Creating} (h : goal.next ref = .inl pc) :
    pc.Facts key s := by
  cases goal with
  | create => cases h
  | request reason =>
      obtain rfl := Sum.inl.inj h
      trivial

theorem facts_createCheck {ref : CancellationRef} {goal : Creating} {p : ControlPayload}
    (h : createCheck ref goal p = .inl pc) : pc.Facts key s := by
  unfold createCheck at h
  split at h
  · cases h
  · split at h
    · obtain rfl := Sum.inl.inj h
      trivial
    · exact facts_goal h

theorem facts_readFrom {ref : CancellationRef} {visited : List String} {id : String}
    (h : readFrom ref visited id = .inl pc) : pc.Facts key s := by
  unfold readFrom at h
  split at h
  · cases h
  · split at h
    · cases h
    · obtain rfl := Sum.inl.inj h
      trivial

theorem facts_readOn {ref : CancellationRef} {visited : List String} {p : ControlPayload}
    (h : readOn ref visited p = .inl pc) : pc.Facts key s := by
  unfold readOn at h
  split at h
  · cases h
  · exact facts_readFrom h
  · cases h

theorem facts_touching {b : Bool} {caller : Touching} (h : caller.next b = .inl pc) :
    pc.Facts key s := by
  cases caller with
  | touch => cases h
  | create ref goal => exact facts_goal h
  | read ref visited p => exact facts_readOn h

theorem facts_begin {ref : CancellationRef} {call : ControlCall}
    (hproper : ref.redisKey = key → 0 < ref.retentionSeconds)
    (h : beginCall ref call = .inl pc) : pc.Facts key s := by
  cases call with
  | create | request | touch =>
      obtain rfl := Sum.inl.inj h
      trivial
  | read => exact facts_readFrom h
  | expire => cases h
  | retire =>
      obtain rfl := Sum.inl.inj h
      split
      · trivial
      · next hret => exact fun hkey ↦ hret (hproper hkey)

/-- The commands that write, and what they write. -/
inductive Writes (s : RedisServer) : ControlPc → RedisServer → Prop
  | create (ref : CancellationRef) (goal : Creating) (h : s.keys.value ref.redisKey = none) :
      Writes s (.createSet ref goal) (s.set ref.redisKey (.fresh ref) (redisTtl ref))
  | createAgain (ref : CancellationRef) (goal : Creating)
      (h : s.keys.value ref.redisKey = none) :
      Writes s (.createSetAgain ref goal) (s.set ref.redisKey (.fresh ref) (redisTtl ref))
  | request (ref : CancellationRef) (reason : String) (payload : ControlPayload) :
      Writes s (.requestExec ref reason (s.keys.version ref.redisKey) payload)
        (s.set ref.redisKey payload (redisTtl ref))
  | touch (k : String) (ttl : ℤ) (caller : Touching) :
      Writes s (.touchExec k ttl caller (s.keys.version k)) (s.expire k ttl)
  | retire (ref : CancellationRef) (payload : ControlPayload) :
      Writes s (.retireExec ref (s.keys.version ref.redisKey) payload)
        (s.set ref.redisKey payload (some (wholeSeconds ref.retentionSeconds)))
  | delete (ref : CancellationRef) : Writes s (.retireDelete ref) (s.delete ref.redisKey)

theorem command_writes (pc : ControlPc) (s : RedisServer) (time : Time) :
    (pc.command s time).1 = s ∨ Writes s pc (pc.command s time).1 := by
  cases pc with
  | createSet ref goal =>
      simp only [command]
      split
      · next h => exact .inr (.create ref goal (RedisServer.get_eq_none h))
      · exact .inl rfl
  | createSetAgain ref goal =>
      simp only [command]
      split
      · next h => exact .inr (.createAgain ref goal (RedisServer.get_eq_none h))
      · exact .inl rfl
  | requestExec ref reason n payload =>
      simp only [command]
      split
      · next h =>
          subst h
          exact .inr (.request ref reason payload)
      · exact .inl rfl
  | touchExec k ttl caller n =>
      simp only [command]
      split
      · next h =>
          subst h
          exact .inr (.touch k ttl caller)
      · exact .inl rfl
  | retireExec ref n payload =>
      simp only [command]
      split
      · next h =>
          subst h
          exact .inr (.retire ref payload)
      · exact .inl rfl
  | retireDelete ref => exact .inr (.delete ref)
  | createGet | createGetAgain | retireGet =>
      simp only [command]
      split <;> exact .inl rfl
  | readGet =>
      simp only [command]
      split
      · exact .inl rfl
      · split <;> exact .inl rfl
  | requestGet | touchGet =>
      simp only [command]
      split
      · exact .inl rfl
      · split
        · exact .inl rfl
        · split <;> exact .inl rfl
  | idle | requestWatch | touchWatch | retireWatch => exact .inl rfl

/-- A command writes one key at most. -/
theorem Writes.keys (h : Writes s pc t) :
    t.keys = s.keys ∨ ∃ k v, t.keys = s.keys.write k v := by
  cases h with
  | create | createAgain | request | retire => exact .inr ⟨_, _, rfl⟩
  | touch k =>
      unfold RedisServer.expire
      split
      · exact .inl rfl
      · exact .inr ⟨_, _, rfl⟩
  | delete ref =>
      unfold RedisServer.delete
      split
      · exact .inl rfl
      · exact .inr ⟨_, _, rfl⟩

/-- What other clients know stays true. -/
theorem Facts.command (h : pc.Facts key s) (other : ControlPc) (time : Time) :
    pc.Facts key (other.command s time).1 := by
  refine h.mono fun n P hknows ↦ ?_
  rcases other.command_writes s time with hk | hw
  · rwa [hk]
  · rcases hw.keys with hk | ⟨k, v, hk⟩
    · rwa [hk]
    · rw [hk]
      exact hknows.write k v

/-- What the client itself knows when it comes to its next command. -/
theorem Facts.next (h : pc.Facts key s) (htime : 0 < time)
    (hnext : (pc.command s time).2 = .inl pc') : pc'.Facts key (pc.command s time).1 := by
  cases pc with
  | idle | requestWatch | touchWatch | retireWatch =>
      obtain rfl := Sum.inl.inj hnext
      first
      | trivial
      | exact fun hkey ↦ hkey ▸ Server.knows_read trivial
  | createSet ref goal | createSetAgain ref goal =>
      simp only [ControlPc.command] at hnext
      split at hnext
      · exact facts_goal hnext
      · obtain rfl := Sum.inl.inj hnext
        trivial
  | createGet ref goal =>
      simp only [ControlPc.command] at hnext
      split at hnext
      · obtain rfl := Sum.inl.inj hnext
        trivial
      · exact facts_createCheck hnext
  | createGetAgain ref goal =>
      simp only [ControlPc.command] at hnext
      split at hnext
      · cases hnext
      · exact facts_createCheck hnext
  | readGet ref visited id =>
      simp only [ControlPc.command] at hnext
      split at hnext
      · cases hnext
      · split at hnext
        · obtain rfl := Sum.inl.inj hnext
          trivial
        · exact facts_readOn hnext
  | requestGet ref reason n =>
      cases hget : s.get ref.redisKey with
      | none =>
          simp only [ControlPc.command, hget] at hnext
          obtain rfl := Sum.inl.inj hnext
          trivial
      | some payload =>
          obtain ⟨e, he, rfl⟩ := RedisServer.get_eq_some hget
          simp only [ControlPc.command, hget] at hnext ⊢
          by_cases hret : 0 < e.payload.retiredAt
          · simp [hret] at hnext
          · by_cases hreq : e.payload.state.requested
            · simp [hret, hreq] at hnext
            · simp only [hret, hreq, if_false] at hnext ⊢
              obtain rfl := Sum.inl.inj hnext
              -- What it has just read lets it record the request.
              rintro rfl
              exact (h rfl).read ⟨e, he, not_lt.mp hret, by simpa using hreq, rfl, rfl⟩
  | requestExec ref reason n payload =>
      simp only [ControlPc.command] at hnext
      split at hnext
      · cases hnext
      · obtain rfl := Sum.inl.inj hnext
        trivial
  | touchGet k ttl caller n =>
      cases hget : s.get k with
      | none =>
          simp only [ControlPc.command, hget] at hnext
          exact facts_touching hnext
      | some payload =>
          obtain ⟨e, he, rfl⟩ := RedisServer.get_eq_some hget
          simp only [ControlPc.command, hget] at hnext ⊢
          by_cases hret : 0 < e.payload.retiredAt
          · simp only [hret, if_true] at hnext
            exact facts_touching hnext
          · cases ttl with
            | none =>
                simp only [hret, if_false] at hnext
                exact facts_touching hnext
            | some seconds =>
                simp only [hret, if_false] at hnext ⊢
                obtain rfl := Sum.inl.inj hnext
                rintro rfl
                exact (h rfl).read ⟨e, he, not_lt.mp hret⟩
  | touchExec k ttl caller n =>
      simp only [ControlPc.command] at hnext
      split at hnext
      · exact facts_touching hnext
      · obtain rfl := Sum.inl.inj hnext
        trivial
  | retireGet ref n =>
      cases hget : s.get ref.redisKey with
      | none => simp [ControlPc.command, hget] at hnext
      | some payload =>
          obtain ⟨e, he, rfl⟩ := RedisServer.get_eq_some hget
          simp only [ControlPc.command, hget] at hnext ⊢
          obtain rfl := Sum.inl.inj hnext
          rintro rfl
          exact ⟨htime, (h rfl).read ⟨e, he, rfl⟩⟩
  | retireExec ref n payload =>
      simp only [ControlPc.command] at hnext
      split at hnext
      · cases hnext
      · obtain rfl := Sum.inl.inj hnext
        trivial
  | retireDelete => cases hnext

/-! ## What a command makes of the record -/

/-- A `request` on the control returns true. -/
def Granted (key : String) (s : RedisServer) (time : Time) (pc : ControlPc) : Prop :=
  pc.requests key ∧ (pc.command s time).2 = .inr (.flag true)

/-- A `retire` of the control returns. -/
def Retires (key : String) (s : RedisServer) (time : Time) (pc : ControlPc) : Prop :=
  pc.retires key ∧ (pc.command s time).2 = .inr .done

theorem goal_ne_flag {ref : CancellationRef} {goal : Creating} {b : Bool} :
    goal.next ref ≠ .inr (.flag b) := by
  cases goal <;> simp [Creating.next]

theorem createCheck_ne_flag {ref : CancellationRef} {goal : Creating} {p : ControlPayload}
    {b : Bool} : createCheck ref goal p ≠ .inr (.flag b) := by
  unfold createCheck
  split
  · simp
  · split
    · simp
    · exact goal_ne_flag

/-- Only the transaction of a `request` returns true. -/
theorem Granted.exec (h : pc.Granted key s time) : ∃ ref reason payload,
    pc = .requestExec ref reason (s.keys.version key) payload ∧ ref.redisKey = key := by
  obtain ⟨hreq, hflag⟩ := h
  cases pc with
  | requestExec ref reason n payload =>
      have hkey : ref.redisKey = key := by simpa [requests] using hreq
      subst hkey
      simp only [ControlPc.command] at hflag
      split at hflag
      · next hn =>
          subst hn
          exact ⟨ref, reason, payload, rfl, rfl⟩
      · cases hflag
  | createSet ref goal | createSetAgain ref goal =>
      simp only [ControlPc.command] at hflag
      split at hflag
      · exact absurd hflag goal_ne_flag
      · cases hflag
  | createGet ref goal =>
      simp only [ControlPc.command] at hflag
      split at hflag
      · cases hflag
      · exact absurd hflag createCheck_ne_flag
  | createGetAgain ref goal =>
      simp only [ControlPc.command] at hflag
      split at hflag
      · cases hflag
      · exact absurd hflag createCheck_ne_flag
  | requestWatch => cases hflag
  | requestGet ref reason n =>
      simp only [ControlPc.command] at hflag
      split at hflag
      · cases hflag
      · split at hflag
        · cases hflag
        · split at hflag <;> cases hflag
  | touchWatch => cases hflag
  | touchGet k ttl caller n =>
      cases caller with
      | create ref goal =>
          simp only [ControlPc.command, Touching.next] at hflag
          split at hflag
          · exact absurd hflag goal_ne_flag
          · split at hflag
            · exact absurd hflag goal_ne_flag
            · split at hflag
              · exact absurd hflag goal_ne_flag
              · cases hflag
      | touch | read => simp [requests] at hreq
  | touchExec k ttl caller n =>
      cases caller with
      | create ref goal =>
          simp only [ControlPc.command, Touching.next] at hflag
          split at hflag
          · exact absurd hflag goal_ne_flag
          · cases hflag
      | touch | read => simp [requests] at hreq
  | _ => simp [requests] at hreq

/-- A `retire` returns when it finds no record, or from its transaction. -/
theorem Retires.exec (h : pc.Retires key s time) :
    (s.keys.value key = none ∧ (pc.command s time).1 = s) ∨
      (∃ ref payload, pc = .retireExec ref (s.keys.version key) payload ∧ ref.redisKey = key) ∨
      ∃ ref, pc = .retireDelete ref ∧ ref.redisKey = key := by
  obtain ⟨hret, hdone⟩ := h
  cases pc with
  | retireGet ref n =>
      have hkey : ref.redisKey = key := by simpa [retires] using hret
      subst hkey
      cases hget : s.get ref.redisKey with
      | none => exact .inl ⟨RedisServer.get_eq_none hget, by simp only [ControlPc.command, hget]⟩
      | some p => simp [ControlPc.command, hget] at hdone
  | retireExec ref n payload =>
      have hkey : ref.redisKey = key := by simpa [retires] using hret
      subst hkey
      simp only [ControlPc.command] at hdone
      split at hdone
      · next hn =>
          subst hn
          exact .inr (.inl ⟨ref, payload, rfl, rfl⟩)
      · cases hdone
  | retireDelete ref => exact .inr (.inr ⟨ref, rfl, by simpa [retires] using hret⟩)
  | retireWatch => cases hdone
  | _ => simp [retires] at hret

theorem goes_granted (h : pc.Facts key s) (hg : pc.Granted key s time) :
    Goes (pc.Granted key s time) (pc.Retires key s time) (s.record key)
      ((pc.command s time).1.record key) := by
  obtain ⟨ref, reason, payload, rfl, rfl⟩ := hg.exec
  obtain ⟨e, he, hret, hreq, hpayload, hat⟩ := (h rfl).2 rfl
  have hretire : ¬ Retires ref.redisKey s time
      (.requestExec ref reason (s.keys.version ref.redisKey) payload) := fun hr ↦ by
    simp [Retires, retires] at hr
  have hcommand : (command s time
      (.requestExec ref reason (s.keys.version ref.redisKey) payload)).1 =
      s.set ref.redisKey payload (redisTtl ref) := by
    simp only [command, if_true]
  rw [hcommand]
  unfold RedisServer.record RedisServer.set
  rw [Server.write_value_self, he]
  refine .becomes ?_
  constructor
  · exact fun _ ↦ ⟨hreq, not_lt.mpr hret, hpayload⟩
  · exact fun hr ↦ by simp [hreq] at hr
  · exact fun hr ↦ absurd hr hretire
  · exact fun hr ↦ absurd hr (not_lt.mpr hret)
  · exact fun hr ↦ absurd hr (not_lt.mpr hret)

theorem goes_retires (h : pc.Facts key s) (hg : ¬ pc.Granted key s time)
    (hr : pc.Retires key s time) :
    Goes (pc.Granted key s time) (pc.Retires key s time) (s.record key)
      ((pc.command s time).1.record key) := by
  rcases hr.exec with ⟨hnone, -⟩ | ⟨ref, payload, rfl, rfl⟩ | ⟨ref, rfl, rfl⟩
  · rw [RedisServer.record_none hnone]
    exact .absent _ hg
  · obtain ⟨hpos, -, hknows⟩ := h rfl
    obtain ⟨e, he, hstate⟩ := hknows rfl
    have hcommand : (command s time
        (.retireExec ref (s.keys.version ref.redisKey) payload)).1 =
        s.set ref.redisKey payload (some (wholeSeconds ref.retentionSeconds)) := by
      simp only [command, if_true]
    rw [hcommand]
    unfold RedisServer.record RedisServer.set
    rw [Server.write_value_self, he]
    refine .becomes ?_
    constructor
    · exact fun h ↦ absurd h hg
    · exact fun _ ↦ hstate
    · exact fun _ ↦ hpos
    · exact fun _ ↦ hpos
    · exact fun _ h ↦ absurd hr h
  · exact absurd rfl h

/-- What a command makes of a record. -/
theorem goes_command (h : pc.Facts key s) (time : Time) :
    Goes (pc.Granted key s time) (pc.Retires key s time) (s.record key)
      ((pc.command s time).1.record key) := by
  by_cases hg : pc.Granted key s time
  · exact goes_granted h hg
  by_cases hr : pc.Retires key s time
  · exact goes_retires h hg hr
  rcases pc.command_writes s time with hs | hw
  · exact RedisServer.goes_same (by rw [hs]) hg hr
  generalize ht : (pc.command s time).1 = t at hw
  cases hw with
  | create ref goal hnone | createAgain ref goal hnone =>
      by_cases hkey : key = ref.redisKey
      · rw [hkey, RedisServer.record_none hnone]
        exact .absent _ (hkey ▸ hg)
      · exact RedisServer.goes_same (Server.write_value_ne _ hkey) hg hr
  | request ref reason payload =>
      refine RedisServer.goes_same (Server.write_value_ne _ fun hkey ↦ hg ?_) hg hr
      exact ⟨by simp [requests, hkey], by simp [command]⟩
  | retire ref payload =>
      refine RedisServer.goes_same (Server.write_value_ne _ fun hkey ↦ hr ?_) hg hr
      exact ⟨by simp [retires, hkey], by simp [command]⟩
  | delete ref =>
      refine RedisServer.goes_same ?_ hg hr
      unfold RedisServer.delete
      split
      · rfl
      · exact Server.write_value_ne _ fun hkey ↦ h hkey.symm
  | touch k ttl caller =>
      by_cases hkey : k = key
      · subst hkey
        obtain ⟨e, he, hret⟩ := (h rfl).2 rfl
        unfold RedisServer.record RedisServer.expire
        simp only [he, Server.write_value_self, Option.map_some]
        refine .becomes ?_
        constructor
        · exact fun h ↦ absurd h hg
        · exact fun _ ↦ rfl
        · exact fun h ↦ absurd h hr
        · exact fun h ↦ h
        · exact fun h ↦ absurd h (not_lt.mpr hret)
      · refine RedisServer.goes_same ?_ hg hr
        unfold RedisServer.expire
        split
        · rfl
        · exact Server.write_value_ne _ fun h ↦ hkey h.symm

end ControlPc

/-! ## Every interleaving -/

namespace RedisClients

/-- What every client knows. -/
def Inv (key : String) (s : RedisClients) : Prop := ∀ c, (s.client c).Facts key s.server

/-- A client with the control on this key has positive retention, and its clock is
positive. -/
def Proper (key : String) (_ : RedisClients) : RedisStep → Prop
  | .start _ _ ref => ref.redisKey = key → 0 < ref.retentionSeconds
  | .command _ time => 0 < time
  | .tick _ => True

/-- The server does not let the key expire. -/
def Lives (key : String) (s : RedisClients) : RedisStep → Prop
  | .tick now => ∀ e, s.server.keys.value key = some e → e.expiresAt.all (now < ·)
  | _ => True

/-- A `request` on the control returns true in the step. -/
def Granted (key : String) (s : RedisClients) : RedisStep → Prop
  | .command c time => (s.client c).Granted key s.server time
  | _ => False

/-- A `retire` of the control returns in the step. -/
def Retires (key : String) (s : RedisClients) : RedisStep → Prop
  | .command c time => (s.client c).Retires key s.server time
  | _ => False

variable {key : String} {s t : RedisClients} {l : RedisStep}

theorem Inv.goesOn (h : s.Inv key) {c : ℕ} {next : Continues}
    (hnext : ∀ pc, next = .inl pc → pc.Facts key s.server) : (s.goesOn c next).Inv key := by
  intro c'
  unfold RedisClients.goesOn
  by_cases hc : c' = c
  · subst hc
    simp only [Function.update_self]
    cases next with
    | inl pc => exact hnext pc rfl
    | inr reply => trivial
  · simp only [Function.update_of_ne hc]
    exact h c'

theorem Inv.step (h : s.Inv key) (hproper : Proper key s l) (hstep : s.step l = some t) :
    t.Inv key := by
  cases l with
  | start c call ref =>
      simp only [RedisClients.step] at hstep
      split at hstep
      · obtain rfl := Option.some.inj hstep
        exact h.goesOn fun pc hpc ↦ ControlPc.facts_begin hproper hpc
      · cases hstep
  | command c time =>
      simp only [RedisClients.step] at hstep
      split at hstep
      · cases hstep
      · obtain rfl := Option.some.inj hstep
        have hserver : Inv key { s with server := ((s.client c).command s.server time).1 } :=
          fun c' ↦ (h c').command _ _
        exact hserver.goesOn fun pc hpc ↦ (h c).next hproper hpc
  | tick now =>
      obtain rfl := Option.some.inj hstep
      exact fun c ↦ (h c).mono fun n P hknows ↦ hknows.keep _

theorem goes_step (h : s.Inv key) (hlives : Lives key s l) (hstep : s.step l = some t) :
    Goes (Granted key s l) (Retires key s l) (s.server.record key) (t.server.record key) := by
  cases l with
  | start c call ref =>
      simp only [RedisClients.step] at hstep
      split at hstep
      · obtain rfl := Option.some.inj hstep
        exact RedisServer.goes_same rfl id id
      · cases hstep
  | command c time =>
      simp only [RedisClients.step] at hstep
      split at hstep
      · cases hstep
      · obtain rfl := Option.some.inj hstep
        exact ControlPc.goes_command (h c) time
  | tick now =>
      obtain rfl := Option.some.inj hstep
      refine RedisServer.goes_same ?_ id id
      show (s.server.keys.value key).filter _ = _
      cases hv : s.server.keys.value key with
      | none => rfl
      | some e => rw [Option.filter_some, if_pos (hlives e hv)]

end RedisClients

/-- The Redis store with any number of clients, and the control with this key. -/
def redisMachine (key : String) (now : Time) : ControlMachine where
  State := RedisClients
  Label := RedisStep
  step := RedisClients.step
  start := .start now
  record s := s.server.record key
  proper := RedisClients.Proper key
  lives := RedisClients.Lives key
  granted := RedisClients.Granted key
  retires := RedisClients.Retires key
  Inv := RedisClients.Inv key

theorem redisMachine_lawful (key : String) (now : Time) : (redisMachine key now).Lawful where
  inv_start _ := trivial
  inv_step _ _ _ h hproper hstep := RedisClients.Inv.step h hproper hstep
  goes _ _ _ h _ hlives hstep := RedisClients.goes_step h hlives hstep

/-! ## Both stores -/

/-- A control in a store that several processes share. -/
inductive SharedControl where
  | sqlite (k : ControlKey)
  | redis (key : String) (now : Time)

/-- The store with its clients. -/
def SharedControl.machine : SharedControl → ControlMachine
  | .sqlite k => sqliteMachine k
  | .redis key now => redisMachine key now

theorem SharedControl.lawful (c : SharedControl) : c.machine.Lawful := by
  cases c with
  | sqlite k => exact sqliteMachine_lawful k
  | redis key now => exact redisMachine_lawful key now

/-- **Retirement.**  In every interleaving of the clients of a control with positive
retention, at most one `request` is granted before its record expires, the state it has
recorded is final, and once the control is retired no operation but another `retire` moves
its expiry, clears `retired_at` or grants a `request`. -/
theorem stays_retired (c : SharedControl) {s : c.machine.State}
    (h : Machine.Reach c.machine.step c.machine.proper c.machine.start s) :
    c.machine.StaysRetired s :=
  c.lawful.staysRetired (h.invariant c.lawful.inv_start fun s l t hs hl hstep ↦
    c.lawful.inv_step s l t hs hl hstep)

/-! ### A control that is requested and retired -/

/-- A control whose record is kept for a minute after it is retired. -/
def retainedRef : CancellationRef :=
  { ControlStore.caseRef with
    backend := .redis
    retentionSeconds := 60
    path_ne := by simp
    timing := ⟨le_rfl, le_rfl, by norm_num⟩ }

instance (key : String) (s : RedisClients) (l : RedisStep) :
    Decidable (RedisClients.Proper key s l) := by
  cases l <;> unfold RedisClients.Proper <;> infer_instance

/-- A client requests the control, and another one retires it meanwhile: its first
transaction comes too late for what it has watched. -/
def requestAndRetire : List RedisStep :=
  [.start 0 (.request "stop") retainedRef, .command 0 2, .command 0 2, .start 1 .retire retainedRef,
    .command 1 2, .command 0 2, .command 0 2, .command 1 3, .command 1 3, .command 1 3, .command 1 4,
    .command 1 4]

/-- From then on the control stays retired. -/
theorem stays_retired_case : ∃ s : RedisClients,
    s.server.record retainedRef.redisKey = some ⟨⟨true, "stop", 2⟩, 4, some 61⟩ ∧
      (redisMachine retainedRef.redisKey 1).StaysRetired s := by
  have hrecord : ((Machine.run (Machine.guarded RedisClients.step
      (RedisClients.Proper retainedRef.redisKey)) (.start 1) requestAndRetire).map
        fun s ↦ s.server.record retainedRef.redisKey) =
      some (some ⟨⟨true, "stop", 2⟩, 4, some 61⟩) := by decide +kernel
  obtain ⟨s, hrun, hs⟩ := Option.map_eq_some_iff.mp hrecord
  have hreach : Machine.Reach RedisClients.step (RedisClients.Proper retainedRef.redisKey)
      (.start 1) s := Machine.reach_of_run hrun
  exact ⟨s, hs, stays_retired (.redis retainedRef.redisKey 1) hreach⟩

end Blackbase.Resources
