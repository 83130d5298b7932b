import Blackbase.Core.Machine
import Blackbase.Core.OrderedDict
import Blackbase.Context.InMemory

/-!
# Context patches in memory and in Redis

`RedisContextStore` of `context/context_store.py` beside `InMemoryContextStore`.  The one counts a
time to live in whole seconds, the other as it is given, and an entry that memory has swept can
stand in Redis until its own expiry.  Under the same calls at the same times they show the same
values, outside the last second of a time to live, exactly when no positive time to live is shorter
than a second or longer than the server takes, and the codec gives back what it was given.
-/

universe u v

namespace Blackbase.Context

open Resources (Time)

/-! ## The store in Redis -/

/-- What the server holds under a key.  A payload stands for the value it was made from. -/
structure RedisEntry (V : Type u) where
  payload : V
  expireAt : Option Time

/-- The server refuses an expiry. -/
inductive RedisError where
  | invalidExpireTime
deriving DecidableEq

/-- `RedisContextStore`, and what its server holds under the prefix; `limit` is the longest expiry
in seconds that the server takes. -/
structure RedisContextStore (V : Type u) where
  defaultTtl : Option Time
  limit : ℕ
  entries : String → Option (RedisEntry V)

namespace RedisContextStore

variable {V : Type u} (s : RedisContextStore V)

/-- `_effective_ttl` -/
def effectiveTtl (ttl : Option Time) : Option ℤ :=
  ((Context.effectiveTtl s.defaultTtl ttl).filter (0 < ·)).map Int.floor

/-- `SETEX` takes the expiry. -/
def takes (seconds : ℤ) : Bool := 0 < seconds ∧ seconds ≤ s.limit

/-- A command that stores an entry is refused. -/
def refuses (ttl : Option ℤ) : Bool := ttl.any fun seconds ↦ !s.takes seconds

/-- When an entry expires that was stored with an expiry in seconds. -/
def expireAt (seconds : Option ℤ) (now : Time) : Option Time :=
  seconds.map fun n ↦ now + (n : Time)

/-- `SET`, or `SETEX` if there is an expiry; what is refused leaves no trace. -/
def put (key : String) (value : V) (ttl : Option ℤ) (now : Time) : RedisContextStore V :=
  if s.refuses ttl then s
  else { s with
    entries := Function.update s.entries key (some ⟨value, expireAt ttl now⟩) }

/-- `DEL` -/
def del (key : String) : RedisContextStore V :=
  { s with entries := Function.update s.entries key none }

def set (key : String) (value : V) (ttl : Option Time) (now : Time) :
    RedisContextStore V × Except RedisError Unit :=
  (s.put key value (s.effectiveTtl ttl) now,
    if s.refuses (s.effectiveTtl ttl) then .error .invalidExpireTime else .ok ())

/-- `apply_patch`: the transaction runs to its end, and then raises what a command was refused
for. -/
def applyPatch (values : List (String × V)) (deleteKeys : List String) (ttl : Option Time)
    (now : Time) : RedisContextStore V × Except RedisError Unit :=
  let seconds := s.effectiveTtl ttl
  (values.foldl (fun s entry ↦ s.put entry.1 entry.2 seconds now) (deleteKeys.foldl del s),
    if values ≠ [] ∧ s.refuses seconds then .error .invalidExpireTime else .ok ())

/-- What `GET` finds at a moment. -/
def get (key : String) (now : Time) : Option V :=
  ((s.entries key).filter fun entry ↦ !entry.expireAt.any (· < now)).map RedisEntry.payload

end RedisContextStore

/-- `get` -/
def InMemoryContextStore.get {V : Type u} (s : InMemoryContextStore V) (key : String)
    (now : Time) : Option V :=
  (s.sweepExpired now).data key

/-! ## Calls -/

/-- A mapping, with its keys as texts. -/
structure TextMapping (V : Type u) where
  entries : List (String × V)
  nodup : (entries.map Prod.fst).Nodup

/-- A call that changes a store. -/
inductive ContextCall (V : Type u) where
  | set (key : String) (value : V) (ttl : Option Time)
  | update (values : TextMapping V) (ttl : Option Time)
  | delete (key : String)
  | applyPatch (values : TextMapping V) (deleteKeys : List String) (ttl : Option Time)

namespace ContextCall

variable {V : Type u}

/-- What the call stores. -/
def stored : ContextCall V → List (String × V)
  | set key value _ => [(key, value)]
  | update values _ | applyPatch values _ _ => values.entries
  | delete _ => []

/-- What it deletes before. -/
def deleted : ContextCall V → List String
  | set _ _ _ | update _ _ => []
  | delete key => [key]
  | applyPatch _ keys _ => keys

/-- `ttl_seconds` -/
def ttl : ContextCall V → Option Time
  | set _ _ ttl | update _ ttl | applyPatch _ _ ttl => ttl
  | delete _ => none

theorem stored_nodup (c : ContextCall V) : (c.stored.map Prod.fst).Nodup := by
  cases c with
  | set key value ttl => exact List.nodup_singleton key
  | update values ttl => exact values.nodup
  | delete key => exact List.nodup_nil
  | applyPatch values keys ttl => exact values.nodup

end ContextCall

/-- A call of the store in memory. -/
def InMemoryContextStore.call {V : Type u} (s : InMemoryContextStore V) (now : Time) :
    ContextCall V → InMemoryContextStore V
  | .set key value ttl => s.set key value ttl now now
  | .update values ttl => s.applyPatch values.entries [] ttl now now
  | .delete key => s.delete key
  | .applyPatch values keys ttl => s.applyPatch values.entries keys ttl now now

/-- A call of the store in Redis. -/
def RedisContextStore.call {V : Type u} (s : RedisContextStore V) (now : Time) :
    ContextCall V → RedisContextStore V × Except RedisError Unit
  | .set key value ttl => s.set key value ttl now
  | .update values ttl => s.applyPatch values.entries [] ttl now
  | .delete key => (s.del key, .ok ())
  | .applyPatch values keys ttl => s.applyPatch values.entries keys ttl now

/-! ## Both stores -/

/-- The two stores under the same calls, when the time to live of each key ends, and whether a
call has been refused. -/
structure BothStores (V : Type u) where
  now : Time
  memory : InMemoryContextStore V
  redis : RedisContextStore V
  ends : String → Option Time
  refused : Bool

namespace BothStores

variable {V : Type u}

/-- Two empty stores. -/
def start (defaultTtl : Option Time) (limit : ℕ) (now : Time) : BothStores V where
  now := now
  memory := ⟨defaultTtl, fun _ ↦ none, fun _ ↦ none⟩
  redis := ⟨defaultTtl, limit, fun _ ↦ none⟩
  ends := fun _ ↦ none
  refused := false

/-- Some time passes, and both stores are called. -/
def apply (s : BothStores V) (l : ℚ≥0 × ContextCall V) : BothStores V :=
  let now := s.now + l.1
  let answer := s.redis.call now l.2
  { now := now
    memory := s.memory.call now l.2
    redis := answer.1
    ends := fun key ↦
      if key ∈ l.2.stored.map Prod.fst then
        expiryAt (effectiveTtl s.memory.defaultTtl l.2.ttl) now
      else if key ∈ l.2.deleted then none
      else s.ends key
    refused := s.refused || answer.2.toOption.isNone }

/-- A moment in the last second of a time to live. -/
def LastSecond (ends : Option Time) (moment : Time) : Prop :=
  ∃ e, ends = some e ∧ e - 1 < moment ∧ moment ≤ e

/-- From now on the stores show the same values outside last seconds, and nothing was refused;
`back` is what the codec makes of a value and back, if it can be read. -/
structure Agree (back : V → Option V) (s : BothStores V) : Prop where
  accepted : s.refused = false
  shown : ∀ key moment, s.now ≤ moment → ¬ LastSecond (s.ends key) moment →
    (s.redis.get key moment).map back = (s.memory.get key moment).map some

/-- A call that both stores treat alike: a positive time to live is at least a second and at most
what the server takes, and the codec gives back every value that is stored. -/
structure Alike (defaultTtl : Option Time) (limit : ℕ) (back : V → Option V)
    (c : ContextCall V) : Prop where
  ttl : c.stored ≠ [] → ∀ t, effectiveTtl defaultTtl c.ttl = some t → 0 < t →
    1 ≤ t ∧ ⌊t⌋ ≤ limit
  values : ∀ e ∈ c.stored, back e.2 = some e.2

/-! ## One key -/

section Key

variable {back : V → Option V}

/-- What the two stores hold under one key. -/
inductive KeyTwin (back : V → Option V) (now : Time) :
    Option V → Option Time → Option (RedisEntry V) → Option Time → Prop
  | absent (ends : Option Time) : KeyTwin back now none none none ends
  | lasting {v : V} (ends : Option Time) : back v = some v →
      KeyTwin back now (some v) none (some ⟨v, none⟩) ends
  | timed {v : V} {e w : Time} : back v = some v → w ≤ e → e < w + 1 →
      KeyTwin back now (some v) (some e) (some ⟨v, some w⟩) (some e)
  /-- Memory has swept the entry. -/
  | swept {v : V} {e w : Time} : w ≤ e → e < w + 1 → e ≤ now →
      KeyTwin back now none none (some ⟨v, some w⟩) (some e)

variable {now later : Time} {data : Option V} {expiry ends : Option Time}
  {entry : Option (RedisEntry V)}

theorem KeyTwin.wait (h : KeyTwin back now data expiry entry ends) (hle : now ≤ later) :
    KeyTwin back later data expiry entry ends := by
  cases h with
  | absent ends => exact .absent ends
  | lasting ends hback => exact .lasting ends hback
  | timed hback hwe hew => exact .timed hback hwe hew
  | swept hwe hew hover => exact .swept hwe hew (hover.trans hle)

theorem isOver_some {e : Time} : isOver (some e) later = true ↔ e ≤ later := by
  simp [isOver]

/-- Memory sweeps. -/
theorem KeyTwin.sweep (h : KeyTwin back now data expiry entry ends) :
    KeyTwin back now (if isOver expiry now then none else data)
      (if isOver expiry now then none else expiry) entry ends := by
  cases h with
  | absent ends => exact .absent ends
  | lasting ends hback => exact .lasting ends hback
  | @timed v e w hback hwe hew =>
      by_cases hover : e ≤ now
      · rw [if_pos (isOver_some.mpr hover), if_pos (isOver_some.mpr hover)]
        exact .swept hwe hew hover
      · rw [if_neg (mt isOver_some.mp hover), if_neg (mt isOver_some.mp hover)]
        exact .timed hback hwe hew
  | swept hwe hew hover => exact .swept hwe hew hover

/-- Outside the last second both stores show the same. -/
theorem KeyTwin.shown (h : KeyTwin back now data expiry entry ends) (hle : now ≤ later)
    (hlast : ¬ LastSecond ends later) :
    ((entry.filter fun entry ↦ !entry.expireAt.any (· < later)).map RedisEntry.payload).map back =
      (if isOver expiry later then none else data).map some := by
  cases h with
  | absent ends => rfl
  | lasting ends hback => simp [isOver, hback]
  | @timed v e w hback hwe hew =>
      by_cases hover : e ≤ later
      · have hgone : w < later := by
          have hne : ¬ (e - 1 < later ∧ later ≤ e) := fun hboth ↦ hlast ⟨e, rfl, hboth⟩
          by_contra hw
          exact hne ⟨by linarith, by linarith⟩
        simp [isOver, hover, hgone]
      · have hstays : ¬ w < later := by
          intro hw
          exact hlast ⟨e, rfl, by linarith, by linarith⟩
        simp [isOver, hover, hstays, hback]
  | @swept v e w hwe hew hover =>
      have hgone : w < later := by
        by_contra hw
        exact hlast ⟨e, rfl, by linarith, by linarith⟩
      simp [isOver, hgone]

/-- An entry that both stores take. -/
theorem KeyTwin.store {v : V} {ttl : Option Time} (hback : back v = some v) :
    KeyTwin back now (some v) (expiryAt ttl now)
      (some ⟨v, RedisContextStore.expireAt ((ttl.filter (0 < ·)).map Int.floor) now⟩)
      (expiryAt ttl now) := by
  cases ttl with
  | none => exact .lasting none hback
  | some t =>
      by_cases hpos : 0 < t
      · have hfilter : (some t).filter (fun t ↦ decide (0 < t)) = some t := by simp [hpos]
        rw [expiryAt, hfilter]
        refine .timed hback ?_ ?_
        · exact add_le_add_right (Int.floor_le t) now
        · have hfloor := Int.lt_floor_add_one t
          show now + t < now + ((⌊t⌋ : ℤ) : Time) + 1
          linarith
      · have hfilter : (some t).filter (fun t ↦ decide (0 < t)) = none := by
          simpa using hpos
        rw [expiryAt, hfilter]
        exact .lasting none hback

end Key

/-! ## What a call leaves under a key -/

section Call

theorem lookup_eq_none_iff {β : Type u} {values : List (String × β)} {key : String} :
    values.lookup key = none ↔ key ∉ values.map Prod.fst := by
  rw [List.lookup_eq_none_iff]
  constructor
  · rintro h hmem
    obtain ⟨e, he, rfl⟩ := List.mem_map.mp hmem
    have := h e he
    simp at this
  · intro h e he
    have hne : key ≠ e.1 := by
      rintro rfl
      exact h (List.mem_map_of_mem he)
    simpa using hne

/-- Entries with different keys, stored one after the other. -/
theorem foldl_update {α : Type u} {β : Type v} (g : α → β) (values : List (String × α))
    (hnodup : (values.map Prod.fst).Nodup) (key : String) : ∀ f : String → β,
    values.foldl (fun f e ↦ Function.update f e.1 (g e.2)) f key =
      ((values.lookup key).map g).getD (f key) := by
  induction values with
  | nil => exact fun _ ↦ rfl
  | cons e rest ih =>
      intro f
      obtain ⟨hnew, hrest⟩ := List.nodup_cons.mp hnodup
      rw [List.foldl_cons, ih hrest, List.lookup_cons]
      by_cases hkey : key = e.1
      · subst hkey
        rw [lookup_eq_none_iff.mpr hnew]
        simp
      · have hne : (key == e.1) = false := beq_eq_false_iff_ne.mpr hkey
        rw [hne, Function.update_of_ne hkey]

/-- Keys that are deleted one after the other. -/
theorem foldl_delete {β : Type v} (keys : List String) (key : String) :
    ∀ f : String → Option β, keys.foldl (fun f k ↦ Function.update f k none) f key =
      if key ∈ keys then none else f key := by
  induction keys with
  | nil => exact fun _ ↦ rfl
  | cons k rest ih =>
      intro f
      rw [List.foldl_cons, ih]
      by_cases hkey : key = k
      · subst hkey
        simp
      · rw [Function.update_of_ne hkey]
        simp [hkey]

/-- The store that a call in memory changes; a deletion does not sweep. -/
def base (s : InMemoryContextStore V) (now : Time) : ContextCall V → InMemoryContextStore V
  | .delete _ => s
  | .set _ _ _ | .update _ _ | .applyPatch _ _ _ => s.sweepExpired now

variable (s : InMemoryContextStore V) (r : RedisContextStore V) (now : Time) (c : ContextCall V)

theorem memory_call : s.call now c = c.stored.foldl
    (fun m e ↦ m.put e.1 e.2 (expiryAt (effectiveTtl s.defaultTtl c.ttl) now))
    (c.deleted.foldl InMemoryContextStore.delete (base s now c)) := by
  cases c with
  | set key value ttl => rfl
  | update values ttl => rfl
  | delete key => rfl
  | applyPatch values keys ttl => rfl

theorem redis_call : r.call now c = (
    c.stored.foldl (fun m e ↦ m.put e.1 e.2 (r.effectiveTtl c.ttl) now)
      (c.deleted.foldl RedisContextStore.del r),
    if c.stored ≠ [] ∧ r.refuses (r.effectiveTtl c.ttl) then .error .invalidExpireTime
    else .ok ()) := by
  cases c with
  | set key value ttl => simp [RedisContextStore.call, RedisContextStore.set, ContextCall.stored,
      ContextCall.deleted, ContextCall.ttl]
  | update values ttl => rfl
  | delete key => rfl
  | applyPatch values keys ttl => rfl

theorem memory_puts (expiry : Option Time) (values : List (String × V)) :
    ∀ s : InMemoryContextStore V, values.foldl (fun m e ↦ m.put e.1 e.2 expiry) s =
      { s with
        data := values.foldl (fun f e ↦ Function.update f e.1 (some e.2)) s.data
        expiresAt := values.foldl (fun f e ↦ Function.update f e.1 expiry) s.expiresAt } := by
  induction values with
  | nil => exact fun _ ↦ rfl
  | cons e rest ih =>
      intro s
      rw [List.foldl_cons, ih]
      rfl

theorem memory_deletes (keys : List String) :
    ∀ s : InMemoryContextStore V, keys.foldl InMemoryContextStore.delete s =
      { s with
        data := keys.foldl (fun f k ↦ Function.update f k none) s.data
        expiresAt := keys.foldl (fun f k ↦ Function.update f k none) s.expiresAt } := by
  induction keys with
  | nil => exact fun _ ↦ rfl
  | cons k rest ih =>
      intro s
      rw [List.foldl_cons, ih]
      rfl

theorem redis_puts (seconds : Option ℤ) (values : List (String × V)) :
    ∀ r : RedisContextStore V, r.refuses seconds = false →
      values.foldl (fun m e ↦ m.put e.1 e.2 seconds now) r =
        { r with entries := values.foldl (fun f e ↦ Function.update f e.1
            (some ⟨e.2, RedisContextStore.expireAt seconds now⟩)) r.entries } := by
  induction values with
  | nil => exact fun _ _ ↦ rfl
  | cons e rest ih =>
      intro r htakes
      have hput : r.put e.1 e.2 seconds now = { r with
          entries := Function.update r.entries e.1
            (some ⟨e.2, RedisContextStore.expireAt seconds now⟩) } := by
        rw [RedisContextStore.put, htakes]
        rfl
      rw [List.foldl_cons, hput]
      exact ih _ htakes

theorem redis_deletes (keys : List String) :
    ∀ r : RedisContextStore V, keys.foldl RedisContextStore.del r =
      { r with entries := keys.foldl (fun f k ↦ Function.update f k none) r.entries } := by
  induction keys with
  | nil => exact fun _ ↦ rfl
  | cons k rest ih =>
      intro r
      rw [List.foldl_cons, ih]
      rfl

/-- The expiry that memory gives what the call stores. -/
def memoryExpiry : Option Time := expiryAt (effectiveTtl s.defaultTtl c.ttl) now

variable (key : String)

theorem memory_data : (s.call now c).data key = ((c.stored.lookup key).map some).getD
    (if key ∈ c.deleted then none else (base s now c).data key) := by
  rw [memory_call, memory_puts, memory_deletes]
  exact (foldl_update some c.stored c.stored_nodup key _).trans
    (congrArg _ (foldl_delete c.deleted key _))

theorem memory_expiresAt : (s.call now c).expiresAt key =
    ((c.stored.lookup key).map fun _ ↦ memoryExpiry s now c).getD
      (if key ∈ c.deleted then none else (base s now c).expiresAt key) := by
  rw [memory_call, memory_puts, memory_deletes]
  exact (foldl_update (fun _ ↦ memoryExpiry s now c) c.stored c.stored_nodup key _).trans
    (congrArg _ (foldl_delete c.deleted key _))

/-- What Redis stores for a value of the call. -/
def redisEntry (v : V) : RedisEntry V :=
  ⟨v, RedisContextStore.expireAt (r.effectiveTtl c.ttl) now⟩

theorem redis_entries (htakes : c.stored ≠ [] → r.refuses (r.effectiveTtl c.ttl) = false) :
    (r.call now c).1.entries key = ((c.stored.lookup key).map fun v ↦
      some (redisEntry r now c v)).getD (if key ∈ c.deleted then none else r.entries key) := by
  have hputs : (c.stored.foldl (fun m e ↦ m.put e.1 e.2 (r.effectiveTtl c.ttl) now)
      (c.deleted.foldl RedisContextStore.del r)).entries =
      c.stored.foldl (fun (f : String → Option (RedisEntry V)) e ↦
          Function.update f e.1 (some (redisEntry r now c e.2)))
        (c.deleted.foldl (fun f k ↦ Function.update f k none) r.entries) := by
    rw [redis_deletes]
    by_cases hstored : c.stored = []
    · rw [hstored]
      rfl
    · refine congrArg RedisContextStore.entries (redis_puts now _ c.stored _ ?_)
      exact htakes hstored
  rw [redis_call]
  dsimp only
  rw [hputs]
  exact (foldl_update (fun v ↦ some (redisEntry r now c v)) c.stored c.stored_nodup key _).trans
    (congrArg _ (foldl_delete c.deleted key _))

end Call

/-! ## Runs -/

section Run

variable {defaultTtl : Option Time} {limit : ℕ} {back : V → Option V} {s : BothStores V}

/-- The stores have the settings they were made with. -/
structure Configured (defaultTtl : Option Time) (limit : ℕ) (s : BothStores V) : Prop where
  memory : s.memory.defaultTtl = defaultTtl
  redis : s.redis.defaultTtl = defaultTtl
  limit : s.redis.limit = limit

theorem redis_puts_settings (seconds : Option ℤ) (now : Time) (values : List (String × V)) :
    ∀ r : RedisContextStore V,
      (values.foldl (fun m e ↦ m.put e.1 e.2 seconds now) r).defaultTtl = r.defaultTtl ∧
      (values.foldl (fun m e ↦ m.put e.1 e.2 seconds now) r).limit = r.limit := by
  induction values with
  | nil => exact fun _ ↦ ⟨rfl, rfl⟩
  | cons e rest ih =>
      intro r
      have hput : (r.put e.1 e.2 seconds now).defaultTtl = r.defaultTtl ∧
          (r.put e.1 e.2 seconds now).limit = r.limit := by
        unfold RedisContextStore.put
        split_ifs <;> exact ⟨rfl, rfl⟩
      rw [List.foldl_cons, (ih _).1, (ih _).2]
      exact hput

theorem Configured.apply (h : Configured defaultTtl limit s) (l : ℚ≥0 × ContextCall V) :
    Configured defaultTtl limit (s.apply l) := by
  have hredis : (s.redis.call (s.now + l.1) l.2).1.defaultTtl = s.redis.defaultTtl ∧
      (s.redis.call (s.now + l.1) l.2).1.limit = s.redis.limit := by
    rw [redis_call, redis_deletes]
    exact redis_puts_settings _ _ _ _
  refine ⟨?_, hredis.1.trans h.redis, hredis.2.trans h.limit⟩
  refine Eq.trans ?_ h.memory
  show (s.memory.call (s.now + l.1) l.2).defaultTtl = s.memory.defaultTtl
  rw [memory_call, memory_puts, memory_deletes]
  cases l.2 <;> rfl

/-- The server takes an expiry unless it is no whole second, or too long. -/
theorem refuses_eq_false_iff (r : RedisContextStore V) (ttl : Option Time) :
    r.refuses (r.effectiveTtl ttl) = false ↔
      ∀ t, Context.effectiveTtl r.defaultTtl ttl = some t → 0 < t → 1 ≤ t ∧ ⌊t⌋ ≤ r.limit := by
  rw [RedisContextStore.effectiveTtl]
  cases Context.effectiveTtl r.defaultTtl ttl with
  | none => simp [RedisContextStore.refuses]
  | some t =>
      by_cases hpos : 0 < t
      · have hfilter : (some t).filter (fun t ↦ decide (0 < t)) = some t := by simp [hpos]
        rw [hfilter]
        simp [RedisContextStore.refuses, RedisContextStore.takes, hpos, Int.floor_pos]
      · have hfilter : (some t).filter (fun t ↦ decide (0 < t)) = none := by simpa using hpos
        rw [hfilter]
        simp [RedisContextStore.refuses, hpos]

theorem Alike.takes (h : Configured defaultTtl limit s) {c : ContextCall V}
    (ha : Alike defaultTtl limit back c) (hstored : c.stored ≠ []) :
    s.redis.refuses (s.redis.effectiveTtl c.ttl) = false := by
  rw [refuses_eq_false_iff, h.redis, h.limit]
  exact ha.ttl hstored

/-- A call is refused because of the expiry of what it stores. -/
theorem refused_apply (l : ℚ≥0 × ContextCall V) : (s.apply l).refused =
    (s.refused || decide (l.2.stored ≠ [] ∧ s.redis.refuses (s.redis.effectiveTtl l.2.ttl))) := by
  show (s.refused || (s.redis.call (s.now + l.1) l.2).2.toOption.isNone) = _
  rw [redis_call]
  dsimp only
  split_ifs with hrefused
  · simp [hrefused, Except.toOption]
  · simp [hrefused, Except.toOption]

/-- Every key is held alike. -/
def Twins (back : V → Option V) (s : BothStores V) : Prop :=
  ∀ key, KeyTwin back s.now (s.memory.data key) (s.memory.expiresAt key) (s.redis.entries key)
    (s.ends key)

theorem Twins.agree (h : Twins back s) (haccepted : s.refused = false) : Agree back s where
  accepted := haccepted
  shown := fun key _ hle hlast ↦ (h key).shown hle hlast

theorem Twins.base (h : Twins back s) {now : Time} (hle : s.now ≤ now) (c : ContextCall V)
    (key : String) :
    KeyTwin back now ((BothStores.base s.memory now c).data key)
      ((BothStores.base s.memory now c).expiresAt key) (s.redis.entries key) (s.ends key) := by
  have hwait := (h key).wait hle
  cases c with
  | set key value ttl => exact hwait.sweep
  | update values ttl => exact hwait.sweep
  | delete key => exact hwait
  | applyPatch values keys ttl => exact hwait.sweep

theorem Twins.apply (h : Twins back s) (hc : Configured defaultTtl limit s)
    {l : ℚ≥0 × ContextCall V} (ha : Alike defaultTtl limit back l.2) :
    Twins back (s.apply l) := by
  have hle : s.now ≤ s.now + l.1 := le_add_of_nonneg_right l.1.2
  intro key
  show KeyTwin back (s.now + l.1) ((s.memory.call (s.now + l.1) l.2).data key)
    ((s.memory.call (s.now + l.1) l.2).expiresAt key)
    ((s.redis.call (s.now + l.1) l.2).1.entries key)
    (if key ∈ l.2.stored.map Prod.fst then memoryExpiry s.memory (s.now + l.1) l.2
      else if key ∈ l.2.deleted then none else s.ends key)
  rw [memory_data, memory_expiresAt, redis_entries _ _ _ _ (ha.takes hc)]
  cases hlookup : l.2.stored.lookup key with
  | some v =>
      have hmem : (key, v) ∈ l.2.stored := by
        obtain ⟨before, after, hsplit, -⟩ := List.lookup_eq_some_iff.mp hlookup
        rw [hsplit]
        exact List.mem_append_right _ List.mem_cons_self
      rw [if_pos (List.mem_map_of_mem (f := Prod.fst) hmem)]
      have hstore : KeyTwin back (s.now + l.1) (some v)
          (expiryAt (Context.effectiveTtl defaultTtl l.2.ttl) (s.now + l.1)) _ _ :=
        KeyTwin.store (ha.values _ hmem)
      simpa only [Option.map_some, Option.getD_some, memoryExpiry, redisEntry,
        RedisContextStore.effectiveTtl, hc.memory, hc.redis] using hstore
  | none =>
      rw [if_neg (lookup_eq_none_iff.mp hlookup)]
      simp only [Option.map_none, Option.getD_none]
      by_cases hdeleted : key ∈ l.2.deleted
      · simp only [if_pos hdeleted]
        exact .absent none
      · simp only [if_neg hdeleted]
        exact h.base hle l.2 key

/-- Both stores show a value that they have just taken, unless it cannot be read back. -/
theorem back_of_agree (hc : Configured defaultTtl limit s) {l : ℚ≥0 × ContextCall V}
    (hfits : s.redis.refuses (s.redis.effectiveTtl l.2.ttl) = false)
    (hagree : Agree back (s.apply l)) {e : String × V} (he : e ∈ l.2.stored) :
    back e.2 = some e.2 := by
  have hlookup : l.2.stored.lookup e.1 = some e.2 :=
    OrderedDict.lookup_of_mem l.2.stored_nodup he
  have hfit := (refuses_eq_false_iff s.redis l.2.ttl).mp hfits
  rw [hc.redis] at hfit
  -- Its time to live has not come to its last second.
  have hexpiry : ∀ w, memoryExpiry s.memory (s.now + l.1) l.2 = some w →
      s.now + l.1 ≤ w - 1 := by
    intro w hw
    rw [memoryExpiry, hc.memory, expiryAt] at hw
    cases httl : effectiveTtl defaultTtl l.2.ttl with
    | none =>
        rw [httl] at hw
        cases hw
    | some t =>
        rw [httl, Option.map_eq_some_iff] at hw
        obtain ⟨t', hfilter, rfl⟩ := hw
        obtain ⟨ht, hpos⟩ := Option.filter_eq_some_iff.mp hfilter
        obtain rfl := Option.some.inj ht
        have hone := (hfit t httl (of_decide_eq_true hpos)).1
        linarith
  have hlast : ¬ LastSecond ((s.apply l).ends e.1) (s.apply l).now := by
    rintro ⟨w, hw, hlt, -⟩
    have hends : (s.apply l).ends e.1 = memoryExpiry s.memory (s.now + l.1) l.2 :=
      if_pos (List.mem_map_of_mem he)
    exact absurd (hexpiry w (hends.symm.trans hw)) (not_le.mpr hlt)
  have hshown := hagree.shown e.1 _ le_rfl hlast
  have hmemory : (s.apply l).memory.get e.1 (s.apply l).now = some e.2 := by
    show (if isOver ((s.memory.call (s.now + l.1) l.2).expiresAt e.1) (s.now + l.1) then none
      else (s.memory.call (s.now + l.1) l.2).data e.1) = some e.2
    rw [memory_data, memory_expiresAt, hlookup]
    refine if_neg ?_
    simp only [Option.map_some, Option.getD_some]
    cases hw : memoryExpiry s.memory (s.now + l.1) l.2 with
    | none => simp [isOver]
    | some w =>
        have := hexpiry w hw
        rw [isOver_some]
        linarith
  have hredis : (s.apply l).redis.get e.1 (s.apply l).now = some e.2 := by
    show (((s.redis.call (s.now + l.1) l.2).1.entries e.1).filter _).map _ = some e.2
    rw [redis_entries _ _ _ _ fun _ ↦ hfits, hlookup]
    simp only [Option.map_some, Option.getD_some, redisEntry, RedisContextStore.expireAt,
      RedisContextStore.effectiveTtl, hc.redis]
    cases httl : effectiveTtl defaultTtl l.2.ttl with
    | none => rfl
    | some t =>
        by_cases hpos : 0 < t
        · have hone : (1 : ℤ) ≤ ⌊t⌋ := Int.le_floor.mpr (by exact_mod_cast (hfit t httl hpos).1)
          have hlate : ¬ s.now + l.1 + ((⌊t⌋ : ℤ) : Time) < s.now + l.1 := by
            have : (1 : Time) ≤ ((⌊t⌋ : ℤ) : Time) := by exact_mod_cast hone
            linarith
          have hfilter : (some t).filter (fun t ↦ decide (0 < t)) = some t := by simp [hpos]
          rw [hfilter]
          show (Option.filter (fun entry : RedisEntry V ↦
            !entry.expireAt.any (· < s.now + l.1)) _).map _ = _
          simp [hlate]
        · have hfilter : (some t).filter (fun t ↦ decide (0 < t)) = none := by simpa using hpos
          rw [hfilter]
          rfl
  rw [hmemory, hredis] at hshown
  exact Option.some.inj hshown

theorem not_agree_apply (hc : Configured defaultTtl limit s) {l : ℚ≥0 × ContextCall V}
    (hbad : ¬ Alike defaultTtl limit back l.2) : ¬ Agree back (s.apply l) := by
  intro hagree
  have hfits : l.2.stored ≠ [] → s.redis.refuses (s.redis.effectiveTtl l.2.ttl) = false := by
    intro hstored
    have haccepted := hagree.accepted
    rw [refused_apply, Bool.or_eq_false_iff] at haccepted
    have hboth := of_decide_eq_false haccepted.2
    exact Bool.eq_false_iff.mpr fun hrefused ↦ hboth ⟨hstored, hrefused⟩
  refine hbad ⟨fun hstored ↦ ?_, fun e he ↦ ?_⟩
  · have hfit := (refuses_eq_false_iff s.redis l.2.ttl).mp (hfits hstored)
    rwa [hc.redis, hc.limit] at hfit
  · exact back_of_agree hc (hfits (List.ne_nil_of_mem he)) hagree he

theorem twins_start (defaultTtl : Option Time) (limit : ℕ) (now : Time) :
    Twins back (start defaultTtl limit now) := fun _ ↦ .absent none

end Run

end BothStores

open BothStores

/-- **Context patches mean the same on both backends**: under the same calls at the same times the
stores show the same values outside the last second of a time to live, and nothing is refused,
exactly when every call is one that both treat alike. -/
theorem context_patches_agree_iff {V : Type u} (back : V → Option V) (defaultTtl : Option Time)
    (limit : ℕ) (now : Time) (calls : List (ℚ≥0 × ContextCall V)) :
    (∀ before, before <+: calls →
      Agree back (before.foldl BothStores.apply (start defaultTtl limit now))) ↔
      ∀ l ∈ calls, Alike defaultTtl limit back l.2 := by
  have hiff := Machine.forall_prefix_iff (I := Configured defaultTtl limit) (P := Agree back)
    (Q := fun s ↦ Twins back s ∧ s.refused = false) (s := start defaultTtl limit now)
    ⟨rfl, rfl, rfl⟩ ⟨twins_start _ _ _, rfl⟩ (fun _ l hc ↦ hc.apply l)
    (fun _ _ h ↦ h.1.agree h.2)
    (fun s l hc h (hgood : ¬ ¬ Alike defaultTtl limit back l.2) ↦ by
      refine ⟨h.1.apply hc (not_not.mp hgood), ?_⟩
      rw [refused_apply, h.2, Bool.false_or]
      refine decide_eq_false fun hboth ↦ ?_
      rw [(not_not.mp hgood).takes hc hboth.1] at hboth
      exact Bool.false_ne_true hboth.2)
    (fun s l hc _ (hbad : ¬ Alike defaultTtl limit back l.2) ↦ not_agree_apply hc hbad) calls
  rw [hiff]
  constructor
  · intro h l hl
    obtain ⟨before, after, rfl⟩ := List.append_of_mem hl
    exact not_not.mp (h before l ⟨after, by simp⟩)
  · rintro h before l ⟨after, rfl⟩
    exact not_not.mpr (h l (by simp))

/-- Half a second to live. -/
def halfSecond : List (ℚ≥0 × ContextCall Unit) := [(0, .set "key" () (some (1 / 2)))]

/-- Redis refuses half a second, which memory takes. -/
theorem halfSecond_refused :
    ¬ Agree some (halfSecond.foldl BothStores.apply (start none 9223372036854775 0)) := by
  intro h
  have hrefused : (halfSecond.foldl BothStores.apply
      (start none 9223372036854775 0)).refused = true := by decide +kernel
  rw [h.accepted] at hrefused
  cases hrefused

end Blackbase.Context
