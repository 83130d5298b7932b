import Blackbase.Core.Machine
import Blackbase.Context.InMemory

/-!
# The lifetime of snapshots kept in memory

A snapshot store kept in memory notes an expiry in the record, in a table by keys and, while the
key is pinned, in a second table from which the last `unpin` takes it back.  The three agree as
long as no key is unpinned that is not pinned and still has an expiry, and no content outlives the
expiry that was put aside for the content before it.
-/

universe u

namespace Blackbase.Context.Lifetime

open Resources (Time)

variable {P : Type u}

/-- A call of the store, with the readings of its clock. -/
inductive StoreCall (P : Type u) where
  | write (call : SnapshotWrite P) (swept now : Time)
  | read (key : String) (swept : Time)
  | sweep (now : Time)
  | delete (key : String)
  | pin (key owner : String)
  | unpin (key owner : String)

/-- The store, with the time to live that the content of each key was last written with. -/
structure History (P : Type u) where
  store : InMemorySnapshotStore P
  ttl : String → Option Time

namespace History

/-- A store that has just been made. -/
def start (defaultTtl : Option Time) : History P where
  store := {
    defaultTtl := defaultTtl
    data := fun _ ↦ none
    expiresAt := fun _ ↦ none
    pinRestoreExpiresAt := fun _ ↦ none
    pins := fun _ ↦ [] }
  ttl := fun _ ↦ none

/-- What a call leaves behind. -/
def apply (h : History P) : StoreCall P → History P
  | .write call swept now =>
      match h.store.write call swept now with
      | (store, .ok _) =>
          ⟨store, Function.update h.ttl call.key (effectiveTtl h.store.defaultTtl call.ttl)⟩
      | (store, .error _) => ⟨store, h.ttl⟩
  | .read key swept => ⟨(h.store.read key swept).1, h.ttl⟩
  | .sweep now => ⟨h.store.sweepExpired now, h.ttl⟩
  | .delete key => ⟨(h.store.delete key).1, h.ttl⟩
  | .pin key owner => ⟨(h.store.pin key owner).1, h.ttl⟩
  | .unpin key owner => ⟨(h.store.unpin key owner).1, h.ttl⟩

variable (h : History P)

/-- The creation time of a record and the time to live it was written with; without one its
content is to stay for ever. -/
def contentExpiry (key : String) (record : SnapshotRecord P) : Option Time :=
  expiryAt (h.ttl key) record.createdAt

/-- An expiry that does not cut the content of a record short. -/
def Covers (key : String) (record : SnapshotRecord P) (expiry : Time) : Prop :=
  ∃ e, h.contentExpiry key record = some e ∧ e ≤ expiry

/-- The bookkeeping is consistent. -/
structure Consistent : Prop where
  agrees : ∀ key record, h.store.data key = some record →
    record.expiresAt = h.store.expiresAt key
  pinned : ∀ key, h.store.pins key ≠ [] → h.store.expiresAt key = none ∧
    ∀ record, h.store.data key = some record → record.expiresAt = none
  lifetime : ∀ key record, h.store.data key = some record →
    ∀ t, record.expiresAt = some t → h.Covers key record t

/-- What every call keeps: the expiry that is put aside belongs to a pinned key, and a pinned key
has a record and no expiry. -/
structure Pinned : Prop where
  aside : ∀ key, h.store.pins key = [] → h.store.pinRestoreExpiresAt key = none
  table : ∀ key, h.store.pins key ≠ [] → h.store.expiresAt key = none
  record : ∀ key, h.store.pins key ≠ [] →
    ∃ record, h.store.data key = some record ∧ record.expiresAt = none

/-- The calls that keep the bookkeeping in order: an `unpin` finds no expiry on a key that is not
pinned, and the expiry that the last one takes back covers the content. -/
def InOrder : StoreCall P → Prop
  | .unpin key owner => ∀ record, h.store.data key = some record →
      (h.store.pins key = [] → record.expiresAt = none) ∧
      ((h.store.pins key).filter (· ≠ Text.strip owner) = [] →
        ∀ t, h.store.pinRestoreExpiresAt key = some t → h.Covers key record t)
  | _ => True

variable {h : History P}

/-! ## Sweeping -/

theorem sweep_kept (hp : h.Pinned) (now : Time) {key : String} {record : SnapshotRecord P}
    (hrecord : (h.store.sweepExpired now).data key = some record) :
    h.store.data key = some record ∧
      (h.store.sweepExpired now).expiresAt key = h.store.expiresAt key := by
  simp only [InMemorySnapshotStore.sweepExpired] at hrecord ⊢
  by_cases hover : isOver (h.store.expiresAt key) now = true
  · -- A pinned key has no expiry that could be over.
    have hpins : h.store.pins key = [] := by
      by_contra hne
      rw [hp.table key hne] at hover
      cases hover
    rw [if_pos ⟨hover, hpins⟩] at hrecord
    cases hrecord
  · rw [if_neg fun hboth ↦ hover hboth.1] at hrecord
    exact ⟨hrecord, if_neg hover⟩

theorem Pinned.sweep (hp : h.Pinned) (now : Time) : Pinned ⟨h.store.sweepExpired now, h.ttl⟩ where
  aside := hp.aside
  table := fun key hne ↦ by
    show (if isOver (h.store.expiresAt key) now then none else h.store.expiresAt key) = none
    rw [hp.table key hne]
    exact ite_self none
  record := fun key hne ↦ by
    obtain ⟨record, hrecord, hexpiry⟩ := hp.record key hne
    refine ⟨record, ?_, hexpiry⟩
    show (if isOver (h.store.expiresAt key) now ∧ h.store.pins key = [] then none
      else h.store.data key) = some record
    rw [if_neg fun hboth ↦ hne hboth.2, hrecord]

theorem Consistent.sweep (hp : h.Pinned) (hc : h.Consistent) (now : Time) :
    Consistent ⟨h.store.sweepExpired now, h.ttl⟩ where
  agrees := fun key record hrecord ↦ by
    obtain ⟨hold, htable⟩ := sweep_kept hp now hrecord
    exact (hc.agrees key record hold).trans htable.symm
  pinned := fun key hne ↦ by
    refine ⟨(hp.sweep now).table key hne, fun record hrecord ↦ ?_⟩
    exact (hc.pinned key hne).2 record (sweep_kept hp now hrecord).1
  lifetime := fun key record hrecord ↦ hc.lifetime key record (sweep_kept hp now hrecord).1

/-! ## Writing -/

/-- The store after a record has been stored with its expiry. -/
def stored (s : InMemorySnapshotStore P) (key : String) (record : SnapshotRecord P) :
    InMemorySnapshotStore P :=
  { s with
    data := Function.update s.data key (some record)
    expiresAt := Function.update s.expiresAt key record.expiresAt }

/-- The expiry that `write` gives a record. -/
def writtenExpiry (s : InMemorySnapshotStore P) (call : SnapshotWrite P) (now : Time) :
    Option Time :=
  if s.pins call.key = [] then expiryAt (effectiveTtl s.defaultTtl call.ttl) now else none

theorem write_cases (s : InMemorySnapshotStore P) (call : SnapshotWrite P) (swept now : Time) :
    (∃ e, s.write call swept now = (s.sweepExpired swept, .error e)) ∨
    ∃ record, record.createdAt = now ∧ record.expiresAt = writtenExpiry s call now ∧
      s.write call swept now = (stored (s.sweepExpired swept) call.key record, .ok record) := by
  unfold InMemorySnapshotStore.write
  dsimp only
  split_ifs
  · exact Or.inl ⟨_, rfl⟩
  · exact Or.inl ⟨_, rfl⟩
  all_goals
    cases call.content with
    | none => exact Or.inl ⟨_, rfl⟩
    | some content => exact Or.inr ⟨_, rfl, by simp_all [writtenExpiry,
        InMemorySnapshotStore.sweepExpired], rfl⟩

/-- A record is stored whose expiry is the one its content was written with. -/
structure Stores (h : History P) (key : String) (record : SnapshotRecord P) (ttl : Option Time) :
    Prop where
  pinned : h.store.pins key ≠ [] → record.expiresAt = none
  lifetime : ∀ t, record.expiresAt = some t → expiryAt ttl record.createdAt = some t

theorem Pinned.store (hp : h.Pinned) {key : String} {record : SnapshotRecord P}
    {ttl : Option Time} (hs : Stores h key record ttl) :
    Pinned ⟨stored h.store key record, Function.update h.ttl key ttl⟩ where
  aside := hp.aside
  table := fun k hne ↦ by
    show Function.update h.store.expiresAt key record.expiresAt k = none
    by_cases hk : k = key
    · subst hk
      rw [Function.update_self]
      exact hs.pinned hne
    · rw [Function.update_of_ne hk]
      exact hp.table k hne
  record := fun k hne ↦ by
    show ∃ r, Function.update h.store.data key (some record) k = some r ∧ r.expiresAt = none
    by_cases hk : k = key
    · subst hk
      rw [Function.update_self]
      exact ⟨record, rfl, hs.pinned hne⟩
    · rw [Function.update_of_ne hk]
      exact hp.record k hne

theorem Consistent.store (hc : h.Consistent) {key : String} {record : SnapshotRecord P}
    {ttl : Option Time} (hs : Stores h key record ttl) :
    Consistent ⟨stored h.store key record, Function.update h.ttl key ttl⟩ := by
  have hdata : ∀ k r, (stored h.store key record).data k = some r →
      (k = key ∧ r = record) ∨ (k ≠ key ∧ h.store.data k = some r) := by
    intro k r hr
    by_cases hk : k = key
    · subst hk
      have hself : (stored h.store k record).data k = some record := Function.update_self _ _ _
      exact Or.inl ⟨rfl, Option.some.inj (hr.symm.trans hself)⟩
    · exact Or.inr ⟨hk, (Function.update_of_ne hk _ _).symm.trans hr⟩
  refine ⟨fun k r hr ↦ ?_, fun k hne ↦ ?_, fun k r hr t ht ↦ ?_⟩
  · show r.expiresAt = Function.update h.store.expiresAt key record.expiresAt k
    rcases hdata k r hr with ⟨rfl, rfl⟩ | ⟨hk, hold⟩
    · rw [Function.update_self]
    · rw [Function.update_of_ne hk]
      exact hc.agrees k r hold
  · refine ⟨?_, fun r hr ↦ ?_⟩
    · show Function.update h.store.expiresAt key record.expiresAt k = none
      by_cases hk : k = key
      · subst hk
        rw [Function.update_self]
        exact hs.pinned hne
      · rw [Function.update_of_ne hk]
        exact (hc.pinned k hne).1
    · rcases hdata k r hr with ⟨rfl, rfl⟩ | ⟨hk, hold⟩
      · exact hs.pinned hne
      · exact (hc.pinned k hne).2 r hold
  · show ∃ e, expiryAt (Function.update h.ttl key ttl k) r.createdAt = some e ∧ e ≤ t
    rcases hdata k r hr with ⟨rfl, rfl⟩ | ⟨hk, hold⟩
    · rw [Function.update_self]
      exact ⟨t, hs.lifetime t ht, le_rfl⟩
    · rw [Function.update_of_ne hk]
      exact hc.lifetime k r hold t ht

/-! ## Deleting -/

/-- The store without a key. -/
def removed (s : InMemorySnapshotStore P) (key : String) : InMemorySnapshotStore P :=
  { s with
    data := Function.update s.data key none
    expiresAt := Function.update s.expiresAt key none
    pinRestoreExpiresAt := Function.update s.pinRestoreExpiresAt key none }

theorem delete_cases (s : InMemorySnapshotStore P) (key : String) :
    (s.delete key).1 = s ∨ s.pins key = [] ∧ (s.delete key).1 = removed s key := by
  unfold InMemorySnapshotStore.delete
  split_ifs with hpins
  · exact Or.inl rfl
  · exact Or.inr ⟨not_not.mp hpins, rfl⟩

theorem Pinned.remove (hp : h.Pinned) {key : String} (hpins : h.store.pins key = []) :
    Pinned ⟨removed h.store key, h.ttl⟩ := by
  have hother : ∀ k, h.store.pins k ≠ [] → k ≠ key := by
    rintro k hne rfl
    exact hne hpins
  refine ⟨fun k hk ↦ ?_, fun k hne ↦ ?_, fun k hne ↦ ?_⟩
  · show Function.update h.store.pinRestoreExpiresAt key none k = none
    by_cases hkey : k = key
    · subst hkey
      exact Function.update_self _ _ _
    · rw [Function.update_of_ne hkey]
      exact hp.aside k hk
  · exact (Function.update_of_ne (hother k hne) _ _).trans (hp.table k hne)
  · obtain ⟨record, hrecord, hexpiry⟩ := hp.record k hne
    exact ⟨record, (Function.update_of_ne (hother k hne) _ _).trans hrecord, hexpiry⟩

theorem Consistent.remove (hc : h.Consistent) {key : String} (hpins : h.store.pins key = []) :
    Consistent ⟨removed h.store key, h.ttl⟩ := by
  have hdata : ∀ k r, (removed h.store key).data k = some r →
      k ≠ key ∧ h.store.data k = some r := by
    intro k r hr
    by_cases hk : k = key
    · subst hk
      have hself : (removed h.store k).data k = none := Function.update_self _ _ _
      rw [hself] at hr
      cases hr
    · exact ⟨hk, (Function.update_of_ne hk _ _).symm.trans hr⟩
  refine ⟨fun k r hr ↦ ?_, fun k hne ↦ ⟨?_, fun r hr ↦ ?_⟩, fun k r hr ↦ ?_⟩
  · obtain ⟨hk, hold⟩ := hdata k r hr
    exact (hc.agrees k r hold).trans (Function.update_of_ne hk _ _).symm
  · have hk : k ≠ key := by
      rintro rfl
      exact hne hpins
    exact (Function.update_of_ne hk _ _).trans (hc.pinned k hne).1
  · exact (hc.pinned k hne).2 r (hdata k r hr).2
  · exact hc.lifetime k r (hdata k r hr).2

/-! ## Pinning -/

/-- The store after a record has been pinned. -/
def pinnedBy (s : InMemorySnapshotStore P) (key owner : String) (record : SnapshotRecord P) :
    InMemorySnapshotStore P :=
  { s with
    data := Function.update s.data key (some { record with expiresAt := none, pinned := true })
    expiresAt := Function.update s.expiresAt key none
    pinRestoreExpiresAt :=
      if s.pins key = [] then Function.update s.pinRestoreExpiresAt key record.expiresAt
      else s.pinRestoreExpiresAt
    pins := Function.update s.pins key ((s.pins key).insert (Text.strip owner)) }

theorem pin_cases (s : InMemorySnapshotStore P) (key owner : String) :
    (s.pin key owner).1 = s ∨
      ∃ record, s.data key = some record ∧ (s.pin key owner).1 = pinnedBy s key owner record := by
  unfold InMemorySnapshotStore.pin
  by_cases howner : Text.strip owner = ""
  · rw [if_pos howner]
    exact Or.inl rfl
  · rw [if_neg howner]
    cases hdata : s.data key with
    | none => exact Or.inl rfl
    | some record => exact Or.inr ⟨record, rfl, rfl⟩

theorem insert_ne_nil (owners : List String) (owner : String) : owners.insert owner ≠ [] :=
  List.ne_nil_of_mem List.mem_insert_self

theorem Pinned.pin (hp : h.Pinned) (key owner : String) (record : SnapshotRecord P) :
    Pinned ⟨pinnedBy h.store key owner record, h.ttl⟩ := by
  refine ⟨fun k hk ↦ ?_, fun k hne ↦ ?_, fun k hne ↦ ?_⟩
  · have hkey : k ≠ key := by
      rintro rfl
      have hself : (pinnedBy h.store k owner record).pins k =
        (h.store.pins k).insert (Text.strip owner) := Function.update_self _ _ _
      exact insert_ne_nil _ _ (hself.symm.trans hk)
    have hpins : h.store.pins k = [] := (Function.update_of_ne hkey _ _).symm.trans hk
    show (if h.store.pins key = [] then
      Function.update h.store.pinRestoreExpiresAt key record.expiresAt
      else h.store.pinRestoreExpiresAt) k = none
    split_ifs with hfirst
    · rw [Function.update_of_ne hkey]
      exact hp.aside k hpins
    · exact hp.aside k hpins
  · show Function.update h.store.expiresAt key none k = none
    by_cases hkey : k = key
    · subst hkey
      exact Function.update_self _ _ _
    · rw [Function.update_of_ne hkey]
      exact hp.table k fun hk ↦ hne ((Function.update_of_ne hkey _ _).trans hk)
  · show ∃ r, Function.update h.store.data key
      (some { record with expiresAt := none, pinned := true }) k = some r ∧ r.expiresAt = none
    by_cases hkey : k = key
    · subst hkey
      exact ⟨_, Function.update_self _ _ _, rfl⟩
    · rw [Function.update_of_ne hkey]
      exact hp.record k fun hk ↦ hne ((Function.update_of_ne hkey _ _).trans hk)

theorem Consistent.pin (hc : h.Consistent) (key owner : String) (record : SnapshotRecord P) :
    Consistent ⟨pinnedBy h.store key owner record, h.ttl⟩ := by
  have hdata : ∀ k r, (pinnedBy h.store key owner record).data k = some r →
      (k = key ∧ r.expiresAt = none) ∨ (k ≠ key ∧ h.store.data k = some r) := by
    intro k r hr
    by_cases hk : k = key
    · subst hk
      have hself : (pinnedBy h.store k owner record).data k =
        some { record with expiresAt := none, pinned := true } := Function.update_self _ _ _
      obtain rfl := Option.some.inj (hr.symm.trans hself)
      exact Or.inl ⟨rfl, rfl⟩
    · exact Or.inr ⟨hk, (Function.update_of_ne hk _ _).symm.trans hr⟩
  have htable : ∀ k, k ≠ key →
      (pinnedBy h.store key owner record).expiresAt k = h.store.expiresAt k :=
    fun k hk ↦ Function.update_of_ne hk _ _
  have hkey : (pinnedBy h.store key owner record).expiresAt key = none :=
    Function.update_self _ _ _
  refine ⟨fun k r hr ↦ ?_, fun k hne ↦ ?_, fun k r hr t ht ↦ ?_⟩
  · rcases hdata k r hr with ⟨rfl, hnone⟩ | ⟨hk, hold⟩
    · exact hnone.trans hkey.symm
    · exact (hc.agrees k r hold).trans (htable k hk).symm
  · by_cases hk : k = key
    · subst hk
      refine ⟨hkey, fun r hr ↦ ?_⟩
      rcases hdata k r hr with ⟨-, hnone⟩ | ⟨hk, -⟩
      · exact hnone
      · exact absurd rfl hk
    · have hpins : h.store.pins k ≠ [] := fun hnil ↦
        hne ((Function.update_of_ne hk _ _).trans hnil)
      refine ⟨(htable k hk).trans (hc.pinned k hpins).1, fun r hr ↦ ?_⟩
      rcases hdata k r hr with ⟨rfl, -⟩ | ⟨-, hold⟩
      · exact absurd rfl hk
      · exact (hc.pinned k hpins).2 r hold
  · rcases hdata k r hr with ⟨rfl, hnone⟩ | ⟨hk, hold⟩
    · rw [hnone] at ht
      cases ht
    · exact hc.lifetime k r hold t ht

/-! ## Unpinning -/

/-- The owners that remain. -/
def ownersLeft (s : InMemorySnapshotStore P) (key owner : String) : List String :=
  (s.pins key).filter (· ≠ Text.strip owner)

/-- The expiry that is taken back. -/
def takenBack (s : InMemorySnapshotStore P) (key owner : String) : Option Time :=
  if ownersLeft s key owner = [] then s.pinRestoreExpiresAt key else none

/-- The store after an owner has let go of a record. -/
def unpinnedBy (s : InMemorySnapshotStore P) (key owner : String) (record : SnapshotRecord P) :
    InMemorySnapshotStore P :=
  { s with
    data := Function.update s.data key (some { record with
      expiresAt := takenBack s key owner
      pinned := ownersLeft s key owner ≠ [] })
    expiresAt :=
      if (takenBack s key owner).isSome then
        Function.update s.expiresAt key (takenBack s key owner)
      else s.expiresAt
    pinRestoreExpiresAt :=
      if ownersLeft s key owner = [] then Function.update s.pinRestoreExpiresAt key none
      else s.pinRestoreExpiresAt
    pins := Function.update s.pins key (ownersLeft s key owner) }

theorem unpin_cases (s : InMemorySnapshotStore P) (key owner : String) :
    (s.data key = none ∧ (s.unpin key owner).1 = s) ∨
      ∃ record, s.data key = some record ∧
        (s.unpin key owner).1 = unpinnedBy s key owner record := by
  unfold InMemorySnapshotStore.unpin
  cases hdata : s.data key with
  | none => exact Or.inl ⟨rfl, rfl⟩
  | some record => exact Or.inr ⟨record, rfl, rfl⟩

section Unpin

variable {key owner : String} {record : SnapshotRecord P}

theorem ownersLeft_nil {s : InMemorySnapshotStore P} (hpins : s.pins key = []) :
    ownersLeft s key owner = [] := by
  rw [ownersLeft, hpins]
  rfl

theorem unpinnedBy_data_self (s : InMemorySnapshotStore P) :
    (unpinnedBy s key owner record).data key = some { record with
      expiresAt := takenBack s key owner
      pinned := ownersLeft s key owner ≠ [] } := Function.update_self _ _ _

theorem unpinnedBy_table_self (s : InMemorySnapshotStore P) :
    (unpinnedBy s key owner record).expiresAt key =
      (takenBack s key owner).or (s.expiresAt key) := by
  show (if (takenBack s key owner).isSome then
    Function.update s.expiresAt key (takenBack s key owner) else s.expiresAt) key = _
  cases htaken : takenBack s key owner with
  | none => rfl
  | some t => exact Function.update_self _ _ _

theorem unpinnedBy_table_other (s : InMemorySnapshotStore P) {k : String} (hk : k ≠ key) :
    (unpinnedBy s key owner record).expiresAt k = s.expiresAt k := by
  show (if (takenBack s key owner).isSome then
    Function.update s.expiresAt key (takenBack s key owner) else s.expiresAt) k = _
  split_ifs
  · exact Function.update_of_ne hk _ _
  · rfl

/-- A key that was pinned and no longer is gets back what was put aside; the others have no
expiry in the table. -/
theorem takenBack_pinned (hp : h.Pinned) (hleft : ownersLeft h.store key owner ≠ []) :
    takenBack h.store key owner = none ∧ h.store.expiresAt key = none := by
  refine ⟨if_neg hleft, hp.table key fun hpins ↦ hleft (ownersLeft_nil hpins)⟩

theorem Pinned.unpin (hp : h.Pinned) :
    Pinned ⟨unpinnedBy h.store key owner record, h.ttl⟩ := by
  have hother : ∀ k, k ≠ key → (unpinnedBy h.store key owner record).pins k = h.store.pins k :=
    fun k hk ↦ Function.update_of_ne hk _ _
  have hself : (unpinnedBy h.store key owner record).pins key = ownersLeft h.store key owner :=
    Function.update_self _ _ _
  refine ⟨fun k hk ↦ ?_, fun k hne ↦ ?_, fun k hne ↦ ?_⟩
  · show (if ownersLeft h.store key owner = [] then
      Function.update h.store.pinRestoreExpiresAt key none else h.store.pinRestoreExpiresAt) k =
        none
    by_cases hkey : k = key
    · subst hkey
      rw [if_pos (hself.symm.trans hk)]
      exact Function.update_self _ _ _
    · have haside := hp.aside k ((hother k hkey).symm.trans hk)
      split_ifs
      · rw [Function.update_of_ne hkey]
        exact haside
      · exact haside
  · by_cases hkey : k = key
    · subst hkey
      obtain ⟨htaken, htable⟩ := takenBack_pinned hp fun hleft ↦ hne (hself.trans hleft)
      rw [unpinnedBy_table_self, htaken, htable]
      rfl
    · rw [unpinnedBy_table_other _ hkey]
      exact hp.table k fun hk ↦ hne ((hother k hkey).trans hk)
  · by_cases hkey : k = key
    · subst hkey
      exact ⟨_, unpinnedBy_data_self _,
        (takenBack_pinned hp fun hleft ↦ hne (hself.trans hleft)).1⟩
    · obtain ⟨r, hr, hexpiry⟩ := hp.record k fun hk ↦ hne ((hother k hkey).trans hk)
      exact ⟨r, (Function.update_of_ne hkey _ _).trans hr, hexpiry⟩

/-- An `unpin` keeps the bookkeeping consistent exactly when it is in order. -/
theorem consistent_unpin_iff (hp : h.Pinned) (hc : h.Consistent)
    (hrecord : h.store.data key = some record) :
    Consistent ⟨unpinnedBy h.store key owner record, h.ttl⟩ ↔
      h.InOrder (.unpin key owner) := by
  have hdata : ∀ k r, (unpinnedBy h.store key owner record).data k = some r →
      k = key ∨ (k ≠ key ∧ h.store.data k = some r) := by
    intro k r hr
    by_cases hk : k = key
    · exact Or.inl hk
    · exact Or.inr ⟨hk, (Function.update_of_ne hk _ _).symm.trans hr⟩
  constructor
  · rintro hafter r hr
    obtain rfl := Option.some.inj (hrecord.symm.trans hr)
    refine ⟨fun hpins ↦ ?_, fun hleft t ht ↦ ?_⟩
    · -- The record loses its expiry, the table keeps it.
      have htaken : takenBack h.store key owner = none :=
        (if_pos (ownersLeft_nil hpins)).trans (hp.aside key hpins)
      have hagrees := hafter.agrees key _ (unpinnedBy_data_self _)
      rw [unpinnedBy_table_self, htaken] at hagrees
      exact (hc.agrees key record hrecord).trans hagrees.symm
    · have htaken : takenBack h.store key owner = some t := (if_pos hleft).trans ht
      exact hafter.lifetime key _ (unpinnedBy_data_self _) t htaken
  · intro horder
    obtain ⟨hfree, hcovers⟩ := horder record hrecord
    have htable : h.store.expiresAt key = none := by
      by_cases hpins : h.store.pins key = []
      · exact (hc.agrees key record hrecord).symm.trans (hfree hpins)
      · exact hp.table key hpins
    refine ⟨fun k r hr ↦ ?_, fun k hne ↦ ⟨hp.unpin.table k hne, fun r hr ↦ ?_⟩,
      fun k r hr t ht ↦ ?_⟩
    · rcases hdata k r hr with rfl | ⟨hk, hold⟩
      · obtain rfl := Option.some.inj ((unpinnedBy_data_self _).symm.trans hr)
        rw [unpinnedBy_table_self, htable]
        exact (Option.or_none).symm
      · exact (hc.agrees k r hold).trans (unpinnedBy_table_other _ hk).symm
    · obtain ⟨r', hr', hexpiry⟩ := hp.unpin.record k hne
      obtain rfl := Option.some.inj (hr'.symm.trans hr)
      exact hexpiry
    · rcases hdata k r hr with rfl | ⟨hk, hold⟩
      · obtain rfl := Option.some.inj ((unpinnedBy_data_self _).symm.trans hr)
        by_cases hleft : ownersLeft h.store k owner = []
        · exact hcovers hleft t ((if_pos hleft).symm.trans ht)
        · rw [show takenBack h.store k owner = none from if_neg hleft] at ht
          cases ht
      · exact hc.lifetime k r hold t ht

end Unpin

/-! ## Runs -/

theorem apply_write (h : History P) (call : SnapshotWrite P) (swept now : Time) :
    h.apply (.write call swept now) = ⟨h.store.sweepExpired swept, h.ttl⟩ ∨
    ∃ record ttl, Stores ⟨h.store.sweepExpired swept, h.ttl⟩ call.key record ttl ∧
      h.apply (.write call swept now) = ⟨stored (h.store.sweepExpired swept) call.key record,
        Function.update h.ttl call.key ttl⟩ := by
  rcases write_cases h.store call swept now with ⟨e, he⟩ | ⟨record, hcreated, hexpiry, hok⟩
  · left
    rw [apply, he]
  · right
    refine ⟨record, effectiveTtl h.store.defaultTtl call.ttl, ⟨fun hne ↦ ?_, fun t ht ↦ ?_⟩, ?_⟩
    · rw [hexpiry, writtenExpiry]
      exact if_neg hne
    · rw [hexpiry, writtenExpiry] at ht
      split_ifs at ht
      rw [hcreated, ht]
    · rw [apply, hok]

theorem Pinned.apply (hp : h.Pinned) (call : StoreCall P) : (h.apply call).Pinned := by
  cases call with
  | write call swept now =>
      rcases apply_write h call swept now with hleft | ⟨record, ttl, hs, hright⟩
      · rw [hleft]
        exact hp.sweep swept
      · rw [hright]
        exact (hp.sweep swept).store hs
  | read key swept => exact hp.sweep swept
  | sweep now => exact hp.sweep now
  | delete key =>
      show Pinned ⟨(h.store.delete key).1, h.ttl⟩
      rcases delete_cases h.store key with hsame | ⟨hpins, hgone⟩
      · rw [hsame]
        exact hp
      · rw [hgone]
        exact hp.remove hpins
  | pin key owner =>
      show Pinned ⟨(h.store.pin key owner).1, h.ttl⟩
      rcases pin_cases h.store key owner with hsame | ⟨record, -, hpinned⟩
      · rw [hsame]
        exact hp
      · rw [hpinned]
        exact hp.pin key owner record
  | unpin key owner =>
      show Pinned ⟨(h.store.unpin key owner).1, h.ttl⟩
      rcases unpin_cases h.store key owner with ⟨-, hsame⟩ | ⟨record, -, hunpinned⟩
      · rw [hsame]
        exact hp
      · rw [hunpinned]
        exact hp.unpin

/-- A call keeps the bookkeeping consistent exactly when it is in order. -/
theorem consistent_apply_iff (hp : h.Pinned) (hc : h.Consistent) (call : StoreCall P) :
    (h.apply call).Consistent ↔ h.InOrder call := by
  cases call with
  | write call swept now =>
      refine iff_of_true ?_ trivial
      rcases apply_write h call swept now with hleft | ⟨record, ttl, hs, hright⟩
      · rw [hleft]
        exact hc.sweep hp swept
      · rw [hright]
        exact (hc.sweep hp swept).store hs
  | read key swept => exact iff_of_true (hc.sweep hp swept) trivial
  | sweep now => exact iff_of_true (hc.sweep hp now) trivial
  | delete key =>
      refine iff_of_true ?_ trivial
      show Consistent ⟨(h.store.delete key).1, h.ttl⟩
      rcases delete_cases h.store key with hsame | ⟨hpins, hgone⟩
      · rw [hsame]
        exact hc
      · rw [hgone]
        exact hc.remove hpins
  | pin key owner =>
      refine iff_of_true ?_ trivial
      show Consistent ⟨(h.store.pin key owner).1, h.ttl⟩
      rcases pin_cases h.store key owner with hsame | ⟨record, -, hpinned⟩
      · rw [hsame]
        exact hc
      · rw [hpinned]
        exact hc.pin key owner record
  | unpin key owner =>
      show Consistent ⟨(h.store.unpin key owner).1, h.ttl⟩ ↔ _
      rcases unpin_cases h.store key owner with ⟨hnone, hsame⟩ | ⟨record, hrecord, hunpinned⟩
      · rw [hsame]
        refine iff_of_true hc fun record hrecord ↦ ?_
        rw [hnone] at hrecord
        cases hrecord
      · rw [hunpinned]
        exact consistent_unpin_iff hp hc hrecord

theorem pinned_start (defaultTtl : Option Time) : (start defaultTtl : History P).Pinned where
  aside := fun _ _ ↦ rfl
  table := fun _ hne ↦ absurd rfl hne
  record := fun _ hne ↦ absurd rfl hne

theorem consistent_start (defaultTtl : Option Time) :
    (start defaultTtl : History P).Consistent where
  agrees := fun _ _ hrecord ↦ by cases hrecord
  pinned := fun _ hne ↦ absurd rfl hne
  lifetime := fun _ _ hrecord ↦ by cases hrecord

end History

open History

/-- **The bookkeeping of lifetimes is consistent** in every state of a run exactly when every
`unpin` of the run is in order. -/
theorem snapshot_lifetimes_iff (defaultTtl : Option Time) (calls : List (StoreCall P)) :
    (∀ before, before <+: calls → (before.foldl apply (start defaultTtl)).Consistent) ↔
      ∀ before call, before ++ [call] <+: calls →
        (before.foldl apply (start defaultTtl)).InOrder call := by
  have hiff := Machine.forall_prefix_iff (P := Consistent) (Q := Consistent)
    (pinned_start defaultTtl) (consistent_start defaultTtl) (fun _ call hp ↦ hp.apply call)
    (fun _ _ hc ↦ hc)
    (fun h call hp hc (hgood : ¬ ¬ h.InOrder call) ↦
      (consistent_apply_iff hp hc call).mpr (not_not.mp hgood))
    (fun h call hp hc (hbad : ¬ h.InOrder call) hafter ↦
      hbad ((consistent_apply_iff hp hc call).mp hafter)) calls
  simpa only [not_not] using hiff

/-! ## Two runs that leave it -/

/-- A snapshot for ten seconds is unpinned although nobody pinned it. -/
def neverPinned : List (StoreCall Unit) :=
  [.write ⟨"key", some (), some 10, false, none⟩ 0 0, .unpin "key" "owner"]

/-- A snapshot for one second is pinned, overwritten by one for a hundred, and unpinned. -/
def overwritten : List (StoreCall Unit) :=
  [.write ⟨"key", some (), some 1, false, none⟩ 0 0, .pin "key" "owner",
    .write ⟨"key", some (), some 100, false, none⟩ 0 0, .unpin "key" "owner"]

/-- In the first run the record has lost the expiry that the table still has, in the second the new
content has got the expiry of the old one. -/
theorem lifetimes_disagree :
    ¬ (neverPinned.foldl apply (start none)).Consistent ∧
      ¬ (overwritten.foldl apply (start none)).Consistent := by
  constructor
  · intro hc
    have hdata : ((neverPinned.foldl apply (start none)).store.data "key").map
        SnapshotRecord.expiresAt = some none := by decide +kernel
    have htable : (neverPinned.foldl apply (start none)).store.expiresAt "key" = some 10 := by
      decide +kernel
    obtain ⟨record, hrecord, hexpiry⟩ := Option.map_eq_some_iff.mp hdata
    have hagrees := hc.agrees "key" record hrecord
    rw [hexpiry, htable] at hagrees
    cases hagrees
  · intro hc
    have hdata : ((overwritten.foldl apply (start none)).store.data "key").map
        (fun record ↦ (record.expiresAt, record.createdAt)) = some (some 1, 0) := by
      decide +kernel
    have httl : (overwritten.foldl apply (start none)).ttl "key" = some 100 := by decide +kernel
    obtain ⟨record, hrecord, hfields⟩ := Option.map_eq_some_iff.mp hdata
    obtain ⟨hexpiry, hcreated⟩ := Prod.mk.inj hfields
    obtain ⟨e, he, hle⟩ := hc.lifetime "key" record hrecord 1 hexpiry
    rw [contentExpiry, httl, hcreated, show expiryAt (some 100) 0 = some 100 by decide +kernel]
      at he
    obtain rfl := Option.some.inj he
    norm_num at hle

end Blackbase.Context.Lifetime
