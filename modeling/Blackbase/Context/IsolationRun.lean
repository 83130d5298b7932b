import Blackbase.Context.ValueIsolation
import Blackbase.Core.Attempt

/-!
# What detaching a value does

One induction over a run: what is returned is a copy in a larger memory, and what is raised names
a cycle or a part that cannot be detached.
-/

namespace Blackbase.Context.Isolation

open Attempt ObjectGraph
open Project.Envelope (Runtime)

/-! ## Keys -/

/-- What `hash` and `==` will see of the copy of an object. -/
def copyLeaf (m : Memory) : Obj → Option Key
  | .scalar s => some s.key
  | .generic _ item => keyOf m item
  | .buffer bytes => some (.bytes bytes)
  | _ => none

/-- What `hash` and `==` will see of the copy, if it can be hashed. -/
def copyKey (m : Memory) (i : ℕ) : Option Key := keyAt (copyLeaf m) m (i + 1) i

theorem mapM_congr {α β : Type} {f g : α → Option β} {l : List α} (h : ∀ a ∈ l, f a = g a) :
    l.mapM f = l.mapM g := by
  induction l with
  | nil => rfl
  | cons a rest ih =>
      rw [List.mapM_cons, List.mapM_cons, h a List.mem_cons_self,
        ih fun b hb ↦ h b (List.mem_cons_of_mem _ hb)]

theorem mapM_congr_forall₂ {α α' β : Type} {f : α → Option β} {g : α' → Option β} {l : List α}
    {l' : List α'} (h : List.Forall₂ (fun a b ↦ f a = g b) l l') : l.mapM f = l'.mapM g := by
  induction h with
  | nil => rfl
  | cons ha _ ih => rw [List.mapM_cons, List.mapM_cons, ha, ih]

theorem filterMap_congr_forall₂ {α α' β : Type} {f : α → Option β} {g : α' → Option β}
    {l : List α} {l' : List α'} (h : List.Forall₂ (fun a b ↦ f a = g b) l l') :
    l.filterMap f = l'.filterMap g := by
  induction h with
  | nil => rfl
  | cons ha _ ih => rw [List.filterMap_cons, List.filterMap_cons, ha, ih]

theorem isSome_mapM {α β : Type} {f : α → Option β} {l : List α} :
    (l.mapM f).isSome = true ↔ ∀ a ∈ l, (f a).isSome = true := by
  induction l with
  | nil => simp
  | cons a rest ih =>
      rw [List.mapM_cons]
      cases ha : f a with
      | none => simp [ha]
      | some b =>
          have hrest : (List.mapM f (a :: rest)).isSome = (rest.mapM f).isSome := by
            rw [List.mapM_cons, ha]
            cases rest.mapM f <;> rfl
          rw [List.forall_mem_cons, ← ih]
          cases hm : rest.mapM f with
          | none => simp
          | some bs => simp [ha]

section Keys

variable {leaf : Obj → Option Key} {m m' : Memory} {i j : ℕ}

/-- What `leaf` says of an object that is neither a tuple nor a `frozenset`. -/
theorem keyAt_leaf {o : Obj} (ho : m[i]? = some o)
    (hleaf : o.isFrozenCollection = false) :
    keyAt leaf m (i + 1) i = leaf o := by
  rw [keyAt, ho]
  cases o with
  | collection kind items =>
      cases kind with
      | tuple => cases hleaf
      | frozenset => cases hleaf
      | list => rfl
      | set => rfl
  | scalar s => rfl
  | generic key item => rfl
  | buffer bytes => rfl
  | dataRef ref => rfl
  | stateRef ref => rfl
  | array contents objects => rfl
  | mapping entries => rfl
  | other key type => rfl

/-- The depth does not matter when it is enough. -/
theorem keyAt_eq (hm : WellFormed m) {n : ℕ} (hn : i < n) :
    keyAt leaf m n i = keyAt leaf m (i + 1) i := by
  induction i using Nat.strongRecOn generalizing n with
  | _ i ih =>
      obtain ⟨n, rfl⟩ : ∃ k, n = k + 1 := ⟨n - 1, by omega⟩
      cases ho : m[i]? with
      | none => simp only [keyAt, ho]
      | some o =>
          have hitems : ∀ kind items, o = .collection kind items → kind.frozen = true →
              ∀ j ∈ items, keyAt leaf m n j = keyAt leaf m i j := by
            rintro kind items rfl hkind j hj
            have hlt := hm.earlier ho hkind j hj
            rw [ih j hlt (by omega : j < n), ih j hlt hlt]
          cases o with
          | collection kind items =>
              cases kind with
              | tuple => simp only [keyAt, ho, mapM_congr (hitems .tuple items rfl rfl)]
              | frozenset =>
                  simp only [keyAt, ho, List.filterMap_congr (hitems .frozenset items rfl rfl)]
              | list => simp only [keyAt, ho]
              | set => simp only [keyAt, ho]
          | scalar s => simp only [keyAt, ho]
          | generic key item => simp only [keyAt, ho]
          | buffer bytes => simp only [keyAt, ho]
          | dataRef ref => simp only [keyAt, ho]
          | stateRef ref => simp only [keyAt, ho]
          | array contents objects => simp only [keyAt, ho]
          | mapping entries => simp only [keyAt, ho]
          | other key type => simp only [keyAt, ho]

theorem keyAt_tuple (hm : WellFormed m) {items : List ℕ}
    (ho : m[i]? = some (.collection .tuple items)) :
    keyAt leaf m (i + 1) i = (items.mapM fun j ↦ keyAt leaf m (j + 1) j).map .tuple := by
  rw [keyAt, ho]
  have hitems : items.mapM (keyAt leaf m i) = items.mapM fun j ↦ keyAt leaf m (j + 1) j :=
    mapM_congr fun j hj ↦ keyAt_eq hm (hm.earlier ho rfl j hj)
  exact congrArg (Option.map Key.tuple) hitems

theorem keyAt_frozenset (hm : WellFormed m) {items : List ℕ}
    (ho : m[i]? = some (.collection .frozenset items)) :
    keyAt leaf m (i + 1) i =
      some (.frozenset (items.filterMap fun j ↦ keyAt leaf m (j + 1) j)) := by
  rw [keyAt, ho]
  have hitems : items.filterMap (keyAt leaf m i) =
      items.filterMap fun j ↦ keyAt leaf m (j + 1) j :=
    List.filterMap_congr fun j hj ↦ keyAt_eq hm (hm.earlier ho rfl j hj)
  exact congrArg (some ∘ Key.frozenset) hitems

/-- What is hashed does not change when the memory grows. -/
theorem keyAt_of_growth (hm : WellFormed m) (hp : m <+: m') {n : ℕ} (hi : i < m.length) :
    keyAt leaf m' n i = keyAt leaf m n i := by
  induction n generalizing i with
  | zero => rfl
  | succ n ih =>
      have hget := getElem?_of_growth hp hi
      have hitems : ∀ kind items, m[i]? = some (.collection kind items) →
          ∀ j ∈ items, keyAt leaf m' n j = keyAt leaf m n j := by
        intro kind items ho j hj
        exact ih (hm.closed i j ((points_iff_mem ho).mpr hj))
      cases ho : m[i]? with
      | none =>
          rw [keyAt, keyAt, hget, ho]
      | some o =>
          rw [keyAt, keyAt, hget, ho]
          cases o with
          | collection kind items =>
              cases kind with
              | tuple => simp only [mapM_congr (hitems .tuple items ho)]
              | frozenset => simp only [List.filterMap_congr (hitems .frozenset items ho)]
              | list => rfl
              | set => rfl
          | scalar s => rfl
          | generic key item => rfl
          | buffer bytes => rfl
          | dataRef ref => rfl
          | stateRef ref => rfl
          | array contents objects => rfl
          | mapping entries => rfl
          | other key type => rfl

theorem keyOf_of_growth (hm : WellFormed m) (hp : m <+: m') (hi : i < m.length) :
    keyOf m' i = keyOf m i :=
  keyAt_of_growth hm hp hi

theorem sameKey_of_growth (hm : WellFormed m) (hp : m <+: m') (hi : i < m.length)
    (hj : j < m.length) : sameKey m' i j = sameKey m i j := by
  rw [sameKey, sameKey, keyOf_of_growth hm hp hi, keyOf_of_growth hm hp hj]

theorem Hashed.of_growth {items : List ℕ} (h : Hashed m items) (hm : WellFormed m)
    (hp : m <+: m') (hlt : ∀ i ∈ items, i < m.length) : Hashed m' items where
  hashable i hi := by rw [keyOf_of_growth hm hp (hlt i hi), h.hashable i hi]
  distinct := by
    refine h.distinct.imp_of_mem fun {i j} hi hj hne ↦ ?_
    rw [sameKey_of_growth hm hp (hlt i hi) (hlt j hj), hne]

end Keys

/-! ## Copies -/

/-- `j` is a copy of the object `o` at `i`, where `R` relates what they contain.  A copy that is
not a scalar is an object from `b` on; only if it converts can it differ from the original: a
NumPy scalar gives its item, and a buffer its bytes. -/
def CopyStep (converts : Bool) (b : ℕ) (m : Memory) (R : ℕ → ℕ → Prop) (i j : ℕ) : Obj → Prop
  | .scalar _ => i = j
  | .generic _ item => converts = true ∧ item = j
  | .buffer bytes => converts = true ∧ b ≤ j ∧ m[j]? = some (.scalar (.bytes bytes))
  | .dataRef ref => b ≤ j ∧ m[j]? = some (.dataRef ref)
  | .stateRef ref => b ≤ j ∧ m[j]? = some (.stateRef ref)
  | .array contents objects => objects = none ∧ b ≤ j ∧ m[j]? = some (.array contents none)
  | .mapping entries => b ≤ j ∧ ∃ out, m[j]? = some (.mapping out) ∧
      List.Forall₂ (fun e o ↦ R e.1 o.1 ∧ R e.2 o.2) entries out
  | .collection kind items => b ≤ j ∧ ∃ out, m[j]? = some (.collection kind out) ∧
      List.Forall₂ R items out
  | .other _ _ => False

/-- `j` is a copy of `i`, to a depth. -/
def CopyOf (converts : Bool) (b : ℕ) (m : Memory) : ℕ → ℕ → ℕ → Prop
  | 0, _, _ => False
  | n + 1, i, j => ∃ o, m[i]? = some o ∧ CopyStep converts b m (CopyOf converts b m n) i j o

section Copies

variable {converts : Bool} {b : ℕ} {m m' : Memory} {i j n : ℕ}

theorem CopyStep.mono {R R' : ℕ → ℕ → Prop} (hR : ∀ i j, R i j → R' i j) (hp : m <+: m')
    {o : Obj} (h : CopyStep converts b m R i j o) : CopyStep converts b m' R' i j o := by
  cases o with
  | scalar s => exact h
  | generic key item => exact h
  | buffer bytes => exact ⟨h.1, h.2.1, getElem?_growth_of_eq_some hp h.2.2⟩
  | dataRef ref => exact ⟨h.1, getElem?_growth_of_eq_some hp h.2⟩
  | stateRef ref => exact ⟨h.1, getElem?_growth_of_eq_some hp h.2⟩
  | array contents objects => exact ⟨h.1, h.2.1, getElem?_growth_of_eq_some hp h.2.2⟩
  | mapping entries =>
      obtain ⟨hb, out, hj, hout⟩ := h
      refine ⟨hb, out, getElem?_growth_of_eq_some hp hj, ?_⟩
      exact hout.imp fun e o h ↦ ⟨hR _ _ h.1, hR _ _ h.2⟩
  | collection kind items =>
      obtain ⟨hb, out, hj, hout⟩ := h
      exact ⟨hb, out, getElem?_growth_of_eq_some hp hj, hout.imp hR⟩
  | other key type => exact h

theorem CopyOf.of_growth (h : CopyOf converts b m n i j) (hp : m <+: m') :
    CopyOf converts b m' n i j := by
  induction n generalizing i j with
  | zero => exact h
  | succ n ih =>
      obtain ⟨o, ho, hstep⟩ := h
      exact ⟨o, getElem?_growth_of_eq_some hp ho, hstep.mono (fun i j h ↦ ih h) hp⟩

theorem CopyOf.mono {n' : ℕ} (h : CopyOf converts b m n i j) (hn : n ≤ n') :
    CopyOf converts b m n' i j := by
  induction n generalizing i j n' with
  | zero => exact h.elim
  | succ n ih =>
      obtain ⟨n', rfl⟩ : ∃ k, n' = k + 1 := ⟨n' - 1, by omega⟩
      obtain ⟨o, ho, hstep⟩ := h
      exact ⟨o, ho, hstep.mono (fun i j h ↦ ih h (by omega)) (List.prefix_refl m)⟩

/-- One depth is enough for all the items of a list. -/
theorem exists_depth {α : Type} {R : ℕ → α → α → Prop}
    (hmono : ∀ n n' a b, n ≤ n' → R n a b → R n' a b) {l l' : List α}
    (h : List.Forall₂ (fun a b ↦ ∃ n, R n a b) l l') : ∃ n, List.Forall₂ (R n) l l' := by
  induction h with
  | nil => exact ⟨0, .nil⟩
  | cons hab _ ih =>
      obtain ⟨n, hn⟩ := hab
      obtain ⟨n', hn'⟩ := ih
      refine ⟨max n n', .cons (hmono _ _ _ _ (le_max_left _ _) hn) ?_⟩
      exact hn'.imp fun a b h ↦ hmono _ _ _ _ (le_max_right _ _) h

/-- What is hashed of a copy is what was said it would be. -/
theorem CopyOf.keyOf_eq {m₀ : Memory} (hm₀ : WellFormed m₀) (hm : WellFormed m) (hp : m₀ <+: m)
    (hi : i < m₀.length) (h : CopyOf true b m n i j) : keyOf m j = copyKey m₀ i := by
  induction n generalizing i j with
  | zero => exact h.elim
  | succ n ih =>
      obtain ⟨o, ho, hstep⟩ := h
      rw [getElem?_of_growth hp hi] at ho
      have hlt : ∀ c ∈ o.refs, c < m₀.length := fun c hc ↦
        hm₀.closed i c ((points_iff_mem ho).mpr hc)
      cases o with
      | scalar s =>
          obtain rfl : i = j := hstep
          have hj := getElem?_growth_of_eq_some hp ho
          rw [keyOf, keyAt_leaf hj rfl, copyKey, keyAt_leaf ho rfl]
          rfl
      | generic key item =>
          obtain ⟨-, rfl⟩ := hstep
          rw [copyKey, keyAt_leaf ho rfl, copyLeaf]
          exact keyOf_of_growth hm₀ hp (hlt item List.mem_cons_self)
      | buffer bytes =>
          obtain ⟨-, -, hj⟩ := hstep
          rw [keyOf, keyAt_leaf hj rfl, copyKey, keyAt_leaf ho rfl]
          rfl
      | dataRef ref =>
          rw [keyOf, keyAt_leaf hstep.2 rfl, copyKey, keyAt_leaf ho rfl]
          rfl
      | stateRef ref =>
          rw [keyOf, keyAt_leaf hstep.2 rfl, copyKey, keyAt_leaf ho rfl]
          rfl
      | array contents objects =>
          rw [keyOf, keyAt_leaf hstep.2.2 rfl, copyKey, keyAt_leaf ho rfl]
          rfl
      | mapping entries =>
          obtain ⟨-, out, hj, -⟩ := hstep
          rw [keyOf, keyAt_leaf hj rfl, copyKey, keyAt_leaf ho rfl]
          rfl
      | collection kind items =>
          obtain ⟨-, out, hj, hout⟩ := hstep
          have hkeys : List.Forall₂ (fun c d ↦ copyKey m₀ c = keyOf m d) items out :=
            ((List.forall₂_and_left _ _).mpr ⟨hlt, hout⟩).imp fun c d h ↦ (ih h.1 h.2).symm
          cases kind with
          | tuple =>
              rw [keyOf, keyAt_tuple hm hj, copyKey, keyAt_tuple hm₀ ho]
              exact congrArg (Option.map Key.tuple) (mapM_congr_forall₂ hkeys).symm
          | frozenset =>
              rw [keyOf, keyAt_frozenset hm hj, copyKey, keyAt_frozenset hm₀ ho]
              exact congrArg (some ∘ Key.frozenset) (filterMap_congr_forall₂ hkeys).symm
          | list =>
              rw [keyOf, keyAt_leaf hj rfl, copyKey, keyAt_leaf ho rfl]
              rfl
          | set =>
              rw [keyOf, keyAt_leaf hj rfl, copyKey, keyAt_leaf ho rfl]
              rfl
      | other key type => exact hstep.elim

end Copies

/-! ## What can be detached -/

/-- The object is of a kind that can be detached, and what it would hash can be hashed. -/
def Supported (m : Memory) (i : ℕ) : Prop :=
  match m[i]? with
  | some (.array _ objects) => objects = none
  | some (.mapping entries) => ∀ e ∈ entries, (copyKey m e.1).isSome = true
  | some (.collection kind items) =>
      kind.unordered = true → ∀ c ∈ items, (copyKey m c).isSome = true
  | some (.other _ _) => False
  | some _ => True
  | none => False

/-- The copies of the two objects will be different keys. -/
def Different (m : Memory) (i j : ℕ) : Prop :=
  ∀ k l, copyKey m i = some k → copyKey m j = some l → k.same l = false

/-- An immutable object that is returned, or built again, as it is. -/
def Obj.isStill : Obj → Bool
  | scalar _ | dataRef _ | stateRef _ => true
  | collection kind _ => kind.frozen
  | _ => false

/-- Everything that can be reached from the object is still. -/
def Inert (m : Memory) (i : ℕ) : Prop :=
  ∀ p, Reaches Obj.refs m i p → ∃ o, m[p]? = some o ∧ o.isStill = true

/-- Nothing is lost, shared or left to convert in the copy of the object: the item of a NumPy
scalar is inert, and what is hashed stays different. -/
def Settled (m : Memory) (i : ℕ) : Prop :=
  match m[i]? with
  | some (.generic _ item) => Inert m item
  | some (.mapping entries) => (entries.map Prod.fst).Pairwise (Different m)
  | some (.collection kind items) => kind.unordered = true → items.Pairwise (Different m)
  | _ => True

/-- No part of the object is one of its own parts, and all can be detached. -/
structure Detachable (m : Memory) (i : ℕ) : Prop where
  grounded : Grounded Obj.parts m i
  supported : ∀ p, Reaches Obj.parts m i p → Supported m p

/-- The parts of the object are settled. -/
def SettledParts (m : Memory) (i : ℕ) : Prop := ∀ p, Reaches Obj.parts m i p → Settled m p

/-- The memory has grown by copies, whose mappings are dictionaries. -/
structure Grown (m₀ m : Memory) : Prop where
  pre : m₀ <+: m
  wellFormed : WellFormed m
  built : ∀ {j : ℕ} {out : List (ℕ × ℕ)}, m₀.length ≤ j → m[j]? = some (Obj.mapping out) →
    Hashed m (out.map Prod.fst)

/-- `j` is what detaching `i` returns. -/
structure Detached (m₀ m : Memory) (i j : ℕ) : Prop where
  lt : j < m.length
  key : (keyOf m j).isSome = (copyKey m₀ i).isSome
  detachable : Detachable m₀ i
  copied : SettledParts m₀ i → ∃ n, CopyOf true m₀.length m n i j

/-- Detaching `i` raises a `TypeError`, because of an object under way, a cycle, or a part that
cannot be detached. -/
structure Refused (m₀ : Memory) (active : List ℕ) (i : ℕ) (e : ContextError) : Prop where
  typeError : e.isTypeError = true
  cause : (∃ a ∈ active, Reaches Obj.parts m₀ i a) ∨ Cyclic Obj.parts m₀ i ∨
    ∃ p, Reaches Obj.parts m₀ i p ∧ ¬ Supported m₀ p

section Growth

variable {m₀ m m' : Memory} {i j : ℕ}

theorem Grown.refl (hm : WellFormed m₀) : Grown m₀ m₀ where
  pre := List.prefix_refl m₀
  wellFormed := hm
  built h ho := absurd (List.getElem?_eq_some_iff.mp ho).1 (by omega)

theorem Detached.mono (h : Detached m₀ m i j) (hm : WellFormed m) (hp : m <+: m') :
    Detached m₀ m' i j where
  lt := lt_of_lt_of_le h.lt hp.length_le
  key := by rw [keyOf_of_growth hm hp h.lt, h.key]
  detachable := h.detachable
  copied hs := by
    obtain ⟨n, hn⟩ := h.copied hs
    exact ⟨n, hn.of_growth hp⟩

theorem getElem?_create {o o' : Obj} {k : ℕ} (h : (m ++ [o])[k]? = some o') :
    m[k]? = some o' ∨ k = m.length ∧ o' = o := by
  rcases lt_trichotomy k m.length with hlt | rfl | hgt
  · rw [List.getElem?_append_left hlt] at h
    exact .inl h
  · rw [List.getElem?_concat_length] at h
    exact .inr ⟨rfl, (Option.some.inj h).symm⟩
  · have hk := (List.getElem?_eq_some_iff.mp h).1
    rw [List.length_append, List.length_singleton] at hk
    omega

/-- A new object keeps the memory well formed. -/
theorem WellFormed.create {o : Obj} (hm : WellFormed m) (hrefs : ∀ c ∈ o.refs, c < m.length)
    (hhashed : ∀ {kind : Kind} {items : List ℕ}, o = .collection kind items →
      kind.unordered = true → Hashed m items) : WellFormed (m ++ [o]) := by
  have hp : m <+: m ++ [o] := List.prefix_append m [o]
  refine ⟨?_, ?_, ?_⟩
  · rintro a c ⟨o', ho', hc⟩
    rw [List.length_append, List.length_singleton]
    rcases getElem?_create ho' with hold | ⟨rfl, rfl⟩
    · have := hm.closed a c ((points_iff_mem hold).mpr hc)
      omega
    · have := hrefs c hc
      omega
  · intro a kind items ho' hkind c hc
    rcases getElem?_create ho' with hold | ⟨rfl, rfl⟩
    · exact hm.earlier hold hkind c hc
    · exact hrefs c hc
  · intro a kind items ho' hkind
    rcases getElem?_create ho' with hold | ⟨rfl, heq⟩
    · refine (hm.hashed hold hkind).of_growth hm hp fun c hc ↦ ?_
      exact hm.closed a c ((points_iff_mem hold).mpr hc)
    · refine (hhashed heq.symm hkind).of_growth hm hp fun c hc ↦ hrefs c ?_
      rw [← heq]
      exact hc

theorem Grown.create {o : Obj} (h : Grown m₀ m) (hrefs : ∀ c ∈ o.refs, c < m.length)
    (hset : ∀ {kind : Kind} {items : List ℕ}, o = .collection kind items →
      kind.unordered = true → Hashed m items)
    (hdict : ∀ {out : List (ℕ × ℕ)}, o = .mapping out → Hashed m (out.map Prod.fst)) :
    Grown m₀ (m ++ [o]) := by
  have hp : m <+: m ++ [o] := List.prefix_append m [o]
  refine ⟨h.pre.trans hp, h.wellFormed.create hrefs hset, ?_⟩
  intro k out hk ho
  rcases getElem?_create ho with hold | ⟨rfl, heq⟩
  · refine (h.built hk hold).of_growth h.wellFormed hp fun c hc ↦ ?_
    exact h.wellFormed.closed k c
      ((points_iff_mem hold).mpr (List.mem_append_left _ hc))
  · refine (hdict heq.symm).of_growth h.wellFormed hp fun c hc ↦ hrefs c ?_
    rw [← heq]
    exact List.mem_append_left _ hc

/-- What a part is refused for, its container is. -/
theorem Refused.of_part {active : List ℕ} {c : ℕ} {e : ContextError}
    (hc : Points Obj.parts m₀ i c) (h : Refused m₀ (i :: active) c e) : Refused m₀ active i e where
  typeError := h.typeError
  cause := by
    rcases h.cause with ⟨a, ha, hreach⟩ | ⟨d, hreach, hcycle⟩ | ⟨p, hreach, hp⟩
    · rcases List.mem_cons.mp ha with rfl | ha
      · exact .inr (.inl ⟨a, .refl, .head' hc hreach⟩)
      · exact .inl ⟨a, ha, .head hc hreach⟩
    · exact .inr (.inl ⟨d, .head hc hreach, hcycle⟩)
    · exact .inr (.inr ⟨p, .head hc hreach, hp⟩)

theorem SettledParts.of_points {c : ℕ} (h : SettledParts m₀ i) (hc : Points Obj.parts m₀ i c) :
    SettledParts m₀ c := fun p hp ↦ h p (.head hc hp)

/-- An object is detachable when its parts are and it is supported. -/
theorem Detachable.of_parts (hparts : ∀ c, Points Obj.parts m₀ i c → Detachable m₀ c)
    (hi : Supported m₀ i) : Detachable m₀ i where
  grounded := grounded_of_points fun c hc ↦ (hparts c hc).grounded
  supported p hp := by
    rcases Relation.ReflTransGen.cases_head hp with rfl | ⟨c, hc, hreach⟩
    · exact hi
    · exact (hparts c hc).supported p hreach

end Growth

/-! ## Loops -/

/-- What detaching `c` in the memory `m` returns. -/
structure Returns (m₀ m : Memory) (c : ℕ) (r : Memory × ℕ) : Prop where
  grown : Grown m₀ r.1
  pre : m <+: r.1
  detached : Detached m₀ r.1 c r.2

/-- The items `done` of a set have been detached into `out`. -/
structure SetSoFar (m₀ m : Memory) (done out : List ℕ) : Prop where
  detachable : ∀ c ∈ done, Detachable m₀ c ∧ (copyKey m₀ c).isSome = true
  lt : ∀ d ∈ out, d < m.length
  hashed : Hashed m out
  copied : (∀ c ∈ done, SettledParts m₀ c) → done.Pairwise (Different m₀) →
    List.Forall₂ (Detached m₀ m) done out

/-- The entries `done` of a mapping have been detached into `out`. -/
structure EntriesSoFar (m₀ m : Memory) (done out : List (ℕ × ℕ)) : Prop where
  detachable : ∀ e ∈ done,
    Detachable m₀ e.1 ∧ Detachable m₀ e.2 ∧ (copyKey m₀ e.1).isSome = true
  lt : ∀ o ∈ out, o.1 < m.length ∧ o.2 < m.length
  hashed : Hashed m (out.map Prod.fst)
  copied : (∀ e ∈ done, SettledParts m₀ e.1 ∧ SettledParts m₀ e.2) →
    (done.map Prod.fst).Pairwise (Different m₀) →
    List.Forall₂ (fun e o ↦ Detached m₀ m e.1 o.1 ∧ Detached m₀ m e.2 o.2) done out

section Loops

variable {m₀ m m' : Memory}

theorem Hashed.append {out : List ℕ} {k : ℕ} (h : Hashed m out) (hk : (keyOf m k).isSome = true)
    (hnew : ∀ d ∈ out, sameKey m d k = false) : Hashed m (out ++ [k]) where
  hashable d hd := by
    rcases List.mem_append.mp hd with hd | hd
    · exact h.hashable d hd
    · obtain rfl := List.mem_singleton.mp hd
      exact hk
  distinct := by
    refine List.pairwise_append.mpr ⟨h.distinct, List.pairwise_singleton _ _, ?_⟩
    intro d hd k' hk'
    obtain rfl := List.mem_singleton.mp hk'
    exact hnew d hd

/-- A key that will be different from the others is new. -/
theorem sameKey_eq_false {c d i k : ℕ} (hm₀ : WellFormed m₀) (hm : Grown m₀ m)
    (hc : c < m₀.length) (hi : i < m₀.length) (hcd : Detached m₀ m c d) (hik : Detached m₀ m i k)
    (hcs : SettledParts m₀ c) (his : SettledParts m₀ i) (hne : Different m₀ c i) :
    sameKey m d k = false := by
  obtain ⟨n, hn⟩ := hcd.copied hcs
  obtain ⟨n', hn'⟩ := hik.copied his
  rw [sameKey, hn.keyOf_eq hm₀ hm.wellFormed hm.pre hc,
    hn'.keyOf_eq hm₀ hm.wellFormed hm.pre hi]
  cases hkey : copyKey m₀ c with
  | none => rfl
  | some key =>
      cases hkey' : copyKey m₀ i with
      | none => rfl
      | some key' => exact hne key key' hkey hkey'

theorem SetSoFar.mono {done out : List ℕ} (h : SetSoFar m₀ m done out) (hm : WellFormed m)
    (hp : m <+: m') : SetSoFar m₀ m' done out where
  detachable := h.detachable
  lt d hd := lt_of_lt_of_le (h.lt d hd) hp.length_le
  hashed := h.hashed.of_growth hm hp h.lt
  copied hs hne := (h.copied hs hne).imp fun _ _ hd ↦ hd.mono hm hp

theorem EntriesSoFar.mono {done out : List (ℕ × ℕ)} (h : EntriesSoFar m₀ m done out)
    (hm : WellFormed m) (hp : m <+: m') : EntriesSoFar m₀ m' done out where
  detachable := h.detachable
  lt o ho := ⟨lt_of_lt_of_le (h.lt o ho).1 hp.length_le, lt_of_lt_of_le (h.lt o ho).2 hp.length_le⟩
  hashed := by
    refine h.hashed.of_growth hm hp fun c hc ↦ ?_
    obtain ⟨o, ho, rfl⟩ := List.mem_map.mp hc
    exact (h.lt o ho).1
  copied hs hne := (h.copied hs hne).imp fun _ _ hd ↦ ⟨hd.1.mono hm hp, hd.2.mono hm hp⟩

/-- What is at the right of a pair of related lists is related to something at the left. -/
theorem exists_of_forall₂_right {α β : Type} {R : α → β → Prop} {l : List α} {l' : List β}
    (h : List.Forall₂ R l l') {b : β} (hb : b ∈ l') : ∃ a ∈ l, R a b := by
  induction h with
  | nil => cases hb
  | @cons a b' rest rest' hab _ ih =>
      rcases List.mem_cons.mp hb with rfl | hb
      · exact ⟨a, List.mem_cons_self, hab⟩
      · obtain ⟨a', ha', hR⟩ := ih hb
        exact ⟨a', List.mem_cons_of_mem _ ha', hR⟩

theorem SetSoFar.add {done out : List ℕ} {i k : ℕ} (hm₀ : WellFormed m₀) (hm : Grown m₀ m)
    (hlt : ∀ c ∈ done ++ [i], c < m₀.length) (h : SetSoFar m₀ m done out)
    (hk : Detached m₀ m i k) (hkey : (keyOf m k).isSome = true) :
    SetSoFar m₀ m (done ++ [i]) (add m out k) where
  detachable c hc := by
    rcases List.mem_append.mp hc with hc | hc
    · exact h.detachable c hc
    · obtain rfl := List.mem_singleton.mp hc
      exact ⟨hk.detachable, hk.key.symm.trans hkey⟩
  lt d hd := by
    unfold Isolation.add at hd
    split at hd
    · exact h.lt d hd
    · rcases List.mem_append.mp hd with hd | hd
      · exact h.lt d hd
      · obtain rfl := List.mem_singleton.mp hd
        exact hk.lt
  hashed := by
    unfold Isolation.add
    split
    · exact h.hashed
    · next hany => exact h.hashed.append hkey (by simpa using hany)
  copied hs hne := by
    obtain ⟨hdone, -, hlast⟩ := List.pairwise_append.mp hne
    have hout := h.copied (fun c hc ↦ hs c (List.mem_append_left _ hc)) hdone
    have hi : i ∈ done ++ [i] := List.mem_append_right _ List.mem_cons_self
    have hany : ¬ (out.any fun d ↦ sameKey m d k) = true := by
      rw [List.any_eq_true]
      rintro ⟨d, hd, hsame⟩
      obtain ⟨c, hc, hcd⟩ := exists_of_forall₂_right hout hd
      have hc' : c ∈ done ++ [i] := List.mem_append_left _ hc
      rw [sameKey_eq_false hm₀ hm (hlt c hc') (hlt i hi) hcd hk (hs c hc') (hs i hi)
        (hlast c hc i List.mem_cons_self)] at hsame
      cases hsame
    rw [Isolation.add, if_neg hany]
    exact List.rel_append hout (.cons hk .nil)

theorem EntriesSoFar.store {done out : List (ℕ × ℕ)} {e : ℕ × ℕ} {k v : ℕ} (hm₀ : WellFormed m₀)
    (hm : Grown m₀ m) (hlt : ∀ d ∈ done ++ [e], d.1 < m₀.length)
    (h : EntriesSoFar m₀ m done out) (hk : Detached m₀ m e.1 k) (hv : Detached m₀ m e.2 v)
    (hkey : (keyOf m k).isSome = true) :
    EntriesSoFar m₀ m (done ++ [e]) (store m out k v) where
  detachable d hd := by
    rcases List.mem_append.mp hd with hd | hd
    · exact h.detachable d hd
    · obtain rfl := List.mem_singleton.mp hd
      exact ⟨hk.detachable, hv.detachable, hk.key.symm.trans hkey⟩
  lt o ho := by
    unfold Isolation.store at ho
    split at ho
    · obtain ⟨o', ho', rfl⟩ := List.mem_map.mp ho
      by_cases hsame : sameKey m o'.1 k = true
      · rw [if_pos hsame]
        exact ⟨(h.lt o' ho').1, hv.lt⟩
      · rw [if_neg hsame]
        exact h.lt o' ho'
    · rcases List.mem_append.mp ho with ho | ho
      · exact h.lt o ho
      · obtain rfl := List.mem_singleton.mp ho
        exact ⟨hk.lt, hv.lt⟩
  hashed := by
    unfold Isolation.store
    split
    · have hkeys : (out.map fun e ↦ if sameKey m e.1 k then (e.1, v) else e).map Prod.fst =
          out.map Prod.fst := by
        rw [List.map_map]
        refine List.map_congr_left fun o _ ↦ ?_
        rw [Function.comp_apply]
        split <;> rfl
      rw [hkeys]
      exact h.hashed
    · next hany =>
        rw [List.map_append]
        refine h.hashed.append hkey ?_
        simpa using hany
  copied hs hne := by
    rw [List.map_append] at hne
    obtain ⟨hdone, -, hlast⟩ := List.pairwise_append.mp hne
    have hout := h.copied (fun d hd ↦ hs d (List.mem_append_left _ hd)) hdone
    have he : e ∈ done ++ [e] := List.mem_append_right _ List.mem_cons_self
    have hany : ¬ (out.any fun o ↦ sameKey m o.1 k) = true := by
      rw [List.any_eq_true]
      rintro ⟨o, ho, hsame⟩
      obtain ⟨d, hd, hdo⟩ := exists_of_forall₂_right hout ho
      have hd' : d ∈ done ++ [e] := List.mem_append_left _ hd
      rw [sameKey_eq_false hm₀ hm (hlt d hd') (hlt e he) hdo.1 hk (hs d hd').1 (hs e he).1
        (hlast d.1 (List.mem_map_of_mem hd) e.1 List.mem_cons_self)] at hsame
      cases hsame
    rw [Isolation.store, if_neg hany]
    exact List.rel_append hout (.cons ⟨hk, hv⟩ .nil)

/-- Detaching each of `items` returns its copy, or raises what `E` allows. -/
def Detaches (m₀ : Memory) (E : ContextError → Prop) (detach : String → Memory → ℕ → Outcome)
    (c : ℕ) : Prop :=
  ∀ path m, Grown m₀ m → Ends (Returns m₀ m c) E (detach path m c)

variable {detach : String → Memory → ℕ → Outcome} {path : String} {E : ContextError → Prop}

theorem detachItems_ends {items : List ℕ} (hd : ∀ c ∈ items, Detaches m₀ E detach c) {index : ℕ}
    (hm : Grown m₀ m) :
    Ends (fun r ↦ Grown m₀ r.1 ∧ m <+: r.1 ∧ List.Forall₂ (Detached m₀ r.1) items r.2) E
      (detachItems detach path index m items) := by
  induction items generalizing m index with
  | nil => exact ⟨hm, List.prefix_refl m, .nil⟩
  | cons i rest ih =>
      rw [detachItems]
      refine (hd i List.mem_cons_self _ m hm).bind ?_
      rintro ⟨m₁, k⟩ ⟨hm₁, hp₁, hk⟩
      refine (ih (fun c hc ↦ hd c (List.mem_cons_of_mem _ hc)) hm₁).bind ?_
      rintro ⟨m₂, ks⟩ ⟨hm₂, hp₂, hks⟩
      exact ⟨hm₂, hp₁.trans hp₂, .cons (hk.mono hm₁.wellFormed hp₂) hks⟩

theorem copyKey_eq_none {i k : ℕ} (hk : Detached m₀ m i k) (hnone : (keyOf m k).isNone = true) :
    copyKey m₀ i = none := by
  have hkey := hk.key
  rw [Option.isNone_iff_eq_none.mp hnone] at hkey
  cases h : copyKey m₀ i with
  | none => rfl
  | some key =>
      rw [h] at hkey
      cases hkey

theorem detachSet_ends (hm₀ : WellFormed m₀) {done items out : List ℕ}
    (hlt : ∀ c ∈ done ++ items, c < m₀.length) (hd : ∀ c ∈ items, Detaches m₀ E detach c)
    (hunhashable : ∀ c ∈ items, copyKey m₀ c = none → E .unhashable)
    (hm : Grown m₀ m) (hout : SetSoFar m₀ m done out) :
    Ends (fun r ↦ Grown m₀ r.1 ∧ m <+: r.1 ∧ SetSoFar m₀ r.1 (done ++ items) r.2) E
      (detachSet detach path m out items) := by
  induction items generalizing m done out with
  | nil =>
      rw [List.append_nil]
      exact ⟨hm, List.prefix_refl m, hout⟩
  | cons i rest ih =>
      rw [detachSet]
      refine (hd i List.mem_cons_self _ m hm).bind ?_
      rintro ⟨m₁, k⟩ ⟨hm₁, hp₁, hk⟩
      have hmem : i ∈ i :: rest := List.mem_cons_self
      have hassoc : done ++ i :: rest = (done ++ [i]) ++ rest := by simp
      dsimp only
      split
      · next hnone => exact hunhashable i hmem (copyKey_eq_none hk hnone)
      · next hsome =>
          have hnext := (hout.mono hm.wellFormed hp₁).add hm₀ hm₁
            (fun c hc ↦ hlt c (by rw [hassoc]; exact List.mem_append_left _ hc)) hk
            (Option.isSome_iff_ne_none.mpr fun h ↦ hsome (by rw [h]; rfl))
          rw [hassoc] at hlt ⊢
          refine (ih hlt (fun c hc ↦ hd c (List.mem_cons_of_mem _ hc))
            (fun c hc ↦ hunhashable c (List.mem_cons_of_mem _ hc)) hm₁ hnext).mono ?_ fun _ h ↦ h
          rintro ⟨m₂, ks⟩ ⟨hm₂, hp₂, hks⟩
          exact ⟨hm₂, hp₁.trans hp₂, hks⟩

theorem detachEntries_ends (repr : Memory → ℕ → String) (hm₀ : WellFormed m₀)
    {done entries out : List (ℕ × ℕ)} (hlt : ∀ e ∈ done ++ entries, e.1 < m₀.length)
    (hd : ∀ e ∈ entries, Detaches m₀ E detach e.1 ∧ Detaches m₀ E detach e.2)
    (hunhashable : ∀ e ∈ entries, copyKey m₀ e.1 = none → E (.unhashableKey path))
    (hm : Grown m₀ m) (hout : EntriesSoFar m₀ m done out) :
    Ends (fun r ↦ Grown m₀ r.1 ∧ m <+: r.1 ∧ EntriesSoFar m₀ r.1 (done ++ entries) r.2) E
      (detachEntries repr detach path m out entries) := by
  induction entries generalizing m done out with
  | nil =>
      rw [List.append_nil]
      exact ⟨hm, List.prefix_refl m, hout⟩
  | cons e rest ih =>
      have hmem : e ∈ e :: rest := List.mem_cons_self
      have hassoc : done ++ e :: rest = (done ++ [e]) ++ rest := by simp
      rw [detachEntries]
      refine ((hd e hmem).1 _ m hm).bind ?_
      rintro ⟨m₁, k⟩ ⟨hm₁, hp₁, hk⟩
      dsimp only
      split
      · next hnone => exact hunhashable e hmem (copyKey_eq_none hk hnone)
      · next hsome =>
          refine ((hd e hmem).2 _ m₁ hm₁).bind ?_
          rintro ⟨m₂, v⟩ ⟨hm₂, hp₂, hv⟩
          have hkey : (keyOf m₂ k).isSome = true := by
            rw [keyOf_of_growth hm₁.wellFormed hp₂ hk.lt]
            exact Option.isSome_iff_ne_none.mpr fun h ↦ hsome (by rw [h]; rfl)
          have hnext := (hout.mono hm.wellFormed (hp₁.trans hp₂)).store hm₀ hm₂
            (fun c hc ↦ hlt c (by rw [hassoc]; exact List.mem_append_left _ hc))
            (hk.mono hm₁.wellFormed hp₂) hv hkey
          rw [hassoc] at hlt ⊢
          refine (ih hlt (fun c hc ↦ hd c (List.mem_cons_of_mem _ hc))
            (fun c hc ↦ hunhashable c (List.mem_cons_of_mem _ hc)) hm₂ hnext).mono ?_ fun _ h ↦ h
          rintro ⟨m₃, o⟩ ⟨hm₃, hp₃, ho⟩
          exact ⟨hm₃, (hp₁.trans hp₂).trans hp₃, ho⟩

end Loops

/-! ## The run -/

section Run

variable {m₀ m m₁ : Memory} {i : ℕ} {o o' : Obj}

/-- A new object that is a copy of `i`. -/
theorem Returns.create (hm : Grown m₀ m₁) (hp : m <+: m₁) (ho : m₀[i]? = some o)
    (hrefs : ∀ c ∈ o'.refs, c < m₁.length)
    (hset : ∀ {kind : Kind} {items : List ℕ}, o' = .collection kind items →
      kind.unordered = true → Hashed m₁ items)
    (hdict : ∀ {out : List (ℕ × ℕ)}, o' = .mapping out → Hashed m₁ (out.map Prod.fst))
    (hdetachable : Detachable m₀ i)
    (hkey : (keyOf (m₁ ++ [o']) m₁.length).isSome = (copyKey m₀ i).isSome)
    (hcopy : SettledParts m₀ i → ∃ n, CopyStep true m₀.length (m₁ ++ [o'])
      (CopyOf true m₀.length (m₁ ++ [o']) n) i m₁.length o) :
    Returns m₀ m i (create m₁ o') where
  grown := hm.create hrefs hset hdict
  pre := hp.trans (List.prefix_append m₁ [o'])
  detached := by
    refine ⟨by simp [Isolation.create], hkey, hdetachable, ?_⟩
    intro hs
    obtain ⟨n, hn⟩ := hcopy hs
    have hget := getElem?_growth_of_eq_some (hm.pre.trans (List.prefix_append m₁ [o'])) ho
    exact ⟨n + 1, o, hget, hn⟩

theorem Detachable.of_no_parts (ho : m₀[i]? = some o) (hparts : o.parts = [])
    (hsupported : Supported m₀ i) : Detachable m₀ i := by
  refine .of_parts (fun c hc ↦ ?_) hsupported
  rw [points_iff_mem ho, hparts] at hc
  cases hc

/-- A new object without references that is a copy of one without parts. -/
theorem Returns.createLeaf (hm : Grown m₀ m) (ho : m₀[i]? = some o) (hparts : o.parts = [])
    (hrefs : o'.refs = []) (hnew : ∀ kind items, o' ≠ .collection kind items)
    (hdict : ∀ out, o' ≠ .mapping out) (hfrozen : o.isFrozenCollection = false)
    (hfrozen' : o'.isFrozenCollection = false) (hsupported : Supported m₀ i)
    (hkey : (hashLeaf o').isSome = (copyLeaf m₀ o).isSome)
    (hcopy : ∀ R, CopyStep true m₀.length (m ++ [o']) R i m.length o) :
    Returns m₀ m i (Isolation.create m o') := by
  have hget : (m ++ [o'])[m.length]? = some o' := List.getElem?_concat_length
  refine .create hm (List.prefix_refl m) ho ?_ (fun h ↦ absurd h (hnew _ _))
    (fun h ↦ absurd h (hdict _)) (.of_no_parts ho hparts hsupported) ?_ fun _ ↦ ⟨0, hcopy _⟩
  · rw [hrefs]
    nofun
  · rw [keyOf, keyAt_leaf hget hfrozen', copyKey, keyAt_leaf ho hfrozen, hkey]

/-- The items of a list or a tuple, and those of a set, have the keys of their copies. -/
theorem isSome_keyOf_collection {kind : Kind} {items out : List ℕ} (hm₀ : WellFormed m₀)
    (hm : WellFormed (m₁ ++ [.collection kind out])) (hwf : WellFormed m₁)
    (ho : m₀[i]? = some (.collection kind items))
    (hitems : kind = .tuple → List.Forall₂ (Detached m₀ m₁) items out) :
    (keyOf (m₁ ++ [.collection kind out]) m₁.length).isSome = (copyKey m₀ i).isSome := by
  have hget : (m₁ ++ [Obj.collection kind out])[m₁.length]? = some (.collection kind out) :=
    List.getElem?_concat_length
  have hp : m₁ <+: m₁ ++ [Obj.collection kind out] := List.prefix_append _ _
  cases kind with
  | list =>
      rw [keyOf, keyAt_leaf hget rfl, copyKey, keyAt_leaf ho rfl]
      rfl
  | set =>
      rw [keyOf, keyAt_leaf hget rfl, copyKey, keyAt_leaf ho rfl]
      rfl
  | frozenset =>
      rw [keyOf, keyAt_frozenset hm hget, copyKey, keyAt_frozenset hm₀ ho]
      rfl
  | tuple =>
      rw [keyOf, keyAt_tuple hm hget, copyKey, keyAt_tuple hm₀ ho, Option.isSome_map,
        Option.isSome_map, Bool.eq_iff_iff, isSome_mapM, isSome_mapM]
      have hkeys : List.Forall₂ (fun c d ↦ (copyKey m₀ c).isSome =
          (keyOf (m₁ ++ [Obj.collection .tuple out]) d).isSome) items out := by
        refine (hitems rfl).imp fun c d hcd ↦ ?_
        rw [keyOf_of_growth hwf hp hcd.lt, hcd.key]
      constructor
      · intro h c hc
        obtain ⟨d, hd, hcd⟩ := exists_of_forall₂_right hkeys.flip hc
        exact hcd.trans (h d hd)
      · intro h d hd
        obtain ⟨c, hc, hcd⟩ := exists_of_forall₂_right hkeys hd
        exact hcd.symm.trans (h c hc)

/-- What a part cannot be hashed for, its container is not supported. -/
theorem Refused.of_not_supported {active : List ℕ} {e : ContextError}
    (htype : e.isTypeError = true) (h : ¬ Supported m₀ i) : Refused m₀ active i e :=
  ⟨htype, .inr (.inr ⟨i, .refl, h⟩)⟩

variable {detach : String → Memory → ℕ → Outcome} {path : String} {active : List ℕ}

/-- The new dictionary is a copy of the mapping. -/
theorem detachMapping_ends (repr : Memory → ℕ → String) (hm₀ : WellFormed m₀) (hm : Grown m₀ m)
    {entries : List (ℕ × ℕ)} (ho : m₀[i]? = some (.mapping entries))
    (hd : ∀ c ∈ (Obj.mapping entries).parts, Detaches m₀ (Refused m₀ active i) detach c) :
    Ends (Returns m₀ m i) (Refused m₀ active i) (do
      let (m, out) ← detachEntries repr detach path m [] entries
      return create m (.mapping out)) := by
  have hpoints : ∀ c ∈ (Obj.mapping entries).parts, Points Obj.parts m₀ i c := fun c hc ↦
    (points_iff_mem ho).mpr hc
  have hempty : EntriesSoFar m₀ m [] [] := ⟨nofun, nofun, ⟨nofun, .nil⟩, fun _ _ ↦ .nil⟩
  have hlt : ∀ e ∈ [] ++ entries, e.1 < m₀.length := fun e he ↦
    hm₀.closed i e.1 ((points_iff_mem ho).mpr (Obj.parts_subset_refs _ _ (Obj.fst_mem_parts he)))
  refine (detachEntries_ends repr hm₀ hlt
    (fun e he ↦ ⟨hd _ (Obj.fst_mem_parts he), hd _ (Obj.snd_mem_parts he)⟩) ?_ hm hempty).bind ?_
  · intro e he hnone
    refine .of_not_supported rfl ?_
    rw [Supported, ho]
    intro hsupported
    have hkey := hsupported e he
    rw [hnone] at hkey
    cases hkey
  · rintro ⟨m₁, out⟩ ⟨hm₁, hp₁, hout⟩
    rw [List.nil_append] at hout
    have hsupported : Supported m₀ i := by
      rw [Supported, ho]
      exact fun e he ↦ (hout.detachable e he).2.2
    refine Returns.create hm₁ hp₁ ho ?_ nofun ?_ (.of_parts ?_ hsupported) ?_ ?_
    · intro c hc
      rcases List.mem_append.mp hc with hc | hc
      · obtain ⟨o, ho, rfl⟩ := List.mem_map.mp hc
        exact (hout.lt o ho).1
      · obtain ⟨o, ho, rfl⟩ := List.mem_map.mp hc
        exact (hout.lt o ho).2
    · rintro _ ⟨⟩
      exact hout.hashed
    · intro c hc
      rcases List.mem_append.mp ((points_iff_mem ho).mp hc) with hc | hc
      · obtain ⟨e, he, rfl⟩ := List.mem_map.mp hc
        exact (hout.detachable e he).1
      · obtain ⟨e, he, rfl⟩ := List.mem_map.mp hc
        exact (hout.detachable e he).2.1
    · have hget : (m₁ ++ [Obj.mapping out])[m₁.length]? = some (.mapping out) :=
        List.getElem?_concat_length
      rw [keyOf, keyAt_leaf hget rfl, copyKey, keyAt_leaf ho rfl]
      rfl
    · intro hs
      have hparts : ∀ e ∈ entries, SettledParts m₀ e.1 ∧ SettledParts m₀ e.2 := fun e he ↦
        ⟨hs.of_points (hpoints _ (Obj.fst_mem_parts he)),
          hs.of_points (hpoints _ (Obj.snd_mem_parts he))⟩
      have hne : (entries.map Prod.fst).Pairwise (Different m₀) := by
        simpa only [Settled, ho] using hs i .refl
      have hp : m₁ <+: m₁ ++ [Obj.mapping out] := List.prefix_append _ _
      have hcopies := (List.forall₂_and_left _ _).mpr ⟨hparts, hout.copied hparts hne⟩
      have hdepths : List.Forall₂ (fun e o ↦ ∃ n,
          CopyOf true m₀.length (m₁ ++ [Obj.mapping out]) n e.1 o.1 ∧
            CopyOf true m₀.length (m₁ ++ [Obj.mapping out]) n e.2 o.2) entries out := by
        refine hcopies.imp ?_
        rintro e o ⟨he, hk, hv⟩
        obtain ⟨n₁, hn₁⟩ := hk.copied he.1
        obtain ⟨n₂, hn₂⟩ := hv.copied he.2
        exact ⟨max n₁ n₂, (hn₁.mono (le_max_left _ _)).of_growth hp,
          (hn₂.mono (le_max_right _ _)).of_growth hp⟩
      obtain ⟨n, hn⟩ := exists_depth (fun n n' e o hn h ↦ ⟨h.1.mono hn, h.2.mono hn⟩) hdepths
      exact ⟨n, hm₁.pre.length_le, out, List.getElem?_concat_length, hn⟩

/-- A new collection of copies of the items is a copy of the collection. -/
theorem Returns.createCollection {kind : Kind} {items out : List ℕ} (hm₀ : WellFormed m₀)
    (hm₁ : Grown m₀ m₁) (hp₁ : m <+: m₁) (ho : m₀[i]? = some (.collection kind items))
    (hlt : ∀ c ∈ out, c < m₁.length) (hset : kind.unordered = true → Hashed m₁ out)
    (hdetachable : ∀ c ∈ items, Detachable m₀ c) (hsupported : Supported m₀ i)
    (hcopied : SettledParts m₀ i → List.Forall₂ (Detached m₀ m₁) items out)
    (htuple : kind = .tuple → List.Forall₂ (Detached m₀ m₁) items out) :
    Returns m₀ m i (Isolation.create m₁ (.collection kind out)) := by
  have hpoints : ∀ c ∈ items, Points Obj.parts m₀ i c := fun c hc ↦ (points_iff_mem ho).mpr hc
  have hset' : ∀ {kind' : Kind} {items' : List ℕ},
      Obj.collection kind out = .collection kind' items' → kind'.unordered = true →
        Hashed m₁ items' := by
    rintro _ _ ⟨⟩ hkind
    exact hset hkind
  have hm₂ := hm₁.wellFormed.create (o := .collection kind out) hlt hset'
  refine Returns.create hm₁ hp₁ ho hlt hset' nofun (.of_parts ?_ hsupported)
    (isSome_keyOf_collection hm₀ hm₂ hm₁.wellFormed ho htuple) ?_
  · intro c hc
    exact hdetachable c ((points_iff_mem ho).mp hc)
  · intro hs
    have hparts : ∀ c ∈ items, SettledParts m₀ c := fun c hc ↦ hs.of_points (hpoints c hc)
    have hp : m₁ <+: m₁ ++ [Obj.collection kind out] := List.prefix_append _ _
    have hcopies := (List.forall₂_and_left _ _).mpr ⟨hparts, hcopied hs⟩
    have hdepths : List.Forall₂ (fun c d ↦ ∃ n,
        CopyOf true m₀.length (m₁ ++ [Obj.collection kind out]) n c d) items out := by
      refine hcopies.imp ?_
      rintro c d ⟨hc, hd⟩
      obtain ⟨n, hn⟩ := hd.copied hc
      exact ⟨n, hn.of_growth hp⟩
    obtain ⟨n, hn⟩ := exists_depth (fun n n' c d hn h ↦ h.mono hn) hdepths
    exact ⟨n, hm₁.pre.length_le, out, List.getElem?_concat_length, hn⟩

theorem detachCollection_ends (hm₀ : WellFormed m₀) (hm : Grown m₀ m) {kind : Kind}
    {items : List ℕ} (ho : m₀[i]? = some (.collection kind items))
    (hd : ∀ c ∈ items, Detaches m₀ (Refused m₀ active i) detach c) :
    Ends (Returns m₀ m i) (Refused m₀ active i) (do
      let (m, out) ←
        if kind.unordered then detachSet detach path m [] items
        else detachItems detach path 0 m items
      return create m (.collection kind out)) := by
  have hlt : ∀ c ∈ [] ++ items, c < m₀.length := fun c hc ↦
    hm₀.closed i c ((points_iff_mem ho).mpr hc)
  split
  · next hkind =>
      have hempty : SetSoFar m₀ m [] [] := ⟨nofun, nofun, ⟨nofun, .nil⟩, fun _ _ ↦ .nil⟩
      refine (detachSet_ends hm₀ hlt hd ?_ hm hempty).bind ?_
      · intro c hc hnone
        refine .of_not_supported rfl ?_
        rw [Supported, ho]
        intro hsupported
        have hkey := hsupported hkind c hc
        rw [hnone] at hkey
        cases hkey
      · rintro ⟨m₁, out⟩ ⟨hm₁, hp₁, hout⟩
        rw [List.nil_append] at hout
        refine Returns.createCollection hm₀ hm₁ hp₁ ho hout.lt (fun _ ↦ hout.hashed)
          (fun c hc ↦ (hout.detachable c hc).1) ?_ ?_ ?_
        · rw [Supported, ho]
          exact fun _ c hc ↦ (hout.detachable c hc).2
        · intro hs
          refine hout.copied (fun c hc ↦ hs.of_points ((points_iff_mem ho).mpr hc)) ?_
          have hsettled := hs i .refl
          rw [Settled, ho] at hsettled
          exact hsettled hkind
        · rintro rfl
          cases hkind
  · next hkind =>
      refine (detachItems_ends hd hm).bind ?_
      rintro ⟨m₁, out⟩ ⟨hm₁, hp₁, hout⟩
      refine Returns.createCollection hm₀ hm₁ hp₁ ho ?_ (fun h ↦ absurd h hkind) ?_ ?_
        (fun _ ↦ hout) fun _ ↦ hout
      · intro d hd
        obtain ⟨c, -, hcd⟩ := exists_of_forall₂_right hout hd
        exact hcd.lt
      · intro c hc
        obtain ⟨d, -, hcd⟩ := exists_of_forall₂_right hout.flip hc
        exact hcd.detachable
      · rw [Supported, ho]
        exact fun h ↦ absurd h hkind

variable (R : Runtime) (repr : Memory → ℕ → String)

/-- A run that has not gone too deep ends, and what it returns and raises is what has been said. -/
theorem detachValue_ends (hm₀ : WellFormed m₀) {n : ℕ} (hm : Grown m₀ m) (hi : i < m₀.length)
    (hactive : active.Nodup) (hlt : ∀ a ∈ active, a < m₀.length)
    (hn : m₀.length < n + active.length) :
    Ends (Returns m₀ m i) (Refused m₀ active i) (detachValue R repr n path active m i) := by
  induction n generalizing path active m i with
  | zero =>
      have hsub : active ⊆ List.range m₀.length := fun a ha ↦ List.mem_range.mpr (hlt a ha)
      have hlength := (hactive.subperm hsub).length_le
      rw [List.length_range] at hlength
      omega
  | succ n ih =>
      obtain ⟨o, ho⟩ : ∃ o, m₀[i]? = some o := ⟨_, List.getElem?_eq_getElem hi⟩
      have hparts : i ∉ active → ∀ c ∈ o.parts, Detaches m₀ (Refused m₀ active i)
          (fun p ↦ detachValue R repr n p (i :: active)) c := by
        intro hmem c hc path' m' hm'
        have hpoints : Points Obj.parts m₀ i c := (points_iff_mem ho).mpr hc
        have hc' : c < m₀.length :=
          hm₀.closed i c ((points_iff_mem ho).mpr (o.parts_subset_refs c hc))
        refine (ih hm' hc' (List.nodup_cons.mpr ⟨hmem, hactive⟩) ?_ ?_).mono
          (fun _ h ↦ h) fun e he ↦ he.of_part hpoints
        · rintro a (_ | ⟨_, ha⟩)
          · exact hi
          · exact hlt a ha
        · rw [List.length_cons]
          omega
      have hget := (getElem?_of_growth hm.pre hi).trans ho
      rw [detachValue, hget]
      cases o with
      | scalar s =>
          refine ⟨hm, List.prefix_refl m, lt_of_lt_of_le hi hm.pre.length_le, ?_,
            .of_no_parts ho rfl ?_, fun _ ↦ ⟨1, _, hget, rfl⟩⟩
          · rw [keyOf, keyAt_leaf hget rfl, copyKey, keyAt_leaf ho rfl]
            rfl
          · rw [Supported, ho]
            trivial
      | generic key item =>
          have hitem : item < m₀.length :=
            hm₀.closed i item ((points_iff_mem ho).mpr List.mem_cons_self)
          refine ⟨hm, List.prefix_refl m, lt_of_lt_of_le hitem hm.pre.length_le, ?_,
            .of_no_parts ho rfl ?_, fun _ ↦ ⟨1, _, hget, rfl, rfl⟩⟩
          · rw [copyKey, keyAt_leaf ho rfl, keyOf_of_growth hm₀ hm.pre hitem]
            rfl
          · rw [Supported, ho]
            trivial
      | buffer bytes =>
          refine Returns.createLeaf hm ho rfl rfl nofun nofun rfl rfl
            (by rw [Supported, ho]; trivial) rfl
            fun _ ↦ ⟨rfl, hm.pre.length_le, List.getElem?_concat_length⟩
      | dataRef ref =>
          simp only [detachDataRef_eq]
          refine Returns.createLeaf hm ho rfl rfl nofun nofun rfl rfl
            (by rw [Supported, ho]; trivial) rfl
            fun _ ↦ ⟨hm.pre.length_le, List.getElem?_concat_length⟩
      | stateRef ref =>
          simp only [detachStateRef_eq]
          refine Returns.createLeaf hm ho rfl rfl nofun nofun rfl rfl
            (by rw [Supported, ho]; trivial) rfl
            fun _ ↦ ⟨hm.pre.length_le, List.getElem?_concat_length⟩
      | array contents objects =>
          cases objects with
          | none =>
              exact Returns.createLeaf hm ho rfl rfl nofun nofun rfl rfl (by rw [Supported, ho])
                rfl fun _ ↦ ⟨rfl, hm.pre.length_le, List.getElem?_concat_length⟩
          | some items =>
              refine .of_not_supported rfl ?_
              rw [Supported, ho]
              nofun
      | mapping entries =>
          show Ends _ _ (detachContainer repr (detachValue R repr n) path active m i)
          rw [detachContainer]
          split
          · next hmem => exact ⟨rfl, .inl ⟨i, hmem, .refl⟩⟩
          · next hmem =>
              rw [hget]
              exact detachMapping_ends repr hm₀ hm ho (hparts hmem)
      | collection kind items =>
          show Ends _ _ (detachContainer repr (detachValue R repr n) path active m i)
          rw [detachContainer]
          split
          · next hmem => exact ⟨rfl, .inl ⟨i, hmem, .refl⟩⟩
          · next hmem =>
              rw [hget]
              exact detachCollection_ends hm₀ hm ho (hparts hmem)
      | other key type =>
          refine .of_not_supported rfl ?_
          rw [Supported, ho]
          exact id

end Run

end Blackbase.Context.Isolation
