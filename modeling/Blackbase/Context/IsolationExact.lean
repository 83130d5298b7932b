import Blackbase.Context.IsolationRun

/-!
# When Context isolation is total, closed and unshared

The copy of a value is accepted again, equal, and shares nothing mutable with the value, if and
only if the NumPy scalars in the value give plain Python values, and what is hashed stays
different when it is converted.
-/

namespace Blackbase.Context.Isolation

open Attempt ObjectGraph
open Project.Envelope (Runtime)

/-! ## The property -/

/-- `j` is a copy of `i` made of objects from `b` on. -/
def Copied (converts : Bool) (b : ℕ) (m : Memory) (i j : ℕ) : Prop :=
  ∃ n, CopyOf converts b m n i j

/-- No mutable container or array can be reached from both. -/
def Unshared (m : Memory) (i j : ℕ) : Prop :=
  ∀ q o, m[q]? = some o → o.isMutable = true → Reaches Obj.refs m j q → ¬ Reaches Obj.refs m i q

/-- Context isolation is total, closed and unshared on a value. -/
structure Isolated (R : Runtime) (repr : Memory → ℕ → String) (path : String) (v : Value) :
    Prop where
  /-- The recursion ends. -/
  ends : detachContextValue R repr path v ≠ .error .outOfFuel
  /-- A cyclic value is rejected. -/
  cyclic : Cyclic Obj.refs v.memory v.root →
    ∃ e, detachContextValue R repr path v = .error e ∧ e.isTypeError = true
  /-- Any other value whose parts are supported is accepted, whatever it shares. -/
  sharing : ¬ Cyclic Obj.refs v.memory v.root →
    (∀ p, Reaches Obj.parts v.memory v.root p → Supported v.memory p) →
      ∃ r, detachContextValue R repr path v = .ok r
  /-- The copy of an accepted value equals it up to conversions and shares nothing mutable with
  it, and is accepted with a copy that equals it without any. -/
  accepted : ∀ r, detachContextValue R repr path v = .ok r →
    Copied true v.memory.length r.1 v.root r.2 ∧ Unshared r.1 v.root r.2 ∧
      ∃ w : Value, (w.memory, w.root) = r ∧
        ∃ r', detachContextValue R repr path w = .ok r' ∧
          Copied false w.memory.length r'.1 w.root r'.2

/-! ## Plain values -/

/-- An object as a copy consists of. -/
def Plain (m : Memory) (i : ℕ) : Prop :=
  match m[i]? with
  | some (.scalar _) | some (.dataRef _) | some (.stateRef _) | some (.collection _ _) => True
  | some (.array _ objects) => objects = none
  | some (.mapping entries) => Hashed m (entries.map Prod.fst)
  | _ => False

/-- All the parts of the object are plain. -/
def PlainParts (m : Memory) (i : ℕ) : Prop := ∀ q, Reaches Obj.parts m i q → Plain m q

section Plain

variable {m m' : Memory} {i j c : ℕ}

theorem PlainParts.of_points (h : PlainParts m i) (hc : Points Obj.parts m i c) :
    PlainParts m c := fun q hq ↦ h q (.head hc hq)

/-- What is hashed of a plain object is what will be hashed of its copy. -/
theorem PlainParts.copyKey_eq (hm : WellFormed m) (h : PlainParts m i) :
    copyKey m i = keyOf m i := by
  induction i using Nat.strongRecOn with
  | _ i ih =>
      have hi := h i .refl
      cases ho : m[i]? with
      | none =>
          rw [Plain, ho] at hi
          exact hi.elim
      | some o =>
          rw [Plain, ho] at hi
          cases o with
          | collection kind items =>
              have hitems : kind.frozen = true → ∀ c ∈ items, copyKey m c = keyOf m c :=
                fun hkind c hc ↦ ih c (hm.earlier ho hkind c hc)
                  (h.of_points ((points_iff_mem ho).mpr hc))
              cases kind with
              | tuple =>
                  rw [copyKey, keyAt_tuple hm ho, keyOf, keyAt_tuple hm ho]
                  exact congrArg (Option.map Key.tuple) (mapM_congr (hitems rfl))
              | frozenset =>
                  rw [copyKey, keyAt_frozenset hm ho, keyOf, keyAt_frozenset hm ho]
                  exact congrArg (some ∘ Key.frozenset) (List.filterMap_congr (hitems rfl))
              | list =>
                  rw [copyKey, keyAt_leaf ho rfl, keyOf, keyAt_leaf ho rfl]
                  rfl
              | set =>
                  rw [copyKey, keyAt_leaf ho rfl, keyOf, keyAt_leaf ho rfl]
                  rfl
          | generic key item => exact hi.elim
          | buffer bytes => exact hi.elim
          | other key type => exact hi.elim
          | scalar s =>
              rw [copyKey, keyAt_leaf ho rfl, keyOf, keyAt_leaf ho rfl]
              rfl
          | dataRef ref =>
              rw [copyKey, keyAt_leaf ho rfl, keyOf, keyAt_leaf ho rfl]
              rfl
          | stateRef ref =>
              rw [copyKey, keyAt_leaf ho rfl, keyOf, keyAt_leaf ho rfl]
              rfl
          | array contents objects =>
              rw [copyKey, keyAt_leaf ho rfl, keyOf, keyAt_leaf ho rfl]
              rfl
          | mapping entries =>
              rw [copyKey, keyAt_leaf ho rfl, keyOf, keyAt_leaf ho rfl]
              rfl

/-- Different keys of plain objects have different copies. -/
theorem different_of_sameKey (hm : WellFormed m) (hi : PlainParts m i) (hj : PlainParts m j)
    (hne : sameKey m i j = false) : Different m i j := by
  intro k l hk hl
  rw [hi.copyKey_eq hm] at hk
  rw [hj.copyKey_eq hm] at hl
  rw [sameKey, hk, hl] at hne
  exact hne

theorem Hashed.pairwise_different (hm : WellFormed m) {items : List ℕ} (h : Hashed m items)
    (hplain : ∀ c ∈ items, PlainParts m c) : items.Pairwise (Different m) :=
  h.distinct.imp_of_mem fun hi hj hne ↦ different_of_sameKey hm (hplain _ hi) (hplain _ hj) hne

/-- A plain object is supported and settled. -/
theorem PlainParts.supported_settled (hm : WellFormed m) (h : PlainParts m i) :
    Supported m i ∧ Settled m i := by
  have hi := h i .refl
  cases ho : m[i]? with
  | none =>
      rw [Plain, ho] at hi
      exact hi.elim
  | some o =>
      have hparts : ∀ c ∈ o.parts, PlainParts m c := fun c hc ↦
        h.of_points ((points_iff_mem ho).mpr hc)
      rw [Plain, ho] at hi
      rw [Supported, Settled, ho]
      cases o with
      | scalar s => exact ⟨trivial, trivial⟩
      | dataRef ref => exact ⟨trivial, trivial⟩
      | stateRef ref => exact ⟨trivial, trivial⟩
      | array contents objects => exact ⟨hi, trivial⟩
      | mapping entries =>
          have hkeys : ∀ c ∈ entries.map Prod.fst, PlainParts m c := fun c hc ↦
            hparts c (List.mem_append_left _ hc)
          constructor
          · intro e he
            have hmem := List.mem_map_of_mem (f := Prod.fst) he
            rw [(hkeys _ hmem).copyKey_eq hm]
            exact hi.hashable _ hmem
          · exact hi.pairwise_different hm hkeys
      | collection kind items =>
          constructor
          · intro hkind c hc
            rw [(hparts c hc).copyKey_eq hm]
            exact (hm.hashed ho hkind).hashable c hc
          · intro hkind
            exact (hm.hashed ho hkind).pairwise_different hm hparts
      | generic key item => exact hi.elim
      | buffer bytes => exact hi.elim
      | other key type => exact hi.elim

theorem PlainParts.of_reaches {q : ℕ} (h : PlainParts m i) (hq : Reaches Obj.parts m i q) :
    PlainParts m q := fun p hp ↦ h p (hq.trans hp)

theorem PlainParts.detachable (hm : WellFormed m) (h : PlainParts m i)
    (hi : Grounded Obj.parts m i) : Detachable m i where
  grounded := hi
  supported _ hq := ((h.of_reaches hq).supported_settled hm).1

theorem PlainParts.settledParts (hm : WellFormed m) (h : PlainParts m i) : SettledParts m i :=
  fun _ hq ↦ ((h.of_reaches hq).supported_settled hm).2

/-- A plain object has no references other than to its parts. -/
theorem PlainParts.reaches_parts {q : ℕ} (h : PlainParts m i) (hq : Reaches Obj.refs m i q) :
    Reaches Obj.parts m i q := by
  induction hq with
  | refl => exact .refl
  | @tail p q _ hpq ih =>
      refine ih.tail ?_
      obtain ⟨o, ho, hq⟩ := hpq
      have hp := h p ih
      rw [Plain, ho] at hp
      refine ⟨o, ho, ?_⟩
      cases o with
      | generic key item => exact hp.elim
      | array contents objects =>
          obtain rfl : objects = none := hp
          cases hq
      | scalar s => exact hq
      | buffer bytes => exact hq
      | dataRef ref => exact hq
      | stateRef ref => exact hq
      | mapping entries => exact hq
      | collection kind items => exact hq
      | other key type => exact hq

/-- Nothing of a plain object is converted. -/
theorem CopyOf.of_plainParts {b n : ℕ} (h : CopyOf true b m' n i j) (hm : WellFormed m)
    (hp : m <+: m') (hi : i < m.length) (hplain : PlainParts m i) : CopyOf false b m' n i j := by
  induction n generalizing i j with
  | zero => exact h
  | succ n ih =>
      obtain ⟨o, ho, hstep⟩ := h
      refine ⟨o, ho, ?_⟩
      rw [getElem?_of_growth hp hi] at ho
      have hi' := hplain i .refl
      rw [Plain, ho] at hi'
      have hparts : ∀ c ∈ o.parts, ∀ d, CopyOf true b m' n c d → CopyOf false b m' n c d := by
        intro c hc d hcd
        have hpoints : Points Obj.parts m i c := (points_iff_mem ho).mpr hc
        exact ih hcd (hm.closed i c ((points_iff_mem ho).mpr (o.parts_subset_refs c hc)))
          (hplain.of_points hpoints)
      cases o with
      | scalar s => exact hstep
      | dataRef ref => exact hstep
      | stateRef ref => exact hstep
      | array contents objects => exact hstep
      | mapping entries =>
          obtain ⟨hb, out, hj, hout⟩ := hstep
          refine ⟨hb, out, hj, ?_⟩
          have hmem : ∀ e ∈ entries, e ∈ entries := fun _ he ↦ he
          refine ((List.forall₂_and_left _ _).mpr ⟨hmem, hout⟩).imp fun e o h ↦ ?_
          exact ⟨hparts _ (Obj.fst_mem_parts h.1) _ h.2.1, hparts _ (Obj.snd_mem_parts h.1) _ h.2.2⟩
      | collection kind items =>
          obtain ⟨hb, out, hj, hout⟩ := hstep
          refine ⟨hb, out, hj, ?_⟩
          have hmem : ∀ c ∈ items, c ∈ items := fun _ hc ↦ hc
          exact ((List.forall₂_and_left _ _).mpr ⟨hmem, hout⟩).imp fun c d h ↦ hparts c h.1 d h.2
      | generic key item => exact hi'.elim
      | buffer bytes => exact hi'.elim
      | other key type => exact hstep

end Plain

/-! ## The copies of settled values -/

/-- The object is a copy that is complete: it is in no cycle, it consists of plain objects, and
those that are mutable are new. -/
structure Complete (b : ℕ) (m : Memory) (j : ℕ) : Prop where
  grounded : Grounded Obj.parts m j
  plain : PlainParts m j
  new : ∀ q o, m[q]? = some o → o.isMutable = true → Reaches Obj.parts m j q → b ≤ q

section Complete

variable {b : ℕ} {m₀ m : Memory} {i j n : ℕ}

theorem Complete.of_parts {o : Obj} (ho : m[j]? = some o) (hplain : Plain m j)
    (hnew : o.isMutable = true → b ≤ j) (hparts : ∀ c ∈ o.parts, Complete b m c) :
    Complete b m j where
  grounded := grounded_of_points fun c hc ↦ (hparts c ((points_iff_mem ho).mp hc)).grounded
  plain q hq := by
    rcases Relation.ReflTransGen.cases_head hq with rfl | ⟨c, hc, hreach⟩
    · exact hplain
    · exact (hparts c ((points_iff_mem ho).mp hc)).plain q hreach
  new q o' hq hmutable hreach := by
    rcases Relation.ReflTransGen.cases_head hreach with rfl | ⟨c, hc, hreach⟩
    · rw [ho] at hq
      obtain rfl := Option.some.inj hq
      exact hnew hmutable
    · exact (hparts c ((points_iff_mem ho).mp hc)).new q o' hq hmutable hreach

theorem Complete.of_no_parts {o : Obj} (ho : m[j]? = some o) (hplain : Plain m j)
    (hparts : o.parts = []) (hmutable : o.isMutable = false) : Complete b m j := by
  refine .of_parts ho hplain (fun h ↦ ?_) fun c hc ↦ ?_
  · rw [hmutable] at h
    cases h
  · rw [hparts] at hc
    cases hc

/-- What can be reached from an inert object is complete, whatever is new. -/
theorem Inert.complete (hm₀ : WellFormed m₀) (hp : m₀ <+: m) (hi : i < m₀.length)
    (h : Inert m₀ i) : Complete b m i := by
  induction i using Nat.strongRecOn with
  | _ i ih =>
      obtain ⟨o, ho, hstill⟩ := h i .refl
      have hget := getElem?_growth_of_eq_some hp ho
      cases o with
      | scalar s => exact .of_no_parts hget (by rw [Plain, hget]; trivial) rfl rfl
      | dataRef ref => exact .of_no_parts hget (by rw [Plain, hget]; trivial) rfl rfl
      | stateRef ref => exact .of_no_parts hget (by rw [Plain, hget]; trivial) rfl rfl
      | collection kind items =>
          have hfrozen : kind.frozen = true := hstill
          refine .of_parts hget (by rw [Plain, hget]; trivial) ?_ fun c hc ↦ ?_
          · intro hmutable
            rw [Obj.isMutable, hfrozen] at hmutable
            cases hmutable
          · have hpoints : Points Obj.refs m₀ i c := (points_iff_mem ho).mpr hc
            exact ih c (hm₀.earlier ho hfrozen c hc) (hm₀.closed i c hpoints)
              fun p hp ↦ h p (.head hpoints hp)
      | generic key item => cases hstill
      | buffer bytes => cases hstill
      | array contents objects => cases hstill
      | mapping entries => cases hstill
      | other key type => cases hstill

/-- An object that is inert is in no cycle. -/
theorem Inert.grounded (hm₀ : WellFormed m₀) (h : Inert m₀ i) : Grounded Obj.refs m₀ i := by
  refine grounded_of_earlier fun p hp q hq ↦ ?_
  obtain ⟨o, ho, hstill⟩ := h p hp
  rw [points_iff_mem ho] at hq
  cases o with
  | collection kind items => exact hm₀.earlier ho hstill q hq
  | scalar s => cases hq
  | dataRef ref => cases hq
  | stateRef ref => cases hq
  | generic key item => cases hstill
  | buffer bytes => cases hstill
  | array contents objects => cases hstill
  | mapping entries => cases hstill
  | other key type => cases hstill

/-- The copy of a settled value is complete. -/
theorem CopyOf.complete (h : CopyOf true m₀.length m n i j) (hm₀ : WellFormed m₀)
    (hm : Grown m₀ m) (hi : i < m₀.length) (hs : SettledParts m₀ i) :
    Complete m₀.length m j := by
  induction n generalizing i j with
  | zero => exact h.elim
  | succ n ih =>
      obtain ⟨o, ho, hstep⟩ := h
      rw [getElem?_of_growth hm.pre hi] at ho
      have hparts : ∀ c ∈ o.parts, ∀ d, CopyOf true m₀.length m n c d →
          Complete m₀.length m d := by
        intro c hc d hcd
        exact ih hcd (hm₀.closed i c ((points_iff_mem ho).mpr (o.parts_subset_refs c hc)))
          (hs.of_points ((points_iff_mem ho).mpr hc))
      cases o with
      | scalar s =>
          obtain rfl : i = j := hstep
          have hget := getElem?_growth_of_eq_some hm.pre ho
          exact .of_no_parts hget (by rw [Plain, hget]; trivial) rfl rfl
      | generic key item =>
          obtain ⟨-, rfl⟩ := hstep
          have hitem := hs i .refl
          rw [Settled, ho] at hitem
          exact hitem.complete hm₀ hm.pre
            (hm₀.closed i item ((points_iff_mem ho).mpr List.mem_cons_self))
      | buffer bytes =>
          obtain ⟨-, -, hget⟩ := hstep
          exact .of_no_parts hget (by rw [Plain, hget]; trivial) rfl rfl
      | dataRef ref =>
          exact .of_no_parts hstep.2 (by rw [Plain, hstep.2]; trivial) rfl rfl
      | stateRef ref =>
          exact .of_no_parts hstep.2 (by rw [Plain, hstep.2]; trivial) rfl rfl
      | array contents objects =>
          obtain ⟨-, hb, hget⟩ := hstep
          exact .of_parts hget (by rw [Plain, hget]) (fun _ ↦ hb) (List.forall_mem_nil _)
      | mapping entries =>
          obtain ⟨hb, out, hget, hout⟩ := hstep
          refine .of_parts hget (by rw [Plain, hget]; exact hm.built hb hget) (fun _ ↦ hb) ?_
          intro d hd
          have hmem : ∀ e ∈ entries, e ∈ entries := fun _ he ↦ he
          have hout := (List.forall₂_and_left _ _).mpr ⟨hmem, hout⟩
          rcases List.mem_append.mp hd with hd | hd
          · obtain ⟨o, ho, rfl⟩ := List.mem_map.mp hd
            obtain ⟨e, -, he, heo⟩ := exists_of_forall₂_right hout ho
            exact hparts _ (Obj.fst_mem_parts he) _ heo.1
          · obtain ⟨o, ho, rfl⟩ := List.mem_map.mp hd
            obtain ⟨e, -, he, heo⟩ := exists_of_forall₂_right hout ho
            exact hparts _ (Obj.snd_mem_parts he) _ heo.2
      | collection kind items =>
          obtain ⟨hb, out, hget, hout⟩ := hstep
          refine .of_parts hget (by rw [Plain, hget]; trivial) (fun _ ↦ hb) ?_
          intro d hd
          obtain ⟨c, hc, hcd⟩ := exists_of_forall₂_right hout hd
          exact hparts c hc d hcd
      | other key type => exact hstep.elim

/-- What is mutable in a complete copy is not in the original. -/
theorem Complete.unshared (h : Complete m₀.length m j) (hm₀ : WellFormed m₀) (hp : m₀ <+: m)
    (hi : i < m₀.length) : Unshared m i j := by
  intro q o hq hmutable hj hiq
  have hnew := h.new q o hq hmutable (h.plain.reaches_parts hj)
  have hold := hm₀.closed.reaches_lt hi ((hm₀.closed.reaches_iff_of_growth hp hi).mp hiq)
  omega

/-- A settled value without a cycle through its parts has no cycle at all. -/
theorem grounded_refs (hm₀ : WellFormed m₀) (hi : Detachable m₀ i) (hs : SettledParts m₀ i) :
    Grounded Obj.refs m₀ i := by
  have hgrounded := hi.grounded
  induction hgrounded with
  | intro i _ ih =>
      refine grounded_of_points fun c hc ↦ ?_
      obtain ⟨o, ho, hc⟩ := hc
      have hpart : c ∈ o.parts → Grounded Obj.refs m₀ c := by
        intro hmem
        have hpoints : Points Obj.parts m₀ i c := (points_iff_mem ho).mpr hmem
        refine ih c hpoints ⟨hi.grounded.inv hpoints, ?_⟩ (hs.of_points hpoints)
        exact fun p hp ↦ hi.supported p (.head hpoints hp)
      cases o with
      | generic key item =>
          obtain rfl := List.mem_singleton.mp hc
          have hitem := hs i .refl
          rw [Settled, ho] at hitem
          exact hitem.grounded hm₀
      | array contents objects =>
          have hobjects := hi.supported i .refl
          rw [Supported, ho] at hobjects
          obtain rfl : objects = none := hobjects
          cases hc
      | scalar s => cases hc
      | buffer bytes => cases hc
      | dataRef ref => cases hc
      | stateRef ref => cases hc
      | mapping entries => exact hpart hc
      | collection kind items => exact hpart hc
      | other key type => cases hc

end Complete

/-! ## What isolation needs -/

section Needed

variable {b : ℕ} {m₀ m m' : Memory} {i j k n n' : ℕ}

/-- An object that can be copied without a conversion, and from which nothing mutable can be
reached, is inert. -/
theorem inert_of_copyOf (h : CopyOf false b m n j k) (hm₀ : WellFormed m₀) (hp : m₀ <+: m)
    (hj : j < m₀.length)
    (hfree : ∀ q o, m₀[q]? = some o → o.isMutable = true → ¬ Reaches Obj.refs m₀ j q) :
    Inert m₀ j := by
  induction n generalizing j k with
  | zero => exact h.elim
  | succ n ih =>
      obtain ⟨o, ho, hstep⟩ := h
      rw [getElem?_of_growth hp hj] at ho
      have hmutable : o.isMutable = true → False := fun h ↦ hfree j o ho h .refl
      have hleaf : o.refs = [] → o.isStill = true → Inert m₀ j := by
        intro hrefs hstill p hp
        rcases Relation.ReflTransGen.cases_head hp with rfl | ⟨c, hc, -⟩
        · exact ⟨o, ho, hstill⟩
        · rw [points_iff_mem ho, hrefs] at hc
          cases hc
      cases o with
      | scalar s => exact hleaf rfl rfl
      | dataRef ref => exact hleaf rfl rfl
      | stateRef ref => exact hleaf rfl rfl
      | generic key item => cases hstep.1
      | buffer bytes => cases hstep.1
      | array contents objects => exact (hmutable rfl).elim
      | mapping entries => exact (hmutable rfl).elim
      | collection kind items =>
          have hfrozen : kind.frozen = true := by
            cases hkind : kind.frozen with
            | true => rfl
            | false => exact (hmutable (by rw [Obj.isMutable, hkind]; rfl)).elim
          obtain ⟨-, out, -, hout⟩ := hstep
          intro p hp
          rcases Relation.ReflTransGen.cases_head hp with rfl | ⟨c, hc, hreach⟩
          · exact ⟨_, ho, hfrozen⟩
          · obtain ⟨d, -, hcd⟩ := exists_of_forall₂_right hout.flip ((points_iff_mem ho).mp hc)
            exact ih hcd (hm₀.closed j c hc)
              (fun q o hq hmutable hcq ↦ hfree q o hq hmutable (.head hc hcq)) p hreach
      | other key type => exact hstep.elim

/-- Where the copies are different keys, the originals will be. -/
theorem pairwise_different_of_copies {items out : List ℕ}
    (h : List.Forall₂ (fun c d ↦ copyKey m₀ c = keyOf m d) items out)
    (hne : out.Pairwise fun d d' ↦ sameKey m d d' = false) : items.Pairwise (Different m₀) := by
  induction h with
  | nil => exact .nil
  | @cons c d items out hcd hrest ih =>
      obtain ⟨hd, hout⟩ := List.pairwise_cons.mp hne
      refine List.pairwise_cons.mpr ⟨fun c' hc' ↦ ?_, ih hout⟩
      obtain ⟨d', hd', hcd'⟩ := exists_of_forall₂_right hrest.flip hc'
      intro key key' hkey hkey'
      have hfalse := hd d' hd'
      rw [sameKey, ← hcd, ← hcd', hkey, hkey'] at hfalse
      exact hfalse

theorem Unshared.of_points {c d : ℕ} (h : Unshared m i j) (hc : Points Obj.refs m i c)
    (hd : Points Obj.refs m j d) : Unshared m c d := fun q o hq hmutable hdq hcq ↦
  h q o hq hmutable (.head hd hdq) (.head hc hcq)

/-- A value is settled whose copy shares nothing mutable with it, and has a copy itself for which
nothing is converted. -/
theorem settledParts_of_copyOf (h : CopyOf true m₀.length m n i j) (hm₀ : WellFormed m₀)
    (hm : Grown m₀ m) (hi : i < m₀.length) (hun : Unshared m i j) (hp : m <+: m')
    (hcopy : CopyOf false b m' n' j k) : SettledParts m₀ i := by
  induction n generalizing i j k n' with
  | zero => exact h.elim
  | succ n ih =>
      have hwhole := h
      obtain ⟨o, ho, hstep⟩ := h
      rw [getElem?_of_growth hm.pre hi] at ho
      have hgetm := getElem?_growth_of_eq_some hm.pre ho
      -- the parts are settled as soon as each has a copy that has one in turn
      have hparts : Settled m₀ i → (∀ c ∈ o.parts, ∃ d l n', Points Obj.refs m j d ∧
          CopyOf true m₀.length m n c d ∧ CopyOf false b m' n' d l) → SettledParts m₀ i := by
        intro hsettled hcopies p hp
        rcases Relation.ReflTransGen.cases_head hp with rfl | ⟨c, hc, hreach⟩
        · exact hsettled
        · have hmem := (points_iff_mem ho).mp hc
          obtain ⟨d, l, n', hd, hcd, hdl⟩ := hcopies c hmem
          have hrefs := o.parts_subset_refs c hmem
          exact ih hcd (hm₀.closed i c ((points_iff_mem ho).mpr hrefs))
            (hun.of_points ((points_iff_mem hgetm).mpr hrefs) hd) hdl p hreach
      obtain ⟨n', rfl⟩ : ∃ l, n' = l + 1 := by
        cases n' with
        | zero => exact hcopy.elim
        | succ l => exact ⟨l, rfl⟩
      have hkeys : ∀ {c d : ℕ}, c ∈ o.parts → CopyOf true m₀.length m n c d →
          copyKey m₀ c = keyOf m d := by
        intro c d hc hcd
        have hrefs := o.parts_subset_refs c hc
        exact (hcd.keyOf_eq hm₀ hm.wellFormed hm.pre
          (hm₀.closed i c ((points_iff_mem ho).mpr hrefs))).symm
      cases o with
      | scalar s => exact hparts (by rw [Settled, ho]; trivial) (List.forall_mem_nil _)
      | buffer bytes => exact hparts (by rw [Settled, ho]; trivial) (List.forall_mem_nil _)
      | dataRef ref => exact hparts (by rw [Settled, ho]; trivial) (List.forall_mem_nil _)
      | stateRef ref => exact hparts (by rw [Settled, ho]; trivial) (List.forall_mem_nil _)
      | array contents objects =>
          exact hparts (by rw [Settled, ho]; trivial) (List.forall_mem_nil _)
      | generic key item =>
          obtain ⟨-, rfl⟩ := hstep
          refine hparts ?_ (List.forall_mem_nil _)
          rw [Settled, ho]
          have hpoints : Points Obj.refs m₀ i item := (points_iff_mem ho).mpr List.mem_cons_self
          have hitem := hm₀.closed i item hpoints
          refine inert_of_copyOf hcopy hm₀ (hm.pre.trans hp) hitem ?_
          intro q o hq hmutable hreach
          have hreach' := (hm₀.closed.reaches_iff_of_growth hm.pre hitem).mpr hreach
          exact hun q o (getElem?_growth_of_eq_some hm.pre hq) hmutable hreach'
            (.head ((points_iff_mem hgetm).mpr List.mem_cons_self) hreach')
      | mapping entries =>
          obtain ⟨hb, out, hj, hout⟩ := hstep
          obtain ⟨o', ho', hstep'⟩ := hcopy
          rw [getElem?_growth_of_eq_some hp hj] at ho'
          obtain rfl := Option.some.inj ho'
          obtain ⟨-, out', -, hout'⟩ := hstep'
          have hmem : ∀ e ∈ entries, e ∈ entries := fun _ he ↦ he
          have hboth := (List.forall₂_and_left _ _).mpr ⟨hmem, hout⟩
          refine hparts ?_ ?_
          · rw [Settled, ho]
            refine pairwise_different_of_copies ?_ (hm.built hb hj).distinct
            rw [List.forall₂_map_left_iff, List.forall₂_map_right_iff]
            exact hboth.imp fun e o h ↦ hkeys (Obj.fst_mem_parts h.1) h.2.1
          · have hthird : ∀ e ∈ entries, ∃ o ∈ out, ∃ o' : ℕ × ℕ,
                (CopyOf true m₀.length m n e.1 o.1 ∧ CopyOf true m₀.length m n e.2 o.2) ∧
                CopyOf false b m' n' o.1 o'.1 ∧ CopyOf false b m' n' o.2 o'.2 := by
              intro e he
              obtain ⟨o, ho, heo⟩ := exists_of_forall₂_right hout.flip he
              obtain ⟨o', -, hoo'⟩ := exists_of_forall₂_right hout'.flip ho
              exact ⟨o, ho, o', heo, hoo'⟩
            intro c hc
            rcases List.mem_append.mp hc with hc | hc
            · obtain ⟨e, he, rfl⟩ := List.mem_map.mp hc
              obtain ⟨o, ho, o', heo, hoo'⟩ := hthird e he
              exact ⟨o.1, o'.1, n', (points_iff_mem hj).mpr (Obj.fst_mem_parts ho), heo.1, hoo'.1⟩
            · obtain ⟨e, he, rfl⟩ := List.mem_map.mp hc
              obtain ⟨o, ho, o', heo, hoo'⟩ := hthird e he
              exact ⟨o.2, o'.2, n', (points_iff_mem hj).mpr (Obj.snd_mem_parts ho), heo.2, hoo'.2⟩
      | collection kind items =>
          obtain ⟨hb, out, hj, hout⟩ := hstep
          obtain ⟨o', ho', hstep'⟩ := hcopy
          rw [getElem?_growth_of_eq_some hp hj] at ho'
          obtain rfl := Option.some.inj ho'
          obtain ⟨-, out', -, hout'⟩ := hstep'
          have hmem : ∀ c ∈ items, c ∈ items := fun _ hc ↦ hc
          have hboth := (List.forall₂_and_left _ _).mpr ⟨hmem, hout⟩
          refine hparts ?_ ?_
          · rw [Settled, ho]
            intro hkind
            refine pairwise_different_of_copies ?_ (hm.wellFormed.hashed hj hkind).distinct
            exact hboth.imp fun c d h ↦ hkeys h.1 h.2
          · intro c hc
            obtain ⟨d, hd, hcd⟩ := exists_of_forall₂_right hout.flip hc
            obtain ⟨l, -, hdl⟩ := exists_of_forall₂_right hout'.flip hd
            exact ⟨d, l, n', (points_iff_mem hj).mpr hd, hcd, hdl⟩
      | other key type => exact hstep.elim

end Needed

/-! ## The exact condition -/

section Exact

variable (R : Runtime) (repr : Memory → ℕ → String) (path : String) (v : Value)

theorem detachContextValue_ends :
    Ends (Returns v.memory v.memory v.root) (Refused v.memory [] v.root)
      (detachContextValue R repr path v) :=
  detachValue_ends R repr v.wellFormed (.refl v.wellFormed) v.root_lt .nil nofun (by simp)

/-- A value whose parts are in no cycle and supported is accepted. -/
theorem detachContextValue_accepts (hacyclic : ¬ Cyclic Obj.parts v.memory v.root)
    (hsupported : ∀ p, Reaches Obj.parts v.memory v.root p → Supported v.memory p) :
    ∃ r, detachContextValue R repr path v = .ok r ∧ Returns v.memory v.memory v.root r := by
  have hends := detachContextValue_ends R repr path v
  cases hrun : detachContextValue R repr path v with
  | ok r =>
      rw [hrun] at hends
      exact ⟨r, rfl, hends⟩
  | error e =>
      rw [hrun] at hends
      rcases hends.cause with ⟨a, ha, -⟩ | hcyclic | ⟨p, hp, hunsupported⟩
      · cases ha
      · exact absurd hcyclic hacyclic
      · exact absurd (hsupported p hp) hunsupported

/-- Context isolation is total, closed and unshared on a value if and only if the value is cyclic
or has a part that is not supported, or all its parts are settled. -/
theorem context_isolation_iff :
    Isolated R repr path v ↔ (¬ Cyclic Obj.parts v.memory v.root →
      (∀ p, Reaches Obj.parts v.memory v.root p → Supported v.memory p) →
        SettledParts v.memory v.root) := by
  constructor
  · intro h hacyclic hsupported
    obtain ⟨r, hr, hreturns⟩ := detachContextValue_accepts R repr path v hacyclic hsupported
    obtain ⟨⟨n, hn⟩, hun, w, rfl, r', hr', n', hn'⟩ := h.accepted r hr
    have hends := detachContextValue_ends R repr path w
    rw [hr'] at hends
    exact settledParts_of_copyOf hn v.wellFormed hreturns.grown v.root_lt hun hends.pre hn'
  · intro h
    have hends := detachContextValue_ends R repr path v
    have hsettled : ∀ r, detachContextValue R repr path v = .ok r →
        Returns v.memory v.memory v.root r ∧ SettledParts v.memory v.root := by
      intro r hr
      rw [hr] at hends
      exact ⟨hends, h hends.detached.detachable.grounded.not_cyclic
        hends.detached.detachable.supported⟩
    refine ⟨?_, ?_, ?_, ?_⟩
    · intro hfuel
      rw [hfuel] at hends
      cases hends.typeError
    · intro hcyclic
      cases hrun : detachContextValue R repr path v with
      | ok r =>
          obtain ⟨hreturns, hs⟩ := hsettled r hrun
          exact absurd hcyclic
            (grounded_refs v.wellFormed hreturns.detached.detachable hs).not_cyclic
      | error e =>
          rw [hrun] at hends
          exact ⟨e, rfl, hends.typeError⟩
    · intro hacyclic hsupported
      have hparts : ¬ Cyclic Obj.parts v.memory v.root := fun hcyclic ↦
        hacyclic (hcyclic.mono Obj.parts_subset_refs)
      obtain ⟨r, hr, -⟩ := detachContextValue_accepts R repr path v hparts hsupported
      exact ⟨r, hr⟩
    · intro r hr
      obtain ⟨hreturns, hs⟩ := hsettled r hr
      obtain ⟨n, hn⟩ := hreturns.detached.copied hs
      have hcomplete := hn.complete v.wellFormed hreturns.grown v.root_lt hs
      let w : Value :=
        ⟨r.1, r.2, hreturns.grown.wellFormed, hreturns.detached.lt⟩
      have hdetachable := hcomplete.plain.detachable w.wellFormed hcomplete.grounded
      obtain ⟨r', hr', hreturns'⟩ := detachContextValue_accepts R repr path w
        hdetachable.grounded.not_cyclic hdetachable.supported
      obtain ⟨n', hn'⟩ := hreturns'.detached.copied (hcomplete.plain.settledParts w.wellFormed)
      exact ⟨⟨n, hn⟩, hcomplete.unshared v.wellFormed hreturns.grown.pre v.root_lt, w, rfl, r',
        hr', n', hn'.of_plainParts w.wellFormed hreturns'.pre w.root_lt hcomplete.plain⟩

end Exact

/-! ## A date -/

/-- No value of another kind converts to anything. -/
def noConversions : Runtime where
  str _ := ""
  int v := .error (.typeError v.typeName)
  float v := .error (.typeError v.typeName)
  dict v := .error (.typeError v.typeName)
  sequence v := .error (.typeError v.typeName)
  sub x _ := x
  sha256 _ := Resources.ControlStore.zeroDigest
  jsonDigest _ := .ok Resources.ControlStore.zeroDigest

/-- A list of one `np.datetime64`, the `item()` of which is a `date`. -/
def dates : Value where
  memory := [.other (some (.other 0)) "datetime.date", .generic (some (.other 0)) 0,
    .collection .list [1]]
  root := 2
  wellFormed := by
    refine ⟨?_, ?_, ?_⟩
    · rintro i j ⟨o, ho, hj⟩
      match i with
      | 0 =>
          obtain rfl := Option.some.inj ho
          cases hj
      | 1 =>
          obtain rfl := Option.some.inj ho
          obtain rfl := List.mem_singleton.mp hj
          decide
      | 2 =>
          obtain rfl := Option.some.inj ho
          obtain rfl := List.mem_singleton.mp hj
          decide
      | n + 3 => cases ho
    · intro i kind items ho hkind
      match i with
      | 0 => cases ho
      | 1 => cases ho
      | 2 =>
          cases ho
          cases hkind
      | n + 3 => cases ho
    · intro i kind items ho hkind
      match i with
      | 0 => cases ho
      | 1 => cases ho
      | 2 =>
          cases ho
          cases hkind
      | n + 3 => cases ho
  root_lt := by decide

/-- The list is accepted, and its copy, which holds the `date`, is not. -/
theorem dates_not_isolated : ¬ Isolated noConversions (fun _ _ ↦ "") "context" dates := by
  intro h
  have hrun : detachContextValue noConversions (fun _ _ ↦ "") "context" dates =
      .ok (dates.memory ++ [.collection .list [0]], 3) := rfl
  obtain ⟨-, -, ⟨memory, root, hm, hroot⟩, hw, r', hr', -⟩ := h.accepted _ hrun
  obtain ⟨rfl, rfl⟩ := Prod.mk.inj hw
  cases hr'

end Blackbase.Context.Isolation
