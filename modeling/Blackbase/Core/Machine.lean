import Mathlib

/-!
# Runs of labelled machines

A machine is its partial step function `step : σ → ℓ → Option σ`: the label
fixes every choice a step leaves open (which party acts, what its clock reads,
whether the operation fails), and `none` says that the step cannot be taken.

`Reach step ok s t` is a run from `s` to `t` each of whose steps satisfies the
guard `ok`, a predicate of the state the step starts from and of its label.
Runs without a side condition use `Machine.anyStep`.  Invariants of a run are proved by
`Reach.invariant`, one preservation lemma for a single step.
-/

universe u v

namespace Machine

variable {σ : Type u} {ℓ : Type v}

/-- A run all of whose steps satisfy `ok`. -/
inductive Reach (step : σ → ℓ → Option σ) (ok : σ → ℓ → Prop) (s : σ) : σ → Prop
  /-- The empty run. -/
  | refl : Reach step ok s s
  /-- A run extended by one more step. -/
  | tail {t u : σ} {l : ℓ} : Reach step ok s t → ok t l → step t l = some u →
      Reach step ok s u

/-- The guard of a run on which nothing is imposed. -/
def anyStep (_ : σ) (_ : ℓ) : Prop := True

variable {step : σ → ℓ → Option σ} {ok ok' : σ → ℓ → Prop} {s t u : σ}

namespace Reach

/-- A single allowed step is a run. -/
theorem single {l : ℓ} (hok : ok s l) (h : step s l = some t) : Reach step ok s t :=
  refl.tail hok h

/-- Runs compose. -/
theorem trans (h : Reach step ok s t) (h' : Reach step ok t u) : Reach step ok s u := by
  induction h' with
  | refl => exact h
  | tail _ hok hstep ih => exact ih.tail hok hstep

/-- A weaker guard allows more runs. -/
theorem mono (himp : ∀ s l, ok s l → ok' s l) (h : Reach step ok s t) :
    Reach step ok' s t := by
  induction h with
  | refl => exact refl
  | tail _ hok hstep ih => exact ih.tail (himp _ _ hok) hstep

/-- **The invariant rule.**  What holds at the start and survives every allowed
step holds at the end of every run. -/
theorem invariant {I : σ → Prop} (h : Reach step ok s t) (hs : I s)
    (hstep : ∀ s l t, I s → ok s l → step s l = some t → I t) : I t := by
  induction h with
  | refl => exact hs
  | tail _ hok h ih => exact hstep _ _ _ ih hok h

end Reach

/-! ## Runs as lists of labels -/

/-- Execute a list of labels, stopping at the first step that cannot be taken. -/
def run (step : σ → ℓ → Option σ) : σ → List ℓ → Option σ
  | s, [] => some s
  | s, l :: ls => (step s l).bind fun t ↦ run step t ls

@[simp] theorem run_nil (s : σ) : run step s [] = some s := rfl

theorem run_cons (s : σ) (l : ℓ) (ls : List ℓ) :
    run step s (l :: ls) = (step s l).bind fun t ↦ run step t ls := rfl

theorem run_append (s : σ) (ls ms : List ℓ) :
    run step s (ls ++ ms) = (run step s ls).bind fun t ↦ run step t ms := by
  induction ls generalizing s with
  | nil => rfl
  | cons l ls ih =>
      rw [List.cons_append, run_cons, run_cons, Option.bind_assoc]
      exact congrArg (fun f ↦ (step s l).bind f) (funext ih)

/-- The machine that refuses every step its guard does not allow. -/
def guarded (step : σ → ℓ → Option σ) (ok : σ → ℓ → Prop) [∀ s l, Decidable (ok s l)] (s : σ)
    (l : ℓ) : Option σ :=
  if ok s l then step s l else none

/-- Every list of labels the guarded machine executes is a run. -/
theorem reach_of_run [∀ s l, Decidable (ok s l)] {ls : List ℓ}
    (h : run (guarded step ok) s ls = some t) : Reach step ok s t := by
  induction ls generalizing s with
  | nil =>
      obtain rfl : s = t := Option.some.inj h
      exact Reach.refl
  | cons l ls ih =>
      rw [run_cons, Option.bind_eq_some_iff] at h
      obtain ⟨m, hm, hrun⟩ := h
      unfold guarded at hm
      split at hm
      · next hok => exact (Reach.single hok hm).trans (ih hrun)
      · cases hm

/-- Every list of labels the machine executes is a run. -/
theorem reach_of_run_any {ls : List ℓ} (h : run step s ls = some t) : Reach step anyStep s t := by
  induction ls generalizing s with
  | nil =>
      obtain rfl : s = t := Option.some.inj h
      exact Reach.refl
  | cons l ls ih =>
      rw [run_cons, Option.bind_eq_some_iff] at h
      obtain ⟨m, hm, hrun⟩ := h
      exact (Reach.single trivial hm).trans (ih hrun)

/-- A machine that stops after its first step. -/
theorem run_of_last (hfirst : ∀ l, step s l = some t) (hlast : ∀ l, step t l = none) {ls : List ℓ}
    (hrun : run step s ls = some u) : u = s ∨ u = t := by
  cases ls with
  | nil => exact .inl (Option.some.inj hrun).symm
  | cons l ls =>
      rw [run_cons, hfirst l, Option.bind_some] at hrun
      cases ls with
      | nil => exact .inr (Option.some.inj hrun).symm
      | cons l' ls => rw [run_cons, hlast l'] at hrun; cases hrun

theorem run_of_guarded [∀ s l, Decidable (ok s l)] {ls : List ℓ}
    (h : run (guarded step ok) s ls = some t) : run step s ls = some t := by
  induction ls generalizing s with
  | nil => exact h
  | cons l ls ih =>
      rw [run_cons, Option.bind_eq_some_iff] at h ⊢
      obtain ⟨m, hm, hrun⟩ := h
      unfold guarded at hm
      split at hm
      · exact ⟨m, hm, ih hrun⟩
      · cases hm

theorem run_concat {s t : σ} {ls : List ℓ} {l : ℓ} (h : run step s (ls ++ [l]) = some t) :
    ∃ u, run step s ls = some u ∧ step u l = some t := by
  rw [run_append, Option.bind_eq_some_iff] at h
  obtain ⟨u, hu, hl⟩ := h
  exact ⟨u, hu, by simpa [run_cons] using hl⟩

/-- If every step that is not `bad` keeps `Q`, and under `Q` a step satisfies `B` exactly if
it is not bad, then all steps of a run satisfy `B` exactly if none of them is bad. -/
theorem forall_step_iff {Q : σ → Prop} {B bad : σ → ℓ → Prop} (hQ : Q s)
    (hgood : ∀ s l t, Q s → ¬ bad s l → step s l = some t → Q t)
    (hB : ∀ s l t, Q s → step s l = some t → (B s l ↔ ¬ bad s l)) (ls : List ℓ) :
    (∀ before l u t, before ++ [l] <+: ls → run step s before = some u → step u l = some t →
        B u l) ↔
      ∀ before l u t, before ++ [l] <+: ls → run step s before = some u → step u l = some t →
        ¬ bad u l := by
  -- `Q` holds along the run as long as the steps before are known not to be bad.
  have hrun : ∀ before, before <+: ls →
      (∀ before l u t, before ++ [l] <+: ls → run step s before = some u →
        step u l = some t → Q u → ¬ bad u l) →
      ∀ u, run step s before = some u → Q u := by
    intro before hprefix hall
    induction before using List.reverseRecOn with
    | nil =>
        intro u hu
        obtain rfl := Option.some.inj hu
        exact hQ
    | append_singleton before l ih =>
        intro t ht
        obtain ⟨u, hu, hl⟩ := run_concat ht
        have hu' := ih ((List.prefix_append before [l]).trans hprefix) u hu
        exact hgood u l t hu' (hall before l u t hprefix hu hl hu') hl
  constructor
  · intro hall before l u t hprefix hu hl
    have hQu := hrun before ((List.prefix_append before [l]).trans hprefix)
      (fun before l u t hprefix hu hl hQu ↦ (hB u l t hQu hl).mp (hall before l u t hprefix hu hl))
      u hu
    exact (hB u l t hQu hl).mp (hall before l u t hprefix hu hl)
  · intro hall before l u t hprefix hu hl
    have hQu := hrun before ((List.prefix_append before [l]).trans hprefix)
      (fun before l u t hprefix hu hl _ ↦ hall before l u t hprefix hu hl) u hu
    exact (hB u l t hQu hl).mpr (hall before l u t hprefix hu hl)

/-! ## Runs of total machines

A machine whose every step can be taken is a function `apply : σ → ℓ → σ`, and its run
over a list of labels is a fold. -/

/-- If every step that is not `bad` keeps `Q`, which implies `P`, and every bad one
breaks `P`, then all states of a run satisfy `P` exactly if no step of it is bad.  `I` is
what every step keeps. -/
theorem forall_prefix_iff {apply : σ → ℓ → σ} {I P Q : σ → Prop} {bad : σ → ℓ → Prop}
    (hI : I s) (hQ : Q s) (hinv : ∀ s l, I s → I (apply s l)) (himp : ∀ s, I s → Q s → P s)
    (hgood : ∀ s l, I s → Q s → ¬ bad s l → Q (apply s l))
    (hbad : ∀ s l, I s → P s → bad s l → ¬ P (apply s l)) (ls : List ℓ) :
    (∀ before, before <+: ls → P (before.foldl apply s)) ↔
      ∀ before l, before ++ [l] <+: ls → ¬ bad (before.foldl apply s) l := by
  have hrun : ∀ before : List ℓ, I (before.foldl apply s) := by
    intro before
    induction before using List.reverseRecOn with
    | nil => exact hI
    | append_singleton before l ih =>
        rw [List.foldl_append]
        exact hinv _ _ ih
  have hlast : ∀ before l, (before ++ [l]).foldl apply s = apply (before.foldl apply s) l := by
    intro before l
    rw [List.foldl_append]
    rfl
  constructor
  · intro hall before l hprefix
    have hbefore := hall before ((List.prefix_append before [l]).trans hprefix)
    have hafter := hall (before ++ [l]) hprefix
    rw [hlast] at hafter
    exact fun h ↦ hbad _ _ (hrun before) hbefore h hafter
  · intro hall before hprefix
    refine himp _ (hrun before) ?_
    induction before using List.reverseRecOn with
    | nil => exact hQ
    | append_singleton before l ih =>
        have hbefore := ih ((List.prefix_append before [l]).trans hprefix)
        rw [hlast]
        exact hgood _ _ (hrun before) hbefore (hall before l hprefix)

/-! ## Executions -/

/-- An infinite run in which the machine may also pause. -/
structure Execution (step : σ → ℓ → Option σ) (s : σ) where
  state : ℕ → σ
  /-- The step taken at each moment; `none` for a pause. -/
  label : ℕ → Option ℓ
  start : state 0 = s
  pause : ∀ n, label n = none → state (n + 1) = state n
  next : ∀ n l, label n = some l → step (state n) l = some (state (n + 1))

namespace Execution

/-- No productive step stays possible for ever without one being taken. -/
def Fair (productive : ℓ → Bool) (e : Execution step s) : Prop :=
  ∀ n, (∃ l t, productive l ∧ step (e.state n) l = some t) →
    ∃ m, n ≤ m ∧ ∃ l, e.label m = some l ∧ productive l

/-- Up to the first step that breaks the guard, an execution is a run. -/
theorem reach (e : Execution step s) {n : ℕ}
    (hok : ∀ m < n, ∀ l, e.label m = some l → ok (e.state m) l) : Reach step ok s (e.state n) := by
  induction n with
  | zero =>
      rw [e.start]
      exact Reach.refl
  | succ n ih =>
      have hrun := ih fun m hm ↦ hok m (Nat.lt_succ_of_lt hm)
      cases hl : e.label n with
      | none =>
          rw [e.pause n hl]
          exact hrun
      | some l => exact hrun.tail (hok n (Nat.lt_succ_self n) l hl) (e.next n l hl)

/-- What every step keeps holds from any moment on. -/
theorem persists (e : Execution step s) {I : σ → Prop}
    (hstep : ∀ s l t, I s → step s l = some t → I t) {n m : ℕ} (hn : I (e.state n))
    (hle : n ≤ m) : I (e.state m) := by
  induction m, hle using Nat.le_induction with
  | base => exact hn
  | succ m _ ih =>
      cases hl : e.label m with
      | none =>
          rw [e.pause m hl]
          exact ih
      | some l => exact hstep _ _ _ ih (e.next m l hl)

/-- A measure that no step raises and every productive step lowers stops the
productive steps. -/
theorem quiescent (e : Execution step s) {productive : ℓ → Bool} (μ : σ → ℕ)
    (hle : ∀ n l, e.label n = some l → μ (e.state (n + 1)) ≤ μ (e.state n))
    (hlt : ∀ n l, e.label n = some l → productive l → μ (e.state (n + 1)) < μ (e.state n)) :
    ∃ N, ∀ n, N ≤ n → ∀ l, e.label n = some l → productive l = false := by
  have hanti : Antitone fun n ↦ μ (e.state n) := by
    refine antitone_nat_of_succ_le fun n ↦ ?_
    cases hl : e.label n with
    | none => exact (congrArg μ (e.pause n hl)).le
    | some l => exact hle n l hl
  obtain ⟨N, hN⟩ : ∃ N, ∀ n, μ (e.state N) ≤ μ (e.state n) := by
    obtain ⟨N, hN⟩ := WellFounded.has_min wellFounded_lt (Set.range fun n ↦ μ (e.state n))
      ⟨_, 0, rfl⟩
    obtain ⟨⟨N, rfl⟩, hmin⟩ := hN
    exact ⟨N, fun n ↦ not_lt.mp (hmin _ ⟨n, rfl⟩)⟩
  refine ⟨N, fun n hn l hl ↦ ?_⟩
  by_contra hprod
  have h₁ := hlt n l hl (by simpa using hprod)
  exact absurd ((hN (n + 1)).trans_lt h₁) (not_lt.mpr (hanti hn))

/-- The execution that takes the steps of a list and then pauses for ever. -/
def ofRun {ls : List ℓ} (h : run step s ls = some t) : Execution step s where
  state n := (run step s (ls.take n)).getD t
  label n := ls[n]?
  start := rfl
  pause n hn := by
    have hlength : ls.length ≤ n := List.getElem?_eq_none_iff.mp hn
    rw [List.take_of_length_le hlength, List.take_of_length_le (hlength.trans (Nat.le_succ n))]
  next n l hl := by
    have htake : ls.take (n + 1) = ls.take n ++ [l] := by
      rw [List.take_add_one, hl]
      rfl
    have hrun := h
    rw [← List.take_append_drop (n + 1) ls, run_append, Option.bind_eq_some_iff] at hrun
    obtain ⟨v, hv, -⟩ := hrun
    rw [hv, Option.getD_some]
    rw [htake, run_append, Option.bind_eq_some_iff] at hv
    obtain ⟨u, hu, hstep⟩ := hv
    rw [hu, Option.getD_some]
    simpa [run_cons] using hstep

/-- Such an execution is fair when it only takes productive steps and ends where none
is possible. -/
theorem fair_ofRun {ls : List ℓ} {productive : ℓ → Bool} (h : run step s ls = some t)
    (hls : ∀ l ∈ ls, productive l) (hend : ∀ l u, productive l → step t l ≠ some u) :
    (ofRun h).Fair productive := by
  rintro n ⟨l, u, hl, hstep⟩
  rcases Nat.lt_or_ge n ls.length with hn | hn
  · exact ⟨n, le_rfl, ls[n], List.getElem?_eq_getElem hn, hls _ (List.getElem_mem hn)⟩
  · have hstate : (ofRun h).state n = t := by
      simp [ofRun, List.take_of_length_le hn, h]
    rw [hstate] at hstep
    exact absurd hstep (hend l u hl)

end Execution

end Machine
