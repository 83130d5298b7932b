import Mathlib.Data.List.Forall2

/-!
# Computations that may raise

A postcondition for what `Except` computes, one for what is returned and one for what is raised,
with its rules for `bind` and for the loops over a list.
-/

universe u v

namespace Attempt

variable {ε : Type u} {σ τ : Type v} {α : Type*} {Q : σ → Prop} {E : ε → Prop}

/-- What is returned satisfies `Q`, and what is raised satisfies `E`. -/
def Ends (Q : σ → Prop) (E : ε → Prop) : Except ε σ → Prop
  | .ok s => Q s
  | .error e => E e

@[simp] theorem ends_ok {s : σ} : Ends Q E (.ok s : Except ε σ) ↔ Q s := Iff.rfl

@[simp] theorem ends_pure {s : σ} : Ends Q E (pure s : Except ε σ) ↔ Q s := Iff.rfl

@[simp] theorem ends_error {e : ε} : Ends Q E (.error e : Except ε σ) ↔ E e := Iff.rfl

/-- What is returned is handed on. -/
theorem bind_ok (s : σ) (f : σ → Except ε τ) : (Except.ok s >>= f) = f s := rfl

/-- What two computations in a row return, the first has handed on. -/
theorem exists_of_bind_eq_ok {x : Except ε σ} {f : σ → Except ε τ} {t : τ}
    (h : (x >>= f) = .ok t) : ∃ s, x = .ok s ∧ f s = .ok t := by
  cases x with
  | error e => cases h
  | ok s => exact ⟨s, rfl, h⟩

theorem exists_of_map_eq_ok {x : Except ε σ} {f : σ → τ} {t : τ}
    (h : x.map f = .ok t) : ∃ s, x = .ok s ∧ f s = t := by
  cases x with
  | error e => cases h
  | ok s => exact ⟨s, rfl, Except.ok.inj h⟩

/-- What is left of a computation when its errors are forgotten is what it returned. -/
theorem eq_ok_of_toOption {x : Except ε σ} {s : σ} (h : x.toOption = some s) : x = .ok s := by
  cases x with
  | ok t => exact congrArg Except.ok (Option.some.inj h)
  | error e => exact absurd h (by simp [Except.toOption])

/-- Whatever is asked of nothing holds. -/
theorem ends_true (x : Except ε σ) : Ends (fun _ ↦ True) (fun _ ↦ True) x := by
  cases x <;> trivial

theorem Ends.mono {x : Except ε σ} {Q' : σ → Prop} {E' : ε → Prop} (h : Ends Q E x)
    (hQ : ∀ s, Q s → Q' s) (hE : ∀ e, E e → E' e) : Ends Q' E' x := by
  cases x with
  | ok s => exact hQ s h
  | error e => exact hE e h

theorem Ends.bind {x : Except ε σ} {R : τ → Prop} {f : σ → Except ε τ} (h : Ends Q E x)
    (hf : ∀ s, Q s → Ends R E (f s)) : Ends R E (x >>= f) := by
  cases x with
  | ok s => exact hf s h
  | error e => exact h

/-- A loop over a list keeps what each of its turns keeps of the rest of the list. -/
theorem Ends.foldlM {I : List α → σ → Prop} {f : σ → α → Except ε σ} {l : List α} {s : σ}
    (hI : I l s) (hf : ∀ a rest s, I (a :: rest) s → Ends (I rest) E (f s a)) :
    Ends (I []) E (l.foldlM f s) := by
  induction l generalizing s with
  | nil => exact hI
  | cons a rest ih =>
      rw [List.foldlM_cons]
      exact (hf a rest s hI).bind fun t ht ↦ ih ht

/-- What is returned for the elements of a list satisfies what is asked of each. -/
theorem Ends.mapM {β : Type v} {f : α → Except ε β} {R : α → β → Prop}
    (hf : ∀ a, Ends (R a) E (f a)) (l : List α) : Ends (List.Forall₂ R l) E (l.mapM f) := by
  induction l with
  | nil => exact List.Forall₂.nil
  | cons a rest ih =>
      rw [List.mapM_cons]
      refine (hf a).bind fun b hb ↦ ?_
      exact ih.bind fun bs hbs ↦ List.Forall₂.cons hb hbs

/-- A map over a list returns what is returned for its elements. -/
theorem mapM_eq_ok {β : Type v} {f : α → Except ε β} {l : List α} {ys : List β}
    (h : List.Forall₂ (fun a b ↦ f a = .ok b) l ys) : l.mapM f = .ok ys := by
  induction h with
  | nil => rfl
  | cons ha _ ih =>
      rw [List.mapM_cons, ha, ih]
      rfl

theorem bind_eq_ok {x : Except ε σ} {f : σ → Except ε τ} {t : τ} :
    (x >>= f) = .ok t ↔ ∃ s, x = .ok s ∧ f s = .ok t := by
  constructor
  · exact exists_of_bind_eq_ok
  · rintro ⟨s, rfl, h⟩
    exact h

/-- A map over a list with a function that returns `g a` for the elements with `P`, and raises for
the others. -/
theorem mapM_eq_ok_iff_forall {β : Type v} {f : α → Except ε β} {P : α → Prop} {g : α → β}
    (hf : ∀ a b, f a = .ok b ↔ P a ∧ b = g a) {l : List α} {ys : List β} :
    l.mapM f = .ok ys ↔ (∀ a ∈ l, P a) ∧ ys = l.map g := by
  induction l generalizing ys with
  | nil =>
      constructor
      · intro h
        obtain rfl := Except.ok.inj h
        exact ⟨by simp, rfl⟩
      · rintro ⟨-, rfl⟩
        rfl
  | cons a rest ih =>
      rw [List.mapM_cons]
      constructor
      · intro h
        obtain ⟨b, hb, h⟩ := exists_of_bind_eq_ok h
        obtain ⟨bs, hbs, h⟩ := exists_of_bind_eq_ok h
        obtain rfl := Except.ok.inj h
        obtain ⟨ha, rfl⟩ := (hf a b).mp hb
        obtain ⟨hrest, rfl⟩ := ih.mp hbs
        exact ⟨List.forall_mem_cons.mpr ⟨ha, hrest⟩, rfl⟩
      · rintro ⟨hall, rfl⟩
        obtain ⟨ha, hrest⟩ := List.forall_mem_cons.mp hall
        rw [(hf a (g a)).mpr ⟨ha, rfl⟩, ih.mpr ⟨hrest, rfl⟩]
        rfl

end Attempt
