import Mathlib

/-!
# Effects that may raise

A computation on a state that may raise, and keeps what it has done to the state when it does.
`untilError` is the loop that hands a value from one step to the next and ends at the first step
that raises: an error it catches costs the result of that step, and no more.
-/

/-- A computation on a state that may raise. -/
abbrev Effect (σ ε α : Type) := ExceptT ε (StateM σ) α

namespace Effect

variable {σ ε α β : Type}

theorem bind_of_ok {m : Effect σ ε α} {f : α → Effect σ ε β} {s s' : σ} {a : α}
    (h : m s = (.ok a, s')) : (m >>= f) s = f a s' := by
  have hbind : (m >>= f) s = match m s with
      | (.ok a, s') => f a s'
      | (.error e, s') => (.error e, s') := by
    change (StateT.bind m (ExceptT.bindCont f)) s = _
    rcases hm : m s with ⟨_ | a, s'⟩ <;>
      simp [StateT.bind, hm, ExceptT.bindCont, bind, pure, StateT.pure]
  rw [hbind, h]

/-- What a computation returns or raises, as a value. -/
def attempt (m : Effect σ ε α) : Effect σ ε (Except ε α) := fun s ↦ (.ok (m s).1, (m s).2)

theorem attempt_bind {m : Effect σ ε α} {f : Except ε α → Effect σ ε β} (s : σ) :
    (attempt m >>= f) s = f (m s).1 (m s).2 :=
  bind_of_ok rfl

/-- Steps one after another, each with what the last one returned, up to one that raises.  An error
that is caught ends the loop with what the last step returned. -/
def untilError (caught : ε → Bool) (step : β → α → Effect σ ε β) : List α → β → Effect σ ε β
  | [], b => pure b
  | a :: rest, b => do
      match ← attempt (step b a) with
      | .ok b' => untilError caught step rest b'
      | .error e => if caught e then pure b else throw e

section Until

variable {caught : ε → Bool} {step : β → α → Effect σ ε β} {a : α} {rest l : List α} {b b' : β}
  {s s' : σ} {e : ε}

theorem untilError_of_ok (h : step b a s = (.ok b', s')) :
    untilError caught step (a :: rest) b s = untilError caught step rest b' s' := by
  rw [untilError, attempt_bind, h]

theorem untilError_of_error (h : step b a s = (.error e, s')) :
    untilError caught step (a :: rest) b s = (if caught e then .ok b else .error e, s') := by
  rw [untilError, attempt_bind, h]
  cases hcaught : caught e
  · simp only [hcaught]
    rfl
  · simp only [hcaught]
    rfl

theorem untilError_map {γ : Type} (f : γ → α) (l : List γ) (b : β) :
    untilError caught step (l.map f) b = untilError caught (fun b c ↦ step b (f c)) l b := by
  induction l generalizing b with
  | nil => rfl
  | cons c rest ih =>
      rw [List.map_cons, untilError, untilError]
      simp only [ih]

/-- **What a loop has done when it ends.**  Some steps in front have been taken and have all
returned; either these are all, or the next one has raised. -/
theorem untilError_cases (l : List α) (b : β) (s : σ) :
    ∃ done rest b' s', l = done ++ rest ∧ done.foldlM step b s = (.ok b', s') ∧
      (rest = [] ∧ untilError caught step l b s = (.ok b', s') ∨
        ∃ a later e s'', rest = a :: later ∧ step b' a s' = (.error e, s'') ∧
          untilError caught step l b s = (if caught e then .ok b' else .error e, s'')) := by
  induction l generalizing b s with
  | nil => exact ⟨[], [], b, s, rfl, rfl, .inl ⟨rfl, rfl⟩⟩
  | cons a rest ih =>
      rcases h : step b a s with ⟨e | b', s'⟩
      · exact ⟨[], a :: rest, b, s, rfl, rfl, .inr ⟨a, rest, e, s', rfl, h, untilError_of_error h⟩⟩
      · obtain ⟨done, left, b'', s'', rfl, hdone, hend⟩ := ih b' s'
        refine ⟨a :: done, left, b'', s'', rfl, ?_, ?_⟩
        · rw [List.foldlM_cons, bind_of_ok h, hdone]
        · rwa [untilError_of_ok h]

end Until

end Effect
