import Blackbase.Kernel.Slots.Model

/-!
# Serial slots

An operator is called with the first of three shapes that its signature can bind, and called once,
whatever it raises.  A serial slot calls its operators in their order, each with what the last one
returned, between two looks at the cancel event, and ends at the first one that raises.  Where
errors are caught, this costs the result of that operator, but not what it has done to the state;
a cancellation is never caught.
-/

namespace Blackbase.Kernel.Slots

variable {σ V E C Op A : Type}

/-! ## One call -/

/-- The candidate that a callable is called with: the first one that its signature can bind, or
the first one if it has no signature. -/
def chosen (fn : Callable σ E A V) (declared : List (CallCandidate A)) :
    Option (CallCandidate A) :=
  match fn.signature with
  | none => declared.head?
  | some binds => declared.find? fun candidate ↦ binds candidate.args

/-- The chosen candidate is called; without one, nothing is. -/
def callChosen (fn : Callable σ E A V) (declared : List (CallCandidate A)) : Run σ E V :=
  match chosen fn declared with
  | some candidate => fn.call candidate.args
  | none => throw (.kernel .typeError
      s!"{fn.repr} cannot bind any declared call candidate: {labels declared}")

theorem firstBound_map (binds : A → Bool) (index : ℕ) (declared : List (CallCandidate A)) :
    (firstBound binds index declared).map Prod.snd =
      declared.find? fun candidate ↦ binds candidate.args := by
  induction declared generalizing index with
  | nil => rfl
  | cons candidate rest ih =>
      rw [firstBound, List.find?_cons]
      by_cases h : binds candidate.args = true
      · rw [if_pos h, h]
        rfl
      · rw [if_neg h, ih, Bool.eq_false_iff.mpr h]

/-- What a callable returns is what one call of it returns. -/
theorem map_call (fn : Callable σ E A V) (args : A) (outcome : V → BoundCallOutcome V)
    (h : ∀ value, (outcome value).value = value) :
    (BoundCallOutcome.value <$> do
      let value ← fn.call args
      return outcome value) = fn.call args := by
  rw [map_bind]
  simp only [map_pure, h]
  exact bind_pure _

theorem invokeBoundOnce_eq (fn : Callable σ E A V) {declared : List (CallCandidate A)}
    (hne : declared ≠ []) : invokeBoundOnce fn declared = callChosen fn declared := by
  obtain ⟨canonical, rest, rfl⟩ := List.exists_cons_of_ne_nil hne
  unfold invokeBoundOnce invokeBoundOnceWithOutcome callChosen chosen
  rcases hsignature : fn.signature with _ | binds
  · exact map_call fn _ _ fun _ ↦ rfl
  · simp only [← firstBound_map binds 0]
    rcases firstBound binds 0 (canonical :: rest) with _ | ⟨index, candidate⟩
    · rfl
    · exact map_call fn _ _ fun _ ↦ rfl

variable (H : Host σ V E C Op)

/-- The callable that an operator stands for. -/
def callableOf (operator : Op) (method : String) : Option (Callable σ E (Args V) V) :=
  (H.getattr operator method).or (H.callable operator)

/-- An operator is called once, if it can be called; otherwise the value is passed on. -/
def callOnce (operator : Op) (value : V) (method : String) : Run σ E V :=
  match callableOf H operator method with
  | none => pure value
  | some fn => callChosen fn [⟨.valueContext value, "value_context"⟩, ⟨.value value, "value"⟩,
      ⟨.empty, "empty"⟩]

theorem callOperator_eq (operator : Op) (value : V) (method : String) :
    H.callOperator operator value method = callOnce H operator value method := by
  unfold Host.callOperator callOnce callableOf Host.invokeOperatorCallable
  rcases H.getattr operator method with _ | fn
  · rw [Option.none_or]
    rcases H.callable operator with _ | fn
    · rfl
    · exact invokeBoundOnce_eq fn (List.cons_ne_nil _ _)
  · exact invokeBoundOnce_eq fn (List.cons_ne_nil _ _)

/-! ## The loop -/

/-- The turn of an operator. -/
def turn (method : String) (value : V) (operator : Op) : Run σ E V := do
  H.raiseIfCancelled
  let result ← callOnce H operator value method
  H.raiseIfCancelled
  return result

variable {H}

/-- What is `None` has no turn. -/
theorem runSerial_eq (operators : List (Option Op)) (value : V) (method : String) (strict : Bool) :
    H.runSerial operators value method strict =
      Effect.untilError (fun e ↦ e.caught && !strict) (turn H method) operators.reduceOption
        value := by
  unfold Host.runSerial
  induction operators generalizing value with
  | nil => rfl
  | cons operator rest ih =>
      rcases operator with _ | operator
      · rw [List.reduceOption_cons_of_none, ← ih]
        funext s
        exact Effect.untilError_of_ok rfl
      · have hturn : H.guardedCall method value (some operator) = turn H method value operator := by
          unfold Host.guardedCall turn
          simp only [callOperator_eq]
        rw [List.reduceOption_cons_of_some, Effect.untilError, Effect.untilError, hturn]
        simp only [ih]

/-- **A serial slot calls its operators in order, each at most once.**  Some of them, in front, have
had their turns, each with what the one before it returned.  Either these are all, and the slot
returns what the last one returned; or the turn of the next one has raised, and that is the end:
if errors are caught, and this one can be, the slot returns what was there before that turn, and
otherwise it raises. -/
theorem serial_in_order (H : Host σ V E C Op) (operators : List (Option Op)) (value : V)
    (method : String) (strict : Bool) (s : σ) :
    ∃ done rest value' s', operators.reduceOption = done ++ rest ∧
      done.foldlM (turn H method) value s = (.ok value', s') ∧
      (rest = [] ∧ H.runSerial operators value method strict s = (.ok value', s') ∨
        ∃ operator later e s'', rest = operator :: later ∧
          turn H method value' operator s' = (.error e, s'') ∧
          H.runSerial operators value method strict s =
            (if e.caught && !strict then .ok value' else .error e, s'')) := by
  rw [runSerial_eq]
  exact Effect.untilError_cases operators.reduceOption value s

end Blackbase.Kernel.Slots
