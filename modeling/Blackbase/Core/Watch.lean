import Mathlib

/-!
# Optimistic transactions on a key-value server

A server counts the writes of each key.  A client watches a key by remembering its count,
and its transaction takes place only if the count is still the same.

`Knows` is what a client may rely on in between: whatever it has read of the key since it
began to watch it holds as long as the key has not been written.
-/

universe u v

namespace Watch

/-- The keys of a server, and how often each has been written. -/
structure Server (κ : Type u) (ν : Type v) where
  value : κ → Option ν
  version : κ → ℕ

namespace Server

variable {κ : Type u} {ν : Type v}

/-- A server without keys. -/
def empty : Server κ ν := ⟨fun _ ↦ none, fun _ ↦ 0⟩

/-- Set a key, or delete it. -/
def write [DecidableEq κ] (s : Server κ ν) (k : κ) (v : Option ν) : Server κ ν where
  value := Function.update s.value k v
  version := Function.update s.version k (s.version k + 1)

/-- Delete the keys whose value is not among those that stay. -/
def keep (s : Server κ ν) (stays : ν → Bool) : Server κ ν where
  value k := (s.value k).filter stays
  version k := if (s.value k).all stays then s.version k else s.version k + 1

/-- What a client knows that watches `k` since it has been written `n` times. -/
def Knows (s : Server κ ν) (k : κ) (n : ℕ) (P : Option ν → Prop) : Prop :=
  n ≤ s.version k ∧ (s.version k = n → P (s.value k))

variable {s : Server κ ν} {k k' : κ} {n : ℕ} {P Q : Option ν → Prop}

/-- What is read of a key is known from then on. -/
theorem knows_read (h : P (s.value k)) : s.Knows k (s.version k) P := ⟨le_rfl, fun _ ↦ h⟩

/-- What a client reads of a key it already watches. -/
theorem Knows.read (h : s.Knows k n P) (hQ : Q (s.value k)) : s.Knows k n Q := ⟨h.1, fun _ ↦ hQ⟩

section Write

variable [DecidableEq κ]

@[simp] theorem write_value_self (v : Option ν) : (s.write k v).value k = v :=
  Function.update_self ..

@[simp] theorem write_value_ne (v : Option ν) (h : k' ≠ k) :
    (s.write k v).value k' = s.value k' := Function.update_of_ne h ..

@[simp] theorem write_version_self (v : Option ν) :
    (s.write k v).version k = s.version k + 1 := Function.update_self ..

@[simp] theorem write_version_ne (v : Option ν) (h : k' ≠ k) :
    (s.write k v).version k' = s.version k' := Function.update_of_ne h ..

/-- A write leaves a client's knowledge true. -/
theorem Knows.write (h : s.Knows k n P) (k' : κ) (v : Option ν) : (s.write k' v).Knows k n P := by
  by_cases hk : k = k'
  · subst hk
    rw [Knows, write_version_self]
    exact ⟨h.1.trans (Nat.le_succ _), fun heq ↦ absurd h.1 (by omega)⟩
  · rwa [Knows, write_version_ne v hk, write_value_ne v hk]

end Write

/-- So does the loss of keys. -/
theorem Knows.keep (h : s.Knows k n P) (stays : ν → Bool) : (s.keep stays).Knows k n P := by
  unfold Knows Server.keep
  dsimp only
  split
  · next hall =>
      have hvalue : (s.value k).filter stays = s.value k := by
        cases hv : s.value k with
        | none => rfl
        | some v =>
            rw [Option.filter_some, if_pos]
            simpa [hv] using hall
      rw [hvalue]
      exact h
  · exact ⟨h.1.trans (Nat.le_succ _), fun heq ↦ absurd h.1 (by omega)⟩

end Server

end Watch
