import Blackbase.Context.RedisCodec.RoundTrip

/-!
# What is read and stored again

A store that copies a value reads it and writes what it read.  The copy has the same bytes as the
original, and so the same digests, unless there is a set in it, which Python writes in an order of
its own, or an object of a shared type.
-/

namespace Blackbase.Context.RedisCodec

open Attempt
open Project.Envelope (PyFloat)

variable {O P : Type} {R : Runtime O} {F : Formats P} {room : ℕ} {path : String}

namespace Restored

mutual

/-- There is no set in the value and no object of a shared type. -/
def ordered : Restored O → Bool
  | .protocol _ => false
  | .mapping entries => orderedEntries entries
  | .collection kind items => !kind.hashes && orderedItems items
  | _ => true

def orderedItems : List (Restored O) → Bool
  | [] => true
  | x :: xs => x.ordered && orderedItems xs

def orderedEntries : List (Restored O × Restored O) → Bool
  | [] => true
  | (k, x) :: es => k.ordered && (x.ordered && orderedEntries es)

end

mutual

/-- A value that was read, as one to be written; `written` says what an object of a shared type
is written as. -/
def toValue (written : O → Value) : Restored O → Value
  | .none => .none
  | .bool b => .bool b
  | .int n => .int n
  | .float x => .float x
  | .complex re im => .complex re im
  | .text s => .text s
  | .bytes data => .bytes data
  | .protocol o => written o
  | .array a => .array a
  | .mapping entries => .mapping (toEntries written entries)
  | .collection kind items => .collection kind.name (toItems written items)

def toItems (written : O → Value) : List (Restored O) → List Value
  | [] => []
  | x :: xs => x.toValue written :: toItems written xs

def toEntries (written : O → Value) : List (Restored O × Restored O) → List (Value × Value)
  | [] => []
  | (k, x) :: es => (k.toValue written, x.toValue written) :: toEntries written es

end

end Restored

@[simp] theorem writeFloat_fresh (x : PyFloat) : writeFloat (fresh x) = writeFloat x := by
  cases x <;> rfl

@[simp] theorem RawArray.contiguous_contiguous (a : RawArray) :
    a.contiguous.contiguous = a.contiguous := by
  by_cases h : a.shape = []
  · simp [RawArray.contiguous, h]
  · simp [RawArray.contiguous, h]

section Lists

variable {write write' : String → Value → Except CodecError Json} {written : O → Value}
  (hwrite : ∀ path path' v w r, write path v = .ok w → restored R v = some r →
    r.ordered = true → write' path' (r.toValue written) = .ok w)

include hwrite

theorem writeItems_toItems {items : List Value} {ws : List Json} {rs : List (Restored O)}
    {path path' : String} {i j : ℕ} (hw : writeItems write path i items = .ok ws)
    (hr : restoredItems R items = some rs) (hordered : Restored.orderedItems rs = true) :
    writeItems write' path' j (Restored.toItems written rs) = .ok ws := by
  induction items generalizing i j ws rs with
  | nil =>
      obtain rfl := Except.ok.inj hw
      obtain rfl := Option.some.inj hr
      rfl
  | cons v rest ih =>
      obtain ⟨w, hv, hw⟩ := exists_of_bind_eq_ok hw
      obtain ⟨ws, hrest, hw⟩ := exists_of_bind_eq_ok hw
      obtain rfl := Except.ok.inj hw
      rw [restoredItems] at hr
      split at hr
      · next x xs hx hxs =>
          obtain rfl := Option.some.inj hr
          obtain ⟨hfirst, hlater⟩ := Bool.and_eq_true_iff.mp hordered
          rw [Restored.toItems, writeItems, hwrite _ _ v w x hv hx hfirst, bind_ok,
            ih hrest hxs hlater]
          rfl
      · cases hr

theorem writeEntries_toEntries {entries : List (Value × Value)} {ws : List Json}
    {es : List (Restored O × Restored O)} {path path' : String}
    (hw : writeEntries R write path entries = .ok ws) (hr : restoredEntries R entries = some es)
    (hordered : Restored.orderedEntries es = true) :
    writeEntries R write' path' (Restored.toEntries written es) = .ok ws := by
  induction entries generalizing ws es with
  | nil =>
      obtain rfl := Except.ok.inj hw
      obtain rfl := Option.some.inj hr
      rfl
  | cons e rest ih =>
      obtain ⟨k, v⟩ := e
      obtain ⟨key, hk, hw⟩ := exists_of_bind_eq_ok hw
      obtain ⟨item, hv, hw⟩ := exists_of_bind_eq_ok hw
      obtain ⟨ws, hrest, hw⟩ := exists_of_bind_eq_ok hw
      obtain rfl := Except.ok.inj hw
      rw [restoredEntries] at hr
      split at hr
      · next x y es hx hy hes =>
          obtain rfl := Option.some.inj hr
          obtain ⟨hkey, hrest'⟩ := Bool.and_eq_true_iff.mp hordered
          obtain ⟨hitem, hlater⟩ := Bool.and_eq_true_iff.mp hrest'
          rw [Restored.toEntries, writeEntries, hwrite _ _ k key x hk hx hkey, bind_ok,
            hwrite _ _ v item y hv hy hitem, bind_ok, ih hrest hes hlater]
          rfl
      · cases hr

end Lists

/-- What comes back is written as the value itself was. -/
theorem toSafeWire_toValue (written : O → Value) {room' : ℕ} {path' : String} {v : Value}
    {w : Json} {r : Restored O} (hw : toSafeWire R room path v = .ok w)
    (hr : restored R v = some r) (hordered : r.ordered = true) (hroom : room ≤ room') :
    toSafeWire R room' path' (r.toValue written) = .ok w := by
  induction room generalizing room' path path' v w r with
  | zero => cases hw
  | succ room ih =>
      obtain ⟨room', rfl⟩ : ∃ n, room' = n + 1 := ⟨room' - 1, by omega⟩
      have hroom' : room ≤ room' := Nat.le_of_succ_le_succ hroom
      have hwrite : ∀ path path' v w r, toSafeWire R room path v = .ok w → restored R v = some r →
          r.ordered = true → toSafeWire R room' path' (r.toValue written) = .ok w :=
        fun _ _ _ _ _ hw hr hordered ↦ ih hw hr hordered hroom'
      cases v with
      | none | bool | int | text | bytes =>
          obtain rfl := Option.some.inj hr
          exact hw
      | float x =>
          obtain rfl := Option.some.inj hr
          rw [Restored.toValue, toSafeWire, writeFloat_fresh]
          exact hw
      | complex re im =>
          obtain ⟨real, hreal, hw⟩ := exists_of_bind_eq_ok hw
          obtain ⟨imag, himag, hw⟩ := exists_of_bind_eq_ok hw
          obtain rfl := Except.ok.inj hw
          obtain rfl := Option.some.inj hr
          have hreal' := hwrite _ (path' ++ ".real") (.float re) real _ hreal rfl rfl
          have himag' := hwrite _ (path' ++ ".imag") (.float im) imag _ himag rfl rfl
          rw [Restored.toValue] at hreal' himag'
          rw [Restored.toValue, toSafeWire, hreal', bind_ok, himag']
          rfl
      | generic item =>
          rw [toSafeWire] at hw
          rw [restored] at hr
          exact ih hw hr hordered (Nat.le_succ_of_le hroom')
      | protocol kind payload =>
          rw [restored] at hr
          split at hr
          · next es hes =>
              split_ifs at hr with hdistinct
              obtain ⟨o, ho, rfl⟩ := Option.map_eq_some_iff.mp hr
              cases hordered
          · cases hr
      | array a =>
          rw [toSafeWire] at hw
          split_ifs at hw with hobject
          rw [restored, restoredArray] at hr
          split at hr
          · next itemsize hdtype =>
              split_ifs at hr with hlength
              obtain rfl := Option.some.inj hr
              have hobject' : ¬ a.contiguous.hasObject = true := hobject
              rw [Restored.toValue, toSafeWire, RawArray.contiguous_contiguous, if_neg hobject']
              exact hw
          · cases hr
      | mapping entries =>
          obtain ⟨ws, hws, rfl⟩ := exists_of_map_eq_ok hw
          rw [restored] at hr
          split at hr
          · next es hes =>
              split_ifs at hr with hdistinct
              obtain rfl := Option.some.inj hr
              rw [Restored.toValue, toSafeWire, writeEntries_toEntries hwrite hws hes hordered]
              rfl
          · cases hr
      | collection className items =>
          obtain ⟨ws, hws, rfl⟩ := exists_of_map_eq_ok hw
          rw [restored] at hr
          split at hr
          · next kind rs hkind hrs =>
              split_ifs at hr with hdistinct
              obtain rfl := Option.some.inj hr
              obtain rfl := Tag.name_of_ofName hkind
              obtain ⟨-, hitems⟩ := Bool.and_eq_true_iff.mp hordered
              rw [Restored.toValue, toSafeWire, writeItems_toItems hwrite hws hrs hitems]
              rfl
          · cases hr
      | again => cases hw
      | other className => cases hw

namespace RedisValueCodec

end RedisValueCodec

end Blackbase.Context.RedisCodec
