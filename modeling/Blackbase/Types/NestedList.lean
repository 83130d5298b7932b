import Mathlib.Algebra.BigOperators.Group.List.Basic

/-!
# Arrays as nested lists

An array has a shape and its elements in row-major order.  `tolist` writes it as nested lists, and
`asarray` reads nested lists whose rows all have one shape.  A list without rows says nothing of
the dimensions that would follow, so the shape that is read back ends with the first empty
dimension.
-/

universe u

namespace Blackbase.Types

/-- Numbers in lists in lists. -/
inductive Nested (F : Type u) where
  | number (x : F)
  | list (items : List (Nested F))

/-- An array. -/
structure NdArray (F : Type u) where
  shape : List ℕ
  data : List F
  length_data : data.length = shape.prod

namespace NdArray

variable {F : Type u}

@[ext] theorem ext {a b : NdArray F} (hshape : a.shape = b.shape) (hdata : a.data = b.data) :
    a = b := by
  cases a
  cases b
  simp_all

/-- `a.ndim`. -/
def ndim (a : NdArray F) : ℕ := a.shape.length

/-- `a.size`. -/
def size (a : NdArray F) : ℕ := a.data.length

/-- The first `n` blocks of that size. -/
def blocks (size : ℕ) : ℕ → List F → List (List F)
  | 0, _ => []
  | n + 1, data => data.take size :: blocks size n (data.drop size)

/-- `tolist`, from the shape and the elements. -/
def nest : List ℕ → List F → Nested F
  | [], x :: _ => .number x
  | [], [] => .list []
  | n :: shape, data => .list ((blocks shape.prod n data).map (nest shape))

/-- `a.tolist()`. -/
def tolist (a : NdArray F) : Nested F := nest a.shape a.data

end NdArray

namespace Nested

variable {F : Type u}

/-- The shape of a list, from that of its first item and that of the list of the others. -/
def stack (first : Option (List ℕ)) (last : Bool) (others : Option (List ℕ)) :
    Option (List ℕ) :=
  match first, last, others with
  | some s, true, _ => some (1 :: s)
  | some s, false, some (n :: s') => if s = s' then some ((n + 1) :: s) else none
  | _, _, _ => none

mutual

/-- The shape of nested lists, unless they are ragged. -/
def shape : Nested F → Option (List ℕ)
  | number _ => some []
  | list items => shapeAll items

def shapeAll : List (Nested F) → Option (List ℕ)
  | [] => some [0]
  | v :: rest => stack (shape v) rest.isEmpty (shapeAll rest)

end

mutual

/-- The numbers from left to right. -/
def numbers : Nested F → List F
  | number x => [x]
  | list items => numbersAll items

def numbersAll : List (Nested F) → List F
  | [] => []
  | v :: rest => numbers v ++ numbersAll rest

end

theorem stack_eq_some {first others : Option (List ℕ)} {last : Bool} {s : List ℕ}
    (h : stack first last others = some s) :
    (last = true ∧ ∃ s', first = some s' ∧ s = 1 :: s') ∨
      (last = false ∧ ∃ n s', first = some s' ∧ others = some (n :: s') ∧ s = (n + 1) :: s') := by
  unfold stack at h
  split at h
  · cases h
    exact Or.inl ⟨rfl, _, rfl, rfl⟩
  · split_ifs at h with hsame
    cases h
    subst hsame
    exact Or.inr ⟨rfl, _, _, rfl, rfl, rfl⟩
  · cases h

mutual

theorem length_numbers : ∀ (v : Nested F) {s : List ℕ}, shape v = some s →
    (numbers v).length = s.prod
  | number _, s, h => by
      obtain rfl := Option.some.inj h
      rfl
  | list items, s, h => length_numbersAll items h

theorem length_numbersAll : ∀ (items : List (Nested F)) {s : List ℕ}, shapeAll items = some s →
    (numbersAll items).length = s.prod
  | [], s, h => by
      obtain rfl := Option.some.inj h
      rfl
  | v :: rest, s, h => by
      rw [shapeAll] at h
      rw [numbersAll, List.length_append]
      rcases stack_eq_some h with ⟨hlast, s', hv, rfl⟩ | ⟨-, n, s', hv, hrest, rfl⟩
      · rw [length_numbers v hv, List.isEmpty_iff.mp hlast]
        simp [numbersAll]
      · rw [length_numbers v hv, length_numbersAll rest hrest]
        rw [List.prod_cons, List.prod_cons, Nat.succ_mul, Nat.add_comm]

end

/-- `np.asarray(v, dtype=float)`, which refuses ragged lists. -/
def asarray (v : Nested F) : Option (NdArray F) :=
  match h : shape v with
  | some s => some ⟨s, numbers v, length_numbers v h⟩
  | none => none

theorem asarray_eq_some {v : Nested F} {a : NdArray F} (hshape : shape v = some a.shape)
    (hdata : numbers v = a.data) : asarray v = some a := by
  unfold asarray
  split
  · next s hs =>
      refine congrArg some (NdArray.ext ?_ hdata)
      exact Option.some.inj (hs.symm.trans hshape)
  · next hnone =>
      rw [hnone] at hshape
      cases hshape

/-- Rows of one shape. -/
theorem shapeAll_eq {s : List ℕ} {v : Nested F} {rest : List (Nested F)}
    (h : ∀ w ∈ v :: rest, shape w = some s) :
    shapeAll (v :: rest) = some ((rest.length + 1) :: s) := by
  induction rest generalizing v with
  | nil =>
      rw [shapeAll, h v List.mem_cons_self]
      rfl
  | cons w rest ih =>
      rw [shapeAll, ih fun x hx ↦ h x (List.mem_cons_of_mem _ hx), h v List.mem_cons_self]
      exact if_pos rfl

theorem numbersAll_eq_flatMap (items : List (Nested F)) :
    numbersAll items = items.flatMap numbers := by
  induction items with
  | nil => rfl
  | cons v rest ih => rw [numbersAll, ih, List.flatMap_cons]

end Nested

namespace NdArray

variable {F : Type u}

/-! ## What is read back -/

/-- The dimensions up to the first empty one. -/
def upToEmpty : List ℕ → List ℕ
  | [] => []
  | 0 :: _ => [0]
  | (n + 1) :: rest => (n + 1) :: upToEmpty rest

/-- No dimension follows an empty one. -/
def EmptyLast : List ℕ → Prop
  | [] => True
  | 0 :: rest => rest = []
  | (_ + 1) :: rest => EmptyLast rest

theorem upToEmpty_eq_iff (s : List ℕ) : upToEmpty s = s ↔ EmptyLast s := by
  induction s with
  | nil => exact iff_of_true rfl trivial
  | cons n rest ih =>
      cases n with
      | zero =>
          show [0] = 0 :: rest ↔ rest = []
          rw [List.cons.injEq, eq_self_iff_true, true_and, eq_comm]
      | succ n =>
          show (n + 1) :: upToEmpty rest = (n + 1) :: rest ↔ EmptyLast rest
          rw [List.cons.injEq, eq_self_iff_true, true_and, ih]

theorem prod_upToEmpty (s : List ℕ) : (upToEmpty s).prod = s.prod := by
  induction s with
  | nil => rfl
  | cons n rest ih =>
      cases n with
      | zero => simp [upToEmpty]
      | succ n =>
          show ((n + 1) :: upToEmpty rest).prod = _
          rw [List.prod_cons, List.prod_cons, ih]

theorem mem_blocks {size n : ℕ} {data block : List F} (hdata : data.length = n * size)
    (h : block ∈ blocks size n data) : block.length = size := by
  induction n generalizing data with
  | zero => cases h
  | succ n ih =>
      rcases List.mem_cons.mp h with rfl | hrest
      · rw [List.length_take, hdata, Nat.succ_mul]
        omega
      · refine ih ?_ hrest
        rw [List.length_drop, hdata, Nat.succ_mul]
        omega

theorem length_blocks (size n : ℕ) (data : List F) : (blocks size n data).length = n := by
  induction n generalizing data with
  | zero => rfl
  | succ n ih => rw [blocks, List.length_cons, ih]

theorem flatten_blocks {size n : ℕ} {data : List F} (hdata : data.length = n * size) :
    (blocks size n data).flatten = data := by
  induction n generalizing data with
  | zero =>
      rw [Nat.zero_mul, List.length_eq_zero_iff] at hdata
      rw [hdata]
      rfl
  | succ n ih =>
      rw [blocks, List.flatten_cons, ih, List.take_append_drop]
      rw [List.length_drop, hdata, Nat.succ_mul]
      omega

theorem shape_nest (s : List ℕ) : ∀ data : List F, data.length = s.prod →
    (nest s data).shape = some (upToEmpty s) := by
  induction s with
  | nil =>
      intro data hdata
      obtain ⟨x, rfl⟩ := List.length_eq_one_iff.mp hdata
      rfl
  | cons n rest ih =>
      intro data hdata
      rw [List.prod_cons] at hdata
      cases n with
      | zero => rfl
      | succ n =>
          have hrows : ∀ v ∈ (blocks rest.prod (n + 1) data).map (nest rest),
              v.shape = some (upToEmpty rest) := by
            intro v hv
            obtain ⟨block, hblock, rfl⟩ := List.mem_map.mp hv
            exact ih block (mem_blocks hdata hblock)
          have hshape := Nested.shapeAll_eq hrows
          rw [List.length_map, length_blocks] at hshape
          exact hshape

theorem numbers_nest (s : List ℕ) : ∀ data : List F, data.length = s.prod →
    (nest s data).numbers = data := by
  induction s with
  | nil =>
      intro data hdata
      obtain ⟨x, rfl⟩ := List.length_eq_one_iff.mp hdata
      rfl
  | cons n rest ih =>
      intro data hdata
      rw [List.prod_cons] at hdata
      show Nested.numbersAll ((blocks rest.prod n data).map (nest rest)) = data
      rw [Nested.numbersAll_eq_flatMap, List.flatMap_map]
      have hrows : (blocks rest.prod n data).flatMap (fun block ↦ (nest rest block).numbers) =
          (blocks rest.prod n data).flatMap id :=
        List.flatMap_congr fun block hblock ↦ ih block (mem_blocks hdata hblock)
      rw [hrows, List.flatMap_id, flatten_blocks hdata]

/-- The array that is read back from the nested lists of another one. -/
def reread (a : NdArray F) : NdArray F where
  shape := upToEmpty a.shape
  data := a.data
  length_data := a.length_data.trans (prod_upToEmpty a.shape).symm

theorem asarray_tolist (a : NdArray F) : a.tolist.asarray = some a.reread :=
  Nested.asarray_eq_some (shape_nest a.shape a.data a.length_data)
    (numbers_nest a.shape a.data a.length_data)

theorem reread_eq_iff (a : NdArray F) : a.reread = a ↔ EmptyLast a.shape := by
  rw [← upToEmpty_eq_iff]
  constructor
  · exact fun h ↦ congrArg shape h
  · exact fun h ↦ ext h rfl

end NdArray

end Blackbase.Types
