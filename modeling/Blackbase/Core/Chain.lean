import Mathlib

/-!
# Following links

A node of a linked structure gives an answer, a link to follow, or neither.
`chase` follows the links until it meets an answer or a dead end.  It remembers the
nodes it has met and how many more it may meet, so that it stops on a structure with
a loop, and on one that is too deep, with a fault.

On a structure whose links go down in rank it never faults, and its answer is that of
the first node of the path that is not passed.
-/

universe u v

namespace Chain

/-- What is found at a node. -/
inductive Sight (α : Type u) (β : Type v) where
  /-- The search ends with an answer. -/
  | answer (b : β)
  /-- The search goes on at another node. -/
  | next (a : α)
  /-- There is nothing to follow. -/
  | dead
deriving DecidableEq

/-- Why a search is given up. -/
inductive Fault where
  | cycle | tooDeep
deriving DecidableEq, Repr

variable {α : Type u} {β : Type v}

/-- Search from `a`, where `visited` have been met and `n` more may be. -/
def chase [DecidableEq α] (look : α → Sight α β) :
    List α → ℕ → α → Except Fault (Option β)
  | visited, 0, a => if a ∈ visited then .error .cycle else .error .tooDeep
  | visited, n + 1, a =>
      if a ∈ visited then .error .cycle
      else match look a with
        | .answer b => .ok (some b)
        | .next a' => chase look (a :: visited) n a'
        | .dead => .ok none

/-- There is a link from `a` to `b`. -/
def Link (look : α → Sight α β) (a b : α) : Prop := look a = .next b

/-- Every link goes down in rank. -/
def Descending (look : α → Sight α β) (rank : α → ℕ) : Prop :=
  ∀ a b, Link look a b → rank b < rank a

section Chase

variable [DecidableEq α] {look : α → Sight α β} {visited : List α} {n : ℕ} {a b : α}

theorem chase_answer (ha : a ∉ visited) {x : β} (h : look a = .answer x) :
    chase look visited (n + 1) a = .ok (some x) := by
  rw [chase, if_neg ha, h]

theorem chase_dead (ha : a ∉ visited) (h : look a = .dead) :
    chase look visited (n + 1) a = .ok none := by
  rw [chase, if_neg ha, h]

theorem chase_next (ha : a ∉ visited) (h : look a = .next b) :
    chase look visited (n + 1) a = chase look (a :: visited) n b := by
  rw [chase, if_neg ha, h]

/-- What a search finds is the answer of some node. -/
theorem exists_of_chase {x : β} (h : chase look visited n a = .ok (some x)) :
    ∃ b, look b = .answer x := by
  induction n generalizing visited a with
  | zero =>
      rw [chase] at h
      split at h <;> cases h
  | succ n ih =>
      rw [chase] at h
      split at h
      · cases h
      · split at h
        · next b hb =>
            obtain rfl := Option.some.inj (Except.ok.inj h)
            exact ⟨a, hb⟩
        · exact ih h
        · cases h

end Chase

section Descending

variable {look : α → Sight α β} {rank : α → ℕ} (hdesc : Descending look rank)

include hdesc

theorem Descending.chain_rank {a : α} {path : List α} (h : List.IsChain (Link look) (a :: path)) :
    (∀ b ∈ path, rank b < rank a) ∧ path.length ≤ rank a := by
  induction path generalizing a with
  | nil => simp
  | cons b path ih =>
      obtain ⟨hlink, hrest⟩ := List.isChain_cons_cons.mp h
      have hlt := hdesc a b hlink
      obtain ⟨hall, hlen⟩ := ih hrest
      constructor
      · intro c hc
        rcases List.mem_cons.mp hc with rfl | hc
        · exact hlt
        · exact (hall c hc).trans hlt
      · rw [List.length_cons]
        omega

/-- A path along links does not meet a node twice. -/
theorem Descending.nodup {path : List α} (h : List.IsChain (Link look) path) : path.Nodup := by
  induction path with
  | nil => exact List.nodup_nil
  | cons a path ih =>
      refine List.nodup_cons.mpr ⟨fun ha ↦ ?_, ih h.tail⟩
      exact absurd ((hdesc.chain_rank h).1 a ha) (lt_irrefl _)

/-- A path along links is no longer than the rank of its first node. -/
theorem Descending.length_le {a : α} {path : List α}
    (h : List.IsChain (Link look) (a :: path)) : path.length ≤ rank a :=
  (hdesc.chain_rank h).2

/-- Where links go down in rank the search does not fault. -/
theorem Descending.chase_ok [DecidableEq α] {visited : List α} {n : ℕ} {a : α}
    (hvisited : ∀ v ∈ visited, rank a < rank v) (hn : rank a < n) :
    ∃ found, chase look visited n a = .ok found := by
  induction n generalizing visited a with
  | zero => exact absurd hn (Nat.not_lt_zero _)
  | succ n ih =>
      have ha : a ∉ visited := fun h ↦ absurd (hvisited a h) (lt_irrefl _)
      cases hlook : look a with
      | answer b => exact ⟨_, chase_answer ha hlook⟩
      | dead => exact ⟨_, chase_dead ha hlook⟩
      | next b =>
          have hlt := hdesc a b hlook
          rw [chase_next ha hlook]
          refine ih (fun v hv ↦ ?_) (by omega)
          rcases List.mem_cons.mp hv with rfl | hv
          · exact hlt
          · exact hlt.trans (hvisited v hv)

end Descending

/-! ## Searching along a known path -/

/-- The path leads to an answer: every node before it is passed along a link. -/
def Leads (look : α → Sight α β) : List α → Prop
  | [] => False
  | a :: path => (∃ b, look a = .answer b) ∨ (look a ≠ .dead ∧ Leads look path)

/-- A path that ends in an answer leads to one exactly if every dead end on it comes after
an answer. -/
theorem leads_append_iff {look : α → Sight α β} {path : List α} {last : α}
    (hlast : ∃ b, look last = .answer b) :
    Leads look (path ++ [last]) ↔ ∀ before x after, path = before ++ x :: after →
      look x = .dead → ∃ y ∈ before, ∃ b, look y = .answer b := by
  induction path with
  | nil => simp [Leads, hlast]
  | cons a path ih =>
      rw [List.cons_append, Leads, ih]
      constructor
      · rintro (hanswer | ⟨hdead, hrest⟩) before x after hsplit hx
        · cases before with
          | nil =>
              obtain ⟨rfl, -⟩ := List.cons.inj hsplit
              obtain ⟨b, hb⟩ := hanswer
              rw [hb] at hx
              cases hx
          | cons y before =>
              obtain ⟨rfl, -⟩ := List.cons.inj hsplit
              exact ⟨a, List.mem_cons_self, hanswer⟩
        · cases before with
          | nil =>
              obtain ⟨rfl, -⟩ := List.cons.inj hsplit
              exact absurd hx hdead
          | cons y before =>
              obtain ⟨rfl, hpath⟩ := List.cons.inj hsplit
              obtain ⟨z, hz, hb⟩ := hrest before x after hpath hx
              exact ⟨z, List.mem_cons_of_mem _ hz, hb⟩
      · intro hall
        by_cases hanswer : ∃ b, look a = .answer b
        · exact .inl hanswer
        · refine .inr ⟨fun hdead ↦ ?_, fun before x after hpath hx ↦ ?_⟩
          · obtain ⟨y, hy, -⟩ := hall [] a path rfl hdead
            cases hy
          · obtain ⟨y, hy, hb⟩ := hall (a :: before) x after (by rw [hpath]; rfl) hx
            rcases List.mem_cons.mp hy with rfl | hy
            · exact absurd hb hanswer
            · exact ⟨y, hy, hb⟩

/-- Each node of the path answers, is a dead end, or links to the one after it. -/
def Along (look : α → Sight α β) (a b : α) : Prop :=
  (∃ x, look a = .answer x) ∨ look a = .dead ∨ look a = .next b

/-- The search along a path that ends in an answer finds an answer exactly if no dead end
comes before the first one. -/
theorem chase_isSome_iff [DecidableEq α] {look : α → Sight α β} {visited path : List α} {n : ℕ}
    {a last : α} (hchain : List.IsChain (Along look) (a :: path))
    (hlast : (a :: path).getLast (List.cons_ne_nil _ _) = last) (hx : ∃ x, look last = .answer x)
    (hnodup : (visited ++ a :: path).Nodup) (hn : path.length < n) :
    (∃ x, chase look visited n a = .ok (some x)) ↔ Leads look (a :: path) := by
  induction path generalizing a visited n with
  | nil =>
      obtain ⟨x, hx⟩ := hx
      obtain rfl : a = last := hlast
      obtain ⟨m, rfl⟩ := Nat.exists_eq_succ_of_ne_zero (Nat.ne_of_gt hn)
      have ha : a ∉ visited := fun h ↦
        (List.nodup_cons.mp (List.nodup_middle.mp hnodup)).1 (List.mem_append_left _ h)
      constructor
      · exact fun _ ↦ .inl ⟨x, hx⟩
      · exact fun _ ↦ ⟨x, chase_answer ha hx⟩
  | cons b path ih =>
      obtain ⟨m, rfl⟩ := Nat.exists_eq_succ_of_ne_zero (Nat.ne_of_gt (Nat.zero_lt_of_lt hn))
      obtain ⟨halong, hrest⟩ := List.isChain_cons_cons.mp hchain
      have ha : a ∉ visited := fun h ↦
        (List.nodup_cons.mp (List.nodup_middle.mp hnodup)).1 (List.mem_append_left _ h)
      rcases halong with ⟨x, hlook⟩ | hlook | hlook
      · constructor
        · exact fun _ ↦ .inl ⟨x, hlook⟩
        · exact fun _ ↦ ⟨x, chase_answer ha hlook⟩
      · rw [Nat.succ_eq_add_one, chase_dead ha hlook]
        simp [Leads, hlook]
      · rw [Nat.succ_eq_add_one, chase_next ha hlook,
          ih hrest (by rwa [List.getLast_cons (List.cons_ne_nil _ _)] at hlast)
            (List.nodup_middle.mp hnodup) (by simpa using hn)]
        simp [Leads, hlook]

end Chain
