import Blackbase.Project.Delegation.Model

/-!
# The children of a parent

What the budgets of a parent's children come to: the limits of the delegations that are open, and
the units charged for those that have ended.  `Bounded` says that together they stay within a
handle, and `Fits` that the handle has room for an event.
-/

namespace Blackbase.Project

open Blackbase.Resources

variable {D : Type}

/-! ## What one delegation gives -/

/-- What a delegation of `entry` has made. -/
structure Delegated (ctx : ParentContext D) (entry : BudgetEntry) (d : BudgetDelegation D) :
    Prop where
  budget : d.handle.budget = entry.semanticName
  limit : d.handle.limit = entry.requested
  authority : d.handle.authority = childDescriptor ctx entry.semanticName
  within : ∀ h, ctx.handle? entry.semanticName = some h → h.authority = none →
    entry.requested ≤ h.limit

variable {ctx : ParentContext D} {entry : BudgetEntry}

/-! ## Staying within the handle -/

/-- The limits of the delegations of `name` that are open. -/
def openLimit (name : String) (budgets : List (ChildBudget D)) : ℤ :=
  (budgets.map fun c ↦
    if c.delegation.handle.budget = name ∧ c.finished = false then c.delegation.handle.limit
    else 0).sum

/-- The units charged for the delegations of `name` that have finished. -/
def chargedFor (name : String) (budgets : List (ChildBudget D)) : ℤ :=
  (budgets.map fun c ↦
    if c.delegation.handle.budget = name ∧ c.finished then c.charged else 0).sum

namespace DelegationState

/-- The limits of all the delegations of `name` that are open. -/
def openLimits (s : DelegationState D) (name : String) : ℤ :=
  (s.children.map (openLimit name)).sum

/-- The delegations from the handle stay within it, and each child is charged what it consumed. -/
structure Bounded (s : DelegationState D) (h : BudgetHandle D) : Prop where
  within : (s.children.map (chargedFor h.budget)).sum + s.openLimits h.budget ≤ h.limit
  charged : ∀ budgets ∈ s.children, ∀ c ∈ budgets, c.delegation.handle.budget = h.budget →
    c.finished → c.charged = c.consumed

/-- What the handle has room for: of the units that it could give on its own, those that are not
taken by an open delegation; and the end of a child that has consumed nothing. -/
def Fits (s : DelegationState D) (h : BudgetHandle D) : DelegationEvent D → Prop
  | .invoke _ _ _ request => ∀ entry ∈ request.entries, entry.semanticName = h.budget →
      entry.requested ≤ h.limit → s.openLimits h.budget + entry.requested ≤ h.limit
  | .finish child _ => ∀ budgets, s.children[child]? = some budgets → ∀ c ∈ budgets,
      c.delegation.handle.budget = h.budget → c.consumed = 0
  | _ => True

/-- The event asks for nothing that another budget or the journal could refuse; a child that ends
has been running. -/
def Plain (s : DelegationState D) : DelegationEvent D → Prop
  | .invoke _ _ _ request => ∃ entry, request.entries = [entry] ∧ entry.prepares = true ∧
      entry.marksReserved = true
  | .finish child _ => ∀ budgets, s.children[child]? = some budgets →
      budgets.any ChildBudget.finished = false
  | _ => True

/-- The delegations from a handle without an authority. -/
def Local (h : BudgetHandle D) (c : ChildBudget D) : Prop :=
  c.delegation.handle.budget = h.budget →
    c.delegation.handle.authority = none ∧ (c.finished → c.charged = 0)

variable {s : DelegationState D} {h : BudgetHandle D}

/-- Every child's delegations from the handle are without an authority. -/
def LocalTo (s : DelegationState D) (h : BudgetHandle D) : Prop :=
  ∀ budgets ∈ s.children, ∀ c ∈ budgets, Local h c

theorem openLimit_nonneg (name : String) (budgets : List (ChildBudget D)) :
    0 ≤ openLimit name budgets := by
  refine List.sum_nonneg fun x hx ↦ ?_
  obtain ⟨c, -, rfl⟩ := List.mem_map.mp hx
  split_ifs
  · exact c.delegation.handle.limit_nonneg
  · exact le_rfl

theorem chargedFor_local {budgets : List (ChildBudget D)} (hlocal : ∀ c ∈ budgets, Local h c) :
    chargedFor h.budget budgets = 0 := by
  refine List.sum_eq_zero fun x hx ↦ ?_
  obtain ⟨c, hc, rfl⟩ := List.mem_map.mp hx
  split_ifs with hname
  · exact (hlocal c hc hname.1).2 hname.2
  · rfl

/-- Nothing is charged, so what counts is what is open. -/
theorem LocalTo.charges (hs : s.LocalTo h) : (s.children.map (chargedFor h.budget)).sum = 0 := by
  refine List.sum_eq_zero fun x hx ↦ ?_
  obtain ⟨budgets, hbudgets, rfl⟩ := List.mem_map.mp hx
  exact chargedFor_local (hs budgets hbudgets)

theorem modify_split {α : Type} (f : α → α) (i : ℕ) (l : List α) :
    l.modify i f = l ∨
      ∃ front a back, l = front ++ a :: back ∧ l[i]? = some a ∧
        l.modify i f = front ++ f a :: back := by
  by_cases hi : i < l.length
  · obtain ⟨front, a, back, heq, hlength, hmodify⟩ := List.exists_of_modify f hi
    refine .inr ⟨front, a, back, heq, ?_, hmodify⟩
    rw [heq, ← hlength]
    simp
  · exact .inl (List.modify_eq_self (not_lt.mp hi))

/-! ### Consuming -/

theorem consume_eq (amount : ℤ) (c : ChildBudget D) :
    (c.consume amount).delegation = c.delegation ∧ (c.consume amount).finished = c.finished ∧
      (c.consume amount).settlement = c.settlement ∧
        (c.finished → (c.consume amount).consumed = c.consumed) := by
  unfold ChildBudget.consume
  split_ifs with hrunning
  · refine ⟨rfl, rfl, rfl, fun h ↦ ?_⟩
    rw [hrunning.1] at h
    cases h
  · exact ⟨rfl, rfl, rfl, fun _ ↦ rfl⟩

theorem charged_consume (amount : ℤ) (c : ChildBudget D) :
    (c.consume amount).charged = c.charged := by
  rw [ChildBudget.charged, (consume_eq amount c).2.2.1, ← ChildBudget.charged]

theorem Local.consume {c : ChildBudget D} (hc : Local h c) (amount : ℤ) :
    Local h (c.consume amount) := by
  obtain ⟨hdelegation, hfinished, -, -⟩ := consume_eq amount c
  unfold Local
  rw [hdelegation, hfinished, charged_consume]
  exact hc

theorem openLimit_consume (name : String) (budget : ℕ) (amount : ℤ)
    (budgets : List (ChildBudget D)) :
    openLimit name (budgets.modify budget (ChildBudget.consume amount)) =
      openLimit name budgets := by
  obtain heq | ⟨front, c, back, heq, -, hmodify⟩ :=
    modify_split (ChildBudget.consume amount) budget budgets
  · rw [heq]
  · obtain ⟨hdelegation, hfinished, -, -⟩ := consume_eq amount c
    rw [hmodify, heq]
    simp only [openLimit, List.map_append, List.map_cons, hdelegation, hfinished]

/-! ### Invoking -/

/-- A child that starts with what it was given. -/
def start (d : BudgetDelegation D) : ChildBudget D := ⟨d, 0, false, none⟩

theorem openLimit_start {request : List BudgetEntry} {made : List (BudgetDelegation D)}
    (hmade : List.Forall₂ (Delegated ctx) request made) (name : String) :
    openLimit name (made.map start) =
      (request.map fun entry ↦ if entry.semanticName = name then entry.requested else 0).sum := by
  induction hmade with
  | nil => rfl
  | @cons entry d rest made hd _ ih =>
      simp only [openLimit, List.map_cons, List.sum_cons, List.map_map] at ih ⊢
      rw [ih]
      simp only [start, hd.budget, hd.limit, and_true]

/-- Of the entries of a request at most one is for the budget. -/
theorem sum_requested (request : BudgetRequest) (name : String) :
    (∀ entry ∈ request.entries, entry.semanticName ≠ name) ∧
        (request.entries.map fun entry ↦
          if entry.semanticName = name then entry.requested else 0).sum = 0 ∨
      ∃ entry ∈ request.entries, entry.semanticName = name ∧
        (request.entries.map fun entry ↦
          if entry.semanticName = name then entry.requested else 0).sum = entry.requested := by
  have hzero : ∀ entries : List BudgetEntry, (∀ entry ∈ entries, entry.semanticName ≠ name) →
      (entries.map fun entry ↦
        if entry.semanticName = name then entry.requested else 0).sum = 0 := by
    intro entries hentries
    refine List.sum_eq_zero fun x hx ↦ ?_
    obtain ⟨entry, hentry, rfl⟩ := List.mem_map.mp hx
    exact if_neg (hentries entry hentry)
  have hnodup := request.names_nodup
  generalize request.entries = entries at hnodup ⊢
  induction entries with
  | nil => exact .inl ⟨fun _ h ↦ (List.not_mem_nil h).elim, rfl⟩
  | cons entry rest ih =>
      obtain ⟨hnot, hrest⟩ := List.nodup_cons.mp hnodup
      by_cases hname : entry.semanticName = name
      · refine .inr ⟨entry, List.mem_cons_self, hname, ?_⟩
        rw [List.map_cons, List.sum_cons, if_pos hname, hzero rest, add_zero]
        intro other hother heq
        exact hnot (List.mem_map.mpr ⟨other, hother, heq.trans hname.symm⟩)
      · rw [List.map_cons, List.sum_cons, if_neg hname, zero_add]
        obtain ⟨hnone, hsum⟩ | ⟨other, hother, heq, hsum⟩ := ih hrest
        · refine .inl ⟨fun other hother ↦ ?_, hsum⟩
          obtain rfl | hother := List.mem_cons.mp hother
          · exact hname
          · exact hnone other hother
        · exact .inr ⟨other, List.mem_cons_of_mem _ hother, heq, hsum⟩

theorem exists_delegated {request : List BudgetEntry} {made : List (BudgetDelegation D)}
    (hmade : List.Forall₂ (Delegated ctx) request made) {entry : BudgetEntry}
    (hentry : entry ∈ request) : ∃ d, Delegated ctx entry d := by
  obtain ⟨i, hi, rfl⟩ := List.getElem_of_mem hentry
  exact ⟨_, hmade.get hi (hmade.length_eq ▸ hi)⟩

/-! ### One event -/

/-- The children that have finished are charged what they consumed. -/
def Charges (h : BudgetHandle D) (budgets : List (ChildBudget D)) : Prop :=
  ∀ c ∈ budgets, c.delegation.handle.budget = h.budget → c.finished → c.charged = c.consumed

/-- What an event does to the budgets of one child; `fits` says that it is one the handle has room
for. -/
structure Turns (h : BudgetHandle D) (fits : Prop) (budgets budgets' : List (ChildBudget D)) :
    Prop where
  openLimit_le : openLimit h.budget budgets' ≤ openLimit h.budget budgets
  local_ : (∀ c ∈ budgets, Local h c) → ∀ c ∈ budgets', Local h c
  charges : fits → (∀ c ∈ budgets, Local h c) → Charges h budgets → Charges h budgets'

theorem turns_consume (fits : Prop) (budget : ℕ) (amount : ℤ) (budgets : List (ChildBudget D)) :
    Turns h fits budgets (budgets.modify budget (ChildBudget.consume amount)) := by
  refine ⟨(openLimit_consume h.budget budget amount budgets).le, ?_, ?_⟩
  · intro hbudgets c hc
    obtain heq | ⟨front, old, back, heq, -, hmodify⟩ :=
      modify_split (ChildBudget.consume amount) budget budgets
    · rw [heq] at hc
      exact hbudgets c hc
    · rw [hmodify] at hc
      rw [heq] at hbudgets
      obtain hc | rfl | hc := by simpa using hc
      · exact hbudgets c (by simp [hc])
      · exact (hbudgets old (by simp)).consume amount
      · exact hbudgets c (by simp [hc])
  · intro _ _ hcharges c hc hname hfinished
    obtain heq | ⟨front, old, back, heq, -, hmodify⟩ :=
      modify_split (ChildBudget.consume amount) budget budgets
    · rw [heq] at hc
      exact hcharges c hc hname hfinished
    · rw [hmodify] at hc
      rw [heq] at hcharges
      obtain hc | rfl | hc := by simpa using hc
      · exact hcharges c (by simp [hc]) hname hfinished
      · obtain ⟨hdelegation, hsame, -, hkept⟩ := consume_eq amount old
        rw [hdelegation] at hname
        rw [hsame] at hfinished
        rw [charged_consume, hkept hfinished]
        exact hcharges old (by simp) hname hfinished
      · exact hcharges c (by simp [hc]) hname hfinished
/-- Under a handle without an authority only the open delegations count. -/
theorem LocalTo.bounded_iff (hs : s.LocalTo h) :
    s.Bounded h ↔ s.openLimits h.budget ≤ h.limit ∧ ∀ budgets ∈ s.children, Charges h budgets := by
  constructor
  · intro hbounded
    have hwithin := hbounded.within
    rw [hs.charges, zero_add] at hwithin
    exact ⟨hwithin, hbounded.charged⟩
  · rintro ⟨hwithin, hcharges⟩
    refine ⟨?_, hcharges⟩
    rw [hs.charges, zero_add]
    exact hwithin


end DelegationState

end Blackbase.Project
