import Blackbase.Project.Delegation.Children
import Blackbase.Resources.Account.Holding

/-!
# Delegating from a handle without an authority

A parent may hold a handle of `L` units with no authority behind it.  What its children are given
from that handle should stay within `L`, and a child that has finished should be charged what it
has consumed.

Neither is so by itself.  Every delegation builds its account anew from the handle, so it has all
`L` units to give whatever is still open; and the usage of a child is read from its authority, so
without one the charge is nothing.
-/

namespace Blackbase.Project

open Blackbase.Resources

variable {D : Type} {ctx : ParentContext D} {stores : Authorities D} {entry : BudgetEntry}

/-! ## What one delegation gives -/


/-- A handle stands under a stripped name. -/
theorem strip_of_handle {name : String} {h : BudgetHandle D} (hh : ctx.handle? name = some h) :
    Text.strip name = name := by
  rw [← Rows.key_of_lookup hh]
  exact h.budget_strip

theorem strip_of_granted
    (h : ¬ ((ctx.handle? entry.semanticName).isNone ∧ entry.semanticName ∉ ctx.declared)) :
    Text.strip entry.semanticName = entry.semanticName := by
  cases hh : ctx.handle? entry.semanticName with
  | some handle => exact strip_of_handle hh
  | none =>
      rw [hh] at h
      exact ctx.declared_strip _ (by simpa using h)

/-- The account of a handle without an authority: a fresh one. -/
theorem fromHandle_local {h : BudgetHandle D} (hlocal : h.authority = none)
    {client : ClientAccount D} (hclient : fromHandle stores h = .ok client) :
    client.authority = none ∧ client.account.Fresh ∧ client.account.authority = none ∧
      client.account.limit = some h.limit := by
  unfold fromHandle at hclient
  split at hclient
  · cases hclient
  next a hmake =>
  obtain rfl := Except.ok.inj hclient
  obtain ⟨hfresh, hauthority, -, -, -, hlimit, -⟩ := BudgetAccount.make_fresh hmake
  rw [hlocal] at hauthority
  exact ⟨hlocal, hfresh, hauthority, hlimit⟩

/-- An account that is fresh stays so whatever its store. -/
theorem Fresh.attached {c : ClientAccount D} (h : c.account.Fresh) (stores : Authorities D) :
    (c.attached stores).Fresh := ⟨h.limit, h.spent, h.objects, h.claims⟩

/-- A handle is made with the limit and the authority it is given. -/
theorem make_handle {handleId budget authorityBudget leaseId parentReservationId : String}
    {limit fencingToken : ℤ} {authority : Option D} {h : BudgetHandle D}
    (hmake : BudgetHandle.make handleId budget authorityBudget limit authority leaseId fencingToken
      parentReservationId = .ok h) :
    h.budget = Text.strip budget ∧ h.limit = limit ∧ h.authority = authority := by
  unfold BudgetHandle.make at hmake
  extract_lets name at hmake
  split at hmake
  · cases hmake
  split at hmake
  · cases hmake
  split at hmake
  · cases hmake
  obtain rfl := Except.ok.inj hmake
  exact ⟨rfl, rfl, rfl⟩


variable [DecidableEq D]

/-- A fresh account with a limit allows what is within it. -/
theorem allowance_le {a : BudgetAccount} (ha : a.Fresh) {limit : ℤ} (hlimit : a.limit = some limit)
    {now : Time} {requested allowed : ℤ} {a' : BudgetAccount}
    (h : a.allowance now requested none = (.ok allowed, a')) : allowed ≤ limit := by
  unfold BudgetAccount.allowance at h
  rw [ha.remainingLimit, hlimit] at h
  split at h
  · cases h
  split at h
  · cases h
  dsimp only at h
  split at h
  · obtain ⟨rfl, -⟩ := Prod.ext_iff.mp h |>.imp_left Except.ok.inj
    exact min_le_right _ _
  · split at h
    · cases h
    · obtain ⟨rfl, -⟩ := Prod.ext_iff.mp h |>.imp_left Except.ok.inj
      split
      · exact (min_le_left _ _).trans (min_le_right _ _)
      · exact min_le_right _ _

/-- What a call returns. -/
theorem call_fst {α : Type} (c : ClientAccount D) (stores : Authorities D)
    (f : BudgetAccount → α × BudgetAccount) :
    (c.call stores f).1 = (f (c.attached stores)).1 := rfl

/-- An account without an authority leaves the stores alone. -/
theorem call_local {α : Type} {c : ClientAccount D} (hnone : c.authority = none)
    (stores : Authorities D) (f : BudgetAccount → α × BudgetAccount) :
    c.call stores f = ((f (c.attached stores)).1, { c with account := (f (c.attached stores)).2 },
      stores) := by
  rw [ClientAccount.call]
  simp only [hnone]

theorem delegated_of_ok {childRunId : String} {d : BudgetDelegation D} {stores' : Authorities D}
    (h : delegateBudget ctx childRunId stores entry = (.ok d, stores')) :
    Delegated ctx entry d := by
  unfold delegateBudget at h
  split at h
  · cases h
  next hgranted =>
  have hstrip := strip_of_granted hgranted
  split at h
  · cases h
  next client hclient =>
  split at h
  · cases h
  next allowed client' stores₁ hallowed =>
  split at h
  · cases h
  next hle =>
  dsimp only at h
  split at h
  · cases h
  split at h
  · cases h
  next handle hmake =>
  split at h
  · cases h
  obtain ⟨hbudget, hlimit, hauthority⟩ := make_handle hmake
  have hhandle : d.handle = handle := by
    unfold reserveChild at h
    split at h
    · cases h
    dsimp only at h
    split at h
    · cases h
    obtain ⟨rfl, -⟩ := Prod.ext_iff.mp h |>.imp_left Except.ok.inj
    rfl
  refine ⟨hhandle ▸ hbudget.trans hstrip, hhandle ▸ hlimit, hhandle ▸ hauthority, ?_⟩
  intro parent hparent hlocal
  have hfrom : fromHandle stores parent = .ok client := by
    rw [fromResourceContext, hstrip, hparent] at hclient
    exact hclient
  obtain ⟨hnone, hfresh, -, haccount⟩ := fromHandle_local hlocal hfrom
  have hallow : allowed ≤ parent.limit := by
    have hfst := call_fst client stores (·.allowance entry.now entry.requested none)
    rw [hallowed] at hfst
    generalize hres : BudgetAccount.allowance _ entry.now entry.requested none = res at hfst
    obtain ⟨out, a'⟩ := res
    obtain rfl : Except.ok allowed = out := hfst
    exact allowance_le (Fresh.attached hfresh stores) haccount hres
  exact (not_lt.mp hle).trans hallow

/-- What all of a request's delegations have made. -/
theorem delegateLoop_ok {childRunId : String} {now : Time} {reclaims : ℕ → Bool}
    {request : List BudgetEntry} {output ds : List (BudgetDelegation D)} {stores' : Authorities D}
    (h : delegateLoop ctx childRunId now reclaims stores output request = (.ok ds, stores')) :
    ∃ made, ds = output ++ made ∧ List.Forall₂ (Delegated ctx) request made := by
  induction request generalizing stores output with
  | nil =>
      obtain ⟨rfl, -⟩ := Prod.ext_iff.mp h |>.imp_left Except.ok.inj
      exact ⟨[], (List.append_nil _).symm, .nil⟩
  | cons entry rest ih =>
      unfold delegateLoop at h
      split at h
      · cases h
      next d stores₁ hd =>
      obtain ⟨made, rfl, hmade⟩ := ih h
      exact ⟨d :: made, List.append_assoc _ _ _, .cons (delegated_of_ok hd) hmade⟩

/-! ## What a child is charged -/

theorem budgetUsageForHandle_local {h : BudgetHandle D} (hlocal : h.authority = none)
    (stores : Authorities D) (now : Time) :
    ∃ u, budgetUsageForHandle stores now h = (.ok u, stores) ∧ u.chargedToParent = 0 := by
  refine ⟨⟨h.handleId, h.limit, 0, 0, min h.limit (0 + 0), max 0 (h.limit - min h.limit (0 + 0))⟩,
    ?_, min_eq_right h.limit_nonneg⟩
  rw [budgetUsageForHandle, hlocal]

/-- Nothing is charged for a handle without an authority. -/
theorem finalizeBudget_local {choices : SettlementChoices} {d : BudgetDelegation D}
    (hlocal : d.handle.authority = none) {st : BudgetSettlement D} {stores' : Authorities D}
    (h : finalizeBudget stores choices d = (some st, stores')) :
    ∀ u, st.usage = some u → u.chargedToParent = 0 := by
  obtain ⟨usage, husage, hzero⟩ := budgetUsageForHandle_local hlocal stores choices.now
  unfold finalizeBudget at h
  rw [husage] at h
  extract_lets retry at h
  have hretry : ∀ client stores₁, retry (some usage) client stores₁ = (some st, stores') →
      st.usage = some usage := by
    intro client stores₁ hr
    obtain ⟨hst, -⟩ := Prod.ext_iff.mp hr
    dsimp only [retry] at hst
    split at hst
    · obtain rfl := Option.some.inj hst
      rfl
    · cases hst
  have hreported : st.usage = some usage := by
    dsimp only at h
    split at h
    · exact hretry _ _ h
    split at h
    · exact hretry _ _ h
    split at h
    · exact hretry _ _ h
    obtain ⟨hst, -⟩ := Prod.ext_iff.mp h
    obtain rfl := Option.some.inj hst
    rfl
  intro u hu
  obtain rfl := Option.some.inj (hreported.symm.trans hu)
  exact hzero

theorem finalizeBudgets_local (choices : ℕ → SettlementChoices) (n : ℕ) (stores : Authorities D)
    (ds : List (BudgetDelegation D)) :
    List.Forall₂ (fun d settlement ↦ d.handle.authority = none → ∀ st u, settlement = some st →
      st.usage = some u → u.chargedToParent = 0) ds (finalizeBudgets choices n stores ds).1 := by
  induction ds generalizing n stores with
  | nil => exact .nil
  | cons d rest ih =>
      unfold finalizeBudgets
      split
      · refine .cons (fun _ st u h ↦ by cases h) ?_
        rw [List.forall₂_map_right_iff, List.forall₂_same]
        intro d' _ _ st u h
        cases h
      · next st stores' heq =>
          refine .cons (fun hlocal st' u hst hu ↦ ?_) (ih (n + 1) stores')
          obtain rfl := Option.some.inj hst
          exact finalizeBudget_local hlocal heq u hu

/-- The child `c` as it is once it has finished. -/
structure Finishes (c c' : ChildBudget D) : Prop where
  delegation : c'.delegation = c.delegation
  consumed : c'.consumed = c.consumed
  finished : c'.finished = true
  charged : c.delegation.handle.authority = none → c'.charged = 0

theorem finishChild_spec (choices : ℕ → SettlementChoices) (stores : Authorities D)
    {budgets : List (ChildBudget D)} (h : budgets.any ChildBudget.finished = false) :
    List.Forall₂ Finishes budgets (finishChild choices stores budgets).1 := by
  rw [finishChild, if_neg (by simp [h])]
  have hsettled := finalizeBudgets_local choices 0 stores (budgets.map ChildBudget.delegation)
  rw [List.forall₂_map_left_iff] at hsettled
  dsimp only
  generalize (finalizeBudgets choices 0 stores (budgets.map ChildBudget.delegation)).1 = settled
    at hsettled
  clear h
  induction hsettled with
  | nil => exact .nil
  | @cons c settlement rest settlements hc hrest ih =>
      refine .cons ⟨rfl, rfl, rfl, fun hlocal ↦ ?_⟩ ih
      rw [ChildBudget.charged]
      cases hst : settlement with
      | none => rfl
      | some st =>
          cases hu : st.usage with
          | none => simp [hu]
          | some u => simpa [hu] using hc hlocal st u hst hu

namespace DelegationState

variable {s : DelegationState D} {h : BudgetHandle D}

/-! ### Finishing -/

theorem finishChild_finished (choices : ℕ → SettlementChoices) (stores : Authorities D)
    {budgets : List (ChildBudget D)} (hdone : budgets.any ChildBudget.finished = true) :
    (finishChild choices stores budgets).1 = budgets := by
  rw [finishChild, if_pos hdone]

theorem mem_finishChild (choices : ℕ → SettlementChoices) (stores : Authorities D)
    {budgets : List (ChildBudget D)} (hopen : budgets.any ChildBudget.finished = false)
    {c' : ChildBudget D} (hc' : c' ∈ (finishChild choices stores budgets).1) :
    ∃ c ∈ budgets, Finishes c c' := by
  have hspec := finishChild_spec choices stores hopen
  obtain ⟨i, hi, rfl⟩ := List.getElem_of_mem hc'
  have hlength := hspec.length_eq
  exact ⟨budgets[i], List.getElem_mem _, hspec.get (hlength ▸ hi) hi⟩

theorem exists_finishChild (choices : ℕ → SettlementChoices) (stores : Authorities D)
    {budgets : List (ChildBudget D)} (hopen : budgets.any ChildBudget.finished = false)
    {c : ChildBudget D} (hc : c ∈ budgets) :
    ∃ c' ∈ (finishChild choices stores budgets).1, Finishes c c' := by
  have hspec := finishChild_spec choices stores hopen
  obtain ⟨i, hi, rfl⟩ := List.getElem_of_mem hc
  exact ⟨_, List.getElem_mem (hspec.length_eq ▸ hi), hspec.get hi (hspec.length_eq ▸ hi)⟩

theorem openLimit_finishChild (choices : ℕ → SettlementChoices) (stores : Authorities D)
    (name : String) (budgets : List (ChildBudget D)) :
    openLimit name (finishChild choices stores budgets).1 ≤ openLimit name budgets := by
  cases hdone : budgets.any ChildBudget.finished with
  | true => rw [finishChild_finished choices stores hdone]
  | false =>
      refine le_of_eq_of_le ?_ (openLimit_nonneg name budgets)
      refine List.sum_eq_zero fun x hx ↦ ?_
      obtain ⟨c', hc', rfl⟩ := List.mem_map.mp hx
      obtain ⟨c, -, hfinishes⟩ := mem_finishChild choices stores hdone hc'
      rw [if_neg (by simp [hfinishes.finished])]

theorem local_finishChild (choices : ℕ → SettlementChoices) (stores : Authorities D)
    {budgets : List (ChildBudget D)} (hbudgets : ∀ c ∈ budgets, Local h c) :
    ∀ c ∈ (finishChild choices stores budgets).1, Local h c := by
  intro c' hc' hname
  cases hdone : budgets.any ChildBudget.finished with
  | true =>
      rw [finishChild_finished choices stores hdone] at hc'
      exact hbudgets c' hc' hname
  | false =>
      obtain ⟨c, hc, hfinishes⟩ := mem_finishChild choices stores hdone hc'
      rw [hfinishes.delegation] at hname ⊢
      have hauthority := (hbudgets c hc hname).1
      exact ⟨hauthority, fun _ ↦ hfinishes.charged hauthority⟩

/-! ### One event -/

theorem turns_finish (choices : ℕ → SettlementChoices) (stores : Authorities D)
    (budgets : List (ChildBudget D)) :
    Turns h (∀ c ∈ budgets, c.delegation.handle.budget = h.budget → c.consumed = 0) budgets
      (finishChild choices stores budgets).1 := by
  refine ⟨openLimit_finishChild choices stores h.budget budgets,
    local_finishChild choices stores, ?_⟩
  intro hidle hlocal hcharges c' hc' hname hfinished
  cases hdone : budgets.any ChildBudget.finished with
  | true =>
      rw [finishChild_finished choices stores hdone] at hc'
      exact hcharges c' hc' hname hfinished
  | false =>
      obtain ⟨c, hc, hfinishes⟩ := mem_finishChild choices stores hdone hc'
      rw [hfinishes.delegation] at hname
      rw [hfinishes.consumed, hidle c hc hname]
      exact hfinishes.charged (hlocal c hc hname).1

/-- What one event does to the children. -/
inductive Change (ctx : ParentContext D) (s : DelegationState D) (h : BudgetHandle D) :
    DelegationEvent D → List (List (ChildBudget D)) → Prop
  | same (e : DelegationEvent D) : Change ctx s h e s.children
  | invoked (childRunId : String) (now : Time) (reclaims : ℕ → Bool) (request : BudgetRequest)
      (made : List (BudgetDelegation D))
      (hmade : List.Forall₂ (Delegated ctx) request.entries made) :
      Change ctx s h (.invoke childRunId now reclaims request) (s.children ++ [made.map start])
  | turned (e : DelegationEvent D) (front back : List (List (ChildBudget D)))
      (budgets budgets' : List (ChildBudget D)) (heq : s.children = front ++ budgets :: back)
      (hturns : Turns h (s.Fits h e) budgets budgets') :
      Change ctx s h e (front ++ budgets' :: back)

theorem apply_change (ctx : ParentContext D) (s : DelegationState D) (h : BudgetHandle D)
    (e : DelegationEvent D) : Change ctx s h e (s.apply ctx e).children := by
  cases e with
  | authority d e => exact .same _
  | invoke childRunId now reclaims request =>
      rw [DelegationState.apply]
      split
      · exact .same _
      · next ds stores heq =>
          obtain ⟨made, hds, hmade⟩ := delegateLoop_ok heq
          rw [List.nil_append] at hds
          subst hds
          exact .invoked childRunId now reclaims request ds hmade
  | consume child budget amount =>
      obtain heq | ⟨front, budgets, back, heq, -, hmodify⟩ :=
        modify_split (·.modify budget (ChildBudget.consume amount)) child s.children
      · rw [DelegationState.apply, heq]
        exact .same _
      · rw [DelegationState.apply, hmodify]
        exact .turned _ front back budgets _ heq (turns_consume _ budget amount budgets)
  | finish child choices =>
      obtain heq | ⟨front, budgets, back, heq, hchild, hmodify⟩ :=
        modify_split (fun budgets ↦ (finishChild choices s.stores budgets).1) child s.children
      · rw [DelegationState.apply, heq]
        exact .same _
      · rw [DelegationState.apply, hmodify]
        have hturns := turns_finish (h := h) choices s.stores budgets
        exact .turned _ front back budgets _ heq ⟨hturns.openLimit_le, hturns.local_,
          fun hfits ↦ hturns.charges (hfits budgets hchild)⟩

variable {e : DelegationEvent D} {children : List (List (ChildBudget D))}

theorem LocalTo.apply (hs : s.LocalTo h) (hheld : ctx.handle? h.budget = some h)
    (hlocal : h.authority = none) (e : DelegationEvent D) : (s.apply ctx e).LocalTo h := by
  have hchange := apply_change ctx s h e
  intro budgets hbudgets
  generalize (s.apply ctx e).children = children at hchange hbudgets
  cases hchange with
  | same => exact hs budgets hbudgets
  | invoked childRunId now reclaims request made hmade =>
      obtain hbudgets | hbudgets := List.mem_append.mp hbudgets
      · exact hs budgets hbudgets
      · obtain rfl := List.mem_singleton.mp hbudgets
        intro c hc hname
        obtain ⟨d, hd, rfl⟩ := List.mem_map.mp hc
        obtain ⟨i, hi, rfl⟩ := List.getElem_of_mem hd
        have hdelegated := hmade.get (hmade.length_eq ▸ hi) hi
        refine ⟨?_, fun hfinished ↦ by cases hfinished⟩
        have hentry := hdelegated.budget.symm.trans hname
        have hauthority := hdelegated.authority
        rw [childDescriptor, hentry, hheld] at hauthority
        exact hauthority.trans hlocal
  | turned _ front back old new heq hturns =>
      rw [LocalTo, heq] at hs
      obtain hbudgets | rfl | hbudgets := by simpa using hbudgets
      · exact hs budgets (by simp [hbudgets])
      · exact hturns.local_ (hs old (by simp))
      · exact hs budgets (by simp [hbudgets])

/-- An event the handle has room for keeps the children within it. -/
theorem Bounded.apply (hbounded : s.Bounded h) (hs : s.LocalTo h)
    (hheld : ctx.handle? h.budget = some h) (hlocal : h.authority = none)
    (hfits : s.Fits h e) : (s.apply ctx e).Bounded h := by
  rw [(hs.apply hheld hlocal e).bounded_iff]
  obtain ⟨hwithin, hcharges⟩ := hs.bounded_iff.mp hbounded
  have hchange := apply_change ctx s h e
  rw [openLimits]
  generalize (s.apply ctx e).children = children at hchange
  cases hchange with
  | same => exact ⟨hwithin, hcharges⟩
  | invoked childRunId now reclaims request made hmade =>
      constructor
      · have hsum : ((s.children ++ [made.map start]).map (openLimit h.budget)).sum =
            s.openLimits h.budget + openLimit h.budget (made.map start) := by
          simp [openLimits]
        rw [hsum, openLimit_start hmade]
        obtain ⟨-, hzero⟩ | ⟨entry, hentry, hname, hrequested⟩ := sum_requested request h.budget
        · omega
        · rw [hrequested]
          obtain ⟨d, hdelegated⟩ := exists_delegated hmade hentry
          exact hfits entry hentry hname (hdelegated.within h (hname ▸ hheld) hlocal)
      · intro budgets hbudgets
        obtain hbudgets | hbudgets := List.mem_append.mp hbudgets
        · exact hcharges budgets hbudgets
        · obtain rfl := List.mem_singleton.mp hbudgets
          intro c hc _ hfinished
          obtain ⟨d, -, rfl⟩ := List.mem_map.mp hc
          cases hfinished
  | turned _ front back old new heq hturns =>
      rw [LocalTo, heq] at hs
      rw [openLimits, heq] at hwithin
      rw [heq] at hcharges
      constructor
      · have hle := hturns.openLimit_le
        simp only [List.map_append, List.map_cons, List.sum_append, List.sum_cons] at hwithin ⊢
        omega
      · intro budgets hbudgets
        obtain hbudgets | rfl | hbudgets := by simpa using hbudgets
        · exact hcharges budgets (by simp [hbudgets])
        · exact hturns.charges hfits (hs old (by simp)) (hcharges old (by simp))
        · exact hcharges budgets (by simp [hbudgets])

end DelegationState

/-! ## Nothing else stops a delegation -/

/-- A text that begins with a character other than a space is not stripped to nothing. -/
theorem strip_append_ne {front : String} {c : Char} (hc : Text.isSpace c = false)
    (hhead : front.toList.head? = some c) (back : String) : Text.strip (front ++ back) ≠ "" := by
  intro hempty
  have hlist := Text.toList_strip (front ++ back)
  obtain ⟨rest, hrest⟩ := List.head?_eq_some_iff.mp hhead
  rw [hempty, String.toList_append, hrest, List.cons_append,
    List.dropWhile_cons_of_neg (by simp [hc])] at hlist
  have hnil := List.rdropWhile_eq_nil_iff.mp hlist.symm c List.mem_cons_self
  rw [hc] at hnil
  cases hnil

theorem strip_handle_ne (hex : String) : Text.strip s!"budget-handle-{hex}" ≠ "" :=
  strip_append_ne (c := 'b') (by decide) (by decide) hex

theorem strip_parent_ne (hex : String) : Text.strip s!"budget-parent-{hex}" ≠ "" :=
  strip_append_ne (c := 'b') (by decide) (by decide) hex

/-- A fresh account gives what is within its limit. -/
theorem reserve_local {a : BudgetAccount} (ha : a.Fresh) (hnone : a.authority = none)
    {limit amount : ℤ} (hlimit : a.limit = some limit) (hnonneg : 0 ≤ amount) (hle : amount ≤ limit)
    {id : String} (hid : Text.strip id ≠ "") (now : Time) :
    ∃ ref a', a.reserve now amount (some id) "" = (.ok (.claim ref), a') := by
  have hne : id ≠ "" := by
    rintro rfl
    exact hid rfl
  have hidentifier : identifierOr (some id) "" = id := if_neg hne
  have hwithin : a.remainingLimit.any (· < amount) = false := by
    rw [ha.remainingLimit, hlimit]
    simpa using hle
  rw [BudgetAccount.reserve, if_neg (not_lt.mpr hnonneg), hwithin, if_neg (by simp), hidentifier]
  split
  · rw [BudgetAccount.newClaim, if_neg hid]
    exact ⟨_, _, rfl⟩
  · rw [BudgetAccount.reserveShared, hnone, hidentifier]
    dsimp only
    rw [BudgetAccount.openClaim, BudgetAccount.claimAt, ha.claims]
    dsimp only [Rows.lookup, List.find?_nil, Option.map_none]
    rw [BudgetAccount.newClaim, if_neg hid]
    exact ⟨_, _, rfl⟩

/-- What is within the handle is delegated. -/
theorem delegateBudget_local {h : BudgetHandle D} (hheld : ctx.handle? h.budget = some h)
    (hlocal : h.authority = none) (hname : entry.semanticName = h.budget)
    (hnonneg : 0 ≤ entry.requested) (hle : entry.requested ≤ h.limit)
    (hprepares : entry.prepares = true) (hmarks : entry.marksReserved = true)
    (childRunId : String) (stores : Authorities D) :
    ∃ d stores', delegateBudget ctx childRunId stores entry = (.ok d, stores') := by
  obtain ⟨client, hclient⟩ : ∃ client, fromHandle stores h = .ok client := by
    have hbudget := h.budget_ne
    rw [← h.budget_strip] at hbudget
    rw [fromHandle, hlocal, BudgetAccount.make]
    simp [hbudget, not_lt.mpr h.limit_nonneg]
  obtain ⟨hnone, hfresh, -, hlimit⟩ := fromHandle_local hlocal hclient
  have hfrom : fromResourceContext ctx stores entry.semanticName = .ok client := by
    rw [fromResourceContext, hname, h.budget_strip, hheld]
    exact hclient
  have hlone : ∀ stores' : Authorities D, (client.attached stores').authority = none := by
    intro stores'
    rw [ClientAccount.attached, hnone]
    rfl
  have hallowance : (client.attached stores).allowance entry.now entry.requested none =
      (.ok entry.requested, client.attached stores) := by
    have hremaining : (client.attached stores).remainingLimit = some h.limit :=
      (Fresh.attached hfresh stores).remainingLimit.trans hlimit
    rw [BudgetAccount.allowance, if_neg (not_lt.mpr hnonneg), if_neg (by simp), hremaining,
      hlone stores]
    exact congrArg (fun n ↦ (Except.ok n, client.attached stores)) (min_eq_left hle)
  have hdescriptor : childDescriptor ctx entry.semanticName = none := by
    rw [childDescriptor, hname, hheld]
    exact hlocal
  obtain ⟨handle, hhandle, hparent⟩ : ∃ handle : BudgetHandle D,
      BudgetHandle.make s!"budget-handle-{entry.handleHex}" entry.semanticName entry.semanticName
        entry.requested none ctx.leaseId ctx.fencingToken
        s!"budget-parent-{entry.reservationHex}" = .ok handle ∧
      handle.parentReservationId = s!"budget-parent-{entry.reservationHex}" := by
    have hbudget := h.budget_ne
    rw [← h.budget_strip, ← hname] at hbudget
    have hraw : entry.semanticName ≠ "" := hname ▸ h.budget_ne
    have hid := strip_handle_ne entry.handleHex
    rw [BudgetHandle.make]
    simp only [hid, hraw, hbudget, if_false, or_self, dif_neg, not_false_eq_true,
      not_lt.mpr hnonneg]
    exact ⟨_, rfl, rfl⟩
  obtain ⟨ref, a', hreserve⟩ := reserve_local (Fresh.attached hfresh stores) (hlone stores) hlimit
    hnonneg hle (strip_parent_ne entry.reservationHex) entry.now
  have hagain : (⟨client.attached stores, client.authority⟩ : ClientAccount D).attached stores =
      client.attached stores := rfl
  have hnotlt : ¬ entry.requested < entry.requested := lt_irrefl _
  refine ⟨⟨handle, ⟨a', client.authority⟩, ref⟩, stores, ?_⟩
  rw [delegateBudget, if_neg (by simp [hname, hheld]), hfrom]
  dsimp only
  rw [call_local hnone, hallowance]
  dsimp only
  rw [if_neg hnotlt, hdescriptor]
  dsimp only [configureChild]
  rw [if_neg (by simp), hhandle]
  dsimp only
  rw [if_neg (by simp [hprepares]), reserveChild,
    call_local (c := ⟨client.attached stores, client.authority⟩) hnone, hagain, hparent, hreserve]
  dsimp only
  rw [if_neg (by simp [hmarks])]

/-! ## Exactly when -/

namespace DelegationState

variable {s : DelegationState D} {h : BudgetHandle D} {e : DelegationEvent D}

/-- An event the handle has no room for breaks one of the two. -/
theorem LocalTo.breaks (hs : s.LocalTo h) (hheld : ctx.handle? h.budget = some h)
    (hlocal : h.authority = none) (hnot : ¬ s.Fits h e) (hplain : s.Plain e) :
    ¬ (s.apply ctx e).Bounded h := by
  rw [(hs.apply hheld hlocal e).bounded_iff]
  rintro ⟨hwithin, hcharges⟩
  cases e with
  | consume child budget amount => exact hnot trivial
  | authority d e => exact hnot trivial
  | invoke childRunId now reclaims request =>
      obtain ⟨entry, hentries, hprepares, hmarks⟩ := hplain
      simp only [Fits, hentries, List.mem_singleton, forall_eq, not_forall, not_le] at hnot
      obtain ⟨hname, hle, hover⟩ := hnot
      have hnonneg := request.nonneg entry (by simp [hentries])
      obtain ⟨d, stores', hd⟩ := delegateBudget_local hheld hlocal hname hnonneg hle hprepares
        hmarks childRunId s.stores
      have hdelegated := delegated_of_ok hd
      have hchildren : (s.apply ctx (.invoke childRunId now reclaims request)).children =
          s.children ++ [[start d]] := by
        rw [DelegationState.apply, delegateBudgets, hentries, delegateLoop, hd]
        rfl
      have hopen : openLimit h.budget [start d] = entry.requested := by
        have hsum := openLimit_start (.cons hdelegated .nil) h.budget
        simpa [hname] using hsum
      rw [openLimits, hchildren, List.map_append, List.sum_append] at hwithin
      simp only [List.map_cons, List.map_nil, List.sum_cons, List.sum_nil, hopen] at hwithin
      rw [openLimits] at hover
      omega
  | finish child choices =>
      simp only [Fits, not_forall] at hnot
      obtain ⟨budgets, hchild, c, hc, hname, hconsumed⟩ := hnot
      obtain ⟨c', hc', hfinishes⟩ := exists_finishChild choices s.stores (hplain budgets hchild) hc
      have hbefore := hs budgets (List.mem_of_getElem? hchild) c hc hname
      have hmem : (finishChild choices s.stores budgets).1 ∈
          (s.apply ctx (.finish child choices)).children := by
        refine List.mem_of_getElem? (i := child) ?_
        rw [DelegationState.apply, List.getElem?_modify_eq, hchild]
        rfl
      have hcharged := hcharges _ hmem c' hc' (hfinishes.delegation ▸ hname) hfinishes.finished
      rw [hfinishes.charged hbefore.1, hfinishes.consumed] at hcharged
      exact hconsumed hcharged.symm

/-- **Delegation from a handle without an authority.**  However its children are invoked, run and
end, they stay within the handle and are charged what they consumed as long as the handle has room
for every event; and one that it has no room for, with nothing else in its way, breaks this. -/
theorem local_delegation_bounded (ctx : ParentContext D) (h : BudgetHandle D)
    (hheld : ctx.handle? h.budget = some h) (hlocal : h.authority = none) (stores : Authorities D)
    (events : List (DelegationEvent D)) :
    ((∀ before e, before ++ [e] <+: events →
        (run ctx ⟨stores, []⟩ before).Fits h e) →
      ∀ before, before <+: events → (run ctx ⟨stores, []⟩ before).Bounded h) ∧
    ∀ before e, ¬ (run ctx ⟨stores, []⟩ before).Fits h e → (run ctx ⟨stores, []⟩ before).Plain e →
      ¬ (run ctx ⟨stores, []⟩ (before ++ [e])).Bounded h := by
  have hlocals : ∀ before : List (DelegationEvent D), (run ctx ⟨stores, []⟩ before).LocalTo h := by
    intro before
    induction before using List.reverseRecOn with
    | nil => exact fun budgets hbudgets ↦ (List.not_mem_nil hbudgets).elim
    | append_singleton before e ih =>
        rw [run, List.foldl_append]
        exact ih.apply hheld hlocal e
  constructor
  · intro hfits before hbefore
    induction before using List.reverseRecOn with
    | nil =>
        exact (hlocals []).bounded_iff.mpr ⟨h.limit_nonneg,
          fun budgets hbudgets ↦ (List.not_mem_nil hbudgets).elim⟩
    | append_singleton before e ih =>
        have hbounded := ih ((List.prefix_append before [e]).trans hbefore)
        rw [run, List.foldl_append]
        exact hbounded.apply (hlocals before) hheld hlocal (hfits before e hbefore)
  · intro before e hnot hplain
    rw [run, List.foldl_append]
    exact (hlocals before).breaks hheld hlocal hnot hplain

/-! ## Ten tokens -/

/-- A handle of ten units. -/
def tenTokens : BudgetHandle Unit where
  handleId := "handle"
  budget := "tokens"
  authorityBudget := "tokens"
  limit := 10
  authority := none
  leaseId := ""
  fencingToken := 0
  parentReservationId := ""
  budget_strip := by decide
  budget_ne := by decide
  limit_nonneg := by decide

/-- A parent that holds it. -/
def tenTokensParent : ParentContext Unit where
  handles := [tenTokens]
  authority := none
  declared := []
  leaseId := ""
  fencingToken := 0
  declared_strip := fun _ h ↦ (List.not_mem_nil h).elim

/-- A child that asks for `amount` of them. -/
def askFor (amount : ℕ) : BudgetRequest where
  entries := [⟨"tokens", amount, 0, "1", "2", true, true⟩]
  names_nodup := by simp
  nonneg := by simp

def noStores : Authorities Unit := fun _ ↦ .empty .sqlite "run"

def invokeFor (amount : ℕ) : DelegationEvent Unit :=
  .invoke "child" 0 (fun _ ↦ true) (askFor amount)

def finishFirst : DelegationEvent Unit := .finish 0 fun _ ↦ ⟨0, true, true, true⟩

/-- A child of four units and one of six, of which the first ends without consuming any. -/
theorem local_delegation_bounded_tokens :
    ((∀ before e, before ++ [e] <+: [invokeFor 4, invokeFor 6, finishFirst] →
        (run tenTokensParent ⟨noStores, []⟩ before).Fits tenTokens e) →
      ∀ before, before <+: [invokeFor 4, invokeFor 6, finishFirst] →
        (run tenTokensParent ⟨noStores, []⟩ before).Bounded tenTokens) ∧
    ∀ before e, ¬ (run tenTokensParent ⟨noStores, []⟩ before).Fits tenTokens e →
      (run tenTokensParent ⟨noStores, []⟩ before).Plain e →
      ¬ (run tenTokensParent ⟨noStores, []⟩ (before ++ [e])).Bounded tenTokens :=
  local_delegation_bounded tenTokensParent tenTokens rfl rfl noStores
    [invokeFor 4, invokeFor 6, finishFirst]

/-- Two children are given all ten units at once; and one that consumes all ten is charged none. -/
theorem tenTokens_overdrawn :
    ¬ (run tenTokensParent ⟨noStores, []⟩ [invokeFor 10, invokeFor 10]).Bounded tenTokens ∧
      ¬ (run tenTokensParent ⟨noStores, []⟩
        [invokeFor 10, .consume 0 0 10, finishFirst]).Bounded tenTokens := by
  constructor
  · intro h
    have hopen : ((run tenTokensParent ⟨noStores, []⟩ [invokeFor 10, invokeFor 10]).children.map
        (chargedFor tenTokens.budget)).sum +
          (run tenTokensParent ⟨noStores, []⟩ [invokeFor 10, invokeFor 10]).openLimits
            tenTokens.budget = 20 := by decide +kernel
    have hwithin := h.within
    rw [hopen] at hwithin
    exact absurd hwithin (by decide)
  · intro h
    have hspent : (run tenTokensParent ⟨noStores, []⟩
        [invokeFor 10, .consume 0 0 10, finishFirst]).children.any (·.any fun c ↦
          c.delegation.handle.budget = "tokens" ∧ c.finished ∧ c.charged = 0 ∧ c.consumed = 10) =
        true := by decide +kernel
    obtain ⟨budgets, hbudgets, hspent⟩ := List.any_eq_true.mp hspent
    obtain ⟨c, hc, hspent⟩ := List.any_eq_true.mp hspent
    obtain ⟨hname, hfinished, hcharged, hconsumed⟩ := of_decide_eq_true hspent
    have hequal := h.charged budgets hbudgets c hc hname hfinished
    rw [hcharged, hconsumed] at hequal
    omega

end DelegationState

end Blackbase.Project
