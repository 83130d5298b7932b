import Blackbase.Core.Rows

/-!
# Holds against a quota

A *hold* sets `amount` units of an account aside and spends `used` of them; while
it is live, the rest of the amount is kept from everybody else.  The *exposure*
of a hold is what the account can no longer give away: the whole amount of a live
hold, and what was spent of a closed one.

`Hold.Evolves` is everything a bookkeeping operation may do to a hold that is
already there: spend more of it while it is live, and close it.  Exposure never
grows along it, so the sum of the exposures of an account only grows when a hold
is opened; this is what keeps an account within its limit, whatever moves units
between `used` and the outstanding rest.

The sums are taken over a table of rows each of which carries a hold against one
account.
-/

universe u v

namespace Quota

/-- `amount` units set aside, `used` of them spent; `live` while more may be spent. -/
@[ext]
structure Hold where
  amount : ℤ
  used : ℤ
  live : Bool
deriving DecidableEq, Repr

namespace Hold

/-- What a live hold keeps from everybody else beyond what it has spent. -/
def outstanding (h : Hold) : ℤ := if h.live then h.amount - h.used else 0

/-- What the account can no longer give away. -/
def exposure (h : Hold) : ℤ := if h.live then h.amount else h.used

theorem exposure_eq (h : Hold) : h.exposure = h.used + h.outstanding := by
  unfold exposure outstanding
  split <;> omega

/-- A hold never spends a negative number of units nor more than its amount. -/
structure Valid (h : Hold) : Prop where
  nonneg : 0 ≤ h.used
  le : h.used ≤ h.amount

theorem Valid.used_le_exposure {h : Hold} (hv : h.Valid) : h.used ≤ h.exposure := by
  unfold exposure
  split
  · exact hv.le
  · exact le_refl _

/-- What an operation may do to a hold: spend more of it while it is live, and
close it.  A closed hold is frozen. -/
structure Evolves (h h' : Hold) : Prop where
  amount_eq : h'.amount = h.amount
  used_le : h.used ≤ h'.used
  le_amount : h'.used ≤ h.amount
  live_of_live : h'.live → h.live
  frozen : h.live = false → h'.used = h.used

theorem Valid.evolves {h : Hold} (hv : h.Valid) : h.Evolves h :=
  ⟨rfl, le_refl _, hv.le, id, fun _ ↦ rfl⟩

namespace Evolves

variable {h h' h'' : Hold}

theorem trans (e : h.Evolves h') (e' : h'.Evolves h'') : h.Evolves h'' where
  amount_eq := e'.amount_eq.trans e.amount_eq
  used_le := e.used_le.trans e'.used_le
  le_amount := e.amount_eq ▸ e'.le_amount
  live_of_live := fun hl ↦ e.live_of_live (e'.live_of_live hl)
  frozen := fun hl ↦ by
    have hl' : h'.live = false := by
      cases hc : h'.live with
      | false => rfl
      | true => rw [e.live_of_live hc] at hl; cases hl
    rw [e'.frozen hl', e.frozen hl]

theorem valid (e : h.Evolves h') (hv : h.Valid) : h'.Valid where
  nonneg := hv.nonneg.trans e.used_le
  le := e.amount_eq ▸ e.le_amount

theorem exposure_le (e : h.Evolves h') : h'.exposure ≤ h.exposure := by
  have h₁ := e.amount_eq
  have h₂ := e.le_amount
  unfold exposure
  cases hl' : h'.live with
  | true => simp [e.live_of_live hl', h₁]
  | false =>
      cases hl : h.live with
      | true => simpa using h₂
      | false => simp [e.frozen hl]

end Evolves

end Hold

/-! ## Sums over a table of holds -/

section Sums

variable {ρ : Type u} {β : Type v} [DecidableEq β] (account : ρ → β) (hold : ρ → Hold)

/-- The sum of `g` over the rows of account `a`. -/
def total (g : ρ → ℤ) (a : β) (rows : List ρ) : ℤ :=
  (rows.map fun r ↦ if account r = a then g r else 0).sum

/-- Units of account `a` spent by all its holds, live or closed. -/
def used (a : β) (rows : List ρ) : ℤ := total account (fun r ↦ (hold r).used) a rows

/-- Units of account `a` that its live holds keep from everybody else. -/
def outstanding (a : β) (rows : List ρ) : ℤ :=
  total account (fun r ↦ (hold r).outstanding) a rows

/-- Units of account `a` that can no longer be given away. -/
def exposure (a : β) (rows : List ρ) : ℤ := total account (fun r ↦ (hold r).exposure) a rows

variable {account hold}

@[simp] theorem total_nil (g : ρ → ℤ) (a : β) : total account g a [] = 0 := rfl

theorem total_append (g : ρ → ℤ) (a : β) (rows : List ρ) (r : ρ) :
    total account g a (rows ++ [r]) =
      total account g a rows + if account r = a then g r else 0 := by
  simp [total]

theorem total_filter_map (g : ρ → ℤ) (a : β) (rows : List ρ) :
    total account g a rows = ((rows.filter fun r ↦ account r = a).map g).sum := by
  induction rows with
  | nil => rfl
  | cons r rows ih =>
      simp only [total, List.map_cons, List.sum_cons] at ih ⊢
      rw [ih, List.filter_cons]
      by_cases h : account r = a <;> simp [h]

theorem total_add (g g' : ρ → ℤ) (a : β) (rows : List ρ) :
    total account (fun r ↦ g r + g' r) a rows =
      total account g a rows + total account g' a rows := by
  induction rows with
  | nil => rfl
  | cons r rows ih =>
      simp only [total, List.map_cons, List.sum_cons] at ih ⊢
      rw [ih]
      split <;> omega

theorem exposure_eq (a : β) (rows : List ρ) :
    exposure account hold a rows =
      used account hold a rows + outstanding account hold a rows := by
  rw [exposure, used, outstanding, ← total_add]
  exact congrArg (fun g ↦ total account g a rows) (funext fun r ↦ (hold r).exposure_eq)

theorem total_mono {g g' : ρ → ℤ} {a : β} {rows : List ρ} (h : ∀ r ∈ rows, g r ≤ g' r) :
    total account g a rows ≤ total account g' a rows := by
  refine List.sum_le_sum fun r hr ↦ ?_
  split
  · exact h r hr
  · exact le_refl _

theorem total_nonneg {g : ρ → ℤ} {a : β} {rows : List ρ} (h : ∀ r ∈ rows, 0 ≤ g r) :
    0 ≤ total account g a rows := by
  refine List.sum_nonneg fun x hx ↦ ?_
  obtain ⟨r, hr, rfl⟩ := List.mem_map.mp hx
  split
  · exact h r hr
  · exact le_refl _

theorem total_map {g : ρ → ℤ} {a : β} {f : ρ → ρ} (hf : ∀ r, account (f r) = account r)
    (rows : List ρ) :
    total account g a (rows.map f) = total account (fun r ↦ g (f r)) a rows := by
  simp [total, hf, Function.comp_def]

/-- Operations on the holds that are there never raise the exposure. -/
theorem exposure_map_le {a : β} {f : ρ → ρ} {rows : List ρ}
    (hf : ∀ r, account (f r) = account r) (he : ∀ r ∈ rows, (hold r).Evolves (hold (f r))) :
    exposure account hold a (rows.map f) ≤ exposure account hold a rows := by
  rw [exposure, exposure, total_map hf]
  exact total_mono fun r hr ↦ (he r hr).exposure_le

theorem used_le_exposure {a : β} {rows : List ρ} (hv : ∀ r ∈ rows, (hold r).Valid) :
    used account hold a rows ≤ exposure account hold a rows :=
  total_mono fun r hr ↦ (hv r hr).used_le_exposure

/-- The total of account `a` changes by what the rewritten row changes. -/
theorem total_update {κ : Type*} [DecidableEq κ] {key : ρ → κ} {k : κ} {f : ρ → ρ}
    {rows : List ρ} (hu : Rows.Unique key rows) {r : ρ} (hr : Rows.lookup key k rows = some r)
    (hf : account (f r) = account r) (g : ρ → ℤ) (a : β) :
    total account g a (Rows.update key k f rows) =
      total account g a rows + if account r = a then g (f r) - g r else 0 := by
  rw [total, Rows.sum_update hu hr, hf]
  by_cases h : account r = a <;> simp [total, h]

/-- Operating on one hold never raises the exposure. -/
theorem exposure_update_le {κ : Type*} [DecidableEq κ] {key : ρ → κ} {k : κ} {f : ρ → ρ}
    {rows : List ρ} (hu : Rows.Unique key rows) {r : ρ} (hr : Rows.lookup key k rows = some r)
    (hf : account (f r) = account r) (he : (hold r).Evolves (hold (f r))) (a : β) :
    exposure account hold a (Rows.update key k f rows) ≤ exposure account hold a rows := by
  have hle := he.exposure_le
  rw [exposure, exposure, total_update hu hr hf]
  split <;> omega

end Sums

end Quota
