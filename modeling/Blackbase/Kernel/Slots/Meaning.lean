import Blackbase.Core.Attempt
import Blackbase.Kernel.Slots.Model

/-!
# What a specification means

`denote` says what a slot of a specification does, in terms of its names: a name is looked up in
the registry when its operator is due, and a stage is found among the thresholds as they are
listed.  `build_pipeline_kernel` looks every name up beforehand, and sorts the stages when it runs
them.  It succeeds exactly when no name is missing that a strict slot has, and what it builds does
what the specification means.
-/

namespace Blackbase.Kernel.Slots

open Attempt
open Project.Envelope (PyFloat)

variable {σ V E C Op : Type} (H : Host σ V E C Op) (registry : Registry Op)

/-! ## Meaning -/

/-- The operator that a name stands for. -/
def operatorOf (name : String) : Option Op :=
  if name = "" then none else registry (Text.strip name)

/-- The operator that the default of a slot stands for. -/
def defaultOf (slot : PipelineSlotSpec σ V E) : Option Op :=
  slot.defaultOperator.bind (operatorOf registry)

/-- The mode of a slot; one that is blank is `serial`. -/
def modeOf (slot : PipelineSlotSpec σ V E) : String :=
  orText (Text.lower (Text.strip slot.mode)) "serial"

/-- The name of the index of a slot. -/
def indexKeyOf (slot : PipelineSlotSpec σ V E) : String := orText slot.indexKey "vns_k"

/-- The name of the selector of a slot. -/
def selectorKeyOf (slot : PipelineSlotSpec σ V E) : String := orText slot.selectorKey "strategy_id"

/-- The operator that a `switch` chooses by its index. -/
def chooseSwitch (slot : PipelineSlotSpec σ V E) : Run σ E (Option Op) := do
  if slot.operators = [] then return none
  let index ← H.intOrZero (← H.contextGet (indexKeyOf slot))
  return (slot.operators[clampIndex index slot.operators.length]?).bind (operatorOf registry)

/-- The operator of the newest stage that the generation has reached: of the stages listed, the
last one with the greatest threshold within it. -/
def chooseDynamic (slot : PipelineSlotSpec σ V E) : Run σ E (Option Op) := do
  let generation ← H.intOrZero (← H.contextGet "generation")
  let reached := slot.stages.filter fun stage ↦ decide (stage.1 ≤ generation)
  return ((Selection.lastGreatest Prod.fst reached).bind fun stage ↦
    operatorOf registry stage.2).or (defaultOf registry slot)

/-- The operator that a `router` chooses by an index, or its default. -/
def chooseIndexed (slot : PipelineSlotSpec σ V E) : Run σ E (Option Op) := do
  match ← H.contextGet (indexKeyOf slot) with
  | none => return defaultOf registry slot
  | some index =>
      match H.int index with
      | .number n =>
          return (slot.routes.entries[wrapIndex n slot.routes.entries.length]?).bind fun route ↦
            operatorOf registry route.2
      | .rejected => return defaultOf registry slot
      | .raised e => throw (.error e)

/-- The operator that a `router` chooses by its selector; a route that leads to no operator does
not lead to the default either. -/
def chooseRouter (slot : PipelineSlotSpec σ V E) : Run σ E (Option Op) := do
  if slot.routes.entries = [] then return none
  match ← H.contextGet (selectorKeyOf slot) with
  | none => chooseIndexed H registry slot
  | some selector =>
      match slot.routes.get? (H.str selector) with
      | some name => return operatorOf registry name
      | none => chooseIndexed H registry slot

/-- The operator of a slot in which one is chosen. -/
def choose (slot : PipelineSlotSpec σ V E) : Run σ E (Option Op) :=
  if modeOf slot = "switch" then chooseSwitch H registry slot
  else if modeOf slot = "dynamic" then chooseDynamic H registry slot
  else chooseRouter H registry slot

/-- A slot in which one operator is chosen and called. -/
def denoteChoice (slot : PipelineSlotSpec σ V E) (strict : Bool) (method : String) (value : V) :
    Run σ E V := do
  H.raiseIfCancelled
  match ← choose H registry slot with
  | none =>
      if slot.isStrict strict ∧ modeOf slot = "router" then do
        let selector ← H.contextGet (selectorKeyOf slot)
        throw (.kernel .keyError (s!"pipeline route not found: selector_key=" ++
          s!"{H.reprText (selectorKeyOf slot)}, value={H.reprValue selector}"))
      else return value
  | some operator => do
      let result ← H.callOperator operator value method
      H.raiseIfCancelled
      return result

/-- A slot whose operators are called one after another. -/
def denoteSerial (slot : PipelineSlotSpec σ V E) (strict : Bool) (method : String) (value : V) :
    Run σ E V :=
  Effect.untilError (fun e ↦ e.caught && !slot.isStrict strict)
    (fun value name ↦ H.guardedCall method value (operatorOf registry name)) slot.operators value

/-- What a slot does with a value. -/
def denote (slot : PipelineSlotSpec σ V E) (strict : Bool) (method : String) (value : V) :
    Run σ E V :=
  if modeOf slot = "serial" then denoteSerial H registry slot strict method value
  else if modeOf slot = "parallel" then do
    let results ← H.parallel (slot.operators.map (operatorOf registry)) value method
      (slot.isStrict strict) slot.timeoutSeconds slot.cancelOnError
    H.mergeParallelResults results slot.merge value method
  else if modeOf slot ∈ ["router", "switch", "dynamic"] then
    denoteChoice H registry slot strict method value
  else if slot.isStrict strict then
    throw (.kernel .valueError s!"unsupported orchestration mode: {H.reprText (modeOf slot)}")
  else pure value

/-- The last slot of a specification that has a name. -/
def lastNamed (name : String) : List (PipelineSlotSpec σ V E) → Option (PipelineSlotSpec σ V E)
  | [] => none
  | slot :: rest =>
      (lastNamed name rest).or (if normalizeSlotName slot.slot = name then some slot else none)

/-- What a specification does with a value in a slot: what its last slot of that name does, or
nothing. -/
def meaning (slots : List (PipelineSlotSpec σ V E)) (strict : Bool) (name : String) (value : V) :
    Run σ E V :=
  if normalizeSlotName name = "" then pure value
  else match lastNamed (normalizeSlotName name) slots with
    | none => pure value
    | some slot =>
        denote H registry slot strict (methodOf slot (normalizeSlotName name)) value

/-- The names that a slot requires. -/
def requiredNames (slot : PipelineSlotSpec σ V E) : List String :=
  slot.operators ++ (slot.routes.entries.map Prod.snd ++ slot.stages.map Prod.snd)

/-- A name stands for an operator, if it is not empty. -/
def Resolves (name : String) : Prop := name = "" ∨ (operatorOf registry name).isSome

/-- Every name that a strict slot requires stands for an operator. -/
def Complete (slots : List (PipelineSlotSpec σ V E)) (strict : Bool) : Prop :=
  ∀ slot ∈ slots, normalizeSlotName slot.slot ≠ "" → slot.isStrict strict = true →
    ∀ name ∈ requiredNames slot, Resolves registry name

/-! ## Names that are looked up beforehand -/

variable {H registry}

theorem resolveOperator_eq_ok {name : String} {strict : Bool} {r : Option Op} :
    resolveOperator H (some name) registry strict = .ok r ↔
      (strict = true → Resolves registry name) ∧ r = operatorOf registry name := by
  unfold resolveOperator Resolves operatorOf
  by_cases hname : name = ""
  · simp only [if_pos hname]
    constructor
    · intro h
      exact ⟨fun _ ↦ .inl hname, (Except.ok.inj h).symm⟩
    · rintro ⟨-, rfl⟩
      rfl
  · simp only [if_neg hname]
    rcases hregistry : registry (Text.strip name) with _ | operator
    · cases strict
      · constructor
        · intro h
          exact ⟨nofun, (Except.ok.inj h).symm⟩
        · rintro ⟨-, rfl⟩
          rfl
      · constructor
        · intro h
          cases h
        · rintro ⟨h, -⟩
          rcases h rfl with h | h
          · exact absurd h hname
          · cases h
    · constructor
      · intro h
        exact ⟨fun _ ↦ .inr rfl, (Except.ok.inj h).symm⟩
      · rintro ⟨-, rfl⟩
        rfl

theorem resolveOperator_default (slot : PipelineSlotSpec σ V E) :
    resolveOperator H slot.defaultOperator registry false = .ok (defaultOf registry slot) := by
  unfold defaultOf
  rcases slot.defaultOperator with _ | name
  · rfl
  · exact resolveOperator_eq_ok.mpr ⟨nofun, rfl⟩

variable (registry) in
/-- The policy of a slot whose names are all resolved. -/
def policyOf (slot : PipelineSlotSpec σ V E) (strict : Bool) : OrchestrationPolicy σ V E Op where
  mode := Text.lower (Text.strip (orText slot.mode "serial"))
  operators := slot.operators.map (operatorOf registry)
  routes := slot.routes.map (operatorOf registry)
  selectorKey := selectorKeyOf slot
  indexKey := indexKeyOf slot
  defaultOperator := defaultOf registry slot
  stages := slot.stages.map fun stage ↦ (stage.1, operatorOf registry stage.2)
  strict := slot.isStrict strict
  merge := slot.merge
  timeoutSeconds := slot.timeoutSeconds
  cancelOnError := slot.cancelOnError

theorem policyOf_mode (slot : PipelineSlotSpec σ V E) (strict : Bool) :
    (policyOf registry slot strict).mode = Text.lower (Text.strip (orText slot.mode "serial")) :=
  rfl

theorem resolveRoutes_eq_ok {routes : OrderedDict String} {strict : Bool}
    {resolved : OrderedDict (Option Op)} :
    resolveRoutes H registry strict routes = .ok resolved ↔
      (∀ name ∈ routes.entries.map Prod.snd, strict = true → Resolves registry name) ∧
        resolved = routes.map (operatorOf registry) := by
  have hentry : ∀ (entry : String × String) (b : String × Option Op),
      (do let operator ← resolveOperator H (some entry.2) registry strict
          return (entry.1, operator) : Except (Raised E) (String × Option Op)) = .ok b ↔
        (strict = true → Resolves registry entry.2) ∧
          b = (entry.1, operatorOf registry entry.2) := by
    intro entry b
    rw [bind_eq_ok]
    constructor
    · rintro ⟨operator, hoperator, h⟩
      obtain ⟨hresolves, rfl⟩ := resolveOperator_eq_ok.mp hoperator
      exact ⟨hresolves, (Except.ok.inj h).symm⟩
    · rintro ⟨hresolves, rfl⟩
      exact ⟨_, resolveOperator_eq_ok.mpr ⟨hresolves, rfl⟩, rfl⟩
  have hofList : OrderedDict.ofList (routes.entries.map fun entry ↦
      (entry.1, operatorOf registry entry.2)) = routes.map (operatorOf registry) :=
    OrderedDict.ofList_entries (routes.map (operatorOf registry))
  unfold resolveRoutes
  rw [bind_eq_ok]
  simp only [mapM_eq_ok_iff_forall hentry, List.forall_mem_map]
  constructor
  · rintro ⟨entries, ⟨hall, rfl⟩, h⟩
    refine ⟨hall, ?_⟩
    rw [← hofList]
    exact (Except.ok.inj h).symm
  · rintro ⟨hall, rfl⟩
    refine ⟨_, ⟨hall, rfl⟩, ?_⟩
    rw [hofList]
    rfl

theorem resolveStages_eq_ok {stages : List (ℤ × String)} {strict : Bool}
    {resolved : List (ℤ × Option Op)} :
    (stages.mapM fun (start, name) ↦ do
        let operator ← resolveOperator H (some name) registry strict
        return (start, operator) : Except (Raised E) (List (ℤ × Option Op))) = .ok resolved ↔
      (∀ name ∈ stages.map Prod.snd, strict = true → Resolves registry name) ∧
        resolved = stages.map fun stage ↦ (stage.1, operatorOf registry stage.2) := by
  rw [List.forall_mem_map]
  refine mapM_eq_ok_iff_forall fun stage b ↦ ?_
  rw [bind_eq_ok]
  constructor
  · rintro ⟨operator, hoperator, h⟩
    obtain ⟨hresolves, rfl⟩ := resolveOperator_eq_ok.mp hoperator
    exact ⟨hresolves, (Except.ok.inj h).symm⟩
  · rintro ⟨hresolves, rfl⟩
    exact ⟨_, resolveOperator_eq_ok.mpr ⟨hresolves, rfl⟩, rfl⟩

theorem buildPolicyFromSlot_eq_ok {slot : PipelineSlotSpec σ V E} {strict : Bool}
    {p : OrchestrationPolicy σ V E Op} :
    buildPolicyFromSlot H slot registry strict = .ok p ↔
      (slot.isStrict strict = true → ∀ name ∈ requiredNames slot, Resolves registry name) ∧
        p = policyOf registry slot strict := by
  have hoperators : ∀ operators, (slot.operators.mapM fun name ↦
        resolveOperator H (some name) registry (slot.isStrict strict)) = .ok operators ↔
      (∀ name ∈ slot.operators, slot.isStrict strict = true → Resolves registry name) ∧
        operators = slot.operators.map (operatorOf registry) :=
    fun _ ↦ mapM_eq_ok_iff_forall fun _ _ ↦ resolveOperator_eq_ok
  unfold buildPolicyFromSlot
  simp only [bind_eq_ok, hoperators, resolveRoutes_eq_ok, resolveStages_eq_ok,
    resolveOperator_default]
  constructor
  · rintro ⟨_, ⟨hnames, rfl⟩, _, ⟨hroutes, rfl⟩, _, ⟨hstages, rfl⟩, _, hdefault, h⟩
    obtain rfl := Except.ok.inj hdefault
    refine ⟨fun hstrict name hname ↦ ?_, (Except.ok.inj h).symm⟩
    rcases List.mem_append.mp hname with hname | hname
    · exact hnames name hname hstrict
    · rcases List.mem_append.mp hname with hname | hname
      · exact hroutes name hname hstrict
      · exact hstages name hname hstrict
  · rintro ⟨hall, rfl⟩
    refine ⟨_, ⟨fun name hname hstrict ↦ ?_, rfl⟩, _, ⟨fun name hname hstrict ↦ ?_, rfl⟩, _,
      ⟨fun name hname hstrict ↦ ?_, rfl⟩, _, rfl, rfl⟩
    · exact hall hstrict name (List.mem_append_left _ hname)
    · exact hall hstrict name (List.mem_append_right _ (List.mem_append_left _ hname))
    · exact hall hstrict name (List.mem_append_right _ (List.mem_append_right _ hname))

/-! ## Modes -/

theorem orText_of_ne {text default : String} (h : text ≠ "") : orText text default = text :=
  if_neg h

theorem lower_strip_mode (slot : PipelineSlotSpec σ V E) :
    orText (Text.lower (Text.strip (orText slot.mode "serial"))) "serial" = modeOf slot := by
  unfold modeOf
  by_cases h : slot.mode = ""
  · rw [h]
    decide
  · rw [orText_of_ne h]

theorem stripped_mode {slot : PipelineSlotSpec σ V E} (h : modeOf slot ≠ "serial") :
    Text.lower (Text.strip (orText slot.mode "serial")) = modeOf slot := by
  have hne : Text.lower (Text.strip (orText slot.mode "serial")) ≠ "" := by
    intro hblank
    rw [← lower_strip_mode, hblank] at h
    exact h rfl
  rw [← lower_strip_mode, orText_of_ne hne]

theorem lower_modeOf (slot : PipelineSlotSpec σ V E) : Text.lower (modeOf slot) = modeOf slot := by
  unfold modeOf
  by_cases h : Text.lower (Text.strip slot.mode) = ""
  · rw [h]
    decide
  · rw [orText_of_ne h, Text.lower_lower]

theorem strip_modeOf (slot : PipelineSlotSpec σ V E) : Text.strip (modeOf slot) = modeOf slot := by
  unfold modeOf
  by_cases h : Text.lower (Text.strip slot.mode) = ""
  · rw [h]
    decide
  · rw [orText_of_ne h, Text.strip_lower, Text.strip_strip]

/-! ## Choosing -/

section Choosing

variable {slot : PipelineSlotSpec σ V E} {strict : Bool}

theorem selectSwitch_policyOf :
    (policyOf registry slot strict).selectSwitch H = chooseSwitch H registry slot := by
  have hjoin : ∀ name : Option String,
      (name.map (operatorOf registry)).join = name.bind (operatorOf registry) := by
    rintro (_ | _) <;> rfl
  unfold OrchestrationPolicy.selectSwitch chooseSwitch policyOf
  simp only [List.map_eq_nil_iff, List.length_map, List.getElem?_map, hjoin]

theorem selectDynamic_policyOf :
    (policyOf registry slot strict).selectDynamic H = chooseDynamic H registry slot := by
  have hscan : ∀ generation : ℤ,
      (Selection.scan Prod.fst generation none (Selection.sorted Prod.fst
        (slot.stages.map fun stage ↦ (stage.1, operatorOf registry stage.2)))).bind Prod.snd =
      (Selection.lastGreatest Prod.fst (slot.stages.filter fun stage ↦
        decide (stage.1 ≤ generation))).bind fun stage ↦ operatorOf registry stage.2 := by
    intro generation
    rw [Selection.scan_sorted, List.filter_map, Selection.lastGreatest_map, Option.bind_map]
    rfl
  unfold OrchestrationPolicy.selectDynamic chooseDynamic policyOf
  simp only [hscan]

theorem selectIndexed_policyOf :
    (policyOf registry slot strict).selectIndexed H = chooseIndexed H registry slot := by
  unfold OrchestrationPolicy.selectIndexed chooseIndexed policyOf
  simp only [OrderedDict.entries_map, List.length_map, List.getElem?_map, Option.bind_map]
  rfl

theorem selectRouter_policyOf :
    (policyOf registry slot strict).selectRouter H = chooseRouter H registry slot := by
  unfold OrchestrationPolicy.selectRouter chooseRouter
  rw [selectIndexed_policyOf]
  unfold policyOf
  simp only [OrderedDict.entries_map, List.map_eq_nil_iff, OrderedDict.get?_map]
  by_cases hroutes : slot.routes.entries = []
  · rw [if_pos hroutes, if_pos hroutes]
  · rw [if_neg hroutes, if_neg hroutes]
    refine bind_congr ?_
    rintro (_ | selector)
    · rfl
    · rcases hroute : slot.routes.get? (H.str selector) with _ | name
      · simp only [hroute, Option.map_none]
      · simp only [hroute, Option.map_some]

theorem selectOperator_policyOf (hmode : modeOf slot ∈ ["router", "switch", "dynamic"]) :
    (policyOf registry slot strict).selectOperator H = choose H registry slot := by
  have hselect : Text.lower (Text.strip (orText (policyOf registry slot strict).mode "serial")) =
      modeOf slot := by
    rw [policyOf_mode, lower_strip_mode, strip_modeOf, lower_modeOf]
  unfold OrchestrationPolicy.selectOperator choose
  simp only [hselect, selectSwitch_policyOf, selectDynamic_policyOf, selectRouter_policyOf]
  have hrouter : ¬ modeOf slot = "switch" → ¬ modeOf slot = "dynamic" → modeOf slot = "router" := by
    intro hswitch hdynamic
    rcases List.mem_cons.mp hmode with h | h
    · exact h
    · rcases List.mem_pair.mp h with h | h
      · exact absurd h hswitch
      · exact absurd h hdynamic
  split_ifs with hswitch hdynamic hrouter'
  · rfl
  · rfl
  · rfl
  · exact absurd (hrouter hswitch hdynamic) hrouter'

theorem runRouter_policyOf (hmode : modeOf slot ∈ ["router", "switch", "dynamic"])
    (value : V) (method : String) :
    H.runRouter (policyOf registry slot strict) value method value =
      denoteChoice H registry slot strict method value := by
  have hserial : modeOf slot ≠ "serial" := by
    intro h
    rw [h] at hmode
    revert hmode
    decide
  have hstripped : Text.lower (Text.strip (policyOf registry slot strict).mode) =
      modeOf slot := by
    rw [policyOf_mode, stripped_mode hserial, strip_modeOf, lower_modeOf]
  unfold Host.runRouter denoteChoice
  simp only [selectOperator_policyOf hmode, hstripped]
  rfl

end Choosing

/-! ## Compilation -/

theorem runPolicy_policyOf (slot : PipelineSlotSpec σ V E) (strict : Bool) (value : V)
    (method : String) :
    H.runPolicy (policyOf registry slot strict) value method value =
      denote H registry slot strict method value := by
  have hmode : Text.lower (orText (policyOf registry slot strict).mode "serial") =
      modeOf slot := by
    rw [policyOf_mode, lower_strip_mode, lower_modeOf]
  unfold Host.runPolicy denote
  simp only [hmode]
  refine if_congr Iff.rfl ?_ (if_congr Iff.rfl rfl ?_)
  · exact Effect.untilError_map _ _ _
  · by_cases h : modeOf slot ∈ ["router", "switch", "dynamic"]
    · rw [if_pos h, if_pos h, runRouter_policyOf h]
    · rw [if_neg h, if_neg h]
      rfl

/-- What the runner of a slot does. -/
theorem get?_buildSlots {strict : Bool} {slots : List (PipelineSlotSpec σ V E)}
    {built built' : PipelineKernelBuild σ V E Op} {name : String} (hname : name ≠ "")
    (h : buildSlots H registry strict slots built = .ok built') :
    built'.slotRunners.get? name =
      ((lastNamed name slots).map fun slot ↦ denote H registry slot strict (methodOf slot name)).or
        (built.slotRunners.get? name) := by
  induction slots generalizing built with
  | nil =>
      obtain rfl := Except.ok.inj h
      rfl
  | cons slot rest ih =>
      rw [buildSlots] at h
      rw [lastNamed]
      by_cases hblank : normalizeSlotName slot.slot = ""
      · rw [if_pos hblank] at h
        have hother : ¬ normalizeSlotName slot.slot = name := fun h ↦ hname (h ▸ hblank)
        rw [ih h, if_neg hother, Option.or_none]
      · rw [if_neg hblank] at h
        obtain ⟨policy, hpolicy, h⟩ := exists_of_bind_eq_ok h
        obtain ⟨-, rfl⟩ := buildPolicyFromSlot_eq_ok.mp hpolicy
        rw [ih h, OrderedDict.get?_insert]
        by_cases hsame : normalizeSlotName slot.slot = name
        · subst hsame
          have hrunner : (fun value ↦ H.runPolicy (policyOf registry slot strict) value
              (methodOf slot (normalizeSlotName slot.slot)) value) =
              denote H registry slot strict (methodOf slot (normalizeSlotName slot.slot)) :=
            funext fun value ↦ runPolicy_policyOf slot strict value _
          rw [if_pos rfl, if_pos rfl, hrunner]
          rcases lastNamed (normalizeSlotName slot.slot) rest with _ | later <;> rfl
        · rw [if_neg hsame, if_neg (Ne.symm hsame), Option.or_none]

/-- No slot is built without a name. -/
theorem get?_buildSlots_blank {strict : Bool} {slots : List (PipelineSlotSpec σ V E)}
    {built built' : PipelineKernelBuild σ V E Op}
    (h : buildSlots H registry strict slots built = .ok built') :
    built'.slotRunners.get? "" = built.slotRunners.get? "" := by
  induction slots generalizing built with
  | nil =>
      obtain rfl := Except.ok.inj h
      rfl
  | cons slot rest ih =>
      rw [buildSlots] at h
      by_cases hblank : normalizeSlotName slot.slot = ""
      · rw [if_pos hblank] at h
        exact ih h
      · rw [if_neg hblank] at h
        obtain ⟨policy, -, h⟩ := exists_of_bind_eq_ok h
        rw [ih h, OrderedDict.get?_insert, if_neg (Ne.symm hblank)]

theorem buildSlots_isOk {strict : Bool} {slots : List (PipelineSlotSpec σ V E)}
    {built : PipelineKernelBuild σ V E Op} :
    (∃ built', buildSlots H registry strict slots built = .ok built') ↔
      Complete registry slots strict := by
  induction slots generalizing built with
  | nil => exact iff_of_true ⟨built, rfl⟩ (by simp [Complete])
  | cons slot rest ih =>
      have hsplit : Complete registry (slot :: rest) strict ↔
          (normalizeSlotName slot.slot ≠ "" → slot.isStrict strict = true →
            ∀ name ∈ requiredNames slot, Resolves registry name) ∧
            Complete registry rest strict := List.forall_mem_cons
      rw [hsplit, buildSlots]
      by_cases hblank : normalizeSlotName slot.slot = ""
      · rw [if_pos hblank, ih]
        exact (and_iff_right fun h ↦ absurd hblank h).symm
      · rw [if_neg hblank]
        constructor
        · rintro ⟨built', h⟩
          obtain ⟨policy, hpolicy, h⟩ := exists_of_bind_eq_ok h
          exact ⟨fun _ ↦ (buildPolicyFromSlot_eq_ok.mp hpolicy).1, ih.mp ⟨built', h⟩⟩
        · rintro ⟨hslot, hrest⟩
          have hpolicy : buildPolicyFromSlot H slot registry strict =
              .ok (policyOf registry slot strict) :=
            buildPolicyFromSlot_eq_ok.mpr ⟨hslot hblank, rfl⟩
          rw [hpolicy]
          exact ih.mpr hrest

/-- **Building keeps the meaning of a specification.**  It succeeds exactly when every name that a
strict slot requires stands for an operator; what is built then does with any value, in any slot
and from any state, what the specification means. -/
theorem build_keeps_meaning (H : Host σ V E C Op) (registry : Registry Op)
    (slots : List (PipelineSlotSpec σ V E)) (strict : Bool) :
    ((∃ built, buildPipelineKernel H slots registry strict = .ok built) ↔
        Complete registry slots strict) ∧
      ∀ built, buildPipelineKernel H slots registry strict = .ok built →
        ∀ name, built.runSlot name = meaning H registry slots strict name := by
  refine ⟨buildSlots_isOk, fun built h name ↦ ?_⟩
  funext value
  unfold PipelineKernelBuild.runSlot meaning
  by_cases hname : normalizeSlotName name = ""
  · rw [if_pos hname, hname, get?_buildSlots_blank h]
    rfl
  · rw [if_neg hname, get?_buildSlots hname h]
    rcases lastNamed (normalizeSlotName name) slots with _ | slot <;> rfl

end Blackbase.Kernel.Slots
