import Blackbase.Context.Contract

/-!
# The two forms of a contract

A contract and the mapping made of it are read alike exactly when the contract has none of what the
mapping path leaves out, and notes that it does not rewrite.
-/

namespace Blackbase.Context.Contracts

open Project.Envelope (PyValue Payload Raised Runtime payload)

variable {F : Text.CaseFolding} {R : Runtime}

/-! ## Normalizing twice -/

@[simp] theorem sortedSet_sortedSet (l : List String) : sortedSet (sortedSet l) = sortedSet l := by
  have hnodup : (sortedSet l).Nodup :=
    (Selection.sorted_perm id l.dedup).nodup_iff.mpr l.nodup_dedup
  rw [sortedSet, hnodup.dedup]
  exact (Selection.pairwise_sorted id l.dedup).insertionSort_eq

@[simp] theorem map_strOf_texts (l : List String) : (texts l).map R.strOf = l := by
  rw [texts, List.map_map]
  exact List.map_id l

theorem textOrNone_eq_some {s text : String} :
    textOrNone s = some text ↔ s = text ∧ text ≠ "" := by
  unfold textOrNone
  by_cases h : s = ""
  · rw [if_pos h]
    constructor
    · intro hno
      cases hno
    · rintro ⟨rfl, hne⟩
      exact absurd h hne
  · rw [if_neg h, Option.some.injEq]
    constructor
    · rintro rfl
      exact ⟨rfl, h⟩
    · exact And.left

/-- What an item is normalized to is normalized. -/
theorem normalizeField_eq_some {item : PyValue} {text : String}
    (h : normalizeField F R item = some text) : normalizeField F R (.text text) = some text := by
  have hitem : ∃ key, textOrNone (normalizeContextKey F key) = some text := by
    cases item with
    | none => cases h
    | _ => exact ⟨_, h⟩
  obtain ⟨key, hkey⟩ := hitem
  obtain ⟨rfl, hne⟩ := textOrNone_eq_some.mp hkey
  change textOrNone (normalizeContextKey F (normalizeContextKey F key)) = _
  rw [normalizeContextKey_normalizeContextKey]
  exact hkey

theorem normalizeField_of_mem {items : List PyValue} {text : String}
    (h : text ∈ normalizeFields F R items) : normalizeField F R (.text text) = some text := by
  have hmem := List.mem_dedup.mp ((Selection.sorted_perm id _).subset h)
  obtain ⟨item, -, hitem⟩ := List.mem_filterMap.mp hmem
  exact normalizeField_eq_some hitem

@[simp] theorem normalizeFields_normalizeFields (items : List PyValue) :
    normalizeFields F R (texts (normalizeFields F R items)) = normalizeFields F R items := by
  have hsame : (texts (normalizeFields F R items)).filterMap (normalizeField F R) =
      normalizeFields F R items := by
    rw [texts, List.filterMap_map]
    have hfixed : ∀ text ∈ normalizeFields F R items,
        (normalizeField F R ∘ PyValue.text) text = some text := by
      intro text htext
      rw [Function.comp_apply]
      exact normalizeField_of_mem htext
    exact (List.filterMap_congr hfixed).trans List.filterMap_some
  rw [normalizeFields, hsame]
  exact sortedSet_sortedSet _

@[simp] theorem normalizeFields_nil : normalizeFields F R [] = [] := rfl

/-! ## Notes -/

@[simp] theorem normalizeNotes_none : normalizeNotes R .none = none := by rw [normalizeNotes]

/-- Notes are kept when there are none, and when they are a stripped text. -/
theorem mergeNotes_eq_self {v : PyValue} :
    mergeNotes R [v, .none, .none, .none, .none, .none] = v ↔
      v = .none ∨ ∃ s, v = .text s ∧ Text.strip s = s ∧ s ≠ "" := by
  have hmerge : mergeNotes R [v, .none, .none, .none, .none, .none] =
      (normalizeNotes R v).elim .none .text := by
    cases h : normalizeNotes R v with
    | none => simp [mergeNotes, h]
    | some note => simp [mergeNotes, h, List.eraseDups_cons]
  rw [hmerge]
  constructor
  · intro h
    cases hnote : normalizeNotes R v with
    | none =>
        rw [hnote] at h
        exact .inl h.symm
    | some note =>
        rw [hnote] at h
        obtain rfl := h
        obtain ⟨hstrip, hne⟩ := textOrNone_eq_some.mp hnote
        exact .inr ⟨note, rfl, hstrip, hne⟩
  · rintro (rfl | ⟨s, rfl, hstrip, hne⟩)
    · rfl
    · rw [normalizeNotes, hstrip, textOrNone, if_neg hne, Option.elim_some]

/-! ## The two forms -/

/-- What the mapping of a contract is read as. -/
theorem contractOfMapping_toDict (c : ContextContract) :
    contractOfMapping F R (c.toDict F R) = .ok {
      name := ""
      keys := fun field ↦
        if field = .optional then [] else texts (normalizeFields F R (c.keys field))
      notes := mergeNotes R [c.notes, .none, .none, .none, .none, .none]
      requiresMetrics := []
      metricsFallback := "strict"
      metadata := c.metadata } := by
  have hlisted (items : List PyValue) :
      R.itemsOf ((PyValue.list items).orElse (.tuple [])) = .ok items := by
    cases items <;> rfl
  have hnone : R.itemsOf ((PyValue.tuple []).orElse (.tuple [])) = .ok [] := rfl
  simp only [contractOfMapping, listedTwice, listed, ContextContract.toDict, Field.name, Field.all,
    List.map_cons, List.map_nil, List.cons_append, List.nil_append,
    Project.Envelope.get_payload_cons, String.reduceEq, ↓reduceIte, hlisted, String.reduceAppend,
    Project.Envelope.get_payload_nil, hnone, bind_pure_comp, Except.map_ok, List.append_nil,
    Project.Envelope.ok_bind, Runtime.dictOrEmpty_mapping, Except.ok.injEq]
  refine ContextContract.mk.injEq .. ▸ ⟨rfl, ?_, rfl, rfl, rfl, rfl⟩
  funext field
  cases field with
  | optional => rfl
  | _ => exact congrArg texts (normalizeFields_normalizeFields _)

/-- A component that declares a contract in one of the forms; its attributes may be any. -/
def declaring (declared : Declared) (getattr : String → PyValue) : Component := ⟨declared, getattr⟩

/-- The contract and the mapping made of it yield the same contract, which merges alike with any
other. -/
def FormsAgree (F : Text.CaseFolding) (R : Runtime) (c : ContextContract) : Prop :=
  ∀ getattr getattr' : String → PyValue, ∃ a b,
    getComponentContract F R (some (declaring (.contract c) getattr)) = .ok (some a) ∧
    getComponentContract F R (some (declaring (.mapping (c.toDict F R)) getattr')) = .ok (some b) ∧
    a = b ∧ ∀ other, a.merge F R other = b.merge F R other ∧ other.merge F R a = other.merge F R b

/-- The contract is what its mapping is read as, unless it has something that is left out or
rewritten. -/
theorem normalized_eq_iff (c : ContextContract) :
    contractOfMapping F R (c.toDict F R) = .ok (c.normalized F R) ↔
      c.name = "" ∧ normalizeFields F R (c.keys .optional) = [] ∧
        normalizeFields F R (texts c.requiresMetrics) = [] ∧
        (c.metricsFallback = "strict" ∨ c.metricsFallback = "") ∧
        (c.notes = .none ∨ ∃ s, c.notes = .text s ∧ Text.strip s = s ∧ s ≠ "") := by
  have hfallback : (if c.metricsFallback = "" then "strict" else c.metricsFallback) = "strict" ↔
      c.metricsFallback = "strict" ∨ c.metricsFallback = "" := by
    by_cases h : c.metricsFallback = ""
    · simp [h]
    · simp [h]
  have hkeys : (fun field : Field ↦
      if field = .optional then [] else texts (normalizeFields F R (c.keys field))) =
        (fun field ↦ texts (normalizeFields F R (c.keys field))) ↔
      normalizeFields F R (c.keys .optional) = [] := by
    constructor
    · intro h
      exact (List.map_eq_nil_iff.mp (congrFun h .optional).symm)
    · intro h
      funext field
      by_cases hfield : field = .optional
      · rw [if_pos hfield, hfield, h]
        rfl
      · rw [if_neg hfield]
  rw [contractOfMapping_toDict, ← hfallback, ← hkeys, ← mergeNotes_eq_self (R := R),
    Except.ok.injEq, ContextContract.normalized, ContextContract.make, ContextContract.mk.injEq,
    map_strOf_texts]
  tauto

/-- The two forms agree exactly when the contract has no name, no optional keys and no metrics, is
strict, and has no notes or notes that are a stripped text. -/
theorem formsAgree_iff (F : Text.CaseFolding) (R : Runtime) (c : ContextContract) :
    FormsAgree F R c ↔
      c.name = "" ∧ normalizeFields F R (c.keys .optional) = [] ∧
        normalizeFields F R (texts c.requiresMetrics) = [] ∧
        (c.metricsFallback = "strict" ∨ c.metricsFallback = "") ∧
        (c.notes = .none ∨ ∃ s, c.notes = .text s ∧ Text.strip s = s ∧ s ≠ "") := by
  rw [← normalized_eq_iff]
  constructor
  · intro h
    obtain ⟨a, b, ha, hb, rfl, -⟩ := h (fun _ ↦ .none) fun _ ↦ .none
    obtain rfl := Option.some.inj (Except.ok.inj ha)
    change (contractOfMapping F R (c.toDict F R)).map some = _ at hb
    cases hd : contractOfMapping F R (c.toDict F R) with
    | error e =>
        rw [hd] at hb
        cases hb
    | ok d =>
        rw [hd] at hb
        obtain rfl := Option.some.inj (Except.ok.inj hb)
        rfl
  · intro h getattr getattr'
    refine ⟨c.normalized F R, c.normalized F R, rfl, ?_, rfl, fun _ ↦ ⟨rfl, rfl⟩⟩
    change (contractOfMapping F R (c.toDict F R)).map some = _
    rw [h]
    rfl

/-- A contract that requires a metric, and replaces a missing one by NaN. -/
def nanContract : ContextContract where
  name := ""
  keys _ := []
  notes := .none
  requiresMetrics := ["loss"]
  metricsFallback := "nan"
  metadata := []

/-- The mapping of such a contract is read as one that requires no metric, and is strict. -/
theorem not_formsAgree_nan : ¬ FormsAgree .ascii .refusing nanContract := by
  intro h
  obtain ⟨a, b, ha, hb, rfl, -⟩ := h (fun _ ↦ .none) fun _ ↦ .none
  have hnan : a.metricsFallback = "nan" := by
    rw [← Option.some.inj (Except.ok.inj ha)]
    rfl
  change (contractOfMapping .ascii .refusing (nanContract.toDict .ascii .refusing)).map some = _
    at hb
  rw [contractOfMapping_toDict] at hb
  rw [← Option.some.inj (Except.ok.inj hb)] at hnan
  exact absurd hnan (by decide)

end Blackbase.Context.Contracts
