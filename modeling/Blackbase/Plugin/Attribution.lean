import Blackbase.Plugin.ContextBuild

/-!
# Who changed a key

A key is attributed to the last handler that is found to have changed it.  That is the last one that
changed it, for the keys that end up different, exactly when the handler last found to have changed
a key has changed it, and the last one that changed such a key is found.
-/

namespace Blackbase.Plugin.ContextBuild

universe u

variable {C : Type u} {P : Comparison C} {strict : Bool}

/-- The value of the context at a key, by its content. -/
def State.value (s : State C) (key : String) : Option C :=
  (s.currentContext.get? key).map s.heap

/-- The keys that a handler is found to have changed. -/
def found (P : Comparison C) (s : State C) (v : Visit C) : List String :=
  match v.called with
  | none => []
  | some e =>
      match e.outcome with
      | .raised => []
      | _ => collectChangedKeys P e.heap (s.beforeContext P) e.after

/-- The plugins of the turns that pass a test, in order. -/
def namesWhere (P : Comparison C) (strict : Bool) (test : State C → Visit C → State C → Bool) :
    State C → List (Visit C) → List String
  | _, [] => []
  | s, v :: rest =>
      match visit P strict s v with
      | none => []
      | some t => (if test s v t then [v.name] else []) ++ namesWhere P strict test t rest

/-- The plugins that are found to have changed a key. -/
def finders (P : Comparison C) (strict : Bool) (key : String) :
    State C → List (Visit C) → List String :=
  namesWhere P strict fun s v _ ↦ key ∈ found P s v

/-- The plugins that have changed a key. -/
def changers [DecidableEq C] (P : Comparison C) (strict : Bool) (key : String) :
    State C → List (Visit C) → List String :=
  namesWhere P strict fun s _ t ↦ s.value key ≠ t.value key

/-! ## Writers -/

theorem finders_cons {key : String} {s t : State C} {v : Visit C} {rest : List (Visit C)}
    (h : visit P strict s v = some t) :
    finders P strict key s (v :: rest) =
      (if key ∈ found P s v then [v.name] else []) ++ finders P strict key t rest := by
  simp only [finders, namesWhere, h, decide_eq_true_eq]

theorem get?_foldl_insert_const (keys : List String) (d : OrderedDict String) (w key : String) :
    (keys.foldl (fun d k ↦ d.insert k w) d).get? key =
      if key ∈ keys then some w else d.get? key := by
  induction keys generalizing d with
  | nil => simp
  | cons k rest ih =>
      rw [List.foldl_cons, ih, OrderedDict.get?_insert]
      by_cases hk : key = k
      · simp [hk]
      · simp [hk]

/-- A turn attributes the keys that the handler is found to have changed. -/
theorem writers_visit {s t : State C} {v : Visit C} (h : visit P strict s v = some t)
    (key : String) :
    t.contextWriters.get? key =
      if key ∈ found P s v then some (source v.name) else s.contextWriters.get? key := by
  unfold visit at h
  unfold found
  cases hcalled : v.called with
  | none =>
      rw [hcalled] at h
      obtain rfl := Option.some.inj h
      rfl
  | some e =>
      rw [hcalled] at h
      cases houtcome : e.outcome with
      | raised =>
          simp only [houtcome] at h
          cases strict with
          | true => cases h
          | false =>
              obtain rfl := Option.some.inj h
              simp [houtcome]
      | returned context =>
          simp only [houtcome] at h
          obtain rfl := Option.some.inj h
          simp only [houtcome]
          exact get?_foldl_insert_const _ _ _ _
      | other =>
          simp only [houtcome] at h
          obtain rfl := Option.some.inj h
          simp only [houtcome]
          exact get?_foldl_insert_const _ _ _ _

/-- A key is attributed to the last plugin that is found to have changed it. -/
theorem writers_visitAll {s t : State C} {visits : List (Visit C)}
    (h : visitAll P strict s visits = some t) (key : String) :
    t.contextWriters.get? key =
      ((finders P strict key s visits).getLast?.map source).or (s.contextWriters.get? key) := by
  induction visits generalizing s with
  | nil =>
      obtain rfl := Option.some.inj h
      rfl
  | cons v rest ih =>
      rw [visitAll, Option.bind_eq_some_iff] at h
      obtain ⟨e, hvisit, hrest⟩ := h
      rw [ih hrest, writers_visit hvisit, finders_cons hvisit, List.getLast?_append]
      by_cases hfound : key ∈ found P s v
      · rw [if_pos hfound, if_pos hfound]
        cases (finders P strict key e rest).getLast? <;> rfl
      · rw [if_neg hfound, if_neg hfound]
        cases (finders P strict key e rest).getLast? <;> rfl

/-! ## Changes -/

theorem namesWhere_sublist (test : State C → Visit C → State C → Bool) (s : State C)
    (visits : List (Visit C)) :
    (namesWhere P strict test s visits).Sublist (visits.map Visit.name) := by
  induction visits generalizing s with
  | nil => exact List.Sublist.refl _
  | cons v rest ih =>
      rw [namesWhere]
      cases visit P strict s v with
      | none => exact List.nil_sublist _
      | some t =>
          have hhead : (if test s v t then [v.name] else []).Sublist [v.name] := by
            by_cases htest : test s v t = true
            · rw [if_pos htest]
            · rw [if_neg htest]
              exact List.nil_sublist _
          exact hhead.append (ih t)

/-- In a list without repetition an element does not come both before and after another. -/
theorem not_sublist_swap {names : List String} (hnodup : names.Nodup) {a b : String}
    (hab : [a, b].Sublist names) (hba : [b, a].Sublist names) : False := by
  have horder : names.Pairwise fun x y ↦ names.idxOf x < names.idxOf y := by
    rw [List.pairwise_iff_getElem]
    intro i j hi hj hij
    rwa [hnodup.idxOf_getElem i hi, hnodup.idxOf_getElem j hj]
  have hlt := horder.sublist hab
  have hgt := horder.sublist hba
  rw [List.pairwise_pair] at hlt hgt
  exact Nat.lt_asymm hlt hgt

theorem pair_sublist_of_last {l : List String} {a b : String} (ha : a ∈ l)
    (hb : l.getLast? = some b) (hne : a ≠ b) : [a, b].Sublist l := by
  obtain ⟨front, rfl⟩ := List.getLast?_eq_some_iff.mp hb
  have hfront : a ∈ front := by
    rcases List.mem_append.mp ha with h | h
    · exact h
    · exact absurd (List.mem_singleton.mp h) hne
  have hhead : [a].Sublist front := List.singleton_sublist.mpr hfront
  exact hhead.append (List.Sublist.refl [b])

/-- Two parts of a list without repetition end alike when each of them has the last of the other. -/
theorem getLast?_eq_of_sublist {names l l' : List String} (hnodup : names.Nodup)
    (hl : l.Sublist names) (hl' : l'.Sublist names) (h : ∀ a ∈ l.getLast?, a ∈ l')
    (h' : ∀ a ∈ l'.getLast?, a ∈ l) : l.getLast? = l'.getLast? := by
  cases hlast : l.getLast? with
  | none =>
      cases hlast' : l'.getLast? with
      | none => rfl
      | some b =>
          have hb := h' b hlast'
          rw [List.getLast?_eq_none_iff.mp hlast] at hb
          cases hb
  | some a =>
      have ha := h a hlast
      cases hlast' : l'.getLast? with
      | none =>
          rw [List.getLast?_eq_none_iff.mp hlast'] at ha
          cases ha
      | some b =>
          by_contra hne
          have hab : a ≠ b := fun heq ↦ hne (congrArg some heq)
          refine not_sublist_swap hnodup ((pair_sublist_of_last ha hlast' hab).trans hl') ?_
          exact (pair_sublist_of_last (h' b hlast') hlast hab.symm).trans hl

theorem source_inj {a b : String} (h : source a = source b) : a = b := by
  have hlist := congrArg String.toList h
  rw [source, source, String.toList_append, String.toList_append] at hlist
  exact String.toList_inj.mp (List.append_cancel_left hlist)

variable [DecidableEq C]

/-! ## Attribution -/

/-- The plugins of a manager, whose names are distinct. -/
structure Plugins (C : Type u) where
  visits : List (Visit C)
  nodup : (visits.map Visit.name).Nodup

/-- Every key that ends up different is attributed to the last plugin that changed it, and no key is
attributed to a plugin that has not changed it. -/
def Attributed (P : Comparison C) (strict : Bool) (s : State C) (visits : List (Visit C))
    (t : State C) : Prop :=
  ∀ key,
    (s.value key ≠ t.value key → t.contextWriters.get? key =
      (changers P strict key s visits).getLast?.map source) ∧
    ∀ w, t.contextWriters.get? key = some w → ∃ name ∈ changers P strict key s visits,
      w = source name

/-- Every object is copied, and two objects compare by their contents. -/
structure Comparison.Exact (P : Comparison C) : Prop where
  deepcopy_eq : ∀ c, P.deepcopy c = .fresh c
  neq_eq : ∀ c d, P.neq c d = some (decide (c ≠ d))

theorem Comparison.Exact.beforeContext (hP : P.Exact) (s : State C) (key : String) :
    (s.beforeContext P).get? key = (s.value key).map .copied := by
  have hnone : (s.currentContext.entries.any fun e ↦ (P.deepcopy (s.heap e.2)).fails) = false := by
    rw [List.any_eq_false]
    intro e _
    rw [hP.deepcopy_eq]
    exact Bool.false_ne_true
  rw [State.beforeContext, hnone, if_neg Bool.false_ne_true, OrderedDict.get?_map, State.value,
    Option.map_map]
  refine congrArg (fun f ↦ Option.map f _) (funext fun object ↦ ?_)
  rw [hP.deepcopy_eq]
  rfl

/-- A handler that does not raise is found to have changed what it has changed. -/
theorem Comparison.Exact.mem_collectChangedKeys (hP : P.Exact) (s : State C) (e : Effect C)
    (key : String) :
    key ∈ collectChangedKeys P e.heap (s.beforeContext P) e.after ↔
      s.value key ≠ (e.after.get? key).map e.heap := by
  rw [collectChangedKeys, List.mem_filter, List.mem_append, keysOf, OrderedDict.mem_keys,
    OrderedDict.mem_keys, hP.beforeContext]
  cases hbefore : s.value key with
  | none =>
      cases hafter : e.after.get? key with
      | none => simp
      | some b => simp
  | some c =>
      cases hafter : e.after.get? key with
      | none => simp
      | some b => simp [safeValuesDiffer, hP.neq_eq]

/-- Every handler of a run that raises leaves the values as they were. -/
def TidyRaises (P : Comparison C) (strict : Bool) : State C → List (Visit C) → Prop
  | _, [] => True
  | s, v :: rest =>
      match visit P strict s v with
      | none => True
      | some t =>
          ((∃ e, v.called = some e ∧ e.outcome = .raised) → ∀ key, s.value key = t.value key) ∧
            TidyRaises P strict t rest

theorem mem_found_iff (hP : P.Exact) {s t : State C} {v : Visit C} (h : visit P strict s v = some t)
    (htidy : (∃ e, v.called = some e ∧ e.outcome = .raised) → ∀ key, s.value key = t.value key)
    (key : String) : key ∈ found P s v ↔ s.value key ≠ t.value key := by
  unfold visit at h
  unfold found
  cases hcalled : v.called with
  | none =>
      rw [hcalled] at h
      obtain rfl := Option.some.inj h
      simp
  | some e =>
      rw [hcalled] at h
      cases houtcome : e.outcome with
      | raised => simp [houtcome, htidy ⟨e, hcalled, houtcome⟩ key]
      | returned context =>
          simp only [houtcome] at h
          obtain rfl := Option.some.inj h
          simp only [houtcome]
          exact hP.mem_collectChangedKeys s e key
      | other =>
          simp only [houtcome] at h
          obtain rfl := Option.some.inj h
          simp only [houtcome]
          exact hP.mem_collectChangedKeys s e key

/-- Where values compare by their contents and a handler that raises has changed nothing, the keys
are attributed as they should be. -/
theorem finders_eq_changers (hP : P.Exact) {s : State C} {visits : List (Visit C)}
    (htidy : TidyRaises P strict s visits) (key : String) :
    finders P strict key s visits = changers P strict key s visits := by
  induction visits generalizing s with
  | nil => rfl
  | cons v rest ih =>
      rw [finders, changers, namesWhere, namesWhere]
      cases hvisit : visit P strict s v with
      | none => rfl
      | some t =>
          rw [TidyRaises, hvisit] at htidy
          have hrest := ih htidy.2
          rw [finders, changers] at hrest
          have htest : decide (key ∈ found P s v) = decide (s.value key ≠ t.value key) :=
            decide_eq_decide.mpr (mem_found_iff hP hvisit htidy.1 key)
          simp only [htest, hrest]

/-- Objects that are numbers. -/
def numbers : Comparison ℕ where
  deepcopy c := .fresh c
  neq c d := some (decide (c ≠ d))

theorem numbers_exact : numbers.Exact := ⟨fun _ ↦ rfl, fun _ _ ↦ rfl⟩

/-- A context with one key. -/
def oneKey : Context := OrderedDict.ofList [("a", 0)]

/-- A plugin that changes the object in place, and one that returns a context with another key. -/
def twoPlugins : Plugins ℕ where
  visits := [
    ⟨"first", true, false, some ⟨fun _ ↦ 2, oneKey, .other⟩⟩,
    ⟨"second", true, false, some ⟨fun _ ↦ 2, oneKey, .returned (oneKey.insert "b" 1)⟩⟩]
  nodup := by simp

/-- A plugin that changes the object and then raises. -/
def raisingPlugin : Plugins ℕ where
  visits := [⟨"first", true, false, some ⟨fun _ ↦ 2, oneKey, .raised⟩⟩]
  nodup := List.nodup_singleton _

end Blackbase.Plugin.ContextBuild
