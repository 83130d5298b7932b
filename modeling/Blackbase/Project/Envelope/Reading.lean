import Blackbase.Project.Envelope.Value

/-!
# Frozen mappings, and reading a payload

The mappings an envelope keeps, the two forms in which they are handed on, and the conversions
of `from_dict`: `str`, `int`, `float`, `dict`, with the `or` that stands before them.
-/

namespace Blackbase.Project.Envelope

/-! ## Frozen mappings -/

mutual

theorem frozen_of_freeze : ∀ (v : PyValue) {w : PyValue} (path : String),
    freeze path v = .ok w → w.Frozen
  | .none, w, path, h | .bool _, w, path, h | .int _, w, path, h | .float _, w, path, h
  | .text _, w, path, h => by
      obtain rfl := Except.ok.inj h
      trivial
  | .mapping entries, w, path, h => by
      rw [freeze] at h
      cases hl : freezeEntries path entries with
      | error e => rw [hl] at h; cases h
      | ok l =>
          rw [hl] at h
          obtain rfl := Except.ok.inj h
          refine ⟨frozenEntries_iff.mpr fun e he ↦ ?_, _, rfl⟩
          obtain ⟨p, hp, rfl⟩ := List.mem_map.mp he
          exact frozen_of_freezeEntries entries path hl p (OrderedDict.mem_of_mem_ofList hp)
  | .list items, w, path, h | .tuple items, w, path, h => by
      rw [freeze] at h
      cases hl : freezeItems (path ++ "[]") items with
      | error e => rw [hl] at h; cases h
      | ok l =>
          rw [hl] at h
          obtain rfl := Except.ok.inj h
          exact frozenItems_iff.mpr (frozen_of_freezeItems items _ hl)
  | .path _, w, path, h | .dataRef _, w, path, h | .array _ _ _, w, path, h
  | .record _ _ _, w, path, h | .other _ _, w, path, h => by cases h

theorem frozen_of_freezeItems : ∀ (items : List PyValue) {l : List PyValue} (path : String),
    freezeItems path items = .ok l → ∀ w ∈ l, w.Frozen
  | [], l, path, h => by
      obtain rfl := Except.ok.inj h
      simp
  | v :: rest, l, path, h => by
      rw [freezeItems] at h
      cases hv : freeze path v with
      | error e => rw [hv] at h; cases h
      | ok v' =>
          cases hrest : freezeItems path rest with
          | error e => rw [hv, hrest] at h; cases h
          | ok rest' =>
              rw [hv, hrest] at h
              obtain rfl := Except.ok.inj h
              rintro w (_ | ⟨_, hw⟩)
              · exact frozen_of_freeze v path hv
              · exact frozen_of_freezeItems rest path hrest w hw

theorem frozen_of_freezeEntries : ∀ (entries : Payload) {l : List (String × PyValue)}
    (path : String), freezeEntries path entries = .ok l → ∀ p ∈ l, p.2.Frozen
  | [], l, path, h => by
      obtain rfl := Except.ok.inj h
      simp
  | (k, v) :: rest, l, path, h => by
      rw [freezeEntries] at h
      cases hv : freeze (path ++ "." ++ k.str) v with
      | error e => rw [hv] at h; cases h
      | ok v' =>
          cases hrest : freezeEntries path rest with
          | error e => rw [hv, hrest] at h; cases h
          | ok rest' =>
              rw [hv, hrest] at h
              obtain rfl := Except.ok.inj h
              rintro p (_ | ⟨_, hp⟩)
              · exact frozen_of_freeze v _ hv
              · exact frozen_of_freezeEntries rest path hrest p hp

end

/-- A mapping that `freeze_wire_mapping` has returned. -/
structure WireMapping where
  dict : OrderedDict PyValue
  frozen : ∀ e ∈ dict.entries, e.2.Frozen

namespace WireMapping

@[ext] theorem ext {m m' : WireMapping} (h : m.dict = m'.dict) : m = m' := by
  cases m
  cases m'
  obtain rfl : _ = _ := h
  rfl

/-- The mapping as the envelope holds it. -/
def held (m : WireMapping) : PyValue := obj m.dict.entries

/-- `thaw_wire_mapping(m)`, which is what `_transport_safe` makes of it. -/
def thawed (m : WireMapping) : PyValue := thaw m.held

theorem frozenEntries (m : WireMapping) : FrozenEntries (payload m.dict.entries) := by
  refine frozenEntries_iff.mpr fun e he ↦ ?_
  obtain ⟨p, hp, rfl⟩ := List.mem_map.mp he
  exact m.frozen p hp

theorem frozen_held (m : WireMapping) : m.held.Frozen := ⟨m.frozenEntries, _, rfl⟩

theorem thawed_eq (m : WireMapping) :
    m.thawed = .mapping (payload (thawEntries (payload m.dict.entries))) :=
  textual_thawEntries m.dict

/-- A value in which a frozen mapping is handed on. -/
def Shown (m : WireMapping) (v : PyValue) : Prop := v = m.held ∨ v = m.thawed

theorem shown_held (m : WireMapping) : m.Shown m.held := .inl rfl

theorem shown_thawed (m : WireMapping) : m.Shown m.thawed := .inr rfl

end WireMapping

/-! ## Conversions -/

/-- What Python's conversions make of a value of another kind, the difference of two floats, and
SHA-256: of a text, and of the JSON text of a value. -/
structure Runtime where
  str : PyValue → String
  int : PyValue → Except Raised ℤ
  float : PyValue → Except Raised PyFloat
  dict : PyValue → Except Raised Payload
  sequence : PyValue → Except Raised (List PyValue)
  sub : PyFloat → PyFloat → PyFloat
  sha256 : String → Resources.Digest
  jsonDigest : PyValue → Except Raised Resources.Digest

@[simp] theorem ok_bind {ε α β : Type} (x : α) (f : α → Except ε β) :
    (Except.ok x >>= f) = f x := rfl

namespace Runtime

/-- A runtime that converts nothing but what is converted already. -/
def refusing : Runtime where
  str _ := ""
  int v := .error (.typeError v.typeName)
  float v := .error (.typeError v.typeName)
  dict v := .error (.typeError v.typeName)
  sequence v := .error (.typeError v.typeName)
  sub x _ := x
  sha256 _ := Resources.ControlStore.zeroDigest
  jsonDigest _ := .ok Resources.ControlStore.zeroDigest

variable (R : Runtime)

/-- `str(v)`. -/
def strOf : PyValue → String
  | .text s => s
  | v => R.str v

/-- `int(v)`. -/
def intOf : PyValue → Except Raised ℤ
  | .int n => .ok n
  | .bool b => .ok (if b then 1 else 0)
  | v => R.int v

/-- `float(v)`. -/
def floatOf : PyValue → Except Raised PyFloat
  | .float x => .ok x
  | v => R.float v

/-- `dict(v)`. -/
def dictOf : PyValue → Except Raised Payload
  | .mapping entries => .ok entries
  | v => R.dict v

/-- The items that `tuple(v)` goes through. -/
def itemsOf : PyValue → Except Raised (List PyValue)
  | .list items => .ok items
  | .tuple items => .ok items
  | v => R.sequence v

/-- `v.get`, which only a mapping has. -/
def mappingOf : PyValue → Except Raised Payload
  | .mapping entries => .ok entries
  | v =>
      let type := v.typeName
      .error (.attributeError s!"'{type}' object has no attribute 'get'")

/-- `dict(v or {})`. -/
def dictOrEmpty (v : PyValue) : Except Raised Payload := R.dictOf (v.orElse (.mapping []))

/-- `int(v or 0)`. -/
def intOrZero (v : PyValue) : Except Raised ℤ := R.intOf (v.orElse (.int 0))

/-- `float(v or 0.0)`. -/
def floatOrZero (v : PyValue) : Except Raised PyFloat := R.floatOf (v.orElse (.float .zero))

@[simp] theorem strOf_text (s : String) : R.strOf (.text s) = s := rfl

@[simp] theorem intOf_int (n : ℤ) : R.intOf (.int n) = .ok n := rfl

@[simp] theorem floatOf_float (x : PyFloat) : R.floatOf (.float x) = .ok x := rfl

@[simp] theorem mappingOf_obj (fields : List (String × PyValue)) :
    mappingOf (obj fields) = .ok (payload fields) := rfl

@[simp] theorem intOrZero_int (n : ℤ) : R.intOrZero (.int n) = .ok n := by
  by_cases h : n = 0 <;> simp [intOrZero, PyValue.orElse, PyValue.truthy, h]

@[simp] theorem floatOrZero_float (x : PyFloat) : R.floatOrZero (.float x) = .ok x := by
  by_cases h : x.truthy = true
  · simp [floatOrZero, PyValue.orElse, PyValue.truthy, h]
  · have hx : x = .zero := by simpa [PyFloat.truthy] using h
    simp [floatOrZero, PyValue.orElse, PyValue.truthy, hx, PyFloat.truthy]

@[simp] theorem dictOrEmpty_mapping (entries : Payload) :
    R.dictOrEmpty (.mapping entries) = .ok entries := by
  cases entries <;> rfl

@[simp] theorem dictOrEmpty_obj (fields : List (String × PyValue)) :
    R.dictOrEmpty (obj fields) = .ok (payload fields) :=
  R.dictOrEmpty_mapping _

/-- `freeze_wire_mapping(v, path)`. -/
def freezeMapping (path : String) (v : PyValue) : Except Raised WireMapping :=
  (R.dictOrEmpty v).bind fun entries ↦
    match h : freezeEntries path entries with
    | .error e => .error e
    | .ok l =>
        .ok ⟨.ofList l, fun p hp ↦
          frozen_of_freezeEntries entries path h p (OrderedDict.mem_of_mem_ofList hp)⟩

/-- `freeze_wire_mapping(_transport_safe(v, path), path)`. -/
def wireMapping (refused : String → String → String) (path : String) (v : PyValue) :
    Except Raised WireMapping :=
  (safe refused path v).bind (R.freezeMapping path)

/-- `dict(v or {})`, as the constructor is handed it. -/
def readDict (v : PyValue) : Except Raised PyValue := (R.dictOrEmpty v).map .mapping

theorem freezeMapping_of_freezeEntries {m : WireMapping} {path : String} {entries : Payload}
    (h : freezeEntries path entries = .ok m.dict.entries) :
    R.freezeMapping path (.mapping entries) = .ok m := by
  rw [freezeMapping, dictOrEmpty_mapping, Except.bind]
  split
  · next heq => rw [h] at heq; cases heq
  · next l heq =>
      rw [h] at heq
      obtain rfl := Except.ok.inj heq
      exact congrArg Except.ok (WireMapping.ext (OrderedDict.ofList_entries _))

/-- Freezing a frozen mapping, or a thawed one, gives it back. -/
theorem freezeMapping_shown {m : WireMapping} {v : PyValue} (h : m.Shown v) (path : String) :
    R.freezeMapping path v = .ok m := by
  rcases h with rfl | rfl
  · refine R.freezeMapping_of_freezeEntries ?_
    rw [freezeEntries_of_frozen _ _ m.frozenEntries, named_payload]
  · rw [m.thawed_eq]
    refine R.freezeMapping_of_freezeEntries ?_
    rw [freezeEntries_thaw _ _ m.frozenEntries, named_payload]

theorem safe_shown {refused : String → String → String} {m : WireMapping} {v : PyValue}
    (h : m.Shown v) (path : String) : safe refused path v = .ok m.thawed := by
  rcases h with rfl | rfl
  · exact safe_of_frozen _ _ m.frozen_held
  · exact safe_thaw _ _ m.frozen_held

/-- Neither does the detour by `_transport_safe` change it. -/
theorem wireMapping_shown {refused : String → String → String} {m : WireMapping} {v : PyValue}
    (h : m.Shown v) (path : String) : R.wireMapping refused path v = .ok m := by
  rw [wireMapping, safe_shown h]
  exact R.freezeMapping_shown m.shown_thawed path

@[simp] theorem readDict_mapping (entries : Payload) :
    R.readDict (.mapping entries) = .ok (.mapping entries) := by
  rw [readDict, dictOrEmpty_mapping]
  rfl

@[simp] theorem readDict_thawed (m : WireMapping) : R.readDict m.thawed = .ok m.thawed := by
  rw [m.thawed_eq, readDict_mapping]

end Runtime

/-! ## Equality -/

/-- The number a value is compared as. -/
def PyValue.number : PyValue → Option ℚ
  | bool b => some (if b then 1 else 0)
  | int n => some n
  | float (.real q) => some q
  | _ => Option.none

mutual

/-- `v == w` of two values inside containers, where an object is equal to itself. -/
def PyValue.same : PyValue → PyValue → Bool
  | .none, .none => true
  | .text s, .text s' => s = s'
  | .float (.nan object), .float (.nan object') => object = object'
  | .float (.infinity negative), .float (.infinity negative') => negative = negative'
  | .list items, .list items' => sameItems items items'
  | .tuple items, .tuple items' => sameItems items items'
  | .mapping entries, .mapping entries' =>
      entries.length = entries'.length && sameEntries entries entries'
  | v, w =>
      match v.number, w.number with
      | some p, some q => p = q
      | _, _ => false

def sameItems : List PyValue → List PyValue → Bool
  | [], [] => true
  | v :: rest, w :: rest' => v.same w && sameItems rest rest'
  | _, _ => false

/-- Each entry is found in the other mapping. -/
def sameEntries : Payload → Payload → Bool
  | [], _ => true
  | (k, v) :: rest, entries =>
      (match entries.lookup k with
        | some w => v.same w
        | none => false) && sameEntries rest entries

end

theorem lookup_payload (l : List (String × PyValue)) (k : String) :
    (payload l).lookup (.text k) = l.lookup k := by
  induction l with
  | nil => rfl
  | cons e rest ih =>
      rw [OrderedDict.lookup_cons, payload, List.map_cons, List.lookup_cons, ← payload, ih]
      by_cases h : k = e.1
      · simp [h]
      · have hne : PyKey.text k ≠ PyKey.text e.1 := fun heq ↦ h (PyKey.text.inj heq)
        rw [if_neg h, beq_eq_false_iff_ne.mpr hne]

theorem lookup_of_mem_payload {d : OrderedDict PyValue} {e : PyKey × PyValue}
    (h : e ∈ payload d.entries) : (payload d.entries).lookup e.1 = some e.2 := by
  obtain ⟨p, hp, rfl⟩ := List.mem_map.mp h
  exact (lookup_payload d.entries p.1).trans (OrderedDict.get?_of_mem hp)

mutual

/-- A frozen value is equal to itself. -/
theorem PyValue.same_self : ∀ v : PyValue, v.Frozen → v.same v = true
  | .none, _ => rfl
  | .bool b, _ => by simp [PyValue.same, PyValue.number]
  | .int n, _ => by simp [PyValue.same, PyValue.number]
  | .float (.real q), _ => by simp [PyValue.same, PyValue.number]
  | .float (.infinity negative), _ => by simp [PyValue.same]
  | .float (.nan object), _ => by simp [PyValue.same]
  | .text s, _ => by simp [PyValue.same]
  | .tuple items, h => by
      rw [PyValue.same]
      exact sameItems_self items h
  | .mapping entries, h => by
      have hentries := sameEntries_self entries entries h.1
      obtain ⟨-, d, rfl⟩ := h
      rw [PyValue.same, hentries fun e he ↦ lookup_of_mem_payload he]
      simp

theorem sameItems_self : ∀ items : List PyValue, FrozenItems items → sameItems items items = true
  | [], _ => rfl
  | v :: rest, h => by
      rw [sameItems, PyValue.same_self v h.1, sameItems_self rest h.2]
      rfl

theorem sameEntries_self : ∀ l entries : Payload, FrozenEntries l →
    (∀ e ∈ l, entries.lookup e.1 = some e.2) → sameEntries l entries = true
  | [], _, _, _ => rfl
  | (k, v) :: rest, entries, h, hfound => by
      have hhead : entries.lookup k = some v := hfound _ List.mem_cons_self
      rw [sameEntries, hhead,
        sameEntries_self rest entries h.2 fun e he ↦ hfound e (List.mem_cons_of_mem _ he)]
      simp [PyValue.same_self v h.1]

end

/-- `m == m'`. -/
def WireMapping.same (m m' : WireMapping) : Bool := m.held.same m'.held

@[simp] theorem WireMapping.same_self (m : WireMapping) : m.same m = true :=
  PyValue.same_self _ m.frozen_held

/-! ## Texts -/

/-- A text that is stripped and not empty. -/
structure Label where
  text : String
  stripped : Text.strip text = text
  ne : text ≠ ""

namespace Label

@[ext] theorem ext {l l' : Label} (h : l.text = l'.text) : l = l' := by
  cases l
  cases l'
  obtain rfl : _ = _ := h
  rfl

/-- `str(value or "").strip()`, unless that is empty. -/
def parse (value : String) : Option Label :=
  if h : Text.strip value = "" then none else some ⟨Text.strip value, Text.strip_strip value, h⟩

@[simp] theorem parse_text (l : Label) : parse l.text = some l := by
  rw [parse, dif_neg (by rw [l.stripped]; exact l.ne)]
  exact congrArg some (Label.ext l.stripped)

end Label

/-- A text that is not empty. -/
structure Filled where
  text : String
  ne : text ≠ ""

namespace Filled

@[ext] theorem ext {f f' : Filled} (h : f.text = f'.text) : f = f' := by
  cases f
  cases f'
  obtain rfl : _ = _ := h
  rfl

/-- `str(value or default)`. -/
def orDefault (value : String) (default : Filled) : Filled :=
  if h : value = "" then default else ⟨value, h⟩

@[simp] theorem orDefault_text (f default : Filled) : orDefault f.text default = f :=
  dif_neg f.ne

end Filled

/-! ## Nested envelopes -/

/-- What a constructor may be handed for a nested envelope: the envelope, or its `as_dict`. -/
inductive Given (α : Type) where
  | built (x : α)
  | payload (v : PyValue)

/-- The envelope, read from its `as_dict` if need be. -/
def Given.take {α : Type} (fromDict : PyValue → Except Raised α) : Given α → Except Raised α
  | built x => .ok x
  | payload v => fromDict v

@[simp] theorem Given.take_built {α : Type} (fromDict : PyValue → Except Raised α) (x : α) :
    (built x).take fromDict = .ok x := rfl

/-- One entry of a comprehension over nested envelopes. -/
def takeEntry {α : Type} (fromDict : PyValue → Except Raised α) (e : PyKey × Given α) :
    Except Raised (String × α) :=
  (e.2.take fromDict).map fun x ↦ (e.1.str, x)

/-- `{str(key): ... for key, value in dict(d or {}).items()}` over nested envelopes. -/
def collect {α : Type} (fromDict : PyValue → Except Raised α) (l : List (PyKey × Given α)) :
    Except Raised (OrderedDict α) :=
  (l.mapM (takeEntry fromDict)).map .ofList

/-- The entries of a dictionary of envelopes, handed to a constructor. -/
def handed {α : Type} (d : OrderedDict α) : List (PyKey × Given α) :=
  d.entries.map fun e ↦ (.text e.1, .built e.2)

theorem mapM_self {ε α : Type} {f : α → Except ε α} {l : List α} (h : ∀ a ∈ l, f a = .ok a) :
    l.mapM f = .ok l := by
  induction l with
  | nil => rfl
  | cons a rest ih =>
      rw [List.mapM_cons, h a List.mem_cons_self,
        ih fun b hb ↦ h b (List.mem_cons_of_mem _ hb)]
      rfl

@[simp] theorem collect_handed {α : Type} (fromDict : PyValue → Except Raised α)
    (d : OrderedDict α) : collect fromDict (handed d) = .ok d := by
  have hmap : (handed d).mapM (takeEntry fromDict) = .ok d.entries := by
    rw [handed, List.mapM_map]
    exact mapM_self fun e _ ↦ rfl
  rw [collect, hmap]
  exact congrArg Except.ok (OrderedDict.ofList_entries d)

/-- `{str(key): from_dict(value) for key, value in dict(v or {}).items()}`. -/
def Runtime.readMap (R : Runtime) {α : Type} (fromDict : PyValue → Except Raised α)
    (v : PyValue) : Except Raised (OrderedDict α) :=
  (R.dictOrEmpty v).bind fun entries ↦
    collect fromDict (entries.map fun e ↦ (e.1, .payload e.2))

/-- The `as_dict` of a dictionary of envelopes. -/
def shownMap {α : Type} (asDict : α → PyValue) (d : OrderedDict α) : PyValue :=
  obj (d.map asDict).entries

/-- Reading a dictionary of envelopes back. -/
theorem Runtime.readMap_shownMap (R : Runtime) {α : Type} {fromDict : PyValue → Except Raised α}
    {asDict : α → PyValue} (h : ∀ x, fromDict (asDict x) = .ok x) (d : OrderedDict α) :
    R.readMap fromDict (shownMap asDict d) = .ok d := by
  rw [readMap, shownMap, dictOrEmpty_obj, Except.bind, collect]
  have hmap : ((payload (d.map asDict).entries).map fun e ↦ (e.1, Given.payload e.2)).mapM
      (takeEntry fromDict) = .ok d.entries := by
    rw [payload, OrderedDict.map, List.map_map, List.map_map, List.mapM_map]
    exact mapM_self fun e _ ↦ congrArg (Except.map _) (h e.2)
  rw [hmap]
  exact congrArg Except.ok (OrderedDict.ofList_entries d)

end Blackbase.Project.Envelope
