import Blackbase.Context.RedisCodec.Envelope
import Blackbase.Core.Attempt

/-!
# What is stored is restored

`restored` says what a value comes back as, `nodes` how many nodes reading it visits.  Reading
what `dumps` wrote for a value gives exactly that, unless there are more nodes than `max_nodes`,
which `dumps` does not check; the depth is checked on both sides and never fails again.
-/

namespace Blackbase.Context.RedisCodec

open Attempt
open Project.Envelope (PyFloat)

/-! ## What comes back -/

/-- A float that was read: a NaN is a new object. -/
def fresh : PyFloat → PyFloat
  | .nan _ => .nan 0
  | x => x

mutual

/-- The nodes that reading a value visits. -/
def nodes : Value → ℕ
  | .complex _ _ => 1 + (1 + 1)
  | .generic item => nodes item
  | .protocol _ payload => 1 + (1 + nodesEntries payload)
  | .mapping entries => 1 + nodesEntries entries
  | .collection _ items => 1 + nodesItems items
  | _ => 1

def nodesItems : List Value → ℕ
  | [] => 0
  | v :: rest => nodes v + nodesItems rest

def nodesEntries : List (Value × Value) → ℕ
  | [] => 0
  | (k, v) :: rest => nodes k + (nodes v + nodesEntries rest)

end

section Restored

variable {O : Type} (R : Runtime O)

/-- Keys of a `dict`, or elements of a set: they have hashes, and no two are the same. -/
def Distinct (keys : List (Restored O)) : Prop :=
  (∀ x ∈ keys, x.hashable = true) ∧ keys.Pairwise fun x y ↦ Restored.same x y = false

instance (keys : List (Restored O)) : Decidable (Distinct keys) :=
  inferInstanceAs (Decidable (_ ∧ _))

/-- An array whose bytes are as many as its `dtype` and its shape say. -/
def restoredArray (a : RawArray) : Option (Restored O) :=
  match R.dtype a.dtype with
  | some ⟨itemsize, false⟩ =>
      if a.data.length = a.contiguous.shape.prod * itemsize ∧ itemsize ≠ 0 then
        some (.array a.contiguous)
      else none
  | _ => none

mutual

/-- What a value that was written comes back as; `none` if it does not. -/
def restored : Value → Option (Restored O)
  | .none => some .none
  | .bool b => some (.bool b)
  | .int n => some (.int n)
  | .float x => some (.float (fresh x))
  | .complex re im => some (.complex (fresh re) (fresh im))
  | .text s => some (.text s)
  | .generic item => restored item
  | .bytes data => some (.bytes data)
  | .protocol kind payload =>
      match restoredEntries payload with
      | some entries =>
          if Distinct (entries.map Prod.fst) then (R.restore kind entries).toOption.map .protocol
          else none
      | none => none
  | .array a => restoredArray R a
  | .mapping entries =>
      match restoredEntries entries with
      | some entries => if Distinct (entries.map Prod.fst) then some (.mapping entries) else none
      | none => none
  | .collection className items =>
      match Tag.ofName className, restoredItems items with
      | some (.collection kind), some items =>
          if kind.hashes = true → Distinct items then some (.collection kind items) else none
      | _, _ => none
  | .again => none
  | .other _ => none

def restoredItems : List Value → Option (List (Restored O))
  | [] => some []
  | v :: rest =>
      match restored v, restoredItems rest with
      | some x, some xs => some (x :: xs)
      | _, _ => none

def restoredEntries : List (Value × Value) → Option (List (Restored O × Restored O))
  | [] => some []
  | (k, v) :: rest =>
      match restored k, restored v, restoredEntries rest with
      | some x, some y, some es => some ((x, y) :: es)
      | _, _, _ => none

end

end Restored

/-! ## Tags -/

theorem Tag.name_of_ofName {name : String} {tag : Tag} (h : Tag.ofName name = some tag) :
    tag.name = name :=
  beq_iff_eq.mp (List.find?_some (p := fun t : Tag ↦ t.name == name) h)

section RoundTrip

variable {O : Type} {R : Runtime O} {limit room : ℕ} {path : String}

theorem fromSafeWire_tagged (tag : Tag) (d : Fields) :
    fromSafeWire R limit (room + 1) path (.obj ((valueTag, .str tag.name) :: d)) =
      Counted.visit limit CodecError.nodes >>= fun _ ↦
        fromTagged R (fromSafeWire R limit room) path ((valueTag, .str tag.name) :: d) tag := by
  have hget : Fields.get ((valueTag, .str tag.name) :: d) valueTag = .str tag.name := by
    simp [Fields.get]
  rw [fromSafeWire]
  simp only [hget, Tag.ofName_name]

/-! ## Leaves -/

theorem takes_writeFloat (x : PyFloat) :
    Counted.Takes limit .nodes 1 (.float (fresh x))
      (fromSafeWire R limit (room + 1) path (writeFloat x)) := by
  rcases x with q | (_ | _) | n
  · exact Counted.Takes.visit_pure rfl
  all_goals
    rw [writeFloat, fromSafeWire_tagged]
    exact Counted.Takes.visit_pure rfl

theorem restoreBytes_encode (data : List UInt8) :
    restoreBytes (O := O) path (.str (Base64.encode data)) = .ok (.bytes data) := by
  rw [restoreBytes, Base64.decode_encode]

theorem mapM_int_shape (shape : List ℕ) :
    (shape.map fun n : ℕ ↦ Json.int n).mapM R.int = some (shape.map fun n : ℕ ↦ (n : ℤ)) := by
  induction shape with
  | nil => rfl
  | cons n rest ih =>
      rw [List.map_cons, List.mapM_cons, ih]
      rfl

theorem map_toNat_shape (shape : List ℕ) :
    (shape.map fun n : ℕ ↦ (n : ℤ)).map Int.toNat = shape := by
  induction shape with
  | nil => rfl
  | cons n rest ih => rw [List.map_cons, List.map_cons, ih, Int.toNat_natCast]

theorem restoreArray_write {a : RawArray} {r : Restored O} (hobject : a.hasObject = false)
    (hr : restoredArray R a = some r) :
    restoreArray R path [
      (valueTag, .str Tag.ndarray.name),
      ("data", .str (Base64.encode a.contiguous.data)),
      ("dtype", .str a.contiguous.dtype),
      ("shape", .arr (a.contiguous.shape.map fun n : ℕ ↦ .int n))] = .ok r := by
  unfold restoredArray at hr
  split at hr
  · next itemsize hdtype =>
      split_ifs at hr with hlength
      obtain rfl := Option.some.inj hr
      have hnonneg : ¬ (a.contiguous.shape.map fun n : ℕ ↦ (n : ℤ)).any (· < 0) = true := by
        simp
      have hdtype' : R.dtype a.contiguous.dtype = some ⟨itemsize, false⟩ := hdtype
      have hlength' : ¬ a.contiguous.data.length ≠ a.contiguous.shape.prod * itemsize :=
        not_not.mpr hlength.1
      have hself : (⟨a.contiguous.dtype, false, a.contiguous.shape, a.contiguous.data⟩ : RawArray) =
          a.contiguous := by
        rw [← hobject]
        rfl
      have hfields : ∀ v₁ v₂ v₃ v₄ : Json, ∀ d : Fields,
          d = [(valueTag, v₁), ("data", v₂), ("dtype", v₃), ("shape", v₄)] →
            d.get "data" = v₂ ∧ d.get "dtype" = v₃ ∧ d.get "shape" = v₄ := by
        rintro v₁ v₂ v₃ v₄ d rfl
        exact ⟨rfl, rfl, rfl⟩
      obtain ⟨hdata, hname, hshape⟩ := hfields _ _ _ _ _ rfl
      rw [restoreArray, hname, hshape, hdata]
      simp only [hdtype', mapM_int_shape, Base64.decode_encode, map_toNat_shape, if_neg hnonneg,
        if_neg hlength', if_neg hlength.2, hself]
      rfl
  · cases hr

/-! ## Keys -/

theorem setItem_of_new {key value : Restored O} {entries : List (Restored O × Restored O)}
    (hnew : ∀ e ∈ entries, Restored.same e.1 key = false) :
    Restored.setItem key value entries = entries ++ [(key, value)] := by
  induction entries with
  | nil => rfl
  | cons e rest ih =>
      rw [Restored.setItem, hnew e List.mem_cons_self,
        ih fun e he ↦ hnew e (List.mem_cons_of_mem _ he)]
      rfl

theorem foldl_addItem {items seen : List (Restored O)}
    (h : (seen ++ items).Pairwise fun x y ↦ Restored.same x y = false) :
    items.foldl Restored.addItem seen = seen ++ items := by
  induction items generalizing seen with
  | nil => rw [List.foldl_nil, List.append_nil]
  | cons x rest ih =>
      have hnew : ¬ (seen.any fun y ↦ Restored.same y x) = true := by
        rw [List.any_eq_true]
        rintro ⟨y, hy, hsame⟩
        rw [(List.pairwise_append.mp h).2.2 y hy x List.mem_cons_self] at hsame
        cases hsame
      rw [List.foldl_cons, Restored.addItem, if_neg hnew, ih (by rwa [List.append_cons] at h),
        List.append_assoc, List.singleton_append]

theorem collect_eq_ok {kind : CollectionKind} {items : List (Restored O)}
    (h : kind.hashes = true → Distinct items) :
    Restored.collect path kind items = .ok (.collection kind items) := by
  unfold Restored.collect
  split
  · next hhashes =>
      obtain ⟨hhashable, hdistinct⟩ := h hhashes
      have hnone : ([] ++ items).Pairwise fun x y ↦ Restored.same x y = false := hdistinct
      rw [if_pos (List.all_eq_true.mpr hhashable), foldl_addItem hnone]
      rfl
  · rfl

/-! ## Items and entries -/

section Lists

variable {write : String → Value → Except CodecError Json}
  {read : String → Json → Reader (Restored O)}
  (hread : ∀ path path' v w r, write path v = .ok w → restored R v = some r →
    Counted.Takes limit .nodes (nodes v) r (read path' w))

include hread

theorem takes_readItems {items : List Value} {ws : List Json} {rs : List (Restored O)}
    {path path' : String} {i j : ℕ} (hw : writeItems write path i items = .ok ws)
    (hr : restoredItems R items = some rs) :
    Counted.Takes limit .nodes (nodesItems items) rs (readItems read path' j ws) := by
  induction items generalizing i j ws rs with
  | nil =>
      obtain rfl := Except.ok.inj hw
      obtain rfl := Option.some.inj hr
      exact Counted.Takes.pure _
  | cons v rest ih =>
      obtain ⟨w, hv, hw⟩ := exists_of_bind_eq_ok hw
      obtain ⟨ws, hrest, hw⟩ := exists_of_bind_eq_ok hw
      obtain rfl := Except.ok.inj hw
      rw [restoredItems] at hr
      split at hr
      · next x xs hx hxs =>
          obtain rfl := Option.some.inj hr
          refine (hread _ _ v w x hv hx).bind ?_
          exact (ih hrest hxs).bind_pure rfl
      · cases hr

theorem takes_readPairs {entries : List (Value × Value)} {ws : List Json}
    {seen es : List (Restored O × Restored O)} {path path' : String} {i : ℕ}
    (hw : writeEntries R write path entries = .ok ws)
    (hr : restoredEntries R entries = some es) (hdistinct : Distinct ((seen ++ es).map Prod.fst)) :
    Counted.Takes limit .nodes (nodesEntries entries) (seen ++ es)
      (readPairs R read path' i ws seen) := by
  induction entries generalizing i ws seen es with
  | nil =>
      obtain rfl := Except.ok.inj hw
      obtain rfl := Option.some.inj hr
      rw [List.append_nil]
      exact Counted.Takes.pure _
  | cons e rest ih =>
      obtain ⟨k, v⟩ := e
      obtain ⟨key, hk, hw⟩ := exists_of_bind_eq_ok hw
      obtain ⟨item, hv, hw⟩ := exists_of_bind_eq_ok hw
      obtain ⟨ws, hrest, hw⟩ := exists_of_bind_eq_ok hw
      obtain rfl := Except.ok.inj hw
      rw [restoredEntries] at hr
      split at hr
      · next x y es hx hy hes =>
          obtain rfl := Option.some.inj hr
          have hhashable : x.hashable = true := hdistinct.1 x (by simp)
          have hnew : ∀ e ∈ seen, Restored.same e.1 x = false := by
            intro e he
            rw [List.map_append, List.map_cons] at hdistinct
            exact (List.pairwise_append.mp hdistinct.2).2.2 e.1 (List.mem_map_of_mem he) x
              List.mem_cons_self
          refine (hread _ _ k key x hk hx).bind ?_
          rw [hhashable]
          refine (hread _ _ v item y hv hy).bind ?_
          rw [setItem_of_new hnew, List.append_cons]
          exact ih hrest hes (by rwa [← List.append_cons])
      · cases hr

end Lists

/-! ## Reading what was written -/

/-- **What was written is read.**  However deep the writer stood, a reader that may go as deep
visits the nodes of the value and returns what it comes back as. -/
theorem takes_fromSafeWire {room' : ℕ} {path' : String} {v : Value} {w : Json} {r : Restored O}
    (hw : toSafeWire R room path v = .ok w) (hr : restored R v = some r) (hroom : room ≤ room') :
    Counted.Takes limit .nodes (nodes v) r (fromSafeWire R limit room' path' w) := by
  induction room generalizing room' path path' v w r with
  | zero => cases hw
  | succ room ih =>
      obtain ⟨room', rfl⟩ : ∃ n, room' = n + 1 := ⟨room' - 1, by omega⟩
      have hroom' : room ≤ room' := Nat.le_of_succ_le_succ hroom
      -- one level down, for the values inside
      have hread : ∀ path path' v w r, toSafeWire R room path v = .ok w → restored R v = some r →
          Counted.Takes limit .nodes (nodes v) r (fromSafeWire R limit room' path' w) :=
        fun _ _ _ _ _ hw hr ↦ ih hw hr hroom'
      cases v with
      | none | bool | int | text =>
          obtain rfl := Except.ok.inj hw
          obtain rfl := Option.some.inj hr
          exact Counted.Takes.visit_pure rfl
      | float x =>
          obtain rfl := Except.ok.inj hw
          obtain rfl := Option.some.inj hr
          exact takes_writeFloat x
      | complex re im =>
          obtain ⟨real, hreal, hw⟩ := exists_of_bind_eq_ok hw
          obtain ⟨imag, himag, hw⟩ := exists_of_bind_eq_ok hw
          obtain rfl := Except.ok.inj hw
          obtain rfl := Option.some.inj hr
          rw [fromSafeWire_tagged]
          refine Counted.Takes.visit_bind ?_
          refine (hread _ _ (.float re) real _ hreal rfl).bind ?_
          exact (hread _ _ (.float im) imag _ himag rfl).bind_pure rfl
      | generic item =>
          rw [toSafeWire] at hw
          rw [restored] at hr
          rw [nodes]
          exact ih hw hr (Nat.le_succ_of_le hroom')
      | bytes data =>
          obtain rfl := Except.ok.inj hw
          obtain rfl := Option.some.inj hr
          rw [fromSafeWire_tagged]
          exact Counted.Takes.visit_pure (congrArg liftM (restoreBytes_encode data))
      | protocol kind payload =>
          obtain ⟨inner, hinner, hw⟩ := exists_of_bind_eq_ok hw
          obtain rfl := Except.ok.inj hw
          rw [restored] at hr
          split at hr
          · next es hes =>
              split_ifs at hr with hdistinct
              have hmapping : restored R (.mapping payload) = some (.mapping es) := by
                rw [restored, hes]
                exact if_pos hdistinct
              obtain ⟨o, ho, rfl⟩ := Option.map_eq_some_iff.mp hr
              rw [fromSafeWire_tagged]
              refine Counted.Takes.visit_bind ?_
              refine (hread _ _ (.mapping payload) inner _ hinner hmapping).bind_pure ?_
              simp only [eq_ok_of_toOption ho]
          · cases hr
      | array a =>
          rw [toSafeWire] at hw
          split_ifs at hw with hobject
          obtain rfl := Except.ok.inj hw
          rw [fromSafeWire_tagged]
          exact Counted.Takes.visit_pure
            (congrArg liftM (restoreArray_write (Bool.eq_false_iff.mpr hobject) hr))
      | mapping entries =>
          obtain ⟨ws, hws, rfl⟩ := exists_of_map_eq_ok hw
          rw [restored] at hr
          split at hr
          · next es hes =>
              split_ifs at hr with hdistinct
              obtain rfl := Option.some.inj hr
              rw [container, fromSafeWire_tagged]
              have hnone : Distinct (([] ++ es).map Prod.fst) := hdistinct
              exact Counted.Takes.visit_bind ((takes_readPairs hread hws hes hnone).bind_pure rfl)
          · cases hr
      | collection className items =>
          obtain ⟨ws, hws, rfl⟩ := exists_of_map_eq_ok hw
          rw [restored] at hr
          split at hr
          · next kind rs hkind hrs =>
              split_ifs at hr with hdistinct
              obtain rfl := Option.some.inj hr
              obtain rfl := Tag.name_of_ofName hkind
              rw [container, fromSafeWire_tagged]
              refine Counted.Takes.visit_bind ?_
              exact (takes_readItems hread hws hrs).bind_pure
                (congrArg liftM (collect_eq_ok hdistinct))
          · cases hr
      | again => cases hw
      | other className => cases hw

/-! ## Written fields stand in order -/

theorem sorted_writeFloat (x : PyFloat) : (writeFloat x).Sorted := by
  rcases x with q | (_ | _) | n
  · trivial
  all_goals exact ⟨by decide, trivial, trivial, trivial⟩

section Lists

variable {write : String → Value → Except CodecError Json}
  (hwrite : ∀ path v w, write path v = .ok w → w.Sorted)

include hwrite

theorem sortedItems_writeItems {items : List Value} {ws : List Json} {i : ℕ}
    (h : writeItems write path i items = .ok ws) : sortedItems ws := by
  induction items generalizing i ws with
  | nil =>
      obtain rfl := Except.ok.inj h
      trivial
  | cons v rest ih =>
      obtain ⟨w, hw, h⟩ := exists_of_bind_eq_ok h
      obtain ⟨ws, hws, h⟩ := exists_of_bind_eq_ok h
      obtain rfl := Except.ok.inj h
      exact ⟨hwrite _ v w hw, ih hws⟩

theorem sortedItems_writeEntries {entries : List (Value × Value)} {ws : List Json}
    (h : writeEntries R write path entries = .ok ws) : sortedItems ws := by
  induction entries generalizing ws with
  | nil =>
      obtain rfl := Except.ok.inj h
      trivial
  | cons e rest ih =>
      obtain ⟨k, v⟩ := e
      obtain ⟨key, hkey, h⟩ := exists_of_bind_eq_ok h
      obtain ⟨item, hitem, h⟩ := exists_of_bind_eq_ok h
      obtain ⟨ws, hws, h⟩ := exists_of_bind_eq_ok h
      obtain rfl := Except.ok.inj h
      exact ⟨⟨hwrite _ k key hkey, hwrite _ v item hitem, trivial⟩, ih hws⟩

end Lists

theorem sorted_container {tag : String} {ws : List Json} (h : sortedItems ws) :
    (container tag ws).Sorted :=
  ⟨by simp only [List.map_cons, List.map_nil]; decide, trivial, h, trivial⟩

theorem sortedItems_shape (shape : List ℕ) :
    sortedItems (shape.map fun n : ℕ ↦ .int n) := by
  induction shape with
  | nil => trivial
  | cons n rest ih => exact ⟨trivial, ih⟩

theorem sorted_toSafeWire {v : Value} {w : Json} (h : toSafeWire R room path v = .ok w) :
    w.Sorted := by
  induction room generalizing path v w with
  | zero => cases h
  | succ room ih =>
      cases v with
      | none | bool | int | text =>
          obtain rfl := Except.ok.inj h
          trivial
      | float x =>
          obtain rfl := Except.ok.inj h
          exact sorted_writeFloat x
      | complex re im =>
          obtain ⟨real, hreal, h⟩ := exists_of_bind_eq_ok h
          obtain ⟨imag, himag, h⟩ := exists_of_bind_eq_ok h
          obtain rfl := Except.ok.inj h
          exact ⟨by simp only [List.map_cons, List.map_nil]; decide, trivial, ih himag, ih hreal,
            trivial⟩
      | generic item =>
          rw [toSafeWire] at h
          exact ih h
      | bytes data =>
          obtain rfl := Except.ok.inj h
          exact ⟨by simp only [List.map_cons, List.map_nil]; decide, trivial, trivial, trivial⟩
      | protocol kind payload =>
          obtain ⟨inner, hinner, h⟩ := exists_of_bind_eq_ok h
          obtain rfl := Except.ok.inj h
          exact ⟨by simp only [List.map_cons, List.map_nil]; decide, trivial, ih hinner, trivial⟩
      | array a =>
          rw [toSafeWire] at h
          split_ifs at h with hobject
          obtain rfl := Except.ok.inj h
          exact ⟨by simp only [List.map_cons, List.map_nil]; decide, trivial, trivial, trivial,
            sortedItems_shape _, trivial⟩
      | mapping entries =>
          obtain ⟨ws, hws, rfl⟩ := exists_of_map_eq_ok h
          exact sorted_container (sortedItems_writeEntries (fun _ _ _ ↦ ih) hws)
      | collection className items =>
          obtain ⟨ws, hws, rfl⟩ := exists_of_map_eq_ok h
          exact sorted_container (sortedItems_writeItems (fun _ _ _ ↦ ih) hws)
      | again => cases h
      | other className => cases h

end RoundTrip

/-! ## Stores -/

namespace RedisValueCodec

variable {O P : Type} {R : Runtime O} {F : Formats P} {C : RedisValueCodec}

/-- What `dumps` of a safe codec has done when it returns. -/
theorem dumps_safe {v : Value} {raw : Bytes} (hsafe : C.serializer = .safe)
    (h : C.dumps R F v = .ok raw) :
    ∃ w, toSafeWire R (C.maxDepth + 1) "value" v = .ok w ∧
      F.write (.obj (C.baseEnvelope [("payload", w)])) = some raw ∧
      raw.length ≤ C.maxPayloadBytes := by
  obtain ⟨fields, hfields, h⟩ := exists_of_bind_eq_ok h
  rw [envelopeOf, hsafe] at hfields
  obtain ⟨w, hw, hfields⟩ := exists_of_bind_eq_ok hfields
  obtain rfl := Except.ok.inj hfields
  split at h
  · cases h
  · next raw' hraw =>
      obtain ⟨_, hsize, h⟩ := exists_of_bind_eq_ok h
      obtain rfl := Except.ok.inj h
      exact ⟨w, hw, hraw, C.checkSize_eq_ok.mp hsize⟩

theorem sorted_envelope {w : Json} (h : w.Sorted) :
    (Json.obj (C.baseEnvelope [("payload", w)])).Sorted :=
  ⟨by simp only [baseEnvelope, List.map_cons, List.map_nil, List.cons_append, List.nil_append]
      decide, trivial, h, trivial, trivial, trivial⟩

theorem lower_strip_name (s : Serializer) : Text.lower (Text.strip s.name) = s.name := by
  cases s <;> decide

theorem checkEnvelope_baseEnvelope {C' : RedisValueCodec} {w : Json}
    (hscope : C'.envelopeScope = C.envelopeScope) (hserializer : C'.serializer = C.serializer) :
    C'.checkEnvelope R (C.baseEnvelope [("payload", w)]) = none := by
  have hname : Fields.get (C.baseEnvelope [("payload", w)]) "_blackbase_envelope" =
      .str envelopeName := rfl
  have hlookup : (C.baseEnvelope [("payload", w)]).lookup "scope" = some (.str C.envelopeScope) :=
    rfl
  have hlookup' : (C.baseEnvelope [("payload", w)]).lookup "serializer" =
      some (.str C.serializer.name) := rfl
  rw [checkEnvelope, hname, hlookup, hlookup']
  simp [Runtime.str, hscope, hserializer, lower_strip_name]

/-- **What is stored is restored.**  A value that a safe codec has written, and that comes back at
all, is read by every safe codec of the same scope that may go as deep and read as much: it is what
the value comes back as, or the error of the nodes if the reader may not visit as many. -/
theorem loads_dumps (R : Runtime O) (F : Formats P) (C C' : RedisValueCodec) (v : Value)
    (r : Restored O) (raw : Bytes) (hsafe : C.serializer = .safe) (hsafe' : C'.serializer = .safe)
    (hscope : C'.envelopeScope = C.envelopeScope) (hdepth : C.maxDepth ≤ C'.maxDepth)
    (hbytes : C.maxPayloadBytes ≤ C'.maxPayloadBytes) (hr : restored R v = some r)
    (hdumps : C.dumps R F v = .ok raw) :
    C'.loads R F raw =
      .plain (if nodes v ≤ C'.maxNodes then .ok (.restored r) else .error .nodes) := by
  obtain ⟨w, hw, hwrite, hsize⟩ := dumps_safe hsafe hdumps
  have hread : F.read raw = some (.obj (C.baseEnvelope [("payload", w)])) :=
    F.read_write _ _ (sorted_envelope (sorted_toSafeWire hw)) hwrite
  have hlookup : (C.baseEnvelope [("payload", w)]).lookup "payload" = some w := rfl
  have htakes : Counted.Takes C'.maxNodes .nodes (nodes v) r
      (fromSafeWire R C'.maxNodes (C'.maxDepth + 1) "value" w) :=
    takes_fromSafeWire hw hr (Nat.succ_le_succ hdepth)
  rw [loads, C'.checkSize_eq_ok.mpr (hsize.trans hbytes)]
  simp only [hread]
  rw [checkEnvelope_baseEnvelope hscope (hsafe'.trans hsafe.symm)]
  simp only [if_pos hsafe', loadSafe, hlookup, htakes.run]
  split <;> rfl

theorem dumps_nan :
    (sampleCodec .safe false).dumps sampleRuntime sampleFormats (.float (.nan 7)) = .ok safeBytes := by
  decide +kernel

/-- A NaN is restored, as a new object. -/
theorem loads_dumps_nan :
    (sampleCodec .safe false).loads sampleRuntime sampleFormats safeBytes =
      .plain (if nodes (.float (.nan 7)) ≤ (sampleCodec .safe false).maxNodes then
        .ok (.restored (.float (.nan 0))) else .error .nodes) :=
  loads_dumps sampleRuntime sampleFormats (sampleCodec .safe false) (sampleCodec .safe false) (.float (.nan 7))
    (.float (.nan 0)) safeBytes rfl rfl rfl le_rfl le_rfl rfl dumps_nan

end RedisValueCodec

end Blackbase.Context.RedisCodec
