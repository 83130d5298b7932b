import Blackbase.Resources.Control.Stores

/-!
# The stores as one interface

What the rest of the development needs of a cancellation store: the calls, which
records have expired when a call takes place, and for each control of a namespace its
record, reduced to the parent link and the cancellation state.

`ControlStore.Lawful` is the specification: what a call may do to a record, and what
`request` and `read` answer.  The three stores meet it.
-/

namespace Blackbase.Resources

/-- A call of a store.  `expire` is the passing of time, noticed by a call on another
control. -/
inductive ControlCall where
  | create
  | read
  | request (reason : String)
  | touch
  | retire
  | expire
deriving DecidableEq

/-- The call is a `request`. -/
def ControlCall.isRequest : ControlCall → Bool
  | .request _ => true
  | _ => false

/-- A call with the reference it is made with and the clocks it reads.  A `request` on
SQLite is two transactions: the first is that of a `create`, the second is the one
`request` stands for. -/
structure ControlStep where
  call : ControlCall
  ref : CancellationRef
  clock : ℕ → Time
  server : Time

/-- What a call returns or raises. -/
inductive ControlReply where
  | done
  | flag (b : Bool)
  | state (s : CancellationState)
  | raised (e : ControlError)
deriving DecidableEq

/-- The reply of a `read`. -/
def ControlReply.ofRead : Except ControlError CancellationState → ControlReply
  | .error e => .raised e
  | .ok found => .state found

/-- The call has raised. -/
def ControlReply.isRaised : ControlReply → Bool
  | .raised _ => true
  | _ => false

theorem ControlReply.isRaised_iff {r : ControlReply} : r.isRaised ↔ ∃ e, r = .raised e := by
  cases r <;> simp [isRaised]

/-- The record of a control: its parent link and its state. -/
structure ControlView where
  parent : Option String
  state : CancellationState
deriving DecidableEq

/-- What a `read` sees at a record. -/
def ControlView.sight (v : ControlView) : Chain.Sight String CancellationState :=
  if v.state.requested then .answer v.state
  else match v.parent with
    | none => .dead
    | some parent => .next parent

/-- What a `read` sees at a control that may have a record. -/
def sightOf : Option ControlView → Chain.Sight String CancellationState
  | none => .dead
  | some v => v.sight

/-- The record of a control that has been requested. -/
def Requested (v : Option ControlView) : Prop := ∃ c ∈ v, c.state.requested

instance (v : Option ControlView) : Decidable (Requested v) :=
  inferInstanceAs (Decidable (∃ c ∈ v, _))

@[simp] theorem sightOf_none : sightOf none = .dead := rfl

theorem sightOf_requested {v : ControlView} (h : v.state.requested) :
    sightOf (some v) = .answer v.state := if_pos h

theorem sightOf_link {v : ControlView} {p : String} (h : v.state.requested = false)
    (hp : v.parent = some p) : sightOf (some v) = .next p := by
  simp [sightOf, ControlView.sight, h, hp]

theorem sightOf_root {v : ControlView} (h : v.state.requested = false) (hp : v.parent = none) :
    sightOf (some v) = .dead := by
  simp [sightOf, ControlView.sight, h, hp]

/-- Only a requested record answers. -/
theorem sightOf_eq_answer {v : Option ControlView} {st : CancellationState}
    (h : sightOf v = .answer st) : st.requested ∧ Requested v := by
  cases v with
  | none => cases h
  | some v =>
      cases hreq : v.state.requested with
      | true =>
          rw [sightOf_requested hreq] at h
          obtain rfl := Chain.Sight.answer.inj h
          exact ⟨hreq, v, rfl, hreq⟩
      | false =>
          cases hp : v.parent with
          | none =>
              rw [sightOf_root hreq hp] at h
              cases h
          | some p =>
              rw [sightOf_link hreq hp] at h
              cases h

/-- A cancellation store. -/
structure ControlStore where
  State : Type
  empty : State
  /-- The store without the records that have expired when the call takes place. -/
  expire : State → ControlStep → State
  apply : State → ControlStep → State × ControlReply
  /-- The record of a control of a namespace. -/
  view : State → String → String → Option ControlView
  /-- What holds of every state of the store. -/
  Inv : State → Prop

namespace ControlStore

/-- What a call may do to the record of a control that is there when it takes place. -/
inductive Keeps (l : ControlStep) : ControlView → ControlView → Prop
  | same (v : ControlView) : Keeps l v v
  | requested (v : ControlView) (s : CancellationState) (hcall : l.call.isRequest)
      (h : v.state.requested = false) (hs : s.requested) : Keeps l v { v with state := s }
  /-- The parent link of a control requested before it was created. -/
  | linked (v : ControlView) (p : Option String) (h : v.state.requested) :
      Keeps l v { v with parent := p }

/-- The record a call makes for the control of its reference, if there is none. -/
inductive Makes (l : ControlStep) : ControlView → Prop
  | fresh (hcall : l.call = .create) : Makes l ⟨l.ref.parentControlId, .initial⟩
  | requested (p : Option String) (s : CancellationState) (hcall : l.call.isRequest)
      (hs : s.requested) : Makes l ⟨p, s⟩

/-- What a call does to the record of the control `id`. -/
inductive Does (l : ControlStep) (id : String) :
    Option ControlView → Option ControlView → Prop
  | kept {v w : ControlView} (h : Keeps l v w) : Does l id (some v) (some w)
  | absent : Does l id none none
  | made {w : ControlView} (hid : l.ref.controlId = id) (h : Makes l w) : Does l id none (some w)
  | retired {v : Option ControlView} (hid : l.ref.controlId = id) (hcall : l.call = .retire) :
      Does l id v none

/-- The specification of a store, on the calls made with references of one namespace. -/
structure Lawful (S : ControlStore) : Prop where
  inv_empty : S.Inv S.empty
  inv_apply : ∀ s l, S.Inv s → S.Inv (S.apply s l).1
  view_empty : ∀ ns id, S.view S.empty ns id = none
  /-- Expiry removes records and changes none. -/
  view_expire : ∀ s l ns id, S.view (S.expire s l) ns id = S.view s ns id ∨
    S.view (S.expire s l) ns id = none
  /-- A call that does not raise acts on the records that have not expired. -/
  view_apply : ∀ s l id, S.Inv s → (∀ e, (S.apply s l).2 ≠ .raised e) →
    Does l id (S.view (S.expire s l) l.ref.ns id) (S.view (S.apply s l).1 l.ref.ns id)
  /-- A call that raises leaves a record alone, or it has expired. -/
  view_raised : ∀ s l id e, S.Inv s → (S.apply s l).2 = .raised e →
    S.view (S.apply s l).1 l.ref.ns id = S.view s l.ref.ns id ∨
      S.view (S.apply s l).1 l.ref.ns id = none ∧ S.view (S.expire s l) l.ref.ns id = none
  /-- A `request` that returns true leaves its control requested. -/
  granted : ∀ s l reason, S.Inv s → l.call = .request reason → (S.apply s l).2 = .flag true →
    Requested (S.view (S.apply s l).1 l.ref.ns l.ref.controlId)
  /-- `read` searches along the parent links. -/
  read : ∀ s l, S.Inv s → l.call = .read →
    (S.apply s l).2 = .ofRead (reported (Chain.chase
      (fun id ↦ sightOf (S.view (S.expire s l) l.ref.ns id)) [] maxVisited l.ref.controlId))

end ControlStore

end Blackbase.Resources
