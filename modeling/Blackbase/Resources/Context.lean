import Blackbase.Project.Envelope.Reading

/-!
# Resource contexts

The part of a `ResourceContext` that providers are bound by and that a grant is partitioned from,
and what is read in its grant.  A grant is a mapping of any values, and reading one can raise what
Python's conversions raise.
-/

namespace Blackbase.Resources

open Project.Envelope (Raised Runtime Payload Filled obj)

theorem cpu_ne : "cpu" ≠ "" := by decide

theorem auto_ne : "auto" ≠ "" := by decide

theorem local_ne : "local" ≠ "" := by decide

theorem frozen_empty : ∀ e ∈ (∅ : OrderedDict Project.Envelope.PyValue).entries, e.2.Frozen := by
  simp

/-- The empty mapping. -/
def noEntries : Project.Envelope.WireMapping := ⟨∅, frozen_empty⟩

/-- The part of a `ResourceContext` that is read here. -/
structure ResourceContext where
  computeBackend : Filled
  device : Filled
  threads : ℤ
  namespaceName : String
  grant : Project.Envelope.WireMapping
  lease : Project.Envelope.WireMapping
  one_le_threads : 1 ≤ threads

namespace ResourceContext

variable (R : Runtime) (context : ResourceContext)

/-- `dict(context.grant or {})`. -/
def grantEntries : Payload := Project.Envelope.payload context.grant.dict.entries

/-- The tokens that `from_mapping` looks at; whatever cannot be read is no token. -/
def listedTokens : List String :=
  let lease := Project.Envelope.payload context.lease.dict.entries
  let tokens := context.grantEntries.get "device_tokens" (lease.get "device_tokens" (.tuple []))
  match R.itemsOf tokens with
  | .ok items => items.map R.strOf
  | .error _ => []

/-- `ResourceContext.from_mapping(context.as_dict())`: a device that is left open is the first
token. -/
def fromMapping : ResourceContext :=
  let device := Text.strip context.device.text
  let device :=
    if Text.lower device ∈ ["", "auto", "none"] then (context.listedTokens R).head?.getD "cpu"
    else device
  { context with device := Filled.orDefault device ⟨"cpu", cpu_ne⟩ }

/-- `int(grant.get("threads", context.threads) or context.threads)`. -/
def availableThreads : Except Raised ℤ :=
  R.intOf ((context.grantEntries.get "threads" (.int context.threads)).orElse
    (.int context.threads))

/-- `tuple(str(value) for value in grant.get(name, ()) or ())`. -/
def texts (name : String) : Except Raised (List String) := do
  let items ← R.itemsOf ((context.grantEntries.get name (.tuple [])).orElse (.tuple []))
  return items.map R.strOf

/-- `int(grant.get("gpus", 0) or 0)`. -/
def grantedGpus : Except Raised ℤ := R.intOrZero (context.grantEntries.get "gpus" (.int 0))

/-- `str(grant.get("backend", "") or "").strip().lower()`. -/
def grantBackend : String :=
  Text.lower (Text.strip
    (R.strOf ((context.grantEntries.get "backend" (.text "")).orElse (.text ""))))

/-- `dict(grant.get("resolved_devices", {}) or {})`. -/
def resolvedDevices : Except Raised Payload :=
  R.dictOrEmpty (context.grantEntries.get "resolved_devices" (obj []))

/-- `str(context.device or "cpu").strip().lower()`. -/
def current : String := Text.lower (Text.strip context.device.text)

end ResourceContext

end Blackbase.Resources
