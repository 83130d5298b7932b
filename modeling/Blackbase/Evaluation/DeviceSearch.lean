import Blackbase.Evaluation.ProviderBinding

/-!
# Which device is found

The devices that a context makes available are its own device, the granted tokens that name a
device, the devices they are resolved to, the generic accelerator of a grant without tokens, and
the processor.  All of them are normal names, so a supported pattern that fits one of them is
found: the search fails exactly when no available device is compatible.
-/

namespace Blackbase.Binding

open Project.Envelope (PyValue Raised Runtime Payload)
open Resources (ResourceContext)

/-! ## Normal names -/

@[simp] theorem normalized_normalized (value : String) :
    normalized (normalized value) = normalized value := by
  simp [normalized, Text.strip_lower]

/-- A normal name is stripped and in lower case. -/
theorem normalized_eq_self_iff {name : String} :
    normalized name = name ↔ Text.strip name = name ∧ Text.lower name = name := by
  constructor
  · intro h
    constructor
    · rw [← h, normalized, Text.strip_lower, Text.strip_strip]
    · rw [← h, normalized, Text.lower_lower]
  · rintro ⟨hstrip, hlower⟩
    rw [normalized, hstrip, hlower]

/-- A stripped text does not end with white space. -/
theorem not_isSpace_getLast {s : List Char} (h : Text.strip (String.ofList s) = String.ofList s)
    (hs : s ≠ []) : ¬ Text.isSpace (s.getLast hs) := by
  have hkey := Text.toList_strip (String.ofList s)
  rw [h, String.toList_ofList] at hkey
  have hne : (s.dropWhile Text.isSpace).rdropWhile Text.isSpace ≠ [] := hkey ▸ hs
  have hlast := List.rdropWhile_last_not Text.isSpace (s.dropWhile Text.isSpace) hne
  simpa only [← hkey] using hlast

/-- The spelling with `cuda:` of a normal name with `gpu:` is normal too. -/
theorem normalized_cuda {rest : List Char}
    (h : normalized (String.ofList ("gpu".toList ++ ':' :: rest)) =
      String.ofList ("gpu".toList ++ ':' :: rest)) :
    normalized (String.ofList ("cuda".toList ++ ':' :: rest)) =
      String.ofList ("cuda".toList ++ ':' :: rest) := by
  obtain ⟨hstrip, hlower⟩ := normalized_eq_self_iff.mp h
  refine normalized_eq_self_iff.mpr ⟨Text.strip_eq_self (fun _ ↦ ?_) fun hne ↦ ?_, ?_⟩
  · simp [Text.isSpace]
  · have hlast := not_isSpace_getLast hstrip (by simp)
    rw [List.getLast_append_of_ne_nil (by simp) (List.cons_ne_nil _ _)] at hlast
    simpa only [String.toList_ofList,
      List.getLast_append_of_ne_nil (by simp) (List.cons_ne_nil _ _)] using hlast
  · have hrest : rest.map Char.toLower = rest := by
      simpa [Text.lower, String.ext_iff] using hlower
    simp [Text.lower, hrest]

theorem toList_eq_of_startsWith {name p : String} (h : Text.startsWith name p) :
    name.toList = p.toList ++ name.toList.drop p.toList.length := by
  obtain ⟨rest, hrest⟩ := List.isPrefixOf_iff_prefix.mp h
  rw [← hrest, List.drop_left]

/-- A name that a physical token is spelled with is normal. -/
@[simp] theorem normalized_normalizePhysicalDeviceName (value : String) :
    normalized (normalizePhysicalDeviceName value) = normalizePhysicalDeviceName value := by
  by_cases h : Text.startsWith (normalized value) "gpu:"
  · have hname := toList_eq_of_startsWith h
    have hgpu : normalized value =
        String.ofList ("gpu".toList ++ ':' :: (normalized value).toList.drop 4) := by
      rw [← String.toList_inj, String.toList_ofList]
      simpa using hname
    have hcuda : normalizePhysicalDeviceName value =
        String.ofList ("cuda".toList ++ ':' :: (normalized value).toList.drop 4) := by
      rw [← String.toList_inj]
      simp [normalizePhysicalDeviceName, h]
    rw [hcuda]
    exact normalized_cuda (by rw [← hgpu, normalized_normalized])
  · have hsame : normalizePhysicalDeviceName value = normalized value := by
      simp [normalizePhysicalDeviceName, h]
    rw [hsame, normalized_normalized]

/-! ## What is available -/

/-- What a grant says about devices. -/
structure DeviceGrant where
  tokens : List String
  resolved : Payload
  gpus : ℤ

/-- A device that a context makes available. -/
inductive Available (R : Runtime) (context : ResourceContext) (grant : DeviceGrant) :
    String → Prop where
  | own : context.current ∉ ["", "auto", "none"] →
      (context.current ∈ grant.tokens.map normalized → isPhysicalDeviceName context.current) →
      Available R context grant context.current
  | token {token : String} : token ∈ grant.tokens → isPhysicalDeviceName token →
      Available R context grant (normalizePhysicalDeviceName token)
  | resolved {token : String} {value : PyValue} : token ∈ grant.tokens →
      grant.resolved.lookup (.text token) = some value → Text.strip (R.strOf value) ≠ "" →
      Available R context grant (normalized (R.strOf value))
  | generic : 0 < grant.gpus → grant.tokens = [] → isAccelerator context.current = false →
      Available R context grant "gpu"
  | cpu : Available R context grant "cpu"

variable {R : Runtime} {context : ResourceContext} {grant : DeviceGrant}

/-- An available device has a normal name. -/
theorem Available.normalized {device : String} (h : Available R context grant device) :
    normalized device = device := by
  cases h with
  | own => exact normalized_normalized _
  | token => exact normalized_normalizePhysicalDeviceName _
  | resolved => exact normalized_normalized _
  | generic => decide
  | cpu => decide

theorem normalized_ne_empty {value : String} (h : Text.strip value ≠ "") :
    normalized value ≠ "" := by
  intro hempty
  refine h ?_
  rw [normalized, Text.lower] at hempty
  simpa using hempty

/-- A token that names a device is not spelled with an empty name. -/
theorem normalizePhysicalDeviceName_ne_empty {value : String} (h : isPhysicalDeviceName value) :
    normalizePhysicalDeviceName value ≠ "" := by
  intro hempty
  by_cases hgpu : Text.startsWith (normalized value) "gpu:"
  · simp [normalizePhysicalDeviceName, hgpu] at hempty
  · have hname : normalized value = "" := by
      simpa [normalizePhysicalDeviceName, hgpu] using hempty
    simp only [isPhysicalDeviceName, hname] at h
    exact absurd h (by decide)

/-- An available device has a name. -/
theorem Available.ne_empty {device : String} (h : Available R context grant device) :
    device ≠ "" := by
  cases h with
  | own hopen => exact fun hempty ↦ hopen (hempty ▸ List.mem_cons_self ..)
  | token _ hname => exact normalizePhysicalDeviceName_ne_empty hname
  | resolved _ _ hblank => exact normalized_ne_empty hblank
  | generic => decide
  | cpu => decide

/-- A token is resolved to a device. -/
theorem resolvedDevice_eq_some {resolved : Payload} {token device : String} :
    resolvedDevice R resolved token = some device ↔
      ∃ value, resolved.lookup (.text token) = some value ∧
        Text.strip (R.strOf value) ≠ "" ∧ normalized (R.strOf value) = device := by
  unfold resolvedDevice
  cases resolved.lookup (.text token) with
  | none => simp
  | some value => by_cases hblank : Text.strip (R.strOf value) = "" <;> simp [hblank]

theorem mem_ownDevices {tokens : List String} {device : String} :
    device ∈ ownDevices context tokens ↔ device = context.current ∧
      context.current ∉ ["", "auto", "none"] ∧
      (context.current ∈ tokens.map normalized → isPhysicalDeviceName context.current) := by
  unfold ownDevices
  simp only [not_and, Bool.not_eq_false]
  split
  case isTrue h => simpa using fun _ ↦ by simpa using h
  case isFalse h =>
    simp only [List.not_mem_nil, false_iff]
    exact fun h' ↦ h h'.2

theorem mem_namedDevices {device : String} :
    device ∈ namedDevices R context grant.tokens grant.resolved ↔
      device ∈ ownDevices context grant.tokens ∨
      (∃ token ∈ grant.tokens, isPhysicalDeviceName token ∧
        normalizePhysicalDeviceName token = device) ∨
      ∃ token ∈ grant.tokens, ∃ value, grant.resolved.lookup (.text token) = some value ∧
        Text.strip (R.strOf value) ≠ "" ∧ normalized (R.strOf value) = device := by
  simp only [namedDevices, List.mem_append, List.mem_map, List.mem_filter, List.mem_filterMap,
    resolvedDevice_eq_some, or_assoc, and_assoc]

/-- A device that is left open is no accelerator. -/
theorem isAccelerator_of_open {device : String} (h : device ∈ ["", "auto", "none"]) :
    isAccelerator device = false := by
  simp only [List.mem_cons, List.not_mem_nil, or_false] at h
  rcases h with rfl | rfl | rfl <;> decide

/-- Without tokens, some named device is an accelerator when the own device is. -/
theorem any_isAccelerator (htokens : grant.tokens = []) :
    (namedDevices R context grant.tokens grant.resolved).any isAccelerator =
      isAccelerator context.current := by
  rw [Bool.eq_iff_iff, List.any_eq_true]
  constructor
  · rintro ⟨device, hdevice, haccelerator⟩
    rw [mem_namedDevices, mem_ownDevices] at hdevice
    obtain ⟨rfl, -⟩ | ⟨token, htoken, -⟩ | ⟨token, htoken, -⟩ := hdevice
    · exact haccelerator
    · exact absurd htoken (by simp [htokens])
    · exact absurd htoken (by simp [htokens])
  · intro haccelerator
    refine ⟨context.current, mem_namedDevices.mpr (Or.inl (mem_ownDevices.mpr ⟨rfl, ?_, ?_⟩)),
      haccelerator⟩
    · intro hopen
      rw [isAccelerator_of_open hopen] at haccelerator
      exact Bool.false_ne_true haccelerator
    · simp [htokens]

theorem mem_append_if {α : Type} {l : List α} {x y : α} {p : Prop} [Decidable p] :
    x ∈ (if p then l ++ [y] else l) ↔ x ∈ l ∨ p ∧ x = y := by
  by_cases h : p <;> simp [h]

theorem mem_insert_if {α : Type} [DecidableEq α] {l : List α} {x y : α} :
    x ∈ (if y ∈ l then l else l ++ [y]) ↔ x ∈ l ∨ x = y := by
  by_cases h : y ∈ l
  · rw [if_pos h]
    exact ⟨Or.inl, fun hx ↦ hx.elim id fun hxy ↦ hxy ▸ h⟩
  · rw [if_neg h, List.mem_append, List.mem_singleton]

/-- The devices that are looked at are the ones that are available. -/
theorem mem_availableDevices {device : String} :
    device ∈ availableDevices R context grant.tokens grant.resolved grant.gpus ↔
      Available R context grant device := by
  have hmem : device ∈ availableDevices R context grant.tokens grant.resolved grant.gpus ↔
      (device ∈ namedDevices R context grant.tokens grant.resolved ∨
        (0 < grant.gpus ∧ grant.tokens = [] ∧ isAccelerator context.current = false) ∧
          device = "gpu") ∨ device = "cpu" := by
    have hgeneric : (0 < grant.gpus ∧ grant.tokens = [] ∧
        (namedDevices R context grant.tokens grant.resolved).any isAccelerator = false) ↔
          0 < grant.gpus ∧ grant.tokens = [] ∧ isAccelerator context.current = false :=
      and_congr_right fun _ ↦ and_congr_right fun htokens ↦ by rw [any_isAccelerator htokens]
    simp only [availableDevices]
    rw [mem_insert_if, mem_append_if, hgeneric]
  rw [hmem, mem_namedDevices, mem_ownDevices]
  constructor
  · rintro (((⟨rfl, hopen, htoken⟩ | ⟨token, htoken, hname, rfl⟩ |
      ⟨token, htoken, value, hvalue, hblank, rfl⟩) | ⟨⟨hgpus, htokens, hown⟩, rfl⟩) | rfl)
    · exact .own hopen htoken
    · exact .token htoken hname
    · exact .resolved htoken hvalue hblank
    · exact .generic hgpus htokens hown
    · exact .cpu
  · intro h
    cases h with
    | own hopen htoken => exact .inl (.inl (.inl ⟨rfl, hopen, htoken⟩))
    | token htoken hname => exact .inl (.inl (.inr (.inl ⟨_, htoken, hname, rfl⟩)))
    | resolved htoken hvalue hblank =>
        exact .inl (.inl (.inr (.inr ⟨_, htoken, _, hvalue, hblank, rfl⟩)))
    | generic hgpus htokens hown => exact .inl (.inr ⟨⟨hgpus, htokens, hown⟩, rfl⟩)
    | cpu => exact .inr rfl

/-! ## What is found -/

/-- Some supported pattern fits a device. -/
def Compatible (supported : List String) (device : String) : Prop :=
  ∃ pattern ∈ supported, devicePatternMatches pattern device

theorem mem_of_matchingDevice {requested device : String} {available : List String}
    (h : matchingDevice requested available = some device) : device ∈ available := by
  simp only [matchingDevice] at h
  split at h
  case h_1 value hvalue =>
    cases h
    exact List.mem_of_find?_eq_some hvalue
  case h_2 =>
    split at h
    case isTrue => cases h
    case isFalse => exact List.mem_of_find?_eq_some h

/-- A pattern that fits a device of a normal name finds one. -/
theorem isSome_matchingDevice {pattern device : String} {available : List String}
    (hdevice : device ∈ available) (hnormal : normalized device = device)
    (hfit : devicePatternMatches pattern device) :
    (matchingDevice pattern available).isSome := by
  simp only [matchingDevice]
  cases hfind : available.find? (· = normalized pattern) with
  | some value => rfl
  | none =>
      by_cases hindexed : isIndexed (normalized pattern)
      · -- An indexed pattern fits this device only, which is among those looked at.
        have heq : normalized pattern = device := by
          simpa [devicePatternMatches, hindexed, hnormal] using hfit
        rw [List.find?_eq_none] at hfind
        exact absurd heq.symm (by simpa using hfind device hdevice)
      · have hfamily : deviceFamily device = deviceFamily (normalized pattern) := by
          simpa [devicePatternMatches, hindexed, hnormal, eq_comm] using hfit
        simp only [hindexed, Bool.false_eq_true, if_false, List.find?_isSome]
        exact ⟨device, hdevice, by simpa using hfamily⟩

/-- The devices that the search goes through. -/
theorem mem_compatible {supported available : List String} {device : String} :
    device ∈ available.filter (fun value ↦ supported.any (devicePatternMatches · value)) ↔
      device ∈ available ∧ Compatible supported device := by
  simp only [List.mem_filter, List.any_eq_true, Compatible]

/-- What is found is available and compatible. -/
theorem searchDevice_eq_some {supported preferred : List String} {required : Option String}
    {available : List String} {device : String}
    (h : searchDevice supported preferred required available = some device) :
    device ∈ available ∧ Compatible supported device := by
  rw [← mem_compatible]
  cases required with
  | some required => exact mem_of_matchingDevice h
  | none =>
      simp only [searchDevice] at h
      split at h
      case h_1 value hvalue =>
        cases h
        obtain ⟨_, -, hmatch⟩ := List.exists_of_findSome?_eq_some hvalue
        exact mem_of_matchingDevice hmatch
      case h_2 =>
        obtain ⟨_, -, hmatch⟩ := List.exists_of_findSome?_eq_some h
        exact mem_of_matchingDevice hmatch

/-- Nothing is found exactly when no available device is compatible. -/
theorem searchDevice_eq_none {supported available : List String} (preferred : List String)
    (hnormal : ∀ d ∈ available, normalized d = d) :
    searchDevice supported preferred none available = none ↔
      ∀ device ∈ available, ¬ Compatible supported device := by
  constructor
  · intro h device hdevice hcompatible
    obtain ⟨pattern, hpattern, hfit⟩ := hcompatible
    simp only [searchDevice] at h
    split at h
    case h_1 => cases h
    case h_2 =>
      have hnone := List.findSome?_eq_none_iff.mp h pattern hpattern
      have hsome := isSome_matchingDevice
        (mem_compatible.mpr ⟨hdevice, pattern, hpattern, hfit⟩) (hnormal device hdevice) hfit
      rw [hnone] at hsome
      cases hsome
  · intro h
    rw [Option.eq_none_iff_forall_ne_some]
    intro device hdevice
    obtain ⟨hmem, hcompatible⟩ := searchDevice_eq_some hdevice
    exact h device hmem hcompatible

end Blackbase.Binding
