import Blackbase.Context.RedisCodec.Model

/-!
# Writing and reading envelopes

The constructor of `RedisValueCodec`, `dumps` and `loads`.  `loads` also says which bytes it has
handed to `pickle.loads`: this is what the envelope is there to control.
-/

namespace Blackbase.Context.RedisCodec

/-! ## Configurations -/

/-- `SUPPORTED_REDIS_SERIALIZERS` -/
inductive Serializer where
  | safe
  | pickleSigned
  | pickleUnsafe
deriving DecidableEq

namespace Serializer

def name : Serializer → String
  | safe => "safe"
  | pickleSigned => "pickle_signed"
  | pickleUnsafe => "pickle_unsafe"

def ofName (name : String) : Option Serializer :=
  [safe, pickleSigned, pickleUnsafe].find? fun s ↦ s.name == name

@[simp] theorem ofName_name (s : Serializer) : ofName s.name = some s := by
  cases s <;> decide

end Serializer

/-- The arguments of the constructor of `RedisValueCodec`. -/
structure CodecArgs where
  serializer : String
  hmacEnvVar : String
  unsafeAllowLegacyPickle : Bool
  maxPayloadBytes : ℤ
  envelopeScope : String
  maxDepth : ℤ
  maxNodes : ℤ

/-- The `ValueError`s of the constructor. -/
inductive CodecArgsError where
  | serializer (repr : String)
  | maxPayloadBytes
  | limits
deriving DecidableEq

def CodecArgsError.message : CodecArgsError → String
  | serializer repr => s!"unsupported Redis value serializer: {repr}"
  | maxPayloadBytes => "max_payload_bytes must be positive"
  | limits => "max_depth and max_nodes must be positive"

/-- `RedisValueCodec` -/
structure RedisValueCodec where
  serializer : Serializer
  hmacEnvVar : String
  unsafeAllowLegacyPickle : Bool
  maxPayloadBytes : ℕ
  envelopeScope : String
  maxDepth : ℕ
  maxNodes : ℕ
  maxPayloadBytes_pos : 0 < maxPayloadBytes
  envelopeScope_ne : envelopeScope ≠ ""
  maxDepth_pos : 0 < maxDepth
  maxNodes_pos : 0 < maxNodes

/-- `text or default` -/
def orText (text default : String) : String := if text = "" then default else text

theorem orText_ne {text default : String} (h : default ≠ "") : orText text default ≠ "" := by
  unfold orText
  split <;> assumption

theorem generic_ne : "generic" ≠ "" := by decide

theorem toNat_pos {n : ℤ} (h : ¬ n ≤ 0) : 0 < n.toNat := by omega

theorem toNat_pos_left {m n : ℤ} (h : ¬ (m ≤ 0 ∨ n ≤ 0)) : 0 < m.toNat := by omega

theorem toNat_pos_right {m n : ℤ} (h : ¬ (m ≤ 0 ∨ n ≤ 0)) : 0 < n.toNat := by omega

abbrev Bytes := List UInt8

/-- The formats an envelope is written in, and the environment: `json.dumps` and `encode` (`none`
if the text cannot be encoded), `decode` and `json.loads`, which read back what was written in the
order of its keys, and `pickle`, whose objects are `P`.  `dictOf` gives the entries of an object
that is a `dict`. -/
structure Formats (P : Type) where
  write : Json → Option Bytes
  read : Bytes → Option Json
  read_write : ∀ v raw, v.Sorted → write v = some raw → read raw = some v
  pickle : Value → Except String Bytes
  unpickle : Bytes → Option P
  dictOf : P → Option (List (String × P))
  hmac : Bytes → Bytes → String
  environ : String → Option String

namespace RedisValueCodec

variable {O P : Type} (R : Runtime O) (F : Formats P)

/-- `RedisValueCodec.__post_init__` -/
def make (a : CodecArgs) : Except CodecArgsError RedisValueCodec :=
  match Serializer.ofName (Text.lower (Text.strip (orText a.serializer "safe"))) with
  | none => .error (.serializer (R.repr a.serializer))
  | some serializer =>
      if hbytes : a.maxPayloadBytes ≤ 0 then .error .maxPayloadBytes
      else if hlimits : a.maxDepth ≤ 0 ∨ a.maxNodes ≤ 0 then .error .limits
      else .ok {
        serializer := serializer
        hmacEnvVar := Text.strip a.hmacEnvVar
        unsafeAllowLegacyPickle := a.unsafeAllowLegacyPickle
        maxPayloadBytes := a.maxPayloadBytes.toNat
        envelopeScope := orText a.envelopeScope "generic"
        maxDepth := a.maxDepth.toNat
        maxNodes := a.maxNodes.toNat
        maxPayloadBytes_pos := toNat_pos hbytes
        envelopeScope_ne := orText_ne generic_ne
        maxDepth_pos := toNat_pos_left hlimits
        maxNodes_pos := toNat_pos_right hlimits }

variable (C : RedisValueCodec)

/-! ## Writing -/

/-- `_hmac_key` -/
def hmacKey : Option Bytes :=
  if C.hmacEnvVar = "" then none
  else match F.environ C.hmacEnvVar with
    | none => none
    | some raw =>
        let key := PointText.utf8 raw.toList
        if key = [] then none else some key

/-- `REDIS_VALUE_ENVELOPE` -/
def envelopeName : String := "blackbase.redis.value/v1"

/-- `_base_envelope`, with the fields that `dumps` adds where their keys stand. -/
def baseEnvelope (fields : Fields) : Fields :=
  ("_blackbase_envelope", .str envelopeName) :: fields ++
    [("scope", .str C.envelopeScope), ("serializer", .str C.serializer.name)]

/-- `_check_size` -/
def checkSize (raw : Bytes) : Except CodecError Unit :=
  if C.maxPayloadBytes < raw.length then
    .error (.tooLarge C.envelopeScope raw.length C.maxPayloadBytes)
  else .ok ()

/-- What `dumps` adds to the envelope. -/
def envelopeOf (v : Value) : Except CodecError Fields :=
  match C.serializer with
  | .safe => do
      let payload ← toSafeWire R (C.maxDepth + 1) "value" v
      return [("payload", payload)]
  | .pickleSigned =>
      match C.hmacKey F with
      | none => .error (.keyRequired (R.repr C.hmacEnvVar))
      | some key =>
          match F.pickle v with
          | .error text => .error (.raised text)
          | .ok bytes => .ok [
              ("hmac_sha256", .str (F.hmac key bytes)),
              ("payload_b64", .str (Base64.encode bytes))]
  | .pickleUnsafe =>
      match F.pickle v with
      | .error text => .error (.raised text)
      | .ok bytes => .ok [("payload_b64", .str (Base64.encode bytes))]

/-- `dumps` -/
def dumps (v : Value) : Except CodecError Bytes := do
  let fields ← C.envelopeOf R F v
  match F.write (.obj (C.baseEnvelope fields)) with
  | none => .error .encoding
  | some raw => do
      C.checkSize raw
      return raw

/-! ## Reading -/

/-- What `loads` returns. -/
inductive Loaded (O P : Type) where
  | restored (v : Restored O)
  | unpickled (object : P)

/-- What becomes of a call of `loads`: what it returns or raises, and the bytes that were handed to
`pickle.loads`. -/
structure Load (O P : Type) where
  result : Except CodecError (Loaded O P)
  unpickled : List Bytes

/-- A value that is refused, or returned, without `pickle`. -/
def Load.plain (result : Except CodecError (Loaded O P)) : Load O P := ⟨result, []⟩

/-- A key is in a JSON object. -/
def has (d : Fields) (key : String) : Bool := (d.lookup key).isSome

/-- The checks of the envelope. -/
def checkEnvelope (d : Fields) : Option CodecError :=
  match Fields.get d "_blackbase_envelope" with
  | .str name =>
      if name ≠ envelopeName then some .unsupportedEnvelope
      else if R.str ((d.lookup "scope").getD (.str "")) ≠ C.envelopeScope then some .scopeMismatch
      else
        let stored := Text.lower (Text.strip (R.str ((d.lookup "serializer").getD (.str ""))))
        if stored ≠ C.serializer.name then
          some (.serializerMismatch (R.repr stored) (R.repr C.serializer.name))
        else none
  | _ => some .unsupportedEnvelope

/-- `_load_legacy_pickle` -/
def loadLegacyPickle (raw : Bytes) : Load O P where
  unpickled := [raw]
  result :=
    match F.unpickle raw with
    | none => .error .legacyPickle
    | some decoded =>
        match F.dictOf decoded with
        | none => .ok (.unpickled decoded)
        | some d =>
            match d.lookup "_snapshot_envelope", d.lookup "payload" with
            | some _, some payload => .ok (.unpickled payload)
            | _, _ => .ok (.unpickled decoded)

/-- `pickle.loads` of a payload. -/
def unpickle (bytes : Bytes) : Load O P where
  unpickled := [bytes]
  result :=
    match F.unpickle bytes with
    | none => .error .pickle
    | some object => .ok (.unpickled object)

/-- The signature of a payload is checked. -/
def checkHmac (d : Fields) (bytes : Bytes) : Option CodecError :=
  match Fields.get d "hmac_sha256" with
  | .str supplied =>
      match C.hmacKey F with
      | none => some (.keyMissing (R.repr C.hmacEnvVar))
      | some key =>
          if supplied.toList.any fun c ↦ 128 ≤ c.toNat then
            some (.raised "comparing strings with non-ASCII characters is not supported")
          else if supplied ≠ F.hmac key bytes then some .hmac
          else none
  | _ => some .noHmac

/-- The part of `loads` for an envelope with a `pickle`. -/
def loadPickle (d : Fields) : Load O P :=
  match Fields.get d "payload_b64" with
  | .str encoded =>
      match Base64.decode encoded with
      | none => .plain (.error .pickleBase64)
      | some bytes =>
          if C.maxPayloadBytes < bytes.length then .plain (.error .pickleTooLarge)
          else if C.serializer = .pickleSigned then
            match C.checkHmac R F d bytes with
            | some e => .plain (.error e)
            | none => unpickle F bytes
          else unpickle F bytes
  | _ => .plain (.error .noPickle)

/-- The part of `loads` for a safe envelope. -/
def loadSafe (d : Fields) : Except CodecError (Loaded O P) :=
  match d.lookup "payload" with
  | none => .error .noPayload
  | some payload =>
      (((fromSafeWire R C.maxNodes (C.maxDepth + 1) "value" payload).run 0).map Prod.fst).map
        .restored

/-- A `pickle` without an envelope may be read. -/
def allowsLegacy : Bool := C.serializer = .pickleUnsafe || C.unsafeAllowLegacyPickle

/-- `loads` -/
def loads (raw : Bytes) : Load O P :=
  match C.checkSize raw with
  | .error e => .plain (.error e)
  | .ok () =>
      match F.read raw with
      | none => if C.allowsLegacy then loadLegacyPickle F raw else .plain (.error .notJson)
      | some (.obj d) =>
          match C.checkEnvelope R d with
          | some e => .plain (.error e)
          | none =>
              if C.serializer = .safe then .plain (C.loadSafe R d) else C.loadPickle R F d
      | some _ => .plain (.error .notMapping)

/-! ## What reaches `pickle` -/

theorem checkSize_eq_ok {raw : Bytes} :
    C.checkSize raw = .ok () ↔ raw.length ≤ C.maxPayloadBytes := by
  unfold checkSize
  split <;> simp <;> omega

variable {R F C}

theorem checkHmac_eq_none {d : Fields} {bytes : Bytes} (h : C.checkHmac R F d bytes = none) :
    ∃ key, C.hmacKey F = some key ∧ Fields.get d "hmac_sha256" = .str (F.hmac key bytes) := by
  unfold checkHmac at h
  split at h
  · next supplied hsupplied =>
      split at h
      · cases h
      · next key hkey =>
          split_ifs at h with hascii heq
          exact ⟨key, hkey, by rw [hsupplied, not_not.mp heq]⟩
  · cases h

theorem unpickled_loadPickle {d : Fields} {bytes : Bytes}
    (h : bytes ∈ (C.loadPickle R F d).unpickled) :
    bytes.length ≤ C.maxPayloadBytes ∧
      (∃ encoded, Fields.get d "payload_b64" = .str encoded ∧
        Base64.decode encoded = some bytes) ∧
      (C.serializer = .pickleSigned → ∃ key, C.hmacKey F = some key ∧
        Fields.get d "hmac_sha256" = .str (F.hmac key bytes)) := by
  unfold loadPickle at h
  split at h
  · next encoded hencoded =>
      split at h
      · cases h
      · next bytes' hbytes' =>
          split_ifs at h with hsize hsigned
          · cases h
          · split at h
            · cases h
            · next hhmac =>
                obtain rfl := List.mem_singleton.mp h
                have hkey := checkHmac_eq_none hhmac
                exact ⟨not_lt.mp hsize, ⟨encoded, hencoded, hbytes'⟩, fun _ ↦ hkey⟩
          · obtain rfl := List.mem_singleton.mp h
            exact ⟨not_lt.mp hsize, ⟨encoded, hencoded, hbytes'⟩, fun hs ↦ absurd hs hsigned⟩
  · cases h

/-- **Reading is fail-closed.**  Bytes reach `pickle.loads` in two ways only.  Either they are the
whole value, it is no JSON, and the configuration allows the old format.  Or they are the payload of
an envelope with the right name, scope and serializer, which is not the safe one, and if it is the
signed one then the envelope holds their signature under the configured key. -/
theorem loads_fail_closed (R : Runtime O) (F : Formats P) (C : RedisValueCodec) (raw bytes : Bytes)
    (h : bytes ∈ (C.loads R F raw).unpickled) :
    bytes.length ≤ C.maxPayloadBytes ∧
      (C.allowsLegacy = true ∧ F.read raw = none ∧ bytes = raw ∨
        ∃ d encoded, F.read raw = some (.obj d) ∧ C.checkEnvelope R d = none ∧
          Fields.get d "payload_b64" = .str encoded ∧ Base64.decode encoded = some bytes ∧
          C.serializer ≠ .safe ∧
          (C.serializer = .pickleSigned → ∃ key, C.hmacKey F = some key ∧
            Fields.get d "hmac_sha256" = .str (F.hmac key bytes))) := by
  unfold loads at h
  split at h
  · cases h
  · next hsize =>
      split at h
      · next hread =>
          split at h
          · next hlegacy =>
              obtain rfl := List.mem_singleton.mp h
              exact ⟨(C.checkSize_eq_ok).mp hsize, .inl ⟨hlegacy, hread, rfl⟩⟩
          · cases h
      · next d hread =>
          split at h
          · cases h
          · next henvelope =>
              split at h
              · cases h
              · next hserializer =>
                  obtain ⟨hlength, ⟨encoded, hencoded, hdecode⟩, hsigned⟩ := unpickled_loadPickle h
                  exact ⟨hlength, .inr ⟨d, encoded, hread, henvelope, hencoded, hdecode,
                    hserializer, hsigned⟩⟩
      · cases h

/-! ### A store -/

/-- Python where nothing but `float` of an integer is asked for. -/
def sampleRuntime : Runtime Unit where
  reprValue _ := ""
  reprRestored _ := ""
  reprJson _ := ""
  strJson _ := ""
  dtype _ := none
  parseInt _ := none
  floatOfInt n := some (.real n)
  restore _ _ := .error ""

/-- NaN in a safe envelope. -/
def safeBytes : Bytes := PointText.utf8
  ("\x7b\"_blackbase_envelope\":\"blackbase.redis.value/v1\",\"payload\":" ++
    "\x7b\"__blackbase_value__\":\"float\",\"value\":\"nan\"\x7d," ++
    "\"scope\":\"generic\",\"serializer\":\"safe\"\x7d").toList

def safeFields : Fields := [
  ("_blackbase_envelope", .str "blackbase.redis.value/v1"),
  ("payload", .obj [("__blackbase_value__", .str "float"), ("value", .str "nan")]),
  ("scope", .str "generic"),
  ("serializer", .str "safe")]

def sampleWrite : Json → Option Bytes
  | .obj [("_blackbase_envelope", .str "blackbase.redis.value/v1"),
      ("payload", .obj [("__blackbase_value__", .str "float"), ("value", .str "nan")]),
      ("scope", .str "generic"), ("serializer", .str "safe")] => some safeBytes
  | _ => none

def sampleRead (raw : Bytes) : Option Json :=
  if raw = safeBytes then some (.obj safeFields) else none

theorem sampleRead_sampleWrite (v : Json) (raw : Bytes) (_ : v.Sorted)
    (h : sampleWrite v = some raw) : sampleRead raw = some v := by
  unfold sampleWrite at h
  split at h
  · obtain rfl := Option.some.inj h
    exact if_pos rfl
  · cases h

/-- The bytes of the pickle of `None`. -/
def pickledNone : Bytes := [128, 5, 78, 46]

/-- The formats as they are for this envelope and for `None`. -/
def sampleFormats : Formats Unit where
  write := sampleWrite
  read := sampleRead
  read_write := sampleRead_sampleWrite
  pickle
    | .none => .ok pickledNone
    | _ => .error "cannot pickle"
  unpickle bytes := if bytes = pickledNone then some () else none
  dictOf _ := none
  hmac _ _ := ""
  environ _ := none

theorem defaults_pos : 0 < 8388608 ∧ 0 < 128 ∧ 0 < 1000000 := by decide

/-- The default configuration, but for the old format. -/
def sampleCodec (serializer : Serializer) (legacy : Bool) : RedisValueCodec where
  serializer := serializer
  hmacEnvVar := "BLACKBASE_REDIS_VALUE_HMAC_KEY"
  unsafeAllowLegacyPickle := legacy
  maxPayloadBytes := 8388608
  envelopeScope := "generic"
  maxDepth := 128
  maxNodes := 1000000
  maxPayloadBytes_pos := defaults_pos.1
  envelopeScope_ne := generic_ne
  maxDepth_pos := defaults_pos.2.1
  maxNodes_pos := defaults_pos.2.2

theorem sampleFormats_read : sampleFormats.read = sampleRead := rfl

theorem pickledNone_ne : pickledNone ≠ safeBytes := by decide +kernel

theorem mem_unpickled_legacy : pickledNone ∈
    ((sampleCodec .safe true).loads sampleRuntime sampleFormats pickledNone).unpickled := by
  have hread : sampleFormats.read pickledNone = none := by
    rw [sampleFormats_read, sampleRead, if_neg pickledNone_ne]
  have hsize : (sampleCodec .safe true).checkSize pickledNone = .ok () := by decide
  rw [loads, hsize]
  simp only [hread]
  exact List.mem_singleton_self _

/-- A pickle of the old format, which is allowed. -/
theorem loads_fail_closed_legacy :
    pickledNone.length ≤ (sampleCodec .safe true).maxPayloadBytes ∧
      ((sampleCodec .safe true).allowsLegacy = true ∧
          sampleFormats.read pickledNone = none ∧ pickledNone = pickledNone ∨
        ∃ d encoded, sampleFormats.read pickledNone = some (.obj d) ∧
          (sampleCodec .safe true).checkEnvelope sampleRuntime d = none ∧
          Fields.get d "payload_b64" = .str encoded ∧
          Base64.decode encoded = some pickledNone ∧
          (sampleCodec .safe true).serializer ≠ .safe ∧
          ((sampleCodec .safe true).serializer = .pickleSigned →
            ∃ key, (sampleCodec .safe true).hmacKey sampleFormats = some key ∧
              Fields.get d "hmac_sha256" = .str (sampleFormats.hmac key pickledNone))) :=
  loads_fail_closed sampleRuntime sampleFormats (sampleCodec .safe true) pickledNone pickledNone
    mem_unpickled_legacy

end RedisValueCodec

end Blackbase.Context.RedisCodec
