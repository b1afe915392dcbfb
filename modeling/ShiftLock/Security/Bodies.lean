import ShiftLock.Types
import ShiftLock.Security.Canonical

/-!
# What signed bytes tell (`body` of `capability`, `audit` and `configlock`)

The bodies of capability tokens, audit records and configuration bundles, with the fields, the JSON names
and the `omitempty` options of the source, over arbitrary byte strings and full machine integers.

The canonical bytes of two bodies are the same exactly if the bodies are read back alike
(`canonical_tells`). So they determine the body up to what the way through the decoder loses: bytes that
are no text fall together in the replacement character, and integers beyond `2 ^ 53` in the nearest
binary64 number (`canonical_confuses`).
-/

namespace ShiftLock.Signing

open Json

/-- A `time.Time` with its zone, in seconds east of UTC. -/
structure Zoned where
  instant : Time
  offset : Int
  deriving DecidableEq, Repr

/-- The reading of a clock in the zone. -/
def Zoned.wall (t : Zoned) : Int := t.instant + t.offset * 1000000000

/-- The zone as a time is written with it: full minutes, towards zero. -/
def Zoned.zone (t : Zoned) : Option Int := if t.offset = 0 then none else some (t.offset.tdiv 60)

/-! ## The signed bodies -/

structure Constraints where
  singleUse : Bool := false
  environment : Bytes := []
  maxUses : Int := 0
  allowedResources : List Bytes := []
  deriving DecidableEq, Repr

/-- `signBody` of `capability`; the times are in UTC. -/
structure TokenBody where
  id : Bytes
  subject : Bytes
  permission : Bytes
  resource : Bytes := []
  issuedAt : Time
  expiresAt : Time
  constraints : Constraints := {}
  nonce : Bytes
  epoch : UInt64
  parentID : Bytes := []
  deriving DecidableEq, Repr

structure Actor where
  id : Bytes
  type : Bytes := []
  deriving DecidableEq, Repr

instance linearOrderByte : LinearOrder UInt8 where
  le_refl := UInt8.le_refl
  le_trans _ _ _ := UInt8.le_trans
  le_antisymm _ _ := UInt8.le_antisymm
  le_total := UInt8.le_total
  lt_iff_le_not_ge a b := by
    rw [UInt8.not_le]
    exact ⟨fun h => ⟨UInt8.le_of_lt h, h⟩, fun h => h.2⟩
  toDecidableLE := inferInstance

/-- A `map[string]string`, as its entries in the order of their keys. -/
structure Metadata where
  entries : List (Bytes × Bytes)
  sorted : Object.Sorted entries
  deriving DecidableEq

instance Metadata.empty : EmptyCollection Metadata := ⟨⟨[], .nil⟩⟩

/-- The map with the given entries. -/
def Metadata.ofList (entries : List (Bytes × Bytes)) : Metadata where
  entries := Object.ofList entries
  sorted := Object.ofList_sorted entries

/-- `bodyForHash` of `audit`; the time is in UTC, and `PreviousHash` is written in hexadecimal. -/
structure AuditBody where
  sequence : UInt64
  previousHash : Digest
  time : Time
  actor : Actor
  action : Bytes
  resource : Bytes := []
  result : Bytes := []
  operationID : Bytes := []
  metadata : Metadata := {}
  deriving DecidableEq

/-- `signBody` of `configlock`. Only `CreatedAt` is turned to UTC, and `ContentHash` is written in
hexadecimal. -/
structure BundleBody where
  version : UInt32
  revision : UInt64
  service : Bytes
  environment : Bytes
  createdAt : Time
  activatesAt : Option Zoned
  expiresAt : Option Zoned
  contentHash : Digest
  /-- The `json.RawMessage`, or nil. -/
  content : Option Bytes

/-- The entries of a map after it was written and read: of the keys that are read alike the last one
stays. -/
def readBack (entries : List (Bytes × Bytes)) : List (List Char × List Char) :=
  Object.ofList (entries.map fun e => (decode e.1, decode e.2))

namespace Codec

variable {ν : Type} (C : Codec ν)

/-- The fields of `Constraints`. -/
def constraints (c : Constraints) : Value ν :=
  record
    [("single_use", omitempty false .bool c.singleUse),
      ("environment", omitempty [] str c.environment),
      ("max_uses", omitempty 0 C.int c.maxUses),
      ("allowed_resources", omitempty [] strs c.allowedResources)]

/-- A token's body, marshalled and unmarshalled. -/
def tokenValue (b : TokenBody) : Option (Value ν) := do
  let issuedAt ← C.time b.issuedAt none
  let expiresAt ← C.time b.expiresAt none
  return record
    [("id", some (str b.id)),
      ("subject", some (str b.subject)),
      ("permission", some (str b.permission)),
      ("resource", omitempty [] str b.resource),
      ("issued_at", some (.str issuedAt)),
      ("expires_at", some (.str expiresAt)),
      ("constraints", some (C.constraints b.constraints)),
      ("nonce", some (str b.nonce)),
      ("epoch", some (C.int b.epoch.toNat)),
      ("parent_id", omitempty [] str b.parentID)]

/-- The fields of `Actor`. -/
def actor (a : Actor) : Value ν :=
  record [("id", some (str a.id)), ("type", omitempty [] str a.type)]

def metadata (entries : List (Bytes × Bytes)) : Value ν :=
  .obj ((readBack entries).map fun e => (e.1, .str e.2))

/-- A record's body, marshalled and unmarshalled. -/
def auditValue (b : AuditBody) : Option (Value ν) := do
  let time ← C.time b.time none
  return record
    [("sequence", some (C.int b.sequence.toNat)),
      ("previous_hash", some (.str (hexDigits b.previousHash.val))),
      ("time", some (.str time)),
      ("actor", some (actor b.actor)),
      ("action", some (str b.action)),
      ("resource", omitempty [] str b.resource),
      ("result", omitempty [] str b.result),
      ("operation_id", omitempty [] str b.operationID),
      ("metadata", omitempty [] metadata b.metadata.entries)]

/-- A time behind a pointer. -/
def zoned (t : Option Zoned) : Option (Option (Value ν)) :=
  match t with
  | none => some none
  | some t => (C.time t.wall t.zone).map fun text => some (.str text)

/-- A `json.RawMessage`; nil is written as `null`. -/
def content (raw : Option Bytes) : Option (Value ν) :=
  match raw with
  | none => some .null
  | some b => C.raw b

/-- A bundle's body, marshalled and unmarshalled. -/
def bundleValue (b : BundleBody) : Option (Value ν) := do
  let createdAt ← C.time b.createdAt none
  let activatesAt ← C.zoned b.activatesAt
  let expiresAt ← C.zoned b.expiresAt
  let content ← C.content b.content
  return record
    [("version", some (C.int b.version.toNat)),
      ("revision", some (C.int b.revision.toNat)),
      ("service", some (str b.service)),
      ("environment", some (str b.environment)),
      ("created_at", some (.str createdAt)),
      ("activates_at", activatesAt),
      ("expires_at", expiresAt),
      ("content_hash", some (.str (hexDigits b.contentHash.val))),
      ("content", some content)]

def token (b : TokenBody) : Option Bytes := (C.tokenValue b).map C.canonicalJSON

/-- The bytes that are hashed for an audit record. -/
def audit (b : AuditBody) : Option Bytes := (C.auditValue b).map C.canonicalJSON

def bundle (b : BundleBody) : Option Bytes := (C.bundleValue b).map C.canonicalJSON

end Codec

/-! ## What the bytes tell -/

/-- The constraints are read back alike. -/
@[mk_iff]
structure Constraints.Agree (c c' : Constraints) : Prop where
  singleUse : c.singleUse = c'.singleUse
  environment : decode c.environment = decode c'.environment
  maxUses : float64 c.maxUses = float64 c'.maxUses
  allowedResources : c.allowedResources.map decode = c'.allowedResources.map decode

/-- The bodies of two tokens are read back alike: their strings up to the bytes that are no text, their
integers up to rounding. -/
@[mk_iff]
structure TokenBody.Agree (b b' : TokenBody) : Prop where
  id : decode b.id = decode b'.id
  subject : decode b.subject = decode b'.subject
  permission : decode b.permission = decode b'.permission
  resource : decode b.resource = decode b'.resource
  issuedAt : b.issuedAt = b'.issuedAt
  expiresAt : b.expiresAt = b'.expiresAt
  constraints : b.constraints.Agree b'.constraints
  nonce : decode b.nonce = decode b'.nonce
  epoch : float64 b.epoch.toNat = float64 b'.epoch.toNat
  parentID : decode b.parentID = decode b'.parentID

/-- The actors are read back alike. -/
@[mk_iff]
structure Actor.Agree (a a' : Actor) : Prop where
  id : decode a.id = decode a'.id
  type : decode a.type = decode a'.type

/-- The bodies of two audit records are read back alike. -/
@[mk_iff]
structure AuditBody.Agree (b b' : AuditBody) : Prop where
  sequence : float64 b.sequence.toNat = float64 b'.sequence.toNat
  previousHash : b.previousHash = b'.previousHash
  time : b.time = b'.time
  actor : b.actor.Agree b'.actor
  action : decode b.action = decode b'.action
  resource : decode b.resource = decode b'.resource
  result : decode b.result = decode b'.result
  operationID : decode b.operationID = decode b'.operationID
  metadata : readBack b.metadata.entries = readBack b'.metadata.entries

/-- What is read back of the body of an audit record. -/
def AuditBody.read (b : AuditBody) :=
  (float64 b.sequence.toNat, b.previousHash, b.time, (decode b.actor.id, decode b.actor.type),
    decode b.action, decode b.resource, decode b.result, decode b.operationID, readBack b.metadata.entries)

theorem AuditBody.read_inj {b b' : AuditBody} : b.read = b'.read ↔ b.Agree b' := by
  simp only [read, Prod.mk.injEq, AuditBody.agree_iff, Actor.agree_iff]

/-- The times show the same clock and zone. -/
def Zoned.shown (t : Zoned) : Int × Option Int := (t.wall, t.zone)

/-- The bodies of two bundles are read back alike. -/
@[mk_iff]
structure BundleBody.Agree {ν : Type} (C : Codec ν) (b b' : BundleBody) : Prop where
  version : b.version = b'.version
  revision : float64 b.revision.toNat = float64 b'.revision.toNat
  service : decode b.service = decode b'.service
  environment : decode b.environment = decode b'.environment
  createdAt : b.createdAt = b'.createdAt
  activatesAt : b.activatesAt.map Zoned.shown = b'.activatesAt.map Zoned.shown
  expiresAt : b.expiresAt.map Zoned.shown = b'.expiresAt.map Zoned.shown
  contentHash : b.contentHash = b'.contentHash
  content : C.content b.content = C.content b'.content

namespace Codec

variable {ν : Type} {C : Codec ν}

theorem omitempty_str {s s' : Bytes} :
    (omitempty [] str s : Option (Value ν)) = omitempty [] str s' ↔ decode s = decode s' :=
  omitempty_inj (fun _ => decode_eq_nil) str_inj

theorem omitempty_int {m n : Int} :
    omitempty 0 C.int m = omitempty 0 C.int n ↔ float64 m = float64 n :=
  omitempty_inj (fun _ => float64_eq_zero) C.int_inj

theorem omitempty_bool {b b' : Bool} :
    (omitempty false .bool b : Option (Value ν)) = omitempty false .bool b' ↔ b = b' :=
  omitempty_inj (fun _ => Iff.rfl) (by simp)

theorem omitempty_strs {l l' : List Bytes} :
    (omitempty [] strs l : Option (Value ν)) = omitempty [] strs l' ↔ l.map decode = l'.map decode := by
  refine omitempty_inj (fun _ => List.map_eq_nil_iff) ?_
  have hstr : (str : Bytes → Value ν) = Value.str ∘ decode := rfl
  rw [strs, strs, Value.arr.injEq, hstr, ← List.map_map, ← List.map_map]
  exact (List.map_injective_iff.mpr fun _ _ => Value.str.inj).eq_iff

theorem omitempty_metadata {m m' : List (Bytes × Bytes)} :
    (omitempty [] metadata m : Option (Value ν)) = omitempty [] metadata m' ↔
      readBack m = readBack m' := by
  refine omitempty_inj (fun m => ?_) ?_
  · rw [readBack, readBack, List.map_nil, Object.ofList_eq_nil.mpr rfl, Object.ofList_eq_nil]
    exact List.map_eq_nil_iff
  · have hpair : Function.Injective fun e : List Char × List Char => (e.1, (Value.str e.2 : Value ν)) := by
      intro e e' h
      exact Prod.ext (Prod.ext_iff.mp h).1 (Value.str.inj (Prod.ext_iff.mp h).2)
    rw [metadata, metadata, Value.obj.injEq]
    exact (List.map_injective_iff.mpr hpair).eq_iff

theorem time_inj {w w' : Int} {z z' : Option Int} {t t' : List Char} (h : C.time w z = some t)
    (h' : C.time w' z' = some t') : t = t' ↔ w = w' ∧ z = z' := by
  constructor
  · rintro rfl
    exact C.time_injective w z w' z' t h h'
  · rintro ⟨rfl, rfl⟩
    exact Option.some.inj (h.symm.trans h')

theorem zoned_inj {t t' : Option Zoned} {o o' : Option (Value ν)} (h : C.zoned t = some o)
    (h' : C.zoned t' = some o') : o = o' ↔ t.map Zoned.shown = t'.map Zoned.shown := by
  cases t with
  | none =>
    obtain rfl := Option.some.inj h
    cases t' with
    | none =>
      obtain rfl := Option.some.inj h'
      simp
    | some t' =>
      obtain ⟨text', -, rfl⟩ := Option.map_eq_some_iff.mp h'
      simp
  | some t =>
    obtain ⟨text, htext, rfl⟩ := Option.map_eq_some_iff.mp h
    cases t' with
    | none =>
      obtain rfl := Option.some.inj h'
      simp
    | some t' =>
      obtain ⟨text', htext', rfl⟩ := Option.map_eq_some_iff.mp h'
      simp [Zoned.shown, time_inj htext htext']

theorem constraints_inj {c c' : Constraints} : C.constraints c = C.constraints c' ↔ c.Agree c' := by
  rw [constraints, constraints,
    record_inj ["single_use", "environment", "max_uses", "allowed_resources"] (by decide) rfl rfl]
  simp only [List.cons.injEq, Prod.mk.injEq, true_and, and_true, omitempty_bool, omitempty_str,
    omitempty_int, omitempty_strs, Constraints.agree_iff]

variable {b : TokenBody} {t t' : Bytes} {v v' : Value ν}

theorem tokenValue_inj {b' : TokenBody} (h : C.tokenValue b = some v)
    (h' : C.tokenValue b' = some v') : v = v' ↔ b.Agree b' := by
  obtain ⟨issuedAt, hissued, h⟩ := Option.bind_eq_some_iff.mp h
  obtain ⟨expiresAt, hexpires, h⟩ := Option.bind_eq_some_iff.mp h
  obtain rfl := Option.some.inj h
  obtain ⟨issuedAt', hissued', h'⟩ := Option.bind_eq_some_iff.mp h'
  obtain ⟨expiresAt', hexpires', h'⟩ := Option.bind_eq_some_iff.mp h'
  obtain rfl := Option.some.inj h'
  rw [record_inj ["id", "subject", "permission", "resource", "issued_at", "expires_at", "constraints",
    "nonce", "epoch", "parent_id"] (by decide) rfl rfl]
  simp only [List.cons.injEq, Prod.mk.injEq, true_and, and_true, Option.some.injEq, Value.str.injEq,
    str_inj, int_inj, omitempty_str, time_inj hissued hissued', time_inj hexpires hexpires',
    constraints_inj, TokenBody.agree_iff]

theorem actor_inj {a a' : Actor} : (actor a : Value ν) = actor a' ↔ a.Agree a' := by
  rw [actor, actor, record_inj ["id", "type"] (by decide) rfl rfl]
  simp only [List.cons.injEq, Prod.mk.injEq, true_and, and_true, Option.some.injEq, str_inj,
    omitempty_str, Actor.agree_iff]

theorem hex_inj {d d' : Digest} : hexDigits d.val = hexDigits d'.val ↔ d = d' :=
  ⟨fun h => Subtype.ext (hexDigits_injective h), fun h => by rw [h]⟩

theorem auditValue_inj {b b' : AuditBody} (h : C.auditValue b = some v)
    (h' : C.auditValue b' = some v') : v = v' ↔ b.Agree b' := by
  obtain ⟨time, htime, h⟩ := Option.bind_eq_some_iff.mp h
  obtain rfl := Option.some.inj h
  obtain ⟨time', htime', h'⟩ := Option.bind_eq_some_iff.mp h'
  obtain rfl := Option.some.inj h'
  rw [record_inj ["sequence", "previous_hash", "time", "actor", "action", "resource", "result",
    "operation_id", "metadata"] (by decide) rfl rfl]
  simp only [List.cons.injEq, Prod.mk.injEq, true_and, and_true, Option.some.injEq, Value.str.injEq,
    str_inj, int_inj, omitempty_str, omitempty_metadata, hex_inj, actor_inj, time_inj htime htime',
    AuditBody.agree_iff]

/-- 32 bits are read back as they are. -/
theorem float64_uint32 {m n : UInt32} : float64 m.toNat = float64 n.toNat ↔ m = n := by
  have hexact : ∀ n : UInt32, float64 (n.toNat : Int) = n.toNat := fun n =>
    float64_of_exact (le_trans (le_of_lt n.toNat_lt) (by decide))
  rw [hexact, hexact, Int.natCast_inj, UInt32.toNat_inj]

theorem bundleValue_inj {b b' : BundleBody} (h : C.bundleValue b = some v)
    (h' : C.bundleValue b' = some v') : v = v' ↔ b.Agree C b' := by
  obtain ⟨createdAt, hcreated, h⟩ := Option.bind_eq_some_iff.mp h
  obtain ⟨activatesAt, hactivates, h⟩ := Option.bind_eq_some_iff.mp h
  obtain ⟨expiresAt, hexpires, h⟩ := Option.bind_eq_some_iff.mp h
  obtain ⟨content, hcontent, h⟩ := Option.bind_eq_some_iff.mp h
  obtain rfl := Option.some.inj h
  obtain ⟨createdAt', hcreated', h'⟩ := Option.bind_eq_some_iff.mp h'
  obtain ⟨activatesAt', hactivates', h'⟩ := Option.bind_eq_some_iff.mp h'
  obtain ⟨expiresAt', hexpires', h'⟩ := Option.bind_eq_some_iff.mp h'
  obtain ⟨content', hcontent', h'⟩ := Option.bind_eq_some_iff.mp h'
  obtain rfl := Option.some.inj h'
  rw [record_inj ["version", "revision", "service", "environment", "created_at", "activates_at",
    "expires_at", "content_hash", "content"] (by decide) rfl rfl]
  simp only [List.cons.injEq, Prod.mk.injEq, true_and, and_true, Option.some.injEq, Value.str.injEq,
    str_inj, int_inj, float64_uint32, hex_inj, time_inj hcreated hcreated', zoned_inj hactivates hactivates',
    zoned_inj hexpires hexpires', hcontent, hcontent', BundleBody.agree_iff]

/-! ### The values are those of the decoder -/

theorem decoded_str (s : Bytes) : Decoded (some (str s : Value ν)) := decoded_some (.str _)

theorem decoded_int (n : Int) : Decoded (some (C.int n)) := decoded_some (.num _)

theorem decoded_omitempty_str (s : Bytes) : Decoded (omitempty [] str s : Option (Value ν)) :=
  decoded_omitempty (.str _)

theorem constraints_canonical (c : Constraints) : Canonical (C.constraints c) := by
  refine record_canonical ?_
  simp only [List.forall_mem_cons]
  exact ⟨decoded_omitempty (.bool _), decoded_omitempty_str _, decoded_omitempty (.num _),
    decoded_omitempty (strs_canonical _), by simp⟩

theorem tokenValue_canonical (h : C.tokenValue b = some v) : Canonical v := by
  obtain ⟨issuedAt, -, h⟩ := Option.bind_eq_some_iff.mp h
  obtain ⟨expiresAt, -, h⟩ := Option.bind_eq_some_iff.mp h
  obtain rfl := Option.some.inj h
  refine record_canonical ?_
  simp only [List.forall_mem_cons]
  exact ⟨decoded_str _, decoded_str _, decoded_str _, decoded_omitempty_str _, decoded_some (.str _),
    decoded_some (.str _), decoded_some (constraints_canonical _), decoded_str _, decoded_int _,
    decoded_omitempty_str _, by simp⟩

theorem actor_canonical (a : Actor) : Canonical (actor a : Value ν) := by
  refine record_canonical ?_
  simp only [List.forall_mem_cons]
  exact ⟨decoded_str _, decoded_omitempty_str _, by simp⟩

theorem metadata_canonical (m : List (Bytes × Bytes)) : Canonical (metadata m : Value ν) := by
  refine .obj ?_ fun e he => ?_
  · exact List.pairwise_map.mpr (Object.ofList_sorted _)
  · obtain ⟨e', -, rfl⟩ := List.mem_map.mp he
    exact .str _

theorem auditValue_canonical {b : AuditBody} (h : C.auditValue b = some v) : Canonical v := by
  obtain ⟨time, -, h⟩ := Option.bind_eq_some_iff.mp h
  obtain rfl := Option.some.inj h
  refine record_canonical ?_
  simp only [List.forall_mem_cons]
  exact ⟨decoded_int _, decoded_some (.str _), decoded_some (.str _), decoded_some (actor_canonical _),
    decoded_str _, decoded_omitempty_str _, decoded_omitempty_str _, decoded_omitempty_str _,
    decoded_omitempty (metadata_canonical _), by simp⟩

theorem decoded_zoned {t : Option Zoned} {o : Option (Value ν)} (h : C.zoned t = some o) :
    Decoded o := by
  cases t with
  | none =>
    obtain rfl := Option.some.inj h
    intro v hv
    cases hv
  | some t =>
    obtain ⟨text, -, rfl⟩ := Option.map_eq_some_iff.mp h
    exact decoded_some (.str _)

theorem content_canonical {raw : Option Bytes} (h : C.content raw = some v) : Canonical v := by
  cases raw with
  | none =>
    obtain rfl := Option.some.inj h
    exact .null
  | some b => exact C.raw_canonical b v h

theorem bundleValue_canonical {b : BundleBody} (h : C.bundleValue b = some v) : Canonical v := by
  obtain ⟨createdAt, -, h⟩ := Option.bind_eq_some_iff.mp h
  obtain ⟨activatesAt, hactivates, h⟩ := Option.bind_eq_some_iff.mp h
  obtain ⟨expiresAt, hexpires, h⟩ := Option.bind_eq_some_iff.mp h
  obtain ⟨content, hcontent, h⟩ := Option.bind_eq_some_iff.mp h
  obtain rfl := Option.some.inj h
  refine record_canonical ?_
  simp only [List.forall_mem_cons]
  exact ⟨decoded_int _, decoded_int _, decoded_str _, decoded_str _, decoded_some (.str _),
    decoded_zoned hactivates, decoded_zoned hexpires, decoded_some (.str _),
    decoded_some (content_canonical hcontent), by simp⟩

/-! ## The bytes of two bodies -/

theorem token_inj {b' : TokenBody} (h : C.token b = some t) (h' : C.token b' = some t') :
    t = t' ↔ b.Agree b' := by
  obtain ⟨v, hv, rfl⟩ := Option.map_eq_some_iff.mp h
  obtain ⟨v', hv', rfl⟩ := Option.map_eq_some_iff.mp h'
  rw [C.canonicalJSON_inj (tokenValue_canonical hv) (tokenValue_canonical hv'), tokenValue_inj hv hv']

theorem audit_inj {b b' : AuditBody} (h : C.audit b = some t) (h' : C.audit b' = some t') :
    t = t' ↔ b.Agree b' := by
  obtain ⟨v, hv, rfl⟩ := Option.map_eq_some_iff.mp h
  obtain ⟨v', hv', rfl⟩ := Option.map_eq_some_iff.mp h'
  rw [C.canonicalJSON_inj (auditValue_canonical hv) (auditValue_canonical hv'), auditValue_inj hv hv']

theorem bundle_inj {b b' : BundleBody} (h : C.bundle b = some t) (h' : C.bundle b' = some t') :
    t = t' ↔ b.Agree C b' := by
  obtain ⟨v, hv, rfl⟩ := Option.map_eq_some_iff.mp h
  obtain ⟨v', hv', rfl⟩ := Option.map_eq_some_iff.mp h'
  rw [C.canonicalJSON_inj (bundleValue_canonical hv) (bundleValue_canonical hv'),
    bundleValue_inj hv hv']

end Codec

/-- The bodies of two bundles are the same, with their times compared as instants. -/
structure BundleBody.Same (b b' : BundleBody) : Prop where
  version : b.version = b'.version
  revision : b.revision = b'.revision
  service : b.service = b'.service
  environment : b.environment = b'.environment
  createdAt : b.createdAt = b'.createdAt
  activatesAt : b.activatesAt.map Zoned.instant = b'.activatesAt.map Zoned.instant
  expiresAt : b.expiresAt.map Zoned.instant = b'.expiresAt.map Zoned.instant
  contentHash : b.contentHash = b'.contentHash
  content : b.content = b'.content

/-- Two bodies that differ have different bytes exactly if they still differ when they are read back. -/
theorem canonical_tells {ν : Type} (C : Codec ν) :
    (∀ b b' t t', C.token b = some t → C.token b' = some t' →
      ((b ≠ b' → t ≠ t') ↔ (b ≠ b' → ¬ b.Agree b'))) ∧
    (∀ b b' t t', C.audit b = some t → C.audit b' = some t' →
      ((b ≠ b' → t ≠ t') ↔ (b ≠ b' → ¬ b.Agree b'))) ∧
    (∀ b b' t t', C.bundle b = some t → C.bundle b' = some t' →
      ((¬ b.Same b' → t ≠ t') ↔ (¬ b.Same b' → ¬ b.Agree C b'))) := by
  refine ⟨fun b b' t t' h h' => ?_, fun b b' t t' h h' => ?_, fun b b' t t' h h' => ?_⟩
  · rw [Ne, Ne, Codec.token_inj h h']
  · rw [Ne, Ne, Codec.audit_inj h h']
  · rw [Ne, Codec.bundle_inj h h']

/-! ## A codec -/

def decimalText (n : Int) : List Char :=
  if n < 0 then '-' :: Nat.toDigits 10 n.natAbs else Nat.toDigits 10 n.natAbs

theorem toDigits_isDigit {n : Nat} {c : Char} (h : c ∈ Nat.toDigits 10 n) : c.isDigit = true :=
  Nat.isDigit_of_mem_toDigits (by decide) (by decide) h

theorem toDigits_injective {m n : Nat} (h : Nat.toDigits 10 m = Nat.toDigits 10 n) : m = n := by
  have hread := congrArg (Nat.ofDigitChars 10 · 0) h
  simpa [Nat.ofDigitChars_ten_toDigits] using hread

theorem toDigits_ne_minus (m n : Nat) : Nat.toDigits 10 m ≠ '-' :: Nat.toDigits 10 n := by
  intro h
  have hminus : '-'.isDigit = true := toDigits_isDigit (h ▸ List.mem_cons_self)
  exact absurd hminus (by decide)

theorem decimalText_injective (m n : Int) (h : decimalText m = decimalText n) : m = n := by
  unfold decimalText at h
  split at h <;> split at h
  · have := toDigits_injective (List.cons.inj h).2
    omega
  · exact absurd h.symm (toDigits_ne_minus _ _)
  · exact absurd h (toDigits_ne_minus _ _)
  · have := toDigits_injective h
    omega

theorem numeric_decimalText (n : Int) : ∀ c ∈ decimalText n, numeric c = true := by
  have hdigit : ∀ c ∈ Nat.toDigits 10 n.natAbs, numeric c = true := by
    intro c hc
    rw [numeric, toDigits_isDigit hc, Bool.true_or]
  unfold decimalText
  split
  · exact List.forall_mem_cons.mpr ⟨by decide, hdigit⟩
  · exact hdigit

theorem decimalText_ne_nil (n : Int) : decimalText n ≠ [] := by
  unfold decimalText
  split
  · exact List.cons_ne_nil _ _
  · exact Nat.toDigits_ne_nil

def decimal : Format Int := ⟨decimalText, decimalText_injective, numeric_decimalText, decimalText_ne_nil⟩

/-- The texts of two times in UTC. -/
def sampleTimes : List (Time × String) :=
  [(unixEpoch, "1970-01-01T00:00:00Z"), (unixEpoch + minute, "1970-01-01T00:01:00Z")]

/-- The text of a time, if it is one of the two. -/
def sampleTime (wall : Int) (zone : Option Int) : Option (List Char) :=
  if zone = none then (sampleTimes.find? (·.1 = wall)).map (·.2.toList) else none

theorem sampleTime_eq_some {w : Int} {z : Option Int} {t : List Char} (h : sampleTime w z = some t) :
    z = none ∧ ∃ e ∈ sampleTimes, e.1 = w ∧ e.2.toList = t := by
  unfold sampleTime at h
  split at h
  · obtain ⟨e, he, rfl⟩ := Option.map_eq_some_iff.mp h
    exact ⟨‹_›, e, List.mem_of_find?_eq_some he, by simpa using List.find?_some he, rfl⟩
  · cases h

theorem sampleTime_injective (w : Int) (z : Option Int) (w' : Int) (z' : Option Int) (t : List Char)
    (h : sampleTime w z = some t) (h' : sampleTime w' z' = some t) : w = w' ∧ z = z' := by
  obtain ⟨rfl, e, he, rfl, ht⟩ := sampleTime_eq_some h
  obtain ⟨rfl, e', he', rfl, ht'⟩ := sampleTime_eq_some h'
  have htexts : ∀ e ∈ sampleTimes, ∀ e' ∈ sampleTimes, e.2 = e'.2 → e.1 = e'.1 := by decide
  exact ⟨htexts e he e' he' (String.toList_injective (ht.trans ht'.symm)), rfl⟩

/-- A codec that reads no content but `null`. -/
def sampleCodec : Codec Int where
  ofInt := id
  ofInt_injective _ _ h := h
  format := decimal
  time := sampleTime
  time_injective := sampleTime_injective
  raw b := if b = encode ['n', 'u', 'l', 'l'] then some .null else none
  raw_canonical b v h := by
    split at h
    · obtain rfl := Option.some.inj h
      exact .null
    · cases h

def sampleToken (subject : Bytes) (epoch : UInt64) : TokenBody where
  id := [99, 49]
  subject := subject
  permission := [99, 108, 97, 105, 109]
  issuedAt := unixEpoch
  expiresAt := unixEpoch + minute
  nonce := [110]
  epoch := epoch

theorem sampleToken_agree {s s' : Bytes} {e e' : UInt64} (hs : decode s = decode s')
    (he : float64 e.toNat = float64 e'.toNat) : (sampleToken s e).Agree (sampleToken s' e') :=
  ⟨rfl, hs, rfl, rfl, rfl, rfl, ⟨rfl, rfl, rfl, rfl⟩, rfl, he, rfl⟩

/-- Tokens of the epochs 1 and 2 are told apart. -/
theorem canonical_tells_epochs :
    ∃ t t', sampleCodec.token (sampleToken [97] 1) = some t ∧
      sampleCodec.token (sampleToken [97] 2) = some t' ∧
      (sampleToken [97] 1 ≠ sampleToken [97] 2 → t ≠ t') := by
  refine ⟨_, _, rfl, rfl, ((canonical_tells sampleCodec).1 _ _ _ _ rfl rfl).mpr ?_⟩
  intro _ hagree
  exact absurd hagree.epoch (by decide)

/-- Tokens of the epochs `2 ^ 53` and `2 ^ 53 + 1` have the same bytes, and so have tokens whose subjects
are different bytes that are no text. -/
theorem canonical_confuses :
    (sampleToken [97] 9007199254740992 ≠ sampleToken [97] 9007199254740993 ∧
      ∃ t, sampleCodec.token (sampleToken [97] 9007199254740992) = some t ∧
        sampleCodec.token (sampleToken [97] 9007199254740993) = some t) ∧
    (sampleToken [254] 1 ≠ sampleToken [255] 1 ∧
      ∃ t, sampleCodec.token (sampleToken [254] 1) = some t ∧
        sampleCodec.token (sampleToken [255] 1) = some t) := by
  -- Each token has some bytes, and they are the same as the tokens are read back alike.
  have hsame : ∀ s s' e e', (sampleToken s e).Agree (sampleToken s' e') →
      ∃ t, sampleCodec.token (sampleToken s e) = some t ∧
        sampleCodec.token (sampleToken s' e') = some t := by
    intro s s' e e' hagree
    obtain ⟨t, ht⟩ : ∃ t, sampleCodec.token (sampleToken s e) = some t := ⟨_, rfl⟩
    obtain ⟨t', ht'⟩ : ∃ t', sampleCodec.token (sampleToken s' e') = some t' := ⟨_, rfl⟩
    exact ⟨t, ht, (Codec.token_inj ht ht').mpr hagree ▸ ht'⟩
  refine ⟨⟨by decide, hsame _ _ _ _ ?_⟩, ⟨by decide, hsame _ _ _ _ ?_⟩⟩
  · exact sampleToken_agree rfl (by decide)
  · exact sampleToken_agree (by decide) rfl

end ShiftLock.Signing
