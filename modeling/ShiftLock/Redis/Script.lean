import ShiftLock.Types

/-!
# The Lua scripts of the Redis backend (`backend/redis/redis.go`)

A claim is one JSON object under one key, and every change of it is one of six scripts. Redis runs
a script as one step: it reads the key, may write it, and replies with the object or with an error.
Here a script is a function of the stored object (`none` is a missing key).

Lua numbers are taken as exact integers. Times are Unix nanoseconds, as the Go side passes them.
-/

namespace ShiftLock.Redis

/-- `claimJSON`: the stored object. -/
structure ClaimJSON where
  name : String
  ownerGeneration : String := ""
  fencingToken : FencingToken := 0
  phase : ClaimPhase := .unowned
  acquiredAt : Int := 0
  expiresAt : Int := 0
  previousOwner : String := ""
  pendingSuccessor : String := ""
  drainStatus : DrainStatus := .unset
  transferStatus : TransferStatus := .unset
  lastHeartbeat : Int := 0
  reason : TransitionReason := .unset
  version : Nat := 0
  deriving DecidableEq, Repr

namespace ClaimJSON

/-- `obj.expires_at > 0 and now_ns > obj.expires_at`. -/
def overdue (obj : ClaimJSON) (now : Int) : Bool := 0 < obj.expiresAt ∧ obj.expiresAt < now

/-- The guard at the head of the acquire, prepare and commit scripts. -/
def lapsed (obj : ClaimJSON) (now : Int) : Bool := obj.overdue now ∧ obj.phase.held

/-- What the scripts with that guard make of a lapsed object. -/
def expire (obj : ClaimJSON) : ClaimJSON :=
  { obj with
    previousOwner := obj.ownerGeneration
    ownerGeneration := ""
    pendingSuccessor := ""
    phase := .unowned
    reason := .expired
    version := obj.version + 1 }

/-- The renew script has an expiry of its own: it looks at no phase and leaves the pending
successor. -/
def expireRenew (obj : ClaimJSON) : ClaimJSON :=
  { obj with
    previousOwner := obj.ownerGeneration
    ownerGeneration := ""
    phase := .unowned
    reason := .expired
    version := obj.version + 1 }

/-- The lease of the owner, extended. -/
def renewed (obj : ClaimJSON) (ttl now : Int) : ClaimJSON :=
  { obj with
    expiresAt := now + ttl
    lastHeartbeat := now
    reason := .renewed
    version := obj.version + 1 }

/-- A new owner with the next token. -/
def granted (obj : ClaimJSON) (gen : String) (ttl now : Int) (name : String) : ClaimJSON :=
  { obj with
    previousOwner := obj.ownerGeneration
    ownerGeneration := gen
    fencingToken := obj.fencingToken + 1
    phase := .owned
    acquiredAt := now
    expiresAt := now + ttl
    lastHeartbeat := now
    pendingSuccessor := ""
    transferStatus := .unset
    drainStatus := .unset
    reason := .acquired
    version := obj.version + 1
    name }

def released (obj : ClaimJSON) : ClaimJSON :=
  { obj with
    previousOwner := obj.ownerGeneration
    ownerGeneration := ""
    pendingSuccessor := ""
    phase := .unowned
    transferStatus := .unset
    drainStatus := .unset
    reason := .released
    version := obj.version + 1 }

def reservedFor (obj : ClaimJSON) (toGen : String) (ttl now : Int) : ClaimJSON :=
  { obj with
    phase := .reserved
    pendingSuccessor := toGen
    transferStatus := .prepared
    drainStatus := .complete
    expiresAt := now + ttl
    lastHeartbeat := now
    reason := .transferPrepared
    version := obj.version + 1 }

def committedTo (obj : ClaimJSON) (toGen : String) (ttl now : Int) : ClaimJSON :=
  { obj with
    previousOwner := obj.ownerGeneration
    ownerGeneration := toGen
    fencingToken := obj.fencingToken + 1
    phase := .owned
    pendingSuccessor := ""
    transferStatus := .committed
    drainStatus := .unset
    acquiredAt := now
    expiresAt := now + ttl
    lastHeartbeat := now
    reason := .transferCommitted
    version := obj.version + 1 }

def rolledBack (obj : ClaimJSON) : ClaimJSON :=
  { obj with
    pendingSuccessor := ""
    phase := .owned
    transferStatus := .aborted
    reason := .transferAborted
    version := obj.version + 1 }

end ClaimJSON

/-- The `__err` of a reply; `held` carries the object in its `data`. -/
inductive ScriptError where
  | held (data : ClaimJSON)
  | stale | notOwner | notFound | concurrent | noTransfer
  deriving DecidableEq, Repr

/-- What a script does: the new value of the key, and the reply. -/
abbrev Evaluated := Option ClaimJSON × Except ScriptError ClaimJSON

/-- `redis.call('SET', key, cjson.encode(obj))` and the object as the reply. -/
def stored (obj : ClaimJSON) : Evaluated := (some obj, .ok obj)

def acquireScript (gen : String) (ttl now : Int) (name : String) (raw : Option ClaimJSON) :
    Evaluated :=
  let obj := raw.getD { name }
  let obj := if obj.lapsed now then obj.expire else obj
  if obj.phase.held then
    if obj.ownerGeneration = gen then stored (obj.renewed ttl now) else (raw, .error (.held obj))
  else stored (obj.granted gen ttl now name)

/-- `releaseScript`: no expiry. -/
def releaseScript (gen : String) (token : FencingToken) (raw : Option ClaimJSON) : Evaluated :=
  match raw with
  | none => (none, .error .notFound)
  | some obj =>
    if obj.fencingToken ≠ token then (raw, .error .stale)
    else if obj.ownerGeneration ≠ gen then (raw, .error .notOwner)
    else stored obj.released

def prepareScript (fromGen toGen : String) (token : FencingToken) (ttl now : Int)
    (raw : Option ClaimJSON) : Evaluated :=
  match raw with
  | none => (none, .error .notFound)
  | some obj =>
    if obj.lapsed now then (some obj.expire, .error .notOwner)
    else if obj.ownerGeneration ≠ fromGen then (raw, .error .notOwner)
    else if obj.fencingToken ≠ token then (raw, .error .stale)
    else if obj.phase = .reserved ∧ obj.pendingSuccessor ≠ "" ∧ obj.pendingSuccessor ≠ toGen then
      (raw, .error .concurrent)
    else stored (obj.reservedFor toGen ttl now)

def commitScript (fromGen toGen : String) (token : FencingToken) (ttl now : Int)
    (raw : Option ClaimJSON) : Evaluated :=
  match raw with
  | none => (none, .error .notFound)
  | some obj =>
    if obj.lapsed now then (some obj.expire, .error .noTransfer)
    else if obj.phase ≠ .reserved then (raw, .error .noTransfer)
    else if obj.ownerGeneration ≠ fromGen ∨ obj.pendingSuccessor ≠ toGen then
      (raw, .error .concurrent)
    else if obj.fencingToken ≠ token then (raw, .error .stale)
    else stored (obj.committedTo toGen ttl now)

/-- `abortScript`: it takes no time, so it has no expiry. -/
def abortScript (fromGen : String) (token : FencingToken) (raw : Option ClaimJSON) : Evaluated :=
  match raw with
  | none => (none, .error .notFound)
  | some obj =>
    if obj.phase ≠ .reserved then
      if obj.ownerGeneration = fromGen ∧ obj.phase = .owned then (raw, .ok obj)
      else (raw, .error .noTransfer)
    else if obj.fencingToken ≠ token then (raw, .error .stale)
    else if obj.ownerGeneration ≠ fromGen then (raw, .error .notOwner)
    else stored obj.rolledBack

def renewScript (gen : String) (token : FencingToken) (ttl now : Int) (raw : Option ClaimJSON) :
    Evaluated :=
  match raw with
  | none => (none, .error .notFound)
  | some obj =>
    if obj.overdue now then (some obj.expireRenew, .error .notOwner)
    else if obj.ownerGeneration ≠ gen then (raw, .error .notOwner)
    else if obj.fencingToken ≠ token then (raw, .error .stale)
    else stored (obj.renewed ttl now)

inductive Script where
  | acquire (gen : String) (ttl now : Int) (name : String)
  | release (gen : String) (token : FencingToken)
  | prepare (fromGen toGen : String) (token : FencingToken) (ttl now : Int)
  | commit (fromGen toGen : String) (token : FencingToken) (ttl now : Int)
  | abort (fromGen : String) (token : FencingToken)
  | renew (gen : String) (token : FencingToken) (ttl now : Int)
  deriving DecidableEq, Repr

namespace Script

/-- `EVAL` of a script on a key. -/
def eval : Script → Option ClaimJSON → Evaluated
  | .acquire gen ttl now name => acquireScript gen ttl now name
  | .release gen token => releaseScript gen token
  | .prepare fromGen toGen token ttl now => prepareScript fromGen toGen token ttl now
  | .commit fromGen toGen token ttl now => commitScript fromGen toGen token ttl now
  | .abort fromGen token => abortScript fromGen token
  | .renew gen token ttl now => renewScript gen token ttl now

/-- The time that a script is given. -/
def clock : Script → Option Int
  | .acquire _ _ now _ | .prepare _ _ _ _ now | .commit _ _ _ _ now | .renew _ _ _ now => some now
  | .release _ _ | .abort _ _ => none

def generations : Script → List String
  | .acquire gen _ _ _ | .release gen _ | .abort gen _ | .renew gen _ _ _ => [gen]
  | .prepare fromGen toGen _ _ _ | .commit fromGen toGen _ _ _ => [fromGen, toGen]

end Script

end ShiftLock.Redis
