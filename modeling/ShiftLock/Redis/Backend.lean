import ShiftLock.Redis.Script
import ShiftLock.Memory.Backend
import ShiftLock.Conc.Pool

/-!
# The Redis backend (`backend/redis/redis.go`, `ops.go`)

The Go side of the backend: every operation is a program of Redis commands. Each command is one
atomic step, and the steps of several clients interleave:

1. `recallOp`: `GET` of the operation key (no step for an empty operation ID);
2. for `CommitTransfer`, `GetClaim`: `GET` of the claim key;
3. a reading of the clock, and the script: `EVAL` on the claim key;
4. `storeOp`: `SET` of the operation key, whatever it holds by then.

A command may fail: a failed `GET` looks like a missing key, a failed `SET` is ignored, and the
reply of an `EVAL` may be lost after it was applied.
-/

namespace ShiftLock.Redis

open Memory (Reply)
open Conc

/-! ## Records and errors -/

/-- `time.Unix(0, n)` for a positive `n`, and the zero time otherwise. -/
def unixTime (n : Int) : Time := if 0 < n then n + unixEpoch else 0

/-- The record of a stored object. -/
def fromJSON (j : ClaimJSON) : ClaimRecord where
  name := j.name
  ownerGeneration := j.ownerGeneration
  fencingToken := j.fencingToken
  phase := j.phase
  acquiredAt := unixTime j.acquiredAt
  expiresAt := unixTime j.expiresAt
  previousOwner := j.previousOwner
  pendingSuccessor := j.pendingSuccessor
  drainStatus := j.drainStatus
  transferStatus := j.transferStatus
  lastHeartbeat := unixTime j.lastHeartbeat
  reason := j.reason
  version := j.version

/-- The `__err` codes in `parseResult`. -/
def ScriptError.sentinel : ScriptError → Sentinel
  | .held _ => .claimHeld
  | .stale => .staleToken
  | .notOwner => .notOwner
  | .notFound => .claimNotFound
  | .concurrent => .concurrentTransfer
  | .noTransfer => .noTransfer

/-- The reply of a script. -/
def parseResult : Except ScriptError ClaimJSON → Except Err ClaimRecord
  | .error e => .error (.of e.sentinel)
  | .ok obj => .ok (fromJSON obj)

/-- An error of the client. -/
def mapRedis (op : String) (text : String) : Err :=
  .typed { op := "redis." ++ op, err := .sentinel .backend, message := text }

/-- The codes of a stored failure. -/
inductive OpCode where
  | held | stale | notOwner | noTransfer | concurrent | overflow | notFound | backend
  deriving DecidableEq, Repr

/-- The sentinel that `errors.Is` finds in an error. -/
def rootSentinel : Err → Option Sentinel
  | .plain (.sentinel s) => some s
  | .typed { err := .sentinel s, .. } => some s
  | _ => none

/-- The code under which an error is stored. -/
def encodeRedisOpErr (e : Err) : OpCode :=
  match rootSentinel e with
  | some .claimHeld => .held
  | some .staleToken => .stale
  | some .notOwner => .notOwner
  | some .noTransfer => .noTransfer
  | some .concurrentTransfer => .concurrent
  | some .tokenOverflow => .overflow
  | some .claimNotFound => .notFound
  | _ => .backend

/-- The error of a code. -/
def decodeRedisOpErr : OpCode → Err
  | .held => .of .claimHeld
  | .stale => .of .staleToken
  | .notOwner => .of .notOwner
  | .noTransfer => .of .noTransfer
  | .concurrent => .of .concurrentTransfer
  | .overflow => .of .tokenOverflow
  | .notFound => .of .claimNotFound
  | .backend => .of .backend

/-- `storedOp`. A failure always has a code. -/
inductive StoredOp where
  | ok (claim : Option ClaimRecord)
  | failed (code : OpCode) (claim : Option ClaimRecord)
  deriving DecidableEq, Repr

/-- What `storeOp` makes of an outcome. -/
def StoredOp.ofReply (r : Reply) : StoredOp :=
  match r.err with
  | none => .ok r.record
  | some e => .failed (encodeRedisOpErr e) r.record

/-- What `recallOp` makes of a stored outcome. -/
def StoredOp.reply : StoredOp → Reply
  | .ok claim => { record := claim }
  | .failed code claim => { record := claim, err := some (decodeRedisOpErr code) }

/-- The stored outcome is a success. -/
def StoredOp.isOk : StoredOp → Bool
  | .ok _ => true
  | .failed _ _ => false

/-! ## Commands -/

/-- The Redis database: the claim keys and the operation keys of one prefix. -/
structure Store where
  claims : String → Option ClaimJSON := fun _ => none
  ops : OperationID → Option StoredOp := fun _ => none

/-- The steps of a client. -/
inductive Cmd where
  /-- `time.Now().UnixNano()`. -/
  | now
  | getClaim (name : String)
  | getOp (id : OperationID)
  | setOp (id : OperationID) (s : StoredOp)
  | eval (name : String) (s : Script)
  deriving DecidableEq

/-- The answer to a step; an `EVAL` can end with a client error. -/
abbrev Cmd.Answer : Cmd → Type
  | .now => Int
  | .getClaim _ => Option ClaimJSON
  | .getOp _ => Option StoredOp
  | .setOp _ _ => Unit
  | .eval _ _ => Except String (Except ScriptError ClaimJSON)

/-- A command that fails on the client's side; the server may have applied it. -/
structure Fault where
  applied : Bool
  text : String
  deriving DecidableEq, Repr

/-- What the environment fixes for one step. -/
structure Env where
  now : Int := 0
  fault : Option Fault := none
  deriving DecidableEq, Repr

/-- The server has executed the command. -/
def Env.applied (e : Env) : Bool :=
  match e.fault with
  | none => true
  | some f => f.applied

/-- The meaning of a command. -/
def exec : (a : Cmd) → Env → Store → Store × a.Answer
  | .now, e, s => (s, e.now)
  | .getClaim name, e, s => (s, if e.fault = none then s.claims name else none)
  | .getOp id, e, s => (s, if e.fault = none then s.ops id else none)
  | .setOp id v, e, s =>
    (if e.applied then { s with ops := Function.update s.ops id (some v) } else s, ())
  | .eval name sc, e, s =>
    let r := sc.eval (s.claims name)
    (if e.applied then { s with claims := Function.update s.claims name r.1 } else s,
      match e.fault with
      | none => .ok r.2
      | some f => .error f.text)

/-- A program of Redis commands. -/
abbrev Client (α : Type) := Prog Cmd Cmd.Answer α

/-- One command as a program. -/
abbrev command (a : Cmd) : Client a.Answer := Prog.perform a

/-! ## Operations -/

/-- The stored reply of an operation. -/
def recallOp (id : OperationID) : Client (Option Reply) := do
  if id = "" then return none
  let stored : Option StoredOp ← command (.getOp id)
  return stored.map StoredOp.reply

/-- The reply is stored. -/
def storeOp (id : OperationID) (r : Reply) : Client Unit := do
  if id = "" then return ()
  command (.setOp id (.ofReply r))

/-- The reply that `parseResult` gives. -/
def parsed (v : Except ScriptError ClaimJSON) : Reply :=
  match parseResult v with
  | .ok rec => .ok rec
  | .error err => .fail err

/-- A read of the claim. -/
def getClaim (name : String) : Client Reply := do
  let raw : Option ClaimJSON ← command (.getClaim name)
  match raw with
  | none => return .fail (.of .claimNotFound)
  | some obj => return .ok (fromJSON obj)

/-- `AcquireClaim`: a held claim comes with its record. -/
def acquireClaim (req : AcquireRequest) : Client Reply := do
  match ← recallOp req.operationID with
  | some r => return r
  | none =>
    let now : Int ← command .now
    let v : Except String (Except ScriptError ClaimJSON) ←
      command (.eval req.claimName (.acquire req.generationID req.ttl now req.claimName))
    match v with
    | .error text => return .fail (mapRedis "AcquireClaim" text)
    | .ok (.error (.held data)) =>
      let r : Reply := { record := some (fromJSON data), err := some (.of .claimHeld) }
      storeOp req.operationID r
      return r
    | .ok v =>
      storeOp req.operationID (parsed v)
      return parsed v

/-- The tail of the operations that store their outcome only when it is a success. -/
def storeSuccess (op : String) (id : OperationID)
    (v : Except String (Except ScriptError ClaimJSON)) : Client Reply := do
  match v with
  | .error text => return .fail (mapRedis op text)
  | .ok (.error err) => return parsed (.error err)
  | .ok (.ok obj) =>
    storeOp id (parsed (.ok obj))
    return parsed (.ok obj)

/-- An extension for the owner. -/
def renewClaim (req : RenewRequest) : Client Reply := do
  match ← recallOp req.operationID with
  | some r => return r
  | none =>
    let now : Int ← command .now
    let v ← command (.eval req.claimName (.renew req.generationID req.token req.ttl now))
    storeSuccess "RenewClaim" req.operationID v

/-- A reservation for a successor. -/
def prepareTransfer (req : TransferRequest) : Client Reply := do
  match ← recallOp req.operationID with
  | some r => return r
  | none =>
    let now : Int ← command .now
    let v ← command (.eval req.claimName
      (.prepare req.fromGeneration req.toGeneration req.token req.ttl now))
    storeSuccess "PrepareTransfer" req.operationID v

/-- The record shows that the request has been committed. -/
def alreadyCommitted (req : CommitRequest) (cur : ClaimRecord) : Bool :=
  cur.phase = .owned ∧ cur.ownerGeneration = req.toGeneration ∧
    cur.fencingToken = wrapSucc req.expectedToken ∧ cur.transferStatus = .committed

/-- `CommitTransfer` once the state says nothing: the script. It stores failures too. -/
def commitEval (req : CommitRequest) : Client Reply := do
  let now : Int ← command .now
  let v : Except String (Except ScriptError ClaimJSON) ← command (.eval req.claimName
    (.commit req.fromGeneration req.toGeneration req.expectedToken req.ttl now))
  match v with
  | .error text => return .fail (mapRedis "CommitTransfer" text)
  | .ok v =>
    storeOp req.operationID (parsed v)
    return parsed v

/-- The successor becomes the owner. -/
def commitTransfer (req : CommitRequest) : Client Reply := do
  match ← recallOp req.operationID with
  | some r => return r
  | none =>
    let cur ← getClaim req.claimName
    match cur.record with
    | some rec =>
      if alreadyCommitted req rec then
        storeOp req.operationID (.ok rec)
        return .ok rec
      else commitEval req
    | none => commitEval req

/-- The reservation is given up. -/
def abortTransfer (req : AbortRequest) : Client Reply := do
  match ← recallOp req.operationID with
  | some r => return r
  | none =>
    let v ← command (.eval req.claimName (.abort req.fromGeneration req.expectedToken))
    storeSuccess "AbortTransfer" req.operationID v

/-- `ReleaseClaim`: an error only, which it stores. -/
def releaseClaim (req : ReleaseRequest) : Client Reply := do
  match ← recallOp req.operationID with
  | some r => return { err := r.err }
  | none =>
    let v : Except String (Except ScriptError ClaimJSON) ←
      command (.eval req.claimName (.release req.generationID req.token))
    match v with
    | .error text => return .fail (mapRedis "ReleaseClaim" text)
    | .ok v =>
      let r : Reply := { err := (parsed v).err }
      storeOp req.operationID r
      return r

/-! ## Any number of clients -/

/-- The calls on the backends that share the database. -/
inductive Task where
  | acquireClaim (req : AcquireRequest)
  | renewClaim (req : RenewRequest)
  | prepareTransfer (req : TransferRequest)
  | commitTransfer (req : CommitRequest)
  | abortTransfer (req : AbortRequest)
  | releaseClaim (req : ReleaseRequest)
  | getClaim (name : String)
  deriving DecidableEq, Repr

/-- The program of a call. -/
def Task.code : Task → Client Reply
  | .acquireClaim req => Redis.acquireClaim req
  | .renewClaim req => Redis.renewClaim req
  | .prepareTransfer req => Redis.prepareTransfer req
  | .commitTransfer req => Redis.commitTransfer req
  | .abortTransfer req => Redis.abortTransfer req
  | .releaseClaim req => Redis.releaseClaim req
  | .getClaim name => Redis.getClaim name

/-- The clients of one database: calls start at any time and their commands interleave. -/
def clients : Sys Cmd Cmd.Answer Store Env Empty Task Reply where
  exec := exec
  env x := nomatch x
  fork _ _ := none
  code t := Sum.inl <$> t.code

end ShiftLock.Redis
