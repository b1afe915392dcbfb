import ShiftLock.Memory.Backend
import ShiftLock.Conc.Pool
import Mathlib.Data.List.Infix

/-!
# The Kubernetes backend (`backend/kubernetes/kubernetes.go`)

A claim is a `Lease` object: the holder, the times, and annotations for the rest. Every operation
reads the lease (and creates it when it is missing, and expires it when it is due), computes the new
record and updates the lease on condition that its `ResourceVersion` is still the one that was
read. `Get`, `Create` and `Update` are the atomic steps, the steps of several processes interleave,
and each process has its own table of operation results.

The numbers in the annotations are decimal texts that `Sprintf` writes and `Sscanf` reads back; they
are kept as numbers here, and a missing one reads as zero. A client call may fail, before or
after the server has applied it.
-/

namespace ShiftLock.Kubernetes

open Memory (Reply)
open Conc

/-! ## Leases and records -/

/-- The annotations of a lease object. -/
structure Annotations where
  token : FencingToken := 0
  phase : Option ClaimPhase := none
  prev : String := ""
  successor : String := ""
  transfer : TransferStatus := .unset
  drain : DrainStatus := .unset
  reason : TransitionReason := .unset
  version : Nat := 0
  acquired : Option Int := none
  deriving DecidableEq, Repr

/-- `LeaseObject`. The client writes counter values into the `ResourceVersion`; `none` is the empty
text. -/
structure LeaseObject where
  name : String
  holderIdentity : String := ""
  leaseDurationSecs : Int := 0
  acquireTime : Time := 0
  renewTime : Time := 0
  resourceVersion : Option Nat := none
  annotations : Annotations := {}
  deriving DecidableEq, Repr

/-- The claim that a lease object holds. -/
def recordFromLease (claim : String) (l : LeaseObject) : ClaimRecord where
  name := claim
  ownerGeneration := l.holderIdentity
  fencingToken := l.annotations.token
  phase :=
    match l.annotations.phase with
    | some phase => phase
    | none => if l.holderIdentity = "" then .unowned else .owned
  acquiredAt :=
    match l.annotations.acquired with
    | some ns => ns + unixEpoch
    | none => 0
  expiresAt := l.renewTime + l.leaseDurationSecs * second
  previousOwner := l.annotations.prev
  pendingSuccessor := l.annotations.successor
  drainStatus := l.annotations.drain
  transferStatus := l.annotations.transfer
  lastHeartbeat := l.renewTime
  reason := l.annotations.reason
  version := l.annotations.version

/-- `int32(ttl / time.Second)`, or 15 when that is not positive. -/
def durationSecs (ttl : Duration) : Int :=
  let secs := (ttl.tdiv second).bmod (2 ^ 32)
  if secs ≤ 0 then 15 else secs

/-- `applyRecord`, by a reading of the clock. -/
def applyRecord (now : Time) (ttl : Duration) (rec : ClaimRecord) (l : LeaseObject) : LeaseObject :=
  let acquiredAt := if rec.acquiredAt = 0 then now else rec.acquiredAt
  { l with
    holderIdentity := rec.ownerGeneration
    leaseDurationSecs := durationSecs ttl
    acquireTime := acquiredAt
    renewTime := now
    annotations :=
      { token := rec.fencingToken
        phase := some rec.phase
        prev := rec.previousOwner
        successor := rec.pendingSuccessor
        transfer := rec.transferStatus
        drain := rec.drainStatus
        reason := rec.reason
        version := rec.version
        acquired := some (unixNano acquiredAt) } }

/-! The record updates of the operations. -/

/-- The expiry in `getOrCreate`. -/
def expired (rec : ClaimRecord) : ClaimRecord :=
  { rec with
    previousOwner := rec.ownerGeneration
    ownerGeneration := ""
    pendingSuccessor := ""
    phase := .unowned
    reason := .expired
    version := wrapSucc rec.version }

/-- `AcquireClaim` by the owner, and `RenewClaim`. -/
def renewed (rec : ClaimRecord) : ClaimRecord :=
  { rec with reason := .renewed, version := wrapSucc rec.version }

/-- `AcquireClaim` of a claim without an owner. -/
def granted (now : Time) (gen : String) (rec : ClaimRecord) : ClaimRecord :=
  { rec with
    previousOwner := rec.ownerGeneration
    ownerGeneration := gen
    fencingToken := rec.fencingToken + 1
    phase := .owned
    acquiredAt := now
    pendingSuccessor := ""
    transferStatus := .unset
    drainStatus := .unset
    reason := .acquired
    version := wrapSucc rec.version }

/-- `PrepareTransfer`. -/
def reservedFor (gen : String) (rec : ClaimRecord) : ClaimRecord :=
  { rec with
    phase := .reserved
    pendingSuccessor := gen
    transferStatus := .prepared
    drainStatus := .complete
    reason := .transferPrepared
    version := wrapSucc rec.version }

/-- `CommitTransfer`. -/
def committedTo (now : Time) (gen : String) (rec : ClaimRecord) : ClaimRecord :=
  { rec with
    previousOwner := rec.ownerGeneration
    ownerGeneration := gen
    fencingToken := rec.fencingToken + 1
    phase := .owned
    pendingSuccessor := ""
    transferStatus := .committed
    drainStatus := .unset
    acquiredAt := now
    reason := .transferCommitted
    version := wrapSucc rec.version }

/-- `AbortTransfer`. -/
def rolledBack (rec : ClaimRecord) : ClaimRecord :=
  { rec with
    pendingSuccessor := ""
    phase := .owned
    transferStatus := .aborted
    reason := .transferAborted
    version := wrapSucc rec.version }

/-- `ReleaseClaim`. -/
def givenUp (rec : ClaimRecord) : ClaimRecord :=
  { rec with
    previousOwner := rec.ownerGeneration
    ownerGeneration := ""
    pendingSuccessor := ""
    phase := .unowned
    transferStatus := .unset
    drainStatus := .unset
    reason := .released
    version := wrapSucc rec.version }

/-! ## The lease client -/

/-- The leases on the server with its version counter, and the operation results of each
process. -/
structure Store where
  leases : String → Option LeaseObject := fun _ => none
  rv : Nat := 0
  ops : Nat → OperationID → Option Reply := fun _ _ => none

namespace Store

/-- `m.leases[lease.Name] = cp`, with the next resource version. -/
def write (s : Store) (l : LeaseObject) : Store :=
  { s with
    leases := Function.update s.leases l.name (some { l with resourceVersion := some (s.rv + 1) })
    rv := s.rv + 1 }

/-- The object of a name. -/
def get (s : Store) (name : String) : Except String LeaseObject :=
  match s.leases name with
  | none => .error "not found"
  | some l => .ok l

/-- A new object, if there is none. -/
def create (s : Store) (l : LeaseObject) : Store × Except String LeaseObject :=
  match s.leases l.name with
  | some _ => (s, .error "exists")
  | none => (s.write l, .ok { l with resourceVersion := some (s.rv + 1) })

/-- A write, if the version is the current one. -/
def update (s : Store) (l : LeaseObject) : Store × Except String LeaseObject :=
  match s.leases l.name with
  | none => (s, .error "not found")
  | some cur =>
    if l.resourceVersion ≠ none ∧ l.resourceVersion ≠ cur.resourceVersion then
      (s, .error "conflict")
    else (s.write l, .ok { l with resourceVersion := some (s.rv + 1) })

end Store

/-- The steps of a process. -/
inductive Cmd where
  /-- `time.Now()`. -/
  | now
  | recalled (proc : Nat) (id : OperationID)
  | store (proc : Nat) (id : OperationID) (r : Reply)
  | get (name : String)
  | create (l : LeaseObject)
  | update (l : LeaseObject)
  deriving DecidableEq

/-- What a command answers. -/
abbrev Cmd.Answer : Cmd → Type
  | .now => Time
  | .recalled _ _ => Option Reply
  | .store _ _ _ => Unit
  | .get _ | .create _ | .update _ => Except String LeaseObject

/-- A client call that fails on the way; the server may have applied it. -/
structure Fault where
  applied : Bool
  text : String
  deriving DecidableEq, Repr

/-- What the environment fixes for one step. -/
structure Env where
  now : Time := 0
  fault : Option Fault := none
  deriving DecidableEq, Repr

/-- The call of a server function, with its fault. -/
def Env.call (e : Env) (s : Store) (r : Store × Except String LeaseObject) :
    Store × Except String LeaseObject :=
  match e.fault with
  | none => r
  | some f => (if f.applied then r.1 else s, .error f.text)

/-- The meaning of a command. -/
def exec : (a : Cmd) → Env → Store → Store × a.Answer
  | .now, e, s => (s, e.now)
  | .recalled proc id, _, s => (s, s.ops proc id)
  | .store proc id r, _, s =>
    ({ s with ops := Function.update s.ops proc (Function.update (s.ops proc) id (some r)) }, ())
  | .get name, e, s => e.call s (s, s.get name)
  | .create l, e, s => e.call s (s.create l)
  | .update l, e, s => e.call s (s.update l)

/-- A program of a process. -/
abbrev Client (α : Type) := Prog Cmd Cmd.Answer α

/-- One step as a program. -/
abbrev command (a : Cmd) : Client a.Answer := Prog.perform a

/-! ## Operations -/

/-- The stored reply of an operation. -/
def recallOp (proc : Nat) (id : OperationID) : Client (Option Reply) := do
  if id = "" then return none
  command (.recalled proc id)

/-- The reply is stored. -/
def storeOp (proc : Nat) (id : OperationID) (r : Reply) : Client Unit := do
  if id = "" then return ()
  command (.store proc id r)

/-- An error of the API server. -/
def clientError (text : String) : Err := .plain (.foreign text)

/-- `isConflict`, on the text of the error. -/
def isConflict (text : String) : Bool :=
  "conflict".toList <:+: text.toList ∨ "Conflict".toList <:+: text.toList

/-- `applyRecord` and `Update`. -/
def writeRecord (ttl : Duration) (rec : ClaimRecord) (l : LeaseObject) :
    Client (Except String LeaseObject) := do
  let now : Time ← command .now
  command (.update (applyRecord now ttl rec l))

/-- The second half of `getOrCreate`: a lease that is due is expired on the server. -/
def expireLease (claim : String) (l : LeaseObject) :
    Client (Except String (LeaseObject × ClaimRecord)) := do
  let cl := recordFromLease claim l
  if cl.expiresAt = 0 then return .ok (l, cl)
  else
    let now : Time ← command .now
    if cl.expiresAt < now ∧ cl.phase.held then
      match ← writeRecord (15 * second) (expired cl) l with
      | .error text => return .error text
      | .ok l => return .ok (l, recordFromLease claim l)
    else return .ok (l, cl)

/-- The lease that `getOrCreate` creates. -/
def emptyLease (name : String) : LeaseObject :=
  { name, annotations := { phase := some .unowned, token := 0 } }

/-- `getOrCreate`. A failed `Create` is taken for a lost race, and the lease is read again. -/
def getOrCreate (name claim : String) : Client (Except String (LeaseObject × ClaimRecord)) := do
  let got : Except String LeaseObject ← command (.get name)
  match got with
  | .ok l => expireLease claim l
  | .error _ =>
    let made : Except String LeaseObject ← command (.create (emptyLease name))
    match made with
    | .ok l => expireLease claim l
    | .error _ =>
      let again : Except String LeaseObject ← command (.get name)
      match again with
      | .ok l => expireLease claim l
      | .error text => return .error text

/-- A read of the claim. -/
def getClaim (name claim : String) : Client Reply := do
  match ← getOrCreate name claim with
  | .error text => return .fail (clientError text)
  | .ok (_, rec) => return .ok rec

/-- The end of an operation after its `Update`: the new record is stored and returned. -/
def finish (proc : Nat) (id : OperationID) (claim : String) (v : Except String LeaseObject)
    (onError : String → Err) : Client Reply := do
  match v with
  | .error text => return .fail (onError text)
  | .ok l =>
    let out := recordFromLease claim l
    storeOp proc id (.ok out)
    return .ok out

/-- The error of a failed `Update` in `AcquireClaim`. -/
def acquireError (text : String) : Err :=
  if isConflict text then .of .claimHeld else clientError text

/-- A grant, or an extension for the owner. -/
def acquireClaim (proc : Nat) (name : String) (req : AcquireRequest) : Client Reply := do
  match ← recallOp proc req.operationID with
  | some r => return r
  | none =>
    match ← getOrCreate name req.claimName with
    | .error text => return .fail (clientError text)
    | .ok (l, rec) =>
      if rec.phase.held then
        if rec.ownerGeneration = req.generationID then
          let v ← writeRecord req.ttl (renewed rec) l
          finish proc req.operationID req.claimName v acquireError
        else
          let r : Reply := { record := some rec, err := some (.of .claimHeld) }
          storeOp proc req.operationID r
          return r
      else if maxSafeFencingToken ≤ rec.fencingToken then
        let r : Reply := .fail (.of .tokenOverflow)
        storeOp proc req.operationID r
        return r
      else
        let now : Time ← command .now
        let v ← writeRecord req.ttl (granted now req.generationID rec) l
        finish proc req.operationID req.claimName v acquireError

/-- An extension for the owner. -/
def renewClaim (proc : Nat) (name : String) (req : RenewRequest) : Client Reply := do
  match ← recallOp proc req.operationID with
  | some r => return r
  | none =>
    match ← getOrCreate name req.claimName with
    | .error text => return .fail (clientError text)
    | .ok (l, rec) =>
      if rec.ownerGeneration ≠ req.generationID then return .fail (.of .notOwner)
      else if rec.fencingToken ≠ req.token then return .fail (.of .staleToken)
      else if ¬ rec.phase.held then return .fail (.of .notOwner)
      else
        let v ← writeRecord req.ttl (renewed rec) l
        finish proc req.operationID req.claimName v clientError

/-- A reservation for a successor. -/
def prepareTransfer (proc : Nat) (name : String) (req : TransferRequest) : Client Reply := do
  match ← recallOp proc req.operationID with
  | some r => return r
  | none =>
    match ← getOrCreate name req.claimName with
    | .error text => return .fail (clientError text)
    | .ok (l, rec) =>
      if rec.ownerGeneration ≠ req.fromGeneration then return .fail (.of .notOwner)
      else if rec.fencingToken ≠ req.token then return .fail (.of .staleToken)
      else if rec.phase = .reserved ∧ rec.pendingSuccessor ≠ "" ∧
          rec.pendingSuccessor ≠ req.toGeneration then return .fail (.of .concurrentTransfer)
      else if rec.phase = .reserved ∧ rec.pendingSuccessor = req.toGeneration then
        storeOp proc req.operationID (.ok rec)
        return .ok rec
      else
        let v ← writeRecord req.ttl (reservedFor req.toGeneration rec) l
        finish proc req.operationID req.claimName v clientError

/-- The transfer has been committed. -/
def alreadyCommitted (req : CommitRequest) (rec : ClaimRecord) : Bool :=
  rec.phase = .owned ∧ rec.ownerGeneration = req.toGeneration ∧
    rec.fencingToken = wrapSucc req.expectedToken ∧ rec.transferStatus = .committed

/-- The successor becomes the owner. -/
def commitTransfer (proc : Nat) (name : String) (req : CommitRequest) : Client Reply := do
  match ← recallOp proc req.operationID with
  | some r => return r
  | none =>
    match ← getOrCreate name req.claimName with
    | .error text => return .fail (clientError text)
    | .ok (l, rec) =>
      if alreadyCommitted req rec then
        storeOp proc req.operationID (.ok rec)
        return .ok rec
      else if rec.phase ≠ .reserved then return .fail (.of .noTransfer)
      else if rec.ownerGeneration ≠ req.fromGeneration ∨
          rec.pendingSuccessor ≠ req.toGeneration then return .fail (.of .concurrentTransfer)
      else if rec.fencingToken ≠ req.expectedToken then return .fail (.of .staleToken)
      else if maxSafeFencingToken ≤ rec.fencingToken then
        let r : Reply := .fail (.of .tokenOverflow)
        storeOp proc req.operationID r
        return r
      else
        let now : Time ← command .now
        let v ← writeRecord req.ttl (committedTo now req.toGeneration rec) l
        finish proc req.operationID req.claimName v clientError

/-- The reservation is given up. -/
def abortTransfer (proc : Nat) (name : String) (req : AbortRequest) : Client Reply := do
  match ← recallOp proc req.operationID with
  | some r => return r
  | none =>
    match ← getOrCreate name req.claimName with
    | .error text => return .fail (clientError text)
    | .ok (l, rec) =>
      if rec.phase ≠ .reserved then
        if rec.ownerGeneration = req.fromGeneration ∧ rec.phase = .owned then
          storeOp proc req.operationID (.ok rec)
          return .ok rec
        else return .fail (.of .noTransfer)
      else if rec.fencingToken ≠ req.expectedToken then return .fail (.of .staleToken)
      else if rec.ownerGeneration ≠ req.fromGeneration then return .fail (.of .notOwner)
      else
        let v ← writeRecord (15 * second) (rolledBack rec) l
        finish proc req.operationID req.claimName v clientError

/-- `ReleaseClaim`: an error only, which it stores. -/
def releaseClaim (proc : Nat) (name : String) (req : ReleaseRequest) : Client Reply := do
  match ← recallOp proc req.operationID with
  | some r => return { err := r.err }
  | none =>
    match ← getOrCreate name req.claimName with
    | .error text => return .fail (clientError text)
    | .ok (l, rec) =>
      if rec.fencingToken ≠ req.token then return .fail (.of .staleToken)
      else if rec.ownerGeneration ≠ req.generationID then
        if rec.phase = .unowned then
          storeOp proc req.operationID {}
          return {}
        else return .fail (.of .notOwner)
      else
        let v : Except String LeaseObject ← writeRecord (15 * second) (givenUp rec) l
        let r : Reply := { err := match v with
          | .error text => some (clientError text)
          | .ok _ => none }
        storeOp proc req.operationID r
        return r

/-! ## Any number of processes -/

/-- The calls of the backend. -/
inductive Call where
  | acquireClaim (req : AcquireRequest)
  | renewClaim (req : RenewRequest)
  | prepareTransfer (req : TransferRequest)
  | commitTransfer (req : CommitRequest)
  | abortTransfer (req : AbortRequest)
  | releaseClaim (req : ReleaseRequest)
  | getClaim (name : String)
  deriving DecidableEq, Repr

namespace Call

/-- The generations that a call names. -/
def generations : Call → List String
  | .acquireClaim req => [req.generationID]
  | .renewClaim req => [req.generationID]
  | .prepareTransfer req => [req.fromGeneration, req.toGeneration]
  | .commitTransfer req => [req.fromGeneration, req.toGeneration]
  | .abortTransfer req => [req.fromGeneration]
  | .releaseClaim req => [req.generationID]
  | .getClaim _ => []

/-- The program of a call in process `proc`, which has lease names with `pre` in front. -/
def code (proc : Nat) (pre : String) : Call → Client Reply
  | .acquireClaim req => Kubernetes.acquireClaim proc (pre ++ req.claimName) req
  | .renewClaim req => Kubernetes.renewClaim proc (pre ++ req.claimName) req
  | .prepareTransfer req => Kubernetes.prepareTransfer proc (pre ++ req.claimName) req
  | .commitTransfer req => Kubernetes.commitTransfer proc (pre ++ req.claimName) req
  | .abortTransfer req => Kubernetes.abortTransfer proc (pre ++ req.claimName) req
  | .releaseClaim req => Kubernetes.releaseClaim proc (pre ++ req.claimName) req
  | .getClaim claim => Kubernetes.getClaim (pre ++ claim) claim

end Call

/-- A call with non-empty generation IDs, in one of the processes. -/
structure Task where
  proc : Nat
  call : Call
  named : ∀ g ∈ call.generations, g ≠ ""

/-- The processes that share one server; process `p` has the lease name prefix `pre p`. Calls start
at any time and their steps interleave. -/
def processes (pre : Nat → String) : Sys Cmd Cmd.Answer Store Env Empty Task Reply where
  exec := exec
  env x := nomatch x
  fork _ _ := none
  code t := Sum.inl <$> t.call.code t.proc (pre t.proc)

end ShiftLock.Kubernetes
