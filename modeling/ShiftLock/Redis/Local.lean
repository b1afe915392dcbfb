import ShiftLock.Memory.Backend

/-!
# The in-process stand-in for Redis (`backend/redis/local.go`)

`Local` keeps the claims as records behind one mutex. Every operation is one critical section that
reads the clock up to twice: in `expire`, and for the times it writes. `Clock` has both readings.

Four of the record updates are those of the memory backend, field by field: `renewed`,
`reservedFor`, `committedTo` and `rolledBack`. A grant and a release are not: `Local` leaves the
transfer and the drain status as they are.
-/

namespace ShiftLock.Redis

open Memory (Reply renewed reservedFor committedTo rolledBack)

/-- The readings of `time.Now()` in one call. -/
structure Clock where
  expireNow : Time
  now : Time
  deriving DecidableEq, Repr

structure Local where
  claims : String → Option ClaimRecord := fun _ => none
  gens : String → Option Generation := fun _ => none
  ops : OperationID → Option Reply := fun _ => none

def advanceLocal (cur : FencingToken) : Except Err FencingToken :=
  if maxSafeFencingToken ≤ cur then .error (.of .tokenOverflow) else .ok (cur + 1)

namespace Local

/-- `NewLocal`. -/
def new : Local := {}

def recalled (l : Local) (id : OperationID) : Option Reply := if id = "" then none else l.ops id

def store (l : Local) (id : OperationID) (r : Reply) : Local :=
  if id = "" then l else { l with ops := Function.update l.ops id (some r) }

/-- The record of a claim, written through its pointer. -/
def setClaim (l : Local) (name : String) (cl : ClaimRecord) : Local :=
  { l with claims := Function.update l.claims name (some cl) }

def expire (now : Time) (cl : ClaimRecord) : ClaimRecord :=
  if cl.expiresAt = 0 ∨ now < cl.expiresAt then cl
  else if cl.phase.held then
    { cl with
      previousOwner := cl.ownerGeneration
      ownerGeneration := ""
      pendingSuccessor := ""
      phase := .unowned
      reason := .expired
      version := wrapSucc cl.version }
  else cl

/-- `AcquireClaim` of a claim without an owner. -/
def granted (now : Time) (ttl : Duration) (next : FencingToken) (gen : String) (cl : ClaimRecord) :
    ClaimRecord :=
  { cl with
    ownerGeneration := gen
    fencingToken := next
    phase := .owned
    acquiredAt := now
    expiresAt := now + ttl
    lastHeartbeat := now
    reason := .acquired
    version := wrapSucc cl.version }

/-- `ReleaseClaim` by the owner. -/
def givenUp (cl : ClaimRecord) : ClaimRecord :=
  { cl with
    previousOwner := cl.ownerGeneration
    ownerGeneration := ""
    pendingSuccessor := ""
    phase := .unowned
    reason := .released
    version := wrapSucc cl.version }

/-- `ForceSetToken`, on the record. -/
def forced (tok : FencingToken) (cl : ClaimRecord) : ClaimRecord :=
  { cl with fencingToken := tok, phase := .unowned, ownerGeneration := "" }

def acquireClaim (l : Local) (t : Clock) (req : AcquireRequest) : Local × Reply :=
  match l.recalled req.operationID with
  | some r => (l, r)
  | none =>
    let cl := expire t.expireNow ((l.claims req.claimName).getD { name := req.claimName })
    let l := l.setClaim req.claimName cl
    if cl.phase.held then
      if cl.ownerGeneration = req.generationID then
        let cl := renewed t.now req.ttl cl
        ((l.setClaim req.claimName cl).store req.operationID (.ok cl), .ok cl)
      else
        let r : Reply := { record := some cl, err := some (.of .claimHeld) }
        (l.store req.operationID r, r)
    else
      match advanceLocal cl.fencingToken with
      | .error err => (l.store req.operationID (.fail err), .fail err)
      | .ok next =>
        let cl := granted t.now req.ttl next req.generationID cl
        ((l.setClaim req.claimName cl).store req.operationID (.ok cl), .ok cl)

def renewClaim (l : Local) (t : Clock) (req : RenewRequest) : Local × Reply :=
  match l.recalled req.operationID with
  | some r => (l, r)
  | none =>
    match l.claims req.claimName with
    | none => (l, .fail (.of .claimNotFound))
    | some cl =>
      let cl := expire t.expireNow cl
      let l := l.setClaim req.claimName cl
      if cl.ownerGeneration ≠ req.generationID then (l, .fail (.of .notOwner))
      else if cl.fencingToken ≠ req.token then (l, .fail (.of .staleToken))
      else if ¬ cl.phase.held then (l, .fail (.of .notOwner))
      else
        let cl := renewed t.now req.ttl cl
        ((l.setClaim req.claimName cl).store req.operationID (.ok cl), .ok cl)

def prepareTransfer (l : Local) (t : Clock) (req : TransferRequest) : Local × Reply :=
  match l.recalled req.operationID with
  | some r => (l, r)
  | none =>
    match l.claims req.claimName with
    | none => (l, .fail (.of .claimNotFound))
    | some cl =>
      let cl := expire t.expireNow cl
      let l := l.setClaim req.claimName cl
      if cl.ownerGeneration ≠ req.fromGeneration then (l, .fail (.of .notOwner))
      else if cl.fencingToken ≠ req.token then (l, .fail (.of .staleToken))
      else if cl.phase = .reserved ∧ cl.pendingSuccessor ≠ "" ∧
          cl.pendingSuccessor ≠ req.toGeneration then (l, .fail (.of .concurrentTransfer))
      else if cl.phase = .reserved ∧ cl.pendingSuccessor = req.toGeneration then
        (l.store req.operationID (.ok cl), .ok cl)
      else
        let cl := reservedFor t.now req.ttl req.toGeneration cl
        ((l.setClaim req.claimName cl).store req.operationID (.ok cl), .ok cl)

/-- The shortcut of `CommitTransfer`: the claim looks as if it had been committed already. -/
def alreadyCommitted (req : CommitRequest) (cl : ClaimRecord) : Bool :=
  cl.phase = .owned ∧ cl.ownerGeneration = req.toGeneration ∧
    cl.fencingToken = wrapSucc req.expectedToken ∧ cl.transferStatus = .committed

def commitTransfer (l : Local) (t : Clock) (req : CommitRequest) : Local × Reply :=
  match l.recalled req.operationID with
  | some r => (l, r)
  | none =>
    match l.claims req.claimName with
    | none => (l, .fail (.of .claimNotFound))
    | some cl =>
      let cl := expire t.expireNow cl
      let l := l.setClaim req.claimName cl
      if alreadyCommitted req cl then (l.store req.operationID (.ok cl), .ok cl)
      else if cl.phase ≠ .reserved then (l, .fail (.of .noTransfer))
      else if cl.ownerGeneration ≠ req.fromGeneration ∨ cl.pendingSuccessor ≠ req.toGeneration then
        (l, .fail (.of .concurrentTransfer))
      else if cl.fencingToken ≠ req.expectedToken then (l, .fail (.of .staleToken))
      else
        match advanceLocal cl.fencingToken with
        | .error err => (l.store req.operationID (.fail err), .fail err)
        | .ok next =>
          let cl := committedTo t.now req.ttl next req.toGeneration cl
          ((l.setClaim req.claimName cl).store req.operationID (.ok cl), .ok cl)

def abortTransfer (l : Local) (t : Clock) (req : AbortRequest) : Local × Reply :=
  match l.recalled req.operationID with
  | some r => (l, r)
  | none =>
    match l.claims req.claimName with
    | none => (l, .fail (.of .claimNotFound))
    | some cl =>
      let cl := expire t.expireNow cl
      let l := l.setClaim req.claimName cl
      if cl.phase ≠ .reserved then
        if cl.ownerGeneration = req.fromGeneration ∧ cl.phase = .owned then
          (l.store req.operationID (.ok cl), .ok cl)
        else (l, .fail (.of .noTransfer))
      else if cl.fencingToken ≠ req.expectedToken then (l, .fail (.of .staleToken))
      else if cl.ownerGeneration ≠ req.fromGeneration then (l, .fail (.of .notOwner))
      else
        let cl := rolledBack cl
        ((l.setClaim req.claimName cl).store req.operationID (.ok cl), .ok cl)

/-- `ReleaseClaim`: an error only. A release of an unowned claim succeeds. -/
def releaseClaim (l : Local) (t : Clock) (req : ReleaseRequest) : Local × Option Err :=
  match l.recalled req.operationID with
  | some r => (l, r.err)
  | none =>
    match l.claims req.claimName with
    | none => (l, some (.of .claimNotFound))
    | some cl =>
      let cl := expire t.expireNow cl
      let l := l.setClaim req.claimName cl
      if cl.fencingToken ≠ req.token then (l, some (.of .staleToken))
      else if cl.ownerGeneration ≠ req.generationID then
        if cl.phase = .unowned then (l.store req.operationID {}, none)
        else (l, some (.of .notOwner))
      else
        let cl := givenUp cl
        ((l.setClaim req.claimName cl).store req.operationID (.ok cl), none)

def getClaim (l : Local) (t : Clock) (name : String) : Local × Reply :=
  match l.claims name with
  | none => (l, .fail (.of .claimNotFound))
  | some cl =>
    let cl := expire t.expireNow cl
    (l.setClaim name cl, .ok cl)

/-- `RegisterGeneration` and `UpdateGeneration`. -/
def registerGeneration (l : Local) (gen : Generation) : Local :=
  { l with gens := Function.update l.gens gen.id (some gen) }

def forceSetToken (l : Local) (name : String) (tok : FencingToken) : Local :=
  let cl := (l.claims name).getD { name }
  l.setClaim name (forced tok cl)

end Local

/-- The operations on a `Local` that change it. -/
inductive LocalOp where
  | acquireClaim (req : AcquireRequest)
  | renewClaim (req : RenewRequest)
  | prepareTransfer (req : TransferRequest)
  | commitTransfer (req : CommitRequest)
  | abortTransfer (req : AbortRequest)
  | releaseClaim (req : ReleaseRequest)
  | getClaim (name : String)
  | registerGeneration (gen : Generation)
  | forceSetToken (name : String) (tok : FencingToken)
  deriving DecidableEq, Repr

/-- One call on a `Local`. -/
def Local.apply (l : Local) (t : Clock) : LocalOp → Local × Reply
  | .acquireClaim req => l.acquireClaim t req
  | .renewClaim req => l.renewClaim t req
  | .prepareTransfer req => l.prepareTransfer t req
  | .commitTransfer req => l.commitTransfer t req
  | .abortTransfer req => l.abortTransfer t req
  | .releaseClaim req => ((l.releaseClaim t req).1, { err := (l.releaseClaim t req).2 })
  | .getClaim name => l.getClaim t name
  | .registerGeneration gen => (l.registerGeneration gen, {})
  | .forceSetToken name tok => (l.forceSetToken name tok, {})

/-- A `Local` after one call. -/
def Local.step (l : Local) (x : Clock × LocalOp) : Local := (l.apply x.1 x.2).1

end ShiftLock.Redis
