import ShiftLock.Types

/-!
# The in-memory backend (`backend/memory/memory.go`)

`Backend` is the ownership store behind one mutex. A mutating call is two critical sections:
`beforeMutate` (closed, partition, injected failure, delay) and the operation itself, whose name
ends in `Locked` here. A call reads the clock up to three times (the expiry rule, the operation,
the notification), and the readings may differ: `Call` has one field for each.

Go returns a record and an error side by side, and `ErrClaimHeld` comes with the record of the
holder: `Reply` keeps both. The operation table stores replies.
-/

namespace ShiftLock.Memory

open Function (update)

/-- What a call returns: `(*ClaimRecord, error)`. -/
structure Reply where
  record : Option ClaimRecord := none
  err : Option Err := none
  deriving DecidableEq, Repr

namespace Reply

/-- `&cp, nil`. -/
def ok (r : ClaimRecord) : Reply := { record := some r }

/-- `nil, err`. -/
def fail (e : Err) : Reply := { err := some e }

end Reply

/-- What the environment fixes for one call: the readings of `b.clock` and, when the call has to
wait out a delay, the error of a context that is done first. -/
structure Call where
  expireNow : Time := 0
  now : Time := 0
  notifyNow : Time := 0
  ctxErr : Option Err := none
  deriving DecidableEq, Repr

/-- A call in which every reading of the clock is `t`. -/
def Call.at (t : Time) : Call := { expireNow := t, now := t, notifyNow := t }

/-- `watchChan`: a subscriber's channel with the events it has buffered. -/
structure WatchChan where
  ch : List ClaimEvent := []
  closed : Bool := false
  deriving DecidableEq, Repr

/-- `make(chan shiftlock.ClaimEvent, 16)`. -/
def watchCapacity : Nat := 16

/-- The send in `notifyLocked`: dropped when the channel is closed or full. -/
def WatchChan.send (w : WatchChan) (ev : ClaimEvent) : WatchChan :=
  if w.closed then w
  else if w.ch.length < watchCapacity then { w with ch := w.ch ++ [ev] } else w

structure Backend where
  gens : String → Option Generation := fun _ => none
  claims : String → Option ClaimRecord := fun _ => none
  watchers : String → List WatchChan := fun _ => []
  ops : OperationID → Option Reply := fun _ => none
  partitionEnabled : Bool := false
  partitioned : Bool := false
  failNext : Option Err := none
  delay : Duration := 0
  crashOnCommit : Bool := false
  failPrepareAt : Int := 0
  prepareCount : Int := 0
  closed : Bool := false

/-- `New`, with or without `WithPartitionSimulation`. -/
def new (partitionEnabled : Bool := false) : Backend := { partitionEnabled }

def advanceToken (cur : FencingToken) : Except Err FencingToken :=
  if maxSafeFencingToken ≤ cur then .error (.of .tokenOverflow) else .ok (cur + 1)

/-- The record that `AcquireClaim` creates for an unknown claim. -/
def freshRecord (name : String) : ClaimRecord := { name }

/-- The rule of `expireLocked` on one record: the owner goes, the token stays. -/
def expire (now : Time) (cl : ClaimRecord) : ClaimRecord :=
  if cl.phase.held ∧ cl.expiresAt ≠ 0 ∧ cl.expiresAt < now then
    { cl with
      previousOwner := cl.ownerGeneration
      ownerGeneration := ""
      pendingSuccessor := ""
      phase := .unowned
      drainStatus := .unset
      transferStatus := .unset
      reason := .expired
      version := wrapSucc cl.version }
  else cl

/-! ## The record updates of the operations -/

section

variable (now : Time) (ttl : Duration) (next : FencingToken) (gen : String) (cl : ClaimRecord)

/-- `AcquireClaim` by the owner itself: a longer lease. -/
def extended : ClaimRecord :=
  { cl with expiresAt := now + ttl, lastHeartbeat := now, reason := .renewed }

/-- `RenewClaim`. -/
def renewed : ClaimRecord :=
  { cl with
    expiresAt := now + ttl
    lastHeartbeat := now
    reason := .renewed
    version := wrapSucc cl.version }

/-- `AcquireClaim` of a claim without an owner. -/
def granted : ClaimRecord :=
  { cl with
    previousOwner := cl.ownerGeneration
    ownerGeneration := gen
    fencingToken := next
    phase := .owned
    acquiredAt := now
    expiresAt := now + ttl
    lastHeartbeat := now
    pendingSuccessor := ""
    transferStatus := .unset
    drainStatus := .unset
    reason := .acquired
    version := wrapSucc cl.version }

/-- `PrepareTransfer`. -/
def reservedFor : ClaimRecord :=
  { cl with
    phase := .reserved
    pendingSuccessor := gen
    transferStatus := .prepared
    drainStatus := .complete
    expiresAt := now + ttl
    lastHeartbeat := now
    reason := .transferPrepared
    version := wrapSucc cl.version }

/-- `CommitTransfer`. -/
def committedTo : ClaimRecord :=
  { cl with
    previousOwner := cl.ownerGeneration
    ownerGeneration := gen
    fencingToken := next
    phase := .owned
    pendingSuccessor := ""
    transferStatus := .committed
    drainStatus := .unset
    acquiredAt := now
    expiresAt := now + ttl
    lastHeartbeat := now
    reason := .transferCommitted
    version := wrapSucc cl.version }

/-- `AbortTransfer`. -/
def rolledBack : ClaimRecord :=
  { cl with
    pendingSuccessor := ""
    phase := .owned
    transferStatus := .aborted
    reason := .transferAborted
    version := wrapSucc cl.version }

/-- `ReleaseClaim`. -/
def givenUp : ClaimRecord :=
  { cl with
    previousOwner := cl.ownerGeneration
    ownerGeneration := ""
    pendingSuccessor := ""
    phase := .unowned
    transferStatus := .unset
    drainStatus := .unset
    reason := .released
    version := wrapSucc cl.version }

end

namespace Backend

/-- `b.claims[name] = cl`. -/
def setClaim (b : Backend) (name : String) (cl : ClaimRecord) : Backend :=
  { b with claims := update b.claims name (some cl) }

def recallOp (b : Backend) (id : OperationID) : Option Reply := if id = "" then none else b.ops id

def storeOp (b : Backend) (id : OperationID) (r : Reply) : Backend :=
  if id = "" then b else { b with ops := update b.ops id (some r) }

/-- `beforeMutate`: the error of a refused call. An injected failure is used up. -/
def beforeMutate (b : Backend) (c : Call) : Backend × Option Err :=
  if b.closed then (b, some (.of .closed))
  else if b.partitionEnabled && b.partitioned then
    (b, some (.typed {
      op := "memory", err := .sentinel .backend, message := "partitioned", reason := .partition }))
  else
    let b' := { b with failNext := none }
    match b.failNext with
    | some err => (b', some err)
    | none => if 0 < b.delay then (b', c.ctxErr) else (b', none)

def expireLocked (b : Backend) (now : Time) (name : String) : Backend :=
  match b.claims name with
  | none => b
  | some cl => b.setClaim name (expire now cl)

def notifyLocked (b : Backend) (c : Call) (cl : ClaimRecord) (reason : TransitionReason) :
    Backend :=
  let ev : ClaimEvent := { claim := cl, time := c.notifyNow, reason }
  { b with
    watchers := update b.watchers cl.name ((b.watchers cl.name).map (·.send ev)) }

/-- `AcquireClaim` behind the mutex. -/
def acquireLocked (b : Backend) (c : Call) (req : AcquireRequest) : Backend × Reply :=
  match b.recallOp req.operationID with
  | some r => (b, r)
  | none =>
    let b := b.expireLocked c.expireNow req.claimName
    let cl := (b.claims req.claimName).getD (freshRecord req.claimName)
    let b := b.setClaim req.claimName cl
    if cl.phase.held then
      if cl.ownerGeneration = req.generationID then
        let cl := extended c.now req.ttl cl
        ((b.setClaim req.claimName cl).storeOp req.operationID (.ok cl), .ok cl)
      else
        let r : Reply := { record := some cl, err := some (.of .claimHeld) }
        (b.storeOp req.operationID r, r)
    else
      match advanceToken cl.fencingToken with
      | .error err =>
        (b.storeOp req.operationID (.fail err),
          .fail (.typed {
            op := "AcquireClaim"
            err := .sentinel .tokenOverflow
            message := "claim unavailable due to token overflow" }))
      | .ok next =>
        let cl := granted c.now req.ttl next req.generationID cl
        (((b.setClaim req.claimName cl).notifyLocked c cl .acquired).storeOp req.operationID
          (.ok cl), .ok cl)

/-- `RenewClaim` behind the mutex. -/
def renewLocked (b : Backend) (c : Call) (req : RenewRequest) : Backend × Reply :=
  match b.recallOp req.operationID with
  | some r => (b, r)
  | none =>
    let b := b.expireLocked c.expireNow req.claimName
    match b.claims req.claimName with
    | none => (b, .fail (.of .claimNotFound))
    | some cl =>
      if cl.ownerGeneration ≠ req.generationID then (b, .fail (.of .notOwner))
      else if cl.fencingToken ≠ req.token then (b, .fail (.of .staleToken))
      else if ¬ cl.phase.held then (b, .fail (.of .notOwner))
      else
        let cl := renewed c.now req.ttl cl
        ((b.setClaim req.claimName cl).storeOp req.operationID (.ok cl), .ok cl)

/-- `PrepareTransfer` behind the mutex, after the check for an injected failure. -/
def reserveLocked (b : Backend) (c : Call) (req : TransferRequest) : Backend × Reply :=
  match b.recallOp req.operationID with
  | some r => (b, r)
  | none =>
    let b := b.expireLocked c.expireNow req.claimName
    match b.claims req.claimName with
    | none => (b, .fail (.of .claimNotFound))
    | some cl =>
      if cl.ownerGeneration ≠ req.fromGeneration then (b, .fail (.of .notOwner))
      else if cl.fencingToken ≠ req.token then (b, .fail (.of .staleToken))
      else if cl.phase = .reserved ∧ cl.pendingSuccessor ≠ "" ∧
          cl.pendingSuccessor ≠ req.toGeneration then (b, .fail (.of .concurrentTransfer))
      else if cl.phase = .reserved ∧ cl.pendingSuccessor = req.toGeneration then
        (b.storeOp req.operationID (.ok cl), .ok cl)
      else
        let cl := reservedFor c.now req.ttl req.toGeneration cl
        (((b.setClaim req.claimName cl).notifyLocked c cl .transferPrepared).storeOp
          req.operationID (.ok cl), .ok cl)

/-- `PrepareTransfer` behind the mutex. An injected failure comes before the replay. -/
def prepareLocked (b : Backend) (c : Call) (req : TransferRequest) : Backend × Reply :=
  let b := { b with prepareCount := b.prepareCount + 1 }
  if 0 < b.failPrepareAt ∧ b.prepareCount = b.failPrepareAt then
    ({ b with failPrepareAt := 0 },
      .fail (.typed {
        op := "PrepareTransfer", err := .sentinel .backend, message := "injected prepare failure" }))
  else b.reserveLocked c req

/-- `CommitTransfer` behind the mutex. The simulated crash comes after the replay and is not
stored. -/
def commitLocked (b : Backend) (c : Call) (req : CommitRequest) : Backend × Reply :=
  match b.recallOp req.operationID with
  | some r => (b, r)
  | none =>
    if b.crashOnCommit then
      ({ b with crashOnCommit := false },
        .fail (.typed {
          op := "CommitTransfer", err := .sentinel .backend, message := "simulated crash" }))
    else
      let b := b.expireLocked c.expireNow req.claimName
      match b.claims req.claimName with
      | none => (b, .fail (.of .claimNotFound))
      | some cl =>
        if cl.phase = .owned ∧ cl.ownerGeneration = req.toGeneration ∧
            cl.fencingToken = wrapSucc req.expectedToken ∧ cl.transferStatus = .committed then
          (b.storeOp req.operationID (.ok cl), .ok cl)
        else if cl.phase ≠ .reserved then (b, .fail (.of .noTransfer))
        else if cl.ownerGeneration ≠ req.fromGeneration ∨
            cl.pendingSuccessor ≠ req.toGeneration then (b, .fail (.of .concurrentTransfer))
        else if cl.fencingToken ≠ req.expectedToken then (b, .fail (.of .staleToken))
        else
          match advanceToken cl.fencingToken with
          | .error err => (b.storeOp req.operationID (.fail err), .fail err)
          | .ok next =>
            let cl := committedTo c.now req.ttl next req.toGeneration cl
            (((b.setClaim req.claimName cl).notifyLocked c cl .transferCommitted).storeOp
              req.operationID (.ok cl), .ok cl)

/-- `AbortTransfer` behind the mutex. -/
def abortLocked (b : Backend) (c : Call) (req : AbortRequest) : Backend × Reply :=
  match b.recallOp req.operationID with
  | some r => (b, r)
  | none =>
    let b := b.expireLocked c.expireNow req.claimName
    match b.claims req.claimName with
    | none => (b, .fail (.of .claimNotFound))
    | some cl =>
      if cl.phase ≠ .reserved then
        if cl.ownerGeneration = req.fromGeneration ∧ cl.phase = .owned then
          (b.storeOp req.operationID (.ok cl), .ok cl)
        else (b, .fail (.of .noTransfer))
      else if cl.fencingToken ≠ req.expectedToken then (b, .fail (.of .staleToken))
      else if cl.ownerGeneration ≠ req.fromGeneration then (b, .fail (.of .notOwner))
      else
        let cl := rolledBack cl
        (((b.setClaim req.claimName cl).notifyLocked c cl .transferAborted).storeOp
          req.operationID (.ok cl), .ok cl)

/-- `ReleaseClaim` behind the mutex. It returns an error only: the stored record of a replay is
not part of the reply. -/
def releaseLocked (b : Backend) (c : Call) (req : ReleaseRequest) : Backend × Option Err :=
  match b.recallOp req.operationID with
  | some r => (b, r.err)
  | none =>
    let b := b.expireLocked c.expireNow req.claimName
    match b.claims req.claimName with
    | none => (b, some (.of .claimNotFound))
    | some cl =>
      if cl.fencingToken ≠ req.token then (b, some (.of .staleToken))
      else if cl.ownerGeneration ≠ req.generationID then
        if cl.phase = .unowned then (b.storeOp req.operationID {}, none)
        else (b, some (.of .notOwner))
      else
        let cl := givenUp cl
        (((b.setClaim req.claimName cl).notifyLocked c cl .released).storeOp req.operationID
          (.ok cl), none)

/-- `GetClaim`: no `beforeMutate`, but the expiry rule. -/
def getClaim (b : Backend) (c : Call) (name : String) : Backend × Reply :=
  let b := b.expireLocked c.expireNow name
  match b.claims name with
  | none => (b, .fail (.of .claimNotFound))
  | some cl => (b, .ok cl)

/-- `RegisterGeneration` and `UpdateGeneration` behind the mutex. -/
def putGeneration (b : Backend) (gen : Generation) : Backend :=
  { b with gens := update b.gens gen.id (some gen) }

/-- `WatchClaim`: a new subscription, or `ErrClosed`. -/
def watchClaim (b : Backend) (name : String) : Backend × Option Err :=
  if b.closed then (b, some (.of .closed))
  else ({ b with watchers := update b.watchers name (b.watchers name ++ [{}]) }, none)

/-- The goroutine of `WatchClaim` once its context is done: subscription `i` goes. -/
def unwatch (b : Backend) (name : String) (i : Nat) : Backend :=
  { b with watchers := update b.watchers name ((b.watchers name).eraseIdx i) }

/-- A subscriber receives the oldest event of its channel. -/
def receive (b : Backend) (name : String) (i : Nat) : Backend :=
  { b with
    watchers := update b.watchers name
      ((b.watchers name).modify i fun w => { w with ch := w.ch.tail }) }

def close (b : Backend) : Backend :=
  if b.closed then b else { b with closed := true, watchers := fun _ => [] }

end Backend

/-! ## The interface -/

/-- The calls on a backend: the claim operations, the generations, the watches, and the methods
that inject failures. -/
inductive Op where
  | acquireClaim (req : AcquireRequest)
  | renewClaim (req : RenewRequest)
  | prepareTransfer (req : TransferRequest)
  | commitTransfer (req : CommitRequest)
  | abortTransfer (req : AbortRequest)
  | releaseClaim (req : ReleaseRequest)
  | getClaim (name : String)
  | registerGeneration (gen : Generation)
  | updateGeneration (gen : Generation)
  | watchClaim (name : String)
  | unwatch (name : String) (i : Nat)
  | receive (name : String) (i : Nat)
  | setPartition (on : Bool)
  | failNext (err : Err)
  | setDelay (d : Duration)
  | crashOnCommit (v : Bool)
  | failPrepareAt (n : Int)
  | close
  deriving DecidableEq, Repr

namespace Op

/-- The calls that `beforeMutate` guards. -/
def mutating : Op → Bool
  | .acquireClaim _ | .renewClaim _ | .prepareTransfer _ | .commitTransfer _ | .abortTransfer _
  | .releaseClaim _ | .registerGeneration _ | .updateGeneration _ => true
  | _ => false

def operationID : Op → Option OperationID
  | .acquireClaim req => some req.operationID
  | .renewClaim req => some req.operationID
  | .prepareTransfer req => some req.operationID
  | .commitTransfer req => some req.operationID
  | .abortTransfer req => some req.operationID
  | .releaseClaim req => some req.operationID
  | _ => none

def claimName : Op → Option String
  | .acquireClaim req => some req.claimName
  | .renewClaim req => some req.claimName
  | .prepareTransfer req => some req.claimName
  | .commitTransfer req => some req.claimName
  | .abortTransfer req => some req.claimName
  | .releaseClaim req => some req.claimName
  | .getClaim name => some name
  | _ => none

/-- Every generation ID of the request is non-empty. -/
def Named : Op → Prop
  | .acquireClaim req => req.generationID ≠ ""
  | .renewClaim req => req.generationID ≠ ""
  | .prepareTransfer req => req.fromGeneration ≠ "" ∧ req.toGeneration ≠ ""
  | .commitTransfer req => req.fromGeneration ≠ "" ∧ req.toGeneration ≠ ""
  | .abortTransfer req => req.fromGeneration ≠ "" ∧ req.toGeneration ≠ ""
  | .releaseClaim req => req.generationID ≠ ""
  | _ => True

end Op

namespace Backend

/-- The critical section of a call. -/
def locked (b : Backend) (c : Call) : Op → Backend × Reply
  | .acquireClaim req => b.acquireLocked c req
  | .renewClaim req => b.renewLocked c req
  | .prepareTransfer req => b.prepareLocked c req
  | .commitTransfer req => b.commitLocked c req
  | .abortTransfer req => b.abortLocked c req
  | .releaseClaim req => let (b, err) := b.releaseLocked c req; (b, { err })
  | .getClaim name => b.getClaim c name
  | .registerGeneration gen => (b.putGeneration gen, {})
  | .updateGeneration gen => (b.putGeneration gen, {})
  | .watchClaim name => let (b, err) := b.watchClaim name; (b, { err })
  | .unwatch name i => (b.unwatch name i, {})
  | .receive name i => (b.receive name i, {})
  | .setPartition on => ({ b with partitioned := on }, {})
  | .failNext err => ({ b with failNext := some err }, {})
  | .setDelay d => ({ b with delay := d }, {})
  | .crashOnCommit v => ({ b with crashOnCommit := v }, {})
  | .failPrepareAt n => ({ b with failPrepareAt := n, prepareCount := 0 }, {})
  | .close => (b.close, {})

/-- One call on the backend. A mutating call runs `beforeMutate` first. -/
def apply (b : Backend) (c : Call) (op : Op) : Backend × Reply :=
  if op.mutating then
    match b.beforeMutate c with
    | (b, some err) => (b, .fail err)
    | (b, none) => b.locked c op
  else b.locked c op

/-- The record of a claim; a claim that was never acquired reads as a fresh one. -/
def recordOf (b : Backend) (name : String) : ClaimRecord :=
  (b.claims name).getD (freshRecord name)

end Backend

/-- A call with what the environment fixes for it. -/
structure Input where
  call : Call := {}
  op : Op

def step (b : Backend) (x : Input) : Backend := (b.apply x.call x.op).1

end ShiftLock.Memory
