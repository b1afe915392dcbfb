import ShiftLock.Coord.Config
import ShiftLock.Coord.Drain
import ShiftLock.Memory.Backend
import Mathlib.Data.List.AList

/-!
# The state of a coordinator (`coordinator.go`, `claim.go`, `handoff.go`, `event.go`)

One definition for each critical section of `Coordinator`, `Claim` and `Handoff`: what the code
between a `Lock` and its `Unlock` does to the fields and what it tells the code after it. The
programs between the sections are in `ShiftLock.Coord.Code`.

* A `Lease` is a pointer in the source; its `id` is that identity. `revoke` and `c.lease = nil` are
  always done together, so a lease is valid while it is the lease of its claim and the supervisor
  is not shut down (`live`).
* A claim that nobody asked for is in its initial state; `Coord.known` has the keys of the map.
* `acquireCh` only wakes up `WaitForOwnership` and is left out.
* The event bus is a log. The error text of an event is kept as the error; the time, service,
  generation and instance that `emit` fills in are left out.
-/

namespace ShiftLock

/-! ## Events -/

inductive EventType where
  | generationRegistered | generationState | claimAcquired | claimRenewed | claimLost
  | claimReleased | drainStarted | drainCompleted | drainFailed | transferPrepared
  | transferCommitted | transferAborted | handoffStarted | handoffCompleted | handoffFailed
  | readinessStarted | readinessPassed | readinessFailed | leaseRevoked | backendHeartbeat | error
  | closed
  deriving DecidableEq, Repr

/-- `Event`; `successor` is its only attribute. -/
structure Event where
  type : EventType
  claim : String := ""
  token : FencingToken := 0
  fromState : Option GenerationState := none
  toState : Option GenerationState := none
  reason : TransitionReason := .unset
  err : Option Err := none
  successor : Option String := none
  deriving DecidableEq, Repr

/-! ## Claims -/

structure Lease where
  id : Nat
  token : FencingToken
  deriving DecidableEq, Repr

structure Claim where
  name : String
  record : ClaimRecord := { name }
  lease : Option Lease := none
  drain : DrainGroup := .new 0
  closed : Bool := false
  acquiring : Bool := false
  renewing : Bool := false

/-- How `tryAcquire` leaves its first section. -/
inductive AcquireEntry where
  | closed
  | valid (l : Lease)
  | busy
  | entered
  deriving DecidableEq, Repr

/-- How `tryAcquire` leaves the section behind a successful `AcquireClaim`. -/
inductive InstallResult where
  | closed
  | valid (l : Lease)
  | notOwned
  | installed (l : Lease)
  deriving DecidableEq, Repr

namespace Claim

section

variable (live : Bool) (genID : String) (c : Claim)

/-- `c.lease` if it is not nil and `Valid`. -/
def validLease : Option Lease := if live then c.lease else none

/-- `tryAcquire`: the checks before the backend is asked. -/
def tryAcquireBegin : Claim × AcquireEntry :=
  if c.closed then (c, .closed)
  else
    match c.validLease live with
    | some l => (c, .valid l)
    | none => if c.acquiring then (c, .busy) else ({ c with acquiring := true }, .entered)

/-- `tryAcquire`: the record is applied and a lease with identity `id` is installed. -/
def tryAcquireInstall (id : Nat) (rec : ClaimRecord) : Claim × InstallResult :=
  if c.closed then (c, .closed)
  else
    match c.validLease live with
    | some l => (c, .valid l)
    | none =>
      let c := { c with lease := none, record := rec }
      if rec.ownedBy genID then
        let l : Lease := { id, token := rec.fencingToken }
        ({ c with lease := some l }, .installed l)
      else (c, .notOwned)

/-- `tryAcquire`: the deferred function. -/
def tryAcquireEnd : Claim := { c with acquiring := false }

def revokeLease (reason : TransitionReason) : Claim × List Event :=
  let c := { c with renewing := false }
  match c.lease with
  | none => (c, [])
  | some _ => ({ c with lease := none }, [{ type := .leaseRevoked, claim := c.name, reason }])

def markRenewing : Claim × Bool :=
  if c.renewing then (c, false) else ({ c with renewing := true }, true)

def clearRenewing : Claim := { c with renewing := false }

def applyRecord (rec : ClaimRecord) : Claim × List Event :=
  let c := { c with record := rec }
  match c.lease with
  | none => (c, [])
  | some l =>
    if rec.controls genID then
      ({ c with lease := some { l with token := rec.fencingToken } }, [])
    else
      ({ c with renewing := false, lease := none },
        [{ type := .claimLost, claim := c.name, token := rec.fencingToken, reason := .fencedOut }])

/-- `restoreLease`: its own section. -/
def setRecord (rec : ClaimRecord) : Claim := { c with record := rec }

/-- `ensureLocalLease`, with the identity of a new lease; whether a renewal has to be started. -/
def ensureLocalLease (id : Nat) : Claim × Bool :=
  if c.closed then (c, false)
  else if ¬ c.record.controls genID then (c, false)
  else
    match c.validLease live with
    | some l =>
      ({ c with lease := some { l with token := c.record.fencingToken } }, !c.renewing)
    | none => ({ c with lease := some { id, token := c.record.fencingToken } }, true)

def currentLeaseToken : Option FencingToken :=
  match c.validLease live with
  | some l => some l.token
  | none => if c.record.controls genID then some c.record.fencingToken else none

/-- `Claim.close`, before it closes the drain group. -/
def close : Claim := { c with closed := true, renewing := false, lease := none }

def setDrain (g : DrainGroup) : Claim := { c with drain := g }

end

end Claim

/-! ## Coordinators -/

/-- `Coordinator`. -/
structure Coord where
  gen : Generation
  claims : String → Claim := fun name => { name }
  known : List String := []
  closed : Bool := false
  opSeq : Nat := 0
  lastHeartbeat : Time := 0
  /-- The supervisor is shut down: its context is done and it starts no goroutine. -/
  shutdown : Bool := false
  /-- The identity of the next lease. -/
  nextLease : Nat := 0
  /-- The number of handoffs so far. -/
  handoffs : Nat := 0
  log : List Event := []

/-- How `setState` leaves its section. -/
inductive StateChange where
  | same
  | invalid (source : GenerationState)
  | changed (source : GenerationState) (gen : Generation)
  deriving DecidableEq, Repr

/-- `stategraph.allowed`. -/
def stateGraph : GenerationState → List GenerationState
  | .joining => [.standby, .preparing, .failed, .retired]
  | .standby => [.preparing, .active, .failed, .retired]
  | .preparing => [.standby, .active, .failed, .retired]
  | .active => [.draining, .transferring, .retired, .failed]
  | .draining => [.transferring, .active, .retired, .failed]
  | .transferring => [.retired, .active, .failed, .standby]
  | .retired => []
  | .failed => []

def canTransition (source target : GenerationState) : Bool := target ∈ stateGraph source

def GenerationState.text : GenerationState → String
  | .joining => "joining"
  | .standby => "standby"
  | .preparing => "preparing"
  | .active => "active"
  | .draining => "draining"
  | .transferring => "transferring"
  | .retired => "retired"
  | .failed => "failed"

/-- The loop of `itoa64`: the digits of `n` go in front of the buffer. -/
def itoaLoop : Nat → Nat → List Char → List Char
  | 0, _, b => b
  | fuel + 1, n, b =>
    if n = 0 then b else itoaLoop fuel (n / 10) (Char.ofNat ('0'.toNat + n % 10) :: b)

/-- `itoa64`. -/
def itoa64 (n : Nat) : String := if n = 0 then "0" else String.ofList (itoaLoop n n [])

/-- The ID that `newOpID` builds. -/
def opID (genID op claim : String) (n : Nat) : OperationID :=
  genID ++ ":" ++ op ++ ":" ++ claim ++ ":" ++ itoa64 n

namespace Coord

variable (c : Coord)

def checkOpen : Option Err := if c.closed then some (.of .closed) else none

/-- `newOpID`. The counter is a `uint64`; the model does not reach its end. -/
def newOpID (op claim : String) : Coord × OperationID :=
  ({ c with opSeq := c.opSeq + 1 }, opID c.gen.id op claim (c.opSeq + 1))

/-- `Claim`, once the coordinator is known to be open. -/
def claim (cfg : Config) (name : String) : Coord × Option Err :=
  if 0 < cfg.policy.maxConcurrentClaims ∧ cfg.policy.maxConcurrentClaims ≤ c.known.length ∧
      name ∉ c.known then
    (c, some (policyError "Claim" "MaxConcurrentClaims exceeded"))
  else if name ∈ c.known then (c, none)
  else ({ c with known := c.known ++ [name] }, none)

/-- `setState`: its section. -/
def setState (now : Time) (target : GenerationState) (reason : TransitionReason) :
    Coord × StateChange :=
  if c.gen.state = target then
    ({ c with gen := { c.gen with reason, updatedAt := now } }, .same)
  else if canTransition c.gen.state target then
    let gen := { c.gen with state := target, reason, updatedAt := now }
    ({ c with gen }, .changed c.gen.state gen)
  else (c, .invalid c.gen.state)

/-- The copy of the claims of `PrepareHandoff` and `Close`: Go's map order is not fixed, so the
environment may give any order. -/
def copyClaims (order : List String) : List String :=
  if order.Perm c.known then order else c.known

/-- `Close`: its section; `none` when it was closed before. -/
def closeBegin (order : List String) : Coord × Option (List String) :=
  if c.closed then (c, none) else ({ c with closed := true }, some (c.copyClaims order))

def emit (evs : List Event) : Coord := { c with log := c.log ++ evs }

/-- A section of claim `name`. -/
def setClaim (name : String) (cl : Claim) : Coord :=
  { c with claims := Function.update c.claims name cl }

end Coord

/-! ## Handoffs -/

inductive HandoffStatus where
  | pending | draining | transferring | committed | aborted | failed
  deriving DecidableEq, Repr

def HandoffStatus.text : HandoffStatus → String
  | .pending => "pending"
  | .draining => "draining"
  | .transferring => "transferring"
  | .committed => "committed"
  | .aborted => "aborted"
  | .failed => "failed"

/-- The map `h.tokens`. -/
abbrev Tokens := AList fun _ : String => FencingToken

structure Handoff where
  claims : List String := []
  status : HandoffStatus := .pending
  successorID : String := ""
  drainDone : Bool := false
  transferDone : Bool := false
  tokens : Tokens := ∅
  watcherStarted : Bool := false
  err : Option Err := none

/-- How `Transfer` leaves its first section. -/
inductive TransferEntry where
  | refused (err : Err)
  | needsDrain
  | started
  deriving DecidableEq, Repr

/-- How `Commit` and `Abort` leave their first section. -/
inductive SettleEntry where
  | returned (err : Option Err)
  | started (successor : String) (tokens : Tokens)

namespace Handoff

/-- An `ErrInvalidState` with an operation and a message. -/
def invalidState (op message : String) : Err :=
  .typed { op, err := .sentinel .invalidState, message }

variable (h : Handoff)

/-- `Drain`: its first section. -/
def drainBegin : Handoff × Option Err :=
  if h.status ≠ .pending ∧ h.status ≠ .draining then
    (h, some (invalidState "Handoff.Drain" h.status.text))
  else ({ h with status := .draining }, none)

/-- `Drain`: all claims are drained. -/
def drainEnd : Handoff := { h with drainDone := true }

/-- `Transfer`: the fields are set for the new successor. -/
def transferStart (successor : String) : Handoff :=
  { h with status := .transferring, successorID := successor, tokens := ∅ }

/-- `Transfer`: its first section, which goes on to `transferStart` unless `Drain` is missing. -/
def transferBegin (successor : String) : Handoff × TransferEntry :=
  if h.status = .committed ∨ h.status = .aborted then
    (h, .refused (invalidState "Handoff.Transfer" h.status.text))
  else if ¬ h.drainDone then (h, .needsDrain)
  else (h.transferStart successor, .started)

/-- `h.tokens[name] = token`. -/
def setToken (name : String) (token : FencingToken) : Handoff :=
  { h with tokens := h.tokens.insert name token }

/-- `delete(h.tokens, name)`. -/
def dropToken (name : String) : Handoff := { h with tokens := h.tokens.erase name }

/-- `Transfer`: all claims are reserved. -/
def transferEnd : Handoff := { h with transferDone := true }

/-- `Commit`: its first section. -/
def commitBegin : SettleEntry :=
  if ¬ h.transferDone then
    .returned (some (.typed {
      op := "Handoff.Commit", err := .sentinel .noTransfer, message := "call Transfer first" }))
  else if h.status = .committed then .returned none
  else if h.status = .aborted then .returned (some (.of .handoffAborted))
  else .started h.successorID h.tokens

/-- `Commit`: all claims are committed. -/
def commitEnd : Handoff := { h with status := .committed }

/-- `Abort`: its first section. -/
def abortBegin : Handoff × SettleEntry :=
  if h.status = .committed then
    (h, .returned (some (invalidState "Handoff.Abort" "already committed")))
  else ({ h with status := .aborted }, .started h.successorID h.tokens)

/-- `fail`: its section. -/
def fail (err : Err) : Handoff := { h with status := .failed, err := some err }

/-- `startTimeoutWatcher`: whether this call starts the watcher. -/
def watcherBegin : Handoff × Bool :=
  if h.watcherStarted then (h, false) else ({ h with watcherStarted := true }, true)

/-- The watcher once the timeout is over: whether it aborts. -/
def watcherCheck : Bool :=
  h.status = .transferring ∨ (h.status = .failed ∧ h.tokens.entries ≠ [])

end Handoff

structure World where
  backend : Memory.Backend
  coord : Coord
  handoffs : Nat → Handoff := fun _ => {}

end ShiftLock
