import ShiftLock.Coord.Act
import ShiftLock.Memory.Success
import ShiftLock.Conc.Pool

/-!
# The code of a coordinator (`coordinator.go`, `claim.go`)

The functions of `Coordinator` and `Claim` as programs of atomic actions. A function that the
source defers runs where the program returns. `WaitForOwnership` and the renewal loop end a round
by continuing with the next one.

A successful reply without a record would be dereferenced by the source; the programs end such a
call with an error (`Reply.result`).
-/

namespace ShiftLock.Code

open Coord (Act Background)

/-- The programs of a coordinator. -/
abbrev P := Conc.Prog Act Act.Answer

/-- One atomic action. -/
def perform (a : Act) : P a.Answer := Conc.Prog.perform a

def request (op name : String) (mk : OperationID → Memory.Op) : P Memory.Reply := do
  let id ← perform (.newOpID op name)
  perform (.call (mk id))

variable (cfg : Config)

def setState (target : GenerationState) (reason : TransitionReason) : P (Option Err) := do
  match ← perform (.setState target reason) with
  | .same => return none
  | .invalid source =>
    perform (.emit {
      type := .error, fromState := source, toState := target, reason, err := some (.of .invalidState) })
    return some (.typed {
      op := "setState"
      err := .sentinel .invalidState
      reason
      message := source.text ++ " -> " ++ target.text })
  | .changed source gen =>
    let _ ← perform (.call (.updateGeneration gen))
    perform (.emit { type := .generationState, fromState := source, toState := target, reason })
    return none

def claim (name : String) : P (Option Err) := do
  if name = "" then return some (policyError "Claim" "claim name required")
  else
    match ← perform .checkOpen with
    | some err => return some (wrap "Claim" err)
    | none => perform (.claim name)

/-! ## Renewal -/

def startRenewal (name : String) : P Unit := do
  if ← perform (.markRenewing name) then
    let _ ← perform (.go (.renewal name))

/-- The TTL of a renewal: a reserved claim is kept beyond the transfer timeout. -/
def renewTTL (own : ClaimRecord) : Duration :=
  if own.phase = .reserved then reservationTTL cfg.leaseTTL cfg.transferTimeout else cfg.leaseTTL

/-- One round of the goroutine of `startRenewal`, after the ticker has fired: whether the loop goes
on. -/
def renew (name : String) : P Bool := do
  match ← perform (.currentLeaseToken name) with
  | none => return false
  | some token =>
    let own ← perform (.ownership name)
    let reply ← request "renew" name fun id => .renewClaim {
      claimName := name
      generationID := cfg.generationID
      token
      ttl := renewTTL cfg own
      operationID := id }
    match reply.result with
    | .error err =>
      perform (.revokeLease name .expired)
      perform (.emit { type := .claimLost, claim := name, token, err := some err, reason := .expired })
      return false
    | .ok record =>
      perform (.applyRecord name record)
      perform .heartbeat
      perform (.emit {
        type := .claimRenewed, claim := name, token := record.fencingToken, reason := .renewed })
      perform (.emit { type := .backendHeartbeat, claim := name })
      return true

/-- The `select` of the loop of `startRenewal`. -/
def renewalSelect (name : String) : P Bool := do
  if ← perform .tick then renew cfg name else return false

/-- A round of the renewal loop: `true` when another one follows. -/
def renewalRound (name : String) : P Bool := do
  if ← renewalSelect cfg name then return true
  else
    perform (.clearRenewing name)
    return false

/-! ## Ownership of a claim -/

/-- A lease that `tryAcquire` returns: one that was there, or one that this call installed. -/
inductive Obtained where
  | existing (l : Lease)
  | installed (l : Lease)
  deriving DecidableEq, Repr

/-- `tryAcquire` once the backend has answered with a record. -/
def installLease (name : String) (record : ClaimRecord) : P (Except Err Obtained) := do
  match ← perform (.tryAcquireInstall name record) with
  | .closed =>
    -- Best effort, so that the backend does not keep the claim for nobody.
    let _ ← request "release-compensate" name fun id => .releaseClaim {
      claimName := name
      generationID := cfg.generationID
      token := record.fencingToken
      operationID := id }
    return .error (.of .closed)
  | .valid l => return .ok (.existing l)
  | .notOwned => return .error (.of .claimHeld)
  | .installed l =>
    let _ ← setState .active .acquired
    perform (.emit {
      type := .claimAcquired, claim := name, token := record.fencingToken, reason := .acquired })
    startRenewal name
    return .ok (.installed l)

/-- `tryAcquire` between its first section and the deferred function. -/
def acquireClaim (name : String) : P (Except Err Obtained) := do
  let reply ← request "acquire" name fun id => .acquireClaim {
    claimName := name, generationID := cfg.generationID, ttl := cfg.leaseTTL, operationID := id }
  match reply.result with
  | .error err => return .error err
  | .ok record => installLease cfg name record

/-- `Claim.tryAcquire`, which is `TryAcquire`. -/
def tryAcquire (name : String) : P (Except Err Obtained) := do
  match ← perform (.tryAcquireBegin name) with
  | .closed => return .error (.of .closed)
  | .valid l => return .ok (.existing l)
  | .busy => return .error (.of .claimHeld)
  | .entered =>
    let r ← acquireClaim cfg name
    perform (.tryAcquireEnd name)
    return r

/-- One round of the loop of `WaitForOwnership`; `none` when another one follows. -/
def waitRound (name : String) : P (Option (Except Err Obtained)) := do
  match ← tryAcquire cfg name with
  | .ok l => return some (.ok l)
  | .error err =>
    if err ≠ .of .claimHeld ∧ err ≠ .of .notOwner then
      return some (.error (wrapClaim "WaitForOwnership" name err))
    else
      match ← perform (.validLease name) with
      | some l => return some (.ok (.existing l))
      | none =>
        match ← perform .pause with
        | .retry => return none
        | .ctxDone message =>
          return some (.error (wrapClaim "WaitForOwnership" name (.plain (.foreign message))))
        | .closed => return some (.error (wrapClaim "WaitForOwnership" name (.of .closed)))

def release (name : String) : P (Option Err) := do
  match ← perform (.lease name) with
  | none => return some (wrapClaim "Release" name (.of .notOwner))
  | some l =>
    let reply ← request "release" name fun id => .releaseClaim {
      claimName := name
      generationID := cfg.generationID
      token := l.token
      operationID := id }
    match reply.err with
    | some err => return some (wrapClaim "Release" name err)
    | none =>
      perform (.revokeLease name .released)
      perform (.emit {
        type := .claimReleased, claim := name, token := l.token, reason := .released })
      return none

/-- `restoreLease`, with `ensureLocalLease`. -/
def restoreLease (name : String) (record : ClaimRecord) : P Unit := do
  perform (.setRecord name record)
  if ← perform (.ensureLocalLease name) then startRenewal name

/-! ## The coordinator -/

/-- `Worker`: its name and whether it has readiness gates. -/
structure Worker where
  name : String
  readiness : Bool := false
  deriving DecidableEq, Repr

/-- `Run`: the readiness gates. -/
def runReadiness (worker : Worker) : P (Option Err) := do
  let _ ← setState .preparing .registered
  perform (.emit { type := .readinessStarted, claim := worker.name })
  match ← perform .readiness with
  | some err =>
    let _ ← setState .failed .readinessFailed
    perform (.emit {
      type := .readinessFailed, claim := worker.name, err := some err, reason := .readinessFailed })
    return some (wrap "Run" err)
  | none =>
    perform (.emit { type := .readinessPassed, claim := worker.name, reason := .readinessPassed })
    let _ ← setState .standby .readinessPassed
    return none

/-- `Run`: the claim, up to the loop of `WaitForOwnership`. -/
def runClaim (worker : Worker) : P (Option Err) := do
  match ← claim worker.name with
  | some err => return some (wrap "Run" err)
  | none =>
    match ← perform .checkOpen with
    | some err => return some (wrap "Run" (wrapClaim "WaitForOwnership" worker.name err))
    | none => return none

/-- `Run` up to the loop of `WaitForOwnership`; the error it returns, if any. -/
def runBegin (worker : Worker) : P (Option Err) := do
  if worker.name = "" then return some (policyError "Run" "worker Name and Run required")
  else if worker.readiness then
    match ← runReadiness worker with
    | some err => return some err
    | none => runClaim worker
  else runClaim worker

/-- `PrepareHandoff`: the new handoff. -/
def prepareHandoff : P (Except Err Nat) := do
  match ← perform .checkOpen with
  | some err => return .error (wrap "PrepareHandoff" err)
  | none =>
    let h ← perform .newHandoff
    match ← setState .draining .drainStarted with
    | some err => return .error (wrap "PrepareHandoff" err)
    | none =>
      perform (.emit { type := .handoffStarted, reason := .drainStarted })
      return .ok h

/-- The loop of `Close` over the claims. -/
def closeClaims : List String → P Unit
  | [] => return ()
  | name :: rest => do
    perform (.closeClaim name)
    perform (.closeDrain name)
    closeClaims rest

/-- `Coordinator.Close`. The wait for the goroutines at its end is left out. -/
def close : P Unit := do
  match ← perform .closeBegin with
  | none => return ()
  | some claims =>
    closeClaims claims
    let _ ← setState .retired .closed
    perform (.emit { type := .closed, reason := .closed })
    perform .shutdown

end ShiftLock.Code
