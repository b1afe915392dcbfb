import ShiftLock.Coord.Code

/-!
# The code of a handoff (`handoff.go`)

`Drain`, `Transfer`, `Commit`, `Abort` and the timeout watcher as programs of atomic actions, one
recursion for each loop over the claims of the handoff.
-/

namespace ShiftLock.Code

variable (cfg : Config) (h : Nat)

def fail (err : Err) : P Unit := do
  perform (.fail h err)
  perform (.emit { type := .handoffFailed, err := some err, reason := .failed })

/-! ## Drain -/

/-- The loop of `Drain`. -/
def drainClaims : List String → P (Option Err)
  | [] => return none
  | name :: rest => do
    perform (.startDrain name)
    match ← perform (.drainWait name) with
    | some err =>
      perform (.emit { type := .drainFailed, claim := name, err := some err })
      fail h err
      return some (wrap "Handoff.Drain" err)
    | none => drainClaims rest

def drain : P (Option Err) := do
  match ← perform (.drainBegin h) with
  | some err => return some err
  | none =>
    let _ ← setState .draining .drainStarted
    perform (.emit { type := .drainStarted, reason := .drainStarted })
    match ← drainClaims h (← perform (.handoffClaims h)) with
    | some err => return some err
    | none =>
      perform (.drainEnd h)
      perform (.emit { type := .drainCompleted, reason := .drainComplete })
      return none

/-! ## Rollback -/

/-- The request of an `AbortTransfer`. -/
def abortRequest (successor name : String) (token : FencingToken) (id : OperationID) :
    AbortRequest :=
  { claimName := name, fromGeneration := cfg.generationID, toGeneration := successor
    expectedToken := token, operationID := id }

/-- The loop of `abortTokens`: a claim that cannot be rolled back keeps its entry. -/
def abortLoop (successor : String) (tokens : Tokens) : List String → P Unit
  | [] => return ()
  | name :: rest => do
    match tokens.lookup name with
    | none => abortLoop successor tokens rest
    | some token =>
      let reply ← request "abort-compensate" name fun id =>
        .abortTransfer (abortRequest cfg successor name token id)
      match reply.result with
      | .error err =>
        perform (.emit { type := .transferAborted, claim := name, err := some err })
        abortLoop successor tokens rest
      | .ok record =>
        restoreLease name record
        perform (.dropToken h name)
        abortLoop successor tokens rest

def abortTokens (successor : String) (tokens : Tokens) : P Unit := do
  if tokens.entries = [] then return ()
  else abortLoop cfg h successor tokens (← perform (.handoffClaims h))

def abortPrepared : P Unit := do
  let (successor, tokens) ← perform (.tokens h)
  abortTokens cfg h successor tokens

def abortUncommitted (committed : List String) : P Unit := do
  let (successor, tokens) ← perform (.tokens h)
  abortTokens cfg h successor (committed.foldl (fun m name => m.erase name) tokens)

def startTimeoutWatcher : P Unit := do
  if ← perform (.watcherBegin h) then
    let _ ← perform (.go (.watcher h))

/-! ## Transfer -/

/-- The loop of `Transfer`. -/
def transferClaims (successor : String) : List String → P (Option Err)
  | [] => return none
  | name :: rest => do
    match ← perform (.currentLeaseToken name) with
    | none => transferClaims successor rest -- not owned
    | some token =>
      let reply ← request "prepare" name fun id => .prepareTransfer {
        claimName := name
        fromGeneration := cfg.generationID
        toGeneration := successor
        token
        ttl := reservationTTL cfg.leaseTTL cfg.transferTimeout
        operationID := id }
      match reply.result with
      | .error err =>
        fail h err
        startTimeoutWatcher h
        abortPrepared cfg h
        perform (.emit { type := .transferAborted, claim := name, err := some err })
        return some (wrapClaim "Handoff.Transfer" name err)
      | .ok record =>
        perform (.applyRecord name record)
        perform (.setToken h name record.fencingToken)
        perform (.emit {
          type := .transferPrepared
          claim := name
          token := record.fencingToken
          reason := .transferPrepared
          successor })
        transferClaims successor rest

/-- `Transfer` once the fields are set. -/
def transferRun (successor : String) : P (Option Err) := do
  let _ ← setState .transferring .transferPrepared
  match ← transferClaims cfg h successor (← perform (.handoffClaims h)) with
  | some err => return some err
  | none =>
    perform (.transferEnd h)
    startTimeoutWatcher h
    return none

def transfer (successor : String) : P (Option Err) := do
  if successor = "" then return some (policyError "Handoff.Transfer" "successor required")
  else
    match ← perform (.transferBegin h successor) with
    | .refused err => return some err
    | .needsDrain =>
      match ← drain h with
      | some err => return some err
      | none =>
        perform (.transferStart h successor)
        transferRun cfg h successor
    | .started => transferRun cfg h successor

/-! ## Commit and Abort -/

/-- The loop of `Commit`, with the claims that are committed. -/
def commitClaims (successor : String) (tokens : Tokens) :
    List String → List String → P (Option Err)
  | _, [] => return none
  | committed, name :: rest => do
    match tokens.lookup name with
    | none => commitClaims successor tokens committed rest
    | some token =>
      let reply ← request "commit" name fun id => .commitTransfer {
        claimName := name
        fromGeneration := cfg.generationID
        toGeneration := successor
        expectedToken := token
        ttl := cfg.leaseTTL
        operationID := id }
      match reply.result with
      | .error err =>
        fail h err
        startTimeoutWatcher h
        abortUncommitted cfg h committed
        return some (wrapClaim "Handoff.Commit" name err)
      | .ok record =>
        perform (.applyRecord name record)
        perform (.revokeLease name .transferCommitted)
        perform (.dropToken h name)
        perform (.emit {
          type := .transferCommitted
          claim := name
          token := record.fencingToken
          reason := .transferCommitted })
        commitClaims successor tokens (name :: committed) rest

def commit : P (Option Err) := do
  match ← perform (.commitBegin h) with
  | .returned err => return err
  | .started successor tokens =>
    match ← commitClaims cfg h successor tokens [] (← perform (.handoffClaims h)) with
    | some err => return some err
    | none =>
      perform (.commitEnd h)
      let _ ← setState .retired .retired
      perform (.emit { type := .handoffCompleted, reason := .transferCommitted })
      return none

/-- The loop of `Abort`. -/
def abortClaims (successor : String) (tokens : Tokens) : List String → P (Option Err)
  | [] => return none
  | name :: rest => do
    match tokens.lookup name with
    | none => abortClaims successor tokens rest
    | some token =>
      let reply ← request "abort" name fun id =>
        .abortTransfer (abortRequest cfg successor name token id)
      match reply.result with
      | .error err =>
        perform (.emit { type := .transferAborted, claim := name, err := some err })
        return some (wrapClaim "Handoff.Abort" name err)
      | .ok record =>
        restoreLease name record
        perform (.emit {
          type := .transferAborted
          claim := name
          token := record.fencingToken
          reason := .transferAborted })
        abortClaims successor tokens rest

def abort : P (Option Err) := do
  match ← perform (.abortBegin h) with
  | .returned err => return err
  | .started successor tokens =>
    match ← abortClaims cfg successor tokens (← perform (.handoffClaims h)) with
    | some err => return some err
    | none =>
      let _ ← setState .active .rollback
      perform (.emit { type := .handoffFailed, reason := .transferAborted })
      return none

/-- The goroutine of `startTimeoutWatcher`. -/
def watcher : P Unit := do
  if ← perform .tick then
    if ← perform (.watcherCheck h) then
      let _ ← abort cfg h

end ShiftLock.Code
