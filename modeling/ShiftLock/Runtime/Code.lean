import ShiftLock.Coord.System
import ShiftLock.Election.Code
import ShiftLock.Workflow.Engine
import ShiftLock.Audit.Store
import ShiftLock.Guard.Engine
import ShiftLock.Control.Lockdown
import ShiftLock.Control.Command
import ShiftLock.Capability.Authority

/-!
# A runtime (`runtime.go`, `runtime_fabric.go`, `security.go`)

The coordinator of a runtime, its elections, its capability authority, its command registry, its
audit store, its policy engine and its lockdown manager, as one system of threads. The programs of
the parts are those of their own modules: `Command.invoke` and the programs of an election become
programs of the runtime when the calls they make on it are replaced by its own (`Prog.interp`).

Of a run of the workflow engine only the calls of its audit hook are seen from here, in any number and
order. What operators do with the lockdown manager, the policy engine and the registry, and the flag
that `Close` sets, are steps of the environment.
-/

namespace ShiftLock.Runtime

open Json (utf8)

/-! ## Settings -/

/-- `SecuritySettings`: the fields that the modelled functions read. -/
structure SecuritySettings where
  denyPrivilegedByDefault : Bool
  auditFailClosed : Bool
  capabilityMaxTTL : Duration
  capabilityDefaultTTL : Duration
  requireSingleUseCapabilities : Bool
  lockdownOnCommandFlood : Bool
  commandFloodThreshold : Int
  commandFloodWindow : Duration
  quarantineOnTamper : Bool
  deriving DecidableEq, Repr

/-- The named profiles. -/
inductive SecurityProfile where
  | development | testing | standard | hardened | maximumSecurity
  deriving DecidableEq, Repr

/-- The settings of a profile. -/
def expandSecurityProfile : SecurityProfile → SecuritySettings
  | .development => {
      denyPrivilegedByDefault := true, auditFailClosed := false
      capabilityMaxTTL := 3600 * second, capabilityDefaultTTL := 900 * second
      requireSingleUseCapabilities := false, lockdownOnCommandFlood := false
      commandFloodThreshold := 100, commandFloodWindow := 60 * second, quarantineOnTamper := false }
  | .testing => {
      denyPrivilegedByDefault := true, auditFailClosed := true
      capabilityMaxTTL := 300 * second, capabilityDefaultTTL := 60 * second
      requireSingleUseCapabilities := true, lockdownOnCommandFlood := true
      commandFloodThreshold := 20, commandFloodWindow := 60 * second, quarantineOnTamper := true }
  | .standard => {
      denyPrivilegedByDefault := true, auditFailClosed := false
      capabilityMaxTTL := 1800 * second, capabilityDefaultTTL := 300 * second
      requireSingleUseCapabilities := false, lockdownOnCommandFlood := true
      commandFloodThreshold := 30, commandFloodWindow := 60 * second, quarantineOnTamper := true }
  | .hardened => {
      denyPrivilegedByDefault := true, auditFailClosed := true
      capabilityMaxTTL := 600 * second, capabilityDefaultTTL := 120 * second
      requireSingleUseCapabilities := true, lockdownOnCommandFlood := true
      commandFloodThreshold := 10, commandFloodWindow := 60 * second, quarantineOnTamper := true }
  | .maximumSecurity => {
      denyPrivilegedByDefault := true, auditFailClosed := true
      capabilityMaxTTL := 120 * second, capabilityDefaultTTL := 30 * second
      requireSingleUseCapabilities := true, lockdownOnCommandFlood := true
      commandFloodThreshold := 5, commandFloodWindow := 60 * second, quarantineOnTamper := true }

/-- The permission is a privileged one. -/
def isPrivileged (permission : String) : Bool :=
  permission ∈ ["claim.force_release", "maintenance.enter", "maintenance.exit", "lockdown.enter",
    "lockdown.exit", "command.register", "capability.issue", "capability.revoke", "exec.run",
    "recovery.act"]

/-- The operations that `checkControlGates` is asked about. -/
inductive Gated where
  | acquire | capabilityIssue | electionJoin | election | command
  deriving DecidableEq, Repr

/-- The name of a gated operation. -/
def Gated.text : Gated → String
  | .acquire => "Acquire"
  | .capabilityIssue => "Capability.Issue"
  | .electionJoin => "Election.Join"
  | .election => "Election"
  | .command => "Command"

/-- What a call returns besides nil. -/
inductive Error where
  /-- `ErrRuntimeClosed`. -/
  | closed (op : Gated)
  /-- `ErrQuarantined`. -/
  | quarantined (op : Gated)
  /-- `ErrLockdown`. -/
  | lockdown (op : Gated)
  | guardDenied
  | forbidden
  | notOwner
  /-- `capabilities not enabled`. -/
  | capabilitiesDisabled
  | coord (err : Err)
  | capability (err : Capability.Error)
  deriving DecidableEq

/-- What a runtime is made with: the configuration of its coordinator, its settings, which of the
optional parts it has, and what stands for code that is not modelled. -/
structure Setup where
  cfg : Config
  sec : SecuritySettings
  /-- There is a policy engine. -/
  guarded : Bool
  /-- There is an audit store. -/
  audited : Bool
  /-- There is a lockdown manager. -/
  lockable : Bool
  /-- There is a capability authority. -/
  capable : Bool
  hashes : Audit.Crypto
  signatures : Capability.Crypto
  /-- The text of an error that is not one of the gates. -/
  text : Error → String
  /-- How deep `auditAction` and `EnterQuarantine` can call each other before the stack overflows. -/
  depth : Nat

/-- The rules that `NewRuntime` adds to the policy engine. -/
def defaultRules : List Guard.Rule :=
  [{ name := "deny-force-release", permission := "claim.force_release", decision := .deny },
    { name := "deny-lockdown", permission := "lockdown.*", decision := .deny },
    { name := "deny-exec", permission := "exec.*", decision := .deny, priority := 100 }]

/-! ## The state -/

/-- The elections of a runtime: the name, and which of the elections of this name it is. -/
structure ElectionID where
  name : String
  nr : Nat
  deriving DecidableEq, Repr

/-- A runtime with its parts. -/
structure World where
  coord : ShiftLock.World
  closed : Bool := false
  quarantined : Bool := false
  floodHits : List Time := []
  lock : Lockdown.Manager
  rules : List Guard.Rule := defaultRules
  audit : Audit.Store := {}
  commands : Command.Registry := {}
  caps : Capability.Authority := {}
  elections : ElectionID → Election.World Unit := fun _ => { lock := () }
  /-- The stack has overflowed. -/
  crashed : Bool := false

/-- What `NewRuntime` returns over a backend. -/
def World.new (S : Setup) (now : Time) (b : Memory.Backend) : World where
  coord := ShiftLock.World.new S.cfg now b
  lock := { autoEvery := 60 * second }

/-- What the environment fixes for one action. -/
structure Env where
  coord : Coord.Env := {}
  /-- The wall clock, and the clocks of the audit store and of the registry. -/
  now : Time := 0
  /-- The error of the write to the mirror file of the audit store. -/
  file : Option String := none
  lock : Lockdown.Env := {}
  caps : Capability.Env := {}
  /-- The order in which Go ranges over the replies that the registry remembers. -/
  order : List String := []
  /-- How the handler of a command ends. -/
  outcome : Command.Outcome := .returned {} none
  election : Election.Env Unit := { lock := () }

/-! ## Actions -/

/-- The atomic actions of a runtime. -/
inductive Act where
  | coord (a : Coord.Act)
  /-- The section of `checkControlGates`. -/
  | flags (op : Gated)
  | lockState
  | quarantine
  /-- The section of `noteUnauthorized`. -/
  | noteHit
  | autoBegin
  | autoEnter (trigger reason : String)
  | evaluate (req : Guard.Request)
  | append (x : Audit.Entry)
  | accept (req : Command.Request)
  | handle (req : Command.Request) (deadline : Duration)
  | remember (key : String) (res : Command.Result)
  | capability (a : Capability.Act)
  | election (id : ElectionID) (a : Election.Act)
  | overflow

/-- The flags that `checkControlGates` reads. -/
structure Flags where
  closed : Bool
  quarantined : Bool
  deriving DecidableEq, Repr

/-- What a step answers. -/
abbrev Act.Answer : Act → Type
  | .coord a => a.Answer
  | .flags _ => Flags
  | .lockState => Lockdown.State
  | .noteHit => Nat
  | .autoBegin => Bool
  | .evaluate _ => Guard.Decision
  | .append _ => Option Audit.AppendError
  | .accept _ => Command.Admission
  | .handle _ _ => Command.Outcome
  | .capability a => a.Answer
  | .election _ a => a.Answer
  | _ => Unit

/-- The hits that are left in the window, and this one. -/
def recentHits (window : Duration) (now : Time) (hits : List Time) : List Time :=
  hits.filter (fun t => now - window < t) ++ [now]

/-- The lock of an election is the `FencedClaims` of the runtime: the calls on it are programs. -/
def viaClaims : Election.FencedLock Unit Unit Empty where
  acquire _ _ := ((), .error "")
  release _ _ _ := ((), none)
  renew _ _ _ := ((), none)
  outside x _ := x.elim

/-- The configuration that `Join` gives to an election. -/
def electionConfig (S : Setup) (id : ElectionID) : Election.Config where
  name := id.name
  participantID := S.cfg.instanceID

/-- The meaning of a step. -/
def exec (S : Setup) : (a : Act) → Env → World → World × a.Answer
  | .coord a, e, w =>
    ({ w with coord := (Coord.exec S.cfg a e.coord w.coord).1 }, (Coord.exec S.cfg a e.coord w.coord).2)
  | .flags _, _, w => (w, { closed := w.closed, quarantined := w.quarantined })
  | .lockState, _, w => (w, w.lock.state)
  | .quarantine, _, w => ({ w with quarantined := true }, ())
  | .noteHit, e, w =>
    let hits := recentHits S.sec.commandFloodWindow e.now w.floodHits
    ({ w with floodHits := hits }, hits.length)
  | .autoBegin, e, w =>
    ({ w with lock := (w.lock.tryAutoBegin e.lock.now).1 }, (w.lock.tryAutoBegin e.lock.now).2)
  | .autoEnter trigger reason, e, w =>
    ({ w with lock :=
        (w.lock.enter e.lock { mode := some .failClosed, reason, actorID := "system", trigger }).1 }, ())
  | .evaluate req, _, w => (w, Guard.evaluate w.rules req)
  | .append x, e, w =>
    ({ w with audit := (w.audit.append S.hashes e.now e.file x).1 },
      (w.audit.append S.hashes e.now e.file x).2.2)
  | .accept req, e, w =>
    ({ w with commands := (w.commands.accept e.now req).1 }, (w.commands.accept e.now req).2)
  | .handle _ _, e, w => (w, e.outcome)
  | .remember key res, e, w => ({ w with commands := w.commands.remember e.order key res }, ())
  | .capability a, e, w =>
    ({ w with caps := (Capability.exec S.signatures a e.caps w.caps).1 },
      (Capability.exec S.signatures a e.caps w.caps).2)
  | .election id a, e, w =>
    ({ w with
        elections := Function.update w.elections id
          (Election.exec (electionConfig S id) viaClaims a e.election (w.elections id)).1 },
      (Election.exec (electionConfig S id) viaClaims a e.election (w.elections id)).2)
  | .overflow, _, w => ({ w with crashed := true }, ())

/-- What happens outside of the calls. -/
inductive Outside where
  | coord (x : ShiftLock.Outside)
  /-- The flag of `Close`. -/
  | close
  | enter (e : Lockdown.Env) (req : Lockdown.EnterRequest)
  | unlock (e : Lockdown.Env) (req : Lockdown.UnlockRequest)
  /-- `AddRule`. -/
  | rule (r : Guard.Rule)
  /-- `Register`. -/
  | register (spec : Command.Spec)
  | election (id : ElectionID) (x : Election.Outside Empty)

/-- A step outside of the calls. -/
def outside : Outside → World → World
  | .coord x, w => { w with coord := Coord.outside x w.coord }
  | .close, w => { w with closed := true }
  | .enter e req, w => { w with lock := (w.lock.enter e req).1 }
  | .unlock e req, w => { w with lock := (w.lock.unlock e req).1 }
  | .rule r, w => { w with rules := w.rules ++ [r] }
  | .register spec, w => { w with commands := w.commands.register spec }
  | .election id x, w =>
    { w with elections :=
        Function.update w.elections id (Election.outside viaClaims x (w.elections id)) }

/-! ## Programs -/

/-- The text of an error. -/
def Error.text (S : Setup) : Error → String
  | .closed op => "shiftlock: " ++ op.text ++ ": runtime closed"
  | .quarantined op => "shiftlock: " ++ op.text ++ ": generation quarantined"
  | .lockdown op => "shiftlock: " ++ op.text ++ ": lockdown active"
  | err => S.text err

/-- Programs over the steps. -/
abbrev P := Conc.Prog Act Act.Answer

/-- One step as a program. -/
abbrev perform (a : Act) : P a.Answer := Conc.Prog.perform a

/-- A program of the coordinator. -/
def onCoord {α : Type} (p : Code.P α) : P α := Conc.Prog.lift .coord p

/-- A program of the capability authority. -/
def onCaps {α : Type} (p : Capability.P α) : P α := Conc.Prog.lift .capability p

variable (S : Setup)

/-- The mode stops gated operations. -/
def closesGates (mode : Option Lockdown.Mode) : Bool :=
  mode = some .failClosed ∨ mode = some .fullService ∨ mode = some .isolateClaims

/-- Closed, quarantined, locked down. -/
def checkControlGates (op : Gated) : P (Option Error) := do
  let flags ← perform (.flags op)
  if flags.closed then return some (.closed op)
  else if flags.quarantined then return some (.quarantined op)
  else if S.lockable then
    if (← perform .lockState).active then
      if closesGates (← perform .lockState).mode then return some (.lockdown op) else return none
    else return none
  else return none

/-! ### Audit -/

/-- The arguments of `Append` in `auditAction`. -/
def principalEntry (actor action resource result : String) (operationID : OperationID) :
    Audit.Entry :=
  { actor := { id := utf8 actor, type := utf8 "principal" }
    action := utf8 action
    resource := utf8 resource
    result := utf8 result
    operationID := utf8 operationID }

/-- `EnterQuarantine`, with the `auditAction` that it calls. -/
def quarantineWith (auditAction : Audit.Entry → P Unit) (reason : String) : P Unit := do
  perform .quarantine
  auditAction (principalEntry "system" "quarantine.enter" reason "ok" "")

/-- `auditAction`, within a stack of some depth. -/
def auditActionIn : Nat → Audit.Entry → P Unit
  | 0, _ => perform .overflow
  | depth + 1, x =>
    if S.audited then do
      let err ← perform (.append x)
      if err.isSome ∧ S.sec.auditFailClosed ∧ S.sec.quarantineOnTamper then
        quarantineWith (auditActionIn depth) "audit_append_failed"
    else return ()

/-- The record of an action, or quarantine. -/
def auditAction (actor action resource result : String) (operationID : OperationID) : P Unit :=
  auditActionIn S (S.depth + 1) (principalEntry actor action resource result operationID)

/-- Quarantine, with its record. -/
def enterQuarantine (reason : String) : P Unit := quarantineWith (auditActionIn S (S.depth + 1)) reason

/-- `TryAutoEnter`, if it may begin. -/
def tryAutoEnter (trigger reason : String) : P Unit := do
  if ← perform .autoBegin then perform (.autoEnter trigger reason)

/-- A refused command is counted. -/
def noteUnauthorized : P Unit :=
  if S.lockable ∧ S.sec.lockdownOnCommandFlood then do
    let n ← perform .noteHit
    if S.sec.commandFloodThreshold ≤ n then
      tryAutoEnter "unauthorized_command_flood" "unauthorized command flood"
      auditAction S "system" "lockdown.auto" "command_flood" "entered" ""
  else return ()

/-- The record of a command. -/
def auditCommand (actor name decision outcome : String) : P Unit := do
  auditAction S actor ("command." ++ name) name decision outcome
  if decision = "deny" ∧ outcome = "unauthorized" then noteUnauthorized S

/-! ### Commands -/

/-- A refusal of `AuthorizeCommand`. -/
def unauthorized (err : Error) : P (Option Error) := do
  noteUnauthorized S
  return some err

/-- The policy on a command. -/
def authorizeCommand (actor name permission : String) : P (Option Error) := do
  match ← checkControlGates S .command with
  | some err => unauthorized S err
  | none =>
    if S.guarded then
      match ← perform (.evaluate { principal := actor, permission, resource := name, action := "invoke" })
        with
      | .deny => unauthorized S .guardDenied
      | .requireApproval | .requireQuorum => unauthorized S .forbidden
      | .allow | .allowWithConstraints => return none
    else if S.sec.denyPrivilegedByDefault ∧ isPrivileged permission then unauthorized S .forbidden
    else return none

/-- The actions of `Invoke` in the registry of the runtime, which is its authorizer and auditor. -/
def onCommand : (a : Command.Act) → P a.Answer
  | .accept req => perform (.accept req)
  | .authorize actor name permission => do return (← authorizeCommand S actor name permission).isSome
  | .handle req deadline => perform (.handle req deadline)
  | .audit actor name decision outcome => do
    -- The runtime is the auditor, and its `AuditCommand` does not panic.
    auditCommand S actor name decision outcome
    return none
  | .remember key res => perform (.remember key res)

/-- `Commands().Invoke`. -/
def invoke (req : Command.Request) : P (Command.Result × Option Command.Error) :=
  (Command.invoke req).interp (onCommand S)

/-! ### Workflows -/

/-- The calls of the audit hook in the workflow engine, one for each place. -/
inductive Hook where
  | runStart | runError
  | runEnd (state : Workflow.State)
  | stepOk (step : String)
  | stepReconcile (step : String)
  | stepFail (step : String)
  | compensateFailed (step : String)
  | compensateOk (step : String)
  deriving DecidableEq, Repr

/-- The text of a state. -/
def stateText : Workflow.State → String
  | .created => "created"
  | .validating => "validating"
  | .waiting => "waiting"
  | .running => "running"
  | .paused => "paused"
  | .compensating => "compensating"
  | .completed => "completed"
  | .failed => "failed"
  | .cancelled => "cancelled"
  | .blocked => "blocked"
  | .lockedDown => "locked-down"
  | .requiresIntervention => "requires-intervention"
  | .requiresReconciliation => "requires-reconciliation"

/-- The action, the resource and the result that a call of the hook passes on. -/
def Hook.args (workflow : String) : Hook → String × String × String
  | .runStart => ("workflow.run", workflow, "start")
  | .runError => ("workflow.run", workflow, "error")
  | .runEnd state => ("workflow.run", workflow, stateText state)
  | .stepOk step => ("workflow.step.ok", step, "completed")
  | .stepReconcile step => ("workflow.step.reconcile", step, "requires-reconciliation")
  | .stepFail step => ("workflow.step.fail", step, "failed")
  | .compensateFailed step => ("workflow.compensate", step, "failed")
  | .compensateOk step => ("workflow.compensate", step, "ok")

/-- The arguments of `Append` in `workflowAudit.Audit`. -/
def Hook.entry (workflow : String) (operationID : OperationID) (h : Hook) : Audit.Entry where
  actor := { id := utf8 "workflow", type := utf8 "workflow" }
  action := utf8 (h.args workflow).1
  resource := utf8 (h.args workflow).2.1
  result := utf8 (h.args workflow).2.2
  operationID := utf8 operationID

/-- The hook calls of a run of a workflow: the error of `Append` is dropped. -/
def workflowRun (workflow : String) (operationID : OperationID) : List Hook → P Unit
  | [] => return ()
  | h :: rest =>
    if S.audited then do
      let _ ← perform (.append (h.entry workflow operationID))
      workflowRun workflow operationID rest
    else workflowRun workflow operationID rest

/-! ### Capabilities and claims -/

/-- The request that `IssueCapability` passes on. -/
def issueRequest (req : Capability.Request) : Capability.Request :=
  let ttl := if req.ttl ≤ 0 then S.sec.capabilityDefaultTTL else req.ttl
  { req with
    constraints := { req.constraints with
      singleUse := S.sec.requireSingleUseCapabilities || req.constraints.singleUse }
    ttl := if S.sec.capabilityMaxTTL < ttl then S.sec.capabilityMaxTTL else ttl }

/-- `IssueCapability`: gates, token, record. -/
def issueCapability (req : Capability.Request) : P (Except Error Capability.Token) := do
  match ← checkControlGates S .capabilityIssue with
  | some err => return .error err
  | none =>
    if S.capable then
      match ← perform (.capability (.issue (issueRequest S req))) with
      | .error err => return .error (.capability err)
      | .ok tok =>
        auditAction S req.subject "capability.issue" req.permission "ok" tok.id
        return .ok tok
    else return .error .capabilitiesDisabled

/-- `FencedClaims.Acquire`. -/
def fencedAcquire (claim : String) : P (Except Error FencingToken) := do
  match ← checkControlGates S .acquire with
  | some err => return .error err
  | none =>
    match ← onCoord (Code.claim claim) with
    | some err => return .error (.coord err)
    | none =>
      match ← onCoord (Code.tryAcquire S.cfg claim) with
      | .error err => return .error (.coord err)
      | .ok (.existing l) => return .ok l.token
      | .ok (.installed l) => return .ok l.token

/-- `FencedClaims.Release`. The token is not used. -/
def fencedRelease (claim : String) (_token : FencingToken) : P (Option Error) := do
  match ← onCoord (Code.claim claim) with
  | some err => return some (.coord err)
  | none => return (← onCoord (Code.release S.cfg claim)).map .coord

/-- `FencedClaims.Renew`. -/
def fencedRenew (claim : String) (token : FencingToken) : P (Option Error) := do
  match ← onCoord (Code.claim claim) with
  | some err => return some (.coord err)
  | none =>
    let own ← perform (.coord (.ownership claim))
    if own.controls S.cfg.generationID = false ∨ own.fencingToken ≠ token then
      return some .notOwner
    else return none

/-! ### Elections -/

/-- The actions of an election whose gate and lock are the runtime. -/
def onElection (id : ElectionID) : (a : Election.Act) → P a.Answer
  | .allow => do return (← checkControlGates S .election).map (Error.text S)
  | .acquire => do
    match ← fencedAcquire S id.name with
    | .error err => return .error (err.text S)
    | .ok token => return .ok (UInt64.ofNat token)
  | .release token => do return (← fencedRelease S id.name token.toNat).map (Error.text S)
  | .renew token => do return (← fencedRenew S id.name token.toNat).map (Error.text S)
  | a => perform (.election id a)

/-! ## The system -/

/-- The calls and the goroutines of a runtime. -/
inductive Task where
  /-- The tasks of `Claims()` and `Coordinator()`. -/
  | coord (t : ShiftLock.Task)
  | enterQuarantine (reason : String)
  | issueCapability (req : Capability.Request)
  -- `Capabilities()`
  | issue (req : Capability.Request)
  | delegate (parent : Capability.Token) (req : Capability.Request)
  | verify (t : Capability.Token)
  | revoke (id : Capability.ID)
  | advanceEpoch
  -- `FencedClaims`
  | acquire (claim : String)
  | release (claim : String) (token : FencingToken)
  | renew (claim : String) (token : FencingToken)
  /-- `Election().Join`. -/
  | join (id : ElectionID)
  /-- A call on an election, or its loop. -/
  | election (id : ElectionID) (t : Election.Task)
  /-- `Commands().Invoke`. -/
  | invoke (req : Command.Request)
  /-- `Workflows().Run`. -/
  | workflow (name : String) (operationID : OperationID) (calls : List Hook)
  deriving DecidableEq

/-- The answers of the calls. -/
inductive Result where
  | done
  | coord (r : ShiftLock.Result)
  | error (err : Option Error)
  | fencing (r : Except Error FencingToken)
  | capability (r : Except Error Capability.Token)
  | verified (err : Option Capability.Error)
  | election (r : Election.Result)
  | command (res : Command.Result) (err : Option Command.Error)
  deriving DecidableEq

/-- A call of an election. -/
def electionTask (id : ElectionID) (t : Election.Task) : P (Result ⊕ Task) := do
  return ((← (Election.code (electionConfig S id) t).interp (onElection S id)).map .election
    (.election id))

/-- The program of a call. -/
def code : Task → P (Result ⊕ Task)
  | .coord t => do return ((← onCoord (Code.task S.cfg t)).map .coord .coord)
  | .enterQuarantine reason => do
    enterQuarantine S reason
    return .inl .done
  | .issueCapability req => do return .inl (.capability (← issueCapability S req))
  | .issue req => do
    return .inl (.capability ((← perform (.capability (.issue req))).mapError .capability))
  | .delegate parent req => do
    return .inl (.capability ((← onCaps (Capability.delegate parent req)).mapError .capability))
  | .verify t => do return .inl (.verified (← perform (.capability (.verify t true))))
  | .revoke id => do return .inl (.verified (← perform (.capability (.revoke id))))
  | .advanceEpoch => do return .inl (.verified (← perform (.capability .advanceEpoch)))
  | .acquire claim => do return .inl (.fencing (← fencedAcquire S claim))
  | .release claim token => do return .inl (.error (← fencedRelease S claim token))
  | .renew claim token => do return .inl (.error (← fencedRenew S claim token))
  | .join id => do
    match ← checkControlGates S .electionJoin with
    | some err => return .inl (.error (some err))
    | none => electionTask S id .join
  | .election id t => electionTask S id t
  | .invoke req => do
    let (res, err) ← invoke S req
    return .inl (.command res err)
  | .workflow name operationID calls => do
    workflowRun S name operationID calls
    return .inl .done

/-- The goroutine that an action starts. -/
def fork : (a : Act) → a.Answer → Option Task
  | .coord a, r => (Coord.fork a r).map .coord
  | .election id a, r => (Election.fork a r).map (.election id)
  | _, _ => none

/-- The runtime with all its calls. -/
def system : Conc.Sys Act Act.Answer World Env Outside Task Result where
  exec := exec S
  env := outside
  fork := fork
  code := code S

/-- The moves of a runtime. -/
abbrev Schedule := List (Conc.Move Env Outside Task)

/-- The configuration after `i` moves of a schedule. -/
abbrev stateAt (w : World) (xs : Schedule) (i : Nat) : Conc.Config Act Act.Answer World Task Result :=
  (system S).stateAt w xs i

end ShiftLock.Runtime
