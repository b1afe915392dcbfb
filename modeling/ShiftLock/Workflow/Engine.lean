import ShiftLock.Workflow.Definition
import ShiftLock.Conc.Prog
import Mathlib.Data.List.AList

/-!
# The workflow engine (`workflow/engine.go`, `state.go`, `store.go`)

`Run` and everything below it, as programs of atomic actions: the critical section of `Run`, the
store, the clock, the context, the hooks, and the functions of the steps. The instance that the
source changes in place is passed along and returned next to the error.

The goroutines of a parallel batch share nothing but the channel of outcomes, so they are run one
after the other in an order that the environment chooses. The audit hook has no answer and is left
out.
-/

namespace ShiftLock.Workflow

/-! ## The data -/

/-- The states of an instance. -/
inductive State where
  | created | validating | waiting | running | paused | compensating | completed | failed
  | cancelled | blocked | lockedDown | requiresIntervention | requiresReconciliation
  deriving DecidableEq, Repr

/-- No state follows. -/
def State.terminal : State → Bool
  | .completed | .failed | .cancelled => true
  | _ => false

/-- The table of transitions. -/
def canTransition (source target : State) : Bool :=
  if source = target then true
  else if source.terminal then false
  else
    match source with
    | .created => target ∈ [.validating, .cancelled, .lockedDown]
    | .validating => target ∈ [.waiting, .running, .failed, .lockedDown, .cancelled]
    | .waiting => target ∈ [.running, .paused, .cancelled, .lockedDown, .blocked]
    | .running =>
      target ∈ [.paused, .compensating, .completed, .failed, .cancelled, .lockedDown,
        .requiresIntervention, .requiresReconciliation, .blocked]
    | .paused => target ∈ [.running, .cancelled, .lockedDown, .failed]
    | .compensating => target ∈ [.failed, .completed, .requiresIntervention, .requiresReconciliation]
    | .blocked | .lockedDown | .requiresIntervention | .requiresReconciliation =>
      target ∈ [.running, .paused, .cancelled, .failed, .compensating]
    | _ => false

/-- `StepStatus`; `unset` is its zero value. -/
inductive StepStatus where
  | unset | pending | running | completed | failed | compensating | compensated | skipped
  | reconcile
  deriving DecidableEq, Repr

/-- The statuses of a step that is done: it is skipped on resume. -/
def StepStatus.done (s : StepStatus) : Bool := s = .completed ∨ s = .compensated ∨ s = .skipped

/-- What an action reports. -/
structure Evidence where
  time : Time := 0
  event : String := ""
  summary : String := ""
  attrs : List (String × String) := []
  deriving DecidableEq, Repr

/-- The state of one step. -/
structure StepState where
  name : String := ""
  status : StepStatus := .unset
  attempt : Nat := 0
  startedAt : Time := 0
  finishedAt : Time := 0
  error : String := ""
  evidence : List Evidence := []
  deriving DecidableEq, Repr

/-- What an action returns. -/
structure Result where
  evidence : Evidence := {}
  ambiguous : Bool := false
  deriving DecidableEq, Repr

/-- What is saved of an instance. -/
structure Checkpoint where
  instanceID : String
  workflow : String
  state : State
  steps : AList fun _ : String => StepState
  updatedAt : Time := 0
  dryRun : Bool
  attrs : List (String × String) := []
  completedSteps : List String := []
  epochAtStep : AList fun _ : String => Nat

/-- A run of a workflow. -/
structure Instance where
  id : String
  workflow : String
  state : State
  dryRun : Bool
  checkpoint : Checkpoint

/-- The options of `Run`. -/
structure RunOptions where
  instanceID : String := ""
  dryRun : Bool := false
  operationID : OperationID := ""
  attrs : List (String × String) := []
  resume : Bool := false
  deriving DecidableEq, Repr

/-- What an action is given. -/
structure ExecContext where
  workflow : String
  instanceID : String
  step : String
  attempt : Nat
  dryRun : Bool
  operationID : OperationID
  attrs : List (String × String)
  resourceEpoch : Nat
  resourceID : ResourceID
  deriving DecidableEq, Repr

/-- What `Run` returns: an `*Error`, or an error of the store as it came. -/
inductive Fault where
  | error (e : Error)
  | store (text : String)
  /-- Not in the source: the loop of `executeParallel` ran out of fuel. -/
  | outOfFuel
  deriving DecidableEq, Repr

/-- `ctx.Err()` when the context is done. -/
inductive CtxErr where
  | canceled | deadlineExceeded
  deriving DecidableEq, Repr

/-- The text of `ctx.Err()`. -/
def CtxErr.text : CtxErr → String
  | .canceled => "context canceled"
  | .deadlineExceeded => "context deadline exceeded"

/-- `hooks.Resources.Get`, if there is a lookup. -/
inductive Lookup where
  | unset
  | failed (text : String)
  | entry (epoch : Nat) (capabilities : ResourceCapabilities)
  deriving DecidableEq, Repr

namespace Checkpoint

/-- `cp.Steps[name]`. -/
def step (cp : Checkpoint) (name : String) : StepState := (cp.steps.lookup name).getD {}

/-- `cp.EpochAtStep[name]`. -/
def epoch (cp : Checkpoint) (name : String) : Nat := (cp.epochAtStep.lookup name).getD 0

end Checkpoint

namespace Instance

/-- `inst.State` and `inst.Checkpoint.State` are assigned together. -/
def setState (inst : Instance) (s : State) : Instance :=
  { inst with state := s, checkpoint := { inst.checkpoint with state := s } }

/-- `inst.Checkpoint.Steps[name] = st`. -/
def setStep (inst : Instance) (name : String) (st : StepState) : Instance :=
  { inst with checkpoint := { inst.checkpoint with steps := inst.checkpoint.steps.insert name st } }

/-- A step is completed: its state, `CompletedSteps` and `EpochAtStep`. -/
def complete (inst : Instance) (name : String) (st : StepState) (epoch : Nat) : Instance :=
  let inst := inst.setStep name st
  { inst with
    checkpoint :=
      { inst.checkpoint with
        completedSteps := inst.checkpoint.completedSteps ++ [name]
        epochAtStep := inst.checkpoint.epochAtStep.insert name epoch } }

/-- The assignments of `persist`. -/
def stamp (inst : Instance) (now : Time) : Instance :=
  { inst with checkpoint := { inst.checkpoint with state := inst.state, updatedAt := now } }

/-- `inst.Checkpoint.Steps[name].Status`. -/
def status (inst : Instance) (name : String) : StepStatus := (inst.checkpoint.step name).status

end Instance

/-- A member of a batch, ready to go. -/
structure Prepared where
  name : String
  step : StepDef
  exec : ExecContext
  st : StepState
  epoch : Nat
  deriving DecidableEq

/-- What a member of a batch sends. -/
structure Outcome where
  p : Prepared
  res : Result := {}
  err : Option ActionError := none
  deriving DecidableEq

/-- `o.err != nil || o.res.Ambiguous`. -/
def Outcome.failed (o : Outcome) : Bool := o.err.isSome || o.res.ambiguous

/-! ## The actions -/

/-- What the engine asks of its surroundings. -/
inductive Act where
  /-- The critical section of `Run`. -/
  | enter (workflow : String) (opts : RunOptions)
  | clock
  /-- `store.Save` of the instance's checkpoint. -/
  | save (inst : Instance)
  | ctxErr
  /-- `hooks.Lockdown.BlocksMutations()`; false without a gate. -/
  | blocksMutations
  | lookup (id : ResourceID)
  /-- The order in which the goroutines of a batch go. -/
  | schedule (batch : List Prepared)
  /-- The `select` of a goroutine: the semaphore, or the error of a context that is done. -/
  | acquire
  /-- `step.Action`. -/
  | action (x : ExecContext)
  /-- `step.Compensate`. -/
  | compensate (x : ExecContext)

/-- What it is answered. -/
abbrev Answer : Act → Type
  | .enter _ _ => Except Fault (Definition × Instance)
  | .clock => Time
  | .save _ => Option String
  | .ctxErr => Option CtxErr
  | .blocksMutations => Bool
  | .lookup _ => Lookup
  | .schedule batch => { order : List Prepared // order.Perm batch }
  | .acquire => Option CtxErr
  | .action _ => Result × Option ActionError
  | .compensate _ => Result × Option ActionError

/-- Programs of the engine. -/
abbrev M := Conc.Prog Act Answer

/-- The instance, and the error that is returned. -/
abbrev Reply := Instance × Option Fault

/-- One action of the engine. -/
abbrev perform (a : Act) : M (Answer a) := Conc.Prog.perform a

/-- The state of a resource. -/
abbrev lookup (id : ResourceID) : M Lookup := perform (.lookup id)

/-! ## Persisting and stopping -/

/-- The checkpoint is saved. -/
def persist (inst : Instance) : M Reply := do
  let now ← perform .clock
  let err ← perform (.save (inst.stamp now))
  return (inst.stamp now, err.map Fault.store)

/-- A state is assigned and persisted, and the error is returned. -/
def halt (inst : Instance) (s : State) (err : Fault) : M Reply := do
  let (inst, _) ← persist (inst.setState s)
  return (inst, some err)

/-- An error of `Run`. -/
def runError (d : Definition) (step : String) (err : Sentinel) (message : String) : Fault :=
  .error { op := "Run", workflow := d.name, step, err := .sentinel err, message }

/-- `step.Mutates && hooks.Lockdown != nil && hooks.Lockdown.BlocksMutations()`. -/
def blocked (step : StepDef) : M Bool :=
  if step.mutates then perform .blocksMutations else return false

/-- The epoch of the step's resource, if it has one that can be looked up. -/
def observeEpoch (step : StepDef) : M Nat :=
  if step.resourceID.isZero then return 0
  else do
    match ← lookup step.resourceID with
    | .entry epoch _ => return epoch
    | _ => return 0

/-- What the resource of a step lacks. -/
def validateCaps (step : StepDef) : M (Option Fault) := do
  let capability (message : String) : Fault :=
    .error { op := "validateCaps", step := step.name, err := .sentinel .capability, message }
  match ← lookup step.resourceID with
  | .unset =>
    return if step.requiredCaps ≠ {} then some (capability "resource lookup not configured")
      else none
  | .failed text => return some (capability text)
  | .entry _ capabilities => return (capabilities.require step.requiredCaps).map capability

/-- `ExecContext` of a step. -/
def execContext (d : Definition) (inst : Instance) (name : String) (step : StepDef)
    (attempt epoch : Nat) (opts : RunOptions) : ExecContext where
  workflow := d.name
  instanceID := inst.id
  step := name
  attempt := attempt
  dryRun := inst.dryRun
  operationID := opts.operationID
  attrs := opts.attrs
  resourceEpoch := epoch
  resourceID := step.resourceID

/-! ## Compensation -/

/-- An error of `compensate`. -/
def compensateError (d : Definition) (step : String) (err : Sentinel) (message : String) : Fault :=
  .error { op := "Compensate", workflow := d.name, step, err := .sentinel err, message }

/-- Whether the resource of a step has moved on since it was completed. -/
def staleEpoch (d : Definition) (inst : Instance) (name : String) (step : StepDef) :
    M (Option Fault) :=
  if step.resourceID.isZero then return none
  else do
    match ← lookup step.resourceID with
    | .entry epoch _ =>
      let recorded := inst.checkpoint.epoch name
      return if recorded < epoch then
          some (compensateError d name .staleEpoch
            ("current epoch " ++ toString epoch ++ " > recorded " ++ toString recorded))
        else none
    | _ => return none

/-- `step.Compensate(ctx, exec)`, except in a dry run. -/
def invokeCompensate (inst : Instance) (x : ExecContext) : M (Result × Option ActionError) :=
  if inst.dryRun then do
    let now ← perform .clock
    return ({ evidence := { time := now, event := "dry-run-compensate" } }, none)
  else perform (.compensate x)

/-- The compensation of one step, from the status `compensating` on. -/
def compensateStep (d : Definition) (inst : Instance) (name : String) (step : StepDef)
    (opts : RunOptions) : M Reply := do
  let st := { inst.checkpoint.step name with status := .compensating }
  let (inst, _) ← persist (inst.setStep name st)
  let (res, err) ← invokeCompensate inst
    (execContext d inst name step st.attempt (inst.checkpoint.epoch name) opts)
  if err.isSome || res.ambiguous then
    let text := (err.map ActionError.text).getD "compensation failed"
    return (inst.setStep name { st with status := .failed, error := text },
      some (compensateError d name .compensationFailed text))
  else
    let now ← perform .clock
    let (inst, _) ← persist (inst.setStep name
      { st with
        status := .compensated, finishedAt := now, evidence := st.evidence ++ [res.evidence] })
    return (inst, none)

/-- The loop of `compensate` over the completed steps, the last one first. -/
def compensateSteps (d : Definition) (opts : RunOptions) : List String → Instance → M Reply
  | [], inst => return (inst, none)
  | name :: names, inst =>
    match d.step? name with
    | none => compensateSteps d opts names inst
    | some step =>
      if step.hasCompensate = false ∨ inst.status name = .compensated then
        compensateSteps d opts names inst
      else do
        if ← blocked step then
          return (inst, some (compensateError d name .lockdown "lockdown during compensate"))
        match ← staleEpoch d inst name step with
        | some err => return (inst, some err)
        | none =>
          match ← compensateStep d inst name step opts with
          | (inst, some err) => return (inst, some err)
          | (inst, none) => compensateSteps d opts names inst

/-- Compensations, last step first. -/
def compensate (d : Definition) (inst : Instance) (opts : RunOptions) : M Reply := do
  let (inst, _) ← persist (inst.setState .compensating)
  compensateSteps d opts inst.checkpoint.completedSteps.reverse inst

/-- The completed steps are compensated, and the run fails. -/
def compensateAndFail (d : Definition) (inst : Instance) (opts : RunOptions) (err : Fault) :
    M Reply := do
  match ← compensate d inst opts with
  | (inst, some cerr) => halt inst .requiresIntervention cerr
  | (inst, none) => halt inst .failed err

/-! ## One step -/

/-- What follows a failed step. -/
def handleStepFailure (d : Definition) (inst : Instance) (step : StepDef) (st : StepState)
    (res : Result) (err : Option ActionError) (opts : RunOptions) : M Reply := do
  let msg := (err.map ActionError.text).getD ""
  let now ← perform .clock
  if res.ambiguous ∨ step.idempotency = .requiresReconciliation ∨
      (err.map ActionError.ambiguous).getD false then
    let text := if res.ambiguous then "ambiguous outcome" else msg
    let st :=
      { st with
        status := .reconcile, error := text, finishedAt := now
        evidence := st.evidence ++ [res.evidence] }
    halt (inst.setStep step.name st) .requiresReconciliation
      (runError d step.name .requiresReconciliation text)
  else if step.idempotency = .notRetryable ∨
      (step.idempotency = .requiresOperationID ∧ opts.operationID = "") then
    let text :=
      if step.idempotency = .requiresOperationID ∧ opts.operationID = "" then
        "operation id required for retry"
      else msg
    let st := { st with status := .failed, error := text, finishedAt := now }
    compensateAndFail d (inst.setStep step.name st) opts (runError d step.name .notRetryable text)
  else
    let st :=
      { st with
        status := .failed, error := msg, finishedAt := now
        evidence := st.evidence ++ [res.evidence] }
    compensateAndFail d (inst.setStep step.name st) opts
      (.error { op := "Run", workflow := d.name, step := step.name, err := .action err
                message := msg })

/-- A step that was under way cannot be repeated. -/
def failResumeNotRetryable (d : Definition) (inst : Instance) (step : StepDef) (text : String)
    (opts : RunOptions) : M Reply :=
  compensateAndFail d inst opts (runError d step.name .notRetryable text)

/-- `return false, err`. -/
def refuse (p : M Reply) : M (Instance × Except Fault Bool) := do
  let (inst, err) ← p
  return (inst, err.elim (.ok false) .error)

/-- `prepareStepResume`: an error, or whether the step must not run again. -/
def prepareStepResume (d : Definition) (inst : Instance) (name : String) (opts : RunOptions) :
    M (Instance × Except Fault Bool) :=
  let st := inst.checkpoint.step name
  let step := d.step name
  match st.status with
  | .completed | .compensated | .skipped => return (inst, .ok true)
  | .failed =>
    if step.idempotency = .notRetryable ∨
        (step.idempotency = .requiresOperationID ∧ opts.operationID = "") then
      refuse (failResumeNotRetryable d inst step st.error opts)
    else
      return (inst.setStep name { st with status := .pending, error := "" }, .ok false)
  | .running =>
    if step.idempotency = .notRetryable ∨ step.idempotency = .requiresReconciliation then
      let text := "interrupted while running; requires reconciliation"
      let st := { st with status := .reconcile, error := text }
      refuse (halt (inst.setStep name st) .requiresReconciliation
        (runError d name .requiresReconciliation text))
    else if step.idempotency = .requiresOperationID ∧ opts.operationID = "" then
      let text := "operation id required to retry interrupted step"
      let st := { st with status := .failed, error := text }
      refuse (failResumeNotRetryable d (inst.setStep name st) step text opts)
    else
      return (inst.setStep name { st with status := .pending }, .ok false)
  | .reconcile =>
    refuse (halt inst .requiresReconciliation (runError d name .requiresReconciliation st.error))
  | .unset | .pending | .compensating => return (inst, .ok false)

/-- The step is running. -/
def StepState.started (st : StepState) (name : String) (now : Time) : StepState :=
  { st with name, status := .running, attempt := st.attempt + 1, startedAt := now }

/-- The step is done. -/
def StepState.completed (st : StepState) (now : Time) (res : Result) : StepState :=
  { st with status := .completed, finishedAt := now, evidence := st.evidence ++ [res.evidence] }

/-- The result of a step that was not run. -/
def dryRunResult (now : Time) : Result :=
  { evidence := { time := now, event := "dry-run", summary := "skipped side effects" } }

/-- `step.Action(ctx, exec)`, except in a dry run. -/
def invoke (inst : Instance) (now : Time) (x : ExecContext) : M (Result × Option ActionError) :=
  if inst.dryRun then return (dryRunResult now, none) else perform (.action x)

/-- One step, with its failure. -/
def runStep (d : Definition) (inst : Instance) (step : StepDef) (opts : RunOptions) :
    M Reply := do
  let now ← perform .clock
  let st := (inst.checkpoint.step step.name).started step.name now
  let (inst, _) ← persist (inst.setStep step.name st)
  let epoch ← observeEpoch step
  let (res, err) ← invoke inst now (execContext d inst step.name step st.attempt epoch opts)
  if err.isSome || res.ambiguous then
    handleStepFailure d inst step st res err opts
  else
    let now ← perform .clock
    persist (inst.complete step.name (st.completed now res) epoch)

/-- A lockdown stops the run. -/
def lockdown (d : Definition) (inst : Instance) (name : String) : M Reply :=
  halt inst .lockedDown (runError d name .lockdown "lockdown blocks mutation step")

/-- A run whose context is done. -/
def cancelled (d : Definition) (inst : Instance) (text : String) : M Reply :=
  halt inst .cancelled (runError d "" .cancelled text)

/-- A step that is due, unless there is a lockdown. -/
def guardedStep (d : Definition) (inst : Instance) (name : String) (opts : RunOptions) :
    M Reply := do
  if ← blocked (d.step name) then lockdown d inst name
  else runStep d inst (d.step name) opts

/-- The loop of `executeSequential`. -/
def executeSequential (d : Definition) (opts : RunOptions) : List String → Instance → M Reply
  | [], inst => persist (inst.setState .completed)
  | name :: names, inst => do
    match ← perform .ctxErr with
    | some err => cancelled d inst err.text
    | none =>
      match ← prepareStepResume d inst name opts with
      | (inst, .error err) => return (inst, some err)
      | (inst, .ok true) => executeSequential d opts names inst
      | (inst, .ok false) =>
        match ← guardedStep d inst name opts with
        | (inst, some err) => return (inst, some err)
        | (inst, none) => executeSequential d opts names inst

/-! ## Parallel batches -/

/-- The members of a batch are marked as running, and their contexts made. -/
def prepareBatch (d : Definition) (opts : RunOptions) (now : Time) :
    List String → Instance → M (Instance × List Prepared)
  | [], inst => return (inst, [])
  | name :: names, inst => do
    let step := d.step name
    let st := (inst.checkpoint.step name).started name now
    let epoch ← observeEpoch step
    let p : Prepared :=
      { name, step, st, epoch, exec := execContext d inst name step st.attempt epoch opts }
    let (inst, ps) ← prepareBatch d opts now names (inst.setStep name st)
    return (inst, p :: ps)

/-- One step of a batch. -/
def goroutine (inst : Instance) (now : Time) (p : Prepared) : M Outcome := do
  match ← perform .acquire with
  | some err => return { p, err := some { text := err.text, cancelled := true } }
  | none =>
    let (res, err) ← invoke inst now p.exec
    return { p, res, err }

/-- The goroutines, one after the other. -/
def launch (inst : Instance) (now : Time) : List Prepared → M (List Outcome)
  | [] => return []
  | p :: ps => do
    let o ← goroutine inst now p
    let os ← launch inst now ps
    return o :: os

/-- `sort.Slice` by name. -/
def sortOutcomes (os : List Outcome) : List Outcome :=
  os.insertionSort fun a b => a.p.name ≤ b.p.name

/-- The successes are applied; the first failure is kept for later. -/
def applyOutcomes : List Outcome → Instance → Option Outcome → M (Instance × Option Outcome)
  | [], inst, fail => return (inst, fail)
  | o :: os, inst, fail =>
    if o.failed then applyOutcomes os inst (fail.or (some o))
    else do
      let now ← perform .clock
      applyOutcomes os (inst.complete o.p.name (o.p.st.completed now o.res) o.p.epoch) fail

/-- The other members that are still running are marked as failed. -/
def failSiblings (fail : Outcome) : List Outcome → Instance → M Instance
  | [], inst => return inst
  | o :: os, inst =>
    let st := inst.checkpoint.step o.p.name
    if o.p.name ≠ fail.p.name ∧ st.status = .running then do
      let now ← perform .clock
      let st :=
        { st with
          status := .failed, error := "sibling step failed in parallel group", finishedAt := now }
      failSiblings fail os (inst.setStep o.p.name st)
    else failSiblings fail os inst

/-- The first member that a lockdown blocks. -/
def blockedMember (d : Definition) : List String → M (Option String)
  | [] => return none
  | name :: names => do
    if ← blocked (d.step name) then return some name
    else blockedMember d names

/-- A step of the batch has failed. -/
def failBatch (d : Definition) (inst : Instance) (fail : Outcome) (os : List Outcome)
    (opts : RunOptions) : M Reply := do
  let inst ← failSiblings fail os inst
  let (inst, _) ← persist inst
  match fail.err with
  | some err =>
    if err.cancelled then cancelled d inst err.text
    else handleStepFailure d inst fail.p.step fail.p.st fail.res fail.err opts
  | none => handleStepFailure d inst fail.p.step fail.p.st fail.res fail.err opts

/-- A batch of steps at once. -/
def runParallelBatch (d : Definition) (inst : Instance) (names : List String) (opts : RunOptions) :
    M Reply := do
  match ← blockedMember d names with
  | some name => lockdown d inst name
  | none =>
    let now ← perform .clock
    let (inst, preps) ← prepareBatch d opts now names inst
    match ← persist inst with
    | (inst, some err) => return (inst, some err)
    | (inst, none) =>
      let order ← perform (.schedule preps)
      let os ← launch inst now order.1
      let (inst, fail) ← applyOutcomes (sortOutcomes os) inst none
      let (inst, _) ← persist inst
      match fail with
      | none => return (inst, none)
      | some fail => failBatch d inst fail (sortOutcomes os) opts

/-! ## The parallel executor -/

/-- What a scan for ready steps has found. -/
structure Scan where
  inst : Instance
  done : List String
  ready : List String := []

/-- The steps whose dependencies are done. -/
def scanReady (d : Definition) (opts : RunOptions) : List String → Scan → M (Scan × Option Fault)
  | [], scan => return (scan, none)
  | name :: names, scan =>
    if name ∈ scan.done ∨ scan.inst.status name = .failed ∨ scan.inst.status name = .reconcile ∨
        ∃ dep ∈ (d.step name).dependsOn, dep ∉ scan.done then
      scanReady d opts names scan
    else do
      match ← prepareStepResume d scan.inst name opts with
      | (inst, .error err) => return ({ scan with inst }, some err)
      | (inst, .ok true) => scanReady d opts names { scan with inst, done := scan.done.insert name }
      | (inst, .ok false) => scanReady d opts names { scan with inst, ready := scan.ready ++ [name] }

/-- No step is ready: the first one that has failed or needs reconciliation is reported. -/
def noneReady (d : Definition) (inst : Instance) (done : List String) : M Reply :=
  let isStuck (name : String) : Bool :=
    name ∉ done ∧ (inst.status name = .failed ∨ inst.status name = .reconcile)
  match d.order.find? isStuck with
  | some name =>
    let text := (inst.checkpoint.step name).error
    if inst.status name = .failed then halt inst .failed (runError d name .notRetryable text)
    else halt inst .requiresReconciliation (runError d name .requiresReconciliation text)
  | none => return (inst, some (runError d "" .invalidState "no ready steps"))

/-- The smallest name of a group that has ready steps; empty if there is none. -/
def firstGroup (d : Definition) (ready : List String) : String :=
  ((ready.map fun name => (d.step name).parallelGroup).filter (· ≠ "")).foldl
    (fun gname g => if gname = "" ∨ g < gname then g else gname) ""

/-- The ready steps that a round runs, and what it returns. -/
def runReady (d : Definition) (inst : Instance) (ready : List String) (opts : RunOptions) :
    M (Reply × List String) := do
  let gname := firstGroup d ready
  if gname ≠ "" then
    let batch := ready.filter fun name => (d.step name).parallelGroup = gname
    let (inst, err) ← runParallelBatch d inst batch opts
    return ((inst, err), batch.filter fun name => (inst.status name).done)
  else
    -- No ready step is in a group: they are `sequential`.
    let name := ready.headD ""
    let reply ← guardedStep d inst name opts
    return (reply, [name])

/-- The main loop of `executeParallel`. -/
def parallelLoop (d : Definition) (opts : RunOptions) : Nat → Instance → List String → M Reply
  | 0, inst, _ => return (inst, some .outOfFuel)
  | fuel + 1, inst, done =>
    if done.length < d.order.length then do
      match ← perform .ctxErr with
      | some err => cancelled d inst err.text
      | none =>
        match ← scanReady d opts d.order { inst, done } with
        | (scan, some err) => return (scan.inst, some err)
        | (scan, none) =>
          if scan.ready = [] then noneReady d scan.inst scan.done
          else
            match ← runReady d scan.inst scan.ready opts with
            | ((inst, some err), _) => return (inst, some err)
            | ((inst, none), ran) => parallelLoop d opts fuel inst (ran ∪ scan.done)
    else persist (inst.setState .completed)

/-- `executeParallel`. Every round that goes on adds to `done`, so that there are at most as many
rounds as steps. -/
def executeParallel (d : Definition) (opts : RunOptions) (inst : Instance) : M Reply :=
  parallelLoop d opts (d.order.length + 1) inst (d.order.filter fun name => (inst.status name).done)

/-! ## `Run` -/

/-- The capabilities of the steps are checked in order. -/
def validateSteps (d : Definition) : List String → M (Option Fault)
  | [] => return none
  | name :: names =>
    if (d.step name).resourceID.isZero then validateSteps d names
    else do
      match ← validateCaps (d.step name) with
      | some err => return some err
      | none => validateSteps d names

/-- The loop over the steps. -/
def execute (d : Definition) (inst : Instance) (opts : RunOptions) : M Reply := do
  match ← persist (inst.setState .validating) with
  | (inst, some err) => return (inst, some err)
  | (inst, none) =>
    match ← validateSteps d d.order with
    | some err => halt inst .failed err
    | none =>
      let (inst, _) ← persist (inst.setState .running)
      if d.order.any fun name => (d.step name).parallelGroup ≠ "" then
        executeParallel d opts inst
      else executeSequential d opts d.order inst

/-- `Run`, after its critical section. -/
def runEntered (d : Definition) (inst : Instance) (opts : RunOptions) :
    M (Option Instance × Option Fault) := do
  let (inst, err) ← execute d inst opts
  return (some inst, err)

/-- `Run`: without an instance if it is refused. -/
def run (workflow : String) (opts : RunOptions) : M (Option Instance × Option Fault) := do
  match ← perform (.enter workflow opts) with
  | .error err => return (none, some err)
  | .ok (d, inst) => runEntered d inst opts

end ShiftLock.Workflow
