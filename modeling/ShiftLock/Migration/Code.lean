import ShiftLock.Conc.Pool
import ShiftLock.Types

/-!
# A migration (`migration/migration.go`)

The calls on one migration of a coordinator as programs of atomic actions: one for every critical
section, for the check of the gates, for every look at the context, for a step of the verification,
and for the begin and the end of the cutover hook. `Start` on a paused run goes on as `Resume`, and
`Resume` as a `Start` that re-enters the recorded phase.

The hooks, the gates and the contexts belong to the environment. `World.log` records what the hooks
returned; no call reads it. The fields of a run that are copies of its definition and the percentage
of its progress are left out.
-/

namespace ShiftLock.Migration

open Conc (Move)

/-- The phases of a migration, and any other text. -/
inductive Phase where
  | planned
  | validated
  | preparing
  | copying
  | verifying
  | cutover
  | paused
  | compensating
  | completed
  | failed
  | other (text : String)
  deriving DecidableEq, Repr

/-- The text of a phase. -/
def Phase.text : Phase → String
  | .planned => "planned"
  | .validated => "validated"
  | .preparing => "preparing"
  | .copying => "copying"
  | .verifying => "verifying"
  | .cutover => "cutover"
  | .paused => "paused"
  | .compensating => "compensating"
  | .completed => "completed"
  | .failed => "failed"
  | .other text => text

/-- No phase follows. -/
def Phase.terminal (p : Phase) : Bool := p = .completed || p = .failed

/-- The zero value. -/
abbrev Phase.empty : Phase := .other ""

/-- What the code reads of `Definition`: `verifySteps` says which steps are not nil, `sourceID`
whether it is not zero. -/
structure Definition where
  owner : String := ""
  fence : Nat := 0
  sourceID : Bool := false
  verifySteps : List Bool := []
  cutover : Bool := true
  deriving DecidableEq, Repr

/-- What is saved of a run. -/
structure Checkpoint where
  phase : Phase
  resumeFrom : Phase := .empty
  copied : Int := 0
  total : Int := 0
  attrs : List (String × String) := []
  updatedAt : Time := 0
  deriving DecidableEq, Repr

/-- A run and its progress. -/
structure Run where
  phase : Phase := .planned
  dryRun : Bool := false
  copied : Int := 0
  total : Int := 0
  message : String := ""
  checkpoint : Checkpoint := { phase := .planned }
  updatedAt : Time := 0
  deriving DecidableEq, Repr

/-- The options of `Start`. -/
structure StartOptions where
  dryRun : Bool := false
  total : Int := 0
  copiedSeed : Int := 0
  pauseAfter : Phase := .empty
  resume : Bool := false
  deriving DecidableEq, Repr

/-- What a run reports. -/
structure Progress where
  phase : Phase
  copied : Int
  total : Int
  dryRun : Bool
  message : String
  updatedAt : Time
  deriving DecidableEq, Repr

/-- `progressOf`. -/
def Run.progress (r : Run) : Progress :=
  { phase := r.phase, copied := r.copied, total := r.total, dryRun := r.dryRun
    message := r.message, updatedAt := r.updatedAt }

/-- The errors. `hook` is an error of the cutover hook, which may be `ErrPaused` or wrap it. -/
inductive Error where
  | invalidPhase
  | paused
  | lockdown
  | ownership
  | fence (text : String)
  | verifyFailed (step : Nat) (text : String)
  | hook (text : String) (wraps : Bool)
  | ctx (text : String)
  deriving DecidableEq, Repr

/-- The text of an error. -/
def Error.text : Error → String
  | .invalidPhase => "migration: invalid phase transition"
  | .paused => "migration: paused"
  | .lockdown => "migration: lockdown blocks mutation"
  | .ownership => "migration: ownership required"
  | .fence text => "migration: fencing check failed: " ++ text
  | .verifyFailed step text =>
    "migration: cutover verification failed: step " ++ toString step ++ ": " ++ text
  | .hook text _ => text
  | .ctx text => text

/-- `errors.Is(err, ErrPaused)`. -/
def Error.isPaused : Error → Bool
  | .paused => true
  | .hook _ wraps => wraps
  | _ => false

/-- The callbacks of a definition. -/
inductive Hook where
  | verify (step : Nat)
  | cutover
  deriving DecidableEq, Repr

/-- The migration: its run, and what its hooks returned, the texts of their errors. -/
structure World where
  run : Run := {}
  log : List (Hook × Option String) := []
  deriving DecidableEq

/-- What the environment fixes for one action. -/
structure Env where
  now : Time := 0
  /-- The lockdown gate blocks mutations. -/
  blocks : Bool := false
  /-- The ownership gate says that the owner owns the source. -/
  owns : Bool := true
  /-- The error of the fence gate. -/
  fence : Option String := none
  /-- The error of the context. -/
  ctx : Option String := none
  /-- The error of a step of the verification. -/
  verify : Option String := none
  /-- The error of the cutover hook, and whether it is or wraps `ErrPaused`. -/
  cutover : Option (String × Bool) := none

/-- An environment without errors. -/
def Env.calm : Env := {}

/-! ## Sections -/

/-- How the first section of `Start` ends. -/
inductive StartEntry where
  | invalid
  | paused
  | started
  deriving DecidableEq, Repr

namespace Run

/-- The first section of `Start`. -/
def startBegin (r : Run) (opts : StartOptions) : Run × StartEntry :=
  if r.phase.terminal then (r, .invalid)
  else
    ({ r with dryRun := r.dryRun || opts.dryRun },
      if r.phase = .paused then .paused
      else if r.phase = .failed ∨ r.phase = .compensating then .invalid
      else .started)

/-- The section of `advanceTo` that skips the cutover of a dry run. -/
def skipCutover (r : Run) (now : Time) : Run :=
  { r with
    phase := .completed
    message := "dry-run: cutover skipped"
    updatedAt := now
    checkpoint := {
      phase := .completed, updatedAt := now, copied := r.copied, total := r.total
      attrs := [("dry_run", "true"), ("cutover", "skipped")] } }

/-- The section of `advanceTo` for the copy. -/
def seed (r : Run) (total copiedSeed : Int) : Run :=
  { r with
    total := if 0 < total then total else r.total
    copied := if 0 < copiedSeed ∧ r.copied = 0 then copiedSeed else r.copied }

/-- The last section of `advanceTo`, and whether it has paused the run. -/
def enter (r : Run) (now : Time) (target pauseAfter : Phase) : Run × Bool :=
  let checkpoint : Checkpoint :=
    { phase := target, updatedAt := now, copied := r.copied, total := r.total }
  if pauseAfter ≠ .empty ∧ target = pauseAfter ∧ target.terminal = false then
    ({ r with
      phase := .paused
      updatedAt := now
      message := "paused after " ++ target.text
      checkpoint := { checkpoint with resumeFrom := target, phase := .paused } }, true)
  else ({ r with phase := target, updatedAt := now, checkpoint }, false)

/-- `ReportCopy`, in one section. -/
def reportCopy (r : Run) (now : Time) (copied total : Int) : Run × Option Error :=
  if r.phase ≠ .copying ∧ r.phase ≠ .paused then (r, some .invalidPhase)
  else
    let total := if 0 < total then total else r.total
    ({ r with
      copied, total, updatedAt := now
      checkpoint := { r.checkpoint with copied, total, updatedAt := now } }, none)

/-- `Pause`, in one section. -/
def pause (r : Run) (now : Time) (reason : String) : Run × Option Error :=
  if r.phase.terminal ∨ r.phase = .paused then (r, some .invalidPhase)
  else
    ({ r with
      checkpoint := { r.checkpoint with resumeFrom := r.phase, phase := .paused, updatedAt := now }
      phase := .paused, message := reason, updatedAt := now }, none)

/-- The section of `Resume`: the options of the `Start` that follows. -/
def resume (r : Run) (now : Time) : Run × Except Error StartOptions :=
  if r.phase ≠ .paused then (r, .error .invalidPhase)
  else
    ({ r with
      phase := if r.checkpoint.resumeFrom = .empty then .copying else r.checkpoint.resumeFrom
      message := "resumed", updatedAt := now },
      .ok { dryRun := r.dryRun, total := r.total, copiedSeed := r.copied, resume := true })

/-- `Compensate`; the phase `compensating` is not seen outside of the section. -/
def compensate (r : Run) (now : Time) (reason : String) : Run × Option Error :=
  if r.phase = .completed then (r, some .invalidPhase)
  else
    ({ r with
      phase := .failed, message := reason, updatedAt := now
      checkpoint := { r.checkpoint with phase := .failed, updatedAt := now } }, none)

/-- The run has failed. -/
def fail (r : Run) (now : Time) (msg : String) : Run :=
  { r with
    phase := .failed, message := msg, updatedAt := now
    checkpoint := { r.checkpoint with phase := .failed, updatedAt := now } }

end Run

/-- The phases in the order of `allowedTransition`. -/
def order : List Phase :=
  [.planned, .validated, .preparing, .copying, .verifying, .cutover, .completed]

/-- The phase may follow. -/
def allowedTransition (source target : Phase) : Bool :=
  if source = target then true
  else if target = .failed ∨ target = .paused ∨ target = .compensating then !source.terminal
  else
    match order.idxOf? source, order.idxOf? target with
    | some fi, some ti => ti = fi + 1 || source = .paused
    | _, _ => source = .paused

/-- `setPhase`, in one section. -/
def Run.setPhase (r : Run) (now : Time) (phase : Phase) : Run × Option Error :=
  if allowedTransition r.phase phase then
    ({ r with
      phase, updatedAt := now
      checkpoint := { r.checkpoint with phase, updatedAt := now } }, none)
  else (r, some .invalidPhase)

/-- The first gate that refuses. -/
def checkGates (d : Definition) (mutating : Bool) (e : Env) : Option Error :=
  if mutating ∧ e.blocks then some .lockdown
  else if d.owner ≠ "" ∧ d.sourceID ∧ e.owns = false then some .ownership
  else if d.fence ≠ 0 ∧ d.sourceID then e.fence.map .fence
  else none

/-! ## Actions -/

/-- The steps that other threads can see. -/
inductive Act where
  | startBegin (opts : StartOptions)
  | checkGates (mutating : Bool)
  | readPhase
  | ctxErr
  | fail (msg : String)
  | readPaused
  | readDry (dryRun : Bool)
  | skipCutover
  | seed (total copiedSeed : Int)
  | cloneRun
  | verify (step : Nat) (run : Run)
  | cutoverBegin (run : Run)
  | cutoverEnd
  | enter (target pauseAfter : Phase)
  | progressOf
  | reportCopy (copied total : Int)
  | pause (reason : String)
  | resume
  | compensate (reason : String)
  | setPhase (phase : Phase)
  deriving DecidableEq, Repr

/-- What a step answers. -/
abbrev Act.Answer : Act → Type
  | .startBegin _ => StartEntry
  | .checkGates _ => Option Error
  | .readPhase => Phase
  | .ctxErr => Option String
  | .readPaused => Option Progress
  | .readDry _ => Bool
  | .cloneRun => Run
  | .verify _ _ => Option String
  | .cutoverEnd => Option (String × Bool)
  | .enter _ _ => Bool
  | .progressOf => Progress
  | .reportCopy _ _ => Option Error
  | .pause _ => Except Error Progress
  | .resume => Except Error StartOptions
  | .compensate _ => Except Error Progress
  | .setPhase _ => Option Error
  | _ => Unit

namespace World

/-- The run has changed. -/
def onRun (w : World) (r : Run) : World := { w with run := r }

/-- A callback has returned. -/
def returned (w : World) (hook : Hook) (err : Option String) : World :=
  { w with log := w.log ++ [(hook, err)] }

@[simp] theorem onRun_run (w : World) (r : Run) : (w.onRun r).run = r := rfl

@[simp] theorem onRun_log (w : World) (r : Run) : (w.onRun r).log = w.log := rfl

@[simp] theorem returned_run (w : World) (hook : Hook) (err : Option String) :
    (w.returned hook err).run = w.run := rfl

@[simp] theorem returned_log (w : World) (hook : Hook) (err : Option String) :
    (w.returned hook err).log = w.log ++ [(hook, err)] := rfl

end World

/-- The progress that a section returns with its error. -/
def progressOr (p : Run × Option Error) : Except Error Progress :=
  match p.2 with
  | some err => .error err
  | none => .ok p.1.progress

/-- The meaning of a step. -/
def exec (d : Definition) : (a : Act) → Env → World → World × a.Answer
  | .startBegin opts, _, w => (w.onRun (w.run.startBegin opts).1, (w.run.startBegin opts).2)
  | .checkGates mutating, e, w => (w, checkGates d mutating e)
  | .readPhase, _, w => (w, w.run.phase)
  | .ctxErr, e, w => (w, e.ctx)
  | .fail msg, e, w => (w.onRun (w.run.fail e.now msg), ())
  | .readPaused, _, w => (w, if w.run.phase = .paused then some w.run.progress else none)
  | .readDry dryRun, _, w => (w, w.run.dryRun || dryRun)
  | .skipCutover, e, w => (w.onRun (w.run.skipCutover e.now), ())
  | .seed total copiedSeed, _, w => (w.onRun (w.run.seed total copiedSeed), ())
  | .cloneRun, _, w => (w, w.run)
  | .verify step _, e, w => (w.returned (.verify step) e.verify, e.verify)
  | .cutoverBegin _, _, w => (w, ())
  | .cutoverEnd, e, w => (w.returned .cutover (e.cutover.map (·.1)), e.cutover)
  | .enter target pauseAfter, e, w =>
    (w.onRun (w.run.enter e.now target pauseAfter).1, (w.run.enter e.now target pauseAfter).2)
  | .progressOf, _, w => (w, w.run.progress)
  | .reportCopy copied total, e, w =>
    (w.onRun (w.run.reportCopy e.now copied total).1, (w.run.reportCopy e.now copied total).2)
  | .pause reason, e, w =>
    (w.onRun (w.run.pause e.now reason).1, progressOr (w.run.pause e.now reason))
  | .resume, e, w => (w.onRun (w.run.resume e.now).1, (w.run.resume e.now).2)
  | .compensate reason, e, w =>
    (w.onRun (w.run.compensate e.now reason).1, progressOr (w.run.compensate e.now reason))
  | .setPhase phase, e, w =>
    (w.onRun (w.run.setPhase e.now phase).1, (w.run.setPhase e.now phase).2)

/-! ## Programs -/

/-- Programs over the steps. -/
abbrev P := Conc.Prog Act Act.Answer

/-- One step as a program. -/
abbrev perform (a : Act) : P a.Answer := Conc.Prog.perform a

/-- What a call returns: no progress is Go's zero value. -/
structure Result where
  progress : Option Progress := none
  err : Option Error := none
  deriving DecidableEq, Repr

/-- The phases of `Start`. -/
def phases : List Phase := [.validated, .preparing, .copying, .verifying, .cutover, .completed]

/-- `phases[startIdx:]` for a run in phase `cur`. -/
def phasesFrom (cur : Phase) (inclusive : Bool) : List Phase :=
  if cur = .planned then phases
  else
    match phases.idxOf? cur with
    | some i => phases.drop (if inclusive then i else i + 1)
    | none => phases

/-- The steps of the verification that have a callback. -/
def Definition.steps (d : Definition) : List Nat :=
  (List.range d.verifySteps.length).filter fun i => d.verifySteps[i]? = some true

/-- The loop of `advanceTo` over the steps of the verification. -/
def verifyAll : List Nat → P (Option Error)
  | [] => return none
  | step :: rest => do
    match ← perform (.verify step (← perform .cloneRun)) with
    | some text => return some (.verifyFailed step text)
    | none => verifyAll rest

/-- The callback of the cutover. -/
def cutover (d : Definition) : P (Option Error) := do
  if d.cutover then
    perform (.cutoverBegin (← perform .cloneRun))
    match ← perform .cutoverEnd with
    | some (text, wraps) => return some (.hook text wraps)
    | none => return none
  else return none

/-- The `switch` of `advanceTo`. -/
def work (d : Definition) (opts : StartOptions) : Phase → P (Option Error)
  | .copying => do
    perform (.seed opts.total opts.copiedSeed)
    return none
  | .verifying => verifyAll d.steps
  | .cutover => cutover d
  | _ => return none

/-- The phase changes data. -/
def Phase.mutating (p : Phase) : Bool := p = .preparing || p = .copying || p = .cutover

/-- `advanceTo`: gates, work, phase. -/
def advanceTo (d : Definition) (opts : StartOptions) (target : Phase) : P (Option Error) := do
  let dry ← perform (.readDry opts.dryRun)
  match ← perform (.checkGates target.mutating) with
  | some err => return some err
  | none =>
    if dry ∧ target = .cutover then
      perform .skipCutover
      return none
    else
      match ← work d opts target with
      | some err => return some err
      | none =>
        if ← perform (.enter target opts.pauseAfter) then return some .paused else return none

/-- The loop of `Start`. -/
def advance (d : Definition) (opts : StartOptions) : List Phase → P Result
  | [] => do return { progress := ← perform .progressOf }
  | p :: rest => do
    match ← perform .ctxErr with
    | some text =>
      perform (.fail text)
      return { err := some (.ctx text) }
    | none =>
      match ← perform .readPaused with
      | some progress => return { progress := some progress, err := some .paused }
      | none =>
        match ← advanceTo d opts p with
        | none => advance d opts rest
        | some err =>
          if err.isPaused then
            return { progress := ← perform .progressOf, err := some err }
          else
            perform (.fail err.text)
            return { err := some err }

/-- The calls on a migration. A `Start` with `resume` is the end of a `Resume`. -/
inductive Task where
  | start (opts : StartOptions)
  | pause (reason : String)
  | resume
  | compensate (reason : String)
  | reportCopy (copied total : Int)
  | setPhase (phase : Phase)
  deriving DecidableEq, Repr

/-- `Start`; a paused run is resumed. -/
def start (d : Definition) (opts : StartOptions) : P (Result ⊕ Task) := do
  match ← perform (.startBegin opts) with
  | .invalid => return .inl { err := some .invalidPhase }
  | .paused => return .inr .resume
  | .started =>
    match ← perform (.checkGates true) with
    | some err => return .inl { err := some err }
    | none => return .inl (← advance d opts (phasesFrom (← perform .readPhase) opts.resume))

/-- The answer of a call. -/
def Result.of : Except Error Progress → Result
  | .error err => { err := some err }
  | .ok progress => { progress := some progress }

/-- The program of a call. -/
def code (d : Definition) : Task → P (Result ⊕ Task)
  | .start opts => start d opts
  | .pause reason => do return .inl (.of (← perform (.pause reason)))
  | .resume => do
    match ← perform .resume with
    | .error err => return .inl { err := some err }
    | .ok opts => return .inr (.start opts)
  | .compensate reason => do return .inl (.of (← perform (.compensate reason)))
  | .reportCopy copied total => do
    return .inl { err := ← perform (.reportCopy copied total) }
  | .setPhase phase => do return .inl { err := ← perform (.setPhase phase) }

/-- All calls on one run. -/
def system (d : Definition) : Conc.Sys Act Act.Answer World Env Empty Task Result where
  exec := exec d
  env x := x.elim
  fork _ _ := none
  code := code d

/-- Calls and steps in any order. -/
abbrev Schedule := List (Move Env Empty Task)

/-- The run and the calls under way. -/
abbrev State := Conc.Config Act Act.Answer World Task Result

/-- The configuration after `i` moves of a schedule on a new migration. -/
abbrev stateAt (d : Definition) (xs : Schedule) (i : Nat) : State := (system d).stateAt {} xs i

end ShiftLock.Migration
