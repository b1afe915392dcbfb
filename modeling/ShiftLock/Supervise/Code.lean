import ShiftLock.Conc.Pool
import ShiftLock.Types

/-!
# Supervised tasks (`supervise/supervise.go`)

The calls of a supervisor and the goroutines of its tasks as programs of atomic actions: one for every
critical section, for the calls of the gate, for the begin and the end of a `Run`, and for every look
at a context or wait. A run may take any time after its context is done, and the `select` of a wait
may take its timer although the context is done; the environment decides.

Contexts are numbers, and so are the calls of `context.WithCancel` in `spawn`. A supervisor without a
gate is one whose gate allows every task. `running` counts the executions of `Run`.
-/

namespace ShiftLock.Supervise

open Function
open Conc (Move)

inductive Mode where
  | singleton
  | perInstance
  | leaderOnly
  | claimBound
  | scheduled
  | oneShot
  | maintenanceOnly
  | manual
  | other (text : String)
  deriving DecidableEq, Repr

inductive FailurePolicy where
  | stop
  | restart
  | isolateZone
  | other (text : String)
  deriving DecidableEq, Repr

structure RestartPolicy where
  maxRestarts : Int := 0
  interval : Duration := 0
  maxInterval : Duration := 0
  deriving DecidableEq, Repr

def RestartPolicy.withDefaults (p : RestartPolicy) : RestartPolicy where
  maxRestarts := if p.maxRestarts ≤ 0 then 3 else p.maxRestarts
  interval := if p.interval ≤ 0 then second else p.interval
  maxInterval := if p.maxInterval ≤ 0 then 30 * second else p.maxInterval

/-- `Spec`, without the name of the claim, which only a gate reads; `run` says whether there is a
function. -/
structure Spec where
  name : String
  mode : Mode := .other ""
  run : Bool := true
  restart : RestartPolicy := {}
  failure : FailurePolicy := .other ""
  zone : String := ""
  scheduleEvery : Duration := 0
  deriving DecidableEq, Repr

inductive Error where
  | closed
  | exists
  | notFound
  | mode (text : String)
  /-- An error of the gate. -/
  | gate (text : String)
  deriving DecidableEq, Repr

/-- `task`: the context whose cancel function it has. -/
structure Entry where
  spec : Spec
  cancel : Option Nat := none
  deriving DecidableEq, Repr

/-- `Supervisor`: `zones` says which zones are isolated, `root` whether the root context is done. -/
structure World where
  tasks : String → Option Entry := fun _ => none
  zones : String → Option Bool := fun _ => none
  closed : Bool := false
  root : Bool := false
  cancelled : List Nat := []
  nextCtx : Nat := 0
  wg : Nat := 0
  running : String → Nat := fun _ => 0

namespace World

def done (w : World) (ctx : Nat) : Bool := w.root || w.cancelled.contains ctx

/-- The section of `Register`. -/
def register (w : World) (spec : Spec) : World × Option Error :=
  if w.closed then (w, some .closed)
  else if (w.tasks spec.name).isSome then (w, some .exists)
  else
    ({ w with
      tasks := update w.tasks spec.name (some { spec })
      zones := if spec.zone = "" ∨ (w.zones spec.zone).isSome then w.zones
        else update w.zones spec.zone (some false) }, none)

/-- The section of `Start`. -/
def lookup (w : World) (name : String) : Except Error Spec :=
  if w.closed then .error .closed
  else
    match w.tasks name with
    | none => .error .notFound
    | some t => .ok t.spec

/-- The section of `spawn`: the context of the new goroutine. -/
def spawn (w : World) (spec : Spec) : World × Except Error Nat :=
  if spec.zone ≠ "" ∧ w.zones spec.zone = some true then
    (w, .error (.mode ("zone " ++ spec.zone ++ " isolated")))
  else
    match w.tasks spec.name with
    | none => (w, .error .notFound)
    | some t =>
      ({ w with
        tasks := update w.tasks spec.name (some { t with cancel := some w.nextCtx })
        cancelled := t.cancel.toList ++ w.cancelled
        nextCtx := w.nextCtx + 1 }, .ok w.nextCtx)

def stop (w : World) (name : String) : World × Option Error :=
  match w.tasks name with
  | none => (w, some .notFound)
  | some t =>
    ({ w with
      tasks := update w.tasks name (some { t with cancel := none })
      cancelled := t.cancel.toList ++ w.cancelled }, none)

/-- The section of `Close`: whether the supervisor was closed before. The contexts of the tasks are
children of the root. -/
def close (w : World) : World × Bool :=
  if w.closed then (w, true) else ({ w with closed := true, root := true }, false)

def isolate (w : World) (zone : String) : World :=
  if zone = "" then w else { w with zones := update w.zones zone (some true) }

end World

inductive Act where
  | register (spec : Spec)
  | lookup (name : String)
  | gate (spec : Spec)
  | spawn (spec : Spec)
  | wgAdd
  | go (ctx : Nat) (spec : Spec)
  | beginRun (name : String)
  | endRun (name : String)
  | ctxErr (ctx : Nat)
  | wait (ctx : Nat) (after : Duration)
  | isolate (zone : String)
  | wgDone
  | stop (name : String)
  | close
  | wgWait
  deriving DecidableEq, Repr

/-- The answers of the actions. `wait` answers whether the context ended it. -/
abbrev Act.Answer : Act → Type
  | .register _ => Option Error
  | .lookup _ => Except Error Spec
  | .gate _ => Option String
  | .spawn _ => Except Error Nat
  | .endRun _ => Option String
  | .ctxErr _ => Bool
  | .wait _ _ => Bool
  | .stop _ => Option Error
  | .close => Bool
  | .wgWait => Bool
  | _ => Unit

/-- What the environment fixes for one action. -/
structure Env where
  /-- The answer of the gate. -/
  gate : Option String := none
  /-- What `Run` returns; a panic is an error. -/
  err : Option String := none
  /-- A wait whose context is done is ended by it. -/
  ctx : Bool := false

def exec : (a : Act) → Env → World → World × a.Answer
  | .register spec, _, w => w.register spec
  | .lookup name, _, w => (w, w.lookup name)
  | .gate _, e, w => (w, e.gate)
  | .spawn spec, _, w => w.spawn spec
  | .wgAdd, _, w => ({ w with wg := w.wg + 1 }, ())
  | .go _ _, _, w => (w, ())
  | .beginRun name, _, w =>
    ({ w with running := update w.running name (w.running name + 1) }, ())
  | .endRun name, e, w =>
    ({ w with running := update w.running name (w.running name - 1) }, e.err)
  | .ctxErr ctx, _, w => (w, w.done ctx)
  | .wait ctx _, e, w => (w, e.ctx && w.done ctx)
  | .isolate zone, _, w => (w.isolate zone, ())
  | .wgDone, _, w => ({ w with wg := w.wg - 1 }, ())
  | .stop name, _, w => w.stop name
  | .close, _, w => w.close
  | .wgWait, _, w => (w, w.wg = 0)

/-- The calls of a supervisor and its goroutines. `closing` is a `Close` that waits for them, `loop` a
round of `runLoop`. -/
inductive Task where
  | register (spec : Spec)
  | start (name : String)
  | startSpec (spec : Spec)
  | stop (name : String)
  | close
  | closing
  | loop (ctx : Nat) (spec : Spec) (delay : Duration) (restarts : Int)
  deriving DecidableEq, Repr

abbrev P := Conc.Prog Act Act.Answer

abbrev perform (a : Act) : P a.Answer := Conc.Prog.perform a

/-! ## The calls -/

/-- The defaults of `Register`. -/
def Spec.filled (spec : Spec) : Spec :=
  { spec with
    mode := if spec.mode = .other "" then .manual else spec.mode
    restart := spec.restart.withDefaults
    failure := if spec.failure = .other "" then .restart else spec.failure }

def register (spec : Spec) : P (Option Error) := do
  if spec.name = "" ∨ spec.run = false then return some (.mode "name and run required")
  else perform (.register spec.filled)

def spawn (spec : Spec) : P (Option Error) := do
  match ← perform (.spawn spec) with
  | .error err => return some err
  | .ok ctx =>
    perform .wgAdd
    perform (.go ctx spec)
    return none

def start (name : String) : P (Option Error) := do
  match ← perform (.lookup name) with
  | .error err => return some err
  | .ok spec =>
    match ← perform (.gate spec) with
    | some err => return some (.gate err)
    | none => spawn spec

def startSpec (spec : Spec) : P (Option Error) := do
  match ← register spec with
  | some err => return some err
  | none => if spec.mode = .manual then return none else start spec.name

/-! ## The goroutine of a task -/

/-- The goroutine ends. -/
def leave : P (Option Error ⊕ Task) := do
  perform .wgDone
  return .inl none

/-- The goroutine waits for a timer or its context, and goes on with another round. -/
def waitFor (ctx : Nat) (after : Duration) (next : Task) : P (Option Error ⊕ Task) := do
  if ← perform (.wait ctx after) then leave else return .inr next

/-- A round of `runLoop` past the look at the context; `err` is what `Run` returned. -/
def settle (ctx : Nat) (spec : Spec) (delay : Duration) (restarts : Int) (err : Option String) :
    P (Option Error ⊕ Task) :=
  let rp := spec.restart.withDefaults
  if spec.mode = .oneShot then leave
  else if err = none ∧ spec.mode = .scheduled then
    waitFor ctx (if spec.scheduleEvery ≤ 0 then 60 * second else spec.scheduleEvery)
      (.loop ctx spec delay restarts)
  else if err = none then leave
  else
    match spec.failure with
    | .stop => leave
    | .isolateZone => do
      perform (.isolate spec.zone)
      leave
    | _ =>
      if rp.maxRestarts < restarts + 1 then leave
      else waitFor ctx delay (.loop ctx spec
        (if rp.maxInterval < delay * 2 then rp.maxInterval else delay * 2) (restarts + 1))

/-- A round of `runLoop`, with `invoke`. -/
def loop (ctx : Nat) (spec : Spec) (delay : Duration) (restarts : Int) :
    P (Option Error ⊕ Task) := do
  match ← perform (.gate spec) with
  | some _ => leave
  | none =>
    perform (.beginRun spec.name)
    let err ← perform (.endRun spec.name)
    match ← perform (.ctxErr ctx) with
    | true => leave
    | false => settle ctx spec delay restarts err

/-- The end of a call. -/
def returns (p : P (Option Error)) : P (Option Error ⊕ Task) := do return .inl (← p)

def code : Task → P (Option Error ⊕ Task)
  | .register spec => returns (register spec)
  | .start name => returns (start name)
  | .startSpec spec => returns (startSpec spec)
  | .stop name => returns (perform (.stop name))
  | .close => do
    match ← perform .close with
    | true => return .inl none
    | false => return .inr .closing
  | .closing => do
    match ← perform .wgWait with
    | true => return .inl none
    | false => return .inr .closing
  | .loop ctx spec delay restarts => loop ctx spec delay restarts

/-- The goroutine that an action starts. -/
def fork : (a : Act) → a.Answer → Option Task
  | .go ctx spec, _ => some (.loop ctx spec spec.restart.withDefaults.interval 0)
  | _, _ => none

/-- What happens outside of a supervisor: the parent of its context is done. -/
inductive Outside where
  | parentDone

def system : Conc.Sys Act Act.Answer World Env Outside Task (Option Error) where
  exec := exec
  env | .parentDone, w => { w with root := true }
  fork := fork
  code := code

abbrev Schedule := List (Move Env Outside Task)

abbrev State := Conc.Config Act Act.Answer World Task (Option Error)

/-- The configuration after `i` moves of a schedule on a new supervisor. -/
abbrev stateAt (xs : Schedule) (i : Nat) : State := system.stateAt {} xs i

/-- The tasks that are calls; the others are parts of one or goroutines. -/
def Task.call : Task → Bool
  | .closing | .loop _ _ _ _ => false
  | _ => true

def Calls (xs : Schedule) : Prop := ∀ t, Move.start t ∈ xs → t.call = true

end ShiftLock.Supervise
