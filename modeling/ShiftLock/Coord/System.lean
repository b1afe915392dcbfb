import ShiftLock.Handoff.Code

/-!
# A coordinator as a system of threads

The calls of the users of one coordinator and its goroutines are the tasks of a system in the sense
of `ShiftLock.Conc.Pool`; its schedules interleave them at the level of atomic actions. Outside of
the coordinator, other clients use the backend and workers begin and end operations of the drain
groups.

`World.new` is the coordinator that `New` returns. `Run` ends here where it calls the worker with
the lease.
-/

namespace ShiftLock

/-- The calls and the goroutines of a coordinator. `waitRound` and `runRound` are rounds of the loop
of `WaitForOwnership`, in a call of it and in `Run`. -/
inductive Task where
  | claim (name : String)
  | tryAcquire (name : String)
  | waitForOwnership (name : String)
  | waitRound (name : String)
  | release (name : String)
  | run (worker : Code.Worker)
  | runRound (name : String)
  | prepareHandoff
  | drain (h : Nat)
  | transfer (h : Nat) (successor : String)
  | commit (h : Nat)
  | abort (h : Nat)
  | close
  | renewal (name : String)
  | watcher (h : Nat)
  deriving DecidableEq, Repr

inductive Result where
  | done
  | error (err : Option Err)
  | lease (l : Except Err Code.Obtained)
  | handoff (h : Except Err Nat)
  deriving DecidableEq

/-- What happens outside of the coordinator. -/
inductive Outside where
  | client (c : Memory.Call) (op : Memory.Op)
  | beginWork (claim name : String)
  | endWork (claim name : String)

namespace Coord

/-- The goroutine that an action starts. -/
def fork : (a : Act) → a.Answer → Option Task
  | .go (.renewal name), true => some (.renewal name)
  | .go (.watcher h), true => some (.watcher h)
  | _, _ => none

/-- A step outside of the coordinator. -/
def outside : Outside → World → World
  | .client c op, w => { w with backend := (w.backend.apply c op).1 }
  | .beginWork claim name, w => w.onDrain claim fun g => (g.beginNamed name).1
  | .endWork claim name, w => w.onDrain claim (·.release name)

end Coord

namespace Code

variable (cfg : Config)

/-- The end of a call that returns an error or nil. -/
def returns (p : P (Option Err)) : P (Result ⊕ Task) := do return .inl (.error (← p))

def task : Task → P (Result ⊕ Task)
  | .claim name => returns (claim name)
  | .tryAcquire name => do return .inl (.lease (← tryAcquire cfg name))
  | .waitForOwnership name => do
    match ← perform .checkOpen with
    | some err => return .inl (.lease (.error (wrapClaim "WaitForOwnership" name err)))
    | none => return .inr (.waitRound name)
  | .waitRound name => do
    match ← waitRound cfg name with
    | some r => return .inl (.lease r)
    | none => return .inr (.waitRound name)
  | .release name => returns (release cfg name)
  | .run worker => do
    match ← runBegin worker with
    | some err => return .inl (.lease (.error err))
    | none => return .inr (.runRound worker.name)
  | .runRound name => do
    match ← waitRound cfg name with
    | some (.ok l) => return .inl (.lease (.ok l))
    | some (.error err) => return .inl (.lease (.error (wrap "Run" err)))
    | none => return .inr (.runRound name)
  | .prepareHandoff => do return .inl (.handoff (← prepareHandoff))
  | .drain h => returns (drain h)
  | .transfer h s => returns (transfer cfg h s)
  | .commit h => returns (commit cfg h)
  | .abort h => returns (abort cfg h)
  | .close => do
    close
    return .inl .done
  | .renewal name => do
    if ← renewalRound cfg name then return .inr (.renewal name) else return .inl .done
  | .watcher h => do
    watcher cfg h
    return .inl .done

/-- `New`, once the configuration is accepted. -/
def register (gen : Generation) : P (Option Err) := do
  match (← perform (.call (.registerGeneration gen))).err with
  | some err => return some (wrap "New" err)
  | none =>
    let _ ← setState .standby .registered
    perform (.emit { type := .generationRegistered, reason := .registered, toState := some .standby })
    return none

end Code

/-- The generation of a new coordinator. -/
def Config.generation (cfg : Config) (now : Time) : Generation :=
  { id := cfg.generationID
    service := cfg.service
    instanceID := cfg.instanceID
    state := .joining
    startedAt := now
    updatedAt := now
    reason := .registered }

/-- The coordinator that `New` returns for an accepted configuration. -/
def World.new (cfg : Config) (now : Time) (b : Memory.Backend) : World :=
  ((Code.register (cfg.generation now)).run (Coord.exec cfg) (fun _ => { now }) 0
    { backend := b, coord := { gen := cfg.generation now } }).1

def Config.sample (genID : String) : Config :=
  Config.filled 1 { service := "svc", instanceID := "a", generationID := genID }

def Coord.system (cfg : Config) :
    Conc.Sys Coord.Act Coord.Act.Answer World Coord.Env Outside Task Result where
  exec := exec cfg
  env := outside
  fork := fork
  code := Code.task cfg

namespace Coord

open Conc (Move)

abbrev State := Conc.Config Act Act.Answer World Task Result

abbrev Thread := Conc.Thread Act Act.Answer Task Result

/-- The moves of a coordinator. -/
abbrev Schedule := List (Move Env Outside Task)

/-- The configuration after `i` moves of a schedule from world `w`. -/
abbrev stateAt (cfg : Config) (w : World) (xs : Schedule) (i : Nat) : State :=
  (system cfg).stateAt w xs i

/-- An environment in which every clock reads 1. -/
def Env.atOne : Env := { call := .at 1, now := 1 }

end Coord
end ShiftLock
