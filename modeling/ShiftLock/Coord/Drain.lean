import ShiftLock.Types

/-!
# Drain groups (`drain.go`)

In-flight work of a claim. `done` says that the channel of that name is closed, and `panicked` that it
was closed again; draining is never undone. The wait of `Wait` is one step: it ends when `done` is closed, or with a timeout, which the
environment decides and which always comes in the end, since `Handoff.Drain` sets a deadline.
-/

namespace ShiftLock

/-- `DrainGroup`. A name that is not in the map `named` reads as zero. -/
structure DrainGroup where
  active : Int := 0
  named : String → Int := fun _ => 0
  maxNamed : Int := 0
  draining : Bool := false
  done : Bool := false
  panicked : Bool := false
  closed : Bool := false

namespace DrainGroup

/-- `NewDrainGroup`. -/
def new (maxNamed : Int) : DrainGroup := { maxNamed }

/-- `BeginNamed`; the error of a refused operation. -/
def beginNamed (g : DrainGroup) (name : String) : DrainGroup × Option Err :=
  if g.closed then (g, some (.of .closed))
  else if g.draining then (g, some (.of .draining))
  else if name ≠ "" ∧ 0 < g.maxNamed then
    if g.maxNamed ≤ g.named name then
      (g, some (.typed {
        op := "drain.BeginNamed"
        err := .sentinel .policy
        message := "named op limit reached"
        claim := name }))
    else
      ({ g with
        named := Function.update g.named name (g.named name + 1)
        active := g.active + 1 }, none)
  else ({ g with active := g.active + 1 }, none)

/-- `Begin`: an operation without a name. -/
def begin (g : DrainGroup) : DrainGroup × Option Err := g.beginNamed ""

/-- `close(g.done)`. -/
def closeDone (g : DrainGroup) : DrainGroup :=
  if g.done then { g with panicked := true } else { g with done := true }

/-- The `select` that closes the channel unless it is closed. -/
def finish (g : DrainGroup) : DrainGroup := if g.done then g else g.closeDone

/-- The critical section of the function that `BeginNamed` returned for `name`. -/
def release (g : DrainGroup) (name : String) : DrainGroup :=
  let g := { g with active := g.active - 1 }
  let g :=
    if name ≠ "" then
      { g with named := Function.update g.named name (max 0 (g.named name - 1)) }
    else g
  if g.draining ∧ g.active = 0 then g.finish else g

/-- `StartDrain`. -/
def startDrain (g : DrainGroup) : DrainGroup :=
  if g.draining then g
  else
    let g := { g with draining := true }
    if g.active = 0 then g.finish else g

/-- The end of the `select` in `Wait`; `expired` is the message of the context or the deadline. -/
def wait (g : DrainGroup) (expired : Option String) : Option Err :=
  let timeout (message : String) : Err :=
    .typed { op := "drain.Wait", err := .sentinel .timeout, message }
  match expired with
  | some message => timeout message
  | none => if g.done then none else timeout "drain deadline exceeded"

/-- `Close`. -/
def close (g : DrainGroup) : DrainGroup := { g with closed := true }.startDrain

theorem finish_eq (g : DrainGroup) : g.finish = { g with done := true } := by
  unfold finish closeDone
  split
  · rename_i h
    rw [← h]
  · rfl

theorem startDrain_eq (g : DrainGroup) :
    g.startDrain = { g with
      draining := true, done := g.done || (!g.draining && g.active = 0) } := by
  obtain ⟨active, named, maxNamed, draining, done, panicked, closed⟩ := g
  cases draining <;> by_cases hzero : active = 0 <;> simp [startDrain, finish_eq, hzero]

end DrainGroup
end ShiftLock
