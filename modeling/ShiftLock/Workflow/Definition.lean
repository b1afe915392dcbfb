import ShiftLock.Types
import ShiftLock.Graph.Kahn
import Mathlib.Data.List.Sort
import Mathlib.Data.String.Basic

/-!
# Workflow definitions (`workflow/definition.go`, `errors.go`, `state.go`)

A `Builder` collects steps under distinct names, and `Build` checks the dependencies and puts the
steps in order with Kahn's algorithm. The source ranges over a map of steps; here the steps are a
list, in whatever order the map is ranged over. The result, a `Definition`, carries what the engine
relies on: the names are distinct, and the order has each of them once, after its dependencies.

The action and the compensation of a step are outside of the model: the engine only asks whether
there is a compensation, and what they do is up to the environment.
-/

namespace ShiftLock.Workflow

/-! ## Errors -/

inductive Sentinel where
  | invalidDefinition | unknownStep | cycle | invalidState | notFound | closed | lockdown
  | capability | ambiguous | requiresReconciliation | notRetryable | compensationFailed | staleEpoch
  | cancelled | boundExceeded | invalidArgument
  deriving DecidableEq, Repr

/-- An error of an action or a compensation: its text, and what `errors.Is` finds in it. -/
structure ActionError where
  text : String
  /-- `ErrAmbiguous`. -/
  ambiguous : Bool := false
  /-- `context.Canceled` or `context.DeadlineExceeded`. -/
  cancelled : Bool := false
  deriving DecidableEq, Repr

/-- What an `Error` wraps. -/
inductive Cause where
  | sentinel (s : Sentinel)
  | action (e : Option ActionError)
  deriving DecidableEq, Repr

structure Error where
  op : String
  workflow : String := ""
  step : String := ""
  err : Cause
  message : String
  deriving DecidableEq, Repr

/-! ## Steps -/

structure ResourceID where
  kind : String := ""
  environment : String := ""
  service : String := ""
  name : String := ""
  deriving DecidableEq, Repr

def ResourceID.isZero (id : ResourceID) : Bool :=
  id.kind = "" ∧ id.environment = "" ∧ id.service = "" ∧ id.name = ""

structure ResourceCapabilities where
  ownership : Bool := false
  fencing : Bool := false
  drain : Bool := false
  health : Bool := false
  failover : Bool := false
  transactions : Bool := false
  snapshots : Bool := false
  recovery : Bool := false
  rateLimit : Bool := false
  deriving DecidableEq, Repr

/-- `Require`: the first required capability that is missing. -/
def ResourceCapabilities.require (c required : ResourceCapabilities) : Option String :=
  [("ownership", required.ownership, c.ownership), ("fencing", required.fencing, c.fencing),
    ("drain", required.drain, c.drain), ("health", required.health, c.health),
    ("failover", required.failover, c.failover),
    ("transactions", required.transactions, c.transactions),
    ("snapshots", required.snapshots, c.snapshots), ("recovery", required.recovery, c.recovery),
    ("rate_limit", required.rateLimit, c.rateLimit)].findSome? fun (name, need, have_) =>
      if need && !have_ then some (name ++ " not supported") else none

inductive IdempotencyMode where
  | idempotent | requiresOperationID | notRetryable | requiresReconciliation
  deriving DecidableEq, Repr

/-- `StepDef`. Its action is never nil. -/
structure StepDef where
  name : String
  hasCompensate : Bool := false
  dependsOn : List String := []
  parallelGroup : String := ""
  idempotency : IdempotencyMode := .idempotent
  mutates : Bool := false
  requiredCaps : ResourceCapabilities := {}
  resourceID : ResourceID := {}
  deriving DecidableEq, Repr

/-- `sort.Strings`. -/
def sortStrings (l : List String) : List String := l.insertionSort (· ≤ ·)

theorem sortStrings_perm (l : List String) : (sortStrings l).Perm l := l.perm_insertionSort _

def depsOf (steps : List StepDef) (name : String) : List String :=
  ((steps.find? (·.name = name)).map StepDef.dependsOn).getD []

/-- The loops of `topoSteps`. -/
def topoOrder (steps : List StepDef) : List String :=
  Graph.Kahn.order (steps.map StepDef.name) (depsOf steps) sortStrings

structure Definition where
  name : String
  steps : List StepDef
  order : List String
  names_nodup : (steps.map StepDef.name).Nodup
  order_perm : order.Perm (steps.map StepDef.name)
  order_sorted : Graph.Sorted (depsOf steps) order

/-- `topoSteps`: the order has all steps, unless there is a cycle. -/
def topoSteps (steps : List StepDef) (hnodup : (steps.map StepDef.name).Nodup) :
    Except Error { order : List String //
      order.Perm (steps.map StepDef.name) ∧ Graph.Sorted (depsOf steps) order } :=
  if hlen : (topoOrder steps).length = (steps.map StepDef.name).length then
    .ok ⟨topoOrder steps, Graph.Kahn.order_perm hnodup sortStrings_perm hlen,
      Graph.Kahn.order_sorted hnodup sortStrings_perm⟩
  else .error { op := "Build", err := .sentinel .cycle, message := "step dependency cycle" }

/-! ## The builder -/

structure Builder where
  name : String
  steps : List StepDef := []
  err : Option Error := none
  names_nodup : (steps.map StepDef.name).Nodup

def define (name : String) : Builder where
  name := name
  err :=
    if name = "" then
      some { op := "Define", err := .sentinel .invalidDefinition, message := "name required" }
    else none
  steps := []
  names_nodup := List.nodup_nil

namespace Builder

/-- A step is replaced under its name, or added. -/
def upsert (s : StepDef) : List StepDef → List StepDef
  | [] => [s]
  | t :: ts => if t.name = s.name then s :: ts else t :: upsert s ts

theorem mem_names_upsert {s : StepDef} {ts : List StepDef} {n : String} :
    n ∈ (upsert s ts).map StepDef.name ↔ n = s.name ∨ n ∈ ts.map StepDef.name := by
  induction ts with
  | nil => simp [upsert]
  | cons t ts ih =>
    unfold upsert
    split
    · rename_i h
      simp [h]
    · simp only [List.map_cons, List.mem_cons, ih]
      tauto

theorem names_nodup_upsert {s : StepDef} {ts : List StepDef}
    (h : (ts.map StepDef.name).Nodup) : ((upsert s ts).map StepDef.name).Nodup := by
  induction ts with
  | nil => simp [upsert]
  | cons t ts ih =>
    rw [List.map_cons] at h
    obtain ⟨ht, hts⟩ := List.nodup_cons.mp h
    unfold upsert
    split
    · rename_i heq
      rwa [List.map_cons, ← heq]
    · rename_i hne
      rw [List.map_cons, List.nodup_cons, mem_names_upsert]
      exact ⟨fun hmem => hmem.elim hne ht, ih hts⟩

/-- `Step`; `action` says whether an action is given. -/
def step (b : Builder) (name : String) (action : Bool) : Builder :=
  if b.err ≠ none then b
  else if name = "" ∨ action = false then
    { b with err := some { op := "Step", workflow := b.name, err := .sentinel .invalidDefinition
                           message := "name and action required" } }
  else
    { b with
      steps := upsert { name } b.steps
      names_nodup := names_nodup_upsert b.names_nodup }

/-- The methods that change a step: `Compensate`, `Depend`, `Idempotency`, `Mutating`,
`RequireCaps`, and `ParallelGroup` on one of its steps. The change keeps the name. -/
def modify (b : Builder) (op name : String) (f : StepDef → StepDef) : Builder :=
  if b.err ≠ none then b
  else
    match b.steps.find? (·.name = name) with
    | none =>
      { b with err := some { op, workflow := b.name, step := name, err := .sentinel .unknownStep
                             message := "unknown step" } }
    | some s =>
      { b with
        steps := upsert { f s with name } b.steps
        names_nodup := names_nodup_upsert b.names_nodup }

def compensate (b : Builder) (name : String) (fn : Bool) : Builder :=
  b.modify "Compensate" name fun s => { s with hasCompensate := fn }

def depend (b : Builder) (name : String) (deps : List String) : Builder :=
  b.modify "Depend" name fun s => { s with dependsOn := s.dependsOn ++ deps }

def parallelGroup (b : Builder) (group : String) (names : List String) : Builder :=
  names.foldl (fun b name => b.modify "ParallelGroup" name fun s => { s with parallelGroup := group })
    b

def idempotency (b : Builder) (name : String) (mode : IdempotencyMode) : Builder :=
  b.modify "Idempotency" name fun s => { s with idempotency := mode }

/-- The first dependency on a step that does not exist. -/
def unknownDependency (steps : List StepDef) : Option (String × String) :=
  steps.findSome? fun s =>
    (s.dependsOn.find? fun d => !steps.any (·.name = d)).map fun d => (s.name, d)

def build (b : Builder) : Except Error Definition :=
  match b.err with
  | some err => .error err
  | none =>
    if b.steps = [] then
      .error { op := "Build", workflow := b.name, err := .sentinel .invalidDefinition
               message := "no steps" }
    else
      match unknownDependency b.steps with
      | some (name, d) =>
        .error { op := "Build", workflow := b.name, step := name, err := .sentinel .unknownStep
                 message := "depends on unknown step " ++ d }
      | none =>
        match topoSteps b.steps b.names_nodup with
        | .error err => .error err
        | .ok order =>
          .ok { name := b.name, steps := b.steps, order := order.1, names_nodup := b.names_nodup
                order_perm := order.2.1, order_sorted := order.2.2 }

end Builder

namespace Definition

/-- `Step`. -/
def step? (d : Definition) (name : String) : Option StepDef := d.steps.find? (·.name = name)

/-- `step, _ := def.Step(name)`, for the name of a step. -/
def step (d : Definition) (name : String) : StepDef := (d.step? name).getD { name }

theorem mem_order {d : Definition} {name : String} :
    name ∈ d.order ↔ name ∈ d.steps.map StepDef.name := d.order_perm.mem_iff

theorem mem_order_of_step? {d : Definition} {name : String} {step : StepDef}
    (h : d.step? name = some step) : name ∈ d.order := by
  have hname := List.find?_some h
  exact mem_order.mpr (List.mem_map.mpr ⟨step, List.mem_of_find?_eq_some h, by simpa using hname⟩)

theorem order_nodup (d : Definition) : d.order.Nodup := d.order_perm.nodup_iff.mpr d.names_nodup

theorem step_name (d : Definition) (name : String) : (d.step name).name = name := by
  unfold step step?
  cases h : d.steps.find? (·.name = name) with
  | none => rfl
  | some s => simpa using List.find?_some h

end Definition

end ShiftLock.Workflow
