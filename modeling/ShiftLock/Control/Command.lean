import ShiftLock.Types
import ShiftLock.Conc.Prog
import Mathlib.Data.List.AList

/-!
# Control commands (`control/command/command.go`)

`Registry.Invoke` as a program of atomic actions: its two critical sections, the calls of the
authorizer and of the auditor, and the handler. The handler is a choice of the environment, panics
included, and so is whether the auditor panics. The deferred function of `Invoke` contains a panic of
the auditor only from the handler on, and then the result of the handler is not stored.
-/

namespace ShiftLock.Command

structure Request where
  name : String
  actorID : String
  body : List UInt8 := []
  idempotencyKey : String := ""
  deadline : Duration := 0
  deriving DecidableEq, Repr

structure Result where
  ok : Bool := false
  message : String := ""
  attrs : List (String × String) := []
  deriving DecidableEq, Repr

/-- `Spec`, without the handler. -/
structure Spec where
  name : String
  permission : String
  maxBodyBytes : Int
  deadline : Duration
  rateLimitPerMin : Int := 0
  deriving DecidableEq, Repr

structure Registered where
  spec : Spec
  hits : List Time := []
  deriving DecidableEq, Repr

structure Registry where
  cmds : String → Option Registered := fun _ => none
  idem : AList fun _ : String => Result := ∅
  idemMax : Nat := 1024
  closed : Bool := false

/-- What `Invoke` returns besides nil. -/
inductive Error where
  | closed | notFound | tooLarge | rateLimited | denied
  /-- The error of the handler. -/
  | handler (text : String)
  /-- `command: panic contained`. -/
  | panicked (value : String)
  /-- Nothing is returned: a panic of the auditor leaves `Invoke`. -/
  | escaped (value : String)
  deriving DecidableEq, Repr

/-- How the first section of `Invoke` ends. -/
inductive Admission where
  | closed
  | notFound
  | replayed (prev : Result)
  | tooLarge
  | rateLimited
  | admitted (spec : Spec)
  deriving DecidableEq, Repr

/-- How a handler ends. -/
inductive Outcome where
  | returned (res : Result) (err : Option String)
  | panicked (value : String)
  deriving DecidableEq, Repr

namespace Registry

variable (r : Registry)

/-- `Register`, for a specification whose defaults are filled in. -/
def register (spec : Spec) : Registry :=
  if r.closed ∨ (r.cmds spec.name).isSome then r
  else { r with cmds := Function.update r.cmds spec.name (some { spec }) }

/-- The first section of `Invoke`: the rate limit. -/
def limit (now : Time) (reg : Registered) (name : String) : Registry × Admission :=
  if reg.spec.rateLimitPerMin > 0 then
    let hits := reg.hits.filter fun t => now - minute < t
    if reg.spec.rateLimitPerMin ≤ hits.length then
      ({ r with cmds := Function.update r.cmds name (some { reg with hits }) }, .rateLimited)
    else
      ({ r with cmds := Function.update r.cmds name (some { reg with hits := hits ++ [now] }) },
        .admitted reg.spec)
  else (r, .admitted reg.spec)

/-- The first section of `Invoke`. -/
def accept (now : Time) (req : Request) : Registry × Admission :=
  if r.closed then (r, .closed)
  else
    match r.cmds req.name with
    | none => (r, .notFound)
    | some reg =>
      match if req.idempotencyKey = "" then none else r.idem.lookup req.idempotencyKey with
      | some prev => (r, .replayed prev)
      | none =>
        if reg.spec.maxBodyBytes < req.body.length then (r, .tooLarge)
        else r.limit now reg req.name

/-- The keys that are dropped when the table is full: the iteration over the map goes by `order`. -/
def dropped (order : List String) : List String :=
  ((order.filter (· ∈ r.idem)).dedup ++ r.idem.keys.filter (· ∉ order)).take (max 1 (r.idemMax / 2))

/-- The last section of `Invoke`. -/
def remember (order : List String) (key : String) (res : Result) : Registry :=
  let idem :=
    if r.idemMax ≤ r.idem.keys.length then (r.dropped order).foldl (fun m k => m.erase k) r.idem
    else r.idem
  { r with idem := idem.insert key res }

end Registry

/-! ## The program -/

/-- The atomic actions of `Invoke`. -/
inductive Act where
  | accept (req : Request)
  | authorize (actor name permission : String)
  | handle (req : Request) (deadline : Duration)
  | audit (actor name decision outcome : String)
  | remember (key : String) (res : Result)
  deriving DecidableEq, Repr

/-- The answers of the actions; of the authorizer only whether there is an error, of the auditor the
value of its panic. -/
abbrev Act.Answer : Act → Type
  | .accept _ => Admission
  | .authorize .. => Bool
  | .handle .. => Outcome
  | .audit .. => Option String
  | .remember .. => Unit

abbrev P := Conc.Prog Act Act.Answer

abbrev perform (a : Act) : P a.Answer := Conc.Prog.perform a

/-- The deadline of the handler's context. -/
def deadline (spec : Spec) (req : Request) : Duration :=
  if 0 < req.deadline ∧ req.deadline < spec.deadline then req.deadline else spec.deadline

/-- A refusal. The deferred function is not there yet. -/
def refuse (req : Request) (outcome : String) (err : Error) : P (Result × Option Error) := do
  match ← perform (.audit req.actorID req.name "deny" outcome) with
  | some value => return ({}, some (.escaped value))
  | none => return ({}, some err)

/-- The deferred function, after a panic with this value. -/
def contain (req : Request) (value : String) : P (Result × Option Error) := do
  let res : Result := { ok := false, message := "internal error" }
  match ← perform (.audit req.actorID req.name "error" "panic") with
  | some value' => return (res, some (.escaped value'))
  | none => return (res, some (.panicked value))

/-- `Invoke`. -/
def invoke (req : Request) : P (Result × Option Error) := do
  match ← perform (.accept req) with
  | .closed => return ({}, some .closed)
  | .notFound => return ({}, some .notFound)
  | .replayed prev => return (prev, none)
  | .tooLarge => refuse req "too_large" .tooLarge
  | .rateLimited => refuse req "rate_limited" .rateLimited
  | .admitted spec =>
    if ← perform (.authorize req.actorID req.name spec.permission) then
      refuse req "unauthorized" .denied
    else
      match ← perform (.handle req (deadline spec req)) with
      | .panicked value => contain req value
      | .returned res err =>
        match ← perform (.audit req.actorID req.name "allow" (if err.isSome then "error" else "ok")) with
        | some value => contain req value
        | none =>
          if req.idempotencyKey ≠ "" ∧ err.isNone then
            perform (.remember req.idempotencyKey res)
          return (res, err.map .handler)

end ShiftLock.Command
