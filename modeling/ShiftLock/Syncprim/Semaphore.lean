import ShiftLock.Coord.Cluster

/-!
# `Semaphore` over the claims of runtimes (`syncprim/syncprim.go`, `runtime.go`)

Any number of semaphores with one prefix and one number of slots, each over the `FencedClaims` of a
runtime; the coordinators of the runtimes share one in-memory backend. The tasks are the calls of
`Semaphore.Acquire` and of the closures it returns, and the renewal loops of the coordinators.

A permit is outstanding from the return of `Acquire` until its own closure has returned nil. The
actions `grant` and `leave` are these returns; the code itself does not number its permits.
-/

namespace ShiftLock.Semaphore

/-- The runtimes, which of them a semaphore uses, and the prefix and the slots of the semaphores. -/
structure Setup where
  cfgs : Nat → Config
  boot : Nat → Time
  runtime : Nat → Nat
  namePrefix : String
  slots : Nat

def Setup.slotName (S : Setup) (i : Nat) : String := S.namePrefix ++ "#" ++ itoa64 i

/-- A permit: its number, its semaphore and its slot, which its closure captures. -/
structure Permit where
  id : Nat
  sem : Nat
  slot : Nat
  deriving DecidableEq, Repr

/-- The backend and the coordinators, the maps `held` of the semaphores, the outstanding permits, and
those whose closure has deleted its entry of `held` and has not returned. -/
structure World where
  cluster : Cluster
  held : Nat → Nat → Option FencingToken := fun _ _ => none
  outstanding : List Permit := []
  closing : List Permit := []
  next : Nat := 0

/-- What the environment fixes for one action. -/
structure Env where
  coord : Coord.Env := {}
  /-- The error of `checkControlGates`. -/
  gate : Option Err := none

/-- The atomic actions. `gates` is `checkControlGates` in the attempt of a semaphore to get a slot;
`hold` and `take` are the critical sections of a semaphore. -/
inductive Act where
  | coord (runtime : Nat) (a : Coord.Act)
  | gates (sem slot : Nat)
  | hold (sem slot : Nat) (token : FencingToken)
  | take (p : Permit)
  | grant (sem slot : Nat)
  | leave (p : Permit) (err : Bool)
  deriving DecidableEq, Repr

abbrev Act.Answer : Act → Type
  | .coord _ a => a.Answer
  | .gates _ _ => Option Err
  | .take _ => Option FencingToken
  | .grant _ _ => Permit
  | _ => Unit

/-- The map `held` of a semaphore with another entry for a slot. -/
def World.setHeld (w : World) (s i : Nat) (token : Option FencingToken) : World :=
  { w with held := Function.update w.held s (Function.update (w.held s) i token) }

def exec (S : Setup) : (a : Act) → Env → World → World × a.Answer
  | .coord r a, e, w =>
    ({ w with cluster := w.cluster.put r (Coord.exec (S.cfgs r) a e.coord (w.cluster.world r)).1 },
      (Coord.exec (S.cfgs r) a e.coord (w.cluster.world r)).2)
  | .gates _ _, e, w => (w, e.gate)
  | .hold s i token, _, w => (w.setHeld s i (some token), ())
  | .take p, _, w =>
    match w.held p.sem p.slot with
    | none => (w, none)
    | some token => ({ w.setHeld p.sem p.slot none with closing := p :: w.closing }, some token)
  | .grant s i, _, w =>
    ({ w with outstanding := ⟨w.next, s, i⟩ :: w.outstanding, next := w.next + 1 }, ⟨w.next, s, i⟩)
  | .leave p err, _, w =>
    ({ w with
        closing := w.closing.erase p
        outstanding := if err then w.outstanding else w.outstanding.erase p }, ())

/-! ## Programs -/

/-- What a call returns besides nil. -/
inductive Error where
  /-- `ErrUnavailable`. -/
  | unavailable
  /-- `ErrNotHeld`. -/
  | notHeld
  /-- An error of the claims. -/
  | claims (err : Err)
  deriving DecidableEq

/-- The calls and the goroutines. `new` is the call that makes a coordinator. -/
inductive Task where
  | new (runtime : Nat)
  | acquire (sem : Nat)
  | closure (p : Permit)
  | renewal (runtime : Nat) (claim : String)
  deriving DecidableEq, Repr

inductive Result where
  | done
  | permit (p : Permit)
  | returned (err : Option Error)
  deriving DecidableEq

abbrev P := Conc.Prog Act Act.Answer

abbrev perform (a : Act) : P a.Answer := Conc.Prog.perform a

def onRuntime {α : Type} (r : Nat) (p : Code.P α) : P α := Conc.Prog.lift (.coord r) p

variable (S : Setup)

/-- `FencedClaims.Acquire`, for a slot of a semaphore. -/
def fencedAcquire (s i : Nat) : P (Except Err FencingToken) := do
  match ← perform (.gates s i) with
  | some err => return .error err
  | none =>
    match ← onRuntime (S.runtime s) (Code.claim (S.slotName i)) with
    | some err => return .error err
    | none =>
      match ← onRuntime (S.runtime s) (Code.tryAcquire (S.cfgs (S.runtime s)) (S.slotName i)) with
      | .error err => return .error err
      | .ok (.existing l) => return .ok l.token
      | .ok (.installed l) => return .ok l.token

/-- `FencedClaims.Release`, for a slot of a semaphore. The token is not used. -/
def fencedRelease (s i : Nat) (_token : FencingToken) : P (Option Err) := do
  match ← onRuntime (S.runtime s) (Code.claim (S.slotName i)) with
  | some err => return some err
  | none => onRuntime (S.runtime s) (Code.release (S.cfgs (S.runtime s)) (S.slotName i))

/-- The loop of `Semaphore.Acquire`, from a slot on. -/
def acquireFrom (s : Nat) : List Nat → P Result
  | [] => return .returned (some .unavailable)
  | i :: rest => do
    match ← fencedAcquire S s i with
    | .error _ => acquireFrom s rest
    | .ok token =>
      perform (.hold s i token)
      return .permit (← perform (.grant s i))

def acquire (s : Nat) : P Result := acquireFrom S s (List.range S.slots)

def closure (p : Permit) : P Result := do
  match ← perform (.take p) with
  | none => return .returned (some .notHeld)
  | some token =>
    let err ← fencedRelease S p.sem p.slot token
    perform (.leave p err.isSome)
    return .returned (err.map .claims)

def code : Task → P (Result ⊕ Task)
  | .new r => do
    let _ ← onRuntime r (Code.register ((S.cfgs r).generation (S.boot r)))
    return .inl .done
  | .acquire s => do return .inl (← acquire S s)
  | .closure p => do return .inl (← closure S p)
  | .renewal r name => do
    if ← onRuntime r (Code.renewalRound (S.cfgs r) name) then return .inr (.renewal r name)
    else return .inl .done

/-- The goroutine that an action starts. -/
def fork : (a : Act) → a.Answer → Option Task
  | .coord r (.go (.renewal name)), true => some (.renewal r name)
  | _, _ => none

def system : Conc.Sys Act Act.Answer World Env Empty Task Result where
  exec := exec S
  env x := x.elim
  fork := fork
  code := code S

end ShiftLock.Semaphore
