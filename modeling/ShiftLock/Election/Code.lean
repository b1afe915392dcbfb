import ShiftLock.Types
import ShiftLock.Conc.Pool

/-!
# An election (`election/election.go`)

One election object: the call of `Join` that makes it, the goroutine of its loop, and any number of
calls of `Resign`, `Transfer` and `Close`, as the tasks of a system in the sense of
`ShiftLock.Conc.Pool`. There is an action for every critical section of `e.mu`, for every call on
the `FencedLock`, for every send on the event channel and for every wait.

The lock is a parameter; the gate, the clock and the ticker are choices of the environment. A send on
the closed event channel panics: `World.panicked`.
-/

namespace ShiftLock.Election

/-! ## The object -/

inductive EventType where
  | joined
  | leading
  | following
  | resigned
  | transferred
  | lost
  deriving DecidableEq, Repr

structure Event where
  type : EventType
  election : String
  leader : String := ""
  token : UInt64 := 0
  time : Time
  err : String := ""
  deriving DecidableEq, Repr

/-- `Config`, without the lock, the gate, the clock and the period of the ticker. -/
structure Config where
  name : String
  participantID : String
  eventBuffer : Int := 0

/-- The capacity of the event channel that `Join` makes. -/
def Config.capacity (cfg : Config) : Nat := if cfg.eventBuffer ≤ 0 then 16 else cfg.eventBuffer.toNat

/-- A `FencedLock` as one participant uses it for the claim of its election: `L` are the states of
the lock, `ε` is what the environment chooses for one call, and `ι` are the steps of others. -/
structure FencedLock (L ε ι : Type) where
  acquire : ε → L → L × Except String UInt64
  release : UInt64 → ε → L → L × Option String
  renew : UInt64 → ε → L → L × Option String
  outside : ι → L → L

/-- What a call returns besides nil. -/
inductive Error where
  /-- `election: name, participant, and lock required`. -/
  | required
  /-- `ErrNotLeader`. -/
  | notLeader
  /-- An error of the gate. -/
  | gate (err : String)
  /-- An error of the lock. -/
  | lock (err : String)
  deriving DecidableEq, Repr

structure World (L : Type) where
  lock : L
  leader : Bool := false
  token : UInt64 := 0
  closed : Bool := false
  /-- The content of the event channel. -/
  events : List Event := []
  eventsClosed : Bool := false
  /-- The context of the loop is done. -/
  cancelled : Bool := false
  /-- The loop has not returned: the wait group. -/
  looping : Bool := false
  /-- `Join` has made the election. -/
  made : Bool := false
  /-- `Join` has returned the election. -/
  joined : Bool := false
  panicked : Bool := false

/-- The `select` of `emit`. -/
def World.send {L : Type} (w : World L) (capacity : Nat) (ev : Event) : World L :=
  if w.eventsClosed then { w with panicked := true }
  else if w.events.length < capacity then { w with events := w.events ++ [ev] }
  else w

/-! ## Actions -/

/-- What the environment fixes for one action. -/
structure Env (ε : Type) where
  /-- The choice for a call on the lock. -/
  lock : ε
  /-- The reading of the clock. -/
  now : Time := 0
  /-- The error of the gate. -/
  deny : Option String := none
  /-- The ticker fires, also if the context is done. -/
  tick : Bool := false

/-- What happens outside of the calls. -/
inductive Outside (ι : Type) where
  /-- Others use the lock. -/
  | lock (x : ι)
  /-- An event is received. -/
  | receive
  /-- The context given to `Join` is cancelled. -/
  | cancel

inductive Act where
  -- the environment
  | allow
  | select
  -- `Join` and the caller's reference to its result
  | make
  | spawn
  | present
  -- the lock
  | acquire
  | release (token : UInt64)
  | renew (token : UInt64)
  -- the sections of `e.mu`
  | read
  | lead (token : UInt64)
  | clear
  | closeBegin
  -- the context, the wait group and the event channel
  | cancel
  | wait
  | done
  | emit (type : EventType) (leader : String) (token : UInt64) (err : String)
  | closeEvents
  deriving DecidableEq, Repr

abbrev Act.Answer : Act → Type
  | .allow => Option String
  | .select => Bool
  | .make => Bool
  | .present => Bool
  | .acquire => Except String UInt64
  | .release _ => Option String
  | .renew _ => Option String
  | .read => Bool × UInt64
  | .closeBegin => Option (Bool × UInt64)
  | .wait => Bool
  | _ => Unit

section

variable {L ε ι : Type}

def exec (cfg : Config) (lock : FencedLock L ε ι) :
    (a : Act) → Env ε → World L → World L × a.Answer
  | .allow, e, w => (w, e.deny)
  | .select, e, w => (w, w.cancelled && !e.tick)
  | .make, _, w => ({ w with made := true }, !w.made)
  | .spawn, _, w => ({ w with joined := true, looping := true }, ())
  | .present, _, w => (w, w.joined)
  | .acquire, e, w =>
    ({ w with lock := (lock.acquire e.lock w.lock).1 }, (lock.acquire e.lock w.lock).2)
  | .release token, e, w =>
    ({ w with lock := (lock.release token e.lock w.lock).1 }, (lock.release token e.lock w.lock).2)
  | .renew token, e, w =>
    ({ w with lock := (lock.renew token e.lock w.lock).1 }, (lock.renew token e.lock w.lock).2)
  | .read, _, w => (w, (w.leader, w.token))
  | .lead token, _, w => ({ w with leader := true, token := token }, ())
  | .clear, _, w => ({ w with leader := false, token := 0 }, ())
  | .closeBegin, _, w =>
    ({ w with closed := true }, if w.closed then none else some (w.leader, w.token))
  | .cancel, _, w => ({ w with cancelled := true }, ())
  | .wait, _, w => (w, !w.looping)
  | .done, _, w => ({ w with looping := false }, ())
  | .emit type leader token err, e, w =>
    (w.send cfg.capacity { type, election := cfg.name, leader, token, time := e.now, err }, ())
  | .closeEvents, _, w => ({ w with eventsClosed := true }, ())

/-- A step outside of the calls. -/
def outside (lock : FencedLock L ε ι) : Outside ι → World L → World L
  | .lock x, w => { w with lock := lock.outside x w.lock }
  | .receive, w => { w with events := w.events.tail }
  | .cancel, w => { w with cancelled := true }

end

/-! ## Programs -/

/-- The calls and the goroutine. `closing` is `Close` from its `wg.Wait()` on. -/
inductive Task where
  | join
  | loop
  | resign
  | transfer
  | close
  | closing (leading : Bool) (token : UInt64)
  deriving DecidableEq, Repr

def Task.isCall : Task → Bool
  | .join | .resign | .transfer | .close => true
  | .loop | .closing _ _ => false

/-- What a call returns; `absent` where there is no election yet to call it on. -/
inductive Result where
  | absent
  | returned (err : Option Error)
  deriving DecidableEq, Repr

/-- Programs of an election. -/
abbrev P := Conc.Prog Act Act.Answer

abbrev perform (a : Act) : P a.Answer := Conc.Prog.perform a

/-- `Join`. Another call of it makes an election that is not this one. -/
def join (cfg : Config) : P Result := do
  if cfg.name = "" ∨ cfg.participantID = "" then return .returned (some .required)
  match ← perform .allow with
  | some err => return .returned (some (.gate err))
  | none =>
    if ← perform .make then
      perform (.emit .joined "" 0 "")
      perform .spawn
    return .returned none

/-- One round of `loop`; true when the context is done. -/
def loopRound (cfg : Config) : P Bool := do
  let state ← perform .read
  if state.1 then
    match ← perform (.renew state.2) with
    | some err =>
      perform .clear
      perform (.emit .lost "" 0 err)
    | none => pure ()
  else
    match ← perform .acquire with
    | .ok token =>
      perform (.lead token)
      perform (.emit .leading cfg.participantID token "")
    | .error err => perform (.emit .following "" 0 err)
  perform .select

def resign : P (Option Error) := do
  let state ← perform .read
  if state.1 then
    match ← perform (.release state.2) with
    | some err => return some (.lock err)
    | none =>
      perform .clear
      perform (.emit .resigned "" 0 "")
      return none
  else return some .notLeader

def transfer : P (Option Error) := do
  match ← resign with
  | some err => return some err
  | none =>
    perform (.emit .transferred "" 0 "")
    return none

def onElection (p : P (Result ⊕ Task)) : P (Result ⊕ Task) := do
  if ← perform .present then p else return .inl .absent

def code (cfg : Config) : Task → P (Result ⊕ Task)
  | .join => do return .inl (← join cfg)
  | .loop => do
    if ← loopRound cfg then
      perform .done
      return .inl (.returned none)
    else return .inr .loop
  | .resign => onElection do return .inl (.returned (← resign))
  | .transfer => onElection do return .inl (.returned (← transfer))
  | .close => onElection do
    match ← perform .closeBegin with
    | none => return .inl (.returned none)
    | some state =>
      perform .cancel
      return .inr (.closing state.1 state.2)
  | .closing leading token => do
    if ← perform .wait then
      if leading then
        let _ ← perform (.release token)
      perform .closeEvents
      return .inl (.returned none)
    else return .inr (.closing leading token)

/-- The goroutine that an action starts. -/
def fork : (a : Act) → a.Answer → Option Task
  | .spawn, _ => some .loop
  | _, _ => none

def system {L ε ι : Type} (cfg : Config) (lock : FencedLock L ε ι) :
    Conc.Sys Act Act.Answer (World L) (Env ε) (Outside ι) Task Result where
  exec := exec cfg lock
  env := outside lock
  fork := fork
  code := code cfg

end ShiftLock.Election
