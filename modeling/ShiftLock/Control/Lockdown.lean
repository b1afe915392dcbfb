import ShiftLock.Types

/-!
# Lockdown (`control/lockdown/lockdown.go`)

The manager in memory and the sections of `Enter`, `Unlock` and `TryAutoEnter`. The state file is
written inside the sections; the error of the write is an argument. The evidence file is written on
best effort and left out.
-/

namespace ShiftLock.Lockdown

inductive Mode where
  | observeOnly | restricted | failClosed | isolateClaims | isolateTasks | fullService
  deriving DecidableEq, Repr

def Mode.text : Mode → String
  | .observeOnly => "observe-only"
  | .restricted => "restricted"
  | .failClosed => "fail-closed"
  | .isolateClaims => "isolate-claims"
  | .isolateTasks => "isolate-tasks"
  | .fullService => "full-service"

/-- `State`; `none` for the empty mode. -/
structure State where
  id : String := ""
  mode : Option Mode := none
  reason : String := ""
  enteredAt : Time := 0
  actorID : String := ""
  active : Bool := false
  trigger : String := ""
  deriving DecidableEq, Repr

structure Evidence where
  time : Time
  event : String
  actorID : String := ""
  attrs : List (String × String) := []
  deriving DecidableEq, Repr

structure EnterRequest where
  id : String := ""
  mode : Option Mode := none
  reason : String
  actorID : String := ""
  trigger : String := ""
  deriving DecidableEq, Repr

structure UnlockRequest where
  expectedID : String
  confirm : Bool
  actorID : String := ""
  strongAuthID : String := ""
  deriving DecidableEq, Repr

/-- What the manager returns besides nil. -/
inductive Error where
  | active | inactive | confirm | expectedID | weakAuth | reasonRequired
  /-- The error of the write of the state file. -/
  | persist (text : String)
  deriving DecidableEq, Repr

structure Manager where
  state : State := {}
  evidence : List Evidence := []
  lastAuto : Time := 0
  autoEvery : Duration
  deriving DecidableEq, Repr

/-- What one section sees of the world: the clock, the ID that the clock's reading is formatted to,
and the error of the write of the state file. -/
structure Env where
  now : Time := 0
  stamp : String := ""
  persist : Option String := none

namespace Manager

def enter (m : Manager) (e : Env) (req : EnterRequest) : Manager × Except Error State :=
  if m.state.active then (m, .error .active)
  else if req.reason = "" then (m, .error .reasonRequired)
  else
    let mode := req.mode.getD .failClosed
    let id := if req.id = "" then e.stamp else req.id
    let state : State := {
      id, mode := some mode, reason := req.reason, enteredAt := e.now, actorID := req.actorID
      active := true, trigger := req.trigger }
    let m := { m with
      state
      evidence := m.evidence ++ [{
        time := e.now, event := "enter", actorID := req.actorID
        attrs := [("mode", mode.text), ("reason", req.reason), ("id", id),
          ("trigger", req.trigger)] }] }
    match e.persist with
    | some text => (m, .error (.persist text))
    | none => (m, .ok state)

def unlock (m : Manager) (e : Env) (req : UnlockRequest) : Manager × Except Error State :=
  if !m.state.active then (m, .error .inactive)
  else if !req.confirm then (m, .error .confirm)
  else if req.expectedID = "" ∨ req.expectedID ≠ m.state.id then (m, .error .expectedID)
  else if req.strongAuthID = "" then (m, .error .weakAuth)
  else
    let evidence := m.evidence ++ [{
      time := e.now, event := "unlock", actorID := req.actorID
      attrs := [("id", m.state.id), ("strong_auth_id", req.strongAuthID)] }]
    match e.persist with
    | some text => ({ m with evidence }, .error (.persist text))
    | none => ({ m with state := {}, evidence }, .ok { m.state with active := false })

/-- `TryAutoEnter` before it calls `Enter`: whether it does. -/
def tryAutoBegin (m : Manager) (now : Time) : Manager × Bool :=
  if m.state.active then (m, false)
  else if now - m.lastAuto < m.autoEvery then (m, false)
  else ({ m with lastAuto := now }, true)

end Manager
end ShiftLock.Lockdown
