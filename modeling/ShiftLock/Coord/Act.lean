import ShiftLock.Coord.State
import ShiftLock.Conc.Prog

/-!
# Atomic actions of a coordinator

The actions from which `ShiftLock.Coord.Code` builds the functions of the source: one for every
critical section, one for a call on the backend, and one for every point at which the source waits
for something outside (a ticker, a readiness check, the end of a drain).

A response of the backend reaches the caller with the caller's next action, so a schedule can
deliver the responses of different calls in any order. What `beforeMutate` does to a call is seen
from here as a call that fails without effect: `Env.fault`.
-/

namespace ShiftLock
namespace Coord

/-- What the environment fixes for one action; every action reads the parts it needs. -/
structure Env where
  /-- The clock readings of a backend call. -/
  call : Memory.Call := {}
  /-- The backend call fails without effect. -/
  fault : Option Err := none
  /-- The reading of the coordinator's clock. -/
  now : Time := 0
  /-- The context or the deadline of a wait is over, with its message. -/
  expired : Option String := none
  /-- A wait that the shutdown of the supervisor may end is ended by it. -/
  stop : Bool := false
  /-- The order in which Go ranges over the map of claims. -/
  order : List String := []
  /-- The result of the readiness gates. -/
  ready : Option Err := none

/-- The goroutines that the coordinator starts. -/
inductive Background where
  | renewal (claim : String)
  | watcher (h : Nat)
  deriving DecidableEq, Repr

/-- How a wait of `WaitForOwnership` ends. -/
inductive Wake where
  | retry
  | ctxDone (message : String)
  | closed
  deriving DecidableEq, Repr

inductive Act where
  -- the backend and the environment
  | call (op : Memory.Op)
  | tick
  | pause
  | readiness
  -- `Coordinator`
  | checkOpen
  | claim (name : String)
  | newOpID (op claim : String)
  | setState (target : GenerationState) (reason : TransitionReason)
  | emit (ev : Event)
  | heartbeat
  | go (t : Background)
  | newHandoff
  | closeBegin
  | shutdown
  -- `Claim`
  | tryAcquireBegin (name : String)
  | tryAcquireInstall (name : String) (rec : ClaimRecord)
  | tryAcquireEnd (name : String)
  | validLease (name : String)
  | lease (name : String)
  | revokeLease (name : String) (reason : TransitionReason)
  | markRenewing (name : String)
  | clearRenewing (name : String)
  | applyRecord (name : String) (rec : ClaimRecord)
  | setRecord (name : String) (rec : ClaimRecord)
  | ensureLocalLease (name : String)
  | currentLeaseToken (name : String)
  | ownership (name : String)
  | closeClaim (name : String)
  | closeDrain (name : String)
  | startDrain (name : String)
  | drainWait (name : String)
  -- `Handoff`
  | handoffClaims (h : Nat)
  | drainBegin (h : Nat)
  | drainEnd (h : Nat)
  | transferBegin (h : Nat) (successor : String)
  | transferStart (h : Nat) (successor : String)
  | setToken (h : Nat) (name : String) (token : FencingToken)
  | dropToken (h : Nat) (name : String)
  | transferEnd (h : Nat)
  | commitBegin (h : Nat)
  | commitEnd (h : Nat)
  | abortBegin (h : Nat)
  | fail (h : Nat) (err : Err)
  | tokens (h : Nat)
  | watcherBegin (h : Nat)
  | watcherCheck (h : Nat)
  deriving DecidableEq, Repr

abbrev Act.Answer : Act → Type
  | .call _ => Memory.Reply
  | .tick => Bool
  | .pause => Wake
  | .readiness => Option Err
  | .checkOpen => Option Err
  | .claim _ => Option Err
  | .newOpID _ _ => OperationID
  | .setState _ _ => StateChange
  | .go _ => Bool
  | .newHandoff => Nat
  | .closeBegin => Option (List String)
  | .tryAcquireBegin _ => AcquireEntry
  | .tryAcquireInstall _ _ => InstallResult
  | .validLease _ => Option Lease
  | .lease _ => Option Lease
  | .markRenewing _ => Bool
  | .ensureLocalLease _ => Bool
  | .currentLeaseToken _ => Option FencingToken
  | .ownership _ => ClaimRecord
  | .drainWait _ => Option Err
  | .handoffClaims _ => List String
  | .drainBegin _ => Option Err
  | .transferBegin _ _ => TransferEntry
  | .commitBegin _ => SettleEntry
  | .abortBegin _ => SettleEntry
  | .tokens _ => String × Tokens
  | .watcherBegin _ => Bool
  | .watcherCheck _ => Bool
  | _ => Unit

end Coord

namespace World

open Coord

/-- The supervisor's context is not done. -/
def live (w : World) : Bool := !w.coord.shutdown

def genID (w : World) : String := w.coord.gen.id

/-- Claim `name` becomes `cl`. -/
def setClaim (w : World) (name : String) (cl : Claim) : World :=
  { w with coord := w.coord.setClaim name cl }

/-- A section of claim `name` with its events. -/
def onClaim (w : World) (name : String) (f : Claim → Claim × List Event) : World :=
  { w with
    coord := (w.coord.setClaim name (f (w.coord.claims name)).1).emit
      (f (w.coord.claims name)).2 }

/-- A section of the drain group of claim `name`. -/
def onDrain (w : World) (name : String) (f : DrainGroup → DrainGroup) : World :=
  w.setClaim name ((w.coord.claims name).setDrain (f (w.coord.claims name).drain))

/-- Handoff `h` becomes `x`. -/
def setHandoff (w : World) (h : Nat) (x : Handoff) : World :=
  { w with handoffs := Function.update w.handoffs h x }

/-- A section of the coordinator with its answer. -/
def withCoord {β : Type} (w : World) (p : Coord × β) : World × β := ({ w with coord := p.1 }, p.2)

/-- A section of claim `name` with its answer. -/
def withClaim {β : Type} (w : World) (name : String) (p : Claim × β) : World × β :=
  (w.setClaim name p.1, p.2)

/-- A section of handoff `h` with its answer. -/
def withHandoff {β : Type} (w : World) (h : Nat) (p : Handoff × β) : World × β :=
  (w.setHandoff h p.1, p.2)

/-- The next lease has another identity. -/
def bumpLease (w : World) : World :=
  { w with coord := { w.coord with nextLease := w.coord.nextLease + 1 } }

/-- A new handoff over a copy of the claims. -/
def newHandoff (w : World) (order : List String) : World :=
  { w.setHandoff w.coord.handoffs { claims := w.coord.copyClaims order } with
    coord := { w.coord with handoffs := w.coord.handoffs + 1 } }

end World

namespace Coord

/-- What an action does and answers. -/
def exec (cfg : Config) (a : Act) (e : Env) (w : World) : World × a.Answer :=
  match a with
  | .call op =>
    match e.fault with
    | some err => (w, .fail err)
    | none =>
      ({ w with backend := (w.backend.locked e.call op).1 }, (w.backend.locked e.call op).2)
  | .tick => (w, !(e.stop && w.coord.shutdown))
  | .pause =>
    (w, match e.expired with
      | some message => .ctxDone message
      | none => if e.stop && w.coord.shutdown then .closed else .retry)
  | .readiness => (w, e.ready)
  | .checkOpen => (w, w.coord.checkOpen)
  | .claim name => w.withCoord (w.coord.claim cfg name)
  | .newOpID op claim => w.withCoord (w.coord.newOpID op claim)
  | .setState target reason => w.withCoord (w.coord.setState e.now target reason)
  | .emit ev => ({ w with coord := w.coord.emit [ev] }, ())
  | .heartbeat => ({ w with coord := { w.coord with lastHeartbeat := e.now } }, ())
  | .go _ => (w, w.live)
  | .newHandoff => (w.newHandoff e.order, w.coord.handoffs)
  | .closeBegin => w.withCoord (w.coord.closeBegin e.order)
  | .shutdown => ({ w with coord := { w.coord with shutdown := true } }, ())
  | .tryAcquireBegin name =>
    w.withClaim name ((w.coord.claims name).tryAcquireBegin w.live)
  | .tryAcquireInstall name rec =>
    w.bumpLease.withClaim name
      ((w.coord.claims name).tryAcquireInstall w.live w.genID w.coord.nextLease rec)
  | .tryAcquireEnd name => (w.setClaim name (w.coord.claims name).tryAcquireEnd, ())
  | .validLease name => (w, (w.coord.claims name).validLease w.live)
  | .lease name => (w, (w.coord.claims name).lease)
  | .revokeLease name reason => (w.onClaim name (·.revokeLease reason), ())
  | .markRenewing name => w.withClaim name (w.coord.claims name).markRenewing
  | .clearRenewing name => (w.setClaim name (w.coord.claims name).clearRenewing, ())
  | .applyRecord name rec => (w.onClaim name (·.applyRecord w.genID rec), ())
  | .setRecord name rec => (w.setClaim name ((w.coord.claims name).setRecord rec), ())
  | .ensureLocalLease name =>
    w.bumpLease.withClaim name
      ((w.coord.claims name).ensureLocalLease w.live w.genID w.coord.nextLease)
  | .currentLeaseToken name => (w, (w.coord.claims name).currentLeaseToken w.live w.genID)
  | .ownership name => (w, (w.coord.claims name).record)
  | .closeClaim name => (w.setClaim name (w.coord.claims name).close, ())
  | .closeDrain name => (w.onDrain name (·.close), ())
  | .startDrain name => (w.onDrain name (·.startDrain), ())
  | .drainWait name => (w, (w.coord.claims name).drain.wait e.expired)
  | .handoffClaims h => (w, (w.handoffs h).claims)
  | .drainBegin h => w.withHandoff h (w.handoffs h).drainBegin
  | .drainEnd h => (w.setHandoff h (w.handoffs h).drainEnd, ())
  | .transferBegin h s => w.withHandoff h ((w.handoffs h).transferBegin s)
  | .transferStart h s => (w.setHandoff h ((w.handoffs h).transferStart s), ())
  | .setToken h name t => (w.setHandoff h ((w.handoffs h).setToken name t), ())
  | .dropToken h name => (w.setHandoff h ((w.handoffs h).dropToken name), ())
  | .transferEnd h => (w.setHandoff h (w.handoffs h).transferEnd, ())
  | .commitBegin h => (w, (w.handoffs h).commitBegin)
  | .commitEnd h => (w.setHandoff h (w.handoffs h).commitEnd, ())
  | .abortBegin h => w.withHandoff h (w.handoffs h).abortBegin
  | .fail h err => (w.setHandoff h ((w.handoffs h).fail err), ())
  | .tokens h => (w, ((w.handoffs h).successorID, (w.handoffs h).tokens))
  | .watcherBegin h => w.withHandoff h (w.handoffs h).watcherBegin
  | .watcherCheck h => (w, (w.handoffs h).watcherCheck)

end Coord
end ShiftLock
