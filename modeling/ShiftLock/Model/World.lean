import ShiftLock.Types
import Mathlib.Algebra.Group.Int.Defs

/-!
# The protocol model (`model/state.go`, `transition.go`, `invariant.go`, `generator.go`)

The repository has a model of its own: a `World` of generations and claims, 21 kinds of actions, and
a check of the world after each of them. The model time is an `int64`, so its sums wrap.

`Apply` changes the world also when it returns an error, and `renewClaim` dereferences the
generation without a check: `Result.panic`. The maps of the source are ranged over in any order;
`checkInvariants` and `checkTokenMonotonic` have that order as an argument.
-/

namespace ShiftLock.Model

open Function

/-- A sum on `int64`. -/
def int64 (n : Int) : Int := n.bmod (2 ^ 64)

structure Generation where
  id : String
  state : GenerationState
  paused : Bool := false
  connected : Bool := false
  ready : Bool := false
  draining : Bool := false
  deriving DecidableEq, Repr

structure OpSnap where
  owner : String := ""
  token : FencingToken
  phase : ClaimPhase
  deriving DecidableEq, Repr

structure Claim where
  owner : String := ""
  token : FencingToken := 0
  phase : ClaimPhase := .unowned
  pendingSuccessor : String := ""
  expiresAt : Int := 0
  transferDeadline : Int := 0
  opResults : String → Option OpSnap := fun _ => none

structure World where
  now : Int := 0
  leaseTTL : Int
  transferTO : Int
  gens : String → Option Generation := fun _ => none
  claims : String → Option Claim := fun _ => none
  protectedEpoch : String → Option FencingToken := fun _ => none

def newWorld (leaseTTL transferTO : Int) : World where
  leaseTTL := if leaseTTL ≤ 0 then 15 else leaseTTL
  transferTO := if transferTO ≤ 0 then 30 else transferTO

/-- `ActionType`: the constants, and any other text. -/
inductive ActionType where
  | registerGeneration | passReadiness | failReadiness | requestClaim | renewClaim | beginDrain
  | completeDrain | prepareTransfer | commitTransfer | abortTransfer | pause | resume | disconnect
  | reconnect | expireLease | crashOwner | crashCandidate | restartBackend | forceRevoke
  | advanceTime | releaseClaim
  | other (text : String)
  deriving DecidableEq, Repr

structure Action where
  type : ActionType
  generation : String := ""
  claim : String := ""
  successor : String := ""
  opID : String := ""
  delta : Int := 0
  deriving DecidableEq, Repr

/-- How a call of `Apply` ends. -/
inductive Result where
  | ok
  | error (text : String)
  | panic
  deriving DecidableEq, Repr

/-! ## Claims -/

namespace Claim

/-- The recorded result of an operation ID. -/
def recalled (cl : Claim) (id : String) : Option OpSnap := if id = "" then none else cl.opResults id

/-- The result is recorded under a non-empty operation ID. -/
def record (cl : Claim) (id : String) (s : OpSnap) : Claim :=
  if id = "" then cl else { cl with opResults := update cl.opResults id (some s) }

/-- A replay writes the recorded owner, token and phase back. -/
def restore (cl : Claim) (s : OpSnap) : Claim :=
  { cl with owner := s.owner, token := s.token, phase := s.phase }

def controls (cl : Claim) (gen : String) : Bool := cl.owner = gen ∧ cl.phase.held

/-- The claim without an owner: a release, a revocation, an expiry. -/
def vacated (cl : Claim) : Claim :=
  { cl with owner := "", phase := .unowned, pendingSuccessor := "" }

/-- The claim back with its owner: an abort, an overdue transfer. -/
def rolledBack (cl : Claim) : Claim := { cl with pendingSuccessor := "", phase := .owned }

/-- The claim with a new owner and the next token: a request, a commit. -/
def grantedTo (gen : String) (expiresAt : Int) (cl : Claim) : Claim :=
  { cl with
    token := cl.token + 1
    owner := gen
    phase := .owned
    expiresAt := expiresAt
    pendingSuccessor := "" }

def reservedFor (gen : String) (expiresAt transferDeadline : Int) (cl : Claim) : Claim :=
  { cl with
    phase := .reserved
    pendingSuccessor := gen
    expiresAt := expiresAt
    transferDeadline := transferDeadline }

/-- The result of a request or a commit, as it is recorded. -/
def snap (cl : Claim) : OpSnap := { owner := cl.owner, token := cl.token, phase := cl.phase }

def expireIfNeeded (now : Int) (cl : Claim) : Claim :=
  if cl.phase = .unowned then cl
  else
    let cl := if 0 < cl.expiresAt ∧ cl.expiresAt < now then cl.vacated else cl
    if cl.phase = .reserved ∧ 0 < cl.transferDeadline ∧ cl.transferDeadline < now then cl.rolledBack
    else cl

end Claim

/-! ## Transitions -/

namespace World

/-- `claim`: a missing claim is created. -/
def claim (w : World) (name : String) : Claim := (w.claims name).getD {}

/-- The claim, written through its pointer. -/
def setClaim (w : World) (name : String) (cl : Claim) : World :=
  { w with claims := update w.claims name (some cl) }

/-- `w.ProtectedEpoch[name] = tok`. -/
def protect (w : World) (name : String) (tok : FencingToken) : World :=
  { w with protectedEpoch := update w.protectedEpoch name (some tok) }

/-- A change of a generation, where it is registered. -/
def modifyGen (w : World) (id : String) (f : Generation → Generation) : World :=
  match w.gens id with
  | none => w
  | some g => { w with gens := update w.gens id (some (f g)) }

/-- A change of a generation that must be registered. -/
def requireGen (w : World) (id : String) (f : Generation → Generation) : World × Result :=
  match w.gens id with
  | none => (w, .error "unknown gen")
  | some g => ({ w with gens := update w.gens id (some (f g)) }, .ok)

def requestClaim (w : World) (a : Action) : World × Result :=
  let cl := w.claim a.claim
  match cl.recalled a.opID with
  | some s => (w.setClaim a.claim (cl.restore s), .ok)
  | none =>
    let cl := cl.expireIfNeeded w.now
    if cl.phase = .owned ∨ cl.phase = .reserved then
      if cl.owner = a.generation then
        (w.setClaim a.claim { cl with expiresAt := int64 (w.now + w.leaseTTL) }, .ok)
      else (w.setClaim a.claim cl, .error "held")
    else if maxSafeFencingToken ≤ cl.token then (w.setClaim a.claim cl, .error "overflow")
    else
      let cl := cl.grantedTo a.generation (int64 (w.now + w.leaseTTL))
      let w := w.modifyGen a.generation fun g => { g with state := .active }
      let w := w.protect a.claim cl.token
      (w.setClaim a.claim (cl.record a.opID cl.snap), .ok)

def renewClaim (w : World) (a : Action) : World × Result :=
  let cl := w.claim a.claim
  if cl.controls a.generation = false then (w.setClaim a.claim cl, .error "not owner")
  else
    match w.gens a.generation with
    | none => (w.setClaim a.claim cl, .panic)
    | some g =>
      if g.connected = false ∨ g.paused then (w.setClaim a.claim cl, .error "disconnected")
      else (w.setClaim a.claim { cl with expiresAt := int64 (w.now + w.leaseTTL) }, .ok)

def releaseClaim (w : World) (a : Action) : World × Result :=
  let cl := w.claim a.claim
  match cl.recalled a.opID with
  | some _ => (w.setClaim a.claim cl, .ok)
  | none =>
    if cl.owner ≠ a.generation then (w.setClaim a.claim cl, .error "not owner")
    else if cl.token < (w.protectedEpoch a.claim).getD 0 then
      (w.setClaim a.claim cl, .error "stale")
    else
      let cl := cl.vacated
      (w.setClaim a.claim (cl.record a.opID { phase := .unowned, token := cl.token }), .ok)

def prepare (w : World) (a : Action) : World × Result :=
  let cl := (w.claim a.claim).expireIfNeeded w.now
  if cl.owner ≠ a.generation ∨ cl.phase = .unowned then
    (w.setClaim a.claim cl, .error "not owner")
  else
    let ttl := if w.leaseTTL < w.transferTO then w.transferTO else w.leaseTTL
    let cl := cl.reservedFor a.successor (int64 (w.now + ttl)) (int64 (w.now + w.transferTO))
    let w := w.modifyGen a.generation fun g => { g with state := .transferring }
    (w.setClaim a.claim cl, .ok)

def commit (w : World) (a : Action) : World × Result :=
  let cl := w.claim a.claim
  match cl.recalled a.opID with
  | some s => (w.setClaim a.claim (cl.restore s), .ok)
  | none =>
    if cl.phase ≠ .reserved ∨ cl.owner ≠ a.generation ∨ cl.pendingSuccessor ≠ a.successor then
      if cl.phase = .owned ∧ cl.owner = a.successor then (w.setClaim a.claim cl, .ok)
      else (w.setClaim a.claim cl, .error "no transfer")
    else if maxSafeFencingToken ≤ cl.token then (w.setClaim a.claim cl, .error "overflow")
    else
      let cl := cl.grantedTo a.successor (int64 (w.now + w.leaseTTL))
      let w := w.protect a.claim cl.token
      let w := w.modifyGen a.generation fun g => { g with state := .retired }
      let w := w.modifyGen a.successor fun g => { g with state := .active }
      (w.setClaim a.claim (cl.record a.opID cl.snap), .ok)

def abort (w : World) (a : Action) : World × Result :=
  let cl := w.claim a.claim
  if cl.phase ≠ .reserved then
    if cl.owner = a.generation ∧ cl.phase = .owned then (w.setClaim a.claim cl, .ok)
    else (w.setClaim a.claim cl, .error "no transfer")
  else if cl.owner ≠ a.generation then (w.setClaim a.claim cl, .error "not owner")
  else
    let w := w.modifyGen a.generation fun g => { g with state := .active }
    (w.setClaim a.claim cl.rolledBack, .ok)

def expire (w : World) (name : String) : World × Result :=
  (w.setClaim name ((w.claim name).expireIfNeeded w.now), .ok)

/-- `sweepExpired`: every claim by itself, so the order does not matter. -/
def sweepExpired (w : World) : World :=
  { w with claims := fun name => (w.claims name).map (Claim.expireIfNeeded w.now) }

def crashOwner (w : World) (name : String) : World × Result :=
  let cl := w.claim name
  let w := w.modifyGen cl.owner fun g => { g with connected := false, state := .failed }
  (w.setClaim name cl, .ok)

/-- `ActCrashCandidate`: the timeout of a transfer is brought forward. -/
def crashCandidate (w : World) (name : String) : World × Result :=
  match w.claims name with
  | none => (w, .ok)
  | some cl =>
    if cl.phase = .reserved then (w.setClaim name { cl with transferDeadline := w.now }, .ok)
    else (w, .ok)

def forceRevoke (w : World) (a : Action) : World × Result :=
  let cl := w.claim a.claim
  if cl.owner ≠ a.generation then (w.setClaim a.claim cl, .error "expected owner mismatch")
  else (w.setClaim a.claim cl.vacated, .ok)

/-- `ActRegisterGeneration`. -/
def registerGeneration (w : World) (id : String) : World × Result :=
  match w.gens id with
  | some _ => (w, .ok)
  | none =>
    let g : Generation := { id, state := .standby, connected := true }
    ({ w with gens := update w.gens id (some g) }, .ok)

def apply (w : World) (a : Action) : World × Result :=
  match a.type with
  | .registerGeneration => w.registerGeneration a.generation
  | .passReadiness => w.requireGen a.generation fun g => { g with ready := true, state := .standby }
  | .failReadiness => w.requireGen a.generation fun g => { g with ready := false, state := .failed }
  | .requestClaim => w.requestClaim a
  | .renewClaim => w.renewClaim a
  | .releaseClaim => w.releaseClaim a
  | .beginDrain => w.requireGen a.generation fun g => { g with draining := true, state := .draining }
  | .completeDrain => (w.modifyGen a.generation fun g => { g with draining := false }, .ok)
  | .prepareTransfer => w.prepare a
  | .commitTransfer => w.commit a
  | .abortTransfer => w.abort a
  | .pause => (w.modifyGen a.generation fun g => { g with paused := true }, .ok)
  | .resume => (w.modifyGen a.generation fun g => { g with paused := false }, .ok)
  | .disconnect => (w.modifyGen a.generation fun g => { g with connected := false }, .ok)
  | .reconnect => (w.modifyGen a.generation fun g => { g with connected := true }, .ok)
  | .expireLease => w.expire a.claim
  | .crashOwner => w.crashOwner a.claim
  | .crashCandidate => w.crashCandidate a.claim
  | .restartBackend => (w, .ok)
  | .forceRevoke => w.forceRevoke a
  | .advanceTime => (({ w with now := int64 (w.now + a.delta) } : World).sweepExpired, .ok)
  | .other text => (w, .error ("unknown action " ++ text))

/-- The world after an action, errors ignored. -/
def step (w : World) (a : Action) : World := (w.apply a).1

end World

/-! ## Checks -/

/-- The names of the invariants that the checks report. -/
inductive Invariant where
  | singleOwner | tokenMonotonic | transferBounded | reservedHasOwner | protectedEpoch
  deriving DecidableEq, Repr

def phaseText : ClaimPhase → String
  | .unowned => "unowned"
  | .owned => "owned"
  | .reserved => "reserved"
  | .draining => "draining"

namespace World

/-- The deadline check of `CheckInvariants`. -/
def checkDeadline (w : World) (name : String) (cl : Claim) : Option (Invariant × String) :=
  if cl.phase = .reserved ∧ 0 < cl.transferDeadline ∧
      int64 (cl.transferDeadline + w.transferTO) < w.now then
    some (.transferBounded, s!"claim {name} transfer overdue")
  else none

/-- The checks of `CheckInvariants` on one claim. -/
def checkClaim (w : World) (name : String) (cl : Claim) : Option (Invariant × String) :=
  if (cl.phase = .owned ∨ cl.phase = .reserved) ∧ cl.owner = "" then
    some (.reservedHasOwner, s!"claim {name} phase={phaseText cl.phase} empty owner")
  else if cl.phase = .reserved ∧ cl.pendingSuccessor = "" then
    some (.reservedHasOwner, s!"claim {name} reserved without successor")
  else if cl.phase = .unowned ∧ cl.owner ≠ "" then
    some (.singleOwner, s!"claim {name} unowned but owner={cl.owner}")
  else
    match w.protectedEpoch name with
    | some ep =>
      if cl.phase = .owned ∧ cl.token ≠ ep then
        some (.protectedEpoch, s!"claim {name} token={cl.token} epoch={ep}")
      else w.checkDeadline name cl
    | none => w.checkDeadline name cl

/-- The second loop of `CheckInvariants`: the committed owners of one claim. -/
def checkOwners (name : String) (cl : Claim) : Option (Invariant × String) :=
  let owners := if cl.phase = .owned ∧ cl.owner ≠ "" then 1 else 0
  if 1 < owners then some (.singleOwner, name) else none

/-- The first claim, in the given order, that a check objects to. -/
def firstViolation (w : World) (order : List String)
    (check : String → Claim → Option (Invariant × String)) : Option (Invariant × String) :=
  order.findSome? fun name => (w.claims name).bind (check name)

/-- `CheckInvariants`, with the orders in which its two loops range over the claims. -/
def checkInvariants (w : World) (order order' : List String) : Option (Invariant × String) :=
  match w.firstViolation order w.checkClaim with
  | some v => some v
  | none => w.firstViolation order' checkOwners

def tokenSnapshot (w : World) (name : String) : Option FencingToken :=
  (w.claims name).map Claim.token

end World

/-- `CheckTokenMonotonic`, with the order in which it ranges over `cur`. -/
def checkTokenMonotonic (prev cur : String → Option FencingToken) (order : List String) :
    Option (Invariant × String) :=
  order.findSome? fun name =>
    match cur name, prev name with
    | some v, some p => if v < p then some (.tokenMonotonic, s!"{name}: {p} -> {v}") else none
    | _, _ => none

end ShiftLock.Model
