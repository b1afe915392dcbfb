import Mathlib.Algebra.Group.Nat.Defs
import Mathlib.Logic.Function.Basic

/-!
# The data model (`state.go`, `backend.go`, `ownership.go`, `errors.go`, `generation.go`)

Times are nanoseconds since Go's zero time, so that `t.IsZero()` is `t = 0`. Fencing tokens are
`uint64` values; the one addition on them that can wrap is written with its modulus.
-/

namespace ShiftLock

abbrev Time := Int
abbrev Duration := Int

/-- `time.Second`. -/
def second : Duration := 1000000000

/-- `time.Minute`. -/
def minute : Duration := 60 * second

/-- The Unix epoch, in nanoseconds since Go's zero time. -/
def unixEpoch : Time := 62135596800000000000

/-- `t.UnixNano()`. -/
def unixNano (t : Time) : Int := t - unixEpoch

/-- `FencingToken` (`uint64`). -/
abbrev FencingToken := Nat

/-- `OperationID`: the empty ID is the legacy path without replay. -/
abbrev OperationID := String

/-- `MaxSafeFencingToken`: `^uint64(0) - 1`. -/
def maxSafeFencingToken : FencingToken := 2 ^ 64 - 2

/-- `t + 1` on `uint64`. -/
def wrapSucc (t : Nat) : Nat := (t + 1) % 2 ^ 64

/-! ## States, phases and reasons -/

inductive GenerationState where
  | joining | standby | preparing | active | draining | transferring | retired | failed
  deriving DecidableEq, Repr

def GenerationState.terminal (s : GenerationState) : Bool := s = .retired ∨ s = .failed

inductive ClaimPhase where
  | unowned | owned | reserved | draining
  deriving DecidableEq, Repr

/-- The phases with an owner: owned, reserved and draining. -/
def ClaimPhase.held (p : ClaimPhase) : Bool := p = .owned ∨ p = .draining ∨ p = .reserved

@[simp] theorem ClaimPhase.held_eq_true {p : ClaimPhase} : p.held = true ↔ p ≠ .unowned := by
  cases p <;> simp [ClaimPhase.held]

@[simp] theorem ClaimPhase.held_eq_false {p : ClaimPhase} : p.held = false ↔ p = .unowned := by
  cases p <;> simp [ClaimPhase.held]

/-- `TransitionReason`; `unset` is its zero value. -/
inductive TransitionReason where
  | unset | registered | readinessPassed | readinessFailed | acquired | renewed | drainStarted
  | drainComplete | transferPrepared | transferCommitted | transferAborted | released | expired
  | fencedOut | retired | failed | closed | rollback | timeout | partition
  deriving DecidableEq, Repr

/-- `ClaimRecord.TransferStatus`; `unset` is the empty string. -/
inductive TransferStatus where
  | unset | prepared | committed | aborted
  deriving DecidableEq, Repr

/-- `ClaimRecord.DrainStatus`; `unset` is the empty string. -/
inductive DrainStatus where
  | unset | complete
  deriving DecidableEq, Repr

/-! ## Errors -/

/-- The sentinel errors that the modelled functions return. -/
inductive Sentinel where
  | closed | notOwner | claimHeld | staleToken | invalidState | draining | noTransfer
  | handoffAborted | timeout | notReady | policy | backend | claimNotFound | generationNotFound
  | concurrentTransfer | tokenOverflow
  deriving DecidableEq, Repr

def Sentinel.text : Sentinel → String
  | .closed => "shiftlock: coordinator closed"
  | .notOwner => "shiftlock: not claim owner"
  | .claimHeld => "shiftlock: claim held by another generation"
  | .staleToken => "shiftlock: stale fencing token"
  | .invalidState => "shiftlock: invalid state transition"
  | .draining => "shiftlock: draining in progress"
  | .noTransfer => "shiftlock: no pending transfer"
  | .handoffAborted => "shiftlock: handoff aborted"
  | .timeout => "shiftlock: operation timed out"
  | .notReady => "shiftlock: readiness gates not satisfied"
  | .policy => "shiftlock: policy validation failed"
  | .backend => "shiftlock: backend error"
  | .claimNotFound => "shiftlock: claim not found"
  | .generationNotFound => "shiftlock: generation not found"
  | .concurrentTransfer => "shiftlock: concurrent transfer conflict"
  | .tokenOverflow => "shiftlock: fencing token overflow"

/-- An error without structure: a sentinel, or an error from outside the package (a context
error, an injected failure). -/
inductive Cause where
  | sentinel (s : Sentinel)
  | foreign (text : String)
  deriving DecidableEq, Repr

/-- The text of an error without structure. -/
def Cause.text : Cause → String
  | .sentinel s => s.text
  | .foreign t => t

/-- `Error`: the fields that the modelled functions set. -/
structure Error where
  op : String := ""
  claim : String := ""
  reason : TransitionReason := .unset
  err : Cause
  message : String := ""
  deriving DecidableEq, Repr

/-- A Go error value: a plain error, or a `*Error` around one. -/
inductive Err where
  | plain (c : Cause)
  | typed (e : Error)
  deriving DecidableEq, Repr

abbrev Err.of (s : Sentinel) : Err := .plain (.sentinel s)

def wrap (op : String) : Err → Err
  | .plain c => .typed { op, err := c, message := c.text }
  | .typed e => .typed { e with op := if e.op = "" then op else e.op }

def wrapClaim (op claim : String) : Err → Err
  | .plain c => .typed { op, claim, err := c, message := c.text }
  | .typed e => .typed { e with
      op := if e.op = "" then op else e.op, claim := if e.claim = "" then claim else e.claim }

/-! ## Generations and claims -/

structure Generation where
  id : String
  service : String
  instanceID : String
  state : GenerationState
  startedAt : Time
  updatedAt : Time
  reason : TransitionReason
  deriving DecidableEq, Repr

/-- `ClaimRecord`: the durable state of a claim. -/
structure ClaimRecord where
  name : String
  ownerGeneration : String := ""
  fencingToken : FencingToken := 0
  phase : ClaimPhase := .unowned
  acquiredAt : Time := 0
  expiresAt : Time := 0
  previousOwner : String := ""
  pendingSuccessor : String := ""
  drainStatus : DrainStatus := .unset
  transferStatus : TransferStatus := .unset
  lastHeartbeat : Time := 0
  reason : TransitionReason := .unset
  version : Nat := 0
  deriving DecidableEq, Repr

namespace ClaimRecord

/-- `Ownership.OwnedBy`, on the record that the ownership is a copy of. -/
def ownedBy (r : ClaimRecord) (genID : String) : Bool :=
  r.phase = .owned ∧ r.ownerGeneration = genID ∧ r.fencingToken ≠ 0

/-- `Ownership.Controls`: the generation may renew the claim. -/
def controls (r : ClaimRecord) (genID : String) : Bool :=
  if r.ownerGeneration ≠ genID ∨ r.fencingToken = 0 then false else r.phase.held

theorem controls_iff {r : ClaimRecord} {genID : String} :
    r.controls genID = true ↔
      r.ownerGeneration = genID ∧ r.fencingToken ≠ 0 ∧ r.phase ≠ .unowned := by
  unfold controls
  split
  · rename_i h
    simp only [Bool.false_eq_true, false_iff]
    rintro ⟨h₁, h₂, -⟩
    exact h.elim (· h₁) h₂
  · rename_i h
    rw [not_or, not_not] at h
    simp [h.1, h.2]

end ClaimRecord

/-- `ClaimEvent`, as `WatchClaim` delivers it. -/
structure ClaimEvent where
  claim : ClaimRecord
  time : Time
  reason : TransitionReason
  deriving DecidableEq, Repr

/-! ## Requests -/

/-- `AcquireRequest`. The modelled backends ignore its `AllowEmptyOnly`. -/
structure AcquireRequest where
  claimName : String
  generationID : String
  ttl : Duration
  operationID : OperationID := ""
  deriving DecidableEq, Repr

structure RenewRequest where
  claimName : String
  generationID : String
  token : FencingToken
  ttl : Duration
  operationID : OperationID := ""
  deriving DecidableEq, Repr

structure TransferRequest where
  claimName : String
  fromGeneration : String
  toGeneration : String
  token : FencingToken
  ttl : Duration
  operationID : OperationID := ""
  deriving DecidableEq, Repr

structure CommitRequest where
  claimName : String
  fromGeneration : String
  toGeneration : String
  expectedToken : FencingToken
  ttl : Duration
  operationID : OperationID := ""
  deriving DecidableEq, Repr

structure AbortRequest where
  claimName : String
  fromGeneration : String
  toGeneration : String
  expectedToken : FencingToken
  operationID : OperationID := ""
  deriving DecidableEq, Repr

structure ReleaseRequest where
  claimName : String
  generationID : String
  token : FencingToken
  operationID : OperationID := ""
  deriving DecidableEq, Repr

end ShiftLock
