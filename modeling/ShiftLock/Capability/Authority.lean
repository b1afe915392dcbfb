import ShiftLock.Types
import ShiftLock.Conc.Prog

/-!
# Capabilities (`capability/capability.go`)

The sections of `Authority` and the program of `Delegate`. Random bytes and clocks are choices of the
environment; signing and verification are parameters (`Crypto`).
-/

namespace ShiftLock.Capability

abbrev ID := String

structure Constraints where
  singleUse : Bool := false
  environment : String := ""
  maxUses : Int := 0
  allowedResources : List String := []
  deriving DecidableEq, Repr

structure Token where
  id : ID
  subject : String
  permission : String
  resource : String
  issuedAt : Time
  expiresAt : Time
  constraints : Constraints
  nonce : String
  epoch : UInt64
  parentID : ID := ""
  signature : List UInt8 := []
  keyID : String := ""
  deriving DecidableEq, Repr

/-- `signBody`: the token without its signature. -/
def Token.body (t : Token) : Token := { t with signature := [], keyID := "" }

structure Request where
  subject : String := ""
  permission : String
  resource : String := ""
  ttl : Duration := 0
  constraints : Constraints := {}
  deriving DecidableEq, Repr

/-- What the authority returns besides nil. -/
inductive Error where
  | denied | expired | revoked | epochMismatch | invalidSig | widenDelegate | singleUseSpent
  | notFound | epochOverflow
  /-- An error of the random source or of the signer. -/
  | foreign (text : String)
  deriving DecidableEq, Repr

/-- `signing.SignCanonical`: the signature and the key's ID; and `signing.VerifyCanonical`. -/
structure Crypto where
  sign : Token → Except String (List UInt8 × String)
  verify : Token → List UInt8 → String → Bool

/-- `Authority`; `replay` is the epoch of the anti-replay cache. -/
structure Authority where
  signer : Bool := false
  keys : Bool := false
  requireSig : Bool := false
  epoch : UInt64 := 0
  replay : Option UInt64 := some 0
  revoked : ID → Bool := fun _ => false
  spent : ID → Int := fun _ => 0
  issued : ID → Option Token := fun _ => none

/-- The largest `time.Duration`, at which `time.Until` saturates. -/
def maxDuration : Duration := 9223372036854775807

/-- What one section sees of the world: `a.now()`, the wall clock, and the encoded random bytes. -/
structure Env where
  now : Time := 0
  wall : Time := 0
  random : Except String (String × String) := .error ""

namespace Authority

variable (a : Authority) (c : Crypto) (e : Env)

def signLocked (t : Token) : Except Error Token :=
  if a.signer then
    match c.sign t.body with
    | .error text => .error (.foreign text)
    | .ok sig => .ok { t with signature := sig.1, keyID := sig.2 }
  else .ok t

/-- The token that `Issue` makes. -/
def draft (req : Request) (nonce id : String) : Token where
  id := "cap_" ++ id
  subject := req.subject
  permission := req.permission
  resource := req.resource
  issuedAt := e.now
  expiresAt := e.now + if req.ttl ≤ 0 then 5 * 60 * 1000000000 else req.ttl
  constraints := req.constraints
  nonce
  epoch := a.epoch

/-- The token becomes known. -/
def record (t : Token) : Authority := { a with issued := Function.update a.issued t.id (some t) }

def issue (req : Request) : Authority × Except Error Token :=
  if req.permission = "" ∨ req.permission = "*" then (a, .error .denied)
  else
    match e.random with
    | .error text => (a, .error (.foreign text))
    | .ok (nonce, id) =>
      match a.signLocked c (a.draft e req nonce id) with
      | .error err => (a, .error err)
      | .ok t => (a.record t, .ok t)

/-- `verifyLocked`: the use count of a token. -/
def verifyUses (t : Token) (consume : Bool) : Authority × Option Error :=
  if t.constraints.singleUse ∨ t.constraints.maxUses = 1 then
    if 0 < a.spent t.id then (a, some .singleUseSpent)
    else if consume then ({ a with spent := Function.update a.spent t.id 1 }, none)
    else (a, none)
  else if 1 < t.constraints.maxUses then
    if t.constraints.maxUses ≤ a.spent t.id then (a, some .singleUseSpent)
    else if consume then
      ({ a with spent := Function.update a.spent t.id (a.spent t.id + 1) }, none)
    else (a, none)
  else (a, none)

def verifyLocked (t : Token) (consume : Bool) : Authority × Option Error :=
  if a.revoked t.id then (a, some .revoked)
  else if t.epoch ≠ a.epoch then (a, some .epochMismatch)
  else if t.expiresAt < e.now then (a, some .expired)
  else if (a.requireSig ∨ t.signature ≠ []) ∧ (!a.keys || !c.verify t.body t.signature t.keyID) then
    (a, some .invalidSig)
  else a.verifyUses t consume

def revoke (id : ID) : Authority × Option Error :=
  if (a.issued id).isNone then (a, some .notFound)
  else ({ a with revoked := Function.update a.revoked id true }, none)

def advanceEpoch : Authority × Option Error :=
  match a.replay with
  | some epoch =>
    if epoch = UInt64.ofNat (2 ^ 64 - 1) then (a, some .epochOverflow)
    else ({ a with replay := some (epoch + 1), epoch := epoch + 1 }, none)
  | none =>
    if a.epoch = UInt64.ofNat (2 ^ 64 - 1) then (a, some .epochOverflow)
    else ({ a with epoch := a.epoch + 1 }, none)

def permissionReduces (parent child : String) : Bool :=
  if parent = child then true
  else if ['.', '*'].isSuffixOf parent.toList then
    (parent.toList.take (parent.toList.length - 1)).isPrefixOf child.toList && !child.toList.contains '*'
  else false

/-- `Delegate` between its first section and `Issue`: the request that is issued. -/
def narrow (parent : Token) (req : Request) : Except Error Request :=
  if !permissionReduces parent.permission req.permission then .error .widenDelegate
  else if parent.resource ≠ "" ∧ req.resource ≠ "" ∧ parent.resource ≠ req.resource then
    .error .widenDelegate
  else
    let req := { req with
      resource := if parent.resource ≠ "" ∧ req.resource = "" then parent.resource else req.resource
      subject := if req.subject = "" then parent.subject else req.subject }
    if req.ttl ≤ 0 ∨ parent.expiresAt < e.now + req.ttl then
      let rem := min (parent.expiresAt - e.wall) maxDuration
      if rem ≤ 0 then .error .expired
      else .ok { req with ttl := if req.ttl ≤ 0 ∨ rem < req.ttl then rem else req.ttl }
    else .ok req

/-- The last section of `Delegate`. -/
def adopt (parent child : Token) : Authority × Except Error Token :=
  match a.signLocked c { child with parentID := parent.id, epoch := parent.epoch } with
  | .error err => (a, .error err)
  | .ok t => (a.record t, .ok t)

end Authority

/-! ## Programs -/

/-- The atomic actions of an authority. -/
inductive Act where
  | issue (req : Request)
  | verify (t : Token) (consume : Bool)
  | revoke (id : ID)
  | advanceEpoch
  | narrow (parent : Token) (req : Request)
  | adopt (parent child : Token)
  deriving DecidableEq, Repr

abbrev Act.Answer : Act → Type
  | .issue _ => Except Error Token
  | .verify .. => Option Error
  | .revoke _ => Option Error
  | .advanceEpoch => Option Error
  | .narrow .. => Except Error Request
  | .adopt .. => Except Error Token

def exec (c : Crypto) : (a : Act) → Env → Authority → Authority × a.Answer
  | .issue req, e, w => w.issue c e req
  | .verify t consume, e, w => w.verifyLocked c e t consume
  | .revoke id, _, w => w.revoke id
  | .advanceEpoch, _, w => w.advanceEpoch
  | .narrow parent req, e, w => (w, Authority.narrow e parent req)
  | .adopt parent child, _, w => w.adopt c parent child

abbrev P := Conc.Prog Act Act.Answer

abbrev perform (a : Act) : P a.Answer := Conc.Prog.perform a

def delegate (parent : Token) (req : Request) : P (Except Error Token) := do
  match ← perform (.verify parent false) with
  | some err => return .error err
  | none =>
    match ← perform (.narrow parent req) with
    | .error err => return .error err
    | .ok req =>
      match ← perform (.issue req) with
      | .error err => return .error err
      | .ok child => perform (.adopt parent child)

end ShiftLock.Capability
