import ShiftLock.Types

/-!
# Configuration (`config.go`, `policy.go`)

The settings that the modelled functions read, with their defaults. The checks of the policy and of the
backend's capabilities, which only refuse to build a coordinator, are left out.
-/

namespace ShiftLock

/-- `reservationTTL`: a reservation outlives the transfer timeout. -/
def reservationTTL (leaseTTL transferTimeout : Duration) : Duration :=
  if transferTimeout > leaseTTL then transferTimeout + leaseTTL.tdiv 3 else leaseTTL

/-- `Policy`. -/
structure Policy where
  maxConcurrentClaims : Int := 0
  deriving DecidableEq, Repr

structure Config where
  service : String
  instanceID : String
  generationID : String := ""
  leaseTTL : Duration := 0
  transferTimeout : Duration := 0
  policy : Policy := {}
  deriving DecidableEq, Repr

/-- An `ErrPolicy` with an operation and a message. -/
def policyError (op message : String) : Err := .typed { op, err := .sentinel .policy, message }

namespace Config

/-- The default of a setting that must be positive. -/
def orDefault (v default : Int) : Int := if v ≤ 0 then default else v

/-- The settings that `defaults` fills in, `now` being the clock reading for an automatic generation
ID. -/
def filled (now : Time) (c : Config) : Config :=
  { c with
    leaseTTL := orDefault c.leaseTTL (15 * second)
    transferTimeout := orDefault c.transferTimeout (30 * second)
    generationID :=
      if c.generationID = "" then
        c.service ++ "-" ++ c.instanceID ++ "-" ++ toString (unixNano now)
      else c.generationID }

end Config

end ShiftLock
