/-!
# The policy engine (`guard/guard.go`)

`Evaluate`: the last rule of the highest priority among those that match decides, and without one the
decision is `deny`. The constraints and the trail of an explanation are left out.
-/

namespace ShiftLock.Guard

inductive Decision where
  | allow | deny | requireApproval | requireQuorum | allowWithConstraints
  deriving DecidableEq, Repr

structure Request where
  principal : String
  permission : String
  resource : String
  action : String
  deriving DecidableEq, Repr

/-- `Rule`. An empty field matches everything. -/
structure Rule where
  name : String
  principal : String := ""
  permission : String := ""
  resource : String := ""
  action : String := ""
  decision : Decision
  priority : Int := 0
  deriving DecidableEq, Repr

/-- `match`. -/
def matchPattern (pattern value : String) : Bool :=
  if pattern = "" ∨ pattern = "*" then true
  else if pattern.toList.getLast? = some '*' then
    pattern.toList.dropLast.isPrefixOf value.toList
  else pattern = value

def Rule.applies (r : Rule) (req : Request) : Bool :=
  matchPattern r.principal req.principal && matchPattern r.permission req.permission &&
    matchPattern r.resource req.resource && matchPattern r.action req.action

/-- The loop of `Explain`, from the best rule so far. -/
def bestRule (req : Request) : List Rule → Option Rule → Option Rule
  | [], best => best
  | r :: rest, best =>
    if r.applies req ∧ best.all (fun b => b.priority ≤ r.priority) then bestRule req rest (some r)
    else bestRule req rest best

def evaluate (rules : List Rule) (req : Request) : Decision :=
  ((bestRule req rules none).map (·.decision)).getD .deny

end ShiftLock.Guard
