import ShiftLock.Types
import Mathlib.Data.Nat.Count

/-!
# Readiness gates (`readiness.go`)

The evaluation of one gate, and the two ways to run a list of gates. What the checks return, when the
context expires and how long it all takes is up to the environment.
-/

namespace ShiftLock.Readiness

/-- `Gate`, without the two durations, which only the environment sees. -/
structure Gate where
  name : String
  /-- `Check` is not nil. -/
  check : Bool := true
  isRequired : Bool := false
  isOptional : Bool := false
  retries : Int := 0
  stableSuccesses : Int := 0
  deriving DecidableEq, Repr

def Gate.required (g : Gate) : Bool :=
  if g.isOptional then false else if !g.isRequired && g.isOptional then false else !g.isOptional

def Gate.stableNeed (g : Gate) : Nat := if g.stableSuccesses ≤ 0 then 1 else g.stableSuccesses.toNat

structure GateReport where
  name : String
  passed : Bool
  required : Bool
  attempts : Nat
  duration : Duration
  err : String := ""
  deriving DecidableEq, Repr

/-- What happens during the evaluation of a gate, by the number of checks so far. -/
structure Env where
  /-- `ctx.Err()` at the head of the loop. -/
  expired : Nat → Option String := fun _ => none
  check : Nat → Option String := fun _ => none
  /-- The context is done before the delay is over. -/
  interrupted : Nat → Option String := fun _ => none
  since : Nat → Duration := fun _ => 0

def runCheck (g : Gate) (e : Env) (k : Nat) : Option String := if g.check then e.check k else none

/-- The report of a gate whose context has expired. -/
def expiredReport (g : Gate) (e : Env) (attempts : Nat) (err : String) : GateReport :=
  { name := g.name, passed := false, required := g.required, attempts, duration := e.since attempts, err }

/-- The report after the loop. -/
def finalReport (g : Gate) (e : Env) (stable attempts : Nat) (lastErr : Option String) : GateReport :=
  { name := g.name, passed := lastErr.isNone && g.stableNeed ≤ stable, required := g.required, attempts
    duration := e.since attempts, err := lastErr.getD "" }

/-- The loop of `evalGate`. -/
def evalLoop (g : Gate) (e : Env) (retries stable attempts : Nat) (lastErr : Option String) : GateReport :=
  if stable < g.stableNeed then
    match e.expired attempts with
    | some err => expiredReport g e attempts err
    | none =>
      match runCheck g e attempts with
      | none => evalLoop g e retries (stable + 1) (attempts + 1) none
      | some err =>
        match retries with
        | 0 => finalReport g e 0 (attempts + 1) (some err)
        | retries + 1 =>
          match e.interrupted (attempts + 1) with
          | some err => expiredReport g e (attempts + 1) err
          | none => evalLoop g e retries 0 (attempts + 1) (some err)
  else finalReport g e stable attempts lastErr
  termination_by (retries, g.stableNeed - stable)

def evalGate (g : Gate) (e : Env) : GateReport := evalLoop g e g.retries.toNat 0 0 none

/-! ## One gate -/

/-- The number of failures among the first `k` checks. -/
def failures (g : Gate) (e : Env) (k : Nat) : Nat := Nat.count (fun j => (runCheck g e j).isSome) k

variable {g : Gate} {e : Env} {retries stable attempts : Nat} {lastErr : Option String}

inductive GateMode where
  | sequential | parallel
  deriving DecidableEq, Repr

structure ReadinessReport where
  passed : Bool
  duration : Duration
  gates : List GateReport
  deriving DecidableEq, Repr

/-- The error of a run of gates. -/
inductive RunError where
  /-- The text `gate %q failed: %s`. -/
  | failed (gate err : String)
  /-- `ctx.Err()`. -/
  | expired (err : String)
  deriving DecidableEq, Repr

/-- `ErrNotReady` with the message of the first error. -/
structure NotReady where
  op : String := "readiness"
  err : Sentinel := .notReady
  message : RunError
  deriving DecidableEq, Repr

/-- What happens during a run: at each gate, by its position. Nothing says that a context that has
expired stays so; the results do not need it. -/
structure RunEnv where
  gate : Nat → Env := fun _ => {}
  /-- `ctx.Err()` after the gate, in a sequential run. -/
  expired : Nat → Option String := fun _ => none
  /-- The order in which the goroutines of a parallel run are done. -/
  order : (reps : List GateReport) → { l : List GateReport // l.Perm reps } := fun reps => ⟨reps, .refl _⟩
  duration : Duration := 0

/-- The error of a gate that did not pass, if it is required. -/
def gateError (rep : GateReport) : Option RunError :=
  if !rep.passed && rep.required then some (.failed rep.name rep.err) else none

/-- The reports of the gates, from position `i` on. -/
def evalGates (e : RunEnv) : Nat → List Gate → List GateReport
  | _, [] => []
  | i, g :: gs => evalGate g (e.gate i) :: evalGates e (i + 1) gs

def runSequential (e : RunEnv) : Nat → List Gate → List GateReport × Option RunError
  | _, [] => ([], none)
  | i, g :: gs =>
    let rep := evalGate g (e.gate i)
    let rest := runSequential e (i + 1) gs
    (rep :: rest.1, ((gateError rep).or ((e.expired i).map .expired)).or rest.2)

def runParallel (e : RunEnv) (gs : List Gate) : List GateReport × Option RunError :=
  let reps := evalGates e 0 gs
  (reps, (e.order reps).1.findSome? gateError)

def run (gs : List Gate) (mode : GateMode) (e : RunEnv) : ReadinessReport × Option NotReady :=
  let r :=
    match mode with
    | .parallel => runParallel e gs
    | .sequential => runSequential e 0 gs
  ({ passed := r.2.isNone, duration := e.duration, gates := r.1 }, r.2.map fun message => { message })

theorem gateError_eq_none {rep : GateReport} :
    gateError rep = none ↔ (rep.required = true → rep.passed = true) := by
  unfold gateError
  cases rep.passed <;> cases rep.required <;> simp

theorem runSequential_eq (e : RunEnv) (i : Nat) (gs : List Gate) :
    ((runSequential e i gs).2 = none ↔
      (∀ rep ∈ (runSequential e i gs).1, gateError rep = none) ∧
        ∀ k, i ≤ k → k < i + gs.length → e.expired k = none) := by
  induction gs generalizing i with
  | nil => simp [runSequential]; omega
  | cons g gs ih =>
    simp only [runSequential, Option.or_eq_none_iff, Option.map_eq_none_iff, ih, List.forall_mem_cons,
      List.length_cons]
    constructor
    · rintro ⟨⟨h, h'⟩, hs, hs'⟩
      refine ⟨⟨h, hs⟩, fun k hk hk' => ?_⟩
      rcases Nat.eq_or_lt_of_le hk with rfl | hk
      · exact h'
      · exact hs' k hk (by omega)
    · rintro ⟨⟨h, hs⟩, hall⟩
      exact ⟨⟨h, hall i (Nat.le_refl _) (by omega)⟩, hs, fun k hk hk' => hall k (by omega) (by omega)⟩

/-- Every required gate has passed. -/
def Ready (rep : ReadinessReport) : Prop := ∀ g ∈ rep.gates, g.required = true → g.passed = true

/-- **Readiness.** A run without an error has passed all required gates. The converse fails exactly in a
sequential run that has passed them and whose context has expired after one of the gates. -/
theorem run_ready (gs : List Gate) (mode : GateMode) (e : RunEnv) :
    ((run gs mode e).2 = none → Ready (run gs mode e).1) ∧
    (((run gs mode e).2 = none ↔ Ready (run gs mode e).1) ↔
      mode = .parallel ∨ (∀ k < gs.length, e.expired k = none) ∨ ¬Ready (run gs mode e).1) := by
  have hready {reps : List GateReport} {p : Bool} {d : Duration} :
      Ready ⟨p, d, reps⟩ ↔ ∀ rep ∈ reps, gateError rep = none :=
    forall₂_congr fun _ _ => gateError_eq_none.symm
  cases mode with
  | parallel =>
    have h : (run gs .parallel e).2 = none ↔ Ready (run gs .parallel e).1 := by
      simp only [run, runParallel, Option.map_eq_none_iff, hready, List.findSome?_eq_none_iff]
      exact forall_congr' fun rep => by rw [(e.order _).2.mem_iff]
    exact ⟨h.mp, iff_of_true h (.inl rfl)⟩
  | sequential =>
    have h : (run gs .sequential e).2 = none ↔
        Ready (run gs .sequential e).1 ∧ ∀ k < gs.length, e.expired k = none := by
      simp only [run, Option.map_eq_none_iff, hready, runSequential_eq, Nat.zero_le, forall_const,
        Nat.zero_add]
    refine ⟨fun hnone => (h.mp hnone).1, ?_⟩
    rw [h, and_iff_left_iff_imp, or_iff_right (by simp), imp_iff_or_not]

/-- The context expires during the check of the only gate, which passes. -/
theorem run_expired :
    let r := run [{ name := "g" }] .sequential { expired := fun _ => some "context deadline exceeded" }
    r.2 = some { message := .expired "context deadline exceeded" } ∧ Ready r.1 := by
  have hgate : evalGate { name := "g" } {} =
      { name := "g", passed := true, required := true, attempts := 1, duration := 0 } := by
    unfold evalGate
    rw [evalLoop, evalLoop]
    rfl
  simp [run, runSequential, hgate, gateError, Ready]

end ShiftLock.Readiness
