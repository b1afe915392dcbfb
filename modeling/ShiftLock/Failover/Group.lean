import ShiftLock.Workflow.Definition
import ShiftLock.Conc.Run

/-!
# Failover groups (`failover/failover.go`)

The calls of a manager, one after another. What the registry says is up to the environment: the health
of a resource, if it is registered, and the outcome of `Advance`.

`pickStandby` looks at the standbys only. After a failover the active resource is a standby, and it can
be picked again (`failover_stays`); `failover_moves` says when it is not.
-/

namespace ShiftLock.Failover

open Workflow (ResourceID)

inductive Policy where
  | manual
  | healthBased
  | other (text : String)
  deriving DecidableEq, Repr

inductive HealthStatus where
  | unknown | healthy | degraded | unhealthy | blocked
  | other (text : String)
  deriving DecidableEq, Repr

structure EpochAdvance where
  fromEpoch : Nat
  toEpoch : Nat
  reason : String
  deriving DecidableEq, Repr

structure GroupConfig where
  name : String
  primary : ResourceID
  standbys : List ResourceID
  policy : Policy := .other ""

structure Group where
  name : String
  policy : Policy
  primary : ResourceID
  standbys : List ResourceID
  active : ResourceID
  epoch : Nat := 0

structure Decision where
  group : String
  fromID : ResourceID
  toID : ResourceID
  reason : String
  at_ : Time
  epochAdv : EpochAdvance
  failback : Bool
  deriving DecidableEq, Repr

inductive Error where
  | notFound | duplicate | noStandby | invalidState | manualOnly | reasonRequired | nameRequired
  /-- An error of the registry. -/
  | registry (text : String)
  deriving DecidableEq, Repr

structure Manager where
  groups : String → Option Group := fun _ => none
  log : List Decision := []
  maxHistory : Nat := 256

/-- The registry, as a call sees it. -/
structure Env where
  health : ResourceID → Option HealthStatus
  advance : ResourceID → String → Except String EpochAdvance
  now : Time := 0

/-- The first standby that is healthy or degraded. -/
def usable (health : ResourceID → Option HealthStatus) (standbys : List ResourceID) : Option ResourceID :=
  standbys.find? fun s => health s = some .healthy ∨ health s = some .degraded

def pickStandby (health : ResourceID → Option HealthStatus) (g : Group) :
    Option ResourceID → Except Error ResourceID
  | some target => if target ∈ g.standbys then .ok target else .error .noStandby
  | none =>
    match usable health g.standbys, g.standbys with
    | some s, _ => .ok s
    | none, [] => .error .noStandby
    | none, s :: _ => .ok s

namespace Manager

variable (m : Manager) (e : Env)

def register (cfg : GroupConfig) : Manager × Option Error :=
  if cfg.name = "" ∨ cfg.primary.isZero then (m, some .nameRequired)
  else if (m.groups cfg.name).isSome then (m, some .duplicate)
  else
    ({ m with groups := Function.update m.groups cfg.name (some
        { name := cfg.name
          policy := if cfg.policy = .other "" then .manual else cfg.policy
          primary := cfg.primary
          standbys := cfg.standbys
          active := cfg.primary }) }, none)

def appendLog (d : Decision) : List Decision :=
  (m.log ++ [d]).drop ((m.log ++ [d]).length - m.maxHistory)

/-- The end of a failover or failback of `g`. The active pointer is set back when `Advance` fails. -/
def promote (name : String) (g : Group) (toID : ResourceID) (reason : String) (failback : Bool) :
    Manager × Except Error Decision :=
  match e.advance toID ((if failback then "failback:" else "failover:") ++ reason) with
  | .error text => (m, .error (.registry text))
  | .ok adv =>
    let d := { group := name, fromID := g.active, toID, reason, at_ := e.now, epochAdv := adv, failback }
    ({ m with
        groups := Function.update m.groups name (some { g with active := toID, epoch := adv.toEpoch })
        log := m.appendLog d }, .ok d)

def executeFailover (name reason : String) (target : Option ResourceID) :
    Manager × Except Error Decision :=
  if reason = "" then (m, .error .reasonRequired)
  else
    match m.groups name with
    | none => (m, .error .notFound)
    | some g =>
      if g.policy = .manual ∧ target = none then (m, .error .manualOnly)
      else
        match pickStandby e.health g target with
        | .error err => (m, .error err)
        | .ok toID => m.promote e name g toID reason false

def executeFailback (name reason : String) : Manager × Except Error Decision :=
  if reason = "" then (m, .error .reasonRequired)
  else
    match m.groups name with
    | none => (m, .error .notFound)
    | some g =>
      if g.active = g.primary then (m, .error .invalidState)
      else m.promote e name g g.primary reason true

/-- `EvaluateHealth`: the standby that it recommends. -/
def evaluateHealth (name : String) : Except Error (Option ResourceID) :=
  match m.groups name with
  | none => .error .notFound
  | some g =>
    if g.policy ≠ .healthBased then .ok none
    else
      match e.health g.active with
      | none => .error (.registry "not found")
      | some h =>
        if h ≠ .unhealthy ∧ h ≠ .blocked then .ok none
        else
          match usable e.health g.standbys with
          | some s => .ok (some s)
          | none => .error .noStandby

end Manager

/-- The calls that change a manager. -/
inductive Call where
  | register (cfg : GroupConfig)
  | failover (name reason : String) (target : Option ResourceID)
  | failback (name reason : String)

/-- A call, and what the registry says in it. -/
def step (m : Manager) : Call × Env → Manager
  | (.register cfg, _) => (m.register cfg).1
  | (.failover name reason target, e) => (m.executeFailover e name reason target).1
  | (.failback name reason, e) => (m.executeFailback e name reason).1

/-- The manager after the first `i` calls. -/
abbrev stateAt (xs : List (Call × Env)) (i : Nat) : Manager := Conc.Run.stateAt step {} xs i

/-! ## The active resource -/

/-- The active resource is the primary one or a standby. -/
def Group.Sound (g : Group) : Prop := g.active = g.primary ∨ g.active ∈ g.standbys

/-- All groups are sound. -/
def Manager.Sound (m : Manager) : Prop := ∀ name g, m.groups name = some g → g.Sound

theorem Manager.Sound.update {m : Manager} {g : Group} (h : m.Sound) (hg : g.Sound) (name : String)
    (log : List Decision) :
    Manager.Sound { m with groups := Function.update m.groups name (some g), log } := by
  intro n g' hn
  by_cases heq : n = name
  · subst heq
    obtain rfl : g = g' := by simpa using hn
    exact hg
  · exact h n g' (by simpa [Function.update_of_ne heq] using hn)

theorem Manager.Sound.promote {m : Manager} (h : m.Sound) (e : Env) (name reason : String) (g : Group)
    {toID : ResourceID} (hto : toID = g.primary ∨ toID ∈ g.standbys) (failback : Bool) :
    (m.promote e name g toID reason failback).1.Sound := by
  unfold Manager.promote
  split
  · exact h
  · exact h.update (by exact hto) name _

/-! ## What a failover picks -/

theorem pickStandby_mem {health : ResourceID → Option HealthStatus} {g : Group} {target : Option ResourceID}
    {s : ResourceID} (h : pickStandby health g target = .ok s) : s ∈ g.standbys := by
  cases target with
  | some target =>
    simp only [pickStandby] at h
    split at h
    · rename_i hmem
      cases h
      exact hmem
    · cases h
  | none =>
    simp only [pickStandby] at h
    split at h
    · rename_i hs
      cases h
      exact List.mem_of_find?_eq_some hs
    · cases h
    · rename_i hs
      cases h
      rw [hs]
      exact List.mem_cons_self

theorem Manager.Sound.step {m : Manager} (h : m.Sound) (x : Call × Env) : (step m x).Sound := by
  obtain ⟨c, e⟩ := x
  cases c with
  | register cfg =>
    simp only [Failover.step, register]
    split
    · exact h
    split
    · exact h
    · exact h.update (.inl rfl) cfg.name m.log
  | failover name reason target =>
    simp only [Failover.step, executeFailover]
    split
    · exact h
    split
    · exact h
    split
    · exact h
    split
    · exact h
    · rename_i hpick
      exact h.promote e name reason _ (.inr (pickStandby_mem hpick)) false
  | failback name reason =>
    simp only [Failover.step, executeFailback]
    split
    · exact h
    split
    · exact h
    split
    · exact h
    · exact h.promote e name reason _ (.inl rfl) true

theorem sound_stateAt (xs : List (Call × Env)) (i : Nat) : (stateAt xs i).Sound :=
  Conc.Run.invariant (C := fun _ => True) (fun _ x h _ => h.step x) (fun _ _ h => by cases h)
    (fun _ _ => trivial) i

theorem usable_healthy {health : ResourceID → Option HealthStatus} {standbys : List ResourceID}
    {s : ResourceID} (h : usable health standbys = some s) :
    health s = some .healthy ∨ health s = some .degraded := by
  have hs := List.find?_some h
  exact of_decide_eq_true hs

section

variable {m : Manager} {e : Env} {name reason : String} {target : Option ResourceID} {g : Group}
  (hg : m.groups name = some g) (hpolicy : g.policy = .healthBased)

include hg hpolicy

/-- A failover of a health-based group promotes what `pickStandby` gives. -/
theorem executeFailover_eq (hreason : reason ≠ "") {s : ResourceID}
    (hs : pickStandby e.health g target = .ok s) :
    m.executeFailover e name reason target = m.promote e name g s reason false := by
  unfold Manager.executeFailover
  simp only [if_neg hreason, hg, hpolicy, hs]
  rfl

theorem executeFailover_ok {d : Decision} (h : (m.executeFailover e name reason target).2 = .ok d) :
    pickStandby e.health g target = .ok d.toID ∧ d.fromID = g.active := by
  by_cases hreason : reason = ""
  · rw [Manager.executeFailover, if_pos hreason] at h
    cases h
  cases hs : pickStandby e.health g target with
  | error err =>
    unfold Manager.executeFailover at h
    simp [if_neg hreason, hg, hpolicy, hs] at h
  | ok s =>
    rw [executeFailover_eq hg hpolicy hreason hs] at h
    unfold Manager.promote at h
    split at h
    · cases h
    · cases h
      exact ⟨rfl, rfl⟩

theorem evaluateHealth_some {s : ResourceID} (h : m.evaluateHealth e name = .ok (some s)) :
    pickStandby e.health g none = .ok s ∧ s ≠ g.active := by
  unfold Manager.evaluateHealth at h
  simp only [hg, hpolicy, ne_eq, not_true, if_false] at h
  split at h
  · cases h
  rename_i hactive
  split at h
  · cases h
  rename_i hdown
  split at h
  · rename_i hs
    cases h
    refine ⟨by simp only [pickStandby, hs], ?_⟩
    -- The active resource is unhealthy or blocked, what is recommended is neither.
    rintro rfl
    have hup := usable_healthy hs
    rw [hactive] at hup
    rcases hup with hup | hup <;> cases hup <;> exact hdown (by decide)
  · cases h

end

/-- Where a failover goes: to the target, without one to the first standby that is healthy or degraded,
and if there is none to the first standby. -/
def choice (health : ResourceID → Option HealthStatus) (g : Group) (target : Option ResourceID) :
    Option ResourceID :=
  (target.or (usable health g.standbys)).or g.standbys.head?

theorem choice_of_pickStandby {health : ResourceID → Option HealthStatus} {g : Group}
    {target : Option ResourceID} {s : ResourceID} (h : pickStandby health g target = .ok s) :
    choice health g target = some s := by
  cases target with
  | some target =>
    simp only [pickStandby] at h
    split at h
    · cases h
      rfl
    · cases h
  | none =>
    simp only [pickStandby] at h
    split at h
    · rename_i hs
      cases h
      simp [choice, hs]
    · cases h
    · rename_i hnone hs
      cases h
      rw [choice, hnone, hs]
      rfl

/-- After any calls: a failover of a health-based group moves exactly if where it goes is not the active
resource, which is the primary one or a standby. Without a target it promotes what `EvaluateHealth`
recommends, which is never the active resource. -/
theorem failover_moves (xs : List (Call × Env)) (i : Nat) (e : Env) (name reason : String) (g : Group)
    (hg : (stateAt xs i).groups name = some g) (hpolicy : g.policy = .healthBased) :
    g.Sound ∧
    (∀ target d, ((stateAt xs i).executeFailover e name reason target).2 = .ok d →
      (d.toID ≠ d.fromID ↔ choice e.health g target ≠ some g.active)) ∧
    ∀ s, (stateAt xs i).evaluateHealth e name = .ok (some s) →
      choice e.health g none ≠ some g.active ∧
      (∀ d, ((stateAt xs i).executeFailover e name reason none).2 = .ok d → d.toID = s) ∧
      ∀ adv, reason ≠ "" → e.advance s ("failover:" ++ reason) = .ok adv →
        ∃ d, ((stateAt xs i).executeFailover e name reason none).2 = .ok d := by
  refine ⟨sound_stateAt xs i name g hg, fun target d hd => ?_, fun s hs => ?_⟩
  · obtain ⟨hpick, hfrom⟩ := executeFailover_ok hg hpolicy hd
    simp [hfrom, choice_of_pickStandby hpick]
  · obtain ⟨hpick, hne⟩ := evaluateHealth_some hg hpolicy hs
    refine ⟨by simpa [choice_of_pickStandby hpick] using hne, fun d hd => ?_, fun adv hreason hadv => ?_⟩
    · obtain ⟨hto, -⟩ := executeFailover_ok hg hpolicy hd
      rw [hpick] at hto
      exact (Except.ok.inj hto).symm
    · rw [executeFailover_eq hg hpolicy hreason hpick]
      simp [Manager.promote, hadv]

/-- A health-based group with one standby, which is healthy. -/
def sampleGroup : GroupConfig where
  name := "g"
  primary := { name := "p" }
  standbys := [{ name := "s" }]
  policy := .healthBased

/-- The standby is healthy, the primary is not. -/
def sampleEnv : Env where
  health id := some (if id.name = "s" then .healthy else .unhealthy)
  advance _ reason := .ok ⟨0, 1, reason⟩

/-- The group fails over to its standby, and back. -/
def sampleCalls : List (Call × Env) :=
  [(.register sampleGroup, sampleEnv), (.failover "g" "r" none, sampleEnv), (.failback "g" "r", sampleEnv)]

/-- The next failover moves again. -/
theorem failover_moves_sample :
    ∃ d, ((stateAt sampleCalls 3).executeFailover sampleEnv "g" "r" none).2 = .ok d ∧
      d.toID ≠ d.fromID := by
  refine ⟨_, rfl, ?_⟩
  exact ((failover_moves sampleCalls 3 sampleEnv "g" "r" _ rfl rfl).2.1 none _ rfl).mpr (by decide)

/-- The second of two failovers goes from the standby to the standby. -/
theorem failover_stays :
    ∃ d, ((stateAt sampleCalls 2).executeFailover sampleEnv "g" "r" none).2 = .ok d ∧
      d.toID = d.fromID :=
  ⟨_, rfl, rfl⟩

end ShiftLock.Failover
