import ShiftLock.Coord.Flow

/-!
# Coordinators over one backend

Any number of coordinators over one in-memory backend: coordinator `i` has configuration `cfgs i`.
A restarted process is another coordinator with the same generation ID; the process that it
replaces may stop at any action or go on. The threads of all coordinators are interleaved.
-/

namespace ShiftLock

/-- The part of a world that belongs to one process. -/
structure Process where
  coord : Coord
  handoffs : Nat → Handoff := fun _ => {}

structure Cluster where
  backend : Memory.Backend
  procs : Nat → Process

/-- The calls of a process; `none` is `New`. -/
abbrev ClusterTask := Nat × Option Task

namespace Cluster

/-- What process `i` sees. -/
def world (c : Cluster) (i : Nat) : World :=
  { backend := c.backend, coord := (c.procs i).coord, handoffs := (c.procs i).handoffs }

/-- The cluster after process `i` has changed what it sees. -/
def put (c : Cluster) (i : Nat) (w : World) : Cluster :=
  { backend := w.backend
    procs := Function.update c.procs i { coord := w.coord, handoffs := w.handoffs } }

/-- Before any call of `New`, over an empty backend; process `i` is created at `boot i`. -/
def initial (cfgs : Nat → Config) (boot : Nat → Time) : Cluster :=
  { backend := Memory.new, procs := fun i => { coord := { gen := (cfgs i).generation (boot i) } } }

def code (cfgs : Nat → Config) (boot : Nat → Time) (i : Nat) : Option Task → Code.P (Result ⊕ Task)
  | none => Code.returns (Code.register ((cfgs i).generation (boot i)))
  | some t => Code.task (cfgs i) t

def system (cfgs : Nat → Config) (boot : Nat → Time) :
    Conc.Sys (Nat × Coord.Act) (fun a => a.2.Answer) Cluster Coord.Env (Nat × Outside) ClusterTask
      Result where
  exec a e c :=
    (c.put a.1 (Coord.exec (cfgs a.1) a.2 e (c.world a.1)).1,
      (Coord.exec (cfgs a.1) a.2 e (c.world a.1)).2)
  env x c := c.put x.1 (Coord.outside x.2 (c.world x.1))
  fork a r := (Coord.fork a.2 r).map fun t => (a.1, some t)
  code t := do return ((← (code cfgs boot t.1 t.2).tag t.1).map id fun t' => (t.1, some t'))

open Conc.Prog (Obeys Monitor)
open Coord (Flow)

abbrev monitor (cfgs : Nat → Config) : Monitor (Nat × Coord.Act) (fun a => a.2.Answer) (Nat × Flow) :=
  Monitor.family fun i => Flow.monitor (cfgs i)

/-- What is known when a call returns. -/
def Returns (t : ClusterTask) (g : Nat × Flow) (x : Result ⊕ ClusterTask) : Prop :=
  g.1 = t.1 ∧ ∀ l, x = .inl (.lease (.ok (.installed l))) →
    ∃ name, t.2.bind Task.acquires = some name ∧ g.2.lease = some (name, l)

theorem register_keeps {cfg : Config} (gen : Generation) :
    Coord.Keeps cfg (Code.register gen) := by
  refine (Coord.Keeps.plain rfl).bind fun r => ?_
  cases r.err with
  | some err => exact .ret _
  | none =>
    exact (Coord.setState_keeps _ _).bind fun _ => (Coord.Keeps.plain rfl).bind fun _ => .ret _

/-- The program of every call obeys the monitor. -/
theorem system_flow (cfgs : Nat → Config) (boot : Nat → Time) (t : ClusterTask) :
    Obeys (monitor cfgs) (Returns t) ((system cfgs boot).code t) (t.1, {}) := by
  obtain ⟨i, t⟩ := t
  have hcode : Obeys (Flow.monitor (cfgs i))
      (fun f x => ∀ l, x = .inl (.lease (.ok (.installed l))) →
        ∃ name, t.bind Task.acquires = some name ∧ f.lease = some (name, l))
      (code cfgs boot i t) {} := by
    cases t with
    | none => exact (register_keeps _ _).bind fun f x _ l hl => by cases hl
    | some t => exact (Coord.task_flow (cfgs i) t).mono fun f x h l hl => (h _ hl).2 l rfl
  refine (Obeys.tag (M := fun i => Flow.monitor (cfgs i)) hcode).bind fun g x hx =>
    ⟨hx.1, fun l hl => hx.2 l ?_⟩
  cases x with
  | inl x => cases hl; rfl
  | inr x => cases hl

end Cluster
end ShiftLock
