import ShiftLock.Workflow.Parallel
import ShiftLock.Workflow.History

/-!
# Success means that every effect is in force

A run that returns without an error leaves a step as it was if it was done, and completed otherwise.
A fresh run has no done step to start from. A resumed one takes every step that the stored checkpoint
has as compensated for done, so it returns success with that step's effect undone.
-/

namespace ShiftLock.Workflow

open Conc

def StepStatus.inForce (s : StepStatus) : Bool := s = .completed ∨ s = .skipped

theorem Finished.inForce_iff {names : List String} {s s' : String → StepStatus}
    (h : Finished names s s') {name : String} (hname : name ∈ names) :
    (s' name).inForce = true ↔ s name ≠ .compensated := by
  obtain ⟨hdone, hopen⟩ := h.1 name
  cases hs : (s name).done with
  | true =>
    rw [hdone hs]
    revert hs
    cases s name <;> decide
  | false =>
    have hcompleted : s' name = .completed := by
      refine (hopen hs).resolve_left fun hnot => ?_
      rw [h.2 name hname] at hnot
      cases hnot
    rw [hcompleted]
    refine iff_of_true rfl fun hcomp => ?_
    rw [hcomp] at hs
    cases hs

variable {w : World} {inst : Instance} {eng : Engine} {c : Call}

theorem Starts.compensated_iff {workflow id : String} {opts : RunOptions}
    (h : Starts w workflow opts id inst) (names : List String) :
    (∀ name ∈ names, inst.status name ≠ .compensated) ↔
      (opts.resume = false ∨ ∀ cp, w.store.data id = some cp →
        ∀ name ∈ names, (cp.step name).status ≠ .compensated) := by
  cases h with
  | fresh hresume =>
    refine iff_of_true (fun name _ => ?_) (.inl hresume)
    simp [Instance.status, freshInstance, Checkpoint.step]
  | loaded cp hresume hcp =>
    rw [hresume, hcp]
    simp only [Bool.true_eq_false, false_or, Option.some.injEq, forall_eq']
    rfl

/-- A call that returns has entered with some definition and instance, and run from there. -/
theorem Call.upTo_returns {err : Option Fault} (h : (c.upTo eng w).2 = some (some inst, err)) :
    ∃ d id inst₀, eng.defs c.workflow = some d ∧ Starts w c.workflow c.opts id inst₀ ∧
      inst₀.id = id ∧ inst.id = id ∧ (err = none → Finished d.order inst₀.status inst.status) := by
  obtain ⟨workflow, opts, es⟩ := c
  cases es with
  | nil => cases h
  | cons e es =>
    change (Prog.upTo (World.exec eng) es _ (w.enter eng e workflow opts).1).2 = _ at h
    generalize hr : (World.exec eng (.enter workflow opts) e w).2 = r at h
    cases r with
    | error err' =>
      cases es <;> cases h
    | ok r =>
      obtain ⟨d, inst₀⟩ := r
      obtain ⟨-, hd, hstart⟩ := World.enter_ok hr
      have hid : inst₀.id = opts.id e := by cases hstart <;> rfl
      have hsat : Prog.Sat (Own d inst₀.ident)
          (fun r => ∀ i, r.1 = some i → i.id = inst₀.id ∧
            (r.2 = none → Finished d.order inst₀.status i.status))
          (runEntered d inst₀ opts) := by
        refine Prog.Sat.bind (execute_sat rfl) fun r hr => ?_
        rintro i ⟨⟩
        exact ⟨congrArg Ident.id hr.1, hr.2⟩
      have hres := (hsat.upTo (I := fun _ => True) (fun _ _ _ _ _ => trivial) trivial es).2 _ h
      obtain ⟨hid', hfin⟩ := hres inst rfl
      exact ⟨d, opts.id e, inst₀, hd, hstart, hid, hid'.trans hid, hfin⟩

/-- In any world: a call that returns without an error has the effect of every step in force if and only
if it is not a resume or resumes a checkpoint without a compensated step. -/
theorem success_in_force_iff (eng : Engine) (w : World) (c : Call) (d : Definition)
    (hd : eng.defs c.workflow = some d) (inst : Instance)
    (hret : (c.upTo eng w).2 = some (some inst, none)) :
    (∀ step ∈ d.steps, (inst.status step.name).inForce = true) ↔
      (c.opts.resume = false ∨
        ∀ cp, w.store.data inst.id = some cp →
          ∀ step ∈ d.steps, (cp.step step.name).status ≠ .compensated) := by
  obtain ⟨d', id, inst₀, hd', hstart, -, hid, hfin⟩ := Call.upTo_returns hret
  obtain rfl : d' = d := Option.some.inj (hd'.symm.trans hd)
  have hnames : ∀ P : String → Prop,
      (∀ step ∈ d'.steps, P step.name) ↔ ∀ name ∈ d'.order, P name := by
    intro P
    simp [Definition.mem_order]
  have hloaded := hstart.compensated_iff d'.order
  simp only [← hnames fun name => inst₀.status name ≠ .compensated,
    ← hnames fun name => (Checkpoint.step _ name).status ≠ .compensated] at hloaded
  rw [hid, ← hloaded]
  refine forall₂_congr fun step hstep => (hfin rfl).inForce_iff ?_
  exact d'.mem_order.mpr (List.mem_map_of_mem hstep)

/-! ## A resumed run over a compensated step -/

/-- Step `b` after step `a`, which has a compensation. -/
def deployEngine : Engine where
  defs _ :=
    ((((define "deploy").step "a" true).compensate "a" true).step "b" true |>.depend "b" ["a"]).build.toOption
  max := 256

/-- The environment of a run in which nothing fails. -/
def calmEnv : List Env := List.replicate 40 {}

/-- A run of instance `x` in which nothing fails. -/
def calmCall : Call where
  workflow := "deploy"
  opts := { instanceID := "x" }
  env := calmEnv

/-- A run of instance `x` in which the action of `b` fails. -/
def failingCall : Call where
  workflow := "deploy"
  opts := { instanceID := "x" }
  env := List.replicate 17 {} ++ { err := some { text := "boom" } } :: calmEnv

/-- Whether a call returns without an error. -/
def Call.succeeds (eng : Engine) (w : World) (c : Call) : Bool :=
  match (c.upTo eng w).2 with
  | some (some _, none) => true
  | _ => false

theorem Call.succeeds_iff :
    c.succeeds eng w = true ↔ ∃ inst, (c.upTo eng w).2 = some (some inst, none) := by
  unfold succeeds
  split
  · rename_i inst heq
    exact iff_of_true rfl ⟨inst, heq⟩
  · rename_i hne
    refine iff_of_false (by simp) ?_
    rintro ⟨inst, heq⟩
    exact hne inst heq

theorem success_in_force_fresh :
    ∃ d inst, deployEngine.defs "deploy" = some d ∧
      (calmCall.upTo deployEngine (worldAt deployEngine { store := .empty } [failingCall] 1)).2 =
        some (some inst, none) ∧
      ∀ step ∈ d.steps, (inst.status step.name).inForce = true := by
  obtain ⟨d, hd⟩ := Option.isSome_iff_exists.mp
    (show (deployEngine.defs "deploy").isSome = true by decide +kernel)
  obtain ⟨inst, hret⟩ := Call.succeeds_iff.mp
    (show calmCall.succeeds deployEngine (worldAt deployEngine { store := .empty } [failingCall] 1) =
      true by decide +kernel)
  exact ⟨d, inst, hd, hret,
    (success_in_force_iff deployEngine _ calmCall d hd inst hret).mpr (.inl rfl)⟩

def resumingCall : Call where
  workflow := "deploy"
  opts := { instanceID := "x", resume := true }
  env := calmEnv

/-- The resumption of the failed run succeeds over a step that is compensated. -/
theorem resume_over_compensated :
    (resumingCall.upTo deployEngine (worldAt deployEngine { store := .empty } [failingCall] 1)).2.map
        (fun r => (r.2, r.1.map fun inst => (inst.state, inst.status "a", inst.status "b"))) =
      some (none, some (.completed, .compensated, .completed)) := by
  decide +kernel

end ShiftLock.Workflow
