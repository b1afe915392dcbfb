import ShiftLock.Workflow.Parallel
import ShiftLock.Workflow.History

/-!
# Dry runs

`Run` takes `DryRun` from the options for a fresh instance, and from the stored checkpoint for a
resumed one, whose options it does not read. A run of a dry-run instance has no side effect
(`execute_sat`); a resumed run that was asked to be dry has one as soon as it gets to a step, unless
the checkpoint is a dry run itself.
-/

namespace ShiftLock.Workflow

open Conc

/-- A checkpoint that a call may load. Without an instance ID it is one under a generated ID. -/
def World.Loads (w : World) (opts : RunOptions) (cp : Checkpoint) : Prop :=
  w.closed = false ∧ opts.resume = true ∧
    ∃ id, (opts.instanceID = "" ∨ id = opts.instanceID) ∧ w.store.data id = some cp

variable {eng : Engine} {w : World} {opts : RunOptions} {inst : Instance}

theorem exec_log {i : Ident} (hdry : i.dryRun = true) (a : Act) (e : Env) (w : World)
    (ha : Calm i a) : (World.exec eng a e w).1.log = w.log := by
  have heffect := ha hdry
  cases a with
  | enter workflow opts => exact (World.enter_store eng w e workflow opts).2
  | action x | compensate x => cases heffect
  | _ => rfl

/-- The instance of a dry run is dry, if the checkpoint it may load is. -/
theorem Starts.dryRun {workflow : String} {e : Env} (h : Starts w workflow opts (opts.id e) inst)
    (hclosed : w.closed = false) (hdry : opts.dryRun = true)
    (hcp : ∀ cp, w.Loads opts cp → cp.dryRun = true) : inst.dryRun = true := by
  cases h with
  | fresh hresume => exact hdry
  | loaded cp hresume hdata =>
    refine hcp cp ⟨hclosed, hresume, opts.id e, ?_, hdata⟩
    unfold RunOptions.id
    by_cases hid : opts.instanceID = ""
    · exact .inl hid
    · exact .inr (if_neg hid)

theorem upTo_log_of_dry {c : Call} (hdry : ∀ e inst, c.env.head? = some e → w.closed = false →
      Starts w c.workflow c.opts (c.opts.id e) inst → inst.dryRun = true) :
    (c.upTo eng w).1.log = w.log := by
  refine Call.upTo_keeps (fun _ _ hlog => hlog) fun e d inst he hclosed _ hstart w' es hw' => ?_
  have hinst : inst.ident.dryRun = true := hdry e inst he hclosed hstart
  have hsat : Prog.Sat (Calm inst.ident) (fun _ => True) (runEntered d inst c.opts) :=
    Prog.Sat.bind ((execute_sat rfl).weaken fun _ => Own.calm) fun _ _ => trivial
  refine (hsat.upTo (I := fun w' : World => w'.log = w.log) ?_ hw' es).1
  intro a e w' ha hw'
  rw [exec_log hinst a e w' ha, hw']

/-! ## A call that has an effect -/

/-- There is always another name. -/
theorem exists_fresh_name (names : List String) : ∃ name, name ∉ names := by
  have hbound : ∃ n, ∀ name ∈ names, name.length < n := by
    induction names with
    | nil => exact ⟨0, by simp⟩
    | cons name names ih =>
      obtain ⟨n, hn⟩ := ih
      refine ⟨n + name.length + 1, fun m hm => ?_⟩
      rcases List.mem_cons.mp hm with rfl | hm
      · omega
      · have := hn m hm
        omega
  obtain ⟨n, hn⟩ := hbound
  refine ⟨String.ofList (List.replicate n 'a'), fun hmem => ?_⟩
  have hlt := hn _ hmem
  simp at hlt

/-- A workflow with one step. -/
def oneStep (workflow name : String) : Definition where
  name := workflow
  steps := [{ name }]
  order := [name]
  names_nodup := List.nodup_singleton name
  order_perm := .refl _
  order_sorted := (Graph.Sorted.nil _).snoc (n := name) (by simp [depsOf])

/-- The engine of this workflow. -/
def oneStepEngine (workflow name : String) : Engine where
  defs n := if n = workflow then some (oneStep workflow name) else none
  max := 1

theorem upTo_persist {α : Type} {e₁ e₂ : Env} {es : List Env} {f : Reply → M α}
    (h : e₂.saveErr = none) :
    Prog.upTo (World.exec eng) (e₁ :: e₂ :: es) (persist inst >>= f) w =
      Prog.upTo (World.exec eng) es (f (inst.stamp e₁.now, none))
        (w.save e₂ (inst.stamp e₁.now)).1 := by
  change Prog.upTo (World.exec eng) es (f (inst.stamp e₁.now, e₂.saveErr.map Fault.store)) _ = _
  rw [h]
  rfl

theorem prepareStepResume_unset {d : Definition} {name : String} (h : inst.status name = .unset) :
    prepareStepResume d inst name opts = .ret (inst, .ok false) := by
  have hst : (inst.checkpoint.step name).status = .unset := h
  simp [prepareStepResume, hst]

theorem invoke_wet {now : Time} {x : ExecContext} (h : inst.ident.dryRun = false) :
    invoke inst now x = perform (.action x) :=
  if_neg (Bool.eq_false_iff.mp h)

theorem oneStep_resumed_log (workflow : String) {cp : Checkpoint} {name : String} {e : Env}
    (hclosed : w.closed = false) (hresume : opts.resume = true) (hload : e.loadErr = none)
    (hcp : w.store.data (opts.id e) = some cp) (hdry : cp.dryRun = false)
    (hname : (cp.step name).status = .unset) :
    ∃ x, x.workflow = workflow ∧ ((Call.mk workflow opts (e :: List.replicate 9 {})).upTo
      (oneStepEngine workflow name) w).1.log = w.log ++ [.action x] := by
  have hstep : (oneStep workflow name).step name = { name } := by
    simp [Definition.step, Definition.step?, oneStep]
  have horder : (oneStep workflow name).order = [name] := rfl
  have hworkflow : (oneStep workflow name).name = workflow := rfl
  have hstatus : (loadedInstance (opts.id e) cp).status name = .unset := hname
  have hwet : (loadedInstance (opts.id e) cp).ident.dryRun = false := hdry
  unfold RunOptions.id at hcp hstatus hwet
  simp [Call.upTo, run, runEntered, List.replicate, Prog.upTo, World.exec, World.enter, World.load, hclosed,
    hresume, hload, hcp, oneStepEngine, execute, validateSteps, horder, hstep, upTo_persist,
    ResourceID.isZero, executeSequential, prepareStepResume_unset, hstatus, guardedStep, blocked,
    runStep, observeEpoch, invoke_wet, hwet, World.save, execContext, hworkflow]

/-- A checkpoint knows nothing of a step with another name. -/
theorem Checkpoint.exists_unset (cp : Checkpoint) : ∃ name, (cp.step name).status = .unset := by
  obtain ⟨name, hname⟩ := exists_fresh_name cp.steps.keys
  refine ⟨name, ?_⟩
  rw [Checkpoint.step, AList.lookup_eq_none.mpr hname]
  rfl

/-- In any world, so after any history: a call that is asked to be a dry run has no side effect, for
every definition and whatever the environment does, if and only if every checkpoint that it may load
is a dry run itself. -/
theorem dry_run_effect_free_iff (w : World) (opts : RunOptions) (hdry : opts.dryRun = true) :
    (∀ eng workflow env, ((Call.mk workflow opts env).upTo eng w).1.log = w.log) ↔
      ∀ cp, w.Loads opts cp → cp.dryRun = true := by
  constructor
  · rintro h cp ⟨hclosed, hresume, id, hid, hcp⟩
    by_contra hwet
    obtain ⟨name, hunset⟩ := cp.exists_unset
    have hopts : opts.id { newID := id } = id := by
      unfold RunOptions.id
      split
      · rfl
      · rename_i hne
        exact (hid.resolve_left hne).symm
    obtain ⟨x, -, hx⟩ := oneStep_resumed_log "w" hclosed hresume rfl
      (hopts.symm ▸ hcp) (by simpa using hwet) hunset
    rw [h] at hx
    simp at hx
  · intro h eng workflow env
    exact upTo_log_of_dry fun e inst _ hclosed hstart => hstart.dryRun hclosed hdry h

/-! ## A resumed dry run -/

/-- The engine of a workflow with the step `a`. -/
def stepEngine : Engine where
  defs _ := ((define "w").step "a" true).build.toOption
  max := 256

theorem dry_run_effect_free_fresh :
    ((Call.mk "w" { instanceID := "x", dryRun := true } (List.replicate 20 {})).upTo stepEngine
      { store := .empty }).1.log = [] := by
  refine (dry_run_effect_free_iff { store := .empty } { instanceID := "x", dryRun := true } rfl).mpr ?_
    stepEngine "w" (List.replicate 20 {})
  rintro cp ⟨-, hresume, -⟩
  cases hresume

/-- A run of instance `x` whose context is cancelled before the step. -/
def cancelledCall : Call where
  workflow := "w"
  opts := { instanceID := "x" }
  env := List.replicate 5 {} ++ { ctxErr := some .canceled } :: List.replicate 2 {}

def dryResume : Call where
  workflow := "w"
  opts := { instanceID := "x", dryRun := true, resume := true }
  env := List.replicate 20 {}

/-- A dry run that resumes the cancelled run calls the action of the step. -/
theorem resumed_dry_run_acts :
    dryResume.opts.dryRun = true ∧
      (worldAt stepEngine { store := .empty } [cancelledCall] 1).log = [] ∧
      (dryResume.upTo stepEngine (worldAt stepEngine { store := .empty } [cancelledCall] 1)).1.log =
        [.action { workflow := "w", instanceID := "x", step := "a", attempt := 1, dryRun := false
                   operationID := "", attrs := [], resourceEpoch := 0, resourceID := {} }] := by
  decide +kernel

end ShiftLock.Workflow
