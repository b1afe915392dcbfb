import ShiftLock.Workflow.Engine

/-!
# What the programs of the engine do and return

One result for each program, whatever the environment answers:

* it keeps what identifies the instance (`Ident`), its side effects are those of its definition, and in
  a dry run it performs none (`Own`);
* when it returns without an error, the statuses of the steps have only moved forward
  (`Progress`): a step that was done is as it was, and any other is still not done, or completed.
  Compensation, which moves statuses back, always ends in an error.
-/

namespace ShiftLock.Workflow

open Function
open Conc.Prog (Sat)

/-! ## Identity and statuses -/

/-- What no program changes in an instance. -/
structure Ident where
  id : String
  dryRun : Bool
  instanceID : String

def Instance.ident (inst : Instance) : Ident :=
  ⟨inst.id, inst.dryRun, inst.checkpoint.instanceID⟩

section

variable (inst : Instance) (name : String) (st : StepState)

@[simp] theorem ident_setState (s : State) : (inst.setState s).ident = inst.ident := rfl
@[simp] theorem ident_setStep : (inst.setStep name st).ident = inst.ident := rfl
@[simp] theorem ident_complete (epoch : Nat) : (inst.complete name st epoch).ident = inst.ident := rfl
@[simp] theorem ident_stamp (now : Time) : (inst.stamp now).ident = inst.ident := rfl

@[simp] theorem status_setState (s : State) : (inst.setState s).status = inst.status := rfl
@[simp] theorem status_stamp (now : Time) : (inst.stamp now).status = inst.status := rfl

@[simp] theorem status_setStep :
    (inst.setStep name st).status = update inst.status name st.status := by
  funext m
  by_cases h : m = name
  · subst h
    simp [Instance.status, Instance.setStep, Checkpoint.step]
  · simp [Instance.status, Instance.setStep, Checkpoint.step, h, AList.lookup_insert_ne]

@[simp] theorem status_complete (epoch : Nat) :
    (inst.complete name st epoch).status = update inst.status name st.status :=
  status_setStep inst name st

end

/-- The statuses have moved forward. -/
def Progress (s s' : String → StepStatus) : Prop :=
  ∀ m, ((s m).done = true → s' m = s m) ∧ ((s m).done = false → (s' m).done = false ∨ s' m = .completed)

theorem Progress.refl (s : String → StepStatus) : Progress s s :=
  fun _ => ⟨fun _ => rfl, .inl⟩

variable {s s' : String → StepStatus} {a : Act}

theorem Progress.trans {s'' : String → StepStatus} (h : Progress s s') (h' : Progress s' s'') :
    Progress s s'' := by
  intro m
  refine ⟨fun hm => ?_, fun hm => ?_⟩
  · have heq := (h m).1 hm
    rw [(h' m).1 (by rw [heq, hm]), heq]
  · rcases (h m).2 hm with hm' | hm'
    · exact (h' m).2 hm'
    · exact .inr ((h' m).1 (by rw [hm']; rfl) ▸ hm')

/-- A step that is not done gets another status. -/
theorem Progress.update {name : String} {t : StepStatus} (h : (s name).done = false)
    (ht : t.done = false ∨ t = .completed) : Progress s (update s name t) := by
  intro m
  by_cases hm : m = name
  · subst hm
    simp [h, ht]
  · rw [update_of_ne hm]
    exact refl s m

/-- A step that is done stays so. -/
theorem Progress.done (h : Progress s s') {m : String} (hm : (s m).done = true) :
    (s' m).done = true := by
  rw [(h m).1 hm, hm]

/-! ## Stopping -/

def Act.effect : Act → Bool
  | .action _ | .compensate _ => true
  | _ => false

def Calm (i : Ident) (a : Act) : Prop := i.dryRun = true → a.effect = false

/-- The context of a step of the definition `d`. -/
def ExecContext.Of (d : Definition) (x : ExecContext) : Prop := x.workflow = d.name ∧ x.step ∈ d.order

/-- A side effect is one of the definition `d`, and there is none in a dry run; the critical section
of `Run` is not entered again. -/
def Own (d : Definition) (i : Ident) : Act → Prop
  | .action x | .compensate x => i.dryRun = false ∧ x.Of d
  | .enter _ _ => False
  | _ => True

theorem Own.calm {d : Definition} {i : Ident} (h : Own d i a) : Calm i a := by
  intro hdry
  cases a with
  | action x | compensate x => exact absurd hdry (Bool.eq_false_iff.mp h.1)
  | _ => rfl

/-- The actions that only ask the environment. -/
def Quiet : Act → Prop
  | .clock | .ctxErr | .blocksMutations | .lookup _ | .schedule _ | .acquire => True
  | _ => False

/-- Those of them that do not belong to the goroutines of a batch. -/
def Asks : Act → Prop
  | .clock | .ctxErr | .blocksMutations | .lookup _ => True
  | _ => False

theorem Asks.quiet (h : Asks a) : Quiet a := by
  cases a <;> trivial

variable {i : Ident} {d : Definition} {inst : Instance} {opts : RunOptions}

/-- A program that only asks has no side effect. -/
theorem own_of_asks {α : Type} {Q : α → Prop} {p : M α} (h : Sat Asks Q p) : Sat (Own d i) Q p :=
  h.weaken fun a ha => by
    cases a <;> trivial

theorem persist_sat (h : inst.ident = i) :
    Sat (Own d i) (fun r => r.1.ident = i ∧ r.1.status = inst.status) (persist inst) :=
  ⟨trivial, fun _ => ⟨trivial, fun _ => ⟨h, rfl⟩⟩⟩

theorem halt_sat {s : State} {err : Fault} (h : inst.ident = i) :
    Sat (Own d i) (fun r => r.1.ident = i ∧ r.2 ≠ none) (halt inst s err) :=
  Sat.bind (persist_sat (by exact h)) fun _ hr => ⟨hr.1, nofun⟩

theorem blocked_sat (step : StepDef) : Sat Asks (fun _ => True) (blocked step) := by
  unfold blocked
  split
  · exact ⟨trivial, fun _ => trivial⟩
  · trivial

theorem observeEpoch_sat (step : StepDef) : Sat Asks (fun _ => True) (observeEpoch step) := by
  unfold observeEpoch
  split
  · trivial
  · refine ⟨trivial, fun r => ?_⟩
    cases r <;> trivial

theorem validateCaps_sat (step : StepDef) : Sat Asks (fun _ => True) (validateCaps step) := by
  refine ⟨trivial, fun r => ?_⟩
  cases r <;> trivial

/-! ## Compensation -/

theorem staleEpoch_sat (name : String) (step : StepDef) :
    Sat Asks (fun _ => True) (staleEpoch d inst name step) := by
  unfold staleEpoch
  split
  · trivial
  · refine ⟨trivial, fun r => ?_⟩
    cases r <;> trivial

theorem invokeCompensate_sat {x : ExecContext} (h : inst.ident = i) (hx : x.Of d) :
    Sat (Own d i) (fun _ => True) (invokeCompensate inst x) := by
  subst h
  unfold invokeCompensate
  split
  · exact ⟨trivial, fun _ => trivial⟩
  · rename_i hdry
    exact ⟨⟨Bool.eq_false_iff.mpr hdry, hx⟩, fun _ => trivial⟩

variable {name : String} {step : StepDef}

theorem compensateStep_sat (h : inst.ident = i) (hmem : name ∈ d.order) :
    Sat (Own d i) (fun r => r.1.ident = i) (compensateStep d inst name step opts) := by
  unfold compensateStep
  refine Sat.bind (persist_sat h) fun r hr => ?_
  refine (invokeCompensate_sat hr.1 ⟨rfl, hmem⟩).bind fun r' _ => ?_
  dsimp only
  split
  · exact hr.1
  · exact ⟨trivial, fun _ => (persist_sat (by exact hr.1)).bind fun _ hr' => hr'.1⟩

theorem compensateSteps_sat {names : List String} (h : inst.ident = i) :
    Sat (Own d i) (fun r => r.1.ident = i) (compensateSteps d opts names inst) := by
  induction names generalizing inst with
  | nil => exact h
  | cons name names ih =>
    unfold compensateSteps
    split
    · exact ih h
    · rename_i hstep
      have hmem := Definition.mem_order_of_step? hstep
      split
      · exact ih h
      · refine (own_of_asks (blocked_sat _)).bind fun b _ => ?_
        cases b with
        | true => exact h
        | false =>
          refine (own_of_asks (staleEpoch_sat _ _)).bind fun err _ => ?_
          cases err with
          | some err => exact h
          | none =>
            refine (compensateStep_sat h hmem).bind fun r hr => ?_
            obtain ⟨inst', err⟩ := r
            cases err with
            | some err => exact hr
            | none => exact ih hr

theorem compensateAndFail_sat {err : Fault} (h : inst.ident = i) :
    Sat (Own d i) (fun r => r.1.ident = i ∧ r.2 ≠ none) (compensateAndFail d inst opts err) := by
  have hcomp : Sat (Own d i) (fun r => r.1.ident = i) (compensate d inst opts) :=
    Sat.bind (persist_sat (by exact h)) fun _ hr => compensateSteps_sat hr.1
  refine hcomp.bind fun r hr => ?_
  obtain ⟨inst', err⟩ := r
  cases err with
  | some err | none => exact halt_sat hr

/-! ## One step -/

theorem handleStepFailure_sat {st : StepState} {res : Result} {err : Option ActionError}
    (h : inst.ident = i) :
    Sat (Own d i) (fun r => r.1.ident = i ∧ r.2 ≠ none)
      (handleStepFailure d inst step st res err opts) := by
  refine ⟨trivial, fun now => ?_⟩
  split
  · exact halt_sat h
  · split
    · exact compensateAndFail_sat h
    · exact compensateAndFail_sat h

/-- What `prepareStepResume` has found, and left, when it returns that a step must not run again
(`true`) or may run (`false`). -/
def ResumeSpec (name : String) (s s' : String → StepStatus) : Bool → Prop
  | true => s' = s ∧ (s name).done = true
  | false => (s name).done = false ∧ ∃ t : StepStatus, t.done = false ∧ s' = update s name t

theorem ResumeSpec.progress {s s' : String → StepStatus} {skip : Bool}
    (h : ResumeSpec name s s' skip) : Progress s s' := by
  cases skip with
  | true => exact h.1 ▸ .refl s
  | false =>
    obtain ⟨hname, t, ht, rfl⟩ := h
    exact .update hname (.inl ht)

theorem refuse_sat {p : M Reply} {Q : Instance × Except Fault Bool → Prop}
    (h : Sat (Own d i) (fun r => r.1.ident = i ∧ r.2 ≠ none) p)
    (hQ : ∀ inst err, inst.ident = i → Q (inst, .error err)) : Sat (Own d i) Q (refuse p) := by
  refine h.bind fun r hr => ?_
  obtain ⟨inst, err⟩ := r
  cases err with
  | none => exact absurd rfl hr.2
  | some err => exact hQ inst err hr.1

theorem prepareStepResume_sat (h : inst.ident = i) :
    Sat (Own d i)
      (fun r => r.1.ident = i ∧
        ∀ skip, r.2 = .ok skip → ResumeSpec name inst.status r.1.status skip)
      (prepareStepResume d inst name opts) := by
  have hrefuse : ∀ (inst' : Instance) (err : Fault), inst'.ident = i →
      inst'.ident = i ∧ ∀ skip, Except.error err = .ok skip →
        ResumeSpec name inst.status inst'.status skip := fun _ _ h' => ⟨h', nofun⟩
  have hskip : (inst.status name).done = true → ResumeSpec name inst.status inst.status true :=
    fun hdone => ⟨rfl, hdone⟩
  have hretry : ∀ st : StepState, (inst.status name).done = false → st.status.done = false →
      ResumeSpec name inst.status (inst.setStep name st).status false :=
    fun st hname hst => ⟨hname, st.status, hst, status_setStep inst name st⟩
  have hgo : (inst.status name).done = false → ResumeSpec name inst.status inst.status false :=
    fun hname => ⟨hname, inst.status name, hname, (Function.update_eq_self name _).symm⟩
  -- `dispatch` is the status that the function branches on.
  unfold prepareStepResume
  dsimp only
  split
  all_goals rename_i hst; change inst.status name = _ at hst
  · exact ⟨h, fun skip heq => Except.ok.inj heq ▸ hskip (by rw [hst]; rfl)⟩
  · exact ⟨h, fun skip heq => Except.ok.inj heq ▸ hskip (by rw [hst]; rfl)⟩
  · exact ⟨h, fun skip heq => Except.ok.inj heq ▸ hskip (by rw [hst]; rfl)⟩
  · split
    · exact refuse_sat (compensateAndFail_sat h) hrefuse
    · exact ⟨h, fun skip heq => Except.ok.inj heq ▸ hretry _ (by rw [hst]; rfl) rfl⟩
  · split
    · exact refuse_sat (halt_sat h) hrefuse
    · split
      · exact refuse_sat (compensateAndFail_sat h) hrefuse
      · exact ⟨h, fun skip heq => Except.ok.inj heq ▸ hretry _ (by rw [hst]; rfl) rfl⟩
  · exact refuse_sat (halt_sat h) hrefuse
  all_goals exact ⟨h, fun skip heq => Except.ok.inj heq ▸ hgo (by rw [hst]; rfl)⟩

theorem invoke_sat {now : Time} {x : ExecContext} (h : inst.ident = i) (hx : x.Of d) :
    Sat (Own d i) (fun _ => True) (invoke inst now x) := by
  subst h
  unfold invoke
  split
  · trivial
  · rename_i hdry
    exact ⟨⟨Bool.eq_false_iff.mpr hdry, hx⟩, fun _ => trivial⟩

theorem runStep_sat (h : inst.ident = i) (hmem : step.name ∈ d.order)
    (hname : (inst.status step.name).done = false) :
    Sat (Own d i)
      (fun r => r.1.ident = i ∧
        (r.2 = none → Progress inst.status r.1.status ∧ (r.1.status step.name).done = true))
      (runStep d inst step opts) := by
  refine Sat.perform trivial fun now => ?_
  refine Sat.bind (persist_sat h) fun r hr => ?_
  obtain ⟨inst', err⟩ := r
  obtain ⟨hid, hstatus⟩ := hr
  refine (own_of_asks (observeEpoch_sat step)).bind fun epoch _ => ?_
  refine (invoke_sat hid ⟨rfl, hmem⟩).bind fun r' _ => ?_
  dsimp only
  split
  · exact (handleStepFailure_sat hid).mono fun r hr => ⟨hr.1, fun hnone => absurd hnone hr.2⟩
  · refine ⟨trivial, fun now' => (persist_sat (by exact hid)).mono fun r hr => ⟨hr.1, fun _ => ?_⟩⟩
    rw [hr.2, status_complete, hstatus, status_setStep, Function.update_idem]
    exact ⟨.update hname (.inr rfl), by rw [update_self]; rfl⟩

theorem guardedStep_sat (h : inst.ident = i) (hmem : name ∈ d.order)
    (hname : (inst.status name).done = false) :
    Sat (Own d i)
      (fun r => r.1.ident = i ∧
        (r.2 = none → Progress inst.status r.1.status ∧ (r.1.status name).done = true))
      (guardedStep d inst name opts) := by
  refine (own_of_asks (blocked_sat _)).bind fun b _ => ?_
  cases b with
  | true => exact (halt_sat h).mono fun r hr => ⟨hr.1, fun hnone => absurd hnone hr.2⟩
  | false =>
    have hstep := d.step_name name
    rw [← hstep] at hname hmem
    have hrun : Sat (Own d i) _ (runStep d inst (d.step name) opts) := runStep_sat h hmem hname
    rw [hstep] at hrun
    exact hrun

/-! ## The sequential executor -/

/-- What a run leaves when it returns without an error: every step of the list is done. -/
def Finished (names : List String) (s s' : String → StepStatus) : Prop :=
  Progress s s' ∧ ∀ name ∈ names, (s' name).done = true

theorem executeSequential_sat {names : List String} (h : inst.ident = i)
    (horder : ∀ m ∈ names, m ∈ d.order) :
    Sat (Own d i)
      (fun r => r.1.ident = i ∧ (r.2 = none → Finished names inst.status r.1.status))
      (executeSequential d opts names inst) := by
  induction names generalizing inst with
  | nil =>
    refine (persist_sat (by exact h)).mono fun r hr => ⟨hr.1, fun _ => ⟨?_, nofun⟩⟩
    rw [hr.2]
    exact .refl _
  | cons name names ih =>
    refine Sat.perform trivial fun r => ?_
    cases r with
    | some err => exact (halt_sat h).mono fun r hr => ⟨hr.1, fun hnone => absurd hnone hr.2⟩
    | none =>
      -- The rest of the loop, from an instance in which this step is done.
      have hrest : ∀ inst' : Instance, inst'.ident = i → Progress inst.status inst'.status →
          (inst'.status name).done = true →
          Sat (Own d i)
            (fun r => r.1.ident = i ∧ (r.2 = none → Finished (name :: names) inst.status r.1.status))
            (executeSequential d opts names inst') := by
        intro inst' hid hprog hdone
        refine (ih hid fun m hm => horder m (List.mem_cons_of_mem name hm)).mono
          fun r hr => ⟨hr.1, fun hnone => ?_⟩
        obtain ⟨hprog', hdone'⟩ := hr.2 hnone
        refine ⟨hprog.trans hprog', fun m hm => ?_⟩
        rcases List.mem_cons.mp hm with rfl | hm
        · exact hprog'.done hdone
        · exact hdone' m hm
      refine Sat.bind (prepareStepResume_sat h) fun r hr => ?_
      obtain ⟨inst', res⟩ := r
      obtain ⟨hid, hres⟩ := hr
      cases res with
      | error err => exact ⟨hid, nofun⟩
      | ok skip =>
        cases skip with
        | true =>
          have hspec := hres true rfl
          refine hrest inst' hid hspec.progress ?_
          rw [hspec.1]
          exact hspec.2
        | false =>
          have hspec := hres false rfl
          have hname : (inst'.status name).done = false := by
            obtain ⟨-, t, ht, heq⟩ := hspec
            rw [heq, update_self]
            exact ht
          refine Sat.bind (guardedStep_sat hid (horder name List.mem_cons_self) hname) fun r hr => ?_
          obtain ⟨inst'', err⟩ := r
          cases err with
          | some err => exact ⟨hr.1, nofun⟩
          | none =>
            obtain ⟨hprog, hdone⟩ := hr.2 rfl
            exact hrest inst'' hr.1 (hspec.progress.trans hprog) hdone

end ShiftLock.Workflow
