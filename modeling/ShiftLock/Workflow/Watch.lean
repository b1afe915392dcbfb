import ShiftLock.Workflow.Spec
import ShiftLock.Conc.Trace

/-!
# What a run persists, and how its actions fail

One monitor for the programs of the engine. It follows, within one run:

* the state that was persisted last: a `Save` is allowed if the state that it persists can follow;
* the failures: the actions that returned an error or an ambiguous result, and the members of a
  batch whose context was done before they got the semaphore.

While a run goes on its state is `running`, that is what was persisted last, and nothing has failed.
Here are the programs up to one step; the batch and the loops are in `Workflow.Ambiguous`.
-/

namespace ShiftLock.Workflow

open Function
open Conc.Prog (Obeys Monitor Sat)

/-! ## The monitor -/

/-- A step that failed, and what its error says. -/
structure Failure where
  step : String
  /-- The result is ambiguous, or the error matches `ErrAmbiguous`. -/
  ambiguous : Bool
  /-- The error is that of a context. -/
  cancelled : Bool
  deriving DecidableEq, Repr

def failure? (step : String) (res : Result) (err : Option ActionError) : Option Failure :=
  if err.isSome || res.ambiguous then
    some
      { step, ambiguous := res.ambiguous || (err.map ActionError.ambiguous).getD false
        cancelled := (err.map ActionError.cancelled).getD false }
  else none

/-- What is known of a run. -/
structure Watch where
  /-- The instance that is saved. -/
  id : String
  /-- The state that was persisted last. -/
  last : Option State := none
  /-- A `Save` has failed. -/
  lost : Bool := false
  /-- The members of the batch that have not got the semaphore yet. -/
  waiting : List String := []
  failures : List Failure := []

namespace Watch

def after (g : Watch) : (a : Act) → Answer a → Watch
  | .save inst, err =>
    if err = none then { g with last := some inst.checkpoint.state } else { g with lost := true }
  | .schedule _, order => { g with waiting := order.1.map Prepared.name }
  | .acquire, some _ =>
    { g with
      waiting := g.waiting.tail
      failures := g.failures ++
        [{ step := g.waiting.headD "", ambiguous := false, cancelled := true }] }
  | .acquire, none => { g with waiting := g.waiting.tail }
  | .action x, (res, err) => { g with failures := g.failures ++ (failure? x.step res err).toList }
  | _, _ => g

def Next (g : Watch) (s : State) : Prop := g.lost = true ∨ ∀ t, g.last = some t → canTransition t s

/-- What is saved is the instance, in a state that can follow. -/
def allows (g : Watch) : Act → Prop
  | .save inst => inst.checkpoint.instanceID = g.id ∧ g.Next inst.checkpoint.state
  | _ => True

def monitor : Monitor Act Answer Watch := { allows, after }

structure Persisted (g : Watch) (inst : Instance) : Prop where
  id : inst.checkpoint.instanceID = g.id
  last : g.lost = true ∨ g.last = some inst.state

variable {g : Watch} {inst : Instance}

theorem Persisted.setStep (h : g.Persisted inst) (name : String) (st : StepState) :
    g.Persisted (inst.setStep name st) := ⟨h.id, h.last⟩

theorem Persisted.complete (h : g.Persisted inst) (name : String) (st : StepState) (epoch : Nat) :
    g.Persisted (inst.complete name st epoch) := ⟨h.id, h.last⟩

theorem Persisted.next (h : g.Persisted inst) {s : State} (hs : canTransition inst.state s = true) :
    g.Next s :=
  h.last.imp_right fun heq t ht => by
    obtain rfl := Option.some.inj (heq.symm.trans ht)
    exact hs

end Watch

/-- From one point of a run to a later one: nothing more has failed, and the instance is persisted. -/
structure Watch.Saved (g g' : Watch) (inst : Instance) : Prop where
  failures : g'.failures = g.failures
  persisted : g'.Persisted inst

theorem Watch.Saved.trans {g g' g'' : Watch} {inst inst' : Instance} (h : g.Saved g' inst)
    (h' : g'.Saved g'' inst') : g.Saved g'' inst' :=
  ⟨h'.failures.trans h.failures, h'.persisted⟩

/-- The program returns an instance that it has saved last, and what it returns meets `Q`. -/
abbrev Saves {α : Type} (g : Watch) (Q : Instance × α → Prop) (p : M (Instance × α)) : Prop :=
  Obeys Watch.monitor (fun g' r => g.Saved g' r.1 ∧ Q r) p g

/-- A program that only asks the environment. -/
theorem obeys_of_asks {α : Type} {g : Watch} {Q : α → Prop} {p : M α} (h : Sat Asks Q p) :
    Obeys Watch.monitor (fun g' x => g' = g ∧ Q x) p g := by
  induction p with
  | ret x => exact ⟨rfl, h⟩
  | act a k ih =>
    obtain ⟨ha, hk⟩ := h
    cases a with
    | clock | ctxErr | blocksMutations | lookup id => exact ⟨trivial, fun r => ih r (hk r)⟩
    | _ => exact ha.elim

variable {g : Watch} {d : Definition} {inst : Instance} {opts : RunOptions}

/-! ## Stopping and compensation -/

theorem persist_obeys (hid : inst.checkpoint.instanceID = g.id) (hnext : g.Next inst.state) :
    Saves g (fun r => r.1.state = inst.state ∧ r.1.status = inst.status) (persist inst) := by
  refine ⟨trivial, fun now => ⟨⟨hid, hnext⟩, fun err => ?_⟩⟩
  cases err with
  | none => exact ⟨⟨rfl, hid, .inr rfl⟩, rfl, rfl⟩
  | some err => exact ⟨⟨rfl, hid, .inl rfl⟩, rfl, rfl⟩

variable {err : Fault} {name : String} {step : StepDef}

theorem halt_obeys {s : State} (h : g.Persisted inst) (hs : canTransition inst.state s = true) :
    Saves g (fun r => r.1.state = s ∧ r.1.status = inst.status ∧ r.2 ≠ none) (halt inst s err) := by
  refine Obeys.bind (persist_obeys (by exact h.id) (by exact h.next hs)) fun g' r hr => ?_
  exact ⟨hr.1, hr.2.1, hr.2.2, nofun⟩

theorem persist_same (h : g.Persisted inst) :
    Saves g (fun r => r.1.state = inst.state ∧ r.1.status = inst.status) (persist inst) :=
  persist_obeys h.id (h.next (by simp [canTransition]))

theorem invokeCompensate_obeys {x : ExecContext} :
    Obeys Watch.monitor (fun g' _ => g' = g) (invokeCompensate inst x) g := by
  unfold invokeCompensate
  split
  · exact ⟨trivial, fun _ => rfl⟩
  · exact ⟨trivial, fun _ => rfl⟩

theorem compensateStep_obeys (h : g.Persisted inst) :
    Saves g (fun r => r.1.state = inst.state) (compensateStep d inst name step opts) := by
  refine Obeys.bind (persist_same ⟨h.id, h.last⟩) fun g₁ r hr => ?_
  obtain ⟨hsaved, hstate, -⟩ := hr
  refine Obeys.bind invokeCompensate_obeys fun g₂ r' hg => ?_
  subst hg
  dsimp only
  split
  · exact ⟨⟨hsaved.failures, hsaved.persisted.id, hsaved.persisted.last⟩, hstate⟩
  · refine Obeys.perform trivial fun now => ?_
    refine Obeys.bind (persist_same ⟨hsaved.persisted.id, hsaved.persisted.last⟩) fun g₃ r₃ hr₃ => ?_
    exact ⟨hsaved.trans hr₃.1, hr₃.2.1.trans hstate⟩

theorem compensateSteps_obeys {names : List String} (h : g.Persisted inst) :
    Saves g (fun r => r.1.state = inst.state) (compensateSteps d opts names inst) := by
  induction names generalizing inst g with
  | nil => exact ⟨⟨rfl, h⟩, rfl⟩
  | cons name names ih =>
    unfold compensateSteps
    split
    · exact ih h
    split
    · exact ih h
    refine (obeys_of_asks (blocked_sat _)).bind fun g₁ b hb => ?_
    obtain ⟨rfl, -⟩ := hb
    cases b with
    | true => exact ⟨⟨rfl, h⟩, rfl⟩
    | false =>
      refine (obeys_of_asks (staleEpoch_sat _ _)).bind fun g₂ err herr => ?_
      obtain ⟨rfl, -⟩ := herr
      cases err with
      | some err => exact ⟨⟨rfl, h⟩, rfl⟩
      | none =>
        refine Obeys.bind (compensateStep_obeys h) fun g₃ r hr => ?_
        obtain ⟨inst', err⟩ := r
        cases err with
        | some err => exact hr
        | none =>
          refine (ih hr.1.persisted).mono fun g₄ r' hr' => ?_
          exact ⟨hr.1.trans hr'.1, hr'.2.trans hr.2⟩

theorem compensateAndFail_obeys (h : g.Persisted inst) (hs : inst.state = .running) :
    Saves g (fun r => (r.1.state = .requiresIntervention ∨ r.1.state = .failed) ∧
        r.2 ≠ none)
      (compensateAndFail d inst opts err) := by
  have hcomp : Saves g (fun r => r.1.state = .compensating) (compensate d inst opts) := by
    refine Obeys.bind (persist_obeys (by exact h.id) (h.next ?_)) fun g₁ r hr => ?_
    · rw [hs]
      rfl
    · refine (compensateSteps_obeys hr.1.persisted).mono fun g₂ r' hr' => ?_
      exact ⟨hr.1.trans hr'.1, hr'.2.trans hr.2.1⟩
  refine hcomp.bind fun g₁ r hr => ?_
  obtain ⟨inst', err'⟩ := r
  obtain ⟨hsaved, hstate⟩ := hr
  cases err' with
  | some err' =>
    refine (halt_obeys hsaved.persisted (by rw [hstate]; rfl)).mono fun g₂ r' hr' => ?_
    exact ⟨hsaved.trans hr'.1, .inl hr'.2.1, hr'.2.2.2⟩
  | none =>
    refine (halt_obeys hsaved.persisted (by rw [hstate]; rfl)).mono fun g₂ r' hr' => ?_
    exact ⟨hsaved.trans hr'.1, .inr hr'.2.1, hr'.2.2.2⟩

/-! ## One step -/

/-- `handleStepFailure` takes the outcome for one that must be reconciled. -/
def Reconciles (step : StepDef) (res : Result) (err : Option ActionError) : Prop :=
  res.ambiguous ∨ step.idempotency = .requiresReconciliation ∨
    (err.map ActionError.ambiguous).getD false

/-- How a failed step ends. -/
abbrev FailsAs (inst : Instance) (step : StepDef) (res : Result) (err : Option ActionError)
    (r : Reply) : Prop :=
  r.2 ≠ none ∧
    (Reconciles step res err → r.1.state = .requiresReconciliation ∧
      r.1.status = update inst.status step.name .reconcile) ∧
    (¬ Reconciles step res err → r.1.state ≠ .requiresReconciliation)

theorem handleStepFailure_obeys {st : StepState} {res : Result} {err : Option ActionError}
    (h : g.Persisted inst) (hs : inst.state = .running) :
    Saves g (FailsAs inst step res err) (handleStepFailure d inst step st res err opts) := by
  refine Obeys.perform trivial fun now => ?_
  have hfail : ∀ (inst' : Instance) (err' : Fault), ¬ Reconciles step res err → g.Persisted inst' →
      inst'.state = .running → Saves g (FailsAs inst step res err) (compensateAndFail d inst' opts err') := by
    intro inst' err' hnot h' hs'
    refine (compensateAndFail_obeys h' hs').mono fun g' r hr => ?_
    refine ⟨hr.1, hr.2.2, fun hrec => absurd hrec hnot, fun _ => ?_⟩
    rcases hr.2.1 with heq | heq <;> rw [heq] <;> decide
  split
  · rename_i hrec
    refine (halt_obeys (h.setStep step.name _) ?_).mono fun g' r hr => ?_
    · change canTransition inst.state _ = true
      rw [hs]
      rfl
    · refine ⟨hr.1, hr.2.2.2, fun _ => ⟨hr.2.1, ?_⟩, fun hnot => absurd hrec hnot⟩
      rw [hr.2.2.1, status_setStep]
  · rename_i hnot
    split
    · exact hfail _ _ hnot ⟨h.id, h.last⟩ hs
    · exact hfail _ _ hnot ⟨h.id, h.last⟩ hs

theorem prepareStepResume_obeys (h : g.Persisted inst) (hs : inst.state = .running) :
    Saves g (fun r => ∀ skip, r.2 = .ok skip → r.1.state = .running)
      (prepareStepResume d inst name opts) := by
  have hrefuse : ∀ p : M Reply, Saves g (fun r => r.2 ≠ none) p →
      Saves g (fun r => ∀ skip, r.2 = .ok skip → r.1.state = .running) (refuse p) := by
    intro p hp
    refine hp.bind fun g' r hr => ?_
    obtain ⟨inst', err⟩ := r
    cases err with
    | none => exact absurd rfl hr.2
    | some err => exact ⟨hr.1, nofun⟩
  have hgo : ∀ (inst' : Instance) (res : Except Fault Bool), g.Persisted inst' →
      inst'.state = .running →
      g.Saved g inst' ∧ ∀ skip, res = .ok skip → inst'.state = .running :=
    fun inst' _ h' hs' => ⟨⟨rfl, h'⟩, fun _ _ => hs'⟩
  have hhalt : ∀ (inst' : Instance) (err : Fault), g.Persisted inst' → inst'.state = .running →
      Saves g (fun r => r.2 ≠ none) (halt inst' .requiresReconciliation err) := by
    intro inst' err h' hs'
    refine (halt_obeys h' (by rw [hs']; rfl)).mono fun g' r hr => ⟨hr.1, hr.2.2.2⟩
  have hfail : ∀ (inst' : Instance) (err : Fault), g.Persisted inst' → inst'.state = .running →
      Saves g (fun r => r.2 ≠ none) (compensateAndFail d inst' opts err) :=
    fun inst' err h' hs' => (compensateAndFail_obeys h' hs').mono fun g' r hr => ⟨hr.1, hr.2.2⟩
  unfold prepareStepResume
  dsimp only
  split
  · exact hgo _ _ h hs
  · exact hgo _ _ h hs
  · exact hgo _ _ h hs
  · split
    · exact hrefuse _ (hfail _ _ h hs)
    · exact hgo _ _ ⟨h.id, h.last⟩ hs
  · split
    · exact hrefuse _ (hhalt _ _ ⟨h.id, h.last⟩ hs)
    · split
      · exact hrefuse _ (hfail _ _ ⟨h.id, h.last⟩ hs)
      · exact hgo _ _ ⟨h.id, h.last⟩ hs
  · exact hrefuse _ (hhalt _ _ h hs)
  · exact hgo _ _ h hs
  · exact hgo _ _ h hs
  · exact hgo _ _ h hs

end ShiftLock.Workflow
