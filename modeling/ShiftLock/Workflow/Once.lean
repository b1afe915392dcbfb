import ShiftLock.Workflow.Parallel
import ShiftLock.Workflow.History

/-!
# Steps that are not retryable

The action of a `NotRetryable` step runs at most once over a run and all resumed runs of an
instance, with a crash at any point, when every `Save` succeeds and no run resumes from a checkpoint
in which the step is `compensating`.

At every point where the process may crash, the action has not been invoked, or it has been invoked
once and the **stored** status shows that the step was tried (`Safe`). While a run goes on, so does
the status in memory, and it is not `compensating` (`Holds settled`): these are the statuses on which
`prepareStepResume` never returns that a step that is not retryable may run. Compensation passes
through `compensating` (`Holds tried`), and after it the run only returns its error. A crash within
compensation leaves `compensating` in the store, which `prepareStepResume` takes for a step that has
not run.
-/

namespace ShiftLock.Workflow

open Conc Function
open Conc.Prog (Sat wpc)

/-! ## What is counted -/

/-- The action of step `n` of instance `id` was invoked. -/
def Effect.isTry (id n : String) : Effect → Bool
  | .action x => x.instanceID = id ∧ x.step = n
  | .compensate _ => false

/-- How often it was invoked. -/
def World.tries (w : World) (id n : String) : Nat := w.log.countP (·.isTry id n)

/-- The status of step `n` in the stored checkpoint of instance `id`. -/
def World.savedStatus (w : World) (id n : String) : StepStatus :=
  ((w.store.data id).map fun cp => (cp.step n).status).getD .unset

def StepStatus.tried (s : StepStatus) : Bool := s ≠ .unset ∧ s ≠ .pending

/-- Those on which a step that is not retryable never runs again. -/
def StepStatus.settled (s : StepStatus) : Bool := s.tried ∧ s ≠ .compensating

theorem StepStatus.tried_of_settled {s : StepStatus} (h : s.settled = true) : s.tried = true := by
  cases s <;> simp_all [settled, tried]

/-- All saves succeed. -/
def SaveOk (e : Env) : Prop := e.saveErr = none

section

variable (id n : String)

/-- What holds wherever a process may crash. -/
def Safe (w : World) : Prop :=
  w.tries id n = 0 ∨ (w.tries id n = 1 ∧ (w.savedStatus id n).tried = true)

/-- The action was not invoked, or the status in memory shows it. -/
def Holds (T : StepStatus → Bool) (i : Ident) (inst : Instance) (w : World) : Prop :=
  inst.ident = i ∧ (w.tries id n = 0 ∨ T (inst.status n) = true)

end

variable {eng : Engine} {id n : String} {dry : Bool} {d : Definition} {inst : Instance}
  {opts : RunOptions} {w : World}

variable {i : Ident} {T : StepStatus → Bool} {e : Env}

theorem Holds.tried (h : Holds id n StepStatus.settled i inst w) :
    Holds id n StepStatus.tried i inst w :=
  ⟨h.1, h.2.imp_right StepStatus.tried_of_settled⟩

variable {name : String} {st : StepState} {α : Type} {x : ExecContext}

theorem Holds.setStep (h : Holds id n T i inst w) (hst : name = n → T st.status = true) :
    Holds id n T i (inst.setStep name st) w := by
  refine ⟨h.1, h.2.imp_right fun hn => ?_⟩
  rw [status_setStep]
  by_cases heq : n = name
  · rw [heq, update_self]
    exact hst heq.symm
  · rwa [update_of_ne heq]

theorem Holds.complete (h : Holds id n T i inst w) (hst : name = n → T st.status = true)
    {epoch : Nat} : Holds id n T i (inst.complete name st epoch) w :=
  ⟨h.1, (h.setStep hst).2⟩

/-- The statuses have changed to ones that show that the step was tried. -/
theorem Holds.of_status {inst' : Instance} (h : Holds id n T i inst w) (hid : inst'.ident = i)
    {t : StepStatus} (ht : T t = true)
    (hstatus : ∀ m, inst'.status m = inst.status m ∨ inst'.status m = t) :
    Holds id n T i inst' w := by
  refine ⟨hid, h.2.imp_right fun hn => ?_⟩
  rcases hstatus n with heq | heq
  · rwa [heq]
  · rwa [heq]

/-! ## The actions -/

theorem exec_quiet (a : Act) (e : Env) (w : World) (ha : Quiet a) :
    (World.exec eng a e w).1 = w := by
  cases a with
  | enter workflow opts | save inst | action x | compensate x => cases ha
  | _ => rfl

/-- A program that only asks changes nothing. -/
theorem asks_wpc {Q : α → Prop} {p : M α} (h : Sat Asks Q p) (hw : Safe id n w) :
    wpc (World.exec eng) SaveOk (Safe id n) (fun w' x => w = w' ∧ Q x) p w :=
  (h.weaken fun _ => Asks.quiet).wpc exec_quiet hw

/-- A quiet action, whatever its answer. -/
theorem quiet_perform {Q : World → α → Prop} {a : Act} (ha : Quiet a) {f : Answer a → M α}
    (hw : Safe id n w) (hf : ∀ r, wpc (World.exec eng) SaveOk (Safe id n) Q (f r) w) :
    wpc (World.exec eng) SaveOk (Safe id n) Q (perform a >>= f) w := by
  refine wpc.perform hw fun e _ => ?_
  rw [exec_quiet a e w ha]
  exact hf _

theorem savedStatus_save (he : SaveOk e) (hid : inst.checkpoint.instanceID = id) :
    (w.save e inst).1.savedStatus id n = inst.status n := by
  have hok : e.saveErr = none ∨ e.stored = true := .inl he
  simp [World.savedStatus, World.save, hok, Store.put, ← hid, Instance.status, Checkpoint.step]

theorem tries_action :
    (World.exec eng (.action x) e w).1.tries id n =
      w.tries id n + if x.instanceID = id ∧ x.step = n then 1 else 0 := by
  simp [World.exec, World.tries, List.countP_append, List.countP_singleton, Effect.isTry]

theorem tries_compensate : (World.exec eng (.compensate x) e w).1.tries id n = w.tries id n := by
  simp [World.exec, World.tries, List.countP_append, Effect.isTry]

variable (eng id n) in
/-- The precondition of a program that may crash, with the invariant of this module. -/
abbrev Crash {α : Type} (Q : World → α → Prop) (p : M α) (w : World) : Prop :=
  wpc (World.exec eng) SaveOk (Safe id n) Q p w

section

variable (id n : String) (dry : Bool) (inst : Instance) (w : World)

/-- The run may go on. -/
abbrev Going : Prop := Holds id n StepStatus.settled ⟨id, dry, id⟩ inst w

/-- The run may end, with an error or after its last step. -/
abbrev Ending : Prop := Holds id n StepStatus.tried ⟨id, dry, id⟩ inst w

end

theorem persist_wpc {T : StepStatus → Bool} (hT : ∀ s, T s = true → s.tried = true)
    (h : Holds id n T ⟨id, dry, id⟩ inst w) (hw : Safe id n w) :
    Crash eng id n
      (fun w' r => Holds id n T ⟨id, dry, id⟩ r.1 w' ∧ r.1.status = inst.status ∧
        w'.tries id n = w.tries id n ∧ w'.savedStatus id n = inst.status n)
      (persist inst) w := by
  refine wpc.perform hw fun e₁ _ => wpc.perform hw fun e₂ he => ?_
  have hkey : inst.checkpoint.instanceID = id := congrArg Ident.instanceID h.1
  have hsaved : (w.save e₂ (inst.stamp e₁.now)).1.savedStatus id n = inst.status n :=
    savedStatus_save he hkey
  refine ⟨?_, ⟨h.1, h.2⟩, rfl, rfl, hsaved⟩
  rcases hw with hw | ⟨hw, -⟩
  · exact .inl hw
  · rcases h.2 with h₀ | hn
    · exact .inl h₀
    · refine .inr ⟨hw, ?_⟩
      change (World.savedStatus (w.save e₂ (inst.stamp e₁.now)).1 id n).tried = true
      rw [hsaved]
      exact hT _ hn

variable {name : String} {step : StepDef}

section

variable (h : Ending id n dry inst w) (hw : Safe id n w)
include h hw

theorem halt_wpc {s : State} {err : Fault} : Crash eng id n (fun _ r => r.2 ≠ none) (halt inst s err) w :=
  wpc.bind (persist_wpc (fun _ hs => hs) ⟨h.1, h.2⟩ hw) fun _ _ hw' _ => ⟨hw', nofun⟩

/-! ## Compensation -/

omit h in
theorem invokeCompensate_wpc {x : ExecContext} :
    Crash eng id n (fun w' _ => w'.tries id n = w.tries id n) (invokeCompensate inst x) w := by
  unfold invokeCompensate
  split
  · exact wpc.perform hw fun _ _ => ⟨hw, rfl⟩
  · refine ⟨hw, fun e _ => ⟨?_, tries_compensate⟩⟩
    unfold Safe
    rw [tries_compensate]
    exact hw

theorem compensateStep_wpc :
    Crash eng id n (fun w' r => Ending id n dry r.1 w')
      (compensateStep d inst name step opts) w := by
  unfold compensateStep
  refine wpc.bind (persist_wpc (fun _ hs => hs) (h.setStep fun _ => rfl) hw) fun w₁ r hw₁ hr => ?_
  refine wpc.bind (invokeCompensate_wpc hw₁) fun w₂ r' hw₂ htries => ?_
  have h₂ : Ending id n dry r.1 w₂ := by
    refine ⟨hr.1.1, ?_⟩
    rw [htries]
    exact hr.1.2
  dsimp only
  split
  · exact ⟨hw₂, h₂.setStep fun _ => rfl⟩
  · refine wpc.perform hw₂ fun e _ => ?_
    refine wpc.bind (persist_wpc (fun _ hs => hs) (h₂.setStep fun _ => rfl) hw₂) fun w₃ r₃ hw₃ hr₃ => ?_
    exact ⟨hw₃, hr₃.1⟩

theorem compensateSteps_wpc {names : List String} :
    Crash eng id n (fun w' r => Ending id n dry r.1 w')
      (compensateSteps d opts names inst) w := by
  induction names generalizing inst w with
  | nil => exact ⟨hw, h⟩
  | cons name names ih =>
    unfold compensateSteps
    split
    · exact ih h hw
    · split
      · exact ih h hw
      · refine wpc.bind (asks_wpc (blocked_sat _) hw) fun _ b _ hb => ?_
        obtain ⟨rfl, -⟩ := hb
        cases b with
        | true => exact ⟨hw, h⟩
        | false =>
          refine wpc.bind (asks_wpc (staleEpoch_sat _ _) hw) fun _ err _ herr => ?_
          obtain ⟨rfl, -⟩ := herr
          cases err with
          | some err => exact ⟨hw, h⟩
          | none =>
            refine wpc.bind (compensateStep_wpc h hw) fun w₁ r hw₁ hr => ?_
            obtain ⟨inst', err⟩ := r
            cases err with
            | some err => exact ⟨hw₁, hr⟩
            | none => exact ih hr hw₁

theorem compensateAndFail_wpc {err : Fault} :
    Crash eng id n (fun _ r => r.2 ≠ none) (compensateAndFail d inst opts err) w := by
  have hcomp : Crash eng id n (fun w' r => Ending id n dry r.1 w')
      (compensate d inst opts) w :=
    wpc.bind (persist_wpc (fun _ hs => hs) ⟨h.1, h.2⟩ hw) fun _ _ hw' hr => compensateSteps_wpc hr.1 hw'
  refine wpc.bind hcomp fun w₁ r hw₁ hr => ?_
  obtain ⟨inst', err⟩ := r
  cases err with
  | some err | none => exact halt_wpc hr hw₁

theorem handleStepFailure_wpc {st : StepState} {res : Result} {err : Option ActionError} :
    Crash eng id n (fun _ r => r.2 ≠ none) (handleStepFailure d inst step st res err opts) w := by
  refine wpc.perform hw fun e _ => ?_
  split
  · exact halt_wpc (h.setStep fun _ => rfl) hw
  · split
    · exact compensateAndFail_wpc (h.setStep fun _ => rfl) hw
    · exact compensateAndFail_wpc (h.setStep fun _ => rfl) hw

/-! ## One step -/

end

theorem refuse_wpc {p : M Reply} {Q : World → Instance × Except Fault Bool → Prop}
    (h : Crash eng id n (fun _ r => r.2 ≠ none) p w)
    (hQ : ∀ w' inst err, Q w' (inst, .error err)) : Crash eng id n Q (refuse p) w := by
  refine wpc.bind h fun w₁ r hw₁ hr => ?_
  obtain ⟨inst, err⟩ := r
  cases err with
  | none => exact absurd rfl hr
  | some err => exact ⟨hw₁, hQ w₁ inst err⟩

/-- A step that may run has not been invoked, if it is the one that is not retryable. -/
theorem prepareStepResume_wpc (hmode : (d.step n).idempotency = .notRetryable)
    (h : Going id n dry inst w) (hw : Safe id n w) :
    Crash eng id n
      (fun w' r => ∀ skip, r.2 = .ok skip →
        Going id n dry r.1 w' ∧ w'.tries id n = w.tries id n ∧
          (skip = false → name = n → w.tries id n = 0))
      (prepareStepResume d inst name opts) w := by
  have hrefuse : ∀ (w' : World) (inst' : Instance) (err : Fault), ∀ skip,
      (Except.error err : Except Fault Bool) = .ok skip →
        Going id n dry inst' w' ∧ w'.tries id n = w.tries id n ∧
          (skip = false → name = n → w.tries id n = 0) := by
    intro _ _ _ _ heq
    cases heq
  have hopen : (inst.status name).settled = false → name = n → w.tries id n = 0 := by
    rintro hst rfl
    refine h.2.resolve_right fun hset => ?_
    rw [hst] at hset
    cases hset
  have hskip : Going id n dry inst w ∧ w.tries id n = w.tries id n ∧
      (true = false → name = n → w.tries id n = 0) := ⟨h, rfl, fun heq => by cases heq⟩
  -- Another step goes back to pending.
  have hretry : ∀ st : StepState, (d.step name).idempotency ≠ .notRetryable →
      Going id n dry (inst.setStep name st) w ∧
        w.tries id n = w.tries id n ∧ (false = false → name = n → w.tries id n = 0) := by
    intro st hne
    have hname : name ≠ n := fun heq => hne (heq ▸ hmode)
    exact ⟨h.setStep fun heq => absurd heq hname, rfl, fun _ heq => absurd heq hname⟩
  unfold prepareStepResume
  dsimp only
  split
  all_goals rename_i hst; change inst.status name = _ at hst
  · exact ⟨hw, fun skip heq => Except.ok.inj heq ▸ hskip⟩
  · exact ⟨hw, fun skip heq => Except.ok.inj heq ▸ hskip⟩
  · exact ⟨hw, fun skip heq => Except.ok.inj heq ▸ hskip⟩
  · split
    · exact refuse_wpc (compensateAndFail_wpc h.tried hw) hrefuse
    · rename_i hne
      exact ⟨hw, fun skip heq => Except.ok.inj heq ▸ hretry _ (fun h => hne (.inl h))⟩
  · split
    · exact refuse_wpc (halt_wpc (h.tried.setStep fun _ => rfl) hw) hrefuse
    · rename_i hne
      split
      · exact refuse_wpc (compensateAndFail_wpc (h.tried.setStep fun _ => rfl) hw) hrefuse
      · exact ⟨hw, fun skip heq => Except.ok.inj heq ▸ hretry _ (fun h => hne (.inl h))⟩
  · exact refuse_wpc (halt_wpc h.tried hw) hrefuse
  all_goals
    exact ⟨hw, fun skip heq => Except.ok.inj heq ▸ ⟨h, rfl, fun _ => hopen (by rw [hst]; rfl)⟩⟩

/-- An action may be invoked when it has not been, and the store says that it is running. -/
theorem invoke_wpc {now : Time} {x : ExecContext}
    (hx : x.step = n → w.tries id n = 0 ∧ (w.savedStatus id n).tried = true) (hw : Safe id n w) :
    Crash eng id n
      (fun w' _ => w'.savedStatus id n = w.savedStatus id n ∧
        (x.step ≠ n → w'.tries id n = w.tries id n))
      (invoke inst now x) w := by
  unfold invoke
  split
  · exact ⟨hw, rfl, fun _ => rfl⟩
  · refine ⟨hw, fun e _ => ⟨?_, rfl, fun hne => ?_⟩⟩
    · unfold Safe
      rw [tries_action]
      split
      · rename_i hmatch
        obtain ⟨hzero, htried⟩ := hx hmatch.2
        exact .inr ⟨by rw [hzero], htried⟩
      · exact hw
    · rw [tries_action, if_neg fun hmatch => hne hmatch.2]
      rfl

theorem runStep_wpc (h : Going id n dry inst w)
    (hopen : step.name = n → w.tries id n = 0) (hw : Safe id n w) :
    Crash eng id n
      (fun w' r => r.2 = none → Going id n dry r.1 w')
      (runStep d inst step opts) w := by
  refine wpc.perform hw fun e _ => ?_
  refine wpc.bind (persist_wpc (fun _ => StepStatus.tried_of_settled) (h.setStep fun _ => rfl) hw)
    fun w₁ r hw₁ hr => ?_
  obtain ⟨inst', err⟩ := r
  obtain ⟨h₁, hstatus, htries, hsaved⟩ := hr
  refine wpc.bind (asks_wpc (observeEpoch_sat step) hw₁) fun _ epoch _ hepoch => ?_
  obtain ⟨rfl, -⟩ := hepoch
  rw [status_setStep] at hstatus hsaved
  have hrunning : step.name = n → inst'.status n = .running := by
    rintro rfl
    rw [hstatus, update_self]
    rfl
  refine wpc.bind (invoke_wpc (fun heq => ?_) hw₁) fun w₂ r₂ hw₂ hr₂ => ?_
  · refine ⟨htries.trans (hopen heq), ?_⟩
    rw [hsaved, ← hstatus, hrunning heq]
    rfl
  have h₂ : Going id n dry inst' w₂ := by
    refine ⟨h₁.1, ?_⟩
    by_cases heq : step.name = n
    · right
      rw [hrunning heq]
      rfl
    · rw [hr₂.2 heq]
      exact h₁.2
  dsimp only
  split
  · exact (handleStepFailure_wpc h₂.tried hw₂).mono fun _ _ _ hne hnone => absurd hnone hne
  · refine wpc.perform hw₂ fun e' _ => ?_
    exact (persist_wpc (fun _ => StepStatus.tried_of_settled) (h₂.complete fun _ => rfl) hw₂).mono
      fun _ _ _ hr _ => hr.1

theorem guardedStep_wpc (h : Going id n dry inst w)
    (hopen : name = n → w.tries id n = 0) (hw : Safe id n w) :
    Crash eng id n
      (fun w' r => r.2 = none → Going id n dry r.1 w')
      (guardedStep d inst name opts) w := by
  refine wpc.bind (asks_wpc (blocked_sat _) hw) fun _ b _ hb => ?_
  obtain ⟨rfl, -⟩ := hb
  cases b with
  | true => exact (halt_wpc h.tried hw).mono fun _ _ _ hne hnone => absurd hnone hne
  | false => exact runStep_wpc h (fun heq => hopen (d.step_name name ▸ heq)) hw

section

variable (hmode : (d.step n).idempotency = .notRetryable)
include hmode

theorem executeSequential_wpc {names : List String}
    (h : Going id n dry inst w) (hw : Safe id n w) :
    Crash eng id n (fun _ _ => True) (executeSequential d opts names inst) w := by
  induction names generalizing inst w with
  | nil =>
    have hdone : Ending id n dry (inst.setState .completed) w := h.tried
    exact (persist_wpc (fun _ hs => hs) hdone hw).mono fun _ _ _ _ => trivial
  | cons name names ih =>
    refine quiet_perform (by trivial) hw fun r => ?_
    cases r with
    | some err => exact (halt_wpc h.tried hw).mono fun _ _ _ _ => trivial
    | none =>
      refine wpc.bind (prepareStepResume_wpc hmode h hw) fun w₁ r hw₁ hr => ?_
      obtain ⟨inst', res⟩ := r
      cases res with
      | error err => exact ⟨hw₁, trivial⟩
      | ok skip =>
        cases skip with
        | true => exact ih (hr true rfl).1 hw₁
        | false =>
          obtain ⟨h₁, htries, hopen⟩ := hr false rfl
          refine wpc.bind (guardedStep_wpc h₁ (fun heq => htries.trans (hopen rfl heq)) hw₁)
            fun w₂ r₂ hw₂ hr₂ => ?_
          obtain ⟨inst₂, err⟩ := r₂
          cases err with
          | some err => exact ⟨hw₂, trivial⟩
          | none => exact ih (hr₂ rfl) hw₂

/-- A ready step has not been invoked, if it is the one that is not retryable. -/
theorem scanReady_wpc {names : List String} {scan : Scan}
    (h : Going id n dry scan.inst w)
    (hready : n ∈ scan.ready → w.tries id n = 0) (hw : Safe id n w) :
    Crash eng id n
      (fun w' r => r.2 = none → Going id n dry r.1.inst w' ∧
        (n ∈ r.1.ready → w'.tries id n = 0))
      (scanReady d opts names scan) w := by
  induction names generalizing scan w with
  | nil => exact ⟨hw, fun _ => ⟨h, hready⟩⟩
  | cons name names ih =>
    unfold scanReady
    split
    · exact ih h hready hw
    · refine wpc.bind (prepareStepResume_wpc hmode h hw) fun w₁ r hw₁ hr => ?_
      obtain ⟨inst', res⟩ := r
      cases res with
      | error err => exact ⟨hw₁, fun hnone => by cases hnone⟩
      | ok skip =>
        cases skip with
        | true =>
          obtain ⟨h₁, htries, -⟩ := hr true rfl
          exact ih h₁ (fun hmem => htries.trans (hready hmem)) hw₁
        | false =>
          obtain ⟨h₁, htries, hopen⟩ := hr false rfl
          refine ih h₁ (fun hmem => ?_) hw₁
          rcases List.mem_append.mp hmem with hmem | hmem
          · exact htries.trans (hready hmem)
          · exact htries.trans (hopen rfl (List.mem_singleton.mp hmem).symm)

end

/-! ## Batches -/

theorem goroutine_wpc {now : Time} {p : Prepared} (hp : p.Named)
    (hopen : p.name = n → w.tries id n = 0 ∧ (w.savedStatus id n).tried = true)
    (hw : Safe id n w) :
    Crash eng id n
      (fun w' _ => w'.savedStatus id n = w.savedStatus id n ∧
        (p.name ≠ n → w'.tries id n = w.tries id n))
      (goroutine inst now p) w := by
  refine quiet_perform (by trivial) hw fun r => ?_
  cases r with
  | some err => exact ⟨hw, rfl, fun _ => rfl⟩
  | none =>
    refine wpc.bind (invoke_wpc (fun heq => hopen (hp.1 ▸ heq)) hw) fun w₁ r hw₁ hr => ?_
    exact ⟨hw₁, hr.1, fun hne => hr.2 (hp.1 ▸ hne)⟩

/-- The goroutines of members with distinct names. -/
theorem launch_wpc {now : Time} {ps : List Prepared} (hps : ∀ p ∈ ps, p.Named)
    (hnodup : (ps.map Prepared.name).Nodup)
    (hopen : n ∈ ps.map Prepared.name → w.tries id n = 0 ∧ (w.savedStatus id n).tried = true)
    (hw : Safe id n w) :
    Crash eng id n
      (fun w' _ => n ∉ ps.map Prepared.name → w'.tries id n = w.tries id n)
      (launch inst now ps) w := by
  induction ps generalizing w with
  | nil => exact ⟨hw, fun _ => rfl⟩
  | cons p ps ih =>
    rw [List.map_cons] at hnodup hopen
    obtain ⟨hp, hnodup⟩ := List.nodup_cons.mp hnodup
    have hhead : p.name = n → w.tries id n = 0 ∧ (w.savedStatus id n).tried = true :=
      fun heq => hopen (heq ▸ List.mem_cons_self)
    refine wpc.bind (goroutine_wpc (hps p List.mem_cons_self) hhead hw) fun w₁ o hw₁ ho => ?_
    have htail : n ∈ ps.map Prepared.name →
        w₁.tries id n = 0 ∧ (w₁.savedStatus id n).tried = true := by
      intro hmem
      have hne : p.name ≠ n := fun heq => hp (heq ▸ hmem)
      rw [ho.1, ho.2 hne]
      exact hopen (List.mem_cons_of_mem _ hmem)
    refine wpc.bind (ih (fun q hq => hps q (List.mem_cons_of_mem _ hq)) hnodup htail hw₁)
      fun w₂ os hw₂ hos => ⟨hw₂, fun hnot => ?_⟩
    rw [List.map_cons, List.mem_cons, not_or] at hnot
    rw [hos hnot.2, ho.2 (Ne.symm hnot.1)]

theorem failBatch_wpc {fail : Outcome} {os : List Outcome}
    (h : Going id n dry inst w) (hw : Safe id n w) :
    Crash eng id n (fun _ r => r.2 ≠ none) (failBatch d inst fail os opts) w := by
  refine wpc.bind (asks_wpc (failSiblings_sat h.1) hw) fun _ inst' _ hinst => ?_
  obtain ⟨rfl, hid, hstatus⟩ := hinst
  have h₁ : Going id n dry inst' w := h.of_status hid rfl hstatus
  refine wpc.bind (persist_wpc (fun _ => StepStatus.tried_of_settled) h₁ hw) fun w₂ r hw₂ hr => ?_
  dsimp only
  split
  · split
    · exact halt_wpc hr.1.tried hw₂
    · exact handleStepFailure_wpc hr.1.tried hw₂
  · exact handleStepFailure_wpc hr.1.tried hw₂

theorem runParallelBatch_wpc {names : List String} (hnodup : names.Nodup)
    (h : Going id n dry inst w)
    (hopen : n ∈ names → w.tries id n = 0) (hw : Safe id n w) :
    Crash eng id n
      (fun w' r => r.2 = none → Going id n dry r.1 w')
      (runParallelBatch d inst names opts) w := by
  refine wpc.bind (asks_wpc blockedMember_sat hw) fun _ b _ hb => ?_
  obtain ⟨rfl, -⟩ := hb
  cases b with
  | some name => exact (halt_wpc h.tried hw).mono fun _ _ _ hne hnone => absurd hnone hne
  | none =>
    refine wpc.perform hw fun e _ => ?_
    refine wpc.bind (asks_wpc (prepareBatch_sat h.1) hw) fun _ r _ hr => ?_
    obtain ⟨inst₁, preps⟩ := r
    obtain ⟨rfl, hid, hstatus, hnames, hnamed⟩ := hr
    have hrunning : n ∈ names → inst₁.status n = .running := by
      intro hmem
      rw [hstatus]
      exact if_pos hmem
    have hassign : ∀ m, inst₁.status m = inst.status m ∨ inst₁.status m = .running := by
      intro m
      have hm := congrFun hstatus m
      unfold assign at hm
      split at hm
      · exact .inr hm
      · exact .inl hm
    have h₁ : Going id n dry inst₁ w := h.of_status hid rfl hassign
    refine wpc.bind (persist_wpc (fun _ => StepStatus.tried_of_settled) h₁ hw) fun w₂ r₂ hw₂ hr₂ => ?_
    obtain ⟨inst₂, err⟩ := r₂
    obtain ⟨h₂, hsame, htries, hsaved⟩ := hr₂
    cases err with
    | some err => exact ⟨hw₂, fun hnone => by cases hnone⟩
    | none =>
      refine wpc.perform hw₂ fun e₂ _ => ?_
      generalize (World.exec eng (.schedule preps) e₂ w₂).2 = order
      have horder : (order.1.map Prepared.name).Perm names := hnames ▸ order.2.map _
      have hlaunch : n ∈ order.1.map Prepared.name →
          w₂.tries id n = 0 ∧ (w₂.savedStatus id n).tried = true := by
        intro hmem
        have hn := horder.mem_iff.mp hmem
        refine ⟨htries.trans (hopen hn), ?_⟩
        rw [hsaved, hrunning hn]
        rfl
      refine wpc.bind (launch_wpc (fun p hp => hnamed p (order.2.mem_iff.mp hp))
        (horder.nodup_iff.mpr hnodup) hlaunch hw₂) fun w₃ os hw₃ hos => ?_
      have h₃ : Going id n dry inst₂ w₃ := by
        refine ⟨h₂.1, ?_⟩
        by_cases hn : n ∈ names
        · right
          rw [show inst₂.status = inst₁.status from hsame, hrunning hn]
          rfl
        · rw [hos fun hmem => hn (horder.mem_iff.mp hmem)]
          exact h₂.2
      refine wpc.bind (asks_wpc (applyOutcomes_sat h₃.1) hw₃) fun _ ra _ hra => ?_
      obtain ⟨rfl, hid₃, hstatus₃, -⟩ := hra
      have h₄ : Going id n dry ra.1 w₃ := h₃.of_status hid₃ rfl hstatus₃
      refine wpc.bind (persist_wpc (fun _ => StepStatus.tried_of_settled) h₄ hw₃)
        fun w₅ rp hw₅ hrp => ?_
      dsimp only
      split
      · exact ⟨hw₅, fun _ => hrp.1⟩
      · exact (failBatch_wpc hrp.1 hw₅).mono fun _ _ _ hne hnone => absurd hnone hne

/-! ## The parallel executor -/

theorem runReady_wpc {ready : List String} (hnodup : ready.Nodup) (hne : ready ≠ [])
    (h : Going id n dry inst w)
    (hopen : n ∈ ready → w.tries id n = 0) (hw : Safe id n w) :
    Crash eng id n
      (fun w' r => r.1.2 = none → Going id n dry r.1.1 w')
      (runReady d inst ready opts) w := by
  unfold runReady
  dsimp only
  split
  · have hbatch : n ∈ ready.filter (fun name => (d.step name).parallelGroup = firstGroup d ready) →
        w.tries id n = 0 := fun hmem => hopen (List.mem_filter.mp hmem).1
    exact wpc.bind (runParallelBatch_wpc (hnodup.filter _) h hbatch hw) fun _ _ hw₁ hr => ⟨hw₁, hr⟩
  · obtain ⟨name, names, rfl⟩ := List.exists_cons_of_ne_nil hne
    have hhead : name = n → w.tries id n = 0 := fun heq => hopen (heq ▸ List.mem_cons_self)
    exact wpc.bind (guardedStep_wpc h hhead hw) fun _ _ hw₁ hr => ⟨hw₁, hr⟩

theorem noneReady_wpc {done : List String} (h : Ending id n dry inst w)
    (hw : Safe id n w) : Crash eng id n (fun _ _ => True) (noneReady d inst done) w := by
  unfold noneReady
  dsimp only
  split
  · split
    · exact (halt_wpc h hw).mono fun _ _ _ _ => trivial
    · exact (halt_wpc h hw).mono fun _ _ _ _ => trivial
  · exact ⟨hw, trivial⟩

section

variable (hmode : (d.step n).idempotency = .notRetryable)
include hmode

theorem parallelLoop_wpc {fuel : Nat} {done : List String} (hdone : DoneInv d inst done)
    (h : Going id n dry inst w) (hw : Safe id n w) :
    Crash eng id n (fun _ _ => True) (parallelLoop d opts fuel inst done) w := by
  induction fuel generalizing inst done w with
  | zero => exact ⟨hw, trivial⟩
  | succ fuel ih =>
    unfold parallelLoop
    split
    · refine quiet_perform (by trivial) hw fun r => ?_
      cases r with
      | some err => exact (halt_wpc h.tried hw).mono fun _ _ _ _ => trivial
      | none =>
        -- The scan's own specification gives that the ready steps are distinct.
        have hscan : Crash eng id n _ (scanReady d opts d.order { inst, done }) w :=
          wpc.and (scanReady_wpc hmode h (by simp) hw)
            (scanReady_sat (.start h.1 (.refl _) hdone) d.order_nodup (fun m hm => hm) (by simp))
        refine wpc.bind hscan fun w₁ r hw₁ hr => ?_
        obtain ⟨scan, err⟩ := r
        cases err with
        | some err => exact ⟨hw₁, trivial⟩
        | none =>
          obtain ⟨h₁, hopen⟩ := hr.1 rfl
          obtain ⟨hinv, -⟩ := hr.2.2 rfl
          dsimp only
          split
          · exact noneReady_wpc h₁.tried hw₁
          · rename_i hne
            have hrun : Crash eng id n _ (runReady d scan.inst scan.ready opts) w₁ :=
              wpc.and (runReady_wpc hinv.ready.nodup hne h₁ hopen hw₁)
                (runReady_sat hinv.ident hinv.ready hne)
            refine wpc.bind hrun fun w₂ r hw₂ hr => ?_
            obtain ⟨⟨inst', err⟩, ran⟩ := r
            cases err with
            | some err => exact ⟨hw₂, trivial⟩
            | none =>
              obtain ⟨hprog, hne', hran⟩ := hr.2.2 rfl
              exact ih (hinv.next hprog hne' hran).2.1 (hr.1 rfl) hw₂
    · have hdone' : Ending id n dry (inst.setState .completed) w := h.tried
      exact (persist_wpc (fun _ hs => hs) hdone' hw).mono fun _ _ _ _ => trivial

theorem execute_wpc (h : Going id n dry inst w) (hw : Safe id n w) :
    Crash eng id n (fun _ _ => True) (execute d inst opts) w := by
  have hvalid : Going id n dry (inst.setState .validating) w := h
  refine wpc.bind (persist_wpc (fun _ => StepStatus.tried_of_settled) hvalid hw)
    fun w₁ r hw₁ hr => ?_
  obtain ⟨inst₁, err⟩ := r
  have h₁ : Going id n dry inst₁ w₁ := hr.1
  cases err with
  | some err => exact ⟨hw₁, trivial⟩
  | none =>
    refine wpc.bind (asks_wpc validateSteps_sat hw₁) fun _ err _ herr => ?_
    obtain ⟨rfl, -⟩ := herr
    cases err with
    | some err => exact (halt_wpc h₁.tried hw₁).mono fun _ _ _ _ => trivial
    | none =>
      have hrun : Going id n dry (inst₁.setState .running) w₁ := h₁
      refine wpc.bind (persist_wpc (fun _ => StepStatus.tried_of_settled) hrun hw₁)
        fun w₂ r hw₂ hr => ?_
      dsimp only
      split
      · exact parallelLoop_wpc hmode (.start d _) hr.1 hw₂
      · exact executeSequential_wpc hmode hr.1 hw₂

end

/-! ## Histories -/

def Call.instanceID (c : Call) : String := c.opts.id (c.env.headD {})

/-- A call does not resume from a checkpoint in which step `n` is compensating. -/
def Call.notCompensating (id n : String) (w : World) (c : Call) : Bool :=
  c.opts.resume = false ∨ w.savedStatus id n ≠ .compensating

/-- A history of one instance of a workflow: a run, and then resumed ones. All saves succeed. -/
structure InstanceHistory (workflow id : String) (history : List Call) : Prop where
  workflow : ∀ c ∈ history, c.workflow = workflow
  instanceID : ∀ c ∈ history, c.instanceID = id
  resumed : ∀ c ∈ history.tail, c.opts.resume = true
  saves : ∀ c ∈ history, ∀ e ∈ c.env, e.saveErr = none

theorem Starts.holds {workflow : String} (h : Starts w workflow opts id inst)
    (hfresh : opts.resume = false → w.tries id n = 0)
    (hresume : opts.resume = true → w.savedStatus id n ≠ .compensating) (hw : Safe id n w) :
    Holds id n StepStatus.settled ⟨id, inst.dryRun, id⟩ inst w := by
  cases h with
  | fresh hopts => exact ⟨rfl, .inl (hfresh hopts)⟩
  | loaded cp hopts hcp =>
    have hkey := w.store.keyed id cp hcp
    have hsaved : w.savedStatus id n = (cp.step n).status := by
      simp [World.savedStatus, hcp]
    refine ⟨by simp [Instance.ident, loadedInstance, hkey], hw.imp_right fun ⟨_, htried⟩ => ?_⟩
    have hne := hresume hopts
    rw [hsaved] at htried hne
    change ((cp.step n).status).settled = true
    simp [StepStatus.settled, htried, hne]

theorem Call.upTo_safe {c : Call} (hd : eng.defs c.workflow = some d)
    (hmode : (d.step n).idempotency = .notRetryable) (hid : c.instanceID = id)
    (hsaves : ∀ e ∈ c.env, e.saveErr = none) (hfresh : c.opts.resume = false → w.tries id n = 0)
    (hresume : c.opts.resume = true → w.savedStatus id n ≠ .compensating) (hw : Safe id n w) :
    Safe id n (c.upTo eng w).1 := by
  obtain ⟨workflow, opts, es⟩ := c
  cases es with
  | nil => exact hw
  | cons e es =>
    change Safe id n (Prog.upTo (World.exec eng) es _ (w.enter eng e workflow opts).1).1
    obtain ⟨hstore, hlog⟩ := World.enter_store eng w e workflow opts
    have htries : (w.enter eng e workflow opts).1.tries id n = w.tries id n := by
      rw [World.tries, hlog, World.tries]
    have hw' : Safe id n (w.enter eng e workflow opts).1 := by
      rw [Safe, htries, World.savedStatus, hstore]
      exact hw
    generalize hr : (World.exec eng (.enter workflow opts) e w).2 = r
    cases r with
    | error err => cases es <;> exact hw'
    | ok r =>
      obtain ⟨d', inst⟩ := r
      obtain ⟨-, hd', hstart⟩ := World.enter_ok hr
      obtain rfl : d' = d := Option.some.inj (hd'.symm.trans hd)
      obtain rfl : opts.id e = id := hid
      have h := hstart.holds hfresh hresume hw
      have hexec : Crash eng (opts.id e) n (fun _ _ => True)
          (runEntered d' inst opts)
          (w.enter eng e workflow opts).1 :=
        wpc.bind (execute_wpc hmode ⟨h.1, by rw [htries]; exact h.2⟩ hw') fun _ _ hw'' _ =>
          ⟨hw'', trivial⟩
      exact hexec.upTo fun e' he' => hsaves e' (List.mem_cons_of_mem _ he')

theorem Call.after_safe {c : Call} (h : Safe id n (c.upTo eng w).1) :
    Safe id n (c.after eng w) := by
  unfold after
  split
  · exact h
  · exact h

/-- The action of a step that is not retryable is invoked at most once. -/
theorem not_retryable_at_most_once (eng : Engine) (workflow id n : String) (d : Definition)
    (hd : eng.defs workflow = some d) (hmode : (d.step n).idempotency = .notRetryable) (w₀ : World)
    (hlog : w₀.log = []) (history : List Call) (hhistory : InstanceHistory workflow id history)
    (hcond : Conc.Run.Meets (Call.after eng) (Call.notCompensating id n) w₀ history = true)
    (k : Nat) : (worldAt eng w₀ history k).tries id n ≤ 1 := by
  have hzero : w₀.tries id n = 0 := by
    rw [World.tries, hlog]
    rfl
  have hsafe : ∀ k, Safe id n (worldAt eng w₀ history k) := by
    intro k
    induction k with
    | zero => exact .inl hzero
    | succ k ih =>
      cases hc : history[k]? with
      | none => rwa [worldAt, Run.stateAt_succ_of_none hc]
      | some c =>
        have hmem := List.mem_of_getElem? hc
        rw [worldAt, Run.stateAt_succ hc]
        have hmeets := Run.meets_getElem hcond hc
        simp only [Call.notCompensating, decide_eq_true_eq] at hmeets
        refine Call.after_safe (Call.upTo_safe (by rw [hhistory.workflow c hmem, hd]) hmode
          (hhistory.instanceID c hmem) (hhistory.saves c hmem) (fun hfresh => ?_)
          (fun hresume => hmeets.resolve_left (by simp [hresume])) ih)
        -- Only the first call is fresh.
        cases k with
        | zero => exact hzero
        | succ k =>
          have htail : c ∈ history.tail := List.mem_of_getElem? (by simpa using hc)
          rw [hhistory.resumed c htail] at hfresh
          cases hfresh
  rcases hsafe k with h | ⟨h, -⟩
  · omega
  · omega

/-! ## A crash within compensation -/

/-- Step `b` after step `a`, which is not retryable and has a compensation. -/
def onceEngine : Engine where
  defs _ :=
    (((((define "w").step "a" true).compensate "a" true).idempotency "a" .notRetryable).step "b" true
      |>.depend "b" ["a"]).build.toOption
  max := 256

/-- A run of instance `x` in which `b` fails, cut off after `k` more actions. The compensation of `a`
is invoked with the sixth. -/
def failedRun (k : Nat) : Call where
  workflow := "w"
  opts := { instanceID := "x" }
  env := List.replicate 17 {} ++ { err := some { text := "boom" } } :: List.replicate k {}

def resumedRun : Call where
  workflow := "w"
  opts := { instanceID := "x", resume := true }
  env := List.replicate 40 {}

theorem failedRun_history (k : Nat) : InstanceHistory "w" "x" [failedRun k, resumedRun] where
  workflow := by simp [failedRun, resumedRun]
  instanceID := by simp [failedRun, resumedRun, Call.instanceID, RunOptions.id]
  resumed := by simp [resumedRun]
  saves := by simp [failedRun, resumedRun, or_imp, forall_and]

theorem onceEngine_mode :
    (onceEngine.defs "w").map (fun d => (d.step "a").idempotency) = some .notRetryable := by
  decide +kernel

theorem not_retryable_resumed :
    (worldAt onceEngine { store := .empty } [failedRun 20, resumedRun] 2).tries "x" "a" ≤ 1 := by
  obtain ⟨d, hd, hmode⟩ := Option.map_eq_some_iff.mp onceEngine_mode
  exact not_retryable_at_most_once onceEngine "w" "x" "a" d hd hmode { store := .empty } rfl
    [failedRun 20, resumedRun] (failedRun_history 20) (by decide +kernel) 2

/-- The process crashes in the compensation, and the resumed run tries the step again. -/
theorem crash_in_compensation_reruns :
    InstanceHistory "w" "x" [failedRun 6, resumedRun] ∧
      (onceEngine.defs "w").map (fun d => (d.step "a").idempotency) = some .notRetryable ∧
      (worldAt onceEngine { store := .empty } [failedRun 6, resumedRun] 2).tries "x" "a" = 2 :=
  ⟨failedRun_history 6, onceEngine_mode, by decide +kernel⟩

end ShiftLock.Workflow
