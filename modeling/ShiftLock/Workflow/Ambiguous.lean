import ShiftLock.Workflow.Parallel
import ShiftLock.Workflow.Watch
import ShiftLock.Workflow.History

/-!
# Ambiguous outcomes

An ambiguous outcome of a step that runs alone is kept: the step and the instance need
reconciliation. In a batch only the first failure by name is handled, and the others are marked as
failed siblings, so an ambiguous outcome is kept if and only if it is that first failure, and is not
an error of the context as well (`ambiguous_kept_iff`).

All failures of a run belong to one step or one batch, since none of them lets the run go on.
-/

namespace ShiftLock.Workflow

open Conc Function
open Conc.Prog (Obeys Sat)

/-- Every step with an ambiguous outcome needs reconciliation, and so does the instance. -/
def Reconciled (fs : List Failure) (inst : Instance) : Prop :=
  ∀ f ∈ fs, f.ambiguous = true →
    inst.status f.step = .reconcile ∧ inst.state = .requiresReconciliation

/-- An ambiguous outcome is that of the first failed step by name; in a parallel group, it is not an
error of the context as well. -/
def Foremost (d : Definition) (fs : List Failure) : Prop :=
  ∀ f ∈ fs, f.ambiguous = true →
    (∀ f' ∈ fs, f.step ≤ f'.step) ∧ (f.cancelled = true → (d.step f.step).parallelGroup = "")

/-- Where a run returns. -/
structure Ends (d : Definition) (g : Watch) (r : Reply) : Prop where
  persisted : g.Persisted r.1
  reconciled : Reconciled g.failures r.1 ↔ Foremost d g.failures

/-- Where a part of a run returns: it goes on if nothing has failed. -/
structure Settles (d : Definition) (g : Watch) (r : Reply) : Prop extends Ends d g r where
  going : r.2 = none → g.failures = [] ∧ r.1.state = .running

variable {g : Watch} {d : Definition} {inst : Instance} {opts : RunOptions}

theorem Ends.of_nil {r : Reply} (hf : g.failures = []) (hp : g.Persisted r.1) : Ends d g r where
  persisted := hp
  reconciled := by
    rw [hf]
    exact iff_of_true (by simp [Reconciled]) (by simp [Foremost])

theorem Settles.of_nil {r : Reply} (hf : g.failures = []) (hp : g.Persisted r.1)
    (hgoing : r.2 = none → r.1.state = .running) : Settles d g r :=
  { Ends.of_nil hf hp with going := fun h => ⟨hf, hgoing h⟩ }

theorem halt_settles {s : State} {err : Fault} (h : g.Persisted inst) (hf : g.failures = [])
    (hs : canTransition inst.state s = true) :
    Obeys Watch.monitor (Settles d) (halt inst s err) g := by
  refine (halt_obeys h hs).mono fun g' r hr => ?_
  exact .of_nil (hr.1.failures.trans hf) hr.1.persisted fun hnone => absurd hnone hr.2.2.2

/-! ## One step -/

/-- Only the failures and the members that wait have changed. -/
structure Watch.Tried (g g' : Watch) (waiting : List String) (fs : List Failure) : Prop where
  persisted : ∀ inst : Instance, g.Persisted inst → g'.Persisted inst
  waiting : g'.waiting = waiting
  failures : g'.failures = g.failures ++ fs

variable {now : Time} {os : List Outcome} (h : g.Persisted inst) (hs : inst.state = .running)
  (hf : g.failures = [])

theorem invoke_obeys {x : ExecContext} :
    Obeys Watch.monitor
      (fun g' r => g.Tried g' g.waiting (failure? x.step r.1 r.2).toList) (invoke inst now x) g := by
  unfold invoke
  split
  · exact ⟨fun _ h => h, rfl, (List.append_nil _).symm⟩
  · exact ⟨trivial, fun r => ⟨fun _ h => ⟨h.id, h.last⟩, rfl, rfl⟩⟩

include h hs hf in
theorem runStep_obeys {step : StepDef} (hgroup : (d.step step.name).parallelGroup = "") :
    Obeys Watch.monitor (Settles d) (runStep d inst step opts) g := by
  refine Obeys.perform trivial fun now => ?_
  refine Obeys.bind (persist_same (h.setStep step.name _)) fun g₁ r hr => ?_
  obtain ⟨inst₁, err₁⟩ := r
  obtain ⟨hsaved, hstate, -⟩ := hr
  have hrun : inst₁.state = .running := hstate.trans hs
  refine (obeys_of_asks (observeEpoch_sat step)).bind fun g₂ epoch hepoch => ?_
  obtain ⟨rfl, -⟩ := hepoch
  refine invoke_obeys.bind fun g₃ r' htried => ?_
  obtain ⟨res, err⟩ := r'
  have hp := htried.persisted _ hsaved.persisted
  have hfs : g₃.failures = (failure? step.name res err).toList := by
    rw [htried.failures, show g₂.failures = [] from hsaved.failures.trans hf]
    rfl
  dsimp only
  split
  · rename_i hfailed
    refine (handleStepFailure_obeys hp hrun).mono fun g₄ r'' hr'' => ?_
    obtain ⟨hsaved', herr, hrec, -⟩ := hr''
    have hfs' : g₄.failures = [{ step := step.name
                                 ambiguous := res.ambiguous || (err.map ActionError.ambiguous).getD false
                                 cancelled := (err.map ActionError.cancelled).getD false }] := by
      rw [hsaved'.failures, hfs, failure?, if_pos hfailed]
      rfl
    refine ⟨⟨hsaved'.persisted, ?_⟩, fun hnone => absurd hnone herr⟩
    -- Both sides hold: the step is alone, and an ambiguous outcome is reconciled.
    rw [hfs']
    refine iff_of_true ?_ ?_
    · intro f hmem hamb
      obtain rfl := List.mem_singleton.mp hmem
      obtain ⟨hstate', hstatus⟩ := hrec (by
        rcases Bool.or_eq_true_iff.mp hamb with hres | herr'
        · exact .inl hres
        · exact .inr (.inr herr'))
      rw [hstatus, update_self]
      exact ⟨rfl, hstate'⟩
    · intro f hmem _
      obtain rfl := List.mem_singleton.mp hmem
      exact ⟨by simp, fun _ => hgroup⟩
  · rename_i hok
    have hnil : g₃.failures = [] := by
      rw [hfs, failure?, if_neg hok]
      rfl
    refine Obeys.perform trivial fun now' => ?_
    refine (persist_same (hp.complete step.name _ epoch)).mono
      fun g₄ r'' hr'' => ?_
    exact .of_nil (hr''.1.failures.trans hnil) hr''.1.persisted fun _ => hr''.2.1.trans hrun

include h hs hf in
theorem guardedStep_obeys {name : String} (hgroup : (d.step name).parallelGroup = "") :
    Obeys Watch.monitor (Settles d) (guardedStep d inst name opts) g := by
  refine (obeys_of_asks (blocked_sat _)).bind fun g₁ b hb => ?_
  obtain ⟨rfl, -⟩ := hb
  cases b with
  | true => exact halt_settles h hf (by rw [hs]; rfl)
  | false =>
    refine runStep_obeys h hs hf ?_
    rw [d.step_name]
    exact hgroup

/-! ## The outcomes of a batch -/

/-- The result is ambiguous, or the error matches `ErrAmbiguous`. -/
def Outcome.ambiguous (o : Outcome) : Bool :=
  o.res.ambiguous || (o.err.map ActionError.ambiguous).getD false

/-- The failure of a member, if it has failed. -/
def Outcome.failure (o : Outcome) : Option Failure := failure? o.p.name o.res o.err

theorem Outcome.failed_of_ambiguous {o : Outcome} (h : o.ambiguous = true) : o.failed = true := by
  unfold ambiguous at h
  unfold failed
  cases herr : o.err with
  | none => simpa [herr] using h
  | some err => rfl

theorem goroutine_obeys {p : Prepared} {waiting : List String} (hp : p.Named)
    (hw : g.waiting = p.name :: waiting) :
    Obeys Watch.monitor (fun g' o => o.p = p ∧ g.Tried g' waiting o.failure.toList)
      (goroutine inst now p) g := by
  refine Obeys.perform trivial fun r => ?_
  cases r with
  | some err =>
    refine ⟨rfl, fun _ h => ⟨h.id, h.last⟩, congrArg List.tail hw, ?_⟩
    change g.failures ++ [{ step := g.waiting.headD "", ambiguous := false, cancelled := true }] = _
    rw [hw]
    rfl
  | none =>
    refine invoke_obeys.bind fun g' r htried => ⟨rfl, ?_⟩
    rw [hp.1] at htried
    exact ⟨fun inst h => htried.persisted inst ⟨h.id, h.last⟩,
      htried.waiting.trans (congrArg List.tail hw), htried.failures⟩

theorem launch_obeys {ps : List Prepared} (hps : ∀ p ∈ ps, p.Named)
    (hw : g.waiting = ps.map Prepared.name) :
    Obeys Watch.monitor
      (fun g' os => os.map Outcome.p = ps ∧ g.Tried g' [] (os.filterMap Outcome.failure))
      (launch inst now ps) g := by
  induction ps generalizing g with
  | nil => exact ⟨rfl, fun _ h => h, hw, (List.append_nil _).symm⟩
  | cons p ps ih =>
    refine (goroutine_obeys (hps p List.mem_cons_self) hw).bind fun g₁ o ho => ?_
    obtain ⟨rfl, htried⟩ := ho
    refine (ih (fun p hp => hps p (List.mem_cons_of_mem _ hp)) htried.waiting).bind fun g₂ os hos => ?_
    obtain ⟨rfl, htried'⟩ := hos
    refine ⟨rfl, fun inst h => htried'.persisted inst (htried.persisted inst h), htried'.waiting, ?_⟩
    rw [htried'.failures, htried.failures, List.append_assoc]
    cases ho : o.failure <;> simp [ho]

/-- The first failure is kept, and the steps that failed stay as they are. -/
theorem applyOutcomes_failed {fail : Option Outcome} :
    Sat Asks
      (fun r => r.2 = fail.or (os.find? Outcome.failed) ∧ r.1.state = inst.state ∧
        ∀ m, (∀ o ∈ os, o.p.name = m → o.failed = true) → r.1.status m = inst.status m)
      (applyOutcomes os inst fail) := by
  induction os generalizing inst fail with
  | nil => exact ⟨by simp, rfl, fun _ _ => rfl⟩
  | cons o os ih =>
    unfold applyOutcomes
    split
    · rename_i hfailed
      refine ih.mono fun r hr => ⟨?_, hr.2.1, fun m hm => hr.2.2 m fun o' ho' => ?_⟩
      · rw [hr.1, List.find?_cons_of_pos hfailed]
        cases fail <;> rfl
      · exact hm o' (List.mem_cons_of_mem _ ho')
    · rename_i hok
      refine Sat.perform trivial fun now => ih.mono fun r hr => ⟨?_, hr.2.1, fun m hm => ?_⟩
      · rw [hr.1, List.find?_cons_of_neg hok]
      · have hne : m ≠ o.p.name := fun heq => hok (hm o List.mem_cons_self heq.symm)
        rw [hr.2.2 m fun o' ho' => hm o' (List.mem_cons_of_mem _ ho'), status_complete,
          update_of_ne hne]

/-- The other members that are still running are failed. -/
theorem failSiblings_failed {fail : Outcome} :
    Sat Asks
      (fun r => r.state = inst.state ∧ ∀ o ∈ os, o.p.name ≠ fail.p.name →
        inst.status o.p.name = .running → r.status o.p.name = .failed)
      (failSiblings fail os inst) := by
  induction os generalizing inst with
  | nil => exact ⟨rfl, by simp⟩
  | cons o os ih =>
    unfold failSiblings
    dsimp only
    split
    · refine Sat.perform trivial fun now => ?_
      refine (Sat.and ih (failSiblings_sat rfl)).mono fun r hr => ⟨hr.1.1, fun o' ho' hne hrun => ?_⟩
      obtain ⟨⟨-, hrest⟩, -, hkept⟩ := hr
      by_cases heq : o'.p.name = o.p.name
      · rw [heq]
        rcases hkept o.p.name with hst | hst
        · rw [hst, status_setStep, update_self]
        · exact hst
      · rcases List.mem_cons.mp ho' with rfl | ho'
        · exact absurd rfl heq
        · exact hrest o' ho' hne (by rw [status_setStep, update_of_ne heq]; exact hrun)
    · rename_i hskip
      refine ih.mono fun r hr => ⟨hr.1, fun o' ho' hne hrun => ?_⟩
      rcases List.mem_cons.mp ho' with rfl | ho'
      · exact absurd ⟨hne, hrun⟩ hskip
      · exact hr.2 o' ho' hne hrun

/-! ## What a batch does about them -/

structure Batch (d : Definition) (os : List Outcome) (fs : List Failure) : Prop where
  nodup : (os.map (·.p.name)).Nodup
  named : ∀ o ∈ os, o.p.Named
  group : ∀ o ∈ os, (d.step o.p.name).parallelGroup ≠ ""
  failures : fs.Perm (os.filterMap Outcome.failure)

/-- The first failure by name. -/
structure Leads (os : List Outcome) (fail : Outcome) : Prop where
  mem : fail ∈ os
  failed : fail.failed = true
  le : ∀ o ∈ os, o.failed = true → fail.p.name ≤ o.p.name

theorem leads_of_find? {fail : Outcome} (hsorted : os.Pairwise fun a b => a.p.name ≤ b.p.name)
    (h : os.find? Outcome.failed = some fail) : Leads os fail := by
  obtain ⟨hfailed, l₁, l₂, rfl, hbefore⟩ := List.find?_eq_some_iff_append.mp h
  refine ⟨by simp, hfailed, fun o ho hof => ?_⟩
  rcases List.mem_append.mp ho with ho | ho
  · have := hbefore o ho
    rw [hof] at this
    cases this
  · rcases List.mem_cons.mp ho with rfl | ho
    · exact le_refl _
    · exact (List.pairwise_cons.mp (List.pairwise_append.mp hsorted).2.1).1 o ho

section

variable {os : List Outcome} {fs : List Failure} {fail : Outcome}

theorem Batch.eq_of_name (h : Batch d os fs) {o o' : Outcome} (ho : o ∈ os) (ho' : o' ∈ os)
    (heq : o.p.name = o'.p.name) : o = o' := List.inj_on_of_nodup_map h.nodup ho ho' heq

theorem Batch.forall_ambiguous (h : Batch d os fs) {P : String → Bool → Prop} :
    (∀ f ∈ fs, f.ambiguous = true → P f.step f.cancelled) ↔
      ∀ o ∈ os, o.ambiguous = true →
        P o.p.name ((o.err.map ActionError.cancelled).getD false) := by
  constructor
  · intro hf o ho hamb
    have hfailure : o.failure = some ⟨o.p.name, o.ambiguous, (o.err.map ActionError.cancelled).getD false⟩ :=
      if_pos (Outcome.failed_of_ambiguous hamb)
    exact hf _ (h.failures.mem_iff.mpr (List.mem_filterMap.mpr ⟨o, ho, hfailure⟩)) hamb
  · intro ho f hf hamb
    obtain ⟨o, hmem, heq⟩ := List.mem_filterMap.mp (h.failures.mem_iff.mp hf)
    unfold Outcome.failure failure? at heq
    split at heq
    · obtain rfl := Option.some.inj heq
      exact ho o hmem hamb
    · cases heq

/-- An ambiguous outcome is foremost if it is the first failure, and no error of the context. -/
theorem Batch.foremost_iff (h : Batch d os fs) (hfail : Leads os fail) :
    Foremost d fs ↔
      ∀ o ∈ os, o.ambiguous = true → o = fail ∧ (fail.err.map ActionError.cancelled).getD false = false := by
  have hle : ∀ s : String, (∀ f' ∈ fs, s ≤ f'.step) ↔ s ≤ fail.p.name := by
    intro s
    constructor
    · intro hs
      refine hs ⟨fail.p.name, fail.ambiguous, (fail.err.map ActionError.cancelled).getD false⟩
        (h.failures.mem_iff.mpr (List.mem_filterMap.mpr ⟨fail, hfail.mem, if_pos hfail.failed⟩))
    · intro hs f' hf'
      obtain ⟨o, hmem, heq⟩ := List.mem_filterMap.mp (h.failures.mem_iff.mp hf')
      unfold Outcome.failure failure? at heq
      split at heq
      · rename_i hfailed
        obtain rfl := Option.some.inj heq
        exact le_trans hs (hfail.le o hmem hfailed)
      · cases heq
  have hall := h.forall_ambiguous (P := fun s c =>
    (∀ f' ∈ fs, s ≤ f'.step) ∧ (c = true → (d.step s).parallelGroup = ""))
  refine Iff.trans hall (forall₂_congr fun o ho => imp_congr_right fun hamb => ?_)
  rw [hle]
  constructor
  · rintro ⟨hmin, hcancel⟩
    have heq : o = fail := h.eq_of_name ho hfail.mem
      (le_antisymm hmin (hfail.le o ho (Outcome.failed_of_ambiguous hamb)))
    subst heq
    exact ⟨rfl, Bool.eq_false_iff.mpr fun hc => h.group o ho (hcancel hc)⟩
  · rintro ⟨rfl, hcancel⟩
    exact ⟨le_refl _, fun hc => by rw [hcancel] at hc; cases hc⟩

/-- What the batch leaves, and which ambiguous outcomes are kept there. -/
theorem Batch.reconciled_iff (h : Batch d os fs) (hfail : Leads os fail) {inst' : Instance}
    (hstate : (inst'.state = .requiresReconciliation ∧ inst'.status fail.p.name = .reconcile ∧
        (∀ o ∈ os, o.failed = true → o ≠ fail → inst'.status o.p.name ≠ .reconcile) ∧
        (fail.err.map ActionError.cancelled).getD false = false) ∨
      (inst'.state ≠ .requiresReconciliation ∧
        (fail.ambiguous = true → (fail.err.map ActionError.cancelled).getD false = true))) :
    Reconciled fs inst' ↔ Foremost d fs := by
  rw [h.foremost_iff hfail]
  refine Iff.trans (h.forall_ambiguous (P := fun s _ =>
    inst'.status s = .reconcile ∧ inst'.state = .requiresReconciliation)) ?_
  refine forall₂_congr fun o ho => imp_congr_right fun hamb => ?_
  rcases hstate with ⟨hstate, hstatus, hothers, hcancel⟩ | ⟨hstate, hcancel⟩
  · constructor
    · rintro ⟨hrec, -⟩
      refine ⟨?_, hcancel⟩
      by_contra hne
      exact hothers o ho (Outcome.failed_of_ambiguous hamb) hne hrec
    · rintro ⟨rfl, -⟩
      exact ⟨hstatus, hstate⟩
  · refine iff_of_false (fun hkept => hstate hkept.2) ?_
    rintro ⟨rfl, hnot⟩
    rw [hcancel hamb] at hnot
    cases hnot

theorem failBatch_obeys (h : g.Persisted inst) (hs : inst.state = .running)
    (hbatch : Batch d os g.failures) (hfail : Leads os fail)
    (hrunning : ∀ o ∈ os, o.failed = true → inst.status o.p.name = .running) :
    Obeys Watch.monitor (Settles d) (failBatch d inst fail os opts) g := by
  refine (obeys_of_asks (failSiblings_failed.and (failSiblings_sat rfl))).bind fun g₁ inst₁ h₁ => ?_
  obtain ⟨rfl, ⟨hstate₁, hsiblings⟩, hident, -⟩ := h₁
  have hid : inst₁.checkpoint.instanceID = inst.checkpoint.instanceID :=
    congrArg Ident.instanceID hident
  have hp₁ : g₁.Persisted inst₁ := ⟨hid.trans h.id, hstate₁ ▸ h.last⟩
  refine Obeys.bind (persist_same hp₁) fun g₂ r hr => ?_
  obtain ⟨inst₂, err₂⟩ := r
  obtain ⟨hsaved, hstate₂, hstatus₂⟩ := hr
  have hrun : inst₂.state = .running := hstate₂.trans (hstate₁.trans hs)
  have hothers : ∀ o ∈ os, o.failed = true → o ≠ fail → inst₂.status o.p.name = .failed := by
    intro o ho hof hne
    rw [show inst₂.status = inst₁.status from hstatus₂]
    exact hsiblings o ho (fun heq => hne (hbatch.eq_of_name ho hfail.mem heq)) (hrunning o ho hof)
  -- The failure is handled as that of a step alone.
  have hhandle : (fail.err.map ActionError.cancelled).getD false = false →
      Obeys Watch.monitor (Settles d)
        (handleStepFailure d inst₂ fail.p.step fail.p.st fail.res fail.err opts) g₂ := by
    intro hcancel
    refine (handleStepFailure_obeys hsaved.persisted hrun).mono fun g₃ r hr => ?_
    obtain ⟨hsaved', herr, hrec, hnrec⟩ := hr
    refine ⟨⟨hsaved'.persisted, ?_⟩, fun hnone => absurd hnone herr⟩
    have hfs : g₃.failures = g₁.failures := hsaved'.failures.trans hsaved.failures
    rw [hfs]
    refine hbatch.reconciled_iff hfail ?_
    by_cases hr : Reconciles fail.p.step fail.res fail.err
    · obtain ⟨hst, hstatus⟩ := hrec hr
      rw [(hbatch.named fail hfail.mem).2] at hstatus
      refine .inl ⟨hst, by rw [hstatus, update_self], fun o ho hof hne => ?_, hcancel⟩
      have hname : o.p.name ≠ fail.p.name := fun heq => hne (hbatch.eq_of_name ho hfail.mem heq)
      rw [hstatus, update_of_ne hname, hothers o ho hof hne]
      decide
    · refine .inr ⟨hnrec hr, fun hamb => absurd ?_ hr⟩
      rcases Bool.or_eq_true_iff.mp hamb with hres | herr'
      · exact .inl hres
      · exact .inr (.inr herr')
  dsimp only
  split
  · rename_i err herr
    split
    · rename_i hcancel
      refine (halt_obeys hsaved.persisted (by rw [hrun]; rfl)).mono fun g₃ r hr => ?_
      refine ⟨⟨hr.1.persisted, ?_⟩, fun hnone => absurd hnone hr.2.2.2⟩
      rw [hr.1.failures, hsaved.failures]
      refine hbatch.reconciled_iff hfail (.inr ⟨by rw [hr.2.1]; decide, fun _ => ?_⟩)
      rw [herr]
      exact hcancel
    · rename_i hcancel
      refine hhandle ?_
      rw [herr]
      exact Bool.eq_false_iff.mpr hcancel
  · rename_i herr
    exact hhandle (by rw [herr]; rfl)

end

variable {names : List String}

/-- What `sortOutcomes` makes of the outcomes of a batch. -/
theorem batch_of_launch (hnodup : names.Nodup) (hgroup : ∀ m ∈ names, (d.step m).parallelGroup ≠ "")
    {preps : List Prepared} (hpreps : preps.map Prepared.name = names)
    (hnamed : ∀ p ∈ preps, p.Named) {order : List Prepared} (horder : order.Perm preps)
    {os : List Outcome} (hos : os.map Outcome.p = order) :
    Batch d (sortOutcomes os) (os.filterMap Outcome.failure) := by
  have hperm : (sortOutcomes os).Perm os := List.perm_insertionSort _ os
  have hmem : ∀ o ∈ sortOutcomes os, o.p ∈ preps := fun o ho =>
    horder.mem_iff.mp (hos ▸ List.mem_map_of_mem (hperm.mem_iff.mp ho))
  have hnames : ((sortOutcomes os).map (·.p.name)).Perm names := by
    have hmap : os.map (·.p.name) = order.map Prepared.name := by
      rw [← hos, List.map_map]
      rfl
    rw [← hpreps]
    exact (hperm.map _).trans (hmap ▸ horder.map _)
  refine ⟨hnames.nodup_iff.mpr hnodup, fun o ho => hnamed _ (hmem o ho), fun o ho => ?_,
    (hperm.filterMap _).symm⟩
  exact hgroup _ (hnames.mem_iff.mp (List.mem_map_of_mem ho))

theorem sortOutcomes_sorted (os : List Outcome) :
    (sortOutcomes os).Pairwise fun a b => a.p.name ≤ b.p.name := by
  have : Std.Total fun a b : Outcome => a.p.name ≤ b.p.name := ⟨fun a b => le_total _ _⟩
  have : IsTrans Outcome fun a b => a.p.name ≤ b.p.name := ⟨fun _ _ _ => le_trans⟩
  exact List.pairwise_insertionSort _ os

include h hs hf in
theorem runParallelBatch_obeys (hnodup : names.Nodup)
    (hgroup : ∀ m ∈ names, (d.step m).parallelGroup ≠ "") :
    Obeys Watch.monitor (Settles d) (runParallelBatch d inst names opts) g := by
  refine (obeys_of_asks blockedMember_sat).bind fun g₀ b hb => ?_
  obtain ⟨rfl, -⟩ := hb
  cases b with
  | some name => exact halt_settles h hf (by rw [hs]; rfl)
  | none =>
    refine Obeys.perform trivial fun now => ?_
    refine (obeys_of_asks ((prepareBatch_sat rfl).and prepareBatch_state)).bind fun g₁ r hr => ?_
    obtain ⟨inst₁, preps⟩ := r
    obtain ⟨rfl, ⟨hident, hstatus₁, hpreps, hnamed⟩, hstate₁⟩ := hr
    have hid : inst₁.checkpoint.instanceID = inst.checkpoint.instanceID :=
      congrArg Ident.instanceID hident
    refine Obeys.bind (persist_same ⟨hid.trans h.id, hstate₁ ▸ h.last⟩) fun g₂ r hr => ?_
    obtain ⟨inst₂, err⟩ := r
    obtain ⟨hsaved, hstate₂, hstatus₂⟩ := hr
    have hrun : inst₂.state = .running := hstate₂.trans (hstate₁.trans hs)
    have hf₂ : g₂.failures = [] := hsaved.failures.trans hf
    cases err with
    | some err => exact .of_nil hf₂ hsaved.persisted nofun
    | none =>
      refine Obeys.perform trivial fun order => ?_
      refine Obeys.bind (launch_obeys (fun p hp => hnamed p (order.2.mem_iff.mp hp)) rfl)
        fun g₃ os hos => ?_
      obtain ⟨hos, htried⟩ := hos
      have hbatch := batch_of_launch hnodup hgroup hpreps hnamed order.2 hos
      have hfs : g₃.failures = os.filterMap Outcome.failure := by
        rw [htried.failures, show (Watch.monitor.after g₂ (.schedule preps) order).failures = [] from hf₂]
        rfl
      have hp₃ := htried.persisted inst₂ ⟨hsaved.persisted.id, hsaved.persisted.last⟩
      refine (obeys_of_asks (applyOutcomes_failed.and (applyOutcomes_sat rfl))).bind fun g₄ r hr => ?_
      obtain ⟨inst₄, fail⟩ := r
      obtain ⟨rfl, ⟨hfail, hstate₄, hkept⟩, hident₄, -⟩ := hr
      have hid₄ : inst₄.checkpoint.instanceID = inst₂.checkpoint.instanceID :=
        congrArg Ident.instanceID hident₄
      refine Obeys.bind (persist_same ⟨hid₄.trans hp₃.id, hstate₄ ▸ hp₃.last⟩) fun g₅ r hr => ?_
      obtain ⟨inst₅, err⟩ := r
      obtain ⟨hsaved₅, hstate₅, hstatus₅⟩ := hr
      have hfs₅ : g₅.failures = os.filterMap Outcome.failure := hsaved₅.failures.trans hfs
      have hrun₅ : inst₅.state = .running := hstate₅.trans (hstate₄.trans hrun)
      cases fail with
      | none =>
        refine .of_nil ?_ hsaved₅.persisted fun _ => hrun₅
        have hnone : ∀ o ∈ sortOutcomes os, ¬ o.failed = true := by
          simpa using hfail.symm
        rw [hfs₅, List.filterMap_eq_nil_iff]
        exact fun o ho => if_neg (hnone o ((List.perm_insertionSort _ os).mem_iff.mpr ho))
      | some fail =>
        have hleads := leads_of_find? (sortOutcomes_sorted os) (by simpa using hfail.symm)
        refine failBatch_obeys hsaved₅.persisted hrun₅ (hfs₅ ▸ hbatch) hleads fun o ho hof => ?_
        -- A member that failed is as it was when it was started.
        have hmem : o.p.name ∈ names := by
          have hp : o.p ∈ preps := order.2.mem_iff.mp
            (hos ▸ List.mem_map_of_mem ((List.perm_insertionSort _ os).mem_iff.mp ho))
          exact hpreps ▸ List.mem_map_of_mem hp
        have hsame : inst₄.status o.p.name = inst₂.status o.p.name := by
          refine hkept _ fun o' ho' heq => ?_
          rw [hbatch.eq_of_name ho' ho heq]
          exact hof
        rw [show inst₅.status = inst₄.status from hstatus₅, hsame,
          show inst₂.status = inst₁.status from hstatus₂, hstatus₁]
        simp [assign, hmem]

/-! ## The loops -/

variable {ready done : List String}

/-- Without a group, all ready steps are sequential. -/
theorem group_of_firstGroup (h : firstGroup d ready = "") {name : String} (hname : name ∈ ready) :
    (d.step name).parallelGroup = "" := by
  -- The fold only returns the empty name if it has seen no other.
  have hfold : ∀ gs : List String, (∀ g ∈ gs, g ≠ "") → ∀ g₀ : String, (g₀ ≠ "" ∨ gs ≠ []) →
      gs.foldl (fun gname g => if gname = "" ∨ g < gname then g else gname) g₀ ≠ "" := by
    intro gs
    induction gs with
    | nil => exact fun _ g₀ hne => hne.resolve_right (by simp)
    | cons g gs ih =>
      intro hgs g₀ _
      rw [List.foldl_cons]
      have hrest := fun g' hg' => hgs g' (List.mem_cons_of_mem _ hg')
      split
      · exact ih hrest g (.inl (hgs g List.mem_cons_self))
      · rename_i hnot
        exact ih hrest g₀ (.inl fun h0 => hnot (.inl h0))
  by_contra hne
  refine hfold _ (fun g hg => by simpa using (List.mem_filter.mp hg).2) "" (.inr ?_) h
  refine List.ne_nil_of_mem (List.mem_filter.mpr ⟨?_, by simpa using hne⟩)
  exact List.mem_map_of_mem hname

include h hs hf in
theorem runReady_obeys
    (hnodup : ready.Nodup) (hne : ready ≠ []) :
    Obeys Watch.monitor (fun g' r => Settles d g' r.1) (runReady d inst ready opts) g := by
  unfold runReady
  dsimp only
  split
  · rename_i hgroup
    refine (runParallelBatch_obeys h hs hf (hnodup.filter _) fun m hm => ?_).bind fun g' r hr => hr
    have heq : (d.step m).parallelGroup = firstGroup d ready := by
      simpa using (List.mem_filter.mp hm).2
    rw [heq]
    exact hgroup
  · rename_i hgroup
    obtain ⟨name, names, rfl⟩ := List.exists_cons_of_ne_nil hne
    have hname : (d.step name).parallelGroup = "" :=
      group_of_firstGroup (not_not.mp hgroup) List.mem_cons_self
    exact (guardedStep_obeys h hs hf hname).bind fun g' r hr => hr

theorem scanReady_obeys {scan : Scan} (h : g.Persisted scan.inst) (hs : scan.inst.state = .running) :
    Obeys Watch.monitor
      (fun g' r => g.Saved g' r.1.inst ∧ (r.2 = none → r.1.inst.state = .running))
      (scanReady d opts names scan) g := by
  induction names generalizing scan g with
  | nil => exact ⟨⟨rfl, h⟩, fun _ => hs⟩
  | cons name names ih =>
    unfold scanReady
    split
    · exact ih h hs
    · refine Obeys.bind (prepareStepResume_obeys h hs) fun g₁ r hr => ?_
      obtain ⟨inst, res⟩ := r
      obtain ⟨hsaved, hstate⟩ := hr
      have hrest : ∀ scan' : Scan, scan'.inst = inst → inst.state = .running →
          Obeys Watch.monitor
            (fun g' r => g.Saved g' r.1.inst ∧ (r.2 = none → r.1.inst.state = .running))
            (scanReady d opts names scan') g₁ := by
        rintro scan' rfl hrun
        exact (ih hsaved.persisted hrun).mono fun g₂ r hr => ⟨hsaved.trans hr.1, hr.2⟩
      cases res with
      | error err => exact ⟨hsaved, fun hnone => by cases hnone⟩
      | ok skip =>
        have hrun := hstate skip rfl
        cases skip with
        | true | false => exact hrest _ rfl hrun

include h hs hf in
theorem noneReady_obeys :
    Obeys Watch.monitor (Ends d) (noneReady d inst done) g := by
  unfold noneReady
  dsimp only
  split
  · split
    · exact (halt_settles h hf (by rw [hs]; rfl)).mono fun _ _ hr => hr.toEnds
    · exact (halt_settles h hf (by rw [hs]; rfl)).mono fun _ _ hr => hr.toEnds
  · exact .of_nil hf h

theorem persist_ends {s : State} (h : g.Persisted inst) (hs : canTransition inst.state s = true)
    (hf : g.failures = []) : Obeys Watch.monitor (Ends d) (persist (inst.setState s)) g :=
  (persist_obeys (by exact h.id) (by exact h.next hs)).mono fun _ _ hr =>
    .of_nil (hr.1.failures.trans hf) hr.1.persisted

include h hs hf in
theorem parallelLoop_obeys {fuel : Nat} (hdone : DoneInv d inst done) :
    Obeys Watch.monitor (Ends d) (parallelLoop d opts fuel inst done) g := by
  induction fuel generalizing inst done g with
  | zero => exact .of_nil hf h
  | succ fuel ih =>
    unfold parallelLoop
    split
    · refine Obeys.perform trivial fun r => ?_
      cases r with
      | some err => exact (halt_settles h hf (by rw [hs]; rfl)).mono fun _ _ hr => hr.toEnds
      | none =>
        refine Obeys.bind (Obeys.and (scanReady_obeys (by exact h) (by exact hs))
          (scanReady_sat (.start rfl (.refl _) hdone) d.order_nodup (fun m hm => hm) (by simp)))
          fun g₁ r hr => ?_
        obtain ⟨scan, err⟩ := r
        obtain ⟨⟨hsaved, hrun⟩, -, hinv⟩ := hr
        have hf₁ : g₁.failures = [] := hsaved.failures.trans hf
        cases err with
        | some err => exact .of_nil hf₁ hsaved.persisted
        | none =>
          obtain ⟨hinv, -⟩ := hinv rfl
          dsimp only
          split
          · exact noneReady_obeys hsaved.persisted (hrun rfl) hf₁
          · rename_i hne
            refine Obeys.bind (Obeys.and
              (runReady_obeys hsaved.persisted (hrun rfl) hf₁ hinv.ready.nodup hne)
              (runReady_sat hinv.ident hinv.ready hne)) fun g₂ r hr => ?_
            obtain ⟨⟨inst', err⟩, ran⟩ := r
            obtain ⟨hsettles, -, hran⟩ := hr
            cases err with
            | some err => exact hsettles.toEnds
            | none =>
              obtain ⟨hprog, hne', hran⟩ := hran rfl
              obtain ⟨-, hdone', -⟩ := hinv.next hprog hne' hran
              obtain ⟨hf₂, hrun₂⟩ := hsettles.going rfl
              exact ih hsettles.persisted hrun₂ hf₂ hdone'
    · exact persist_ends h (by rw [hs]; rfl) hf

include h hs hf in
theorem executeSequential_obeys (hgroup : ∀ m ∈ names, (d.step m).parallelGroup = "") :
    Obeys Watch.monitor (Ends d) (executeSequential d opts names inst) g := by
  induction names generalizing inst g with
  | nil => exact persist_ends h (by rw [hs]; rfl) hf
  | cons name names ih =>
    have hgroup' := fun m hm => hgroup m (List.mem_cons_of_mem name hm)
    refine Obeys.perform trivial fun r => ?_
    cases r with
    | some err => exact (halt_settles h hf (by rw [hs]; rfl)).mono fun _ _ hr => hr.toEnds
    | none =>
      refine Obeys.bind (prepareStepResume_obeys h hs) fun g₁ r hr => ?_
      obtain ⟨inst₁, res⟩ := r
      obtain ⟨hsaved, hrun⟩ := hr
      have hf₁ : g₁.failures = [] := hsaved.failures.trans hf
      cases res with
      | error err => exact .of_nil hf₁ hsaved.persisted
      | ok skip =>
        cases skip with
        | true => exact ih hsaved.persisted (hrun true rfl) hf₁ hgroup'
        | false =>
          refine Obeys.bind (guardedStep_obeys hsaved.persisted (hrun false rfl) hf₁
            (hgroup name List.mem_cons_self)) fun g₂ r hr => ?_
          obtain ⟨inst₂, err⟩ := r
          cases err with
          | some err => exact hr.toEnds
          | none =>
            obtain ⟨hf₂, hrun₂⟩ := hr.going rfl
            exact ih hr.persisted hrun₂ hf₂ hgroup'

theorem execute_obeys (hid : inst.checkpoint.instanceID = g.id) (hnext : g.Next .validating)
    (hf : g.failures = []) : Obeys Watch.monitor (Ends d) (execute d inst opts) g := by
  refine Obeys.bind (persist_obeys (by exact hid) (by exact hnext)) fun g₁ r hr => ?_
  obtain ⟨inst₁, err⟩ := r
  obtain ⟨hsaved, hstate, -⟩ := hr
  have hval : inst₁.state = .validating := hstate
  have hf₁ : g₁.failures = [] := hsaved.failures.trans hf
  cases err with
  | some err => exact .of_nil hf₁ hsaved.persisted
  | none =>
    refine (obeys_of_asks validateSteps_sat).bind fun g₂ err herr => ?_
    obtain ⟨rfl, -⟩ := herr
    cases err with
    | some err =>
      exact (halt_settles hsaved.persisted hf₁ (by rw [hval]; rfl)).mono fun _ _ hr => hr.toEnds
    | none =>
      have hnext₂ : g₂.Next .running := hsaved.persisted.next (by rw [hval]; rfl)
      refine Obeys.bind (persist_obeys (by exact hsaved.persisted.id) (by exact hnext₂))
        fun g₃ r hr => ?_
      obtain ⟨inst₃, err⟩ := r
      obtain ⟨hsaved₃, hstate₃, -⟩ := hr
      have hf₃ : g₃.failures = [] := hsaved₃.failures.trans hf₁
      dsimp only
      split
      · exact parallelLoop_obeys hsaved₃.persisted hstate₃ hf₃ (.start d inst₃)
      · rename_i hseq
        refine executeSequential_obeys hsaved₃.persisted hstate₃ hf₃ fun m hm => ?_
        simp only [List.any_eq_true, not_exists, not_and] at hseq
        simpa using hseq m hm

/-! ## `Run` -/

namespace Call

def id (c : Call) : String := (c.env.head?.map c.opts.id).getD ""

def trace (eng : Engine) (w : World) (c : Call) : List (Conc.Prog.Event Act World Env) :=
  Conc.Prog.trace (World.exec eng) c.env (run c.workflow c.opts) w

/-- The steps that failed in a call. -/
def failures (eng : Engine) (w : World) (c : Call) : List Failure :=
  (Watch.monitor.follow (World.exec eng) { id := c.id, lost := true } (c.trace eng w)).failures

end Call

theorem Starts.instanceID {w : World} {workflow id : String} (h : Starts w workflow opts id inst) :
    inst.checkpoint.instanceID = id := by
  cases h with
  | fresh => rfl
  | loaded cp _ hcp => exact w.store.keyed id cp hcp

theorem runEntered_obeys (hid : inst.checkpoint.instanceID = g.id) (hnext : g.Next .validating)
    (hf : g.failures = []) :
    Obeys Watch.monitor (fun g' r => ∀ i, r.1 = some i → Ends d g' (i, r.2))
      (runEntered d inst opts) g := by
  refine Obeys.bind (execute_obeys hid hnext hf) fun g' r hr => ?_
  rintro i ⟨⟩
  exact hr

/-- A call goes on from the answer of its critical section. -/
theorem Call.entered {eng : Engine} {w : World} {workflow : String} {e : Env}
    (h : (w.enter eng e workflow opts).2 = .ok (d, inst)) (es : List Env) :
    (mk workflow opts (e :: es)).upTo eng w =
        Prog.upTo (World.exec eng) es (runEntered d inst opts) (w.enter eng e workflow opts).1 ∧
      (mk workflow opts (e :: es)).trace eng w =
        ⟨w, .enter workflow opts, e⟩ ::
          Prog.trace (World.exec eng) es (runEntered d inst opts)
            (w.enter eng e workflow opts).1 := by
  have h' : (World.exec eng (.enter workflow opts) e w).2 = .ok (d, inst) := h
  constructor
  · simp only [upTo, run, Prog.perform_bind, Prog.upTo, h']
    rfl
  · simp only [trace, run, Prog.perform_bind, Prog.trace, h']
    rfl

/-- When a call returns an instance, its ambiguous outcomes are kept if and only if each is the
first failure by name, and in a parallel group no error of the context as well. -/
theorem ambiguous_kept_iff (eng : Engine) (w : World) (c : Call) (d : Definition)
    (hd : eng.defs c.workflow = some d) (inst : Instance) (err : Option Fault)
    (hret : (c.upTo eng w).2 = some (some inst, err)) :
    (∀ f ∈ c.failures eng w, f.ambiguous = true →
      inst.status f.step = .reconcile ∧ inst.state = .requiresReconciliation) ↔
      ∀ f ∈ c.failures eng w, f.ambiguous = true →
        (∀ f' ∈ c.failures eng w, f.step ≤ f'.step) ∧
          (f.cancelled = true → (d.step f.step).parallelGroup = "") := by
  obtain ⟨workflow, opts, es⟩ := c
  cases es with
  | nil => cases hret
  | cons e es =>
    cases henter : (w.enter eng e workflow opts).2 with
    | error err' =>
      have hrefused : (World.exec eng (.enter workflow opts) e w).2 = .error err' := henter
      simp only [Call.upTo, run, Prog.perform_bind, Prog.upTo, hrefused] at hret
      cases es <;> cases hret
    | ok r =>
      obtain ⟨d', inst₀⟩ := r
      obtain ⟨-, hd', hstart⟩ := World.enter_ok henter
      obtain rfl : d' = d := Option.some.inj (hd'.symm.trans hd)
      obtain ⟨hupTo, htrace⟩ := Call.entered henter es
      rw [hupTo] at hret
      have hends := (runEntered_obeys (g := { id := opts.id e, lost := true })
        hstart.instanceID (.inl rfl) rfl).follow hret inst rfl
      unfold Call.failures
      rw [htrace]
      exact hends.reconciled

/-! ## Two failures in one batch -/

/-- The steps `a` and `b` in one group. -/
def groupEngine : Engine where
  defs _ := ((((define "w").step "a" true).step "b" true).parallelGroup "g" ["a", "b"]).build.toOption
  max := 256

/-- A run in which the environment decides about the actions of `a` and `b`. -/
def groupCall (a b : Env) : Call where
  workflow := "w"
  opts := { instanceID := "x" }
  env := List.replicate 11 {} ++ [a, {}, b] ++ List.replicate 20 {}

/-- What a call returns of an instance. -/
def Call.outcome (eng : Engine) (w : World) (c : Call) (names : List String) :
    Option (State × List StepStatus) :=
  (c.upTo eng w).2.bind fun r => r.1.map fun inst => (inst.state, names.map inst.status)

theorem ambiguous_kept_first :
    ∃ inst err,
      ((groupCall { result := { ambiguous := true } } { err := some { text := "boom" } }).upTo
        groupEngine { store := .empty }).2 = some (some inst, err) ∧
      inst.status "a" = .reconcile ∧ inst.state = .requiresReconciliation := by
  obtain ⟨d, hd⟩ := Option.isSome_iff_exists.mp
    (show (groupEngine.defs "w").isSome = true by decide +kernel)
  have hfs : (groupCall { result := { ambiguous := true } } { err := some { text := "boom" } }).failures
      groupEngine { store := .empty } =
        [{ step := "a", ambiguous := true, cancelled := false },
          { step := "b", ambiguous := false, cancelled := false }] := by decide +kernel
  generalize hc : groupCall { result := { ambiguous := true } } { err := some { text := "boom" } } = c
    at hfs
  have hsome : ((c.upTo groupEngine { store := .empty }).2.bind (·.1)).isSome = true := by
    rw [← hc]
    decide +kernel
  obtain ⟨inst, hinst⟩ := Option.isSome_iff_exists.mp hsome
  obtain ⟨⟨i, err⟩, hret, hi⟩ := Option.bind_eq_some_iff.mp hinst
  obtain rfl : i = some inst := hi
  refine ⟨inst, err, hret, ?_⟩
  have hiff := ambiguous_kept_iff groupEngine { store := .empty } c d
    (by rw [← hc]; exact hd) inst err hret
  rw [hfs] at hiff
  refine hiff.mpr ?_ _ List.mem_cons_self rfl
  intro f hf hamb
  rcases List.mem_cons.mp hf with rfl | hf
  · exact ⟨by decide, nofun⟩
  · obtain rfl := List.mem_singleton.mp hf
    cases hamb

/-- The ambiguous step is the second of its group, and the instance ends as failed. -/
theorem ambiguous_sibling_downgraded :
    (groupCall { err := some { text := "boom" } } { result := { ambiguous := true } }).failures
        groupEngine { store := .empty } =
      [{ step := "a", ambiguous := false, cancelled := false },
        { step := "b", ambiguous := true, cancelled := false }] ∧
    (groupCall { err := some { text := "boom" } } { result := { ambiguous := true } }).outcome
        groupEngine { store := .empty } ["a", "b"] =
      some (.failed, [.failed, .failed]) := by
  decide +kernel

end ShiftLock.Workflow
