import ShiftLock.Workflow.Spec
import Mathlib.Data.List.Lattice

/-!
# What the parallel executor does and returns

The parts of a batch, then one round of the loop, then the loop. A round that goes on has added to
the steps that are done, so that the fuel of `executeParallel` is enough (`parallelLoop_add_fuel`).
-/

namespace ShiftLock.Workflow

open Function
open Conc.Prog (Sat)

variable {i : Ident} {d : Definition} {inst : Instance} {opts : RunOptions}

/-! ## A batch -/

def assign (names : List String) (t : StepStatus) (s : String → StepStatus) :
    String → StepStatus := fun m => if m ∈ names then t else s m

theorem assign_nil (t : StepStatus) (s : String → StepStatus) : assign [] t s = s := by
  funext m
  simp [assign]

theorem assign_update (names : List String) (name : String) (t : StepStatus)
    (s : String → StepStatus) :
    assign names t (update s name t) = assign (name :: names) t s := by
  funext m
  by_cases hm : m = name
  · subst hm
    simp [assign]
  · simp [assign, hm]

variable {names done : List String} {s : String → StepStatus} {now : Time} {os : List Outcome}

theorem Progress.assign (h : ∀ m ∈ names, (s m).done = false) :
    Progress s (assign names .completed s) := by
  intro m
  unfold Workflow.assign
  split
  · rename_i hm
    simp [h m hm]
  · exact refl s m

/-- A member knows its own name. -/
def Prepared.Named (p : Prepared) : Prop := p.exec.step = p.name ∧ p.step.name = p.name

theorem prepareBatch_sat (h : inst.ident = i) :
    Sat Asks
      (fun r => r.1.ident = i ∧ r.1.status = assign names .running inst.status ∧
        r.2.map Prepared.name = names ∧ ∀ p ∈ r.2, p.Named)
      (prepareBatch d opts now names inst) := by
  induction names generalizing inst with
  | nil => exact ⟨h, (assign_nil _ _).symm, rfl, by simp⟩
  | cons name names ih =>
    refine (observeEpoch_sat (d.step name)).bind fun epoch _ => ?_
    refine Sat.bind (ih (by exact h)) fun r hr => ?_
    obtain ⟨hid, hstatus, hnames, hnamed⟩ := hr
    refine ⟨hid, ?_, congrArg (name :: ·) hnames, fun p hp => ?_⟩
    · rw [hstatus, status_setStep]
      exact assign_update names name .running inst.status
    · rcases List.mem_cons.mp hp with rfl | hp
      · exact ⟨rfl, d.step_name name⟩
      · exact hnamed p hp

theorem prepareBatch_state :
    Sat Asks (fun r => r.1.state = inst.state) (prepareBatch d opts now names inst) := by
  induction names generalizing inst with
  | nil => exact rfl
  | cons name names ih =>
    exact (observeEpoch_sat (d.step name)).bind fun epoch _ => Sat.bind ih fun r hr => hr

theorem prepareBatch_of (horder : ∀ m ∈ names, m ∈ d.order) :
    Sat Asks (fun r => ∀ p ∈ r.2, p.exec.Of d) (prepareBatch d opts now names inst) := by
  induction names generalizing inst with
  | nil => exact fun p hp => absurd hp List.not_mem_nil
  | cons name names ih =>
    obtain ⟨hname, hnames⟩ := List.forall_mem_cons.mp horder
    refine (observeEpoch_sat (d.step name)).bind fun epoch _ => Sat.bind (ih hnames) fun r hr => ?_
    exact List.forall_mem_cons.mpr ⟨⟨rfl, hname⟩, hr⟩

theorem goroutine_sat {p : Prepared} (h : inst.ident = i) (hp : p.exec.Of d) :
    Sat (Own d i) (fun o => o.p = p) (goroutine inst now p) := by
  refine Sat.perform trivial fun r => ?_
  cases r with
  | some err => rfl
  | none => exact (invoke_sat h hp).bind fun _ _ => rfl

theorem launch_sat {ps : List Prepared} (h : inst.ident = i)
    (hps : ∀ p ∈ ps, p.exec.Of d) :
    Sat (Own d i) (fun os => os.map Outcome.p = ps) (launch inst now ps) := by
  induction ps with
  | nil => rfl
  | cons p ps ih =>
    obtain ⟨hp, hps⟩ := List.forall_mem_cons.mp hps
    refine (goroutine_sat h hp).bind fun o ho => (ih hps).bind fun os hos => ?_
    simp only [Conc.Prog.pure_def]
    exact (List.map_cons ..).trans (by rw [ho, hos])

/-- Outcomes complete their steps, all of them if there is no failure. -/
theorem applyOutcomes_sat {fail : Option Outcome} (h : inst.ident = i) :
    Sat Asks
      (fun r => r.1.ident = i ∧ (∀ m, r.1.status m = inst.status m ∨ r.1.status m = .completed) ∧
        (r.2 = none → fail = none ∧
          r.1.status = assign (os.map (·.p.name)) .completed inst.status))
      (applyOutcomes os inst fail) := by
  induction os generalizing inst fail with
  | nil => exact ⟨h, fun m => .inl rfl, fun hnone => ⟨hnone, (assign_nil _ _).symm⟩⟩
  | cons o os ih =>
    unfold applyOutcomes
    split
    · refine (ih h).mono fun r hr => ⟨hr.1, hr.2.1, fun hnone => ?_⟩
      have hfail := (hr.2.2 hnone).1
      cases fail <;> simp at hfail
    · refine Sat.perform trivial fun now => (ih (by exact h)).mono fun r hr => ⟨hr.1, ?_, ?_⟩
      · intro m
        have hm := hr.2.1 m
        rw [status_complete] at hm
        by_cases heq : m = o.p.name
        · subst heq
          rw [update_self] at hm
          exact .inr (hm.elim id id)
        · rwa [update_of_ne heq] at hm
      · intro hnone
        obtain ⟨hfail, hstatus⟩ := hr.2.2 hnone
        refine ⟨hfail, ?_⟩
        rw [hstatus, status_complete]
        exact assign_update (os.map (·.p.name)) o.p.name .completed inst.status

variable {fail : Outcome} {inst' : Instance} {ran ready : List String} {scan : Scan} {fuel : Nat}

theorem failSiblings_sat (h : inst.ident = i) :
    Sat Asks (fun r => r.ident = i ∧ ∀ m, r.status m = inst.status m ∨ r.status m = .failed)
      (failSiblings fail os inst) := by
  induction os generalizing inst with
  | nil => exact ⟨h, fun m => .inl rfl⟩
  | cons o os ih =>
    unfold failSiblings
    dsimp only
    split
    · refine Sat.perform trivial fun now => (ih (by exact h)).mono fun r hr => ⟨hr.1, fun m => ?_⟩
      have hm := hr.2 m
      rw [status_setStep] at hm
      by_cases heq : m = o.p.name
      · subst heq
        rw [update_self] at hm
        exact .inr (hm.elim id id)
      · rwa [update_of_ne heq] at hm
    · exact ih h

theorem blockedMember_sat : Sat Asks (fun _ => True) (blockedMember d names) := by
  induction names with
  | nil => trivial
  | cons name names ih =>
    refine (blocked_sat _).bind fun b _ => ?_
    cases b with
    | true => trivial
    | false => exact ih

theorem failBatch_sat (h : inst.ident = i) :
    Sat (Own d i) (fun r => r.1.ident = i ∧ r.2 ≠ none) (failBatch d inst fail os opts) := by
  refine (own_of_asks (failSiblings_sat h)).bind fun inst' h' => ?_
  refine Sat.bind (persist_sat h'.1) fun r hr => ?_
  dsimp only
  split
  · split
    · exact halt_sat hr.1
    · exact handleStepFailure_sat hr.1
  · exact handleStepFailure_sat hr.1

theorem runParallelBatch_sat (h : inst.ident = i)
    (hnames : ∀ m ∈ names, m ∈ d.order ∧ (inst.status m).done = false) :
    Sat (Own d i)
      (fun r => r.1.ident = i ∧ (r.2 = none → Finished names inst.status r.1.status))
      (runParallelBatch d inst names opts) := by
  refine (own_of_asks blockedMember_sat).bind fun b _ => ?_
  cases b with
  | some name => exact (halt_sat h).mono fun r hr => ⟨hr.1, fun hnone => absurd hnone hr.2⟩
  | none =>
    refine Sat.perform trivial fun now => ?_
    refine (own_of_asks ((prepareBatch_sat h).and (prepareBatch_of fun m hm => (hnames m hm).1))).bind fun r hr => ?_
    obtain ⟨⟨hid, hstatus, hpreps, -⟩, hflow⟩ := hr
    refine Sat.bind (persist_sat hid) fun r' hr' => ?_
    obtain ⟨inst', err⟩ := r'
    obtain ⟨hid', hstatus'⟩ := hr'
    cases err with
    | some err => exact ⟨hid', nofun⟩
    | none =>
      refine Sat.perform trivial fun order => ?_
      refine (launch_sat hid' fun p hp => hflow p (order.2.mem_iff.mp hp)).bind fun os hos => ?_
      refine (own_of_asks (applyOutcomes_sat hid')).bind fun ra hra => ?_
      refine Sat.bind (persist_sat hra.1) fun rp hrp => ?_
      dsimp only
      split
      · rename_i hnone
        refine ⟨hrp.1, fun _ => ?_⟩
        -- The outcomes are those of the members, in another order.
        have hmem : ∀ m, m ∈ (sortOutcomes os).map (·.p.name) ↔ m ∈ names := by
          intro m
          have hsort : ((sortOutcomes os).map (·.p.name)).Perm (os.map (·.p.name)) :=
            (List.perm_insertionSort _ os).map _
          have horder : (os.map (·.p.name)).Perm names := by
            have hmap : os.map (·.p.name) = order.1.map Prepared.name := by
              rw [← hos, List.map_map]
              rfl
            rw [hmap, ← hpreps]
            exact order.2.map _
          exact (hsort.trans horder).mem_iff
        have hfinal : rp.1.status = assign names .completed inst.status := by
          rw [hrp.2, (hra.2.2 hnone).2, hstatus', hstatus]
          funext m
          simp only [assign, hmem]
          split <;> rfl
        rw [hfinal]
        exact ⟨.assign fun m hm => (hnames m hm).2, fun m hm => by simp [assign, hm, StepStatus.done]⟩
      · exact (failBatch_sat hrp.1).mono fun r hr => ⟨hr.1, fun hnone => absurd hnone hr.2⟩

/-! ## A round -/

/-- The steps that are done, as the loop knows them: they are steps, and done in the checkpoint. -/
structure DoneInv (d : Definition) (inst : Instance) (done : List String) : Prop where
  nodup : done.Nodup
  mem : ∀ m ∈ done, m ∈ d.order ∧ (inst.status m).done = true

/-- The steps that are ready: steps, and not done. -/
structure ReadyInv (d : Definition) (inst : Instance) (ready : List String) : Prop where
  nodup : ready.Nodup
  mem : ∀ m ∈ ready, m ∈ d.order ∧ (inst.status m).done = false

theorem DoneInv.progress (h : DoneInv d inst done) (hprog : Progress inst.status inst'.status) :
    DoneInv d inst' done :=
  ⟨h.nodup, fun m hm => ⟨(h.mem m hm).1, hprog.done (h.mem m hm).2⟩⟩

theorem DoneInv.union (h : DoneInv d inst done)
    (hran : ∀ m ∈ ran, m ∈ d.order ∧ (inst.status m).done = true) :
    DoneInv d inst (ran ∪ done) := by
  refine ⟨h.nodup.union ran, fun m hm => ?_⟩
  rcases List.mem_union_iff.mp hm with hm | hm
  · exact hran m hm
  · exact h.mem m hm

/-- A scan in which the loop's invariants hold. -/
structure ScanInv (d : Definition) (i : Ident) (s : String → StepStatus) (scan : Scan) : Prop where
  ident : scan.inst.ident = i
  progress : Progress s scan.inst.status
  done : DoneInv d scan.inst scan.done
  ready : ReadyInv d scan.inst scan.ready

theorem scanReady_sat (h : ScanInv d i s scan) (hnodup : names.Nodup)
    (horder : ∀ m ∈ names, m ∈ d.order) (hfresh : ∀ m ∈ names, m ∉ scan.ready) :
    Sat (Own d i)
      (fun r => r.1.inst.ident = i ∧
        (r.2 = none → ScanInv d i s r.1 ∧ scan.done.length ≤ r.1.done.length))
      (scanReady d opts names scan) := by
  induction names generalizing scan with
  | nil => exact ⟨h.ident, fun _ => ⟨h, Nat.le_refl _⟩⟩
  | cons name names ih =>
    obtain ⟨hname, hnodup⟩ := List.nodup_cons.mp hnodup
    have horder' := fun m hm => horder m (List.mem_cons_of_mem name hm)
    have hfresh' := fun m hm => hfresh m (List.mem_cons_of_mem name hm)
    unfold scanReady
    split
    · exact ih h hnodup horder' hfresh'
    · refine Sat.bind (prepareStepResume_sat h.ident) fun r hr => ?_
      obtain ⟨inst, res⟩ := r
      obtain ⟨hid, hres⟩ := hr
      cases res with
      | error err => exact ⟨hid, nofun⟩
      | ok skip =>
        cases skip with
        | true =>
          have hspec := hres true rfl
          have hprog := hspec.progress
          obtain ⟨hsame, hdone⟩ := hspec
          have hdone' : DoneInv d inst (scan.done.insert name) := by
            refine ⟨h.done.nodup.insert, fun m hm => ?_⟩
            rcases List.mem_insert_iff.mp hm with rfl | hm
            · exact ⟨horder m List.mem_cons_self, hprog.done hdone⟩
            · exact (h.done.progress hprog).mem m hm
          have hready : ReadyInv d inst scan.ready := by
            refine ⟨h.ready.nodup, fun m hm => ?_⟩
            have hstatus : inst.status = scan.inst.status := hsame
            rw [hstatus]
            exact h.ready.mem m hm
          have hscan : ScanInv d i s { scan with inst, done := scan.done.insert name } :=
            ⟨hid, h.progress.trans hprog, hdone', hready⟩
          refine (ih hscan hnodup horder' hfresh').mono fun r hr =>
            ⟨hr.1, fun hnone => ⟨(hr.2 hnone).1, ?_⟩⟩
          exact Nat.le_trans List.length_le_length_insert (hr.2 hnone).2
        | false =>
          have hspec := hres false rfl
          have hprog := hspec.progress
          obtain ⟨hnot, t, ht, heq⟩ := hspec
          have hready : ReadyInv d inst (scan.ready ++ [name]) := by
            refine ⟨?_, fun m hm => ?_⟩
            · refine List.nodup_append.mpr ⟨h.ready.nodup, List.nodup_singleton name, ?_⟩
              rintro a ha b hb rfl
              exact hfresh a (by simp_all) ha
            · rw [heq]
              rcases List.mem_append.mp hm with hm | hm
              · have hne : m ≠ name := fun h => hfresh name List.mem_cons_self (h ▸ hm)
                rw [update_of_ne hne]
                exact h.ready.mem m hm
              · obtain rfl := List.mem_singleton.mp hm
                rw [update_self]
                exact ⟨horder m List.mem_cons_self, ht⟩
          have hscan : ScanInv d i s { scan with inst, ready := scan.ready ++ [name] } :=
            ⟨hid, h.progress.trans hprog, h.done.progress hprog, hready⟩
          refine ih hscan hnodup horder' fun m hm hmem => ?_
          rcases List.mem_append.mp hmem with hmem | hmem
          · exact hfresh' m hm hmem
          · exact hname (List.mem_singleton.mp hmem ▸ hm)

theorem firstGroup_mem (h : firstGroup d ready ≠ "") :
    ∃ name ∈ ready, (d.step name).parallelGroup = firstGroup d ready := by
  -- The fold returns what it started from or a member of the list.
  have hfold : ∀ (gs : List String) (g₀ : String),
      gs.foldl (fun gname g => if gname = "" ∨ g < gname then g else gname) g₀ = g₀ ∨
        gs.foldl (fun gname g => if gname = "" ∨ g < gname then g else gname) g₀ ∈ gs := by
    intro gs
    induction gs with
    | nil => exact fun g₀ => .inl rfl
    | cons g gs ih =>
      intro g₀
      rw [List.foldl_cons]
      split
      · rcases ih g with heq | hmem
        · rw [heq]
          exact .inr List.mem_cons_self
        · exact .inr (List.mem_cons_of_mem _ hmem)
      · exact (ih g₀).imp_right (List.mem_cons_of_mem _)
  rcases hfold ((ready.map fun name => (d.step name).parallelGroup).filter (· ≠ "")) "" with heq | hmem
  · exact absurd heq h
  · exact List.mem_map.mp (List.mem_filter.mp hmem).1

/-- A round that goes on has run some of the ready steps. -/
theorem runReady_sat (h : inst.ident = i) (hready : ReadyInv d inst ready) (hne : ready ≠ []) :
    Sat (Own d i)
      (fun r => r.1.1.ident = i ∧
        (r.1.2 = none → Progress inst.status r.1.1.status ∧ r.2 ≠ [] ∧
          ∀ m ∈ r.2, m ∈ ready ∧ (r.1.1.status m).done = true))
      (runReady d inst ready opts) := by
  unfold runReady
  dsimp only
  split
  · rename_i hgroup
    have hbatch : ∀ m ∈ ready.filter fun name => (d.step name).parallelGroup = firstGroup d ready,
        m ∈ ready := fun m hm => (List.mem_filter.mp hm).1
    have hopen := fun m hm => hready.mem m (hbatch m hm)
    refine (runParallelBatch_sat h hopen).bind fun r hr => ⟨hr.1, fun hnone => ?_⟩
    obtain ⟨hprog, hdone⟩ := hr.2 hnone
    refine ⟨hprog, ?_, fun m hm => ?_⟩
    · obtain ⟨name, hname, heq⟩ := firstGroup_mem hgroup
      have hmem : name ∈ ready.filter fun name => (d.step name).parallelGroup = firstGroup d ready :=
        List.mem_filter.mpr ⟨hname, by simpa using heq⟩
      exact List.ne_nil_of_mem (List.mem_filter.mpr ⟨hmem, hdone name hmem⟩)
    · obtain ⟨hm, hdone'⟩ := List.mem_filter.mp hm
      exact ⟨hbatch m hm, hdone'⟩
  · obtain ⟨name, names, rfl⟩ := List.exists_cons_of_ne_nil hne
    have hmem : name ∈ name :: names := List.mem_cons_self
    obtain ⟨horder, hopen⟩ := hready.mem name hmem
    refine (guardedStep_sat h horder hopen).bind fun r hr => ⟨hr.1, fun hnone => ?_⟩
    obtain ⟨hprog, hdone⟩ := hr.2 hnone
    refine ⟨hprog, List.cons_ne_nil _ _, fun m hm => ?_⟩
    obtain rfl := List.mem_singleton.mp hm
    exact ⟨hmem, hdone⟩

theorem noneReady_sat (h : inst.ident = i) :
    Sat (Own d i) (fun r => r.1.ident = i ∧ r.2 ≠ none) (noneReady d inst done) := by
  unfold noneReady
  dsimp only
  split
  · split
    · exact halt_sat h
    · exact halt_sat h
  · exact ⟨h, Option.some_ne_none _⟩

/-! ## The loop -/

/-- All steps are done when there are as many as there are steps. -/
theorem DoneInv.all (h : DoneInv d inst done) (hlen : d.order.length ≤ done.length) :
    ∀ m ∈ d.order, (inst.status m).done = true := by
  have hperm : done.Perm d.order :=
    (h.nodup.subperm fun m hm => (h.mem m hm).1).perm_of_length_le hlen
  exact fun m hm => (h.mem m (hperm.mem_iff.mpr hm)).2

theorem ScanInv.start (h : inst.ident = i) (hprog : Progress s inst.status)
    (hdone : DoneInv d inst done) : ScanInv d i s { inst, done } :=
  ⟨h, hprog, hdone, List.nodup_nil, by simp⟩

/-- What a round that goes on leaves for the next one. -/
theorem ScanInv.next (h : ScanInv d i s scan) (hprog : Progress scan.inst.status inst'.status)
    (hne : ran ≠ []) (hran : ∀ m ∈ ran, m ∈ scan.ready ∧ (inst'.status m).done = true) :
    Progress s inst'.status ∧ DoneInv d inst' (ran ∪ scan.done) ∧
      scan.done.length < (ran ∪ scan.done).length := by
  refine ⟨h.progress.trans hprog, (h.done.progress hprog).union fun m hm => ?_, ?_⟩
  · exact ⟨(h.ready.mem m (hran m hm).1).1, (hran m hm).2⟩
  · -- A ready step was not done before.
    obtain ⟨m, ms, rfl⟩ := List.exists_cons_of_ne_nil hne
    have hready := (h.ready.mem m (hran m List.mem_cons_self).1).2
    have hnot : m ∉ scan.done := by
      intro hm
      rw [(h.done.mem m hm).2] at hready
      cases hready
    have hsub : (m :: scan.done).Subperm ((m :: ms) ∪ scan.done) := by
      refine (List.nodup_cons.mpr ⟨hnot, h.done.nodup⟩).subperm fun k hk => ?_
      rcases List.mem_cons.mp hk with rfl | hk
      · exact List.mem_union_left List.mem_cons_self _
      · exact List.mem_union_right _ hk
    exact hsub.length_le

theorem parallelLoop_sat (h : inst.ident = i) (hprog : Progress s inst.status)
    (hdone : DoneInv d inst done) :
    Sat (Own d i) (fun r => r.1.ident = i ∧ (r.2 = none → Finished d.order s r.1.status))
      (parallelLoop d opts fuel inst done) := by
  induction fuel generalizing inst done with
  | zero => exact ⟨h, nofun⟩
  | succ fuel ih =>
    unfold parallelLoop
    split
    · refine Sat.perform trivial fun r => ?_
      cases r with
      | some err => exact (halt_sat h).mono fun r hr => ⟨hr.1, fun hnone => absurd hnone hr.2⟩
      | none =>
        refine Sat.bind (scanReady_sat (.start h hprog hdone) d.order_nodup (fun m hm => hm)
          (by simp)) fun r hr => ?_
        obtain ⟨scan, err⟩ := r
        cases err with
        | some err => exact ⟨hr.1, nofun⟩
        | none =>
          obtain ⟨hscan, -⟩ := hr.2 rfl
          dsimp only
          split
          · exact (noneReady_sat hscan.ident).mono fun r hr =>
              ⟨hr.1, fun hnone => absurd hnone hr.2⟩
          · rename_i hne
            refine Sat.bind (runReady_sat hscan.ident hscan.ready hne) fun r hr => ?_
            obtain ⟨⟨inst', err⟩, ran⟩ := r
            cases err with
            | some err => exact ⟨hr.1, nofun⟩
            | none =>
              obtain ⟨hprog', hne', hran⟩ := hr.2 rfl
              obtain ⟨hprog'', hdone', -⟩ := hscan.next hprog' hne' hran
              exact ih hr.1 hprog'' hdone'
    · rename_i hlen
      refine (persist_sat (by exact h)).mono fun r hr => ⟨hr.1, fun _ => ?_⟩
      rw [hr.2]
      exact ⟨hprog, hdone.all (by omega)⟩

/-- With a round for each step that is not done and one more, more fuel makes no difference. -/
theorem parallelLoop_add_fuel (hdone : DoneInv d inst done)
    (hfuel : d.order.length ≤ done.length + fuel) (extra : Nat) :
    parallelLoop d opts (fuel + 1 + extra) inst done = parallelLoop d opts (fuel + 1) inst done := by
  induction fuel generalizing inst done with
  | zero =>
    have hlen : ¬ done.length < d.order.length := by omega
    rw [show 0 + 1 + extra = extra + 1 by omega]
    simp only [parallelLoop, hlen, if_false]
  | succ fuel ih =>
    rw [show fuel + 1 + 1 + extra = (fuel + 1 + extra) + 1 by omega]
    rw [parallelLoop, parallelLoop]
    split
    · refine congrArg (perform Act.ctxErr >>= ·) (funext fun r => ?_)
      cases r with
      | some err => rfl
      | none =>
        refine Sat.bind_congr (scanReady_sat (.start rfl (.refl _) hdone) d.order_nodup
          (fun m hm => hm) (by simp)) fun r hr => ?_
        obtain ⟨scan, err⟩ := r
        cases err with
        | some err => rfl
        | none =>
          obtain ⟨hscan, hle⟩ := hr.2 rfl
          dsimp only at hle ⊢
          split
          · rfl
          · rename_i hne
            refine Sat.bind_congr (runReady_sat hscan.ident hscan.ready hne) fun r hr => ?_
            obtain ⟨⟨inst', err⟩, ran⟩ := r
            cases err with
            | some err => rfl
            | none =>
              obtain ⟨hprog, hne', hran⟩ := hr.2 rfl
              obtain ⟨-, hdone', hlt⟩ := hscan.next hprog hne' hran
              dsimp only at hlt
              exact ih hdone' (by omega)
    · rfl

theorem DoneInv.start (d : Definition) (inst : Instance) :
    DoneInv d inst (d.order.filter fun name => (inst.status name).done) :=
  ⟨d.order_nodup.filter _, fun _ hm => List.mem_filter.mp hm⟩

theorem executeParallel_sat (h : inst.ident = i) :
    Sat (Own d i) (fun r => r.1.ident = i ∧ (r.2 = none → Finished d.order inst.status r.1.status))
      (executeParallel d opts inst) :=
  parallelLoop_sat h (.refl _) (.start d inst)

/-- The loop of `executeParallel` does not run out of fuel. -/
theorem executeParallel_fuel (d : Definition) (opts : RunOptions) (inst : Instance) (extra : Nat) :
    parallelLoop d opts (d.order.length + 1 + extra) inst
        (d.order.filter fun name => (inst.status name).done) =
      executeParallel d opts inst :=
  parallelLoop_add_fuel (.start d inst) (by omega) extra

/-! ## `Run` -/

theorem validateSteps_sat : Sat Asks (fun _ => True) (validateSteps d names) := by
  induction names with
  | nil => trivial
  | cons name names ih =>
    unfold validateSteps
    split
    · exact ih
    · refine (validateCaps_sat _).bind fun r _ => ?_
      cases r with
      | some err => trivial
      | none => exact ih

/-- A run that returns without an error has finished all steps of the definition. -/
theorem execute_sat (h : inst.ident = i) :
    Sat (Own d i) (fun r => r.1.ident = i ∧ (r.2 = none → Finished d.order inst.status r.1.status))
      (execute d inst opts) := by
  refine Sat.bind (persist_sat (by exact h)) fun r hr => ?_
  obtain ⟨inst', err⟩ := r
  obtain ⟨hid, hstatus⟩ := hr
  cases err with
  | some err => exact ⟨hid, nofun⟩
  | none =>
    refine (own_of_asks validateSteps_sat).bind fun r _ => ?_
    cases r with
    | some err => exact (halt_sat hid).mono fun r hr => ⟨hr.1, fun hnone => absurd hnone hr.2⟩
    | none =>
      refine Sat.bind (persist_sat (by exact hid)) fun r hr => ?_
      obtain ⟨inst'', err⟩ := r
      have hsame : inst.status = inst''.status := (hr.2.trans hstatus).symm
      rw [hsame]
      dsimp only
      split
      · exact executeParallel_sat hr.1
      · exact executeSequential_sat hr.1 fun _ h => h

end ShiftLock.Workflow
