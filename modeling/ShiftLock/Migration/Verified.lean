import ShiftLock.Migration.Once

/-!
# A migration completes unverified

`SetPhase` moves a run from copying into verifying, after which `Start` goes on with the cutover, and
from paused into any phase. No step of the verification has run then (`completed_unverified`).

In every sequence of calls without dry runs in which `SetPhase` moves no run from copying or paused
into verifying, cutover or completed, a run is completed only after a pass of the verification in
which every step returned nil (`completed_verified`): a run in one of these phases has been verified,
and so has one that would be resumed in one of them (`Sound.Rest`).
-/

namespace ShiftLock.Migration

open Conc

/-- A pass of the verification: every step that is not nil, in order, with the result nil. -/
def Definition.pass (d : Definition) : List (Hook × Option String) :=
  (d.hooks .verifying).map fun hook => (hook, none)

def Passed (d : Definition) (w : World) : Prop := ∃ l₁ l₂, w.log = l₁ ++ d.pass ++ l₂

def Phase.past : Phase → Bool
  | .verifying | .cutover | .completed => true
  | _ => false

/-- `SetPhase` moves no run from copying or paused past the verification. -/
def keepsOrder (a : Act) (_ : Env) (w : World) : Bool :=
  match a with
  | .setPhase p => !p.past || decide (w.run.phase ≠ .copying ∧ w.run.phase ≠ .paused)
  | _ => true

/-- A call without a dry run. -/
def Task.wet : Task → Bool
  | .start opts => !opts.resume && !opts.dryRun
  | _ => true

theorem Passed.returned {d : Definition} {w : World} (h : Passed d w) (hook : Hook) (err : Option String) :
    Passed d (w.returned hook err) := by
  obtain ⟨l₁, l₂, h⟩ := h
  exact ⟨l₁, l₂ ++ [(hook, err)], by simp [h]⟩

/-- `SetPhase` comes past the verification from copying or paused only, or is past it already. -/
theorem past_of_allowed {source target : Phase} (h : allowedTransition source target = true)
    (htarget : target.past = true) (hcopying : source ≠ .copying) (hpaused : source ≠ .paused) :
    source.past = true := by
  unfold allowedTransition at h
  split at h
  · rename_i heq
    rw [heq]
    exact htarget
  · cases target with
    | verifying | cutover | completed =>
      cases source <;> simp_all [order, List.idxOf?, List.findIdx?_cons, Phase.past]
    | _ => cases htarget

namespace Sound

/-- The hooks up to `todo` have returned nil, one after another. -/
def Passing (d : Definition) (w : World) (todo : List Hook) : Prop :=
  ∃ l done, w.log = l ++ done.map (fun hook => (hook, none)) ∧ done ++ todo = d.hooks .verifying

/-- What holds between two calls. -/
structure Rest (d : Definition) (w : World) : Prop where
  phase : w.run.phase.past = true → Passed d w
  resume : w.run.checkpoint.resumeFrom.past = true → Passed d w
  wet : w.run.dryRun = false

/-- What holds during a call. -/
def Busy (d : Definition) (w : World) : Stage → Prop
  | .idle | .failing => Rest d w
  | .called t => t.wet = true ∧ Rest d w
  | .resuming opts | .ready opts | .entered opts => Rest d w ∧ opts.dryRun = false
  | .looping opts rest => Rest d w ∧ opts.dryRun = false ∧ (.verifying ∉ rest → Passed d w)
  | .advancing opts p todo rest => Rest d w ∧ opts.dryRun = false ∧
    (p = .verifying → Passing d w todo) ∧ (.verifying ∉ p :: rest → Passed d w)
  | .skipping _ _ => False
  | .cutting opts _ => Rest d w ∧ opts.dryRun = false ∧ Passed d w

variable {d : Definition} {w w' : World}

theorem Passing.passed (h : Passing d w []) : Passed d w := by
  obtain ⟨l, done, hlog, hdone⟩ := h
  rw [List.append_nil] at hdone
  exact ⟨l, [], by rw [hlog, hdone, List.append_nil]; rfl⟩

theorem Rest.returned (h : Rest d w) (hook : Hook) (err : Option String) :
    Rest d (w.returned hook err) :=
  ⟨fun hp => (h.phase hp).returned hook err, fun hp => (h.resume hp).returned hook err, h.wet⟩

theorem rest_pause (h : Rest d w) (now : Time) (reason : String) :
    Rest d (w.onRun (w.run.pause now reason).1) := by
  unfold Run.pause
  split
  · exact h
  · exact ⟨fun hp => (by cases hp), h.phase, h.wet⟩

theorem rest_resume (h : Rest d w) (now : Time) : Rest d (w.onRun (w.run.resume now).1) := by
  unfold Run.resume
  split
  · exact h
  · refine ⟨fun hp => ?_, h.resume, h.wet⟩
    dsimp only [World.onRun_run] at hp
    split at hp
    · cases hp
    · exact h.resume hp

theorem rest_compensate (h : Rest d w) (now : Time) (reason : String) :
    Rest d (w.onRun (w.run.compensate now reason).1) := by
  unfold Run.compensate
  split
  · exact h
  · exact ⟨fun hp => (by cases hp), h.resume, h.wet⟩

theorem rest_reportCopy (h : Rest d w) (now : Time) (copied total : Int) :
    Rest d (w.onRun (w.run.reportCopy now copied total).1) := by
  unfold Run.reportCopy
  split
  · exact h
  · exact ⟨h.phase, h.resume, h.wet⟩

theorem rest_setPhase (h : Rest d w) {e : Env} {p : Phase}
    (horder : keepsOrder (.setPhase p) e w = true) :
    Rest d (w.onRun (w.run.setPhase e.now p).1) := by
  unfold Run.setPhase
  split
  · rename_i hallowed
    refine ⟨fun hp => h.phase ?_, h.resume, h.wet⟩
    have hp : p.past = true := hp
    simp only [keepsOrder, hp, Bool.not_true, Bool.false_or, decide_eq_true_eq] at horder
    exact past_of_allowed hallowed hp horder.1 horder.2
  · exact h

/-- The last section of `advanceTo`. -/
theorem busy_enter {opts : StartOptions} {p : Phase} {rest : List Phase}
    (hsuffix : p :: rest <:+ phases) (h : Busy d w (.advancing opts p [] rest)) (now : Time) :
    Busy d (w.onRun (w.run.enter now p opts.pauseAfter).1)
      (if (w.run.enter now p opts.pauseAfter).2 then .idle else .looping opts rest) := by
  obtain ⟨hrest, hdry, hpassing, hpassed⟩ := h
  have hpast : p.past = true → Passed d w := by
    intro hp
    cases p with
    | verifying => exact (hpassing rfl).passed
    | cutover =>
      apply hpassed
      rw [suffix_cutover hsuffix]
      decide
    | completed =>
      apply hpassed
      rw [suffix_completed hsuffix]
      decide
    | _ => cases hp
  unfold Run.enter
  split
  · exact ⟨fun hp => (by cases hp), hpast, hrest.wet⟩
  · refine ⟨⟨hpast, fun hp => (by cases hp), hrest.wet⟩, hdry, fun hnot => ?_⟩
    by_cases hp : p = .verifying
    · subst hp
      exact (hpassing rfl).passed
    · exact hpassed (by simp [Ne.symm hp, hnot])

/-- The phases that `Start` goes through from phase `cur` contain the verification, unless the run is
past it. -/
theorem verifying_mem_phasesFrom {cur : Phase} (inclusive : Bool) (h : cur.past = false) :
    .verifying ∈ phasesFrom cur inclusive := by
  unfold phasesFrom
  cases cur with
  | verifying | cutover | completed => cases h
  | other text => simp [phases, List.idxOf?, List.findIdx?_cons]
  | _ => cases inclusive <;> decide

/-- An action keeps the invariant of a call. -/
theorem Busy.goes {e : Env} {a : Act} {g g' : Stage} (h : Busy d w g)
    (hleft : g.left <:+ phases) (hgoes : Goes d e w a g w' g')
    (horder : keepsOrder a e w = true) : Busy d w' g' := by
  cases hgoes with
  | stay => exact h
  | refuse opts dry hdry =>
    rw [h.1.wet, h.2] at hdry
    exact ⟨h.1.phase, h.1.resume, by simpa using hdry⟩
  | start opts _ _ => exact ⟨⟨h.1.phase, h.1.resume, by simp [h.1.wet, h.2]⟩, h.2⟩
  | leave _ _ hg =>
    rcases hg with ⟨opts, rfl⟩ | ⟨opts, rfl⟩ | rfl | ⟨opts, p, rest, rfl, -⟩
    · exact h.1
    · exact h.1
    · exact h.2
    · exact h.1
  | stop _ _ ha =>
    rcases ha with ⟨-, -, opts, rest, rfl⟩ | ⟨-, ⟨opts, p, todo, rest, rfl⟩ | ⟨opts, rest, rfl⟩⟩
    · exact h.1
    · exact h.1
    · exact h.elim
  | read opts =>
    refine ⟨h.1, h.2, fun hnot => h.1.phase ?_⟩
    by_contra hpast
    exact hnot (verifying_mem_phasesFrom _ (by simpa using hpast))
  | pass opts p rest _ =>
    refine ⟨h.1, h.2.1, fun hp => ?_, h.2.2⟩
    subst hp
    exact ⟨w.log, [], by simp, rfl⟩
  | skip opts todo rest hdry =>
    rw [h.1.wet, h.2.1] at hdry
    simp at hdry
  | skipped opts rest => exact h.elim
  | seed total copiedSeed opts p todo rest => exact ⟨⟨h.1.phase, h.1.resume, h.1.wet⟩, h.2⟩
  | verified step run opts p todo rest =>
    obtain ⟨hrest, hdry, hpassing, hpassed⟩ := h
    refine ⟨hrest.returned _ _, hdry, fun hp => ?_, fun hnot => (hpassed hnot).returned _ _⟩
    obtain ⟨l, done, hlog, hdone⟩ := hpassing hp
    exact ⟨l, done ++ [.verify step], by simp [hlog], by simp [← hdone]⟩
  | rejected step run text opts p todo rest => exact h.1.returned _ _
  | cut run opts rest =>
    obtain ⟨hrest, hdry, -, hpassed⟩ := h
    refine ⟨hrest, hdry, hpassed ?_⟩
    rw [suffix_cutover hleft]
    decide
  | done opts rest =>
    obtain ⟨hrest, hdry, hpassed⟩ := h
    exact ⟨hrest.returned _ _, hdry, fun hp => (by cases hp), fun _ => hpassed.returned _ _⟩
  | broken text wraps opts rest =>
    have hrest := h.1.returned .cutover (some text)
    unfold Stage.ended
    split <;> exact hrest
  | enter opts p rest => exact busy_enter hleft h e.now
  | fail msg => exact ⟨fun hp => (by cases hp), h.resume, h.wet⟩
  | reportCopy copied total => exact rest_reportCopy h.2 e.now copied total
  | pause reason => exact rest_pause h.2 e.now reason
  | resume opts hpaused hdry _ => exact ⟨rest_resume h.2 e.now, hdry.trans h.2.wet⟩
  | compensate reason => exact rest_compensate h.2 e.now reason
  | setPhase phase => exact rest_setPhase h.2 horder

theorem rule (d : Definition) :
    (system d).Rule (monitor d) Task.stage Ends Task.wet keepsOrder (Rest d) fun w g =>
      g.left <:+ phases ∧ Busy d w g where
  obeys := code_obeys d
  fork _ _ := rfl
  call t w ht h := by
    cases t with
    | start opts =>
      have hopts : opts.resume = false ∧ opts.dryRun = false := by simpa [Task.wet] using ht
      exact ⟨List.nil_suffix, h, hopts.2⟩
    | _ => exact ⟨List.nil_suffix, rfl, h⟩
  act a e w g ha horder h := ⟨(goes ha e w).left h.1, h.2.goes h.1 (goes ha e w) horder⟩
  jump t t' w g hends h := by
    cases t' with
    | start opts =>
      obtain rfl : g = .resuming opts := hends
      exact ⟨List.nil_suffix, h.2⟩
    | resume =>
      obtain rfl : g = .idle := hends
      exact ⟨List.nil_suffix, rfl, h.2⟩
    | _ => exact hends.elim
  ret t x w g hends h := by
    obtain rfl : g = .idle := hends
    exact h.2
  rest x := x.elim
  busy x := x.elim

/-- The invariant between two calls holds in every state. -/
theorem Busy.rest {g : Stage} (h : Busy d w g) : Rest d w := by
  cases g with
  | idle | failing => exact h
  | called t => exact h.2
  | skipping opts rest => exact h.elim
  | _ => exact h.1

end Sound

/-- A move that calls a hook does not change the run, and the others do not change the log. -/
theorem step_run_or_log (d : Definition) (c : State) (x : Move Env Empty Task) :
    ((system d).step c x).shared.run = c.shared.run ∨
      ((system d).step c x).shared.log = c.shared.log := by
  rcases (system d).step_shared c x with h | ⟨y, -, -⟩ | ⟨u, e, th, a, k, -, -, -, h⟩
  · exact .inl (congrArg World.run h)
  · exact y.elim
  · rw [h]
    cases a with
    | verify step run | cutoverEnd => exact .inl rfl
    | _ => exact .inr rfl

/-- **A run is completed only after it has been verified**, in every sequence of calls without dry
runs in which `SetPhase` moves no run from copying or paused past the verification. -/
theorem completed_verified {d : Definition} {xs : Schedule}
    (hcalls : ∀ t, Move.start t ∈ xs → t.wet = true)
    (hturn : Conc.Run.Meets (system d).step Conc.Config.inTurn { shared := {} } xs = true)
    (horder : Conc.Run.Meets (system d).step (Conc.Config.onAct fun _ => keepsOrder)
      { shared := {} } xs = true) {i : Nat} (hi : i ≤ xs.length)
    (hcompleted : (stateAt d xs i).shared.run.phase = .completed) :
    ∃ j < i, (stateAt d xs j).shared.run.phase ≠ .completed ∧ Passed d (stateAt d xs j).shared := by
  have hrest : ∀ j ≤ xs.length, Sound.Rest d (stateAt d xs j).shared := by
    intro j hj
    rcases (Sound.rule d).holds hcalls hturn horder ⟨fun h => (by cases h), fun h => (by cases h), rfl⟩
      hj with h | ⟨g, h⟩
    · exact h
    · exact h.2.rest
  induction i with
  | zero => cases hcompleted
  | succ i ih =>
    have hlt : i < xs.length := hi
    by_cases hbefore : (stateAt d xs i).shared.run.phase = .completed
    · obtain ⟨j, hj, h⟩ := ih (Nat.le_of_lt hlt) hbefore
      exact ⟨j, Nat.lt_succ_of_lt hj, h⟩
    · -- the move that completes the run calls no hook
      refine ⟨i, Nat.lt_succ_self i, hbefore, ?_⟩
      obtain ⟨l₁, l₂, hlog⟩ := (hrest (i + 1) hi).phase (by rw [hcompleted]; rfl)
      have hsucc : stateAt d xs (i + 1) = (system d).step (stateAt d xs i) xs[i] :=
        Run.stateAt_succ (List.getElem?_eq_getElem hlt)
      rw [hsucc] at hcompleted hlog
      rcases step_run_or_log d (stateAt d xs i) xs[i] with hrun | hsame
      · rw [hrun] at hcompleted
        exact absurd hcompleted hbefore
      · exact ⟨l₁, l₂, hsame.symm.trans hlog⟩

/-! ### Samples -/

def Definition.sample : Definition := { verifySteps := [false, true] }

/-- A run is paused, its copy is reported, and it is resumed. -/
def reported : Schedule :=
  alone 0 (.start { pauseAfter := .copying }) Env.calm 30 ++
    alone 31 (.reportCopy 5 10) .calm 1 ++ alone 33 .resume .calm 40

/-- A paused run is moved to completed. -/
def setCompleted : Schedule :=
  alone 0 (.pause "") Env.calm 1 ++ alone 2 (.setPhase .completed) .calm 1

theorem completed_verified_reported :
    (stateAt .sample reported 74).shared.run.phase = .completed ∧
      ∃ j < 74, (stateAt .sample reported j).shared.run.phase ≠ .completed ∧
        Passed .sample (stateAt .sample reported j).shared :=
  ⟨by decide +kernel, completed_verified (by simp [reported, alone, Task.wet])
    (by decide +kernel) (by decide +kernel) (by decide) (by decide +kernel)⟩

/-- A run is completed, and no step of its verification has returned. -/
theorem completed_unverified :
    (∀ t, Move.start t ∈ setCompleted → t.wet = true) ∧
      Conc.Run.Meets (system .sample).step Conc.Config.inTurn { shared := {} } setCompleted = true ∧
      (stateAt .sample setCompleted 4).shared.run.phase = .completed ∧
      ∀ j ≤ 4, ¬ Passed .sample (stateAt .sample setCompleted j).shared := by
  refine ⟨by simp [setCompleted, alone, Task.wet], by decide +kernel, by decide +kernel, ?_⟩
  rintro j hj ⟨l₁, l₂, h⟩
  have hlog : ∀ j ≤ 4, (stateAt .sample setCompleted j).shared.log = [] := by decide +kernel
  have hpass : Definition.sample.pass = [(.verify 1, none)] := by decide
  rw [hlog j hj, hpass] at h
  simp at h

end ShiftLock.Migration
