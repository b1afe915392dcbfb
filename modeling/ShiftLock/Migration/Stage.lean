import ShiftLock.Migration.Code
import Mathlib.Data.List.Infix

/-!
# Stages of a call of `Start`

A monitor follows a `Start` through its loop: the phases that are left, and in `advanceTo` the hooks
that are left to call before the phase is entered. The other calls are one section each. `goes` says
what an action can do to the migration and to the thread that performs it.
-/

namespace ShiftLock.Migration

open Conc.Prog (Obeys Monitor)

/-- The hooks that `advanceTo` calls for a phase. -/
def Definition.hooks (d : Definition) : Phase → List Hook
  | .verifying => d.steps.map .verify
  | .cutover => if d.cutover then [.cutover] else []
  | _ => []

inductive Stage where
  /-- At the end of a call. -/
  | idle
  /-- A call other than `Start`, before its section. -/
  | called (t : Task)
  /-- A `Resume` past its section, with the options of its `Start`. -/
  | resuming (opts : StartOptions)
  /-- A `Start` before its first section. -/
  | ready (opts : StartOptions)
  /-- Past its first section. -/
  | entered (opts : StartOptions)
  /-- In the loop, with the phases that are left. -/
  | looping (opts : StartOptions) (rest : List Phase)
  /-- In `advanceTo`, with the hooks that are left to call. -/
  | advancing (opts : StartOptions) (target : Phase) (todo : List Hook) (rest : List Phase)
  /-- In the `advanceTo` that skips the cutover. -/
  | skipping (opts : StartOptions) (rest : List Phase)
  /-- In the cutover hook. -/
  | cutting (opts : StartOptions) (rest : List Phase)
  /-- Before `fail`. -/
  | failing
  deriving DecidableEq, Repr

/-- Past an error of `advanceTo`: the caller fails the run unless the error is `ErrPaused`. -/
def Stage.ended (err : Error) : Stage := if err.isPaused then .idle else .failing

def monitor (d : Definition) : Monitor Act Act.Answer Stage where
  allows g
    | .startBegin opts => g = .ready opts
    | .checkGates _ => (∃ opts, g = .entered opts) ∨
      (∃ opts p todo rest, g = .advancing opts p todo rest) ∨ ∃ opts rest, g = .skipping opts rest
    | .readPhase => ∃ opts, g = .entered opts
    | .ctxErr => ∃ opts rest, g = .looping opts rest
    | .fail _ => g = .failing
    | .readPaused => ∃ opts p rest, g = .looping opts (p :: rest)
    | .readDry dryRun => ∃ opts p rest, g = .advancing opts p (d.hooks p) rest ∧ opts.dryRun = dryRun
    | .skipCutover => ∃ opts rest, g = .skipping opts rest
    | .seed _ _ => ∃ opts p todo rest, g = .advancing opts p todo rest
    | .cloneRun => ∃ opts p todo rest, g = .advancing opts p todo rest
    | .verify step _ => ∃ opts p todo rest, g = .advancing opts p (.verify step :: todo) rest
    | .cutoverBegin _ => ∃ opts rest, g = .advancing opts .cutover [.cutover] rest
    | .cutoverEnd => ∃ opts rest, g = .cutting opts rest
    | .enter target pauseAfter => ∃ opts rest, g = .advancing opts target [] rest ∧
      opts.pauseAfter = pauseAfter
    | .progressOf => g = .idle ∨ ∃ opts, g = .looping opts []
    | .reportCopy copied total => g = .called (.reportCopy copied total)
    | .pause reason => g = .called (.pause reason)
    | .resume => g = .called .resume
    | .compensate reason => g = .called (.compensate reason)
    | .setPhase phase => g = .called (.setPhase phase)
  after g
    | .startBegin opts, .started => .entered opts
    | .startBegin _, _ => .idle
    | .checkGates _, some err => match g with
      | .entered _ => .idle
      | _ => .ended err
    | .readPhase, cur => match g with
      | .entered opts => .looping opts (phasesFrom cur opts.resume)
      | g => g
    | .ctxErr, some _ => .failing
    | .readPaused, some _ => .idle
    | .readPaused, none => match g with
      | .looping opts (p :: rest) => .advancing opts p (d.hooks p) rest
      | g => g
    | .readDry _, true => match g with
      | .advancing opts .cutover _ rest => .skipping opts rest
      | g => g
    | .skipCutover, _ => match g with
      | .skipping opts rest => .looping opts rest
      | g => g
    | .verify _ _, some _ => .failing
    | .verify _ _, none => match g with
      | .advancing opts p (_ :: todo) rest => .advancing opts p todo rest
      | g => g
    | .cutoverBegin _, _ => match g with
      | .advancing opts _ _ rest => .cutting opts rest
      | g => g
    | .cutoverEnd, some err => .ended (.hook err.1 err.2)
    | .cutoverEnd, none => match g with
      | .cutting opts rest => .advancing opts .cutover [] rest
      | g => g
    | .enter _ _, true => .idle
    | .enter _ _, false => match g with
      | .advancing opts _ _ rest => .looping opts rest
      | g => g
    | .resume, .ok opts => .resuming opts
    | .ctxErr, none | .checkGates _, none | .readDry _, false | .seed _ _, _ | .cloneRun, _ => g
    | _, _ => .idle

def Task.stage : Task → Stage
  | .start opts => .ready opts
  | t => .called t

/-- How a call ends: idle, or it is a `Resume` that goes on as a `Start`. -/
def Ends (_ : Task) (g : Stage) : Result ⊕ Task → Prop
  | .inl _ => g = .idle
  | .inr (.start opts) => g = .resuming opts
  | .inr .resume => g = .idle
  | .inr _ => False

variable {d : Definition} {opts : StartOptions} {p : Phase} {rest : List Phase}

/-- Past the hooks of `advanceTo`. -/
def Worked (opts : StartOptions) (p : Phase) (rest : List Phase) (g : Stage) : Option Error → Prop
  | none => g = .advancing opts p [] rest
  | some err => g = .ended err

/-- Past `advanceTo`. -/
def Advanced (opts : StartOptions) (rest : List Phase) (g : Stage) : Option Error → Prop
  | none => g = .looping opts rest
  | some err => g = .ended err

theorem verifyAll_obeys (steps : List Nat) :
    Obeys (monitor d) (Worked opts p rest) (verifyAll steps)
      (.advancing opts p (steps.map .verify) rest) := by
  induction steps with
  | nil => exact rfl
  | cons step steps ih =>
    refine Obeys.perform ⟨_, _, _, _, rfl⟩ fun run => Obeys.perform ⟨_, _, _, _, rfl⟩ fun err => ?_
    cases err with
    | some text => exact rfl
    | none => exact ih

theorem cutover_obeys :
    Obeys (monitor d) (Worked opts .cutover rest) (cutover d)
      (.advancing opts .cutover (d.hooks .cutover) rest) := by
  unfold cutover Definition.hooks
  split
  · refine Obeys.perform ⟨_, _, _, _, rfl⟩ fun run => Obeys.perform ⟨_, _, rfl⟩ fun _ =>
      Obeys.perform ⟨_, _, rfl⟩ fun err => ?_
    cases err with
    | some err | none => exact rfl
  · exact rfl

theorem work_obeys (p : Phase) :
    Obeys (monitor d) (Worked opts p rest) (work d opts p)
      (.advancing opts p (d.hooks p) rest) := by
  cases p with
  | copying => exact Obeys.perform ⟨_, _, _, _, rfl⟩ fun _ => rfl
  | verifying => exact verifyAll_obeys d.steps
  | cutover => exact cutover_obeys
  | _ => exact rfl

theorem advanceTo_obeys (p : Phase) :
    Obeys (monitor d) (Advanced opts rest) (advanceTo d opts p)
      (.advancing opts p (d.hooks p) rest) := by
  refine Obeys.perform ⟨_, _, _, rfl, rfl⟩ fun dry => ?_
  by_cases hskip : dry = true ∧ p = .cutover
  · obtain ⟨rfl, rfl⟩ := hskip
    refine Obeys.perform (.inr (.inr ⟨_, _, rfl⟩)) fun err => ?_
    cases err with
    | some err => exact rfl
    | none => exact Obeys.perform ⟨_, _, rfl⟩ fun _ => rfl
  · have hstay : (monitor d).after (.advancing opts p (d.hooks p) rest) (.readDry opts.dryRun) dry =
        .advancing opts p (d.hooks p) rest := by
      cases dry with
      | false => rfl
      | true => cases p <;> first | rfl | exact absurd ⟨rfl, rfl⟩ hskip
    rw [hstay]
    refine Obeys.perform (.inr (.inl ⟨_, _, _, _, rfl⟩)) fun err => ?_
    cases err with
    | some err => exact rfl
    | none =>
      simp only [hskip, if_false]
      refine (work_obeys p).bind fun g err hworked => ?_
      cases err with
      | some err => exact hworked
      | none =>
        subst hworked
        refine Obeys.perform ⟨_, _, rfl, rfl⟩ fun paused => ?_
        cases paused with
        | true | false => exact rfl

theorem advance_obeys (rest : List Phase) :
    Obeys (monitor d) (fun g _ => g = .idle) (advance d opts rest) (.looping opts rest) := by
  induction rest with
  | nil => exact Obeys.perform (.inr ⟨_, rfl⟩) fun _ => rfl
  | cons p rest ih =>
    refine Obeys.perform ⟨_, _, rfl⟩ fun text => ?_
    cases text with
    | some text => exact Obeys.perform rfl fun _ => rfl
    | none =>
      refine Obeys.perform ⟨_, _, _, rfl⟩ fun paused => ?_
      cases paused with
      | some progress => exact rfl
      | none =>
        refine (advanceTo_obeys p).bind fun g err hadvanced => ?_
        cases err with
        | none =>
          subst hadvanced
          exact ih
        | some err =>
          by_cases hpaused : err.isPaused = true
          · obtain rfl : g = .idle := hadvanced.trans (if_pos hpaused)
            simp only [hpaused, if_true]
            exact Obeys.perform (.inl rfl) fun _ => rfl
          · obtain rfl : g = .failing := hadvanced.trans (if_neg hpaused)
            simp only [hpaused]
            exact Obeys.perform rfl fun _ => rfl

/-- The program of every call obeys the monitor. -/
theorem code_obeys (d : Definition) (t : Task) : Obeys (monitor d) (Ends t) (code d t) t.stage := by
  cases t with
  | start opts =>
    refine Obeys.perform rfl fun entry => ?_
    cases entry with
    | invalid | paused => exact rfl
    | started =>
      refine Obeys.perform (.inl ⟨_, rfl⟩) fun err => ?_
      cases err with
      | some err => exact rfl
      | none => exact Obeys.perform ⟨_, rfl⟩ fun cur => (advance_obeys _).bind fun g _ hg => hg
  | resume =>
    refine Obeys.perform rfl fun r => ?_
    cases r with
    | error err | ok opts => exact rfl
  | _ => exact Obeys.perform rfl fun _ => rfl

/-! ## What an action can do -/

/-- What an action can do to the migration and to the thread that performs it. -/
inductive Goes (d : Definition) (e : Env) (w : World) : Act → Stage → World → Stage → Prop
  | stay (a : Act) (g : Stage) : Goes d e w a g w g
  | refuse (opts : StartOptions) (dry : Bool)
    (hdry : dry = true → w.run.dryRun = true ∨ opts.dryRun = true) :
    Goes d e w (.startBegin opts) (.ready opts) (w.onRun { w.run with dryRun := dry }) .idle
  | start (opts : StartOptions) (hlive : w.run.phase.terminal = false)
    (hpaused : w.run.phase ≠ .paused) :
    Goes d e w (.startBegin opts) (.ready opts)
      (w.onRun { w.run with dryRun := w.run.dryRun || opts.dryRun }) (.entered opts)
  /-- The call ends. -/
  | leave (a : Act) (g : Stage)
    (hg : (∃ opts, g = .entered opts) ∨ (∃ opts, g = .looping opts []) ∨ g = .called .resume ∨
      ∃ opts p rest, g = .looping opts (p :: rest) ∧ w.run.phase = .paused) : Goes d e w a g w .idle
  /-- The context or a gate has an error. -/
  | stop (a : Act) (g : Stage)
    (ha : a = .ctxErr ∧ e.ctx ≠ none ∧ (∃ opts rest, g = .looping opts rest) ∨
      (∃ mutating, a = .checkGates mutating ∧ checkGates d mutating e ≠ none) ∧
        ((∃ opts p todo rest, g = .advancing opts p todo rest) ∨ ∃ opts rest, g = .skipping opts rest)) :
    Goes d e w a g w .failing
  | read (opts : StartOptions) :
    Goes d e w .readPhase (.entered opts) w (.looping opts (phasesFrom w.run.phase opts.resume))
  | pass (opts : StartOptions) (p : Phase) (rest : List Phase) (hpaused : w.run.phase ≠ .paused) :
    Goes d e w .readPaused (.looping opts (p :: rest)) w (.advancing opts p (d.hooks p) rest)
  | skip (opts : StartOptions) (todo : List Hook) (rest : List Phase)
    (hdry : w.run.dryRun = true ∨ opts.dryRun = true) :
    Goes d e w (.readDry opts.dryRun) (.advancing opts .cutover todo rest) w (.skipping opts rest)
  | skipped (opts : StartOptions) (rest : List Phase) :
    Goes d e w .skipCutover (.skipping opts rest) (w.onRun (w.run.skipCutover e.now))
      (.looping opts rest)
  | seed (total copiedSeed : Int) (opts : StartOptions) (p : Phase) (todo : List Hook)
    (rest : List Phase) :
    Goes d e w (.seed total copiedSeed) (.advancing opts p todo rest)
      (w.onRun (w.run.seed total copiedSeed)) (.advancing opts p todo rest)
  | verified (step : Nat) (run : Run) (opts : StartOptions) (p : Phase) (todo : List Hook)
    (rest : List Phase) :
    Goes d e w (.verify step run) (.advancing opts p (.verify step :: todo) rest)
      (w.returned (.verify step) none) (.advancing opts p todo rest)
  | rejected (step : Nat) (run : Run) (text : String) (opts : StartOptions) (p : Phase)
    (todo : List Hook) (rest : List Phase) :
    Goes d e w (.verify step run) (.advancing opts p (.verify step :: todo) rest)
      (w.returned (.verify step) (some text)) .failing
  | cut (run : Run) (opts : StartOptions) (rest : List Phase) :
    Goes d e w (.cutoverBegin run) (.advancing opts .cutover [.cutover] rest) w (.cutting opts rest)
  | done (opts : StartOptions) (rest : List Phase) :
    Goes d e w .cutoverEnd (.cutting opts rest) (w.returned .cutover none)
      (.advancing opts .cutover [] rest)
  | broken (text : String) (wraps : Bool) (opts : StartOptions) (rest : List Phase) :
    Goes d e w .cutoverEnd (.cutting opts rest) (w.returned .cutover (some text))
      (.ended (.hook text wraps))
  | enter (opts : StartOptions) (p : Phase) (rest : List Phase) :
    Goes d e w (.enter p opts.pauseAfter) (.advancing opts p [] rest)
      (w.onRun (w.run.enter e.now p opts.pauseAfter).1)
      (if (w.run.enter e.now p opts.pauseAfter).2 then .idle else .looping opts rest)
  | fail (msg : String) : Goes d e w (.fail msg) .failing (w.onRun (w.run.fail e.now msg)) .idle
  | reportCopy (copied total : Int) :
    Goes d e w (.reportCopy copied total) (.called (.reportCopy copied total)) (w.onRun (w.run.reportCopy e.now copied total).1) .idle
  | pause (reason : String) :
    Goes d e w (.pause reason) (.called (.pause reason)) (w.onRun (w.run.pause e.now reason).1) .idle
  | resume (opts : StartOptions) (hpaused : w.run.phase = .paused) (hdry : opts.dryRun = w.run.dryRun)
    (hresume : opts.resume = true) :
    Goes d e w .resume (.called .resume) (w.onRun (w.run.resume e.now).1) (.resuming opts)
  | compensate (reason : String) :
    Goes d e w (.compensate reason) (.called (.compensate reason)) (w.onRun (w.run.compensate e.now reason).1) .idle
  | setPhase (phase : Phase) :
    Goes d e w (.setPhase phase) (.called (.setPhase phase)) (w.onRun (w.run.setPhase e.now phase).1) .idle

theorem ended_checkGates {mutating : Bool} {e : Env} {err : Error}
    (h : checkGates d mutating e = some err) : Stage.ended err = .failing := by
  unfold checkGates at h
  split at h
  · cases h
    rfl
  split at h
  · cases h
    rfl
  split at h
  · obtain ⟨text, -, rfl⟩ := Option.map_eq_some_iff.mp h
    rfl
  · cases h

theorem goes_startBegin (d : Definition) (e : Env) (w : World) (opts : StartOptions) :
    Goes d e w (.startBegin opts) (.ready opts) (w.onRun (w.run.startBegin opts).1)
      ((monitor d).after (.ready opts) (.startBegin opts) (w.run.startBegin opts).2) := by
  have hrefuse := Goes.refuse (d := d) (e := e) (w := w) opts (w.run.dryRun || opts.dryRun) (by simp)
  unfold Run.startBegin
  split
  · exact .refuse opts w.run.dryRun .inl
  rename_i hlive
  split
  · exact hrefuse
  rename_i hpaused
  split
  · exact hrefuse
  · exact .start opts (by simpa using hlive) hpaused

theorem resume_paused {r : Run} (h : r.phase = .paused) (now : Time) :
    (r.resume now).2 = .ok
      { dryRun := r.dryRun, total := r.total, copiedSeed := r.copied, resume := true } := by
  simp [Run.resume, h]

theorem goes_resume (d : Definition) (e : Env) (w : World) :
    Goes d e w .resume (.called .resume) (w.onRun (w.run.resume e.now).1)
      ((monitor d).after (.called .resume) .resume (w.run.resume e.now).2) := by
  by_cases hpaused : w.run.phase = .paused
  · rw [resume_paused hpaused]
    exact .resume _ hpaused rfl rfl
  · have hsame : w.run.resume e.now = (w.run, .error .invalidPhase) := by
      simp [Run.resume, hpaused]
    rw [hsame]
    exact .leave _ _ (.inr (.inr (.inl rfl)))

/-- **What an action can do.** -/
theorem goes {g : Stage} {a : Act} (ha : (monitor d).allows g a) (e : Env) (w : World) :
    Goes d e w a g (exec d a e w).1 ((monitor d).after g a (exec d a e w).2) := by
  cases a with
  | startBegin opts =>
    obtain rfl : g = .ready opts := ha
    exact goes_startBegin d e w opts
  | checkGates mutating =>
    show Goes d e w _ g w ((monitor d).after g (.checkGates mutating) (checkGates d mutating e))
    cases herr : checkGates d mutating e with
    | none => exact .stay _ _
    | some err =>
      have hgate : checkGates d mutating e ≠ none := by simp [herr]
      rcases ha with ⟨opts, rfl⟩ | ⟨opts, p, todo, rest, rfl⟩ | ⟨opts, rest, rfl⟩
      · exact .leave _ _ (.inl ⟨opts, rfl⟩)
      · show Goes d e w _ _ w (.ended err)
        rw [ended_checkGates herr]
        exact .stop _ _ (.inr ⟨⟨_, rfl, hgate⟩, .inl ⟨opts, p, todo, rest, rfl⟩⟩)
      · show Goes d e w _ _ w (.ended err)
        rw [ended_checkGates herr]
        exact .stop _ _ (.inr ⟨⟨_, rfl, hgate⟩, .inr ⟨opts, rest, rfl⟩⟩)
  | readPhase =>
    obtain ⟨opts, rfl⟩ := ha
    exact .read opts
  | ctxErr =>
    obtain ⟨opts, rest, rfl⟩ := ha
    show Goes d e w _ _ w ((monitor d).after _ .ctxErr e.ctx)
    cases hctx : e.ctx with
    | none => exact .stay _ _
    | some text => exact .stop _ _ (.inl ⟨rfl, by simp [hctx], opts, rest, rfl⟩)
  | fail msg =>
    obtain rfl : g = .failing := ha
    exact .fail msg
  | readPaused =>
    obtain ⟨opts, p, rest, rfl⟩ := ha
    by_cases hpaused : w.run.phase = .paused
    · simp only [exec, hpaused, if_true]
      exact .leave _ _ (.inr (.inr (.inr ⟨opts, p, rest, rfl, hpaused⟩)))
    · simp only [exec, hpaused, if_false]
      exact .pass opts p rest hpaused
  | readDry dryRun =>
    obtain ⟨opts, p, rest, rfl, rfl⟩ := ha
    show Goes d e w _ _ w ((monitor d).after _ (.readDry opts.dryRun) (w.run.dryRun || opts.dryRun))
    cases hdry : w.run.dryRun || opts.dryRun with
    | false => exact .stay _ _
    | true =>
      cases p with
      | cutover => exact .skip opts _ rest (by simpa using hdry)
      | _ => exact .stay _ _
  | skipCutover =>
    obtain ⟨opts, rest, rfl⟩ := ha
    exact .skipped opts rest
  | seed total copiedSeed =>
    obtain ⟨opts, p, todo, rest, rfl⟩ := ha
    exact .seed total copiedSeed opts p todo rest
  | cloneRun => exact .stay _ _
  | verify step run =>
    obtain ⟨opts, p, todo, rest, rfl⟩ := ha
    show Goes d e w _ _ (w.returned (.verify step) e.verify)
      ((monitor d).after _ (.verify step run) e.verify)
    cases e.verify with
    | none => exact .verified step run opts p todo rest
    | some text => exact .rejected step run text opts p todo rest
  | cutoverBegin run =>
    obtain ⟨opts, rest, rfl⟩ := ha
    exact .cut run opts rest
  | cutoverEnd =>
    obtain ⟨opts, rest, rfl⟩ := ha
    show Goes d e w _ _ (w.returned .cutover (e.cutover.map (·.1)))
      ((monitor d).after _ .cutoverEnd e.cutover)
    cases e.cutover with
    | none => exact .done opts rest
    | some err => exact .broken err.1 err.2 opts rest
  | enter p pauseAfter =>
    obtain ⟨opts, rest, rfl, rfl⟩ := ha
    have h := Goes.enter (d := d) (e := e) (w := w) opts p rest
    show Goes d e w _ _ (w.onRun (w.run.enter e.now p opts.pauseAfter).1)
      ((monitor d).after _ (.enter p opts.pauseAfter) (w.run.enter e.now p opts.pauseAfter).2)
    cases hpaused : (w.run.enter e.now p opts.pauseAfter).2 <;> rw [hpaused] at h <;> exact h
  | progressOf =>
    rcases ha with rfl | ⟨opts, rfl⟩
    · exact .stay _ _
    · exact .leave _ _ (.inr (.inl ⟨opts, rfl⟩))
  | reportCopy copied total =>
    obtain rfl : g = .called (.reportCopy copied total) := ha
    exact .reportCopy copied total
  | pause reason =>
    obtain rfl : g = .called (.pause reason) := ha
    exact .pause reason
  | resume =>
    obtain rfl : g = .called .resume := ha
    exact goes_resume d e w
  | compensate reason =>
    obtain rfl : g = .called (.compensate reason) := ha
    exact .compensate reason
  | setPhase phase =>
    obtain rfl : g = .called (.setPhase phase) := ha
    exact .setPhase phase

/-! ## The phases that are left -/

theorem phasesFrom_suffix (cur : Phase) (inclusive : Bool) : phasesFrom cur inclusive <:+ phases := by
  unfold phasesFrom
  split
  · exact List.suffix_refl _
  · split
    · exact List.drop_suffix _ _
    · exact List.suffix_refl _

theorem suffix_cutover {rest : List Phase} (h : .cutover :: rest <:+ phases) :
    rest = [.completed] := by
  simpa [phases, List.suffix_cons_iff] using h

theorem suffix_completed {rest : List Phase} (h : .completed :: rest <:+ phases) : rest = [] := by
  simpa [phases, List.suffix_cons_iff] using h

/-- The phases that are left to a `Start`, with the one it advances to. -/
def Stage.left : Stage → List Phase
  | .looping _ rest => rest
  | .advancing _ p _ rest => p :: rest
  | .skipping _ rest | .cutting _ rest => .cutover :: rest
  | _ => []

/-- The phases that are left are the last ones. -/
theorem Goes.left {e : Env} {w w' : World} {a : Act} {g g' : Stage} (h : Goes d e w a g w' g')
    (hleft : g.left <:+ phases) : g'.left <:+ phases := by
  cases h with
  | stay | pass | skip | seed | verified | cut | done => exact hleft
  | read opts => exact phasesFrom_suffix _ _
  | skipped opts rest => exact (List.suffix_cons _ rest).trans hleft
  | broken text wraps opts rest =>
    unfold Stage.ended
    split <;> exact List.nil_suffix
  | enter opts p rest =>
    split
    · exact List.nil_suffix
    · exact (List.suffix_cons _ rest).trans hleft
  | _ => exact List.nil_suffix

end ShiftLock.Migration
