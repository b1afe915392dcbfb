import ShiftLock.Conc.Sequential
import ShiftLock.Migration.Stage

/-!
# The cutover happens twice

`Resume` re-enters the recorded phase inclusively. A run that was paused after its cutover, by
`PauseAfter` or by `Pause`, so calls the cutover hook again (`cutover_twice`).

In every sequence of `Start`, `Pause` and `Resume` in which no run is resumed that was paused after
its cutover, the hook returns nil at most once (`cutover_once`): once it has, the run is in cutover,
completed or failed, or paused after its cutover (`Past`), and the phases that are left to a `Start`
do not contain the cutover.
-/

namespace ShiftLock.Migration

open Conc (Move)

/-- The number of times the cutover hook has returned nil. -/
def World.cutovers (w : World) : Nat := w.log.count (.cutover, none)

def Past (r : Run) : Prop :=
  r.phase = .cutover ∨ r.phase = .completed ∨ r.phase = .failed ∨
    r.phase = .paused ∧ r.checkpoint.resumeFrom = .cutover

/-- `Start`, `Pause` and `Resume`. -/
def Task.advances : Task → Bool
  | .start opts => !opts.resume
  | .pause _ | .resume => true
  | _ => false

def resumable (a : Act) (_ : Env) (w : World) : Bool :=
  decide (a ≠ .resume) || decide (w.run.phase ≠ .paused) ||
    decide (w.run.checkpoint.resumeFrom ≠ .cutover)

namespace Once

/-- What holds between two calls. -/
def Rest (w : World) : Prop := w.cutovers = 0 ∨ w.cutovers = 1 ∧ Past w.run

/-- What holds during a call. -/
def Busy (w : World) : Stage → Prop
  | .idle => Rest w
  | .called t => t.advances = true ∧ Rest w
  | .resuming _ => w.cutovers = 0
  | .ready opts => w.cutovers = 0 ∨ w.cutovers = 1 ∧ Past w.run ∧ opts.resume = false
  | .entered opts => w.cutovers = 0 ∨ w.cutovers = 1 ∧ w.run.phase = .cutover ∧ opts.resume = false
  | .looping _ rest => w.cutovers = 0 ∨ w.cutovers = 1 ∧ rest <:+ [.completed] ∧
    (w.run.phase = .cutover ∨ w.run.phase = .completed)
  | .advancing _ p todo _ => w.cutovers = 0 ∨ w.cutovers = 1 ∧
    (p = .completed ∨ p = .cutover ∧ todo = [])
  | .cutting _ _ => w.cutovers = 0
  | .skipping _ _ | .failing => w.cutovers = 0 ∨ w.cutovers = 1

variable {w : World} {d : Definition}

@[simp] theorem cutovers_onRun (w : World) (r : Run) : (w.onRun r).cutovers = w.cutovers := rfl

@[simp] theorem cutovers_verified (w : World) (step : Nat) (err : Option String) :
    (w.returned (.verify step) err).cutovers = w.cutovers := by
  simp [World.cutovers, List.count_append]

@[simp] theorem cutovers_broken (w : World) (text : String) :
    (w.returned .cutover (some text)).cutovers = w.cutovers := by
  simp [World.cutovers, List.count_append]

@[simp] theorem cutovers_done (w : World) :
    (w.returned .cutover none).cutovers = w.cutovers + 1 := by
  simp [World.cutovers, List.count_append]

/-- During a call the hook has returned nil at most once. -/
theorem Busy.le_one {g : Stage} (h : Busy w g) : w.cutovers = 0 ∨ w.cutovers = 1 := by
  cases g with
  | idle | ready opts | entered opts | looping opts rest | advancing opts p todo rest =>
    exact h.imp_right And.left
  | called t => exact h.2.imp_right And.left
  | resuming opts | cutting opts rest => exact .inl h
  | skipping opts rest | failing => exact h

theorem rest_pause (h : Rest w) (now : Time) (reason : String) :
    Rest (w.onRun (w.run.pause now reason).1) := by
  rcases h with hzero | ⟨hone, hpast⟩
  · exact .inl hzero
  · refine .inr ⟨hone, ?_⟩
    unfold Run.pause
    split
    · exact hpast
    · rename_i hlive
      -- the run is in cutover, and `Pause` records it
      rcases hpast with hp | hp | hp | ⟨hp, -⟩
      · exact .inr (.inr (.inr ⟨rfl, hp⟩))
      all_goals simp [hp, Phase.terminal] at hlive

/-- The last section of `advanceTo`. -/
theorem busy_enter {opts : StartOptions} {p : Phase} {rest : List Phase}
    (hsuffix : p :: rest <:+ phases) (h : Busy w (.advancing opts p [] rest)) (now : Time) :
    Busy (w.onRun (w.run.enter now p opts.pauseAfter).1)
      (if (w.run.enter now p opts.pauseAfter).2 then .idle else .looping opts rest) := by
  unfold Run.enter
  split
  · rename_i hpause
    rcases h with hzero | ⟨hone, rfl | ⟨rfl, -⟩⟩
    · exact .inl hzero
    · simp [Phase.terminal] at hpause
    · exact .inr ⟨hone, .inr (.inr (.inr ⟨rfl, rfl⟩))⟩
  · refine h.imp_right ?_
    rintro ⟨hone, rfl | ⟨rfl, -⟩⟩
    · rw [suffix_completed hsuffix]
      exact ⟨hone, List.nil_suffix, .inr rfl⟩
    · rw [suffix_cutover hsuffix]
      exact ⟨hone, List.suffix_refl _, .inl rfl⟩

/-- An action keeps the invariant of a call. -/
theorem Busy.goes {e : Env} {a : Act} {g g' : Stage} {w' : World} (h : Busy w g)
    (hleft : g.left <:+ phases) (hgoes : Goes d e w a g w' g')
    (hresume : resumable a e w = true) : Busy w' g' := by
  cases hgoes with
  | stay | seed total copiedSeed opts p todo rest => exact h
  | refuse opts dry hdry => exact h.imp_right fun h => ⟨h.1, h.2.1⟩
  | start opts hlive hpaused =>
    refine h.imp_right fun h => ⟨h.1, ?_, h.2.2⟩
    rcases h.2.1 with hp | hp | hp | ⟨hp, -⟩
    · exact hp
    · simp [hp, Phase.terminal] at hlive
    · simp [hp, Phase.terminal] at hlive
    · exact absurd hp hpaused
  | leave _ _ hg =>
    rcases hg with ⟨opts, rfl⟩ | ⟨opts, rfl⟩ | rfl | ⟨opts, p, rest, rfl, hpaused⟩
    · exact h.imp_right fun h => ⟨h.1, .inl h.2.1⟩
    · exact h.imp_right fun h => ⟨h.1, h.2.2.imp_right .inl⟩
    · exact h.2
    · refine .inl (h.resolve_right ?_)
      rintro ⟨-, -, hp⟩
      simp [hpaused] at hp
  | stop _ _ ha =>
    rcases ha with ⟨-, -, opts, rest, rfl⟩ | ⟨-, ⟨opts, p, todo, rest, rfl⟩ | ⟨opts, rest, rfl⟩⟩
    · exact h.imp_right And.left
    · exact h.imp_right And.left
    · exact h
  | read opts =>
    refine h.imp_right fun h => ⟨h.1, ?_, .inl h.2.1⟩
    rw [h.2.1, h.2.2]
    exact List.suffix_refl _
  | pass opts p rest _ =>
    refine h.imp_right fun h => ⟨h.1, .inl ?_⟩
    have hsuffix : p = .completed ∧ rest = [] := by simpa [List.suffix_cons_iff] using h.2.1
    exact hsuffix.1
  | skip opts todo rest _ => exact h.imp_right And.left
  | skipped opts rest =>
    rw [suffix_cutover hleft]
    exact h.imp_right fun hone => ⟨hone, List.suffix_refl _, .inr rfl⟩
  | verified step run opts p todo rest =>
    show World.cutovers _ = 0 ∨ World.cutovers _ = 1 ∧ _
    rw [cutovers_verified]
    refine h.imp_right fun h => ⟨h.1, .inl ?_⟩
    simpa using h.2
  | rejected step run text opts p todo rest =>
    show World.cutovers _ = 0 ∨ World.cutovers _ = 1
    rw [cutovers_verified]
    exact h.imp_right And.left
  | cut run opts rest =>
    refine h.resolve_right fun h => ?_
    simp at h
  | done opts rest =>
    refine .inr ⟨?_, .inr ⟨rfl, rfl⟩⟩
    rw [cutovers_done, show w.cutovers = 0 from h]
  | broken text wraps opts rest =>
    have hzero : (w.returned .cutover (some text)).cutovers = 0 := by
      rw [cutovers_broken]
      exact h
    unfold Stage.ended
    split <;> exact .inl hzero
  | enter opts p rest => exact busy_enter hleft h e.now
  | fail msg => exact h.imp_right fun hone => ⟨hone, .inr (.inr (.inl rfl))⟩
  | pause reason => exact rest_pause h.2 e.now reason
  | resume opts hpaused _ _ =>
    refine h.2.resolve_right ?_
    rintro ⟨-, hp | hp | hp | ⟨-, hp⟩⟩
    · simp [hpaused] at hp
    · simp [hpaused] at hp
    · simp [hpaused] at hp
    · simp [resumable, hpaused, hp] at hresume
  | reportCopy copied total | compensate reason | setPhase phase => cases h.1

theorem rule (d : Definition) :
    (system d).Rule (monitor d) Task.stage Ends Task.advances resumable Rest fun w g =>
      g.left <:+ phases ∧ Busy w g where
  obeys := code_obeys d
  fork _ _ := rfl
  call t w ht h := by
    cases t with
    | start opts =>
      exact ⟨List.nil_suffix, h.imp_right fun h => ⟨h.1, h.2, by simpa [Task.advances] using ht⟩⟩
    | _ => exact ⟨List.nil_suffix, ht, h⟩
  act a e w g ha hresume h := ⟨(goes ha e w).left h.1, h.2.goes h.1 (goes ha e w) hresume⟩
  jump t t' w g hends h := by
    cases t' with
    | start opts =>
      obtain rfl : g = .resuming opts := hends
      exact ⟨List.nil_suffix, .inl h.2⟩
    | resume =>
      obtain rfl : g = .idle := hends
      exact ⟨List.nil_suffix, rfl, h.2⟩
    | _ => exact hends.elim
  ret t x w g hends h := by
    obtain rfl : g = .idle := hends
    exact h.2
  rest x := x.elim
  busy x := x.elim

end Once

/-- **The cutover happens once**, in every sequence of `Start`, `Pause` and `Resume` in which no run
is resumed that was paused after its cutover. -/
theorem cutover_once {d : Definition} {xs : Schedule}
    (hcalls : ∀ t, Move.start t ∈ xs → t.advances = true)
    (hturn : Conc.Run.Meets (system d).step Conc.Config.inTurn { shared := {} } xs = true)
    (hresume : Conc.Run.Meets (system d).step (Conc.Config.onAct fun _ => resumable)
      { shared := {} } xs = true) {i : Nat} (hi : i ≤ xs.length) :
    (stateAt d xs i).shared.cutovers ≤ 1 := by
  have hone : ∀ w : World, w.cutovers = 0 ∨ w.cutovers = 1 → w.cutovers ≤ 1 := by
    intro w
    omega
  apply hone
  rcases (Once.rule d).holds hcalls hturn hresume (.inl rfl) hi with h | ⟨g, h⟩
  · exact h.imp_right And.left
  · exact h.2.le_one

/-! ### Samples -/

def pausedCopy : Schedule :=
  Conc.alone 0 (.start { pauseAfter := .copying }) Env.calm 30 ++ Conc.alone 31 .resume .calm 40

def pausedCutover : Schedule :=
  Conc.alone 0 (.start { pauseAfter := .cutover }) Env.calm 40 ++ Conc.alone 41 .resume .calm 40

theorem pausedCopy_calls : ∀ t, Move.start t ∈ pausedCopy → t.advances = true := by
  simp [pausedCopy, Conc.alone, Task.advances]

theorem cutover_once_pausedCopy :
    (stateAt {} pausedCopy 72).shared.run.phase = .completed ∧
      (stateAt {} pausedCopy 72).shared.cutovers ≤ 1 :=
  ⟨by decide +kernel, cutover_once pausedCopy_calls (by decide +kernel) (by decide +kernel) (by decide)⟩

/-- The cutover hook returns nil twice. -/
theorem cutover_twice :
    (∀ t, Move.start t ∈ pausedCutover → t.advances = true) ∧
      Conc.Run.Meets (system {}).step Conc.Config.inTurn { shared := {} } pausedCutover = true ∧
      (stateAt {} pausedCutover 82).shared.cutovers = 2 :=
  ⟨by simp [pausedCutover, Conc.alone, Task.advances], by decide +kernel, by decide +kernel⟩

end ShiftLock.Migration
