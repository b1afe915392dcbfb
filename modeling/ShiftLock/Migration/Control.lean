import ShiftLock.Migration.Stage

/-!
# A running migration overwrites its phase

`advanceTo` calls its hooks without the lock and then sets the phase whatever it is. A `Start` that is
in `advanceTo` so undoes a `Pause`, and one that is past its first section a `Compensate`
(`control_overwritten`).

`Pause`, `Compensate` and the terminal phases win (`control_wins`) in every schedule in which
* `Pause` finds no `Start` in `advanceTo`;
* a section that makes the phase terminal finds no other `Start` past its first section;
* a dry run whose cutover was skipped, which has completed it, finds no error of its context or a gate
  in the rest of its loop, where it would fail the run.
-/

namespace ShiftLock.Migration

open Conc Function

/-- The thread is in `advanceTo`. -/
def Stage.inAdvance : Stage → Bool
  | .advancing _ _ _ _ | .skipping _ _ | .cutting _ _ => true
  | _ => false

/-- The thread is in a `Start`, past its first section, and may still change the phase. -/
def Stage.inProgress : Stage → Bool
  | .entered _ | .looping _ (_ :: _) | .failing => true
  | g => g.inAdvance

/-- The action may make the phase terminal. -/
def Act.settles : Act → Bool
  | .fail _ | .compensate _ | .skipCutover | .enter .completed _ => true
  | _ => false

def undisturbed (d : Definition) (c : State) (G : Nat → Option Stage) : Move Env Empty Task → Bool
  | .run u e => (c.threads u).all fun th =>
    match th.next with
    | some (.pause _) =>
      c.shared.run.phase.terminal || decide (c.shared.run.phase = .paused) ||
        (List.range c.clock).all fun v => (G v).all fun g => !g.inAdvance
    | some .ctxErr => !c.shared.run.phase.terminal || e.ctx.isNone
    | some (.checkGates mutating) =>
      !c.shared.run.phase.terminal || (checkGates d mutating e).isNone
    | some a =>
      !a.settles || c.shared.run.phase.terminal ||
        (List.range c.clock).all fun v => (G v).all fun g => v == u || !g.inProgress
    | none => true
  | _ => true

/-- The conditions on an action. -/
structure Undisturbed (d : Definition) (w : World) (G : Nat → Option Stage) (u : Nat) (a : Act)
    (e : Env) : Prop where
  pause : ∀ reason, a = .pause reason → w.run.phase.terminal = false → w.run.phase ≠ .paused →
    ∀ v g, G v = some g → g.inAdvance = false
  settle : a.settles = true → w.run.phase.terminal = false →
    ∀ v g, v ≠ u → G v = some g → g.inProgress = false
  ctx : a = .ctxErr → w.run.phase.terminal = true → e.ctx = none
  gates : ∀ mutating, a = .checkGates mutating → w.run.phase.terminal = true →
    checkGates d mutating e = none

variable {d : Definition} {w w' : World} {G : Nat → Option Stage} {u : Nat} {g g' : Stage} {e : Env}
  {a : Act}

theorem undisturbed_act {c : State} (htracks : Tracks (monitor d) Ends c G)
    {th : Thread Act Act.Answer Task Result} (hth : c.threads u = some th)
    (hnext : th.next = some a) (h : undisturbed d c G (.run u e) = true) :
    Undisturbed d c.shared G u a e := by
  simp only [undisturbed, hth, Option.all_some, hnext] at h
  constructor
  · rintro reason rfl hlive hpaused v g hg
    simp only [hlive, hpaused, decide_false, Bool.or_self, Bool.false_or] at h
    simpa using htracks.all h hg
  · intro hsettles hlive v g hv hg
    have hall : (List.range c.clock).all
        (fun v => (G v).all fun g => v == u || !g.inProgress) = true := by
      cases a with
      | pause | ctxErr | checkGates => cases hsettles
      | _ => simpa [hsettles, hlive] using h
    simpa [hv] using htracks.all hall hg
  · rintro rfl hterminal
    simpa [hterminal] using h
  · rintro mutating rfl hterminal
    simpa [hterminal] using h

/-! ## Terminal phases -/

/-- The thread leaves terminal phase `p` as it is: it is not in progress, or it is a dry run that has
skipped its cutover and enters completed once more. -/
def Settled (p : Phase) (g : Stage) : Prop :=
  g.inProgress = false ∨ p = .completed ∧
    ((∃ opts, g = .looping opts [.completed]) ∨ ∃ opts, g = .advancing opts .completed [] [])

theorem reportCopy_phase (r : Run) (now : Time) (copied total : Int) :
    (r.reportCopy now copied total).1.phase = r.phase := by
  unfold Run.reportCopy
  split <;> rfl

theorem enter_terminal {r : Run} {now : Time} {p pauseAfter : Phase} (h : p.terminal = true) :
    r.enter now p pauseAfter = ({ r with
      phase := p, updatedAt := now
      checkpoint := { phase := p, updatedAt := now, copied := r.copied, total := r.total } }, false) := by
  simp [Run.enter, h]

theorem Goes.terminal (h : Goes d e w a g w' g') (hset : ∀ p, g ≠ .called (.setPhase p))
    (hterminal : w.run.phase.terminal = true) (hg : Settled w.run.phase g)
    (hun : Undisturbed d w G u a e) :
    w'.run.phase = w.run.phase ∧ Settled w.run.phase g' := by
  have hidle : Settled w.run.phase .idle := .inl rfl
  have hno : g.inProgress = true → w.run.phase = .completed ∧
      ((∃ opts, g = .looping opts [.completed]) ∨ ∃ opts, g = .advancing opts .completed [] []) :=
    fun hin => hg.resolve_left (by simp [hin])
  cases h with
  | stay | seed => exact ⟨rfl, hg⟩
  | refuse | leave => exact ⟨rfl, hidle⟩
  | start opts hlive _ => simp [hlive] at hterminal
  | stop _ _ ha =>
    rcases ha with ⟨rfl, hctx, -⟩ | ⟨⟨mutating, rfl, hgate⟩, -⟩
    · exact absurd (hun.ctx rfl hterminal) hctx
    · exact absurd (hun.gates mutating rfl hterminal) hgate
  | pass opts p rest _ =>
    obtain ⟨hp, ⟨_, h⟩ | ⟨_, h⟩⟩ := hno rfl <;> cases h
    exact ⟨rfl, .inr ⟨hp, .inr ⟨opts, rfl⟩⟩⟩
  | enter opts p rest =>
    obtain ⟨hp, ⟨_, h⟩ | ⟨_, h⟩⟩ := hno rfl <;> cases h
    rw [enter_terminal rfl]
    exact ⟨hp.symm, .inl rfl⟩
  | reportCopy copied total => exact ⟨reportCopy_phase _ _ _ _, hidle⟩
  | pause reason => exact ⟨by simp [Run.pause, hterminal], hidle⟩
  | resume opts hpaused _ _ => rw [hpaused] at hterminal; cases hterminal
  | compensate reason =>
    refine ⟨?_, hidle⟩
    by_cases hp : w.run.phase = .completed
    · simp [Run.compensate, hp]
    · have hfailed : w.run.phase = .failed := by simpa [Phase.terminal, hp] using hterminal
      simp [Run.compensate, hfailed]
  | setPhase phase => exact absurd rfl (hset phase)
  | read | skip | skipped | verified | rejected | cut | done | broken | fail =>
    -- the thread is in progress, but not a dry run that has skipped its cutover
    obtain ⟨-, ⟨_, h⟩ | ⟨_, h⟩⟩ := hno rfl <;> cases h

/-- A phase becomes terminal by a section that may make it so, and the thread leaves it as it is. -/
theorem Goes.settles (h : Goes d e w a g w' g') (hset : ∀ p, g ≠ .called (.setPhase p))
    (hleft : g.left <:+ phases) (hresume : w.run.checkpoint.resumeFrom.terminal = false)
    (hlive : w.run.phase.terminal = false) (hterminal : w'.run.phase.terminal = true) :
    a.settles = true ∧ Settled w'.run.phase g' := by
  have hsame : w'.run.phase = w.run.phase → False := by
    intro heq
    rw [heq, hlive] at hterminal
    cases hterminal
  cases h with
  | skipped opts rest =>
    obtain rfl := suffix_cutover hleft
    exact ⟨rfl, .inr ⟨rfl, .inl ⟨opts, rfl⟩⟩⟩
  | enter opts p rest =>
    by_cases hp : p.terminal = true
    · obtain rfl : p = .completed := by
        have hmem : p ∈ phases := hleft.subset (List.mem_cons_self ..)
        cases p <;> simp_all [phases, Phase.terminal]
      obtain rfl := suffix_completed hleft
      rw [enter_terminal rfl]
      exact ⟨rfl, .inl rfl⟩
    · exfalso
      unfold Run.enter at hterminal
      split at hterminal
      · cases hterminal
      · exact hp hterminal
  | fail msg | compensate reason => exact ⟨rfl, .inl rfl⟩
  | reportCopy copied total => exact (hsame (reportCopy_phase _ _ _ _)).elim
  | pause reason =>
    exfalso
    unfold Run.pause at hterminal
    split at hterminal
    · simp [hlive] at hterminal
    · cases hterminal
  | resume opts hpaused _ _ =>
    exfalso
    simp only [World.onRun_run, Run.resume, hpaused, ne_eq, not_true_eq_false, if_false] at hterminal
    split at hterminal
    · cases hterminal
    · simp [hresume] at hterminal
  | setPhase phase => exact absurd rfl (hset phase)
  | _ => exact (hsame rfl).elim

/-- What holds in every state. -/
structure Orderly (w : World) (G : Nat → Option Stage) : Prop where
  left : ∀ u g, G u = some g → g.left <:+ phases
  calls : ∀ u p, G u ≠ some (.called (.setPhase p))
  resume : w.run.checkpoint.resumeFrom.terminal = false
  settled : w.run.phase.terminal = true → ∀ u g, G u = some g → Settled w.run.phase g

theorem Goes.resumeFrom (h : Goes d e w a g w' g')
    (hresume : w.run.checkpoint.resumeFrom.terminal = false) :
    w'.run.checkpoint.resumeFrom.terminal = false := by
  cases h with
  | skipped => rfl
  | enter opts p rest =>
    dsimp only [World.onRun_run, Run.enter]
    split
    · rename_i hpause
      exact hpause.2.2
    · rfl
  | reportCopy copied total =>
    dsimp only [World.onRun_run, Run.reportCopy]
    split <;> exact hresume
  | pause reason =>
    dsimp only [World.onRun_run, Run.pause]
    split
    · exact hresume
    · rename_i hlive
      simpa using (not_or.mp hlive).1
  | resume opts hpaused =>
    dsimp only [World.onRun_run, Run.resume]
    split <;> exact hresume
  | compensate reason =>
    dsimp only [World.onRun_run, Run.compensate]
    split <;> exact hresume
  | setPhase phase =>
    dsimp only [World.onRun_run, Run.setPhase]
    split <;> exact hresume
  | _ => exact hresume

/-- A thread that is not in progress changes. -/
theorem Orderly.put (h : Orderly w G) (hleft : g'.left <:+ phases)
    (hcall : ∀ p, g' ≠ .called (.setPhase p)) (hg' : g'.inProgress = false) :
    Orderly w (update G u (some g')) := by
  refine ⟨fun v x hv => ?_, fun v p hv => ?_, h.resume, fun hterminal v x hv => ?_⟩
  · rcases update_eq_some.mp hv with ⟨-, rfl⟩ | ⟨-, hv⟩
    · exact hleft
    · exact h.left v x hv
  · rcases update_eq_some.mp hv with ⟨-, hx⟩ | ⟨-, hv⟩
    · exact hcall p hx
    · exact h.calls v p hv
  · rcases update_eq_some.mp hv with ⟨-, rfl⟩ | ⟨-, hv⟩
    · exact .inl hg'
    · exact h.settled hterminal v x hv

/-- No action is followed by a call of `SetPhase`. -/
theorem Goes.not_setPhase (h : Goes d e w a g w' g') (hset : ∀ p, g ≠ .called (.setPhase p))
    (p : Phase) : g' ≠ .called (.setPhase p) := by
  cases h with
  | stay => exact hset p
  | broken text wraps opts rest =>
    unfold Stage.ended
    split <;> simp
  | enter opts q rest => split <;> simp
  | _ => simp

theorem Orderly.act (h : Orderly w G) (hg : G u = some g) (hgoes : Goes d e w a g w' g')
    (hun : Undisturbed d w G u a e) : Orderly w' (update G u (some g')) := by
  have hset : ∀ p, g ≠ .called (.setPhase p) := fun p hp => h.calls u p (hp ▸ hg)
  refine ⟨fun v x hv => ?_, fun v p hv => ?_, hgoes.resumeFrom h.resume, fun hterminal v x hv => ?_⟩
  · rcases update_eq_some.mp hv with ⟨-, rfl⟩ | ⟨-, hv⟩
    · exact hgoes.left (h.left u g hg)
    · exact h.left v x hv
  · rcases update_eq_some.mp hv with ⟨-, hx⟩ | ⟨-, hv⟩
    · exact hgoes.not_setPhase hset p hx
    · exact h.calls v p hv
  · by_cases hbefore : w.run.phase.terminal = true
    · obtain ⟨hphase, hsettled⟩ :=
        hgoes.terminal hset hbefore (h.settled hbefore u g hg) hun
      rw [hphase]
      rcases update_eq_some.mp hv with ⟨-, rfl⟩ | ⟨-, hv⟩
      · exact hsettled
      · exact h.settled hbefore v x hv
    · have hlive : w.run.phase.terminal = false := by simpa using hbefore
      obtain ⟨hsettles, hsettled⟩ :=
        hgoes.settles hset (h.left u g hg) h.resume hlive hterminal
      rcases update_eq_some.mp hv with ⟨-, rfl⟩ | ⟨hne, hv⟩
      · exact hsettled
      · exact .inl (hun.settle hsettles hlive v x hne hv)

/-! ## Schedules -/

/-- The calls on a running migration: all but `SetPhase`. -/
def Task.controls : Task → Bool
  | .start opts => !opts.resume
  | .setPhase _ => false
  | _ => true

variable {xs : Schedule} {i j : Nat}

/-- The stages of the threads after `i` moves. -/
abbrev stagesAt (d : Definition) (xs : Schedule) (i : Nat) : Nat → Option Stage :=
  (system d).watchAt (monitor d) Task.stage {} xs i

variable {t : Task} {reason : String} {progress : Progress}
  (hcalls : ∀ t, Move.start t ∈ xs → t.controls = true)
  (hun : (system d).meets (monitor d) Task.stage (undisturbed d) {} xs = true)

theorem stage_of_controls (h : t.controls = true) :
    t.stage.left = [] ∧ (∀ p, t.stage ≠ .called (.setPhase p)) ∧ t.stage.inProgress = false := by
  cases t with
  | setPhase phase => cases h
  | _ => exact ⟨rfl, fun p hp => (by cases hp), rfl⟩

/-- A thread that goes on with a task is not in progress. -/
theorem stage_of_jump {t' : Task} (h : Ends t g (.inr t')) :
    t'.stage.left = [] ∧ (∀ p, t'.stage ≠ .called (.setPhase p)) ∧ t'.stage.inProgress = false ∧
      t'.stage.inAdvance = false := by
  cases t' with
  | start opts | resume => exact ⟨rfl, fun p hp => (by cases hp), rfl, rfl⟩
  | _ => exact h.elim

include hcalls hun in
theorem orderly_at (hi : i ≤ xs.length) : Orderly (stateAt d xs i).shared (stagesAt d xs i) := by
  refine Sys.induction (J := fun _ c G => Orderly c.shared G) (code_obeys d) ?_ ?_
    hi
  · exact ⟨fun _ _ h => (by cases h), fun _ _ h => (by cases h), rfl, fun h => (by cases h)⟩
  intro i x c' G' hx _ htracks hmoved ih
  have hcond := Sys.meets_at hun hx
  cases hmoved with
  | idle => exact ih
  | env y => exact y.elim
  | start t =>
    obtain ⟨hleft, hcall, hprogress⟩ := stage_of_controls (hcalls t (List.mem_of_getElem? hx))
    exact ih.put (by rw [hleft]; exact List.nil_suffix) hcall hprogress
  | jump u e th g t hth hp hg hQ =>
    obtain ⟨hleft, hcall, hprogress, -⟩ := stage_of_jump hQ
    exact ih.put (by rw [hleft]; exact List.nil_suffix) hcall hprogress
  | act u e th g a k hth hp hg ha hf =>
    exact ih.act hg (goes ha e _)
      (undisturbed_act htracks hth (Thread.next_of_prog hp) hcond)
  | fork u e th g a k t hth hp hg ha hf => cases hf

include hcalls hun in
theorem terminal_stays (hterminal : (stateAt d xs i).shared.run.phase.terminal = true) (hij : i ≤ j)
    (hj : j ≤ xs.length) :
    (stateAt d xs j).shared.run.phase = (stateAt d xs i).shared.run.phase := by
  induction hij with
  | refl => rfl
  | @step j _ ih =>
    have ih := ih (Nat.le_of_succ_le hj)
    have hx : xs[j]? = some xs[j] := List.getElem?_eq_getElem hj
    have horderly := orderly_at hcalls hun (Nat.le_of_succ_le hj)
    have htracks : Tracks (monitor d) Ends (stateAt d xs j) (stagesAt d xs j) :=
      Sys.tracks (code_obeys d) j
    rw [← ih] at hterminal ⊢
    rcases (Sys.moved (S := system d) (code_obeys d) hx).shared with
      h | ⟨y, -, -⟩ | ⟨u, e, th, g, a, k, hrun, hth, hp, hg, ha, h⟩
    · exact congrArg (·.run.phase) h
    · exact y.elim
    · rw [hrun] at hx
      have hact := undisturbed_act htracks hth (Thread.next_of_prog hp)
        (Sys.meets_at hun hx)
      have hset : ∀ p, g ≠ .called (.setPhase p) := fun p hp => horderly.calls u p (hp ▸ hg)
      rw [h]
      exact ((goes ha e _).terminal hset hterminal (horderly.settled hterminal u g hg) hact).1

include hcalls hun in
/-- No thread that is in progress in a terminal phase calls the cutover hook. -/
theorem terminal_no_cutover
    (hterminal : (stateAt d xs i).shared.run.phase.terminal = true) (hi : i ≤ xs.length) (run : Run) :
    ¬ (system d).Performs {} xs i (.cutoverBegin run) := by
  intro hcut
  obtain ⟨u, g, hg, opts, rest, rfl⟩ := hcut.allowed (code_obeys d)
  rcases (orderly_at hcalls hun hi).settled hterminal u _ hg with h | ⟨-, ⟨_, h⟩ | ⟨_, h⟩⟩ <;> cases h

/-! ## A paused run -/

/-- The run is paused with no thread in `advanceTo`, or its phase is terminal. -/
def Still (w : World) (G : Nat → Option Stage) : Prop :=
  w.run.phase.terminal = true ∨
    w.run.phase = .paused ∧ ∀ u g, G u = some g → g.inAdvance = false

/-- An action other than `Resume` on a paused run. -/
theorem Goes.still (h : Goes d e w a g w' g') (hset : ∀ p, g ≠ .called (.setPhase p))
    (hpaused : w.run.phase = .paused) (hg : g.inAdvance = false) (hresume : a ≠ .resume) :
    w'.run.phase.terminal = true ∨ w'.run.phase = .paused ∧ g'.inAdvance = false := by
  cases h with
  | stay => exact .inr ⟨hpaused, hg⟩
  | refuse | leave | stop | read => exact .inr ⟨hpaused, rfl⟩
  | start opts _ hnot | pass opts p rest hnot => exact absurd hpaused hnot
  | fail => exact .inl rfl
  | reportCopy copied total => exact .inr ⟨(reportCopy_phase _ _ _ _).trans hpaused, rfl⟩
  | pause reason => exact .inr ⟨by simp [Run.pause, hpaused], rfl⟩
  | resume => exact absurd rfl hresume
  | compensate reason => exact .inl (by simp [Run.compensate, hpaused, Phase.terminal])
  | setPhase phase => exact absurd rfl (hset phase)
  | _ => cases hg

theorem pause_ok {r : Run} {now : Time} (h : progressOr (r.pause now reason) = .ok progress) :
    r.phase.terminal = false ∧ r.phase ≠ .paused ∧ (r.pause now reason).1.phase = .paused := by
  unfold Run.pause at h ⊢
  split at h
  · cases h
  · rename_i hlive
    rw [if_neg hlive]
    obtain ⟨hterminal, hpaused⟩ := not_or.mp hlive
    exact ⟨by simpa using hterminal, hpaused, rfl⟩

theorem inAdvance_of_inProgress (h : g.inProgress = false) : g.inAdvance = false := by
  cases g <;> first | rfl | cases h

theorem Still.put (h : Still w G) (hg' : g'.inAdvance = false) :
    Still w (update G u (some g')) := by
  refine h.imp_right fun h => ⟨h.1, fun v x hv => ?_⟩
  rcases update_eq_some.mp hv with ⟨-, rfl⟩ | ⟨-, hv⟩
  · exact hg'
  · exact h.2 v x hv

include hcalls hun in
/-- A run stays paused until it is resumed, or its phase becomes terminal. -/
theorem still_after_pause
    (hpause : (system d).Answers {} xs i (.pause reason) (.ok progress)) (hij : i < j)
    (hj : j ≤ xs.length)
    (hno : ∀ k opts, i < k → k < j → ¬ (system d).Answers {} xs k .resume (.ok opts)) :
    Still (stateAt d xs j).shared (stagesAt d xs j) := by
  revert hij hno
  refine Sys.induction
    (J := fun m c G => i < m →
      (∀ k opts, i < k → k < m → ¬ (system d).Answers {} xs k .resume (.ok opts)) →
      Still c.shared G) (code_obeys d) (fun hi => absurd hi (Nat.not_lt_zero i)) ?_ hj
  intro m x c' G' hx hc' htracks hmoved ih him hno
  have hm : m < xs.length := (List.getElem?_eq_some_iff.mp hx).1
  have horderly := orderly_at hcalls hun hm.le
  rcases Nat.lt_or_eq_of_le (Nat.le_of_lt_succ him) with hlt | rfl
  · have hstill := ih hlt fun k opts hk hkm => hno k opts hk (Nat.lt_succ_of_lt hkm)
    rcases hstill with hterminal | ⟨hpaused, hnone⟩
    · left
      rw [← hc', terminal_stays hcalls hun hterminal (Nat.le_succ m) hm]
      exact hterminal
    cases hmoved with
    | idle => exact .inr ⟨hpaused, hnone⟩
    | env y => exact y.elim
    | start t =>
      obtain ⟨-, -, hprogress⟩ := stage_of_controls (hcalls t (List.mem_of_getElem? hx))
      exact Still.put (.inr ⟨hpaused, hnone⟩) (inAdvance_of_inProgress hprogress)
    | jump u e th g t hth hp hg hQ =>
      exact Still.put (.inr ⟨hpaused, hnone⟩) (stage_of_jump hQ).2.2.2
    | act u e th g a k hth hp hg ha hf =>
      have hresume : a ≠ .resume := by
        rintro rfl
        exact hno m _ hlt (Nat.lt_succ_self m)
          ⟨u, e, th, hx, hth, Thread.next_of_prog hp, resume_paused hpaused e.now⟩
      have hset : ∀ p, g ≠ .called (.setPhase p) := fun p hp => horderly.calls u p (hp ▸ hg)
      refine ((goes ha e _).still hset hpaused (hnone u g hg) hresume).imp_right fun h =>
        ⟨h.1, fun v x hv => ?_⟩
      rcases update_eq_some.mp hv with ⟨-, rfl⟩ | ⟨-, hv⟩
      · exact h.2
      · exact hnone v x hv
    | fork u e th g a k t hth hp hg ha hf => cases hf
  · obtain ⟨u, e, th, hx', hth, hnext, hok⟩ := hpause
    obtain rfl : Move.run u e = x := Option.some.inj (hx'.symm.trans hx)
    have hact := undisturbed_act htracks hth hnext (Sys.meets_at hun hx)
    obtain ⟨g, -, -, hshared, rfl⟩ := hmoved.acts hth hnext fun _ => rfl
    obtain ⟨hlive, hpaused, hphase⟩ := pause_ok hok
    refine Still.put (.inr ⟨?_, hact.pause reason rfl hlive hpaused⟩) rfl
    rw [hshared]
    exact hphase

theorem compensate_ok {r : Run} {now : Time}
    (h : progressOr (r.compensate now reason) = .ok progress) :
    (r.compensate now reason).1.phase = .failed := by
  unfold Run.compensate at h ⊢
  split at h
  · cases h
  · rename_i hp
    rw [if_neg hp]

/-- The phase after a `Compensate` that succeeds. -/
theorem terminal_after_compensate
    (h : (system d).Answers {} xs i (.compensate reason) (.ok progress)) :
    (stateAt d xs (i + 1)).shared.run.phase.terminal = true := by
  obtain ⟨u, e, th, hx, hth, hnext, hok⟩ := h
  obtain ⟨g, -, -, hshared, -⟩ :=
    (Sys.moved (code_obeys d) hx).acts hth hnext fun _ => rfl
  rw [show (stateAt d xs (i + 1)).shared = _ from hshared]
  exact congrArg Phase.terminal (compensate_ok hok)

/-- **`Pause`, `Compensate` and the terminal phases win over a running migration**, in every schedule
in which they find no `Start` that would overwrite them. -/
theorem control_wins (hcalls : ∀ t, Move.start t ∈ xs → t.controls = true)
    (hun : (system d).meets (monitor d) Task.stage (undisturbed d) {} xs = true) :
    (∀ i j reason progress run, (system d).Answers {} xs i (.pause reason) (.ok progress) → i < j →
      (system d).Performs {} xs j (.cutoverBegin run) →
      ∃ k opts, i < k ∧ k < j ∧ (system d).Answers {} xs k .resume (.ok opts)) ∧
    (∀ i j reason progress run,
      (system d).Answers {} xs i (.compensate reason) (.ok progress) → i < j →
      ¬ (system d).Performs {} xs j (.cutoverBegin run)) ∧
    ∀ i j, (stateAt d xs i).shared.run.phase.terminal = true → i ≤ j → j ≤ xs.length →
      (stateAt d xs j).shared.run.phase = (stateAt d xs i).shared.run.phase := by
  have hlength : ∀ j run, (system d).Performs {} xs j (.cutoverBegin run) → j ≤ xs.length := by
    rintro j run ⟨u, e, th, hx, -⟩
    exact (List.getElem?_eq_some_iff.mp hx).1.le
  refine ⟨fun i j reason progress run hpause hij hcut => ?_,
    fun i j reason progress run hcompensate hij hcut => ?_,
    fun i j hterminal hij hj => terminal_stays hcalls hun hterminal hij hj⟩
  · have hj := hlength j run hcut
    by_contra hnot
    have hno : ∀ k opts, i < k → k < j → ¬ (system d).Answers {} xs k .resume (.ok opts) :=
      fun k opts hik hkj hk => hnot ⟨k, opts, hik, hkj, hk⟩
    rcases still_after_pause hcalls hun hpause hij hj hno with hterminal | ⟨-, hnone⟩
    · exact terminal_no_cutover hcalls hun hterminal hj run hcut
    · obtain ⟨u, g, hg, opts, rest, rfl⟩ := hcut.allowed (code_obeys d)
      cases hnone u _ hg
  · have hj := hlength j run hcut
    have hterminal := terminal_after_compensate hcompensate
    rw [← terminal_stays hcalls hun hterminal hij hj] at hterminal
    exact terminal_no_cutover hcalls hun hterminal hj run hcut

/-! ### Samples -/

/-- `Pause` comes while `Start` is between two phases, which then returns; `Resume` takes the run to
its end. -/
def pausedBetween : Schedule :=
  .start (.start {}) :: List.replicate 8 (.run 0 Env.calm) ++
    [.start (.pause "hold"), .run 9 .calm, .run 0 .calm, .run 0 .calm] ++
    Conc.alone 13 .resume Env.calm 45

/-- Call `t` comes while `Start` is in the `advanceTo` of the cutover. -/
def inCutover (t : Task) : Schedule :=
  .start (.start {}) :: List.replicate 26 (.run 0 Env.calm) ++ [.start t, .run 27 .calm] ++
    List.replicate 6 (.run 0 Env.calm)

/-- The run after `i` moves of a sample. -/
def runAt (xs : Schedule) (i : Nat) : Run := (stateAt {} xs i).shared.run

theorem control_wins_pausedBetween :
    (∃ k opts, 10 < k ∧ k < 45 ∧ (system {}).Answers {} pausedBetween k .resume (.ok opts)) ∧
      (stateAt {} pausedBetween 59).shared.run.phase = (stateAt {} pausedBetween 53).shared.run.phase := by
  have hcalls : ∀ t, Move.start t ∈ pausedBetween → t.controls = true := by
    simp [pausedBetween, Conc.alone, Task.controls]
  have hun : (system {}).meets (monitor {}) Task.stage (undisturbed {}) {} pausedBetween = true := by
    decide +kernel
  have hpause : (system {}).Answers {} pausedBetween 10 (.pause "hold")
      (.ok ((runAt pausedBetween 10).pause 0 "hold").1.progress) :=
    .of_next rfl (by decide +kernel) (by decide +kernel)
  have hcut : (system {}).Performs {} pausedBetween 45 (.cutoverBegin (runAt pausedBetween 44)) :=
    .of_next rfl (by decide +kernel)
  exact ⟨(control_wins hcalls hun).1 10 45 _ _ _ hpause (by decide) hcut,
    (control_wins hcalls hun).2.2 53 59 (by decide +kernel) (by decide) (by decide)⟩

theorem no_resume_inCutover {k : Nat} {opts : StartOptions} (hk : 28 < k) (hk' : k < 32)
    (hnone : ∀ k ≤ 32, ((stateAt {} (inCutover t) k).threads 0).bind Thread.next ≠ some .resume) :
    ¬ (system {}).Answers {} (inCutover t) k .resume (.ok opts) := by
  rintro ⟨u, e, th, hx, hth, hnext, -⟩
  have hu : u = 0 := by
    have hcases : k = 29 ∨ k = 30 ∨ k = 31 := by omega
    rcases hcases with rfl | rfl | rfl <;> cases hx <;> rfl
  subst hu
  exact hnone k hk'.le (by rw [hth]; exact hnext)

/-- The cutover starts after `Pause` has succeeded, with no `Resume`, and after `Compensate` has
succeeded; the failed run is in cutover then. -/
theorem control_overwritten :
    ((∃ progress, (system {}).Answers {} (inCutover (.pause "hold")) 28 (.pause "hold") (.ok progress)) ∧
      (∃ run, (system {}).Performs {} (inCutover (.pause "hold")) 32 (.cutoverBegin run)) ∧
      ∀ k opts, 28 < k → k < 32 →
        ¬ (system {}).Answers {} (inCutover (.pause "hold")) k .resume (.ok opts)) ∧
    (∃ progress,
      (system {}).Answers {} (inCutover (.compensate "undo")) 28 (.compensate "undo") (.ok progress)) ∧
      (∃ run, (system {}).Performs {} (inCutover (.compensate "undo")) 32 (.cutoverBegin run)) ∧
      (stateAt {} (inCutover (.compensate "undo")) 29).shared.run.phase = .failed ∧
      (stateAt {} (inCutover (.compensate "undo")) 35).shared.run.phase = .cutover := by
  refine ⟨⟨⟨((runAt (inCutover (.pause "hold")) 28).pause 0 "hold").1.progress, ?_⟩,
    ⟨runAt (inCutover (.pause "hold")) 31, ?_⟩, fun k opts hk hk' => ?_⟩,
    ⟨((runAt (inCutover (.compensate "undo")) 28).compensate 0 "undo").1.progress, ?_⟩,
    ⟨runAt (inCutover (.compensate "undo")) 31, ?_⟩, by decide +kernel, by decide +kernel⟩
  · exact .of_next rfl (by decide +kernel) (by decide +kernel)
  · exact .of_next rfl (by decide +kernel)
  · exact no_resume_inCutover hk hk' (by decide +kernel)
  · exact .of_next rfl (by decide +kernel) (by decide +kernel)
  · exact .of_next rfl (by decide +kernel)

end ShiftLock.Migration
