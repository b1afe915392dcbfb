import ShiftLock.Coord.Flow

/-!
# Terminal generations

The state graph has no edge out of `retired` and `failed`, and `setState` is the only action that
changes the state: a terminal generation stays as it is. The state of the generation is not asked,
though, when a claim is acquired: `tryAcquire` looks at the claim only. A generation that failed its
readiness gates can still acquire claims (`failed_generation_acquires`). It cannot as long as no
`tryAcquire` begins on an open claim in a terminal state (`terminal_generation`).
-/

namespace ShiftLock.Coord

open Conc

/-- The move does not begin a `tryAcquire` on an open claim in a terminal state. -/
def acquiresAlive (c : State) : Move Env Outside Task → Bool
  | .run u _ =>
    match (c.threads u).bind Conc.Thread.next with
    | some (.tryAcquireBegin name) =>
      !c.shared.coord.gen.state.terminal || (c.shared.coord.claims name).closed
    | _ => true
  | _ => true

variable {cfg : Config} {w : World} {xs : Schedule}

theorem setState_of_terminal {c : Coord} {now : Time} {target : GenerationState}
    {reason : TransitionReason} (h : c.gen.state.terminal) :
    (c.setState now target reason).1.gen.state = c.gen.state := by
  unfold setState
  split
  · rfl
  split
  · rename_i ht
    revert h ht
    cases c.gen.state <;> simp [GenerationState.terminal, canTransition, stateGraph]
  · rfl

/-- No action leaves a terminal state. -/
theorem exec_of_terminal {a : Act} {e : Env} {w : World} (h : w.coord.gen.state.terminal) :
    (exec cfg a e w).1.coord.gen.state = w.coord.gen.state := by
  cases a with
  | call op => rw [exec_call_coord]
  | setState target reason => exact setState_of_terminal h
  | claim name => obtain ⟨_, h⟩ := claim_eq cfg w.coord name; exact congrArg (·.gen.state) h
  | closeBegin => obtain ⟨_, h⟩ := closeBegin_eq w.coord e.order; exact congrArg (·.gen.state) h
  | _ => rfl

/-- **Terminal states are final.** -/
theorem state_of_terminal {i j : Nat} (hij : i ≤ j)
    (h : (stateAt cfg w xs i).shared.coord.gen.state.terminal) :
    (stateAt cfg w xs j).shared.coord.gen.state = (stateAt cfg w xs i).shared.coord.gen.state := by
  induction hij with
  | refl => rfl
  | @step j _ ih =>
    rw [← ih]
    rw [← ih] at h
    cases hx : xs[j]? with
    | none => rw [stateAt, Sys.stateAt, Run.stateAt_succ_of_none hx]
    | some x =>
      rw [stateAt, Sys.stateAt, Run.stateAt_succ hx]
      rcases (system cfg).step_shared (stateAt cfg w xs j) x with
        hs | ⟨y, -, hs⟩ | ⟨_, e, _, a, _, -, -, -, hs⟩ <;> rw [hs]
      · cases y <;> rfl
      · exact exec_of_terminal h

theorem tryAcquireBegin_of_closed {live : Bool} {c : Claim} (h : c.closed) :
    (c.tryAcquireBegin live).2 = .closed := by
  unfold Claim.tryAcquireBegin
  rw [if_pos h]

/-- **Terminal generations.** In every schedule, a terminal state stays as it is. If the schedule
begins no `tryAcquire` on an open claim in a terminal state, then no call that starts in a terminal
state returns a lease. -/
theorem terminal_generation (cfg : Config) (w : World) (xs : Schedule)
    (hxs : Run.Meets (system cfg).step acquiresAlive { shared := w } xs) :
    (∀ i j, i ≤ j → (stateAt cfg w xs i).shared.coord.gen.state.terminal →
      (stateAt cfg w xs j).shared.coord.gen.state =
        (stateAt cfg w xs i).shared.coord.gen.state) ∧
    ∀ i ≤ xs.length, ∀ u (th : Thread), (stateAt cfg w xs i).threads u = some th →
      (stateAt cfg w xs th.born).shared.coord.gen.state.terminal →
      ∀ o, th.result ≠ some (.lease (.ok o)) := by
  refine ⟨fun i j => state_of_terminal, fun i hi u th hth hterm o hres => ?_⟩
  obtain ⟨-, g, hg, hO⟩ := (tracks_at cfg w xs i).2 u th hth
  -- A first section that was not left as closed was entered before the state became terminal.
  have hentry : th.born ≤ i ∧ ∀ entry, g.entry = some entry → entry ≠ .closed →
      (stateAt cfg w xs th.born).shared.coord.gen.state.terminal = false := by
    refine Sys.each_thread (P := fun i th g => th.born ≤ i ∧
      ∀ entry, g.entry = some entry → entry ≠ .closed →
        (stateAt cfg w xs th.born).shared.coord.gen.state.terminal = false)
      (task_flow cfg) (fun i t => ?_) (fun i th g h => ?_) ?_ hi hth hg
    · exact ⟨Nat.le_succ i, fun _ h => by cases h⟩
    · exact ⟨Nat.le_succ_of_le h.1, h.2⟩
    · intro i u e th f a k hx hth hp _ ha ⟨hborn, h⟩ hs
      refine ⟨Nat.le_succ_of_le hborn, fun entry hentry hne => ?_⟩
      cases a with
      | tryAcquireBegin name =>
        have hmeet := Run.meets_getElem hxs hx
        simp only [acquiresAlive, hth, Option.bind_some, Thread.next_of_prog hp,
          Bool.or_eq_true, Bool.not_eq_true'] at hmeet
        rcases hmeet with halive | hclosed
        · by_contra hterm
          rw [Bool.not_eq_false] at hterm
          rw [state_of_terminal hborn hterm, hterm] at halive
          cases halive
        · refine absurd ?_ hne
          cases hentry
          exact tryAcquireBegin_of_closed hclosed
      | tryAcquireInstall name record =>
        exact h entry ((Flow.after_install_entry ..).symm.trans hentry) hne
      | _ => exact h entry hentry hne
  rw [Thread.prog_of_result hres] at hO
  obtain ⟨⟨entry, he, hne⟩, -⟩ := hO o rfl
  rw [hentry.2 entry he hne] at hterm
  cases hterm

/-- After `Close` the generation is retired and its claims are closed. -/
theorem terminal_generation_closed :
    let xs : Schedule := alone 0 (.claim "c") .atOne 2 ++ alone 3 .close .atOne 8 ++
      alone 12 (.tryAcquire "c") .atOne 1
    let s := stateAt (.sample "g") (World.new (.sample "g") 1 Memory.new) xs
    (s 12).shared.coord.gen.state = .retired ∧
      ∃ th, (s 14).threads 12 = some th ∧ th.result.isSome ∧
        ∀ o, th.result ≠ some (.lease (.ok o)) := by
  intro xs s
  have hth : ∃ th, (s 14).threads 12 = some th ∧ th.born = 12 ∧ th.result.isSome :=
    ⟨_, rfl, rfl, rfl⟩
  obtain ⟨th, hth, hborn, hres⟩ := hth
  refine ⟨by decide +kernel, th, hth, hres, ?_⟩
  exact (terminal_generation (.sample "g") (World.new (.sample "g") 1 Memory.new) xs
    (by decide +kernel)).2 14 (by decide) 12 th hth (by rw [hborn]; decide +kernel)

/-- `Run` with a readiness gate that fails, and `TryAcquire` of the same claim afterwards. -/
def failThenAcquire : Schedule :=
  alone 0 (.run { name := "c", readiness := true })
      { Env.atOne with ready := some (.of .notReady) } 8 ++
    alone 9 (.tryAcquire "c") .atOne 11

/-- A failed generation acquires a claim. -/
theorem failed_generation_acquires :
    let s := stateAt (.sample "g") (World.new (.sample "g") 1 Memory.new) failThenAcquire
    (s 9).shared.coord.gen.state = .failed ∧ ((s 21).threads 9).map (·.born) = some 9 ∧
      ((s 21).threads 9).bind Thread.result = some (.lease (.ok (.installed ⟨0, 1⟩))) := by
  decide +kernel

end ShiftLock.Coord
