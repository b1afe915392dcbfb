import ShiftLock.Supervise.Alone

/-!
# A task runs after `Stop` or `Close`

`Start` looks at the table, calls the gate and starts the goroutine in steps of their own, and the
goroutine calls `Run` before it looks at its context. A `Run` can so begin after `Close` has returned
or after `Stop` without another `Start` (`run_begins_after_stop`).

In every schedule in which `Stop` finds no thread of its task on its way to `Run`, and `Close` none of
any task, no `Run` begins after `Close`, and none after `Stop` before another `Start` has looked at
the table (`stopped_stays_stopped`): the threads that are left look at their context before they run
again, and it is done (`Quiet`).
-/

namespace ShiftLock.Supervise

open Conc Function

/-- The task of a thread that is on its way to `Run`. -/
def Stage.pending : Stage → Option String
  | .starting n | .spawned n _ | .before n _ | .checked n _ => some n
  | _ => none

/-- No thread is on its way to `Run` of task `n`, and the contexts of those in it are done. -/
def Quiet (w : World) (G : Nat → Option Stage) (n : String) : Prop :=
  ∀ u g, G u = some g → g.pending ≠ some n ∧
    ∀ ctx, g = .inside n ctx ∨ g = .returned n ctx → w.done ctx = true

variable {w w' : World} {G : Nat → Option Stage} {u : Nat} {g g' : Stage} {n : String}

theorem Quiet.put (h : Quiet w G n) (hkeeps : w.Keeps w') (hpending : g'.pending ≠ some n)
    (hdone : ∀ ctx, g' = .inside n ctx ∨ g' = .returned n ctx → w'.done ctx = true) :
    Quiet w' (update G u (some g')) n := by
  intro v x hv
  rcases update_eq_some.mp hv with ⟨-, rfl⟩ | ⟨-, hv⟩
  · exact ⟨hpending, hdone⟩
  · exact ⟨(h v x hv).1, fun ctx hx => hkeeps.done ctx ((h v x hv).2 ctx hx)⟩

/-- A thread that is on its way to `Run` of another task. -/
theorem Quiet.aside (h : Quiet w G n) (hkeeps : w.Keeps w') {m : String}
    (hpending : g'.pending = some m) (hm : m ≠ n) : Quiet w' (update G u (some g')) n := by
  refine h.put hkeeps (fun hn => hm ?_) fun ctx hctx => ?_
  · rw [hpending, Option.some.injEq] at hn
    exact hn
  · rcases hctx with rfl | rfl <;> cases hpending

/-- A thread that is not on its way to any `Run`. -/
theorem Quiet.away (h : Quiet w G n) (hkeeps : w.Keeps w')
    (hg' : g' = .other ∨ g' = .leaving ∨ g' = .shut) :
    Quiet w' (update G u (some g')) n := by
  refine h.put hkeeps ?_ fun ctx hctx => ?_
  · rcases hg' with rfl | rfl | rfl <;> simp [Stage.pending]
  · rcases hg' with rfl | rfl | rfl <;> rcases hctx with hctx | hctx <;> cases hctx

/-- An action keeps a task quiet, unless it finds it in the table of an open supervisor. -/
theorem Quiet.act (h : Quiet w G n) (hnamed : w.Named) (hg : G u = some g) {a : Act}
    (ha : monitor.allows g a) (hlook : w.closed = true ∨ a ≠ .lookup n) (e : Env) :
    Quiet (exec a e w).1 (update G u (some (monitor.after g a (exec a e w).2))) n := by
  have hkeeps := exec_keeps a e w
  have hgoes := goes ha (exec a e w).2
  obtain ⟨hpending, hdone⟩ := h u g hg
  generalize hr : (exec a e w).2 = r at hgoes ⊢
  generalize monitor.after g a r = g' at hgoes ⊢
  cases hgoes with
  | stay _ _ _ => exact h.put hkeeps hpending fun ctx hctx => hkeeps.done ctx (hdone ctx hctx)
  | drop _ _ _ hg' => exact h.away hkeeps (hg'.imp_right .inl)
  | shut _ _ => exact h.away hkeeps (.inr (.inr rfl))
  | look name spec _ =>
    have hfound : w.lookup name = .ok spec := hr
    unfold World.lookup at hfound
    split at hfound
    · cases hfound
    rename_i hopen
    split at hfound
    · cases hfound
    rename_i t ht
    cases hfound
    refine h.aside hkeeps rfl ?_
    rw [hnamed name t ht]
    rintro rfl
    exact (hlook.resolve_left hopen) rfl
  | spawn spec ctx hgs =>
    subst hgs
    exact h.aside hkeeps rfl fun hm => hpending (congrArg some hm)
  | begin m ctx hgb =>
    subst hgb
    refine h.put hkeeps (by simp [Stage.pending]) fun ctx' hctx => ?_
    rcases hctx with hctx | hctx <;> cases hctx
    exact absurd rfl hpending
  | finish m ctx _ hgb =>
    subst hgb
    refine h.put hkeeps (by simp [Stage.pending]) fun ctx' hctx => ?_
    rcases hctx with hctx | hctx <;> cases hctx
    exact hkeeps.done ctx (hdone ctx (.inl rfl))
  | check m ctx hgb =>
    subst hgb
    refine h.aside hkeeps rfl ?_
    rintro rfl
    -- the look at the context has found it done
    have hnot : w.done ctx = false := hr
    rw [hdone ctx (.inr rfl)] at hnot
    cases hnot

/-- Nothing is left of a task that `Stop` finds with no thread on its way to `Run`. -/
theorem Held.quiet_stop (h : Held w G) (hnone : ∀ u g, G u = some g → g.pending ≠ some n) (e : Env) :
    Quiet (exec (.stop n) e w).1 G n := by
  refine fun u g hg => ⟨hnone u g hg, fun ctx hctx => ?_⟩
  have hheld : g.held = some (n, ctx) := by rcases hctx with rfl | rfl <;> rfl
  simp only [exec, World.stop]
  rcases h.ctx u g n ctx hg hheld with hdone | ⟨t, ht, hcancel⟩
  · split
    · exact hdone
    · simp only [World.done, Bool.or_eq_true, List.contains_iff_mem, List.mem_append] at hdone ⊢
      exact hdone.imp_right .inr
  · rw [ht]
    simp [World.done, hcancel]

/-- Nothing is left of any task once `Close` finds no thread on its way to `Run`. -/
theorem quiet_close (hnone : ∀ u g, G u = some g → g.pending = none) (hopen : w.closed = false)
    (e : Env) (n : String) : Quiet (exec .close e w).1 G n := by
  refine fun u g hg => ⟨by simp [hnone u g hg], fun ctx _ => ?_⟩
  simp [exec, World.close, hopen, World.done]

theorem exec_closed {a : Act} (ha : a ≠ .close) (e : Env) (w : World) :
    (exec a e w).1.closed = w.closed := by
  cases a with
  | close => exact absurd rfl ha
  | register spec =>
    simp only [exec, World.register]
    split
    · rfl
    split <;> rfl
  | spawn spec =>
    simp only [exec, World.spawn]
    split
    · rfl
    split <;> rfl
  | stop name =>
    simp only [exec, World.stop]
    split <;> rfl
  | isolate zone =>
    simp only [exec, World.isolate]
    split <;> rfl
  | _ => rfl

/-! ## Schedules -/

/-- `Stop` finds no thread of its task on its way to `Run`, and the `Close` that closes the supervisor
none of any task. -/
def stopsIdle (c : State) (G : Nat → Option Stage) : Move Env Outside Task → Bool
  | .run u _ => (c.threads u).all fun th =>
    match th.next with
    | some (.stop name) => (List.range c.clock).all fun v =>
      (G v).all fun g => decide (g.pending ≠ some name)
    | some .close => c.shared.closed || (List.range c.clock).all fun v =>
      (G v).all fun g => g.pending.isNone
    | _ => true
  | _ => true

variable {xs : Schedule} {i j : Nat}

/-- Move `i` performs action `a`. -/
abbrev Performs (xs : Schedule) (i : Nat) (a : Act) : Prop := system.Performs {} xs i a

/-- A call of `Close` has returned in state `i`. -/
def CloseReturned (xs : Schedule) (i : Nat) : Prop :=
  ∃ u th r, (stateAt xs i).threads u = some th ∧ th.task.closes = true ∧ th.result = some r

theorem Quiet.moved (hcalls : Calls xs) {x : Move Env Outside Task} {c' : State}
    {G' : Nat → Option Stage} (hx : xs[i]? = some x)
    (hmoved : Moved system monitor Task.stage Ends (stateAt xs i) (stagesAt xs i) x c' G')
    (h : Quiet (stateAt xs i).shared (stagesAt xs i) n)
    (hlook : (stateAt xs i).shared.closed = true ∨ ¬ Performs xs i (.lookup n)) :
    Quiet c'.shared G' n := by
  have hheld := held_at hcalls (Nat.le_of_lt (List.getElem?_eq_some_iff.mp hx).1)
  have hrefl : (stateAt xs i).shared.Keeps (stateAt xs i).shared := .of_eq rfl rfl rfl rfl
  cases hmoved with
  | idle => exact h
  | start t =>
    rw [stage_of_call (hcalls t (List.mem_of_getElem? hx))]
    exact h.away hrefl (.inl rfl)
  | env y => exact fun u g hg => ⟨(h u g hg).1, fun _ _ => rfl⟩
  | jump u e th g t hth hp hg hQ =>
    rcases jump_stage hQ with ⟨m, ctx, rfl, hstage⟩ | ⟨rfl, hstage⟩ <;> rw [hstage]
    · exact h.aside hrefl rfl fun hm => (h u _ hg).1 (congrArg some hm)
    · exact h.away hrefl (.inr (.inr rfl))
  | act u e th g a k hth hp hg ha hf =>
    refine h.act hheld.named hg ha (hlook.imp_right fun hnot hlook => hnot ?_) e
    exact ⟨u, e, th, hx, hth, by rw [Thread.next_of_prog hp, hlook]⟩
  | fork u e th g a k t hth hp hg ha hf =>
    have hact := h.act hheld.named hg ha (hlook.imp_right fun hnot hlook => hnot
      ⟨u, e, th, hx, hth, by rw [Thread.next_of_prog hp, hlook]⟩) e
    obtain ⟨m, ctx, rfl, hstage, -⟩ := fork_stage hf ha
    rw [hstage]
    exact hact.aside (.of_eq rfl rfl rfl rfl) rfl fun hm => (h u _ hg).1 (congrArg some hm)

/-- No `Run` of a quiet task begins. -/
theorem Quiet.no_begin (h : Quiet (stateAt xs i).shared (stagesAt xs i) n) :
    ¬ Performs xs i (.beginRun n) := by
  intro hbegin
  obtain ⟨u, g, hg, ctx, rfl⟩ := hbegin.allowed code_obeys
  exact (h u _ hg).1 rfl

theorem quiet_of_closed (hcalls : Calls xs)
    (hidle : system.meets monitor Task.stage stopsIdle {} xs = true) (hi : i ≤ xs.length)
    (hclosed : (stateAt xs i).shared.closed = true) (n : String) :
    Quiet (stateAt xs i).shared (stagesAt xs i) n := by
  revert hclosed
  refine Sys.induction (S := system)
    (J := fun _ c G => c.shared.closed = true → Quiet c.shared G n) code_obeys
    (fun h => by cases h) ?_ hi
  intro i x c' G' hx _ htracks hmoved ih hclosed
  by_cases hwas : (stateAt xs i).shared.closed = true
  · exact (ih hwas).moved hcalls hx hmoved (.inl hwas)
  · cases hmoved with
    | idle | start t | env y | jump u e th g t hth hp hg hQ => exact absurd hclosed hwas
    | act u e th g a k hth hp hg ha hf =>
      by_cases hclose : a = .close
      · subst hclose
        have hcond := Sys.meets_at hidle hx
        simp only [stopsIdle, hth, Option.all_some, Thread.next_of_prog hp, hwas,
          Bool.false_or] at hcond
        have hnone : ∀ v x, stagesAt xs i v = some x → x.pending = none := fun v x hv =>
          Option.isNone_iff_eq_none.mp (htracks.all hcond hv)
        exact (quiet_close hnone (by simpa using hwas) e n).away (.of_eq rfl rfl rfl rfl)
          (.inr (.inr rfl))
      · exact absurd ((exec_closed hclose e _).symm.trans hclosed) hwas
    | fork u e th g a k t hth hp hg ha hf =>
      have hclose : a ≠ .close := by
        rintro rfl
        cases hf
      exact absurd ((exec_closed hclose e _).symm.trans hclosed) hwas

theorem closed_mono (hclosed : (stateAt xs i).shared.closed = true) (hij : i ≤ j)
    (hj : j ≤ xs.length) : (stateAt xs j).shared.closed = true := by
  revert hij
  refine Sys.induction (S := system) (J := fun m c _ => i ≤ m → c.shared.closed = true)
    code_obeys (fun hi => ?_) ?_ hj
  · obtain rfl : i = 0 := Nat.le_zero.mp hi
    exact hclosed
  intro m x c' G' _ hc' _ hmoved ih him
  rcases Nat.lt_or_eq_of_le him with hlt | rfl
  · have hwas := ih (Nat.le_of_lt_succ hlt)
    cases hmoved with
    | act u e th g a k hth hp hg ha hf | fork u e th g a k t hth hp hg ha hf =>
      exact (exec_keeps a e _).closed hwas
    | _ => exact hwas
  · rw [← hc']
    exact hclosed

/-- A task stays quiet from a `Stop` to the next look at the table for it. -/
theorem quiet_after_stop (hcalls : Calls xs)
    (hidle : system.meets monitor Task.stage stopsIdle {} xs = true)
    (hstop : Performs xs i (.stop n)) (hij : i < j) (hj : j ≤ xs.length)
    (hno : ∀ k, i < k → k < j → ¬ Performs xs k (.lookup n)) :
    Quiet (stateAt xs j).shared (stagesAt xs j) n := by
  revert hij hno
  refine Sys.induction
    (J := fun m c G => i < m → (∀ k, i < k → k < m → ¬ Performs xs k (.lookup n)) →
      Quiet c.shared G n) code_obeys (fun hi => absurd hi (Nat.not_lt_zero i)) ?_ hj
  intro m x c' G' hx _ htracks hmoved ih him hno
  rcases Nat.lt_or_eq_of_le (Nat.le_of_lt_succ him) with hlt | rfl
  · have hwas := ih hlt fun k hk hkm => hno k hk (Nat.lt_succ_of_lt hkm)
    exact hwas.moved hcalls hx hmoved (.inr (hno m hlt (Nat.lt_succ_self m)))
  obtain ⟨u, e, th, hx', hth, hnext⟩ := hstop
  obtain rfl : Move.run u e = x := Option.some.inj (hx'.symm.trans hx)
  have hheld := held_at hcalls (Nat.le_of_lt (List.getElem?_eq_some_iff.mp hx).1)
  have hcond := Sys.meets_at hidle hx
  simp only [stopsIdle, hth, Option.all_some, hnext] at hcond
  have hnone : ∀ v x, stagesAt xs i v = some x → x.pending ≠ some n := fun v x hv =>
    of_decide_eq_true (htracks.all hcond hv)
  obtain ⟨g, -, rfl, hshared, rfl⟩ := hmoved.acts hth hnext fun _ => rfl
  rw [hshared]
  exact (hheld.quiet_stop hnone e).away (.of_eq rfl rfl rfl rfl) (.inl rfl)

/-- **Stopped means stopped**, in every schedule in which `Stop` finds no thread of its task on its
way to `Run`, and the `Close` that closes the supervisor none of any task: a `Run` that begins comes
before the return of every `Close`, and after a `Stop` of its task a `Start` has looked at the table
first. -/
theorem stopped_stays_stopped (hcalls : Calls xs)
    (hidle : system.meets monitor Task.stage stopsIdle {} xs = true) {name : String}
    (hbegin : Performs xs j (.beginRun name)) :
    (CloseReturned xs i → j < i) ∧
      (Performs xs i (.stop name) → i < j → ∃ k, i < k ∧ k < j ∧ Performs xs k (.lookup name)) := by
  have hj : j ≤ xs.length := by
    obtain ⟨u, e, th, hx, -⟩ := hbegin
    exact Nat.le_of_lt (List.getElem?_eq_some_iff.mp hx).1
  constructor
  · rintro ⟨u, th, r, hth, hcloses, hr⟩
    by_contra hnot
    have hij : i ≤ j := Nat.le_of_not_lt hnot
    obtain ⟨-, g, hg, hobeys⟩ := (Sys.tracks code_obeys i).2 u th hth
    rw [Thread.prog_of_result hr] at hobeys
    obtain rfl : g = .shut := hobeys hcloses
    have hclosed := (held_at hcalls (Nat.le_trans hij hj)).shut u hg
    exact (quiet_of_closed hcalls hidle hj (closed_mono hclosed hij hj) name).no_begin hbegin
  · intro hstop hij
    by_contra hnot
    have hno : ∀ k, i < k → k < j → ¬ Performs xs k (.lookup name) := fun k hik hkj hk =>
      hnot ⟨k, hik, hkj, hk⟩
    exact (quiet_after_stop hcalls hidle hstop hij hj hno).no_begin hbegin

/-! ### Samples -/

theorem closeReturned_of_result {u : Nat} {r : Option Error}
    (h : ((stateAt xs i).threads u).map (fun th => (th.task.closes, th.result)) = some (true, some r)) :
    CloseReturned xs i := by
  obtain ⟨th, hth, heq⟩ := Option.map_eq_some_iff.mp h
  obtain ⟨hcloses, hr⟩ := Prod.mk.inj heq
  exact ⟨u, th, r, hth, hcloses, hr⟩

/-- A task is started, its `Run` returns, it is stopped and started again, its `Run` returns, and the
supervisor is closed. -/
def stopStartClose : Schedule :=
  [.start (.register .sample), .run 0 {}, .start (.start "ingest"), .run 2 {}, .run 2 {}, .run 2 {},
    .run 2 {}, .run 2 {}, .run 7 {}, .run 7 {}, .run 7 {}, .run 7 {}, .run 7 {},
    .start (.stop "ingest"), .run 13 {},
    .start (.start "ingest"), .run 15 {}, .run 15 {}, .run 15 {}, .run 15 {}, .run 15 {}, .run 20 {},
    .run 20 {}, .run 20 {}, .run 20 {}, .run 20 {}, .start .close, .run 26 {}, .run 26 {}, .run 26 {}]

/-- A `Start` has found its task; the supervisor is closed, and `Start` goes on. -/
def closeWhileStarting : Schedule :=
  [.start (.register .sample), .run 0 {}, .start (.start "ingest"), .run 2 {}, .start .close, .run 4 {},
    .run 4 {}, .run 4 {}, .run 2 {}, .run 2 {}, .run 2 {}, .run 2 {}, .run 11 {}, .run 11 {}]

/-- A task is stopped before its goroutine calls `Run`. -/
def stopBeforeRun : Schedule :=
  [.start (.register .sample), .run 0 {}, .start (.start "ingest"), .run 2 {}, .run 2 {}, .run 2 {},
    .run 2 {}, .run 2 {}, .start (.stop "ingest"), .run 8 {}, .run 7 {}, .run 7 {}]

theorem stopStartClose_stays_stopped :
    22 < 30 ∧ ∃ k, 14 < k ∧ k < 22 ∧ Performs stopStartClose k (.lookup "ingest") := by
  have hcalls : Calls stopStartClose := by simp [Calls, stopStartClose, Task.call]
  have hidle : system.meets monitor Task.stage stopsIdle {} stopStartClose = true := by
    decide +kernel
  have hbegin : Performs stopStartClose 22 (.beginRun "ingest") :=
    Sys.Performs.of_next rfl (by decide +kernel)
  have hstop : Performs stopStartClose 14 (.stop "ingest") :=
    Sys.Performs.of_next rfl (by decide +kernel)
  have hclosed : CloseReturned stopStartClose 30 :=
    closeReturned_of_result (u := 26) (r := none) (by decide +kernel)
  exact ⟨(stopped_stays_stopped hcalls hidle hbegin).1 hclosed,
    (stopped_stays_stopped hcalls hidle hbegin).2 hstop (by decide)⟩

/-- A `Run` begins after `Close` has returned, and one after `Stop` with no `Start` in between. -/
theorem run_begins_after_stop :
    (Calls closeWhileStarting ∧ CloseReturned closeWhileStarting 8 ∧
      Performs closeWhileStarting 13 (.beginRun "ingest")) ∧
    Calls stopBeforeRun ∧ Performs stopBeforeRun 9 (.stop "ingest") ∧
      Performs stopBeforeRun 11 (.beginRun "ingest") ∧
      ∀ k, 9 < k → k < 11 → ¬ Performs stopBeforeRun k (.lookup "ingest") := by
  refine ⟨⟨by simp [Calls, closeWhileStarting, Task.call],
    closeReturned_of_result (u := 4) (r := none) (by decide +kernel),
    Sys.Performs.of_next rfl (by decide +kernel)⟩, by simp [Calls, stopBeforeRun, Task.call],
    Sys.Performs.of_next rfl (by decide +kernel), Sys.Performs.of_next rfl (by decide +kernel), ?_⟩
  rintro k hk hk' ⟨u, e, th, hx, hth, hnext⟩
  obtain rfl : k = 10 := by omega
  cases hx
  have hgate : ((stateAt stopBeforeRun 10).threads 7).bind Thread.next =
      some (.gate Spec.sample.filled) := by decide +kernel
  rw [hth, Option.bind_some, hnext] at hgate
  cases hgate

end ShiftLock.Supervise
