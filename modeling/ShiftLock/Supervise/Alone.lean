import ShiftLock.Supervise.Stage

/-!
# A task overlaps itself

`Start` cancels the context of the goroutine that a task has and starts another one at once; the first
may still be in `Run`, or run again (`task_overlaps_itself`). In every schedule in which `spawn` finds
no other thread on its way to `Run`, in it, or past the look at its context, a task has at most one
`Run` at a time (`runs_alone`).

A goroutine that has returned from `Run` looks at its context next: `spawn` cancels it, so this one
does not run again. The invariant is about the threads that may run: there is at most one for each
task.
-/

namespace ShiftLock.Supervise

open Conc Function

/-- The task of a thread that is on its way to `Run`, in it, or past the look at its context. -/
def Stage.active : Stage → Option String
  | .spawned n _ | .before n _ | .inside n _ | .checked n _ => some n
  | _ => none

/-- The thread may execute the task: it is active, or will be after the look at its context. -/
def MayRun (w : World) (g : Stage) (n : String) : Prop :=
  g.active = some n ∨ ∃ ctx, g = .returned n ctx ∧ w.done ctx = false

/-- What holds in every state. -/
structure Alone (w : World) (G : Nat → Option Stage) : Prop where
  one : ∀ u v g g' n, G u = some g → G v = some g' → MayRun w g n → MayRun w g' n → u = v
  inside : ∀ u n ctx, G u = some (.inside n ctx) → w.running n = 1
  idle : ∀ n, (∀ u ctx, G u ≠ some (.inside n ctx)) → w.running n = 0

variable {w w' : World} {G : Nat → Option Stage} {u : Nat} {g g' : Stage} {n : String}

theorem Alone.running_le (h : Alone w G) (n : String) : w.running n ≤ 1 := by
  by_cases hin : ∃ u ctx, G u = some (.inside n ctx)
  · obtain ⟨u, ctx, hu⟩ := hin
    exact Nat.le_of_eq (h.inside u n ctx hu)
  · rw [h.idle n fun u ctx hu => hin ⟨u, ctx, hu⟩]
    exact Nat.zero_le 1

theorem MayRun.mono (hkeeps : w.Keeps w') (h : MayRun w' g n) : MayRun w g n := by
  refine h.imp_right ?_
  rintro ⟨ctx, rfl, hdone⟩
  refine ⟨ctx, rfl, ?_⟩
  by_contra hnot
  rw [hkeeps.done ctx (by simpa using hnot)] at hdone
  cases hdone

theorem MayRun.of_active {m : String} (hg : g.active = some m) (h : MayRun w g n) : m = n := by
  rcases h with h | ⟨ctx, rfl, -⟩
  · exact Option.some.inj (hg.symm.trans h)
  · cases hg

/-- A task whose other threads are not in `Run` is idle if this one is not either. -/
theorem Alone.idle_others (h : Alone w G) (hu : ∀ ctx, G u ≠ some (.inside n ctx))
    (hnone : ∀ v ctx, v ≠ u → G v ≠ some (.inside n ctx)) : w.running n = 0 := by
  refine h.idle n fun v ctx hx => ?_
  by_cases hv : v = u
  · exact hu ctx (hv ▸ hx)
  · exact hnone v ctx hv hx

/-- A thread changes, and the supervisor with it. -/
theorem Alone.put (h : Alone w G) (hkeeps : w.Keeps w')
    (hothers : ∀ n, MayRun w' g' n → ∀ v x, v ≠ u → G v = some x → ¬ MayRun w' x n)
    (hinside : ∀ n ctx, g' = .inside n ctx → w'.running n = 1)
    (hrunning : ∀ v n ctx, v ≠ u → G v = some (.inside n ctx) → w'.running n = 1)
    (hidle : ∀ n, (∀ v ctx, v ≠ u → G v ≠ some (.inside n ctx)) → (∀ ctx, g' ≠ .inside n ctx) →
      w'.running n = 0) : Alone w' (update G u (some g')) := by
  refine ⟨fun v v' x x' n hx hx' hmay hmay' => ?_, fun v n ctx hx => ?_, fun n hnone => ?_⟩
  · rcases update_eq_some.mp hx with ⟨hv, rfl⟩ | ⟨hv, hold⟩ <;>
      rcases update_eq_some.mp hx' with ⟨hv', rfl⟩ | ⟨hv', hold'⟩
    · rw [hv, hv']
    · exact absurd hmay' (hothers n hmay v' x' hv' hold')
    · exact absurd hmay (hothers n hmay' v x hv hold)
    · exact h.one v v' x x' n hold hold' (hmay.mono hkeeps) (hmay'.mono hkeeps)
  · rcases update_eq_some.mp hx with ⟨-, rfl⟩ | ⟨hv, hx⟩
    · exact hinside n ctx rfl
    · exact hrunning v n ctx hv hx
  · refine hidle n (fun v ctx hv hx => ?_) fun ctx hx => ?_
    · exact hnone v ctx (update_eq_some.mpr (.inr ⟨hv, hx⟩))
    · exact hnone u ctx (update_eq_some.mpr (.inl ⟨rfl, hx⟩))

/-- A change that makes no thread run. -/
theorem Alone.same (h : Alone w G) (hkeeps : w.Keeps w') (hrun : w'.running = w.running)
    (hmay : ∀ n, MayRun w' g' n → ∃ g, G u = some g ∧ MayRun w g n)
    (hinside : ∀ n ctx, g' = .inside n ctx ↔ G u = some (.inside n ctx)) :
    Alone w' (update G u (some g')) := by
  refine h.put hkeeps (fun n hg' v x hv hx hx' => ?_) (fun n ctx hg' => ?_)
    (fun v n ctx _ hx => by rw [hrun, h.inside v n ctx hx]) fun n hnone hg' => ?_
  · obtain ⟨g, hg, hmayg⟩ := hmay n hg'
    exact hv (h.one v u x g n hx hg (hx'.mono hkeeps) hmayg)
  · rw [hrun, h.inside u n ctx ((hinside n ctx).mp hg')]
  · rw [hrun]
    exact h.idle_others (fun ctx hx => hg' ctx ((hinside n ctx).mpr hx)) hnone

/-- A thread that may execute the task `n`, and no other one, enters `Run` or leaves it. -/
theorem Alone.turn (h : Alone w G) (hkeeps : w.Keeps w') (hg : G u = some g) (hmay : MayRun w g n)
    (hwas : ∀ m ctx, g = .inside m ctx → n = m) (hname : ∀ m, MayRun w' g' m → n = m)
    (hinside : ∀ m ctx, g' = .inside m ctx → w'.running m = 1)
    (hout : (∀ ctx, g' ≠ .inside n ctx) → w'.running n = 0)
    (hrest : ∀ m, m ≠ n → w'.running m = w.running m) :
    Alone w' (update G u (some g')) := by
  have hothers : ∀ v x, v ≠ u → G v = some x → ¬ MayRun w x n := fun v x hv hx hxm =>
    hv (h.one v u x _ n hx hg hxm hmay)
  refine h.put hkeeps (fun m hm v x hv hx hxm => ?_) hinside (fun v m ctx hv hx => ?_)
    fun m hnone hm => ?_
  · obtain rfl := hname m hm
    exact hothers v x hv hx (hxm.mono hkeeps)
  · have hmn : m ≠ n := by
      rintro rfl
      exact hothers v _ hv hx (.inl rfl)
    rw [hrest m hmn, h.inside v m ctx hx]
  · by_cases hmn : m = n
    · subst hmn
      exact hout hm
    · rw [hrest m hmn]
      refine h.idle_others (fun ctx hx => ?_) hnone
      exact hmn (hwas m ctx (Option.some.inj (hg.symm.trans hx))).symm

/-- A `spawn` finds no other active thread of its task. -/
def SpawnsAlone (G : Nat → Option Stage) (u : Nat) (a : Act) : Prop :=
  ∀ spec, a = .spawn spec → ∀ v g, v ≠ u → G v = some g → g.active ≠ some spec.name

/-- `spawn` cancels the context that was in the table. -/
theorem spawn_cancels {spec : Spec} {ctx c : Nat} (h : (w.spawn spec).2 = .ok c)
    (hholds : w.Holds spec.name ctx) : (w.spawn spec).1.done ctx = true := by
  rcases hholds with hdone | ⟨t, ht, hctx⟩
  · exact (exec_keeps (.spawn spec) {} w).done ctx hdone
  unfold World.spawn at h ⊢
  split at h
  · cases h
  rename_i hzone
  rw [if_neg hzone]
  simp [ht, World.done, hctx]

theorem exec_running {a : Act} (ha : a.runs = false) (e : Env) (w : World) :
    (exec a e w).1.running = w.running := by
  cases a with
  | beginRun n | endRun n => cases ha
  | register spec =>
    simp only [exec, World.register]
    split
    · rfl
    split <;> rfl
  | spawn spec =>
    simp only [exec, World.spawn]
    split
    · rfl
    split <;> rfl
  | stop name =>
    simp only [exec, World.stop]
    split <;> rfl
  | close =>
    simp only [exec, World.close]
    split <;> rfl
  | isolate zone =>
    simp only [exec, World.isolate]
    split <;> rfl
  | _ => rfl

theorem Alone.act (h : Alone w G) (hheld : Held w G) (hg : G u = some g) {a : Act}
    (ha : monitor.allows g a) (halone : SpawnsAlone G u a) (e : Env) :
    Alone (exec a e w).1 (update G u (some (monitor.after g a (exec a e w).2))) := by
  have hkeeps := exec_keeps a e w
  have hgoes := goes ha (exec a e w).2
  generalize hr : (exec a e w).2 = r at hgoes ⊢
  generalize monitor.after g a r = g' at hgoes ⊢
  -- a thread that cannot run replaces one that is not in `Run`
  have hdrop : a.runs = false → (∀ n, ¬ MayRun (exec a e w).1 g' n) → (∀ n ctx, g' ≠ .inside n ctx) →
      (∀ n ctx, g ≠ .inside n ctx) → Alone (exec a e w).1 (update G u (some g')) := by
    intro hruns hmay hin hing
    refine h.same hkeeps (exec_running hruns e w) (fun n hn => absurd hn (hmay n)) fun n ctx => ?_
    rw [hg, Option.some.injEq]
    exact ⟨fun h => absurd h (hin n ctx), fun h => absurd h (hing n ctx)⟩
  cases hgoes with
  | stay _ _ hruns =>
    refine h.same hkeeps (exec_running hruns e w) (fun n hn => ⟨g, hg, hn.mono hkeeps⟩) fun n ctx => ?_
    rw [hg, Option.some.injEq]
  | drop _ _ _ hg' hruns hing =>
    refine hdrop hruns (fun n hn => ?_) (fun n ctx hn => ?_) hing
    · rcases hg' with rfl | rfl <;> rcases hn with hn | ⟨ctx, hn, -⟩ <;> cases hn
    · rcases hg' with rfl | rfl <;> cases hn
  | shut _ hgo | look name spec hgo =>
    subst hgo
    refine hdrop rfl (fun n hn => ?_) (by simp) (by simp)
    rcases hn with hn | ⟨ctx, hn, -⟩ <;> cases hn
  | spawn spec ctx hgs =>
    subst hgs
    have hrun := exec_running (a := .spawn spec) rfl e w
    refine h.put hkeeps (fun n hn v x hv hx hmay => ?_) (fun n ctx hn => by cases hn)
      (fun v n ctx _ hx => by rw [hrun, h.inside v n ctx hx]) fun n hnone _ => ?_
    · obtain rfl := MayRun.of_active rfl hn
      rcases hmay with hactive | ⟨ctx', rfl, hdone⟩
      · exact halone spec rfl v x hv hx hactive
      · -- a thread that has returned finds its context done
        have hcancelled := spawn_cancels hr (hheld.ctx v _ _ ctx' hx rfl)
        rw [show (exec (.spawn spec) e w).1 = (w.spawn spec).1 from rfl, hcancelled] at hdone
        cases hdone
    · rw [hrun]
      exact h.idle_others (by simp [hg]) hnone
  | begin n ctx hgb =>
    subst hgb
    have hzero : w.running n = 0 := by
      refine h.idle_others (u := u) (by simp [hg]) fun v ctx' hv hx => ?_
      exact hv (h.one v u _ _ n hx hg (.inl rfl) (.inl rfl))
    refine h.turn hkeeps hg (.inl rfl) (fun m ctx' hm => by cases hm) (fun m => MayRun.of_active rfl)
      (fun m ctx' hm => ?_) (fun hm => absurd rfl (hm ctx)) fun m hmn => by simp [exec, hmn]
    cases hm
    simp [exec, hzero]
  | finish n ctx _ hgb =>
    subst hgb
    have hone : w.running n = 1 := h.inside u n ctx hg
    refine h.turn hkeeps hg (.inl rfl) (fun m ctx' hm => ?_) (fun m hm => ?_)
      (fun m ctx' hm => by cases hm) (fun _ => by simp [exec, hone]) fun m hmn => by simp [exec, hmn]
    · cases hm
      rfl
    · rcases hm with hm | ⟨ctx', hm, -⟩
      · cases hm
      · cases hm
        rfl
  | check n ctx hgb =>
    subst hgb
    refine h.same hkeeps rfl (fun m hm => ⟨_, hg, ?_⟩) fun m ctx' => ?_
    · obtain rfl := MayRun.of_active rfl hm
      exact .inr ⟨ctx, rfl, hr⟩
    · rw [hg]
      simp

theorem Alone.world (h : Alone w G) (hkeeps : w.Keeps w') (hrun : w'.running = w.running) :
    Alone w' G :=
  ⟨fun u v g g' n hg hg' hm hm' => h.one u v g g' n hg hg' (hm.mono hkeeps) (hm'.mono hkeeps),
    fun u n ctx hu => by rw [hrun, h.inside u n ctx hu], fun n hn => by rw [hrun, h.idle n hn]⟩

/-- A new thread takes over the context of one that is active. -/
theorem Alone.handOver (h : Alone w G) (h' : Alone w' (update G u (some .other)))
    (hkeeps : w.Keeps w') {ctx v : Nat} (hg : G u = some (.spawned n ctx))
    (hv : update G u (some .other) v = none) :
    Alone w' (update (update G u (some .other)) v (some (.before n ctx))) := by
  refine h'.put (.of_eq rfl rfl rfl rfl) (fun m hm y x hy hx hxm => ?_) (fun m ctx' hm => by cases hm)
    (fun y m ctx' _ hx => h'.inside y m ctx' hx) fun m hnone _ => h'.idle m fun y ctx' hx => ?_
  · obtain rfl : n = m := by
      rcases hm with hm | ⟨ctx', hm, -⟩
      · exact Option.some.inj hm
      · cases hm
    rcases update_eq_some.mp hx with ⟨-, rfl⟩ | ⟨hyu, hx⟩
    · rcases hxm with hxm | ⟨ctx', hxm, -⟩ <;> cases hxm
    · exact hyu (h.one y u x _ n hx hg (hxm.mono hkeeps) (.inl rfl))
  · by_cases hyv : y = v
    · subst hyv
      rw [hv] at hx
      cases hx
    · exact hnone y ctx' hyv hx

/-- A `spawn` finds no other active thread of its task, as a condition on a move. -/
def spawnsAlone (c : State) (G : Nat → Option Stage) : Move Env Outside Task → Bool
  | .run u _ => (c.threads u).all fun th =>
    match th.next with
    | some (.spawn spec) => (List.range c.clock).all fun v =>
      (G v).all fun g => v == u || decide (g.active ≠ some spec.name)
    | _ => true
  | _ => true

theorem spawnsAlone_act {c : State} (htracks : Tracks monitor Ends c G) {e : Env}
    (h : spawnsAlone c G (.run u e) = true) {th : Thread Act Act.Answer Task (Option Error)}
    (hth : c.threads u = some th) {a : Act} {k : a.Answer → P (Option Error ⊕ Task)}
    (hp : th.prog = .act a k) : SpawnsAlone G u a := by
  rintro spec rfl v g hv hg
  simp only [spawnsAlone, hth, Option.all_some, Thread.next_of_prog hp] at h
  have hall := htracks.all h hg
  simpa [hv] using hall

/-- **A task never overlaps itself**, in every schedule in which `spawn` finds no other thread of its
task on its way to `Run`, in it, or past the look at its context. -/
theorem runs_alone {xs : Schedule} (hcalls : Calls xs)
    (halone : system.meets monitor Task.stage spawnsAlone {} xs = true) {i : Nat}
    (hi : i ≤ xs.length) (name : String) : (stateAt xs i).shared.running name ≤ 1 := by
  suffices h : Alone (stateAt xs i).shared (stagesAt xs i) from h.running_le name
  refine Sys.induction (J := fun _ c G => Alone c.shared G) code_obeys ?_ ?_ hi
  · exact ⟨fun _ _ _ _ _ h => (by cases h), fun _ _ _ h => (by cases h), fun _ _ => rfl⟩
  intro i x c' G' hx _ htracks hmoved ih
  have hheld := held_at hcalls (Nat.le_of_lt (List.getElem?_eq_some_iff.mp hx).1)
  have hcond := Sys.meets_at halone hx
  have hrefl : (stateAt xs i).shared.Keeps (stateAt xs i).shared := .of_eq rfl rfl rfl rfl
  cases hmoved with
  | idle => exact ih
  | start t =>
    rw [stage_of_call (hcalls t (List.mem_of_getElem? hx))]
    refine ih.same hrefl rfl (fun n hn => ?_) fun n ctx => ?_
    · rcases hn with hn | ⟨ctx, hn, -⟩ <;> cases hn
    · rw [htracks.at_clock]
      simp
  | env y => exact ih.world (parentDone_keeps _) rfl
  | jump u e th g t hth hp hg hQ =>
    rcases jump_stage hQ with ⟨n, ctx, rfl, hstage⟩ | ⟨rfl, hstage⟩ <;> rw [hstage]
    · refine ih.same hrefl rfl (fun m hm => ⟨_, hg, .inl ?_⟩) fun m ctx' => by rw [hg]; simp
      rcases hm with hm | ⟨ctx', hm, -⟩
      · exact hm
      · cases hm
    · refine ih.same hrefl rfl (fun m hm => ⟨_, hg, hm⟩) fun m ctx' => by rw [hg]; simp
  | act u e th g a k hth hp hg ha hf =>
    exact ih.act hheld hg ha (spawnsAlone_act htracks hcond hth hp) e
  | fork u e th g a k t hth hp hg ha hf =>
    have hact := ih.act hheld hg ha (spawnsAlone_act htracks hcond hth hp) e
    have hne : (stateAt xs i).clock ≠ u := (Nat.ne_of_lt (htracks.2 u th hth).1).symm
    obtain ⟨n, ctx, rfl, hstage, hother⟩ := fork_stage hf ha
    rw [hstage]
    rw [show monitor.after (.spawned n ctx) a (exec a e (stateAt xs i).shared).2 = .other from hother]
      at hact
    rw [hother]
    refine ih.handOver hact (exec_keeps a e _) hg ?_
    rw [update_of_ne hne]
    exact htracks.at_clock

def Spec.sample : Spec := { name := "ingest", mode := .singleton }

/-- `Register`, `Start`, the task's `Run` to its end, and another `Start` with its `Run`. -/
def restarted : Schedule :=
  [.start (.register .sample), .run 0 {}, .start (.start "ingest"), .run 2 {}, .run 2 {}, .run 2 {},
    .run 2 {}, .run 2 {}, .run 7 {}, .run 7 {}, .run 7 {}, .run 7 {}, .run 7 {},
    .start (.start "ingest"), .run 13 {}, .run 13 {}, .run 13 {}, .run 13 {}, .run 13 {}, .run 18 {},
    .run 18 {}]

/-- `Register`, and two `Start`s, the second one while the `Run` of the first is executing. -/
def startedTwice : Schedule :=
  [.start (.register .sample), .run 0 {}, .start (.start "ingest"), .run 2 {}, .run 2 {}, .run 2 {},
    .run 2 {}, .run 2 {}, .run 7 {}, .run 7 {},
    .start (.start "ingest"), .run 10 {}, .run 10 {}, .run 10 {}, .run 10 {}, .run 10 {}, .run 15 {},
    .run 15 {}]

theorem runs_alone_restarted : (stateAt restarted 21).shared.running "ingest" ≤ 1 :=
  runs_alone (by simp [Calls, restarted, Task.call]) (by decide +kernel) (by decide) "ingest"

/-- `Start` cancels the context of the first `Run` and does not wait for it to return. -/
theorem task_overlaps_itself : Calls startedTwice ∧
    (stateAt startedTwice 18).shared.running "ingest" = 2 :=
  ⟨by simp [Calls, startedTwice, Task.call], by decide +kernel⟩

end ShiftLock.Supervise
