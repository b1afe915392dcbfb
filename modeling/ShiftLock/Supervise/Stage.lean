import ShiftLock.Supervise.Code

/-!
# Stages of the calls and goroutines of a supervisor

A monitor follows a `Start` from its look at the table to the goroutine it starts, and the goroutine
through its rounds. Whatever the schedule, the context of a goroutine that may still look at it is done
or is the one in the table (`Held.ctx`).
-/

namespace ShiftLock.Supervise

open Conc Function
open Conc.Prog (Obeys Monitor)

inductive Stage where
  | other
  /-- A `Start` past its look at the table. -/
  | starting (name : String)
  /-- A `Start` that has made the context of its goroutine. -/
  | spawned (name : String) (ctx : Nat)
  /-- A goroutine before `Run`. -/
  | before (name : String) (ctx : Nat)
  /-- In `Run`. -/
  | inside (name : String) (ctx : Nat)
  /-- `Run` has returned; the look at the context comes next. -/
  | returned (name : String) (ctx : Nat)
  /-- The context was not done; the goroutine may wait and go on. -/
  | checked (name : String) (ctx : Nat)
  | leaving
  /-- A `Close` past its section. -/
  | shut
  deriving DecidableEq, Repr

def monitor : Monitor Act Act.Answer Stage where
  allows g
    | .register _ | .lookup _ | .stop _ | .close => g = .other
    | .gate _ => (∃ n, g = .starting n) ∨ ∃ n ctx, g = .before n ctx
    | .spawn spec => g = .starting spec.name
    | .wgAdd => ∃ n ctx, g = .spawned n ctx
    | .go ctx spec => g = .spawned spec.name ctx
    | .beginRun n => ∃ ctx, g = .before n ctx
    | .endRun n => ∃ ctx, g = .inside n ctx
    | .ctxErr ctx => ∃ n, g = .returned n ctx
    | .wait ctx _ => ∃ n, g = .checked n ctx
    | .isolate _ => ∃ n ctx, g = .checked n ctx
    | .wgDone => g = .leaving ∨ ∃ n ctx, g = .checked n ctx
    | .wgWait => g = .shut
  after g
    | .lookup _, .ok spec => .starting spec.name
    | .gate _, some _ => match g with
      | .starting _ => .other
      | _ => .leaving
    | .spawn _, .error _ => .other
    | .spawn spec, .ok ctx => .spawned spec.name ctx
    | .go _ _, _ => .other
    | .beginRun _, _ => match g with
      | .before n ctx => .inside n ctx
      | g => g
    | .endRun _, _ => match g with
      | .inside n ctx => .returned n ctx
      | g => g
    | .ctxErr ctx, false => match g with
      | .returned n _ => .checked n ctx
      | g => g
    | .ctxErr _, true => .leaving
    | .wait _ _, true => .leaving
    | .isolate _, _ => .leaving
    | .wgDone, _ => .leaving
    | .close, _ => .shut
    | _, _ => g

def Task.stage : Task → Stage
  | .closing => .shut
  | .loop ctx spec _ _ => .before spec.name ctx
  | _ => .other

/-- A call of `Close`. -/
def Task.closes : Task → Bool
  | .close | .closing => true
  | _ => false

/-- How a task ends: `Close` past its section, and a goroutine that goes on does so with its name and
its context. -/
def Ends (t : Task) (g : Stage) : Option Error ⊕ Task → Prop
  | .inl _ => t.closes = true → g = .shut
  | .inr (.loop ctx spec _ _) => g = .checked spec.name ctx
  | .inr .closing => g = .shut
  | .inr _ => False

variable {g : Stage}

theorem leave_obeys {t : Task} (ht : t.closes = false)
    (hg : g = .leaving ∨ ∃ n ctx, g = .checked n ctx) : Obeys monitor (Ends t) leave g :=
  Obeys.perform hg fun _ h => by rw [ht] at h; cases h

theorem settle_obeys (ctx : Nat) (spec : Spec) (delay : Duration) (restarts : Int)
    (err : Option String) {t : Task} (ht : t.closes = false) :
    Obeys monitor (Ends t) (settle ctx spec delay restarts err) (.checked spec.name ctx) := by
  have hleave : Obeys monitor (Ends t) leave (.checked spec.name ctx) :=
    leave_obeys ht (.inr ⟨_, _, rfl⟩)
  have hwait : ∀ after delay' restarts', Obeys monitor (Ends t)
      (waitFor ctx after (.loop ctx spec delay' restarts')) (.checked spec.name ctx) := by
    intro after delay' restarts'
    refine Obeys.perform ⟨_, rfl⟩ fun stopped => ?_
    cases stopped with
    | true => exact leave_obeys ht (.inl rfl)
    | false => exact rfl
  unfold settle
  split
  · exact hleave
  split
  · exact hwait _ _ _
  split
  · exact hleave
  split
  · exact hleave
  · exact Obeys.perform ⟨_, _, rfl⟩ fun _ => leave_obeys ht (.inl rfl)
  · dsimp only
    split
    · exact hleave
    · exact hwait _ _ _

theorem start_obeys (name : String) :
    Obeys monitor (fun _ _ => True) (start name) .other := by
  refine Obeys.perform rfl fun spec => ?_
  cases spec with
  | error err => trivial
  | ok spec =>
    refine Obeys.perform (.inl ⟨_, rfl⟩) fun err => ?_
    cases err with
    | some err => trivial
    | none =>
      refine Obeys.perform rfl fun ctx => ?_
      cases ctx with
      | error err => trivial
      | ok ctx => exact Obeys.perform ⟨_, _, rfl⟩ fun _ => Obeys.perform rfl fun _ => trivial

theorem register_obeys (spec : Spec) :
    Obeys monitor (fun g _ => g = .other) (register spec) .other := by
  unfold register
  split
  · rfl
  · exact Obeys.perform rfl fun _ => rfl

theorem code_obeys (t : Task) : Obeys monitor (Ends t) (code t) t.stage := by
  have hreturns : ∀ (t : Task) (p : P (Option Error)), t.closes = false →
      Obeys monitor (fun _ _ => True) p .other → Obeys monitor (Ends t) (returns p) .other :=
    fun t p ht hp => hp.bind fun _ _ _ h => by rw [ht] at h; cases h
  cases t with
  | register spec => exact hreturns _ _ rfl ((register_obeys spec).mono fun _ _ _ => trivial)
  | start name => exact hreturns _ _ rfl (start_obeys name)
  | startSpec spec =>
    refine hreturns _ _ rfl ((register_obeys spec).bind fun g err hg => ?_)
    subst hg
    cases err with
    | some err => trivial
    | none =>
      by_cases hmode : spec.mode = .manual
      · simp only [hmode, if_true]
        trivial
      · simp only [hmode, if_false]
        exact start_obeys spec.name
  | stop name => exact hreturns _ _ rfl (Obeys.perform rfl fun _ => trivial)
  | close =>
    refine Obeys.perform rfl fun was => ?_
    cases was with
    | true => exact fun _ => rfl
    | false => exact rfl
  | closing =>
    refine Obeys.perform rfl fun none => ?_
    cases none with
    | true => exact fun _ => rfl
    | false => exact rfl
  | loop ctx spec delay restarts =>
    refine Obeys.perform (.inr ⟨_, _, rfl⟩) fun err => ?_
    cases err with
    | some err => exact leave_obeys rfl (.inl rfl)
    | none =>
      refine Obeys.perform ⟨_, rfl⟩ fun _ => Obeys.perform ⟨_, rfl⟩ fun err =>
        Obeys.perform ⟨_, rfl⟩ fun done => ?_
      cases done with
      | true => exact leave_obeys rfl (.inl rfl)
      | false => exact settle_obeys ctx spec delay restarts err rfl

/-- The stages of the threads after `i` moves. -/
abbrev stagesAt (xs : Schedule) (i : Nat) : Nat → Option Stage :=
  system.watchAt monitor Task.stage {} xs i

/-! ## Contexts -/

/-- The task and the context of a thread that has one. -/
def Stage.held : Stage → Option (String × Nat)
  | .spawned n ctx | .before n ctx | .inside n ctx | .returned n ctx | .checked n ctx => some (n, ctx)
  | _ => none

/-- The context is done, or it is the one in the table. -/
def World.Holds (w : World) (n : String) (ctx : Nat) : Prop :=
  w.done ctx = true ∨ ∃ t, w.tasks n = some t ∧ t.cancel = some ctx

/-- What no action undoes. -/
structure World.Keeps (w w' : World) : Prop where
  done : ∀ ctx, w.done ctx = true → w'.done ctx = true
  holds : ∀ n ctx, w.Holds n ctx → w'.Holds n ctx
  closed : w.closed = true → w'.closed = true

/-- The entries of the table have the name under which they are found. -/
def World.Named (w : World) : Prop := ∀ n t, w.tasks n = some t → t.spec.name = n

variable {w w' : World}

theorem World.Keeps.of_eq (htasks : w'.tasks = w.tasks) (hroot : w'.root = w.root)
    (hcancelled : w'.cancelled = w.cancelled) (hclosed : w'.closed = w.closed) : w.Keeps w' := by
  have hdone : ∀ ctx, w'.done ctx = w.done ctx := by simp [World.done, hroot, hcancelled]
  refine ⟨fun ctx h => by rw [hdone, h], fun n ctx h => ?_, fun h => by rw [hclosed, h]⟩
  rwa [World.Holds, hdone, htasks]

/-- The entry of a task is replaced, and the context it had is cancelled. -/
theorem World.Keeps.replace {n : String} {t t' : Entry} (ht : w.tasks n = some t)
    (htasks : w'.tasks = update w.tasks n (some t')) (hroot : w'.root = w.root)
    (hcancelled : w'.cancelled = t.cancel.toList ++ w.cancelled) (hclosed : w'.closed = w.closed) :
    w.Keeps w' := by
  have hdone : ∀ ctx, w.done ctx = true → w'.done ctx = true := by
    intro ctx h
    simp only [World.done, hroot, hcancelled, Bool.or_eq_true, List.contains_iff_mem,
      List.mem_append] at h ⊢
    exact h.imp_right .inr
  refine ⟨hdone, fun m ctx h => ?_, fun h => by rw [hclosed, h]⟩
  rcases h with h | ⟨x, hx, hctx⟩
  · exact .inl (hdone ctx h)
  by_cases hm : m = n
  · -- the context that was in the table
    subst hm
    rw [ht, Option.some.injEq] at hx
    subst hx
    left
    simp [World.done, hcancelled, hctx]
  · exact .inr ⟨x, by rw [htasks, update_of_ne hm, hx], hctx⟩

/-- No action undoes what is done or held. -/
theorem exec_keeps (a : Act) (e : Env) (w : World) : w.Keeps (exec a e w).1 := by
  cases a with
  | register spec =>
    simp only [exec, World.register]
    split
    · exact .of_eq rfl rfl rfl rfl
    split
    · exact .of_eq rfl rfl rfl rfl
    · rename_i hnew
      refine ⟨fun ctx h => h, fun n ctx h => h.imp_right ?_, fun h => h⟩
      rintro ⟨t, ht, hctx⟩
      have hne : n ≠ spec.name := by
        rintro rfl
        simp [ht] at hnew
      exact ⟨t, (update_of_ne hne _ _).trans ht, hctx⟩
  | spawn spec =>
    simp only [exec, World.spawn]
    split
    · exact .of_eq rfl rfl rfl rfl
    split
    · exact .of_eq rfl rfl rfl rfl
    · rename_i t ht
      exact .replace ht rfl rfl rfl rfl
  | stop name =>
    simp only [exec, World.stop]
    split
    · exact .of_eq rfl rfl rfl rfl
    · rename_i t ht
      exact .replace ht rfl rfl rfl rfl
  | close =>
    simp only [exec, World.close]
    split
    · exact .of_eq rfl rfl rfl rfl
    · exact ⟨fun _ _ => rfl, fun _ _ _ => .inl rfl, fun _ => rfl⟩
  | isolate zone =>
    simp only [exec, World.isolate]
    split <;> exact .of_eq rfl rfl rfl rfl
  | _ => exact .of_eq rfl rfl rfl rfl

theorem exec_named (a : Act) (e : Env) (h : w.Named) : (exec a e w).1.Named := by
  have hupdate : ∀ (n : String) (t : Entry), t.spec.name = n →
      ∀ m x, update w.tasks n (some t) m = some x → x.spec.name = m := by
    intro n t ht m x hx
    by_cases hm : m = n
    · subst hm
      rw [update_self, Option.some.injEq] at hx
      rw [← hx, ht]
    · rw [update_of_ne hm] at hx
      exact h m x hx
  cases a with
  | register spec =>
    simp only [exec, World.register]
    split
    · exact h
    split
    · exact h
    · exact hupdate spec.name _ rfl
  | spawn spec =>
    simp only [exec, World.spawn]
    split
    · exact h
    split
    · exact h
    · rename_i t ht
      exact hupdate spec.name _ (h _ t ht)
  | stop name =>
    simp only [exec, World.stop]
    split
    · exact h
    · rename_i t ht
      exact hupdate name _ (h _ t ht)
  | close =>
    simp only [exec, World.close]
    split <;> exact h
  | isolate zone =>
    simp only [exec, World.isolate]
    split <;> exact h
  | _ => exact h

structure Held (w : World) (G : Nat → Option Stage) : Prop where
  named : w.Named
  ctx : ∀ u g n ctx, G u = some g → g.held = some (n, ctx) → w.Holds n ctx
  shut : ∀ u, G u = some .shut → w.closed = true

variable {G : Nat → Option Stage} {u : Nat} {g' : Stage}

/-- A thread changes, and the supervisor with it. -/
theorem Held.put (h : Held w G) (hkeeps : w.Keeps w') (hnamed : w'.Named)
    (hctx : ∀ n ctx, g'.held = some (n, ctx) → w'.Holds n ctx)
    (hshut : g' = .shut → w'.closed = true) : Held w' (update G u (some g')) := by
  refine ⟨hnamed, fun v x n ctx hv hx => ?_, fun v hv => ?_⟩
  · rcases update_eq_some.mp hv with ⟨-, rfl⟩ | ⟨-, hv⟩
    · exact hctx n ctx hx
    · exact hkeeps.holds n ctx (h.ctx v x n ctx hv hx)
  · rcases update_eq_some.mp hv with ⟨-, rfl⟩ | ⟨-, hv⟩
    · exact hshut rfl
    · exact hkeeps.closed (h.shut v hv)

/-- The action is the begin or the end of a `Run`. -/
def Act.runs : Act → Bool
  | .beginRun _ | .endRun _ => true
  | _ => false

/-- What an action can do to a thread. -/
inductive Goes (g : Stage) : (a : Act) → a.Answer → Stage → Prop
  | stay (a : Act) (r : a.Answer) (ha : a.runs = false) : Goes g a r g
  | drop (a : Act) (r : a.Answer) (g' : Stage) (hg' : g' = .other ∨ g' = .leaving)
    (ha : a.runs = false) (hg : ∀ n ctx, g ≠ .inside n ctx) : Goes g a r g'
  | shut (r : Bool) (hg : g = .other) : Goes g .close r .shut
  | look (name : String) (spec : Spec) (hg : g = .other) :
    Goes g (.lookup name) (.ok spec) (.starting spec.name)
  | spawn (spec : Spec) (ctx : Nat) (hg : g = .starting spec.name) :
    Goes g (.spawn spec) (.ok ctx) (.spawned spec.name ctx)
  | begin (n : String) (ctx : Nat) (hg : g = .before n ctx) : Goes g (.beginRun n) () (.inside n ctx)
  | finish (n : String) (ctx : Nat) (r : Option String) (hg : g = .inside n ctx) :
    Goes g (.endRun n) r (.returned n ctx)
  | check (n : String) (ctx : Nat) (hg : g = .returned n ctx) :
    Goes g (.ctxErr ctx) false (.checked n ctx)

theorem goes {a : Act} (ha : monitor.allows g a) (r : a.Answer) : Goes g a r (monitor.after g a r) := by
  cases a with
  | lookup name =>
    obtain rfl : g = .other := ha
    cases r with
    | error err => exact .stay _ _ rfl
    | ok spec => exact .look name spec rfl
  | gate spec =>
    cases r with
    | none => exact .stay _ _ rfl
    | some err =>
      rcases ha with ⟨n, rfl⟩ | ⟨n, ctx, rfl⟩
      · exact .drop _ _ _ (.inl rfl) rfl (by simp)
      · exact .drop _ _ _ (.inr rfl) rfl (by simp)
  | spawn spec =>
    obtain rfl : g = .starting spec.name := ha
    cases r with
    | error err => exact .drop _ _ _ (.inl rfl) rfl (by simp)
    | ok ctx => exact .spawn spec ctx rfl
  | go ctx spec =>
    obtain rfl : g = .spawned spec.name ctx := ha
    exact .drop _ _ _ (.inl rfl) rfl (by simp)
  | beginRun n =>
    obtain ⟨ctx, rfl⟩ := ha
    exact .begin n ctx rfl
  | endRun n =>
    obtain ⟨ctx, rfl⟩ := ha
    exact .finish n ctx r rfl
  | ctxErr ctx =>
    obtain ⟨n, rfl⟩ := ha
    cases r with
    | false => exact .check n ctx rfl
    | true => exact .drop _ _ _ (.inr rfl) rfl (by simp)
  | wait ctx after =>
    obtain ⟨n, rfl⟩ := ha
    cases r with
    | false => exact .stay _ _ rfl
    | true => exact .drop _ _ _ (.inr rfl) rfl (by simp)
  | isolate zone =>
    obtain ⟨n, ctx, rfl⟩ := ha
    exact .drop _ _ _ (.inr rfl) rfl (by simp)
  | wgDone =>
    refine .drop _ _ _ (.inr rfl) rfl fun n ctx hg => ?_
    rcases ha with ha | ⟨m, ctx', ha⟩ <;> rw [hg] at ha <;> cases ha
  | close => exact .shut r ha
  | _ => exact .stay _ _ rfl

/-- The context that `spawn` makes is in the table. -/
theorem spawn_holds {spec : Spec} {ctx : Nat} (h : (w.spawn spec).2 = .ok ctx) :
    (w.spawn spec).1.Holds spec.name ctx := by
  unfold World.spawn at h ⊢
  split at h
  · cases h
  rename_i hzone
  split at h
  · cases h
  cases h
  rw [if_neg hzone]
  exact .inr ⟨_, update_self .., rfl⟩

theorem Held.act (h : Held w G) (hg : G u = some g) {a : Act} (ha : monitor.allows g a) (e : Env) :
    Held (exec a e w).1 (update G u (some (monitor.after g a (exec a e w).2))) := by
  have hkeeps := exec_keeps a e w
  have hgoes := goes ha (exec a e w).2
  have hold : ∀ n ctx, g.held = some (n, ctx) → (exec a e w).1.Holds n ctx := fun n ctx hctx =>
    hkeeps.holds n ctx (h.ctx u g n ctx hg hctx)
  generalize hr : (exec a e w).2 = r at hgoes ⊢
  generalize monitor.after g a r = g' at hgoes ⊢
  cases hgoes with
  | stay _ _ _ =>
    exact h.put hkeeps (exec_named a e h.named) hold fun hs => hkeeps.closed (h.shut u (hs ▸ hg))
  | drop _ _ _ hg' =>
    refine h.put hkeeps (exec_named a e h.named) (fun n ctx hctx => ?_) fun hs => ?_
    · rcases hg' with rfl | rfl <;> cases hctx
    · rcases hg' with rfl | rfl <;> cases hs
  | shut _ _ =>
    refine h.put hkeeps (exec_named .close e h.named) (fun n ctx hctx => by cases hctx) fun _ => ?_
    simp only [exec, World.close]
    split
    · assumption
    · rfl
  | look name spec _ =>
    exact h.put hkeeps (exec_named _ e h.named) (fun n ctx hctx => by cases hctx) fun hs => by cases hs
  | spawn spec ctx _ =>
    refine h.put hkeeps (exec_named _ e h.named) (fun n ctx' hctx => ?_) fun hs => by cases hs
    cases hctx
    exact spawn_holds hr
  | begin n ctx hgb | finish n ctx _ hgb | check n ctx hgb =>
    subst hgb
    exact h.put hkeeps (exec_named _ e h.named) hold fun hs => by cases hs

theorem Held.world (h : Held w G) (hkeeps : w.Keeps w') (hnamed : w'.Named) : Held w' G :=
  ⟨hnamed, fun u g n ctx hu hg => hkeeps.holds n ctx (h.ctx u g n ctx hu hg),
    fun u hu => hkeeps.closed (h.shut u hu)⟩

theorem parentDone_keeps (w : World) : w.Keeps { w with root := true } :=
  ⟨fun _ _ => rfl, fun _ _ _ => .inl rfl, fun h => h⟩

theorem stage_of_call {t : Task} (h : t.call = true) : t.stage = .other := by
  cases t with
  | closing | loop ctx spec delay restarts => cases h
  | _ => rfl

/-- A forked goroutine has the context of the `Start` that forked it. -/
theorem fork_stage {a : Act} {r : a.Answer} {t : Task} (hf : fork a r = some t)
    (ha : monitor.allows g a) :
    ∃ n ctx, g = .spawned n ctx ∧ t.stage = .before n ctx ∧ monitor.after g a r = .other := by
  cases a with
  | go ctx spec =>
    cases hf
    exact ⟨spec.name, ctx, ha, rfl, rfl⟩
  | _ => cases hf

/-- A thread that continues with a task was past the look at its context, or is a `Close`. -/
theorem jump_stage {t t' : Task} (h : Ends t g (.inr t')) :
    (∃ n ctx, g = .checked n ctx ∧ t'.stage = .before n ctx) ∨ g = .shut ∧ t'.stage = .shut := by
  cases t' with
  | loop ctx spec delay restarts => exact .inl ⟨spec.name, ctx, h, rfl⟩
  | closing => exact .inr ⟨h, rfl⟩
  | _ => exact h.elim

variable {xs : Schedule} {i : Nat}

/-- **The context of a goroutine is done, or is the one in the table.** -/
theorem held_at (hcalls : Calls xs) (hi : i ≤ xs.length) :
    Held (stateAt xs i).shared (stagesAt xs i) := by
  refine Sys.induction (J := fun _ c G => Held c.shared G) code_obeys ?_ ?_ hi
  · exact ⟨fun _ _ h => (by cases h), fun _ _ _ _ h => (by cases h), fun _ h => (by cases h)⟩
  intro i x c' G' hx _ _ hmoved ih
  have hrefl : (stateAt xs i).shared.Keeps (stateAt xs i).shared := .of_eq rfl rfl rfl rfl
  cases hmoved with
  | idle => exact ih
  | start t =>
    have hstage := stage_of_call (hcalls t (List.mem_of_getElem? hx))
    rw [hstage]
    exact ih.put hrefl ih.named (fun n ctx h => by cases h) fun h => by cases h
  | env y => exact ih.world (parentDone_keeps _) ih.named
  | jump u e th g t hth hp hg hQ =>
    rcases jump_stage hQ with ⟨n, ctx, rfl, hstage⟩ | ⟨rfl, hstage⟩ <;> rw [hstage]
    · refine ih.put hrefl ih.named (fun n' ctx' h => ?_) fun h => by cases h
      exact ih.ctx u _ n' ctx' hg h
    · exact ih.put hrefl ih.named (fun n ctx h => by cases h) fun _ => ih.shut u hg
  | act u e th g a k hth hp hg ha hf => exact ih.act hg ha e
  | fork u e th g a k t hth hp hg ha hf =>
    have hact := ih.act hg ha e
    obtain ⟨n, ctx, rfl, hstage, -⟩ := fork_stage hf ha
    rw [hstage]
    refine hact.put (.of_eq rfl rfl rfl rfl) hact.named (fun n' ctx' h => ?_) fun h => by cases h
    exact (exec_keeps a e _).holds n' ctx' (ih.ctx u _ n' ctx' hg h)

end ShiftLock.Supervise
