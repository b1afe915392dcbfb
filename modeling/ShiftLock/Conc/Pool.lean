import ShiftLock.Conc.Prog
import ShiftLock.Conc.Run
import Mathlib.Logic.Function.Basic

/-!
# Thread pools

A **system** interleaves programs over a shared state. Its moves are: a caller starts a task, a
thread performs its next action (which may fork a new task, or, at the end of a program, continue
with another one: that is how a loop is written), and the environment changes the shared state.
A thread is named by the number of the move that started it, so a thread's name is the moment of
its birth; `Thread.born` is the start of the task it executes now.

* `Sys.step`, `Sys.stateAt`: a schedule is a list of moves, and any list is one.
* `Sys.watchAt`: the states that a monitor has reached for every thread, along a schedule. When the
  program of every task obeys the monitor, every thread does, all the time (`Sys.tracks`).
* `Moved`: all that one move can do to a configuration and to the monitor states (`Sys.moved`).
  An invariant of a system is proved by induction along the schedule, by cases on `Moved`; since
  the monitor states are a function of the schedule, invariants proved apart can be used together.
-/

namespace Conc

open Function

variable {A : Type} {R : A → Type} {σ ε ι T ρ Γ : Type}

/-- A system: the meaning of an action, of a move of the environment, the task that an action
forks, and the program of a task, which ends with a result or with the task to continue with. -/
structure Sys (A : Type) (R : A → Type) (σ ε ι T ρ : Type) where
  exec : (a : A) → ε → σ → σ × R a
  env : ι → σ → σ
  fork : (a : A) → R a → Option T
  code : T → Prog A R (ρ ⊕ T)

/-- A thread: its task, the moment it started with it, and what remains of the program. -/
structure Thread (A : Type) (R : A → Type) (T ρ : Type) where
  task : T
  born : Nat
  prog : Prog A R (ρ ⊕ T)

/-- What the thread has returned. -/
def Thread.result (th : Thread A R T ρ) : Option ρ :=
  match th.prog with
  | .ret (.inl x) => some x
  | _ => none

/-- The action that the thread performs next. -/
def Thread.next (th : Thread A R T ρ) : Option A :=
  match th.prog with
  | .act a _ => some a
  | _ => none

variable {th : Thread A R T ρ}

theorem Thread.prog_of_result {x : ρ} (h : th.result = some x) : th.prog = .ret (.inl x) := by
  unfold Thread.result at h
  split at h
  · rename_i y hp
    cases h
    exact hp
  · cases h

theorem Thread.next_of_prog {a : A} {k : R a → Prog A R (ρ ⊕ T)} (h : th.prog = .act a k) :
    th.next = some a := by
  simp only [Thread.next, h]

theorem Thread.prog_of_next {a : A} (h : th.next = some a) : ∃ k, th.prog = .act a k := by
  unfold Thread.next at h
  split at h
  · rename_i k hp
    cases h
    exact ⟨k, hp⟩
  · cases h

/-- The shared state, the threads and the number of moves so far. -/
structure Config (A : Type) (R : A → Type) (σ T ρ : Type) where
  shared : σ
  threads : Nat → Option (Thread A R T ρ) := fun _ => none
  clock : Nat := 0

/-- The moves of a system. -/
inductive Move (ε ι T : Type) where
  | start (t : T)
  | run (u : Nat) (e : ε)
  | env (x : ι)

/-- The moves of a task that is started by move `u` and runs alone for `n` actions. -/
def alone (u : Nat) (t : T) (e : ε) (n : Nat) : List (Move ε ι T) :=
  .start t :: List.replicate n (.run u e)

namespace Config

/-- Thread `u` becomes `th`. -/
def put (c : Config A R σ T ρ) (u : Nat) (th : Thread A R T ρ) : Config A R σ T ρ :=
  { c with threads := update c.threads u (some th) }

/-- One move later. -/
def tick (c : Config A R σ T ρ) : Config A R σ T ρ := { c with clock := c.clock + 1 }

@[simp] theorem put_shared (c : Config A R σ T ρ) (u : Nat) (th : Thread A R T ρ) :
    (c.put u th).shared = c.shared := rfl

@[simp] theorem put_clock (c : Config A R σ T ρ) (u : Nat) (th : Thread A R T ρ) :
    (c.put u th).clock = c.clock := rfl

@[simp] theorem put_threads (c : Config A R σ T ρ) (u : Nat) (th : Thread A R T ρ) :
    (c.put u th).threads = update c.threads u (some th) := rfl

@[simp] theorem tick_shared (c : Config A R σ T ρ) : c.tick.shared = c.shared := rfl

@[simp] theorem tick_clock (c : Config A R σ T ρ) : c.tick.clock = c.clock + 1 := rfl

@[simp] theorem tick_threads (c : Config A R σ T ρ) : c.tick.threads = c.threads := rfl

/-- A condition on the actions of the threads, by task, as a condition on the moves. -/
def onAct (C : T → A → ε → σ → Bool) (c : Config A R σ T ρ) : Move ε ι T → Bool
  | .run u e =>
    match c.threads u with
    | some th =>
      match th.next with
      | some a => C th.task a e c.shared
      | none => true
    | none => true
  | _ => true

theorem of_onAct {C : T → A → ε → σ → Bool} {c : Config A R σ T ρ} {u : Nat} {e : ε}
    (h : c.onAct C (.run u e : Move ε ι T) = true) {th : Thread A R T ρ}
    (hth : c.threads u = some th) {a : A} {k : R a → Prog A R (ρ ⊕ T)} (hp : th.prog = .act a k) :
    C th.task a e c.shared = true := by
  simpa only [onAct, hth, Thread.next_of_prog hp] using h

end Config

namespace Sys

variable (S : Sys A R σ ε ι T ρ)

/-- A thread at the start of a task. -/
def fresh (t : T) (now : Nat) : Thread A R T ρ := { task := t, born := now, prog := S.code t }

/-- Thread `u` performs action `a` and goes on with `k`. -/
def act (c : Config A R σ T ρ) (u : Nat) (th : Thread A R T ρ) (e : ε) (a : A)
    (k : R a → Prog A R (ρ ⊕ T)) : Config A R σ T ρ :=
  let c' := { c with shared := (S.exec a e c.shared).1 }.put u
    { th with prog := k (S.exec a e c.shared).2 }
  match S.fork a (S.exec a e c.shared).2 with
  | none => c'
  | some t => c'.put c.clock (S.fresh t c.clock)

/-- One move. The name of a new thread is the number of the move. -/
def step (c : Config A R σ T ρ) : Move ε ι T → Config A R σ T ρ
  | .start t => (c.put c.clock (S.fresh t c.clock)).tick
  | .env x => { c with shared := S.env x c.shared }.tick
  | .run u e =>
    match c.threads u with
    | none => c.tick
    | some th =>
      match th.prog with
      | .ret (.inl _) => c.tick
      | .ret (.inr t) => (c.put u (S.fresh t c.clock)).tick
      | .act a k => (S.act c u th e a k).tick

/-- The configuration after the first `i` moves of a schedule, from shared state `s`. -/
abbrev stateAt (s : σ) (xs : List (Move ε ι T)) (i : Nat) : Config A R σ T ρ :=
  Run.stateAt S.step { shared := s } xs i

/-- What one move can do to the shared state. -/
theorem step_shared (c : Config A R σ T ρ) (x : Move ε ι T) :
    (S.step c x).shared = c.shared ∨ (∃ y, x = .env y ∧ (S.step c x).shared = S.env y c.shared) ∨
      ∃ u e th a k, x = .run u e ∧ c.threads u = some th ∧ th.prog = .act a k ∧
        (S.step c x).shared = (S.exec a e c.shared).1 := by
  cases x with
  | start t => exact .inl rfl
  | env y => exact .inr (.inl ⟨y, rfl, rfl⟩)
  | run u e =>
    cases hth : c.threads u with
    | none => left; simp only [step, hth]; rfl
    | some th =>
      cases hp : th.prog with
      | ret x => left; cases x <;> simp only [step, hth, hp] <;> rfl
      | act a k =>
        refine .inr (.inr ⟨u, e, th, a, k, rfl, hth, hp, ?_⟩)
        simp only [step, act, hth, hp]
        split <;> rfl

/-- The shared state after an action. -/
theorem step_act_shared {c : Config A R σ T ρ} {u : Nat} {th : Thread A R T ρ} {a : A}
    {k : R a → Prog A R (ρ ⊕ T)} (hth : c.threads u = some th) (hp : th.prog = .act a k) (e : ε) :
    (S.step c (.run u e)).shared = (S.exec a e c.shared).1 := by
  simp only [step, act, hth, hp]
  split <;> rfl

/-- A thread stays as it is while others move. -/
theorem step_threads_of_ne (c : Config A R σ T ρ) (x : Move ε ι T) {u : Nat} (hu : u < c.clock)
    (hx : ∀ e, x ≠ .run u e) : (S.step c x).threads u = c.threads u := by
  have hclock : u ≠ c.clock := Nat.ne_of_lt hu
  cases x with
  | start t => exact update_of_ne hclock ..
  | env y => rfl
  | run v e =>
    have hv : u ≠ v := fun h => hx e (by rw [h])
    simp only [step]
    split
    · rfl
    split
    · rfl
    · exact update_of_ne hv ..
    · simp only [act]
      split
      · exact update_of_ne hv ..
      · simp [hclock, hv]

/-- An invariant of the shared state alone. -/
theorem shared_invariant {I : σ → Prop} (hexec : ∀ a e s, I s → I (S.exec a e s).1)
    (henv : ∀ x s, I s → I (S.env x s)) {s : σ} (hs : I s) (xs : List (Move ε ι T)) (i : Nat) :
    I (S.stateAt s xs i).shared := by
  refine Run.invariant (C := fun _ => True) (I := fun c : Config A R σ T ρ => I c.shared)
    (fun c x hc _ => ?_) hs (fun _ _ => trivial) i
  rcases S.step_shared c x with h | ⟨y, -, h⟩ | ⟨_, e, _, a, _, -, -, -, h⟩ <;> rw [h]
  · exact hc
  · exact henv y _ hc
  · exact hexec a e _ hc

end Sys

/-! ## Monitors of threads -/

/-- The monitor states after thread `u` has got a new one. -/
theorem update_eq_some {G : Nat → Option Γ} {u v : Nat} {g x : Γ} :
    update G u (some g) v = some x ↔ v = u ∧ g = x ∨ v ≠ u ∧ G v = some x := by
  by_cases h : v = u
  · subst h
    simp
  · simp [h]

section

variable (S : Sys A R σ ε ι T ρ) (M : Prog.Monitor A R Γ) (init : T → Γ)
  (Q : T → Γ → ρ ⊕ T → Prop)

/-- The monitor states after a move. -/
def Sys.watch (c : Config A R σ T ρ) (G : Nat → Option Γ) : Move ε ι T → Nat → Option Γ
  | .start t => update G c.clock (some (init t))
  | .env _ => G
  | .run u e =>
    match c.threads u, G u with
    | some th, some g =>
      match th.prog with
      | .ret (.inl _) => G
      | .ret (.inr t) => update G u (some (init t))
      | .act a _ =>
        let r := (S.exec a e c.shared).2
        let G := update G u (some (M.after g a r))
        match S.fork a r with
        | none => G
        | some t => update G c.clock (some (init t))
    | _, _ => G

/-- The monitor states after the first `i` moves of a schedule. -/
def Sys.watchAt (s : σ) (xs : List (Move ε ι T)) : Nat → Nat → Option Γ
  | 0 => fun _ => none
  | i + 1 =>
    match xs[i]? with
    | none => Sys.watchAt s xs i
    | some x => S.watch M init (S.stateAt s xs i) (Sys.watchAt s xs i) x

/-- Every thread obeys the monitor from its recorded state, and its name is older than now. -/
def Tracks (c : Config A R σ T ρ) (G : Nat → Option Γ) : Prop :=
  (∀ u, c.threads u = none → G u = none) ∧
    ∀ u th, c.threads u = some th →
      u < c.clock ∧ ∃ g, G u = some g ∧ Prog.Obeys M (Q th.task) th.prog g

/-- What a move can do to a configuration and to the monitor states. -/
inductive Moved (c : Config A R σ T ρ) (G : Nat → Option Γ) :
    Move ε ι T → Config A R σ T ρ → (Nat → Option Γ) → Prop
  /-- A run of a thread that does not exist or has returned. -/
  | idle (u : Nat) (e : ε) (hth : ∀ th, c.threads u = some th → ∃ x, th.prog = .ret (.inl x)) :
    Moved c G (.run u e) c.tick G
  | start (t : T) :
    Moved c G (.start t) (c.put c.clock (S.fresh t c.clock)).tick
      (update G c.clock (some (init t)))
  | env (x : ι) : Moved c G (.env x) { c with shared := S.env x c.shared }.tick G
  /-- The thread continues with another task. -/
  | jump (u : Nat) (e : ε) (th : Thread A R T ρ) (g : Γ) (t : T) (hth : c.threads u = some th)
    (hp : th.prog = .ret (.inr t)) (hg : G u = some g) (hQ : Q th.task g (.inr t)) :
    Moved c G (.run u e) (c.put u (S.fresh t c.clock)).tick
      (update G u (some (init t)))
  | act (u : Nat) (e : ε) (th : Thread A R T ρ) (g : Γ) (a : A) (k : R a → Prog A R (ρ ⊕ T))
    (hth : c.threads u = some th) (hp : th.prog = .act a k) (hg : G u = some g)
    (ha : M.allows g a) (hf : S.fork a (S.exec a e c.shared).2 = none) :
    Moved c G (.run u e)
      ({ c with shared := (S.exec a e c.shared).1 }.put u
        { th with prog := k (S.exec a e c.shared).2 }).tick
      (update G u (some (M.after g a (S.exec a e c.shared).2)))
  /-- The action forks task `t`. -/
  | fork (u : Nat) (e : ε) (th : Thread A R T ρ) (g : Γ) (a : A) (k : R a → Prog A R (ρ ⊕ T))
    (t : T) (hth : c.threads u = some th) (hp : th.prog = .act a k) (hg : G u = some g)
    (ha : M.allows g a) (hf : S.fork a (S.exec a e c.shared).2 = some t) :
    Moved c G (.run u e)
      (({ c with shared := (S.exec a e c.shared).1 }.put u
        { th with prog := k (S.exec a e c.shared).2 }).put c.clock (S.fresh t c.clock)).tick
      (update (update G u (some (M.after g a (S.exec a e c.shared).2))) c.clock
        (some (init t)))

variable {S M init Q} {c : Config A R σ T ρ} {G : Nat → Option Γ}

variable {c' : Config A R σ T ρ} {g : Γ} {G' : Nat → Option Γ}

theorem Tracks.of_threads (h : Tracks M Q c G) (ht : c'.threads = c.threads)
    (hc : c.clock ≤ c'.clock) : Tracks M Q c' G := by
  refine ⟨fun u hu => h.1 u (ht ▸ hu), fun u th hu => ?_⟩
  obtain ⟨hlt, hO⟩ := h.2 u th (ht ▸ hu)
  exact ⟨by omega, hO⟩

/-- No thread has the name of the next one. -/
theorem Tracks.at_clock (h : Tracks M Q c G) : G c.clock = none := by
  cases hth : c.threads c.clock with
  | none => exact h.1 _ hth
  | some th => exact absurd (h.2 _ th hth).1 (Nat.lt_irrefl _)

theorem Tracks.lt_clock (h : Tracks M Q c G) {v : Nat} (hg : G v = some g) : v < c.clock := by
  cases hth : c.threads v with
  | none =>
    rw [h.1 v hth] at hg
    cases hg
  | some th => exact (h.2 v th hth).1

/-- A condition that every monitor state meets. -/
theorem Tracks.all (h : Tracks M Q c G) {p : Nat → Γ → Bool}
    (hall : (List.range c.clock).all (fun v => (G v).all (p v)) = true) {v : Nat}
    (hg : G v = some g) : p v g = true := by
  have hv := List.all_eq_true.mp hall v (List.mem_range.mpr (h.lt_clock hg))
  rwa [hg] at hv

/-- A thread that is replaced by one that obeys the monitor. -/
theorem Tracks.put (h : Tracks M Q c G) {u : Nat} {th : Thread A R T ρ}
    (ht : c'.threads = update c.threads u (some th)) (hu : u < c'.clock)
    (hc : c.clock ≤ c'.clock) (hO : Prog.Obeys M (Q th.task) th.prog g) :
    Tracks M Q c' (update G u (some g)) := by
  refine ⟨fun v hv => ?_, fun v th' hv => ?_⟩ <;> rw [ht] at hv <;> by_cases hvu : v = u
  · subst hvu; simp at hv
  · rw [update_of_ne hvu] at hv ⊢
    exact h.1 v hv
  · subst hvu
    have hth : th = th' := by simpa using hv
    subst hth
    exact ⟨hu, g, by simp, hO⟩
  · rw [update_of_ne hvu] at hv ⊢
    obtain ⟨hlt, hO'⟩ := h.2 v th' hv
    exact ⟨by omega, hO'⟩

/-- One move is one of the cases of `Moved`, and the threads still obey the monitor. -/
theorem Tracks.step (h : Tracks M Q c G) (hcode : ∀ t, Prog.Obeys M (Q t) (S.code t) (init t))
    (x : Move ε ι T) :
    Moved S M init Q c G x (S.step c x) (S.watch M init c G x) ∧
      Tracks M Q (S.step c x) (S.watch M init c G x) := by
  cases x with
  | start t => exact ⟨.start t, h.put rfl (Nat.lt_succ_self _) (Nat.le_succ _) (hcode t)⟩
  | env x => exact ⟨.env x, h.of_threads rfl (Nat.le_succ _)⟩
  | run u e =>
    cases hth : c.threads u with
    | none =>
      simp only [Sys.step, Sys.watch, hth]
      exact ⟨.idle u e (by simp [hth]), h.of_threads rfl (Nat.le_succ _)⟩
    | some th =>
      obtain ⟨hlt, g, hg, hO⟩ := h.2 u th hth
      cases hp : th.prog with
      | ret x =>
        rw [hp] at hO
        cases x with
        | inl x =>
          simp only [Sys.step, Sys.watch, hth, hg, hp]
          exact ⟨.idle u e (by simp [hth, hp]), h.of_threads rfl (Nat.le_succ _)⟩
        | inr t =>
          simp only [Sys.step, Sys.watch, hth, hg, hp]
          exact ⟨.jump u e th g t hth hp hg hO,
            h.put rfl (Nat.lt_succ_of_lt hlt) (Nat.le_succ _) (hcode t)⟩
      | act a k =>
        rw [hp] at hO
        cases hf : S.fork a (S.exec a e c.shared).2 with
        | none =>
          simp only [Sys.step, Sys.watch, Sys.act, hth, hg, hp, hf]
          exact ⟨.act u e th g a k hth hp hg hO.1 hf,
            h.put rfl (Nat.lt_succ_of_lt hlt) (Nat.le_succ _) (hO.2 _)⟩
        | some t =>
          simp only [Sys.step, Sys.watch, Sys.act, hth, hg, hp, hf]
          refine ⟨.fork u e th g a k t hth hp hg hO.1 hf, ?_⟩
          -- First the thread goes on, then the new one appears.
          have hput : Tracks M Q ({ c with shared := (S.exec a e c.shared).1 }.put u
              { th with prog := k (S.exec a e c.shared).2 })
              (update G u (some (M.after g a (S.exec a e c.shared).2))) :=
            h.put rfl hlt (Nat.le_refl _) (hO.2 _)
          exact hput.put rfl (Nat.lt_succ_self _) (Nat.le_succ _) (hcode t)

/-- What a move does to thread `v`: nothing, it puts `v` at the start of a task, or it performs the
next action of `v`. -/
theorem Moved.thread {x : Move ε ι T} (h : Moved S M init Q c G x c' G') (v : Nat) :
    (c'.threads v = c.threads v ∧ G' v = G v) ∨
    (∃ t, c'.threads v = some (S.fresh t c.clock) ∧ G' v = some (init t)) ∨
    ∃ e th g a k, x = .run v e ∧ c.threads v = some th ∧ th.prog = .act a k ∧ G v = some g ∧
      M.allows g a ∧ c'.shared = (S.exec a e c.shared).1 ∧
      c'.threads v = some { th with prog := k (S.exec a e c.shared).2 } ∧
      G' v = some (M.after g a (S.exec a e c.shared).2) := by
  cases h with
  | idle | env => exact .inl ⟨rfl, rfl⟩
  | start t =>
    by_cases hv : v = c.clock
    · subst hv; exact .inr (.inl ⟨t, by simp, by simp⟩)
    · exact .inl ⟨by simp [hv], by simp [hv]⟩
  | jump u e th g t =>
    by_cases hv : v = u
    · subst hv; exact .inr (.inl ⟨t, by simp, by simp⟩)
    · exact .inl ⟨by simp [hv], by simp [hv]⟩
  | act u e th g a k hth hp hg ha =>
    by_cases hv : v = u
    · subst hv
      exact .inr (.inr ⟨e, th, g, a, k, rfl, hth, hp, hg, ha, rfl, by simp, by simp⟩)
    · exact .inl ⟨by simp [hv], by simp [hv]⟩
  | fork u e th g a k t hth hp hg ha =>
    by_cases hn : v = c.clock
    · subst hn; exact .inr (.inl ⟨t, by simp, by simp⟩)
    by_cases hv : v = u
    · subst hv
      exact .inr (.inr ⟨e, th, g, a, k, rfl, hth, hp, hg, ha, rfl, by simp [hn], by simp [hn]⟩)
    · exact .inl ⟨by simp [hv, hn], by simp [hv, hn]⟩

/-- What a move does to the shared state. -/
theorem Moved.shared {x : Move ε ι T} (h : Moved S M init Q c G x c' G') :
    c'.shared = c.shared ∨ (∃ y, x = .env y ∧ c'.shared = S.env y c.shared) ∨
    ∃ u e th g a k, x = .run u e ∧ c.threads u = some th ∧ th.prog = .act a k ∧ G u = some g ∧
      M.allows g a ∧ c'.shared = (S.exec a e c.shared).1 := by
  cases h with
  | idle | start t | jump u e th g t => exact .inl rfl
  | env y => exact .inr (.inl ⟨y, rfl, rfl⟩)
  | act u e th g a k hth hp hg ha => exact .inr (.inr ⟨u, e, th, g, a, k, rfl, hth, hp, hg, ha, rfl⟩)
  | fork u e th g a k t hth hp hg ha =>
    exact .inr (.inr ⟨u, e, th, g, a, k, rfl, hth, hp, hg, ha, rfl⟩)

/-- A move of a thread whose next action is `a`, which forks no task. -/
theorem Moved.acts {u : Nat} {e : ε} (h : Moved S M init Q c G (.run u e) c' G')
    {th : Thread A R T ρ} {a : A} (hth : c.threads u = some th) (hnext : th.next = some a)
    (hf : ∀ r, S.fork a r = none) :
    ∃ g, G u = some g ∧ M.allows g a ∧ c'.shared = (S.exec a e c.shared).1 ∧
      G' = update G u (some (M.after g a (S.exec a e c.shared).2)) := by
  obtain ⟨k, hp⟩ := Thread.prog_of_next hnext
  cases h with
  | idle _ _ hret =>
    obtain ⟨x, hx⟩ := hret th hth
    rw [hp] at hx
    cases hx
  | jump _ _ th' g t hth' hp' hg hQ =>
    obtain rfl : th = th' := Option.some.inj (hth.symm.trans hth')
    rw [hp] at hp'
    cases hp'
  | act _ _ th' g a' k' hth' hp' hg ha hf' =>
    obtain rfl : th = th' := Option.some.inj (hth.symm.trans hth')
    rw [hp] at hp'
    cases hp'
    exact ⟨g, hg, ha, rfl, rfl⟩
  | fork _ _ th' g a' k' t hth' hp' hg ha hf' =>
    obtain rfl : th = th' := Option.some.inj (hth.symm.trans hth')
    rw [hp] at hp'
    cases hp'
    rw [hf] at hf'
    cases hf'

section

variable {s : σ} {xs : List (Move ε ι T)}

variable {i u : Nat} {x : Move ε ι T} {e : ε} {th : Thread A R T ρ} {a : A} {g : Γ}

theorem Sys.watchAt_succ (hx : xs[i]? = some x) :
    S.watchAt M init s xs (i + 1) =
      S.watch M init (S.stateAt s xs i) (S.watchAt M init s xs i) x := by
  simp only [Sys.watchAt, hx]

/-- When every task obeys the monitor, so does every thread, all the time. -/
theorem Sys.tracks (hcode : ∀ t, Prog.Obeys M (Q t) (S.code t) (init t)) (i : Nat) :
    Tracks M Q (S.stateAt s xs i) (S.watchAt M init s xs i) := by
  induction i with
  | zero => exact ⟨fun _ _ => rfl, fun _ _ h => by cases h⟩
  | succ i ih =>
    cases hx : xs[i]? with
    | none =>
      rw [Sys.stateAt, Run.stateAt_succ_of_none hx]
      simpa only [Sys.watchAt, hx] using ih
    | some x =>
      rw [Sys.stateAt, Run.stateAt_succ hx, Sys.watchAt_succ hx]
      exact (ih.step hcode x).2

/-- What the `i`-th move of a schedule does. -/
theorem Sys.moved (hcode : ∀ t, Prog.Obeys M (Q t) (S.code t) (init t)) (hx : xs[i]? = some x) :
    Moved S M init Q (S.stateAt s xs i) (S.watchAt M init s xs i) x (S.stateAt s xs (i + 1))
      (S.watchAt M init s xs (i + 1)) := by
  rw [Sys.watchAt_succ hx, show S.stateAt s xs (i + 1) = S.step (S.stateAt s xs i) x from
    Run.stateAt_succ hx]
  exact ((Sys.tracks hcode i).step hcode x).1

/-- A thread whose next action is the `i`-th move. -/
theorem Sys.acted (hcode : ∀ t, Prog.Obeys M (Q t) (S.code t) (init t))
    (hx : xs[i]? = some (.run u e)) {k : R a → Prog A R (ρ ⊕ T)}
    (hth : (S.stateAt s xs i).threads u = some th) (hp : th.prog = .act a k)
    (hg : S.watchAt M init s xs i u = some g) :
    (S.stateAt s xs (i + 1)).shared = (S.exec a e (S.stateAt s xs i).shared).1 ∧
      (S.stateAt s xs (i + 1)).threads u =
        some { th with prog := k (S.exec a e (S.stateAt s xs i).shared).2 } ∧
      S.watchAt M init s xs (i + 1) u =
        some (M.after g a (S.exec a e (S.stateAt s xs i).shared).2) := by
  have hlt : u ≠ (S.stateAt s xs i).clock := Nat.ne_of_lt ((Sys.tracks hcode i).2 u th hth).1
  rw [Sys.watchAt_succ hx, show S.stateAt s xs (i + 1) = S.step (S.stateAt s xs i) (.run u e) from
    Run.stateAt_succ hx]
  cases hf : S.fork a (S.exec a e (S.stateAt s xs i).shared).2 with
  | none =>
    simp only [Sys.step, Sys.watch, Sys.act, hth, hp, hg, hf]
    exact ⟨rfl, by simp, by simp⟩
  | some t =>
    simp only [Sys.step, Sys.watch, Sys.act, hth, hp, hg, hf]
    exact ⟨rfl, by simp [hlt], by simp [hlt]⟩

/-- A thread that the `i`-th move does not run. -/
theorem Sys.kept (hcode : ∀ t, Prog.Obeys M (Q t) (S.code t) (init t))
    (hx : ∀ e, xs[i]? ≠ some (.run u e)) (hg : S.watchAt M init s xs i u = some g) :
    S.watchAt M init s xs (i + 1) u = some g := by
  have hlt : u ≠ (S.stateAt s xs i).clock := by
    cases hth : (S.stateAt s xs i).threads u with
    | none => rw [(Sys.tracks hcode i).1 u hth] at hg; cases hg
    | some th => exact Nat.ne_of_lt ((Sys.tracks hcode i).2 u th hth).1
  cases hi : xs[i]? with
  | none => simp only [Sys.watchAt, hi, hg]
  | some x =>
    have hmoved := Sys.moved (S := S) (s := s) hcode hi
    generalize S.stateAt s xs (i + 1) = c' at hmoved
    generalize S.watchAt M init s xs (i + 1) = G' at hmoved ⊢
    have hne : ∀ v e, x = .run v e → u ≠ v := fun v e h huv => hx e (by rw [hi, h, huv])
    cases hmoved with
    | idle | env => exact hg
    | start t => rw [update_of_ne hlt]; exact hg
    | jump v e | act v e => rw [update_of_ne (hne v e rfl)]; exact hg
    | fork v e => rw [update_of_ne hlt, update_of_ne (hne v e rfl)]; exact hg

/-- The `i`-th move performs action `a`. -/
def Sys.Performs (S : Sys A R σ ε ι T ρ) (s : σ) (xs : List (Move ε ι T)) (i : Nat) (a : A) : Prop :=
  ∃ u e th, xs[i]? = some (.run u e) ∧ (S.stateAt s xs i).threads u = some th ∧ th.next = some a

theorem Sys.Performs.of_next (hx : xs[i]? = some (.run u e))
    (hnext : ((S.stateAt s xs i).threads u).bind Thread.next = some a) : S.Performs s xs i a := by
  obtain ⟨th, hth, hnext⟩ := Option.bind_eq_some_iff.mp hnext
  exact ⟨u, e, th, hx, hth, hnext⟩

theorem Sys.Performs.allowed (hcode : ∀ t, Prog.Obeys M (Q t) (S.code t) (init t))
    (h : S.Performs s xs i a) : ∃ u g, S.watchAt M init s xs i u = some g ∧ M.allows g a := by
  obtain ⟨u, e, th, -, hth, hnext⟩ := h
  obtain ⟨k, hp⟩ := Thread.prog_of_next hnext
  obtain ⟨-, g, hg, hobeys⟩ := (Sys.tracks (S := S) (s := s) hcode i).2 u th hth
  rw [hp] at hobeys
  exact ⟨u, g, hg, hobeys.1⟩

/-- The `i`-th move performs action `a` with answer `r`. -/
def Sys.Answers (S : Sys A R σ ε ι T ρ) (s : σ) (xs : List (Move ε ι T)) (i : Nat) (a : A) (r : R a) :
    Prop :=
  ∃ u e th, xs[i]? = some (.run u e) ∧ (S.stateAt s xs i).threads u = some th ∧ th.next = some a ∧
    (S.exec a e (S.stateAt s xs i).shared).2 = r

theorem Sys.Answers.of_next {r : R a} (hx : xs[i]? = some (.run u e))
    (hnext : ((S.stateAt s xs i).threads u).bind Thread.next = some a)
    (hr : (S.exec a e (S.stateAt s xs i).shared).2 = r) : S.Answers s xs i a r := by
  obtain ⟨th, hth, hnext⟩ := Option.bind_eq_some_iff.mp hnext
  exact ⟨u, e, th, hx, hth, hnext, hr⟩

/-- A move performs one action. -/
theorem Sys.Answers.of_run {a' : A} {r : R a} (h : S.Answers s xs i a r)
    (hx : xs[i]? = some (.run u e)) (hth : (S.stateAt s xs i).threads u = some th)
    (hnext : th.next = some a') : a = a' ∧ HEq r (S.exec a' e (S.stateAt s xs i).shared).2 := by
  obtain ⟨u', e', th', hx', hth', hnext', rfl⟩ := h
  obtain ⟨rfl, rfl⟩ : u' = u ∧ e' = e := by
    rw [hx, Option.some.injEq] at hx'
    cases hx'
    exact ⟨rfl, rfl⟩
  obtain rfl : th = th' := Option.some.inj (hth.symm.trans hth')
  obtain rfl : a' = a := Option.some.inj (hnext.symm.trans hnext')
  exact ⟨rfl, .rfl⟩

theorem Sys.stateAt_clock (hi : i ≤ xs.length) : (S.stateAt s xs i).clock = i := by
  refine Run.along (J := fun i => (S.stateAt s xs i).clock = i) rfl (fun i x hx ih => ?_) hi
  rw [Sys.stateAt, Run.stateAt_succ hx]
  have : (S.step (S.stateAt s xs i) x).clock = (S.stateAt s xs i).clock + 1 := by
    cases x with
    | start t | env x => rfl
    | run u e =>
      simp only [Sys.step]
      split
      · rfl
      · split
        · rfl
        · rfl
        · simp only [Sys.act]
          split <;> rfl
  rw [this, ih]

/-- **Induction along a schedule**: a property of the configuration and the monitor states that holds
at the start and is kept by every move. -/
theorem Sys.induction (hcode : ∀ t, Prog.Obeys M (Q t) (S.code t) (init t))
    {J : Nat → Config A R σ T ρ → (Nat → Option Γ) → Prop} (h₀ : J 0 { shared := s } fun _ => none)
    (hstep : ∀ i x c' G', xs[i]? = some x → S.stateAt s xs (i + 1) = c' →
      Tracks M Q (S.stateAt s xs i) (S.watchAt M init s xs i) →
      Moved S M init Q (S.stateAt s xs i) (S.watchAt M init s xs i) x c' G' →
      J i (S.stateAt s xs i) (S.watchAt M init s xs i) → J (i + 1) c' G')
    (hi : i ≤ xs.length) : J i (S.stateAt s xs i) (S.watchAt M init s xs i) :=
  Run.along (J := fun i => J i (S.stateAt s xs i) (S.watchAt M init s xs i)) h₀
    (fun i x hx ih => hstep i x _ _ hx rfl (Sys.tracks hcode i) (Sys.moved hcode hx) ih) hi

/-- Every move meets a condition on the configuration and the monitor states before it. -/
def Sys.meets (S : Sys A R σ ε ι T ρ) (M : Prog.Monitor A R Γ) (init : T → Γ)
    (C : Config A R σ T ρ → (Nat → Option Γ) → Move ε ι T → Bool) (s : σ) (xs : List (Move ε ι T)) :
    Bool :=
  (List.range xs.length).all fun i =>
    (xs[i]?).all (C (S.stateAt s xs i) (S.watchAt M init s xs i))

theorem Sys.meets_at {C : Config A R σ T ρ → (Nat → Option Γ) → Move ε ι T → Bool}
    (h : S.meets M init C s xs = true) (hx : xs[i]? = some x) :
    C (S.stateAt s xs i) (S.watchAt M init s xs i) x = true := by
  have hi : i < xs.length := (List.getElem?_eq_some_iff.mp hx).1
  have hall := List.all_eq_true.mp h i (List.mem_range.mpr hi)
  rw [hx] at hall
  exact hall

/-- **A property of every thread by itself.** It holds when a task starts, the thread's own actions
keep it, and the moves of others cannot break it. -/
theorem Sys.each_thread (hcode : ∀ t, Prog.Obeys M (Q t) (S.code t) (init t))
    {P : Nat → Thread A R T ρ → Γ → Prop} (hfresh : ∀ i t, P (i + 1) (S.fresh t i) (init t))
    (hmono : ∀ i th g, P i th g → P (i + 1) th g)
    (hact : ∀ i u e th g a k, xs[i]? = some (.run u e) → (S.stateAt s xs i).threads u = some th →
      th.prog = .act a k → S.watchAt M init s xs i u = some g → M.allows g a → P i th g →
      (S.stateAt s xs (i + 1)).shared = (S.exec a e (S.stateAt s xs i).shared).1 →
      P (i + 1) { th with prog := k (S.exec a e (S.stateAt s xs i).shared).2 }
        (M.after g a (S.exec a e (S.stateAt s xs i).shared).2))
    (hi : i ≤ xs.length) (hth : (S.stateAt s xs i).threads u = some th)
    (hg : S.watchAt M init s xs i u = some g) : P i th g := by
  refine Run.along (J := fun i => i ≤ xs.length → ∀ u th g, (S.stateAt s xs i).threads u = some th →
    S.watchAt M init s xs i u = some g → P i th g) (fun _ _ _ _ h => by cases h)
    (fun i x hx ih hi u th g => ?_) hi hi u th g hth hg
  have ih := ih (Nat.le_of_succ_le hi)
  intro hth hg
  rcases (Sys.moved (S := S) (s := s) hcode hx).thread u with
    ⟨hth', hg'⟩ | ⟨t, hth', hg'⟩ | ⟨e, th₀, g₀, a, k, rfl, hth₀, hp, hg₀, ha, hs, hth', hg'⟩
  · exact hmono _ _ _ (ih u th g (hth' ▸ hth) (hg' ▸ hg))
  · rw [hth', Option.some.injEq] at hth
    rw [hg', Option.some.injEq] at hg
    subst hth hg
    rw [Sys.stateAt_clock (Nat.le_of_succ_le hi)]
    exact hfresh i t
  · rw [hth', Option.some.injEq] at hth
    rw [hg', Option.some.injEq] at hg
    subst hth hg
    exact hact i u e th₀ g₀ a k hx hth₀ hp hg₀ ha (ih u th₀ g₀ hth₀ hg₀) hs

end

end

end Conc
