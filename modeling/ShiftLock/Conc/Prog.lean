import Mathlib.Logic.Basic

/-!
# Programs of atomic actions

A concurrent program is written as a sequence of **atomic actions** (a critical section, a call on
a shared object, an input from the environment) with pure code between them: `Prog A R α`, where
action `a : A` answers with a value of type `R a`. The same program has two meanings:

* alone: `run` performs its actions one after the other (`ε` is what the environment fixes for one
  action: a clock reading, a failure, the outcome of a `select`), and `wp` is its precondition;
* as a thread among others: `Conc.Pool` interleaves the actions of many programs.

A **monitor** follows one program without looking at the shared state: it reads the actions and
their answers and keeps a state of its own. `Obeys` says that a program, whatever the answers are,
only performs actions that the monitor allows. This is how a proof over all interleavings knows at
which point of its program a thread is.
-/

namespace Conc

/-- Programs with actions `A`, answers `R` and results `α`. -/
inductive Prog (A : Type) (R : A → Type) (α : Type) where
  | ret (x : α)
  | act (a : A) (k : R a → Prog A R α)

namespace Prog

variable {A : Type} {R : A → Type} {α β γ : Type}

/-- Sequential composition. -/
def bind : Prog A R α → (α → Prog A R β) → Prog A R β
  | .ret x, f => f x
  | .act a k, f => .act a fun r => (k r).bind f

instance : Monad (Prog A R) where
  pure := .ret
  bind := .bind

def perform (a : A) : Prog A R (R a) := .act a .ret

@[simp] theorem pure_def (x : α) : (pure x : Prog A R α) = .ret x := rfl

@[simp] theorem ret_bind (x : α) (f : α → Prog A R β) : (Prog.ret x >>= f) = f x := rfl

@[simp] theorem act_bind (a : A) (k : R a → Prog A R α) (f : α → Prog A R β) :
    (Prog.act a k >>= f) = .act a fun r => k r >>= f := rfl

@[simp] theorem perform_bind (a : A) (f : R a → Prog A R β) :
    (perform a >>= f) = .act a f := rfl

@[simp] theorem bind_assoc (p : Prog A R α) (f : α → Prog A R β) (g : β → Prog A R γ) :
    ((p >>= f) >>= g) = (p >>= fun x => f x >>= g) := by
  induction p with
  | ret x => rfl
  | act a k ih => exact congrArg (Prog.act a) (funext ih)

@[simp] theorem map_def (f : α → β) (p : Prog A R α) : f <$> p = (p >>= fun x => .ret (f x)) := rfl

/-! ## Alone -/

section

variable {σ ε : Type} (exec : (a : A) → ε → σ → σ × R a)

/-- The program alone, from the `n`-th choice of the environment on: the final state, the result
and the position of the next choice. -/
def run (es : Nat → ε) : Prog A R α → Nat → σ → σ × α × Nat
  | .ret x, n, s => (s, x, n)
  | .act a k, n, s => run es (k (exec a (es n) s).2) (n + 1) (exec a (es n) s).1

theorem run_bind (es : Nat → ε) (p : Prog A R α) (f : α → Prog A R β) (n : Nat) (s : σ) :
    run exec es (p >>= f) n s =
      run exec es (f (run exec es p n s).2.1) (run exec es p n s).2.2 (run exec es p n s).1 := by
  induction p generalizing n s with
  | ret x => rfl
  | act a k ih => exact ih _ _ _

/-- Every action that `run` performs meets the condition `C`. -/
def Along (C : A → ε → σ → Prop) (es : Nat → ε) : Prog A R α → Nat → σ → Prop
  | .ret _, _, _ => True
  | .act a k, n, s => C a (es n) s ∧ Along C es (k (exec a (es n) s).2) (n + 1) (exec a (es n) s).1

instance Along.decidable (C : A → ε → σ → Prop) [∀ a e s, Decidable (C a e s)] (es : Nat → ε) :
    (p : Prog A R α) → (n : Nat) → (s : σ) → Decidable (Along exec C es p n s)
  | .ret _, _, _ => .isTrue trivial
  | .act a k, n, s =>
    have := decidable C es (k (exec a (es n) s).2) (n + 1) (exec a (es n) s).1
    inferInstanceAs (Decidable (C a (es n) s ∧ _))

/-- The weakest precondition of a program under a condition `C` on its actions. -/
def wp (C : A → ε → σ → Prop) (Q : σ → α → Prop) : Prog A R α → σ → Prop
  | .ret x, s => Q s x
  | .act a k, s => ∀ e, C a e s → wp C Q (k (exec a e s).2) (exec a e s).1

variable {exec} {C : A → ε → σ → Prop}

variable {Q : σ → β → Prop} {p : Prog A R α} {s : σ}

variable {es : Nat → ε} {f : α → Prog A R β} {Q' : σ → α → Prop}

theorem run_of_wp {Q : σ → α → Prop} (h : wp exec C Q p s) {n : Nat} (hC : Along exec C es p n s) :
    Q (run exec es p n s).1 (run exec es p n s).2.1 := by
  induction p generalizing s n with
  | ret x => exact h
  | act a k ih => exact ih _ (h _ hC.1) hC.2

theorem along_of_forall (h : ∀ a n s, C a (es n) s) (p : Prog A R α) (n : Nat) (s : σ) :
    Along exec C es p n s := by
  induction p generalizing s n with
  | ret x => trivial
  | act a k ih => exact ⟨h a n s, ih _ _ _⟩

theorem along_true (es : Nat → ε) (p : Prog A R α) (n : Nat) (s : σ) :
    Along exec (fun _ _ _ => True) es p n s := along_of_forall (fun _ _ _ => trivial) p n s

theorem wp_bind : wp exec C Q (p >>= f) s ↔ wp exec C (fun s x => wp exec C Q (f x) s) p s := by
  induction p generalizing s with
  | ret x => exact Iff.rfl
  | act a k ih => exact forall_congr' fun e => imp_congr_right fun _ => ih _

theorem wp_mono {Q : σ → α → Prop} (hQ : ∀ s x, Q s x → Q' s x) (h : wp exec C Q p s) :
    wp exec C Q' p s := by
  induction p generalizing s with
  | ret x => exact hQ _ _ h
  | act a k ih => exact fun e he => ih _ (h e he)

theorem wp_seq (h : wp exec C Q' p s) (hf : ∀ s x, Q' s x → wp exec C Q (f x) s) :
    wp exec C Q (p >>= f) s :=
  wp_bind.mpr (wp_mono hf h)

theorem wp_perform {a : A} {f : R a → Prog A R β}
    (hf : ∀ e, C a e s → wp exec C Q (f (exec a e s).2) (exec a e s).1) :
    wp exec C Q (perform a >>= f) s := hf

theorem wp_true (p : Prog A R α) (s : σ) : wp exec C (fun _ _ => True) p s := by
  induction p generalizing s with
  | ret x => trivial
  | act a k ih => exact fun _ _ => ih _ _

end

/-! ## Monitors -/

/-- A monitor with states `Γ`: the actions it allows, and its next state. -/
structure Monitor (A : Type) (R : A → Type) (Γ : Type) where
  allows : Γ → A → Prop
  after : Γ → (a : A) → R a → Γ

section

variable {Γ : Type} (M : Monitor A R Γ)

/-- From monitor state `g` on, the program performs allowed actions only, and it returns in a
state that fits its result. -/
def Obeys (Q : Γ → α → Prop) : Prog A R α → Γ → Prop
  | .ret x, g => Q g x
  | .act a k, g => M.allows g a ∧ ∀ r, Obeys Q (k r) (M.after g a r)

variable {M}

variable {Q : Γ → α → Prop} {g : Γ}

@[simp] theorem obeys_ret {x : α} :
    Obeys M Q (.ret x : Prog A R α) g ↔ Q g x := Iff.rfl

@[simp] theorem obeys_act {a : A} {k : R a → Prog A R α} :
    Obeys M Q (.act a k) g ↔ M.allows g a ∧ ∀ r, Obeys M Q (k r) (M.after g a r) := Iff.rfl

theorem Obeys.mono {Q' : Γ → α → Prop} (hQ : ∀ g x, Q g x → Q' g x) {p : Prog A R α}
    (h : Obeys M Q p g) : Obeys M Q' p g := by
  induction p generalizing g with
  | ret x => exact hQ _ _ h
  | act a k ih => exact ⟨h.1, fun r => ih r (h.2 r)⟩

/-- A program that obeys the monitor, and then another one from wherever the first may return. -/
theorem Obeys.bind {Q : Γ → β → Prop} {K : Γ → α → Prop} {p : Prog A R α} {f : α → Prog A R β}
    (h : Obeys M K p g) (hf : ∀ g' x, K g' x → Obeys M Q (f x) g') : Obeys M Q (p >>= f) g := by
  induction p generalizing g with
  | ret x => exact hf g x h
  | act a k ih => exact ⟨h.1, fun r => ih r (h.2 r)⟩

theorem Obeys.perform {Q : Γ → β → Prop} {a : A} {f : R a → Prog A R β} (ha : M.allows g a)
    (hf : ∀ r, Obeys M Q (f r) (M.after g a r)) :
    Obeys M Q (Prog.perform a >>= f) g := ⟨ha, hf⟩

variable (M) in
/-- From every state, the program obeys the monitor and keeps the relation `E`. -/
def Within (E : Γ → Γ → Prop) (p : Prog A R α) : Prop := ∀ g, Obeys M (fun g' _ => E g g') p g

section

variable {E : Γ → Γ → Prop}

theorem Within.ret (hE : ∀ g, E g g) (x : α) : Within M E (.ret x : Prog A R α) := hE

theorem Within.bind (hE : ∀ {a b c}, E a b → E b c → E a c) {p : Prog A R α}
    {f : α → Prog A R β} (h : Within M E p) (hf : ∀ x, Within M E (f x)) :
    Within M E (p >>= f) := fun g =>
  (h g).bind fun g' x hg => (hf x g').mono fun _ _ hg' => hE hg hg'

end

end

/-- Every action of the program is in `S`. -/
def Uses (S : A → Prop) : Prog A R α → Prop
  | .ret _ => True
  | .act a k => S a ∧ ∀ r, Uses S (k r)

variable {S : A → Prop} {p : Prog A R α}

theorem Uses.bind {f : α → Prog A R β} (h : Uses S p) (hf : ∀ x, Uses S (f x)) :
    Uses S (p >>= f) := by
  induction p with
  | ret x => exact hf x
  | act a k ih => exact ⟨h.1, fun r => ih r (h.2 r)⟩

/-- An action, and what comes after it. -/
theorem Uses.step {a : A} {f : R a → Prog A R α} (ha : S a) (hf : ∀ r, Uses S (f r)) :
    Uses S (Prog.perform a >>= f) := ⟨ha, hf⟩

theorem Uses.mono {S' : A → Prop} (hS : ∀ a, S a → S' a) (h : Uses S p) : Uses S' p := by
  induction p with
  | ret x => trivial
  | act a k ih => exact ⟨hS a h.1, fun r => ih r (h.2 r)⟩

/-- A program of actions that the monitor allows everywhere. -/
theorem Uses.within {Γ : Type} {M : Monitor A R Γ} {E : Γ → Γ → Prop} (hE : ∀ g, E g g)
    (htrans : ∀ {a b c}, E a b → E b c → E a c)
    (hS : ∀ a, S a → ∀ g, M.allows g a ∧ ∀ r, E g (M.after g a r)) (h : Uses S p) :
    Within M E p := by
  intro g
  induction p generalizing g with
  | ret x => exact hE g
  | act a k ih =>
    refine ⟨(hS a h.1 g).1, fun r => (ih r (h.2 r) _).mono fun _ _ hg => ?_⟩
    exact htrans ((hS a h.1 g).2 r) hg

/-! ## Programs without a monitor -/

section

variable {S : A → Prop}

/-- Whatever the answers are, the actions are in `S` and the result satisfies `Q`. -/
def Sat (S : A → Prop) (Q : α → Prop) : Prog A R α → Prop
  | .ret x => Q x
  | .act a k => S a ∧ ∀ r, Sat S Q (k r)

variable {p : Prog A R α} {Q Q' : α → Prop}

theorem Uses.sat (h : Uses S p) : Sat S (fun _ => True) p := by
  induction p with
  | ret x => trivial
  | act a k ih => exact ⟨h.1, fun r => ih r (h.2 r)⟩

theorem Sat.mono (hQ : ∀ x, Q x → Q' x) (h : Sat S Q p) : Sat S Q' p := by
  induction p with
  | ret x => exact hQ x h
  | act a k ih => exact ⟨h.1, fun r => ih r (h.2 r)⟩

theorem Sat.weaken {S' : A → Prop} (hS : ∀ a, S a → S' a) (h : Sat S Q p) : Sat S' Q p := by
  induction p with
  | ret x => exact h
  | act a k ih => exact ⟨hS a h.1, fun r => ih r (h.2 r)⟩

theorem Sat.bind {Q : β → Prop} {f : α → Prog A R β} (h : Sat S Q' p)
    (hf : ∀ x, Q' x → Sat S Q (f x)) : Sat S Q (p >>= f) := by
  induction p with
  | ret x => exact hf x h
  | act a k ih => exact ⟨h.1, fun r => ih r (h.2 r)⟩

theorem Sat.perform {Q : β → Prop} {a : A} {f : R a → Prog A R β} (ha : S a)
    (hf : ∀ r, Sat S Q (f r)) : Sat S Q (Prog.perform a >>= f) := ⟨ha, hf⟩

theorem Sat.and {S' : A → Prop} (h : Sat S Q p) (h' : Sat S' Q' p) :
    Sat S (fun x => Q x ∧ Q' x) p := by
  induction p with
  | ret x => exact ⟨h, h'⟩
  | act a k ih => exact ⟨h.1, fun r => ih r (h.2 r) (h'.2 r)⟩

/-- A monitor, and what holds of the results anyway. -/
theorem Obeys.and {Γ : Type} {M : Monitor A R Γ} {Q : Γ → α → Prop} {g : Γ} (h : Obeys M Q p g)
    (h' : Sat S Q' p) : Obeys M (fun g x => Q g x ∧ Q' x) p g := by
  induction p generalizing g with
  | ret x => exact ⟨h, h'⟩
  | act a k ih => exact ⟨h.1, fun r => ih r (h.2 r) (h'.2 r)⟩

/-- What comes after a program only matters on the results that it can have. -/
theorem Sat.bind_congr {f g : α → Prog A R β} (h : Sat S Q p) (hfg : ∀ x, Q x → f x = g x) :
    (p >>= f) = (p >>= g) := by
  induction p with
  | ret x => exact hfg x h
  | act a k ih => exact congrArg (Prog.act a) (funext fun r => ih r (h.2 r))

end

/-! ## Programs of a larger system -/

section

variable {B : Type} {S : B → Type} {Γ : Type} (f : A → B)

/-- The program with every action `a` as the action `f a` of a larger system. -/
def lift : Prog A (fun a => S (f a)) α → Prog B S α
  | .ret x => .ret x
  | .act a k => .act (f a) fun r => (k r).lift

/-- A monitor of the larger system, as it sees the actions `a`. -/
def Monitor.comap (M : Monitor B S Γ) : Monitor A (fun a => S (f a)) Γ where
  allows g a := M.allows g (f a)
  after g a r := M.after g (f a) r

variable {f}

theorem Obeys.lift {M : Monitor B S Γ} {Q : Γ → α → Prop} {p : Prog A (fun a => S (f a)) α} {g : Γ}
    (h : Obeys (M.comap f) Q p g) : Obeys M Q (p.lift f) g := by
  induction p generalizing g with
  | ret x => exact h
  | act a k ih => exact ⟨h.1, fun r => ih r (h.2 r)⟩

/-- The program with every action replaced by a program of another system. -/
def interp (h : (a : A) → Prog B S (R a)) : Prog A R α → Prog B S α
  | .ret x => .ret x
  | .act a k => h a >>= fun r => (k r).interp h

/-- **Replaced actions.** When every action that a monitor of the program allows is replaced by a
program that keeps the two monitors in step, the whole program obeys the second one. -/
theorem Obeys.interp {Δ : Type} {N : Monitor A R Δ} {M : Monitor B S Γ} {E : Δ → Γ → Prop}
    {h : (a : A) → Prog B S (R a)}
    (hact : ∀ d g a, E d g → N.allows d a → Obeys M (fun g' r => E (N.after d a r) g') (h a) g)
    {Q : Δ → α → Prop} {p : Prog A R α} {d : Δ} {g : Γ} (hp : Obeys N Q p d) (hE : E d g) :
    Obeys M (fun g' x => ∃ d', E d' g' ∧ Q d' x) (p.interp h) g := by
  induction p generalizing d g with
  | ret x => exact ⟨d, hE, hp⟩
  | act a k ih => exact (hact d g a hE hp.1).bind fun g' r hr => ih r (hp.2 r) hr

def Monitor.free : Monitor A R Unit where
  allows _ _ := True
  after _ _ _ := ()

theorem obeys_free (p : Prog A R α) : Obeys Monitor.free (fun _ _ => True) p () := by
  induction p with
  | ret x => trivial
  | act a k ih => exact ⟨trivial, ih⟩

end

/-! ## Several parties -/

section

variable {I : Type}

/-- The program as the program of party `i`: its actions carry the name. -/
def tag (i : I) : Prog A R α → Prog (I × A) (fun a => R a.2) α
  | .ret x => .ret x
  | .act a k => .act (i, a) fun r => (k r).tag i

/-- One monitor for each party; the first component of a state is the party. -/
def Monitor.family {Γ : Type} (M : I → Monitor A R Γ) :
    Monitor (I × A) (fun a => R a.2) (I × Γ) where
  allows g a := a.1 = g.1 ∧ (M g.1).allows g.2 a.2
  after g a r := (g.1, (M g.1).after g.2 a.2 r)

theorem Obeys.tag {Γ : Type} {M : I → Monitor A R Γ} {Q : Γ → α → Prop} {i : I}
    {p : Prog A R α} {g : Γ} (h : Obeys (M i) Q p g) :
    Obeys (Monitor.family M) (fun g' x => g'.1 = i ∧ Q g'.2 x) (p.tag i) (i, g) := by
  induction p generalizing g with
  | ret x => exact ⟨rfl, h⟩
  | act a k ih => exact ⟨⟨rfl, h.1⟩, fun r => ih r (h.2 r)⟩

end

end Prog
end Conc
