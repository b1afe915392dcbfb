import ShiftLock.Conc.Crash

/-!
# Traces

The actions that a program performs alone, up to its end or a crash, each with the state before it
and the choice of the environment. A monitor can be run along a trace: a program that obeys it
performs allowed actions only, and returns in a state of the monitor that fits its result.
-/

namespace Conc
namespace Prog

variable {A : Type} {R : A → Type} {α σ ε Γ : Type}

/-- An action that was performed: the state before it, and the choice of the environment. -/
structure Event (A σ ε : Type) where
  before : σ
  act : A
  env : ε

section

variable (exec : (a : A) → ε → σ → σ × R a)

/-- The actions of `upTo`. -/
def trace : List ε → Prog A R α → σ → List (Event A σ ε)
  | _, .ret _, _ => []
  | [], .act _ _, _ => []
  | e :: es, .act a k, s => ⟨s, a, e⟩ :: trace es (k (exec a e s).2) (exec a e s).1

/-- The monitor along a trace. -/
def Monitor.follow (M : Monitor A R Γ) : Γ → List (Event A σ ε) → Γ
  | g, [] => g
  | g, x :: xs => M.follow (M.after g x.act (exec x.act x.env x.before).2) xs

end

variable {exec : (a : A) → ε → σ → σ × R a} {M : Monitor A R Γ}

@[simp] theorem trace_ret (es : List ε) (x : α) (s : σ) :
    trace exec es (.ret x : Prog A R α) s = [] := by
  cases es <;> rfl

variable {Q : Γ → α → Prop} {p : Prog A R α} {g : Γ} {es : List ε} {s : σ}

/-- The state of the monitor when the program has returned. -/
theorem Obeys.follow (h : Obeys M Q p g) {x : α} (hx : (upTo exec es p s).2 = some x) :
    Q (M.follow exec g (trace exec es p s)) x := by
  induction p generalizing g es s with
  | ret y =>
    rw [trace_ret]
    cases es <;> exact Option.some.inj hx ▸ h
  | act a k ih =>
    cases es with
    | nil => cases hx
    | cons e es => exact ih _ (h.2 _) hx

/-- An invariant of the state and the monitor, kept by every allowed action whose choice of the
environment is in `P`, relates them where the program has crashed or returned. -/
theorem Obeys.invariant {P : ε → Prop} {I : σ → Γ → List (Event A σ ε) → Prop}
    (hI : ∀ s g xs a e, M.allows g a → P e → I s g xs →
      I (exec a e s).1 (M.after g a (exec a e s).2) (xs ++ [⟨s, a, e⟩]))
    (h : Obeys M Q p g) (hes : ∀ e ∈ es, P e) {xs : List (Event A σ ε)} (hs : I s g xs) :
    ∃ g', I (upTo exec es p s).1 g' (xs ++ trace exec es p s) := by
  induction p generalizing g es s xs with
  | ret y => exact ⟨g, by cases es <;> simpa [upTo] using hs⟩
  | act a k ih =>
    cases es with
    | nil => exact ⟨g, by simpa [upTo, trace] using hs⟩
    | cons e es =>
      have hstep := hI s g xs a e h.1 (hes e List.mem_cons_self) hs
      obtain ⟨g', hg'⟩ := ih _ (h.2 _) (fun e he => hes e (List.mem_cons_of_mem _ he)) hstep
      exact ⟨g', by simpa [upTo, trace] using hg'⟩

end Prog
end Conc
