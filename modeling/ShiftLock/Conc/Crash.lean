import ShiftLock.Conc.Prog
import Mathlib.Data.List.Basic

/-!
# Programs that may crash

A program alone, with a **finite** list of choices of the environment: when they are used up before
the program returns, it has crashed (`upTo`), and what it leaves behind is the state at that point.
A statement about crashes is therefore one about the states between any two actions, which is what
`wpc` adds to a precondition: `I` holds before every action and when the program returns.

`P` is what is assumed of every choice of the environment.
-/

namespace Conc
namespace Prog

variable {A : Type} {R : A → Type} {α β σ ε : Type}

section

variable (exec : (a : A) → ε → σ → σ × R a)

/-- The program alone until it returns or the choices are used up: the state, and the result if
there is one. -/
def upTo : List ε → Prog A R α → σ → σ × Option α
  | _, .ret x, s => (s, some x)
  | [], .act _ _, s => (s, none)
  | e :: es, .act a k, s => upTo es (k (exec a e s).2) (exec a e s).1

/-- The precondition of a program that may crash. -/
def wpc (P : ε → Prop) (I : σ → Prop) (Q : σ → α → Prop) : Prog A R α → σ → Prop
  | .ret x, s => I s ∧ Q s x
  | .act a k, s => I s ∧ ∀ e, P e → wpc P I Q (k (exec a e s).2) (exec a e s).1

end

variable {exec : (a : A) → ε → σ → σ × R a} {P : ε → Prop} {I : σ → Prop}

variable {Q : σ → α → Prop} {p : Prog A R α} {s : σ} {S : A → Prop}

theorem wpc.bind {Q : σ → β → Prop} {Q' : σ → α → Prop} {f : α → Prog A R β}
    (h : wpc exec P I Q' p s) (hf : ∀ s x, I s → Q' s x → wpc exec P I Q (f x) s) :
    wpc exec P I Q (p >>= f) s := by
  induction p generalizing s with
  | ret x => exact hf s x h.1 h.2
  | act a k ih => exact ⟨h.1, fun e he => ih _ (h.2 e he)⟩

theorem wpc.mono {Q' : σ → α → Prop} (h : wpc exec P I Q p s) (hQ : ∀ s x, I s → Q s x → Q' s x) :
    wpc exec P I Q' p s := by
  induction p generalizing s with
  | ret x => exact ⟨h.1, hQ s x h.1 h.2⟩
  | act a k ih => exact ⟨h.1, fun e he => ih _ (h.2 e he)⟩

theorem wpc.perform {Q : σ → β → Prop} {a : A} {f : R a → Prog A R β} (hs : I s)
    (hf : ∀ e, P e → wpc exec P I Q (f (exec a e s).2) (exec a e s).1) :
    wpc exec P I Q (Prog.perform a >>= f) s := ⟨hs, hf⟩

/-- A precondition, and what holds of the results anyway. -/
theorem wpc.and {Q' : α → Prop} (h : wpc exec P I Q p s) (h' : Sat S Q' p) :
    wpc exec P I (fun s x => Q s x ∧ Q' x) p s := by
  induction p generalizing s with
  | ret x => exact ⟨h.1, h.2, h'⟩
  | act a k ih => exact ⟨h.1, fun e he => ih _ (h.2 e he) (h'.2 _)⟩

/-- A program of actions that leave the state as it is. -/
theorem Sat.wpc (hS : ∀ a e s, S a → (exec a e s).1 = s) {Q : α → Prop} (h : Sat S Q p) (hs : I s) :
    wpc exec P I (fun s' x => s = s' ∧ Q x) p s := by
  induction p with
  | ret x => exact ⟨hs, rfl, h⟩
  | act a k ih =>
    refine ⟨hs, fun e _ => ?_⟩
    rw [hS a e s h.1]
    exact ih _ (h.2 _)

/-- The invariant holds where the program has crashed or returned. -/
theorem wpc.upTo (h : wpc exec P I Q p s) {es : List ε} (hes : ∀ e ∈ es, P e) :
    I (upTo exec es p s).1 := by
  induction p generalizing s es with
  | ret x => cases es <;> exact h.1
  | act a k ih =>
    cases es with
    | nil => exact h.1
    | cons e es =>
      exact ih _ (h.2 e (hes e List.mem_cons_self)) fun e he => hes e (List.mem_cons_of_mem _ he)

/-- A program whose actions keep the invariant. -/
theorem Sat.upTo {Q : α → Prop} (hI : ∀ a e s, S a → I s → I (exec a e s).1) (h : Sat S Q p)
    (hs : I s) (es : List ε) :
    I (upTo exec es p s).1 ∧ ∀ x, (upTo exec es p s).2 = some x → Q x := by
  induction p generalizing s es with
  | ret x =>
    cases es <;> exact ⟨hs, fun y hy => Option.some.inj hy ▸ h⟩
  | act a k ih =>
    cases es with
    | nil => exact ⟨hs, fun y hy => nomatch hy⟩
    | cons e es => exact ih _ (h.2 _) (hI a e s h.1 hs) es

end Prog
end Conc
