import Mathlib.Data.List.Basic

/-!
# Runs of a machine with inputs

A machine is a step function on states and inputs; a run is a list of inputs, and `stateAt` is
the state after its first `i` inputs. An **inductive invariant** under a condition on the inputs
holds at every position of a run whose inputs meet the condition (`invariant`), and what some steps
keep holds from one position to another (`kept`); a preorder that contains every step from an invariant
state relates any two positions (`related`). A condition on the steps can depend on the state in which
they are taken (`Meets`).
-/

namespace Conc
namespace Run

variable {σ ι : Type}

/-- The state after the first `i` inputs of `xs`. -/
def stateAt (step : σ → ι → σ) (s : σ) (xs : List ι) (i : Nat) : σ := (xs.take i).foldl step s

@[simp] theorem stateAt_zero (step : σ → ι → σ) (s : σ) (xs : List ι) :
    stateAt step s xs 0 = s := rfl

variable {step : σ → ι → σ} {s : σ} {xs : List ι} {i : Nat}

theorem stateAt_succ {x : ι} (h : xs[i]? = some x) :
    stateAt step s xs (i + 1) = step (stateAt step s xs i) x := by
  simp [stateAt, List.take_add_one, h]

theorem stateAt_length (step : σ → ι → σ) (s : σ) (xs : List ι) (h : xs.length ≤ i) :
    stateAt step s xs i = xs.foldl step s := by
  rw [stateAt, List.take_of_length_le h]

/-- Past the end a run stays where it is. -/
theorem stateAt_succ_of_none (h : xs[i]? = none) :
    stateAt step s xs (i + 1) = stateAt step s xs i := by
  simp [stateAt, List.take_add_one, h]

/-- Every step of the run meets the condition `C`. -/
def Meets (step : σ → ι → σ) (C : σ → ι → Bool) : σ → List ι → Bool
  | _, [] => true
  | s, x :: xs => C s x && Meets step C (step s x) xs

theorem meets_getElem {C : σ → ι → Bool} (h : Meets step C s xs = true) {x : ι}
    (hx : xs[i]? = some x) : C (stateAt step s xs i) x = true := by
  induction xs generalizing s i with
  | nil => simp at hx
  | cons y ys ih =>
    simp only [Meets, Bool.and_eq_true] at h
    cases i with
    | zero =>
      have : y = x := by simpa using hx
      subst this
      exact h.1
    | succ i => exact ih h.2 (by simpa using hx)

theorem along {J : Nat → Prop} (h₀ : J 0) (hstep : ∀ i x, xs[i]? = some x → J i → J (i + 1))
    (hi : i ≤ xs.length) : J i := by
  induction i with
  | zero => exact h₀
  | succ i ih => exact hstep i _ (List.getElem?_eq_getElem hi) (ih (Nat.le_of_succ_le hi))

section

variable {step : σ → ι → σ} {C : ι → Prop} {I : σ → Prop}

variable {s : σ} {xs : List ι}

/-- What holds at one position and is kept by the steps up to another holds there too. -/
theorem kept {i j : Nat} (hi : I (stateAt step s xs i)) (hij : i ≤ j)
    (hstep : ∀ k x, i ≤ k → k < j → xs[k]? = some x → I (stateAt step s xs k) →
      I (step (stateAt step s xs k) x)) :
    I (stateAt step s xs j) := by
  induction hij with
  | refl => exact hi
  | @step j hij ih =>
    have hj := ih fun k x hik hkj => hstep k x hik (Nat.lt_succ_of_lt hkj)
    cases hx : xs[j]? with
    | none => rwa [stateAt_succ_of_none hx]
    | some x =>
      rw [stateAt_succ hx]
      exact hstep j x hij (Nat.lt_succ_self j) hx hj

theorem invariant (hstep : ∀ s x, I s → C x → I (step s x)) (hs : I s) (hxs : ∀ x ∈ xs, C x)
    (i : Nat) : I (stateAt step s xs i) := by
  have h₀ : I (stateAt step s xs 0) := hs
  exact kept h₀ (Nat.zero_le i) fun _ x _ _ hx hI => hstep _ x hI (hxs x (List.mem_of_getElem? hx))

theorem related {R : σ → σ → Prop} (hrefl : ∀ s, R s s) (htrans : ∀ a b c, R a b → R b c → R a c)
    (hinv : ∀ s x, I s → C x → I (step s x)) (hstep : ∀ s x, I s → C x → R s (step s x)) (hs : I s)
    (hxs : ∀ x ∈ xs, C x) {i j : Nat} (hij : i ≤ j) :
    R (stateAt step s xs i) (stateAt step s xs j) := by
  induction hij with
  | refl => exact hrefl _
  | @step j _ ih =>
    refine htrans _ _ _ ih ?_
    cases hx : xs[j]? with
    | none => rw [stateAt_succ_of_none hx]; exact hrefl _
    | some x =>
      rw [stateAt_succ hx]
      exact hstep _ _ (invariant hinv hs hxs j) (hxs x (List.mem_of_getElem? hx))

end

end Run
end Conc
