import Mathlib.Logic.Function.Basic

/-!
# Stamped stores

A store whose writes put a fresh number, the **stamp**, on the value that they store, for clients
that read, compute and write back on condition that the stamp is still the same.

`Stamped` says that no stored value is ahead of the counter. `Snapshot` says that a value that was
read at some time is not confused with a later one: if the store has the stamp of the snapshot, it
has the snapshot. Every write keeps it, so that a conditional write acts on the value that its
client has read.
-/

namespace Conc

open Function

variable {κ α : Type} {stamp : α → Option Nat}

/-- Every stored value has a stamp, which is not ahead of the counter. -/
def Stamped (stamp : α → Option Nat) (cells : κ → Option α) (last : Nat) : Prop :=
  ∀ k x, cells k = some x → ∃ v ≤ last, stamp x = some v

/-- The value was in cell `k` at some time: if the stamp is there, the value is. -/
structure Snapshot (stamp : α → Option Nat) (cells : κ → Option α) (last : Nat) (k : κ) (x : α) :
    Prop where
  stamped : ∃ v ≤ last, stamp x = some v
  current : ∀ y, cells k = some y → stamp y = stamp x → y = x

variable [DecidableEq κ] {cells : κ → Option α} {last : Nat} {k : κ} {x : α}

theorem Stamped.write (h : Stamped stamp cells last) (hx : stamp x = some (last + 1)) :
    Stamped stamp (update cells k (some x)) (last + 1) := by
  intro k' y hy
  by_cases hk : k' = k
  · subst hk
    obtain rfl : x = y := by simpa using hy
    exact ⟨last + 1, Nat.le_refl _, hx⟩
  · rw [update_of_ne hk] at hy
    obtain ⟨v, hv, hs⟩ := h k' y hy
    exact ⟨v, Nat.le_succ_of_le hv, hs⟩

omit [DecidableEq κ] in
theorem Snapshot.of_read (h : Stamped stamp cells last) (hx : cells k = some x) :
    Snapshot stamp cells last k x := by
  refine ⟨h k x hx, fun y hy _ => ?_⟩
  rw [hx] at hy
  exact (Option.some.inj hy).symm

theorem Snapshot.of_write (hx : stamp x = some (last + 1)) :
    Snapshot stamp (update cells k (some x)) (last + 1) k x :=
  ⟨⟨last + 1, Nat.le_refl _, hx⟩, fun y hy _ => by simpa using hy.symm⟩

theorem Snapshot.write (h : Snapshot stamp cells last k x) {k' : κ} {y : α}
    (hy : stamp y = some (last + 1)) :
    Snapshot stamp (update cells k' (some y)) (last + 1) k x := by
  obtain ⟨v, hv, hs⟩ := h.stamped
  refine ⟨⟨v, Nat.le_succ_of_le hv, hs⟩, fun z hz heq => ?_⟩
  by_cases hk : k = k'
  · subst hk
    obtain rfl : y = z := by simpa using hz
    rw [hy, hs, Option.some.injEq] at heq
    omega
  · rw [update_of_ne hk] at hz
    exact h.current z hz heq

end Conc
