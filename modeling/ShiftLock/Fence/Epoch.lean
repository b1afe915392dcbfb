import Mathlib.Order.Basic

/-!
# Fencing epochs

The purpose of a fenced lock, without any store: an **epoch** is a token and the owner that holds
it, if any. One operation keeps the epoch, gives it up, or grants the next token to an owner
(`Epoch.Next`); it never re-issues a token. `Epoch.Le` is what any number of operations does. It
is a preorder, along it tokens never decrease, and a token that is held at both ends is held by
the same owner.

A store proves that each of its operations is an `Epoch.Next` on each of its keys; the statements
about whole runs follow from `Epoch.Le`.
-/

namespace Fence

variable {ω : Type}

@[ext]
structure Epoch (ω : Type) where
  token : Nat
  holder : Option ω

namespace Epoch

inductive Next : Epoch ω → Epoch ω → Prop
  | keep (e : Epoch ω) : Next e e
  | vacate (e : Epoch ω) : Next e ⟨e.token, none⟩
  | grant (e : Epoch ω) (o : ω) : Next e ⟨e.token + 1, some o⟩

/-- What any number of operations may do to an epoch: a larger token, or the same token with the
same holder or none. -/
def Le (e e' : Epoch ω) : Prop :=
  e.token < e'.token ∨ (e.token = e'.token ∧ (e'.holder = e.holder ∨ e'.holder = none))

theorem Le.refl (e : Epoch ω) : Le e e := .inr ⟨rfl, .inl rfl⟩

theorem Le.trans {e₁ e₂ e₃ : Epoch ω} (h₁ : Le e₁ e₂) (h₂ : Le e₂ e₃) : Le e₁ e₃ := by
  rcases h₁ with h₁ | ⟨t₁, o₁⟩
  · refine .inl ?_
    rcases h₂ with h₂ | ⟨t₂, -⟩ <;> omega
  · rcases h₂ with h₂ | ⟨t₂, o₂⟩
    · exact .inl (by omega)
    · refine .inr ⟨t₁.trans t₂, ?_⟩
      rcases o₂ with o₂ | o₂
      · rw [o₂]; exact o₁
      · exact .inr o₂

variable {e e' : Epoch ω}

theorem Le.token_le (h : Le e e') : e.token ≤ e'.token := by
  rcases h with h | ⟨h, -⟩ <;> omega

/-- **One token, one holder.** -/
theorem Le.holder_eq (h : Le e e') (ht : e.token = e'.token) (he' : e'.holder ≠ none) :
    e'.holder = e.holder := by
  rcases h with h | ⟨-, h | h⟩
  · omega
  · exact h
  · exact absurd h he'

theorem Next.le (h : Next e e') : Le e e' := by
  cases h with
  | keep => exact .refl e
  | vacate => exact .inr ⟨rfl, .inr rfl⟩
  | grant o => exact .inl (Nat.lt_succ_self _)

/-- A step that installs a new holder advances the token by exactly one. -/
theorem Next.token_succ {o : ω} (h : Next e e') (ho : e'.holder = some o) (hne : e.holder ≠ some o) :
    e'.token = e.token + 1 := by
  cases h with
  | keep => exact absurd ho hne
  | vacate => cases ho
  | grant => rfl

/-- An operation that starts by giving up the epoch, or by leaving it alone, is one operation. -/
theorem Next.trans_of_token_eq {e₁ e₂ e₃ : Epoch ω} (h₁ : Next e₁ e₂) (ht : e₂.token = e₁.token)
    (h₂ : Next e₂ e₃) : Next e₁ e₃ := by
  cases h₁ with
  | keep => exact h₂
  | vacate =>
    cases h₂ with
    | keep | vacate => exact .vacate e₁
    | grant o => exact .grant e₁ o
  | grant o => exact absurd ht (Nat.succ_ne_self _)

/-- Owner `o` cannot hold token `t` any more. -/
def Past (e : Epoch ω) (o : ω) (t : Nat) : Prop :=
  t < e.token ∨ (t = e.token ∧ e.holder ≠ some o)

theorem Past.next {o : ω} {t : Nat} (h : Past e o t) (hn : Next e e') : Past e' o t := by
  cases hn with
  | keep => exact h
  | vacate => exact h.imp_right fun h => ⟨h.1, by simp⟩
  | grant o' => exact .inl (by rcases h with h | ⟨h, -⟩ <;> exact Nat.lt_succ_of_le (by omega))

end Epoch

end Fence
