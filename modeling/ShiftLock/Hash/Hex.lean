import Mathlib.Data.String.Basic

/-!
# Hexadecimal text

The digits of bytes, which determine the bytes (`hexDigits_injective`), and digests of 32 bytes with
their text.
-/

namespace ShiftLock

def hexDigit (n : Nat) : Char := "0123456789abcdef".toList.getD n '0'

theorem hexDigit_injective : ∀ m < 16, ∀ n < 16, hexDigit m = hexDigit n → m = n := by decide

/-- `[32]byte`. -/
abbrev Digest := { bytes : List UInt8 // bytes.length = 32 }

/-- The digest of zeros only. -/
def zeroDigest : Digest := ⟨List.replicate 32 0, by simp⟩

/-- The digits of some bytes. -/
def hexDigits (l : List UInt8) : List Char :=
  l.flatMap fun b => [hexDigit (b.toNat / 16), hexDigit (b.toNat % 16)]

/-- The hexadecimal text of a digest. -/
def hex (d : Digest) : String := String.ofList (hexDigits d.val)

theorem hexDigits_injective {l l' : List UInt8} (h : hexDigits l = hexDigits l') : l = l' := by
  induction l generalizing l' with
  | nil =>
    cases l' with
    | nil => rfl
    | cons b' l' => simp [hexDigits] at h
  | cons b l ih =>
    cases l' with
    | nil => simp [hexDigits] at h
    | cons b' l' =>
      simp only [hexDigits, List.flatMap_cons, List.cons_append, List.nil_append,
        List.cons.injEq] at h
      obtain ⟨hhigh, hlow, hrest⟩ := h
      have hb := b.toNat_lt
      have hb' := b'.toNat_lt
      have hhigh := hexDigit_injective _ (by omega) _ (by omega) hhigh
      have hlow := hexDigit_injective _ (by omega) _ (by omega) hlow
      rw [ih hrest, UInt8.toNat_inj.mp (show b.toNat = b'.toNat by omega)]

end ShiftLock
