import Mathlib.Data.List.Basic
import Mathlib.Algebra.Order.Group.Nat

/-!
# Bytes and integers as JSON text carries them

JSON text carries characters and, for most readers, binary floating-point numbers. `decode` reads bytes
as characters the way an encoder does that must write something for every byte string: a byte that
starts no character is the replacement character. It loses nothing on the bytes of a text
(`decode_encode`). `float64` is the integer that a reader gets back for an integer literal, the nearest
one with 53 significant bits; it loses nothing up to `2 ^ 53` (`float64_of_exact`).
-/

namespace Json

/-! ## Characters -/

/-- The character that stands for a byte that starts no character. -/
def replacement : Char := Char.ofNat 0xFFFD

/-- The characters of the bytes after the first `k`. -/
def decodeFrom : Nat → List UInt8 → List Char
  | _, [] => []
  | k + 1, _ :: s => decodeFrom k s
  | 0, b :: s =>
    match (b :: s).toByteArray.utf8DecodeChar? 0 with
    | some c => c :: decodeFrom (c.utf8Size - 1) s
    | none => replacement :: decodeFrom 0 s

/-- The characters of a byte string. -/
def decode (s : List UInt8) : List Char := decodeFrom 0 s

/-- The bytes of a text. -/
def encode (t : List Char) : List UInt8 := t.flatMap String.utf8EncodeChar

/-- The bytes of a string. -/
def utf8 (s : String) : List UInt8 := s.toUTF8.data.toList

theorem decode_eq_nil {s : List UInt8} : decode s = [] ↔ s = [] := by
  cases s with
  | nil => exact iff_of_true rfl rfl
  | cons b s =>
    refine iff_of_false ?_ (List.cons_ne_nil b s)
    rw [decode, decodeFrom]
    split <;> exact List.cons_ne_nil _ _

theorem decodeFrom_append (l s : List UInt8) : decodeFrom l.length (l ++ s) = decode s := by
  induction l with
  | nil => rfl
  | cons b l ih => exact ih

theorem decode_char (c : Char) (s : List UInt8) :
    decode (String.utf8EncodeChar c ++ s) = c :: decode s := by
  have hdecode : (String.utf8EncodeChar c ++ s).toByteArray.utf8DecodeChar? 0 = some c := by
    rw [List.toByteArray_append]
    exact ByteArray.utf8DecodeChar?_utf8EncodeChar_append
  have hlength := String.length_utf8EncodeChar c
  have hne : String.utf8EncodeChar c ≠ [] := String.utf8EncodeChar_ne_nil
  generalize String.utf8EncodeChar c = l at hdecode hlength hne ⊢
  cases l with
  | nil => exact absurd rfl hne
  | cons b l =>
    have hskip : c.utf8Size - 1 = l.length := by
      rw [← hlength, List.length_cons, Nat.add_sub_cancel]
    rw [List.cons_append] at hdecode ⊢
    rw [decode, decodeFrom, hdecode]
    change c :: decodeFrom (c.utf8Size - 1) (l ++ s) = c :: decode s
    rw [hskip, decodeFrom_append]

/-- The bytes of a text are read back as they are. -/
theorem decode_encode (t : List Char) : decode (encode t) = t := by
  induction t with
  | nil => rfl
  | cons c t ih =>
    rw [encode, List.flatMap_cons, decode_char]
    exact congrArg _ ih

/-- A character at the end of a byte string is read, whatever stands before it: no character reaches
over the first byte of another one. -/
theorem mem_decodeFrom_append_char (c : Char) {s : List UInt8} {k : Nat} (hk : k ≤ s.length) :
    c ∈ decodeFrom k (s ++ String.utf8EncodeChar c) := by
  induction s generalizing k with
  | nil =>
    obtain rfl : k = 0 := Nat.le_zero.mp hk
    have h := decode_char c []
    rw [List.append_nil] at h
    rw [List.nil_append, ← decode, h]
    exact List.mem_cons_self
  | cons b s ih =>
    cases k with
    | succ k => exact ih (Nat.le_of_succ_le_succ hk)
    | zero =>
      rw [List.cons_append, decodeFrom]
      split
      case h_2 => exact List.mem_cons_of_mem _ (ih (Nat.zero_le _))
      rename_i d hd
      refine List.mem_cons_of_mem _ (ih ?_)
      by_contra hover
      have hlength := String.length_utf8EncodeChar d
      have hlt : s.length + 1 < (String.utf8EncodeChar d).length := by omega
      have hpos : 0 < (String.utf8EncodeChar c).length :=
        List.length_pos_of_ne_nil String.utf8EncodeChar_ne_nil
      obtain ⟨l, hl⟩ := ByteArray.exists_of_utf8DecodeChar?_eq_some hd
      have hbytes : b :: (s ++ String.utf8EncodeChar c) = String.utf8EncodeChar d ++ l.data.toList := by
        have := congrArg (·.data.toList) hl
        simpa [ByteArray.toList_data_append, List.data_toByteArray] using this
      have hfirst : (String.utf8EncodeChar d)[s.length + 1] = (String.utf8EncodeChar c)[0] := by
        have hget := congrArg (·[s.length + 1]?) hbytes
        simp only [List.getElem?_cons_succ, List.getElem?_append_right (Nat.le_refl s.length),
          Nat.sub_self, List.getElem?_append_left hlt, List.getElem?_eq_getElem hlt,
          List.getElem?_eq_getElem hpos, Option.some.injEq] at hget
        exact hget.symm
      have hstart : (String.utf8EncodeChar d)[s.length + 1].IsUTF8FirstByte := by
        rw [hfirst]
        exact UInt8.isUTF8FirstByte_getElem_zero_utf8EncodeChar
      exact Nat.succ_ne_zero _ (UInt8.isUTF8FirstByte_getElem_utf8EncodeChar.mp hstart)

/-! ## Integers -/

/-- The natural number with 53 significant bits nearest to `n`; of two, the one with the even last
bit. -/
def round53 (n : Nat) : Nat :=
  let k := n.log2 + 1 - 53
  let q := n / 2 ^ k
  let r := n % 2 ^ k
  if 2 * r < 2 ^ k ∨ 2 * r = 2 ^ k ∧ q % 2 = 0 then q * 2 ^ k else (q + 1) * 2 ^ k

/-- The integer nearest to `n` among the binary64 numbers. -/
def float64 (n : Int) : Int := n.sign * round53 n.natAbs

theorem round53_of_lt {n : Nat} (h : n < 2 ^ 53) : round53 n = n := by
  have hk : n.log2 + 1 - 53 = 0 := by
    by_cases hn : n = 0
    · subst hn
      decide
    · have := (Nat.log2_lt hn).mpr h
      omega
  simp [round53, hk, Nat.mod_one]

theorem round53_ne_zero {n : Nat} (h : n ≠ 0) : round53 n ≠ 0 := by
  have hpow : 2 ^ (n.log2 + 1 - 53) ≤ n :=
    le_trans (Nat.pow_le_pow_right (by decide) (by omega)) (Nat.log2_self_le h)
  have hpos : 0 < 2 ^ (n.log2 + 1 - 53) := Nat.two_pow_pos _
  have hq : 0 < n / 2 ^ (n.log2 + 1 - 53) := Nat.div_pos hpow hpos
  rw [round53]
  split
  · exact (Nat.mul_pos hq hpos).ne'
  · exact (Nat.mul_pos (Nat.succ_pos _) hpos).ne'

theorem float64_eq_zero {n : Int} : float64 n = 0 ↔ n = 0 := by
  constructor
  · intro h
    by_contra hn
    rcases Int.mul_eq_zero.mp h with hsign | hround
    · exact hn (Int.sign_eq_zero_iff_zero.mp hsign)
    · exact round53_ne_zero (Int.natAbs_ne_zero.mpr hn) (Int.natCast_eq_zero.mp hround)
  · rintro rfl
    decide

/-- The range of the integers that are read back as they are. -/
def Exact (n : Int) : Prop := n.natAbs ≤ 2 ^ 53

theorem float64_of_exact {n : Int} (h : Exact n) : float64 n = n := by
  have hround : round53 n.natAbs = n.natAbs := by
    rcases Nat.lt_or_eq_of_le h with hlt | heq
    · exact round53_of_lt hlt
    · rw [heq]
      decide
  rw [float64, hround]
  exact Int.sign_mul_natAbs n

end Json
