import ShiftLock.Types
import ShiftLock.Conc.Run

/-!
# Trusted keys (`security/signing/signing.go`)

`KeyRing` with its calls, each one critical section, and `VerifyBytes`. `ed25519.Verify` is a
parameter; the creation time of a key is read by nothing here and is left out.

`Retire` marks an entry, and `Add` of the same public key writes the entry anew, with the flag of the
key that is added (`retired_overwritten`). A retired key stays retired as long as no such `Add` comes
(`retired_stays`).
-/

namespace ShiftLock.Signing

open Function

abbrev KeyID := String

/-- `AlgorithmEd25519`. -/
def algorithmEd25519 : String := "ed25519"

/-- `ed25519.PublicKeySize`. -/
def publicKeySize : Nat := 32

structure Signature where
  keyID : KeyID
  algorithm : String := ""
  version : UInt32 := 1
  signedAt : Time := 0
  sig : List UInt8 := []
  deriving DecidableEq, Repr

/-- `PublicKey`; `key` is the field `Public`. -/
structure PublicKey where
  id : KeyID
  key : List UInt8
  expiresAt : Option Time := none
  retired : Bool := false
  deriving DecidableEq, Repr

/-- What the calls return besides nil. -/
inductive Error where
  | unknownKey | expiredKey | invalidSig | emptyPayload | duplicateKeyID | invalidLength
  | unsupportedAlgorithm (algorithm : String)
  deriving DecidableEq, Repr

def PublicKey.validAt (k : PublicKey) (t : Time) : Bool :=
  if k.retired then false
  else !(k.expiresAt.any fun expiresAt => decide (expiresAt < t))

structure KeyRing where
  keys : KeyID → Option PublicKey := fun _ => none

def newKeyRing : KeyRing := {}

namespace KeyRing

variable (r : KeyRing)

def add (k : PublicKey) : KeyRing × Option Error :=
  if k.key.length ≠ publicKeySize then (r, some .invalidLength)
  else if (r.keys k.id).any fun existing => existing.key ≠ k.key then (r, some .duplicateKeyID)
  else ({ r with keys := Function.update r.keys k.id (some k) }, none)

def retire (id : KeyID) : KeyRing :=
  match r.keys id with
  | some k => { r with keys := Function.update r.keys id (some { k with retired := true }) }
  | none => r

def remove (id : KeyID) : KeyRing := { r with keys := Function.update r.keys id none }

def lookup (id : KeyID) : Option PublicKey := r.keys id

end KeyRing

/-- A ring with its `Len`. -/
structure TrustedKeys where
  ring : KeyRing
  len : Nat
  len_eq_zero : len = 0 ↔ ∀ id, ring.lookup id = none

/-- `VerifyBytes`: `now` is the wall clock, and `check` is `ed25519.Verify`. -/
def verifyBytes (check : List UInt8 → List UInt8 → List UInt8 → Bool) (now : Time)
    (keys : Option KeyRing) (payload : List UInt8) (sig : Signature) : Option Error :=
  match keys with
  | none => some .unknownKey
  | some keys =>
    if payload = [] then some .emptyPayload
    else if sig.algorithm ≠ "" ∧ sig.algorithm ≠ algorithmEd25519 then
      some (.unsupportedAlgorithm sig.algorithm)
    else
      match keys.lookup sig.keyID with
      | none => some .unknownKey
      | some pk =>
        if !pk.validAt (if sig.signedAt = 0 then now else sig.signedAt) then some .expiredKey
        else if !check pk.key payload sig.sig then some .invalidSig
        else none

/-- The calls that change or read a ring. -/
inductive Call where
  | add (k : PublicKey)
  | retire (id : KeyID)
  | remove (id : KeyID)
  | lookup (id : KeyID)
  deriving DecidableEq, Repr

def step (r : KeyRing) : Call → KeyRing
  | .add k => (r.add k).1
  | .retire id => r.retire id
  | .remove id => r.remove id
  | .lookup _ => r

/-- The ring after the first `i` calls of a history. -/
abbrev stateAt (r : KeyRing) (xs : List Call) (i : Nat) : KeyRing := Conc.Run.stateAt step r xs i

/-! ## A retired key -/

/-- The ring holds the key `id`, marked as retired. -/
def Retired (id : KeyID) (r : KeyRing) : Prop := ∃ k, r.keys id = some k ∧ k.retired = true

/-- The call does not put an unretired key in the place of the key `id`: it adds another key, or a
retired one, or one that `Add` rejects. -/
def Spares (id : KeyID) (r : KeyRing) : Call → Prop
  | .add k => k.id = id → k.retired = true ∨ k.key.length ≠ publicKeySize ∨
      ∃ existing, r.keys id = some existing ∧ existing.key ≠ k.key
  | _ => True

variable {id : KeyID} {r : KeyRing}

theorem KeyRing.retire_retired (h : r.lookup id ≠ none) : Retired id (r.retire id) := by
  obtain ⟨k, hk⟩ := Option.ne_none_iff_exists'.mp h
  have hk : r.keys id = some k := hk
  unfold retire
  rw [hk]
  exact ⟨{ k with retired := true }, update_self .., rfl⟩

theorem Retired.retire (h : Retired id r) (id' : KeyID) : Retired id (r.retire id') := by
  by_cases heq : id' = id
  · subst heq
    obtain ⟨k, hk, _⟩ := h
    exact KeyRing.retire_retired (by simp [KeyRing.lookup, hk])
  · unfold KeyRing.retire
    split
    · obtain ⟨k, hk, hret⟩ := h
      exact ⟨k, (update_of_ne (Ne.symm heq) ..).trans hk, hret⟩
    · exact h

theorem Retired.add (h : Retired id r) {k : PublicKey} (hspares : Spares id r (.add k)) :
    Retired id (r.add k).1 := by
  unfold KeyRing.add
  split
  · exact h
  rename_i hlen
  split
  · exact h
  rename_i hsame
  by_cases heq : k.id = id
  · subst heq
    refine ⟨k, update_self .., ?_⟩
    rcases hspares rfl with hret | hbad | ⟨existing, hexisting, hne⟩
    · exact hret
    · exact absurd hbad hlen
    · exact absurd (by simp [hexisting, hne]) hsame
  · obtain ⟨k', hk', hret⟩ := h
    exact ⟨k', (update_of_ne (Ne.symm heq) ..).trans hk', hret⟩

theorem Retired.step (h : Retired id r) {x : Call} (hspares : Spares id r x)
    (hremove : x ≠ .remove id) : Retired id (step r x) := by
  cases x with
  | add k => exact h.add hspares
  | retire id' => exact h.retire id'
  | remove id' =>
    obtain ⟨k, hk, hret⟩ := h
    have hne : id ≠ id' := by
      rintro rfl
      exact hremove rfl
    exact ⟨k, (update_of_ne hne ..).trans hk, hret⟩
  | lookup _ => exact h

theorem Retired.verifyBytes (h : Retired id r) (check : List UInt8 → List UInt8 → List UInt8 → Bool)
    (now : Time) (payload : List UInt8) {sig : Signature} (hsig : sig.keyID = id) :
    verifyBytes check now (some r) payload sig ≠ none := by
  obtain ⟨k, hk, hret⟩ := h
  subst hsig
  have hk : r.lookup sig.keyID = some k := hk
  unfold Signing.verifyBytes
  simp only [hk]
  split
  · exact Option.some_ne_none _
  split
  · exact Option.some_ne_none _
  · simp [PublicKey.validAt, hret]

/-- After `Retire` of a key that is there, and before any `Remove` of it, no signature that names it
is accepted, if every `Add` in between spares it. -/
theorem retired_stays (check : List UInt8 → List UInt8 → List UInt8 → Bool) (r : KeyRing)
    (xs : List Call) (id : KeyID) (i k : Nat) (hretire : xs[i]? = some (.retire id))
    (hpresent : (stateAt r xs i).lookup id ≠ none) (hik : i < k)
    (hremove : ∀ j, i < j → j < k → xs[j]? ≠ some (.remove id))
    (hspares : ∀ j x, i < j → j < k → xs[j]? = some x → Spares id (stateAt r xs j) x)
    (now : Time) (payload : List UInt8) (sig : Signature) (hsig : sig.keyID = id) :
    verifyBytes check now (some (stateAt r xs k)) payload sig ≠ none := by
  have hstart : Retired id (stateAt r xs (i + 1)) := by
    rw [stateAt, Conc.Run.stateAt_succ hretire]
    exact KeyRing.retire_retired hpresent
  have hstays : Retired id (stateAt r xs k) := by
    refine Conc.Run.kept hstart hik fun j x hij hjk hx hret => ?_
    refine hret.step (hspares j x hij hjk hx) ?_
    rintro rfl
    exact hremove j hij hjk hx
  exact hstays.verifyBytes check now payload hsig

/-- A key of the right length. -/
def sampleKey : PublicKey := { id := "k", key := List.replicate 32 7 }

/-- The key is added, retired, and added again as retired. -/
def sampleRotation : List Call := [.add sampleKey, .retire "k", .add { sampleKey with retired := true }]

theorem retired_stays_rotation :
    verifyBytes (fun _ _ _ => true) 0 (some (stateAt newKeyRing sampleRotation 3)) [1] { keyID := "k" } ≠
      none := by
  refine retired_stays (fun _ _ _ => true) newKeyRing sampleRotation "k" 1 3 rfl (by decide) (by decide)
    (fun j hj hj' => ?_) (fun j x hj hj' hx => ?_) 0 [1] _ rfl
  · obtain rfl : j = 2 := by omega
    decide
  · obtain rfl : j = 2 := by omega
    obtain rfl : Call.add { sampleKey with retired := true } = x := Option.some.inj hx
    exact fun _ => .inl rfl

/-- A rotation that adds the retired public key once more makes it valid again. -/
theorem retired_overwritten :
    let xs : List Call := [.add sampleKey, .retire "k", .add sampleKey]
    (stateAt newKeyRing xs 1).lookup "k" ≠ none ∧
    verifyBytes (fun _ _ _ => true) 0 (some (stateAt newKeyRing xs 2)) [1] { keyID := "k" } =
      some .expiredKey ∧
    verifyBytes (fun _ _ _ => true) 0 (some (stateAt newKeyRing xs 3)) [1] { keyID := "k" } = none := by
  decide

end ShiftLock.Signing
