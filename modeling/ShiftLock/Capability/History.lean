import ShiftLock.Capability.Delegate
import ShiftLock.Security.AntiReplay

/-!
# Histories of an authority (`capability/capability.go`)

Sequences of `Issue`, `Delegate`, `Revoke`, `AdvanceEpoch` and `Verify` on an authority that was built
with any options. Every section of a call has its own choice of the environment, so that the key ring
and the expiry of the signing key may change at any time.

`Verify` decides on the presented token alone. What ties it to the tokens that the authority has
returned is the signature: `Unforgeable` says that the keys accept a presented token only over the
canonical bytes of a returned one, and `Distinct` that these bytes determine the token. Without a
signer there is nothing of the kind (`verify_made_up`).

From then on the four tables decide: a revoked ID stays revoked, an epoch that ended does not return,
and the use count of an ID is the number of its accepted calls (`spent_eq_accepted`).
-/

namespace ShiftLock.Capability

open Conc Function

/-- `Option`. A ring or a cache may be nil; of the cache only the epoch matters. -/
inductive Opt where
  | withSigner (ring : Bool)
  | withKeyRing (ring : Bool)
  | withReplayCache (epoch : Option UInt64)
  | withClock
  deriving DecidableEq, Repr

/-- One option, applied. -/
def Opt.apply (a : Authority) : Opt → Authority
  | .withSigner ring => { a with signer := true, keys := ring, requireSig := true }
  | .withKeyRing ring => { a with keys := ring }
  | .withReplayCache epoch => { a with replay := epoch }
  | .withClock => a

def new (opts : List Opt) : Authority := opts.foldl Opt.apply {}

inductive Call where
  | issue (req : Request)
  | delegate (parent : Token) (req : Request)
  | revoke (id : ID)
  | advanceEpoch
  | verify (t : Token)
  deriving DecidableEq, Repr

/-- What a call returns: a token, or an error that may be nil. -/
inductive Reply where
  | token (r : Except Error Token)
  | done (err : Option Error)

/-- The call returned a nil error. -/
def Reply.isNil : Reply → Bool
  | .done none => true
  | _ => false

def Call.code : Call → P Reply
  | .issue req => do return .token (← perform (.issue req))
  | .delegate parent req => do return .token (← Capability.delegate parent req)
  | .revoke id => do return .done (← perform (.revoke id))
  | .advanceEpoch => do return .done (← perform .advanceEpoch)
  | .verify t => do return .done (← perform (.verify t true))

/-- A call, with the environment of its sections. -/
structure Input where
  call : Call
  choices : Nat → Choice

def step (a : Authority) (x : Input) : Authority :=
  (Conc.Prog.run execWith x.choices x.call.code 0 a).1

def reply (a : Authority) (x : Input) : Reply :=
  (Conc.Prog.run execWith x.choices x.call.code 0 a).2.1

/-- The authority after the first `i` calls of a history. -/
abbrev stateAt (opts : List Opt) (xs : List Input) (i : Nat) : Authority :=
  Conc.Run.stateAt step (new opts) xs i

/-- Call `j` returned the token. -/
def ReturnsAt (opts : List Opt) (xs : List Input) (j : Nat) (t : Token) : Prop :=
  ∃ x, xs[j]? = some x ∧ reply (stateAt opts xs j) x = .token (.ok t)

/-- Call `i` is a `Verify` of the token that returns nil. -/
def AcceptsAt (opts : List Opt) (xs : List Input) (i : Nat) (t : Token) : Prop :=
  ∃ x, xs[i]? = some x ∧ x.call = .verify t ∧ (reply (stateAt opts xs i) x).isNil = true

section

variable {β : Type} (canon : Token → β) (opts : List Opt) (xs : List Input)

/-- The keys accept a presented token only over the canonical bytes of a token that was returned. What
`Delegate` signs first, the child without its parent, does not leave the authority. -/
def Unforgeable : Prop :=
  ∀ (i : Nat) (x : Input) (t : Token), xs[i]? = some x → x.call = .verify t →
    (x.choices 0).1.verify t.body t.signature t.keyID = true →
    ∃ j t', j < i ∧ ReturnsAt opts xs j t' ∧ canon t'.body = canon t.body

/-- The canonical bytes of a presented token and of a returned one differ if their bodies do. -/
def Distinct : Prop :=
  ∀ (i j : Nat) (x : Input) (t t' : Token), xs[i]? = some x → x.call = .verify t → ReturnsAt opts xs j t' →
    canon t'.body = canon t.body → t'.body = t.body

end

/-! ## One call -/

section

variable {a : Authority} {x : Input} {t : Token}

variable {c : Crypto} {e : Env} {consume : Bool}

theorem Authority.verifyLocked_none (h : (a.verifyLocked c e t consume).2 = none) :
    a.revoked t.id = false ∧ t.epoch = a.epoch ∧ e.now ≤ t.expiresAt ∧
    (a.requireSig = true → c.verify t.body t.signature t.keyID = true) ∧
    a.verifyLocked c e t consume = a.verifyUses t consume := by
  unfold verifyLocked at h ⊢
  split at h
  · cases h
  rename_i hrevoked
  split at h
  · cases h
  rename_i hepoch
  split at h
  · cases h
  rename_i htime
  split at h
  · cases h
  rename_i hsig
  refine ⟨by simpa using hrevoked, not_not.mp hepoch, Int.not_lt.mp htime, fun hrequire => ?_, ?_⟩
  · simp only [hrequire, true_or, true_and, Bool.or_eq_true, Bool.not_eq_true', not_or,
      Bool.not_eq_false] at hsig
    exact hsig.2
  · rw [if_neg hrevoked, if_neg hepoch, if_neg htime, if_neg hsig]

theorem Authority.verifyUses_some (h : (a.verifyUses t consume).2 ≠ none) :
    (a.verifyUses t consume).1 = a := by
  revert h
  unfold verifyUses
  split
  · split
    · exact fun _ => rfl
    · split <;> exact fun h => absurd rfl h
  split
  · split
    · exact fun _ => rfl
    · split <;> exact fun h => absurd rfl h
  · exact fun _ => rfl

theorem Authority.verifyLocked_some (h : (a.verifyLocked c e t consume).2 ≠ none) :
    (a.verifyLocked c e t consume).1 = a := by
  revert h
  unfold verifyLocked
  split
  · exact fun _ => rfl
  split
  · exact fun _ => rfl
  split
  · exact fun _ => rfl
  split
  · exact fun _ => rfl
  · exact verifyUses_some

inductive Effect (a : Authority) (x : Input) : Authority → Prop
  | issued (issued : ID → Option Token) : Effect a x { a with issued }
  | revoked (id : ID) (h : x.call = .revoke id) :
    Effect a x { a with revoked := Function.update a.revoked id true }
  | advanced (h : x.call = .advanceEpoch) (hnil : a.advanceEpoch.2 = none) :
    Effect a x a.advanceEpoch.1
  | used (t : Token) (h : x.call = .verify t)
    (hnil : (a.verifyLocked (x.choices 0).1 (x.choices 0).2 t true).2 = none) :
    Effect a x (a.verifyUses t true).1

theorem Authority.advanceEpoch_some (h : a.advanceEpoch.2 ≠ none) : a.advanceEpoch.1 = a := by
  revert h
  unfold advanceEpoch
  split
  · split
    · exact fun _ => rfl
    · exact fun h => absurd rfl h
  · split
    · exact fun _ => rfl
    · exact fun h => absurd rfl h

theorem step_effect (a : Authority) (x : Input) : Effect a x (step a x) := by
  obtain ⟨call, choices⟩ := x
  cases call with
  | issue req =>
    have hsame := a.issue_same (choices 0).1 (choices 0).2 req
    show Effect a _ (a.issue (choices 0).1 (choices 0).2 req).1
    rw [hsame]
    exact .issued _
  | delegate parent req =>
    obtain ⟨issued, hsame⟩ := delegate_same choices a parent req
    have hstep : step a ⟨.delegate parent req, choices⟩ = { a with issued } := by
      rw [← hsame, step, Call.code, Prog.run_bind]
      rfl
    rw [hstep]
    exact .issued issued
  | revoke id =>
    show Effect a _ (a.revoke id).1
    unfold Authority.revoke
    split
    · exact .issued a.issued
    · exact .revoked id rfl
  | advanceEpoch =>
    show Effect a _ a.advanceEpoch.1
    by_cases hnil : a.advanceEpoch.2 = none
    · exact .advanced rfl hnil
    · rw [Authority.advanceEpoch_some hnil]
      exact .issued a.issued
  | verify t =>
    show Effect a _ (a.verifyLocked (choices 0).1 (choices 0).2 t true).1
    by_cases hnil : (a.verifyLocked (choices 0).1 (choices 0).2 t true).2 = none
    · rw [(Authority.verifyLocked_none hnil).2.2.2.2]
      exact .used t rfl hnil
    · rw [Authority.verifyLocked_some hnil]
      exact .issued a.issued

theorem reply_verify (h : x.call = .verify t) :
    reply a x = .done (a.verifyLocked (x.choices 0).1 (x.choices 0).2 t true).2 := by
  rw [reply, h]
  rfl

theorem isNil_verify (h : x.call = .verify t) :
    (reply a x).isNil = true ↔ (a.verifyLocked (x.choices 0).1 (x.choices 0).2 t true).2 = none := by
  rw [reply_verify h]
  cases (a.verifyLocked (x.choices 0).1 (x.choices 0).2 t true).2 <;> simp [Reply.isNil]

theorem epoch_of_returned (h : reply a x = .token (.ok t)) : t.epoch = a.epoch := by
  obtain ⟨call, choices⟩ := x
  cases call with
  | issue req =>
    have hissue : (a.issue (choices 0).1 (choices 0).2 req).2 = .ok t := Reply.token.inj h
    obtain ⟨⟨nonce, id, _, hbody⟩, _⟩ := Authority.issue_ok hissue
    exact congrArg Token.epoch hbody
  | delegate parent req =>
    rw [reply, Call.code, Prog.run_bind] at h
    have hok : (Prog.run execWith choices (delegate parent req) 0 a).2.1 = .ok t :=
      Reply.token.inj h
    obtain ⟨hverify, ⟨req', nonce, id, _, hbody⟩, _⟩ := delegate_ok hok
    have hepoch := congrArg Token.epoch hbody
    exact hepoch.trans (Authority.verifyLocked_none hverify).2.1
  | revoke | advanceEpoch | verify => cases h

end

/-! ## The tables along a history -/

section

variable {a : Authority} {x : Input}

theorem verifyUses_same (a : Authority) (t : Token) (consume : Bool) :
    (a.verifyUses t consume).1 = { a with spent := (a.verifyUses t consume).1.spent } := by
  unfold Authority.verifyUses
  split
  · split
    · rfl
    · split <;> rfl
  split
  · split
    · rfl
    · split <;> rfl
  · rfl

theorem Authority.advanceEpoch_none (h : a.advanceEpoch.2 = none) :
    ∃ e, (a.replay = some e ∨ a.replay = none ∧ e = a.epoch) ∧ e < e + 1 ∧
      a.advanceEpoch.1 = { a with epoch := e + 1, replay := a.replay.map fun _ => e + 1 } := by
  unfold advanceEpoch at h ⊢
  split at h
  · rename_i e hreplay
    split at h
    · cases h
    · rename_i hmax
      exact ⟨e, .inl hreplay, AntiReplay.lt_succ hmax, by simp only [hreplay, if_neg hmax, Option.map_some]⟩
  · rename_i hreplay
    split at h
    · cases h
    · rename_i hmax
      exact ⟨a.epoch, .inr ⟨hreplay, rfl⟩, AntiReplay.lt_succ hmax, by simp only [hreplay, if_neg hmax, Option.map_none]⟩

theorem requireSig_step (a : Authority) (x : Input) : (step a x).requireSig = a.requireSig := by
  have heffect := step_effect a x
  generalize step a x = a' at heffect ⊢
  cases heffect with
  | issued | revoked => rfl
  | advanced h hnil =>
    obtain ⟨e, _, _, heq⟩ := Authority.advanceEpoch_none hnil
    rw [heq]
  | used t h hnil => rw [verifyUses_same]

theorem revoked_step (x : Input) {id : ID} (h : a.revoked id = true) : (step a x).revoked id = true := by
  have heffect := step_effect a x
  generalize step a x = a' at heffect ⊢
  cases heffect with
  | issued => exact h
  | revoked id' =>
    by_cases heq : id = id'
    · subst heq
      exact update_self ..
    · exact (update_of_ne heq ..).trans h
  | advanced _ hnil =>
    obtain ⟨e, _, _, heq⟩ := Authority.advanceEpoch_none hnil
    rw [heq]
    exact h
  | used t => rw [verifyUses_same]; exact h

theorem revoked_of_isNil {id : ID} (h : x.call = .revoke id) (hnil : (reply a x).isNil = true) :
    (step a x).revoked id = true := by
  obtain ⟨call, choices⟩ := x
  obtain rfl : call = .revoke id := h
  have hnil : (Reply.done (a.revoke id).2).isNil = true := hnil
  show (a.revoke id).1.revoked id = true
  unfold Authority.revoke at hnil ⊢
  split at hnil
  · cases hnil
  · rename_i hissued
    rw [if_neg hissued]
    exact update_self ..

/-- The epoch of the anti-replay cache is at least the authority's. -/
def Epochs (a : Authority) : Prop := ∀ e, a.replay = some e → a.epoch ≤ e

theorem Epochs.step (h : Epochs a) (x : Input) : Epochs (step a x) := by
  have heffect := step_effect a x
  generalize Capability.step a x = a' at heffect ⊢
  cases heffect with
  | issued | revoked => exact h
  | advanced _ hnil =>
    obtain ⟨e, _, _, heq⟩ := Authority.advanceEpoch_none hnil
    rw [heq]
    intro e' he'
    obtain ⟨_, _, rfl⟩ := Option.map_eq_some_iff.mp he'
    exact UInt64.le_refl _
  | used t => rw [verifyUses_same]; exact h

theorem Epochs.advance (h : Epochs a) (hnil : a.advanceEpoch.2 = none) :
    a.epoch < a.advanceEpoch.1.epoch := by
  obtain ⟨e, hreplay, hlt, heq⟩ := Authority.advanceEpoch_none hnil
  rw [heq]
  rcases hreplay with hsome | ⟨_, rfl⟩
  · exact UInt64.lt_of_le_of_lt (h e hsome) hlt
  · exact hlt

theorem Epochs.le_step (h : Epochs a) (x : Input) : a.epoch ≤ (Capability.step a x).epoch := by
  have heffect := step_effect a x
  generalize Capability.step a x = a' at heffect ⊢
  cases heffect with
  | issued | revoked => exact UInt64.le_refl _
  | advanced _ hnil => exact UInt64.le_of_lt (h.advance hnil)
  | used t => rw [verifyUses_same]; exact UInt64.le_refl _

theorem epoch_of_isNil (h : Epochs a) (hcall : x.call = .advanceEpoch)
    (hnil : (reply a x).isNil = true) : a.epoch < (step a x).epoch := by
  obtain ⟨call, choices⟩ := x
  obtain rfl : call = .advanceEpoch := hcall
  have hnil : (Reply.done a.advanceEpoch.2).isNil = true := hnil
  refine h.advance ?_
  cases hadvance : a.advanceEpoch.2 with
  | none => rfl
  | some err =>
    rw [hadvance] at hnil
    cases hnil

end

section

variable {opts : List Opt} {xs : List Input} {i j k : Nat} {t t' : Token}

theorem stateAt_succ {x : Input} (h : xs[i]? = some x) :
    stateAt opts xs (i + 1) = step (stateAt opts xs i) x := Run.stateAt_succ h

theorem foldl_apply {I : Authority → Prop} (hI : ∀ a o, I a → I (Opt.apply a o)) (opts : List Opt)
    {a : Authority} (h : I a) : I (opts.foldl Opt.apply a) := by
  induction opts generalizing a with
  | nil => exact h
  | cons o opts ih => exact ih (hI a o h)

theorem epochs_new (opts : List Opt) : Epochs (new opts) := by
  have hzero : (new opts).epoch = 0 :=
    foldl_apply (I := fun a => a.epoch = 0) (fun a o h => by cases o <;> exact h) opts rfl
  intro e _
  rw [hzero]
  exact UInt64.zero_le

theorem epochs_at (opts : List Opt) (xs : List Input) (i : Nat) : Epochs (stateAt opts xs i) :=
  Run.invariant (fun _ x h _ => h.step x) (epochs_new opts)
    (fun _ _ => trivial) i

theorem epoch_mono (hij : i ≤ j) : (stateAt opts xs i).epoch ≤ (stateAt opts xs j).epoch :=
  Run.related (R := fun a b => a.epoch ≤ b.epoch)
    (fun _ => UInt64.le_refl _) (fun _ _ _ => UInt64.le_trans) (fun _ x h _ => h.step x)
    (fun _ x h _ => h.le_step x) (epochs_new opts) (fun _ _ => trivial) hij

theorem requireSig_at {ring : Bool} (h : Opt.withSigner ring ∈ opts) (xs : List Input) (i : Nat) :
    (stateAt opts xs i).requireSig = true := by
  refine Run.invariant
    (fun a x ha _ => (requireSig_step a x).trans ha) ?_ (fun _ _ => trivial) i
  unfold new
  generalize ({} : Authority) = a
  induction opts generalizing a with
  | nil => cases h
  | cons o opts ih =>
    rcases List.mem_cons.mp h with rfl | hmem
    · -- No other option takes the requirement back.
      refine foldl_apply (I := fun a => a.requireSig = true) (fun a o ha => ?_) opts rfl
      cases o with
      | withSigner => rfl
      | withKeyRing | withReplayCache | withClock => exact ha
    · exact ih hmem _

theorem AcceptsAt.returned {β : Type} {canon : Token → β} {ring : Bool}
    (hsigner : Opt.withSigner ring ∈ opts) (hunf : Unforgeable canon opts xs)
    (hdist : Distinct canon opts xs) (h : AcceptsAt opts xs i t) :
    ∃ j t', j < i ∧ ReturnsAt opts xs j t' ∧ t'.body = t.body := by
  obtain ⟨x, hx, hcall, hnil⟩ := h
  have hsig := (Authority.verifyLocked_none ((isNil_verify hcall).mp hnil)).2.2.2.1
    (requireSig_at hsigner xs i)
  obtain ⟨j, t', hj, hreturns, hcanon⟩ := hunf i x t hx hcall hsig
  exact ⟨j, t', hj, hreturns, hdist i j x t t' hx hcall hreturns hcanon⟩

theorem AcceptsAt.not_revoked (h : AcceptsAt opts xs i t) {y : Input} (hk : k < i)
    (hy : xs[k]? = some y) (hcall : y.call = .revoke t.id) :
    (reply (stateAt opts xs k) y).isNil = false := by
  obtain ⟨x, hx, hverify, hnil⟩ := h
  have hfresh := (Authority.verifyLocked_none ((isNil_verify hverify).mp hnil)).1
  by_contra hrevoke
  rw [Bool.not_eq_false] at hrevoke
  have hafter : (stateAt opts xs (k + 1)).revoked t.id = true := by
    rw [stateAt_succ hy]
    exact revoked_of_isNil hcall hrevoke
  have hlater : (stateAt opts xs i).revoked t.id = true :=
    Run.kept (I := fun a : Authority => a.revoked t.id = true) hafter hk fun _ y _ _ _ hr => revoked_step y hr
  rw [hfresh] at hlater
  cases hlater

/-- After an epoch has ended, its tokens are not accepted. -/
theorem AcceptsAt.not_advanced (h : AcceptsAt opts xs i t) (hreturns : ReturnsAt opts xs j t')
    (hbody : t'.body = t.body) {y : Input} (hjk : j < k) (hki : k < i) (hy : xs[k]? = some y)
    (hcall : y.call = .advanceEpoch) : (reply (stateAt opts xs k) y).isNil = false := by
  obtain ⟨x, hx, hverify, hnil⟩ := h
  obtain ⟨z, hz, htoken⟩ := hreturns
  have hnow := (Authority.verifyLocked_none ((isNil_verify hverify).mp hnil)).2.1
  have hthen : t.epoch = (stateAt opts xs j).epoch := by
    have hsame := congrArg Token.epoch hbody
    exact hsame.symm.trans (show t'.epoch = _ from epoch_of_returned htoken)
  by_contra hadvance
  rw [Bool.not_eq_false] at hadvance
  have hlt : (stateAt opts xs k).epoch < (stateAt opts xs (k + 1)).epoch := by
    rw [stateAt_succ hy]
    exact epoch_of_isNil (epochs_at opts xs k) hcall hadvance
  have hle : (stateAt opts xs (k + 1)).epoch ≤ (stateAt opts xs j).epoch := by
    rw [← hthen, hnow]
    exact epoch_mono hki
  have hlt' := UInt64.lt_of_lt_of_le hlt (UInt64.le_trans hle (epoch_mono (Nat.le_of_lt hjk)))
  exact UInt64.lt_irrefl _ hlt'

end

/-! ## Use counts -/

/-- How often a token with these constraints may be used. -/
def Constraints.uses (c : Constraints) : Option Int :=
  if c.singleUse ∨ c.maxUses = 1 then some 1
  else if 1 < c.maxUses then some c.maxUses
  else none

/-- Call `j` is a `Verify` of a token with this ID that returns nil. -/
def acceptsID (opts : List Opt) (xs : List Input) (id : ID) (j : Nat) : Bool :=
  match xs[j]? with
  | some x =>
    match x.call with
    | .verify t => decide (t.id = id) && (reply (stateAt opts xs j) x).isNil
    | _ => false
  | none => false

/-- The number of calls of `Verify` among the first `i` that accepted the ID. -/
def accepted (opts : List Opt) (xs : List Input) (id : ID) (i : Nat) : Nat :=
  (List.range i).countP (acceptsID opts xs id)

section

variable {a : Authority} {x : Input} {t : Token} {id : ID}

theorem Authority.verifyUses_spent {m : Int} (hm : t.constraints.uses = some m)
    (hnil : (a.verifyUses t true).2 = none) (hpos : 0 ≤ a.spent t.id) :
    a.spent t.id < m ∧ (a.verifyUses t true).1.spent t.id = a.spent t.id + 1 := by
  unfold verifyUses at hnil ⊢
  unfold Constraints.uses at hm
  split at hm
  · rename_i hsingle
    obtain rfl := Option.some.inj hm
    rw [if_pos hsingle] at hnil ⊢
    split at hnil
    · cases hnil
    · rename_i hfresh
      rw [if_neg hfresh]
      refine ⟨by omega, ?_⟩
      simp only [if_true, update_self]
      omega
  rename_i hsingle
  split at hm
  · rename_i hmulti
    obtain rfl := Option.some.inj hm
    rw [if_neg hsingle, if_pos hmulti] at hnil ⊢
    split at hnil
    · cases hnil
    · rename_i hleft
      rw [if_neg hleft]
      exact ⟨Int.not_le.mp hleft, update_self ..⟩
  · cases hm

theorem Authority.verifyUses_other (h : id ≠ t.id) (consume : Bool) :
    (a.verifyUses t consume).1.spent id = a.spent id := by
  unfold verifyUses
  split
  · split
    · rfl
    · split
      · exact update_of_ne h ..
      · rfl
  split
  · split
    · rfl
    · split
      · exact update_of_ne h ..
      · rfl
  · rfl

/-- A call that does not accept the ID leaves its use count. -/
theorem spent_step (h : ∀ t, x.call = .verify t → t.id = id → (reply a x).isNil = false) :
    (step a x).spent id = a.spent id := by
  have heffect := step_effect a x
  generalize step a x = a' at heffect ⊢
  cases heffect with
  | issued | revoked => rfl
  | advanced _ hnil =>
    obtain ⟨e, _, _, heq⟩ := Authority.advanceEpoch_none hnil
    rw [heq]
  | used t hcall hnil =>
    refine Authority.verifyUses_other (fun hid => ?_) true
    have hrefused := h t hcall hid.symm
    rw [(isNil_verify hcall).mpr hnil] at hrefused
    cases hrefused

theorem spent_step_accepted {m : Int} (hcall : x.call = .verify t) (hnil : (reply a x).isNil = true)
    (hm : t.constraints.uses = some m) (hpos : 0 ≤ a.spent t.id) :
    a.spent t.id < m ∧ (step a x).spent t.id = a.spent t.id + 1 := by
  have hlocked := (isNil_verify hcall).mp hnil
  have huses := (Authority.verifyLocked_none hlocked).2.2.2.2
  have hstep : step a x = (a.verifyUses t true).1 := by
    rw [← huses, step, hcall]
    rfl
  rw [huses] at hlocked
  rw [hstep]
  exact Authority.verifyUses_spent hm hlocked hpos

section

variable {opts : List Opt} {xs : List Input}

theorem acceptsID_iff {j : Nat} :
    acceptsID opts xs id j = true ↔ ∃ t, t.id = id ∧ AcceptsAt opts xs j t := by
  unfold acceptsID AcceptsAt
  cases xs[j]? with
  | none => simp
  | some x =>
    cases hcall : x.call with
    | verify t | issue | delegate | revoke | advanceEpoch => simp [hcall]

theorem accepted_succ (i : Nat) :
    accepted opts xs id (i + 1) =
      accepted opts xs id i + if acceptsID opts xs id i = true then 1 else 0 := by
  simp [accepted, List.range_succ, List.countP_append, List.countP_cons]

/-- The use count of an ID whose accepted tokens are limited is the number of its accepted calls, and
it stays within the limit. -/
theorem spent_eq_accepted {n : Nat}
    (huses : ∀ i t, AcceptsAt opts xs i t → t.id = id → ∃ m, t.constraints.uses = some m ∧ m ≤ n)
    (i : Nat) :
    (stateAt opts xs i).spent id = accepted opts xs id i ∧ accepted opts xs id i ≤ n := by
  induction i with
  | zero =>
    have hzero : (new opts).spent id = 0 :=
      foldl_apply (I := fun a => a.spent id = 0) (fun a o h => by cases o <;> exact h) opts rfl
    exact ⟨hzero, Nat.zero_le n⟩
  | succ i ih =>
    obtain ⟨hspent, hle⟩ := ih
    rw [accepted_succ]
    by_cases hacc : acceptsID opts xs id i = true
    · obtain ⟨t, rfl, haccepts⟩ := acceptsID_iff.mp hacc
      obtain ⟨m, hm, hmn⟩ := huses i t haccepts rfl
      obtain ⟨x, hx, hcall, hnil⟩ := haccepts
      obtain ⟨hlt, hnext⟩ := spent_step_accepted hcall hnil hm (by omega)
      rw [stateAt_succ hx, if_pos hacc]
      omega
    · rw [if_neg hacc]
      have hsame : (stateAt opts xs (i + 1)).spent id = (stateAt opts xs i).spent id := by
        cases hx : xs[i]? with
        | none => rw [stateAt, Run.stateAt_succ_of_none hx]
        | some x =>
          rw [stateAt_succ hx]
          refine spent_step fun t hcall hid => ?_
          rw [← Bool.not_eq_true]
          exact fun hnil => hacc (acceptsID_iff.mpr ⟨t, hid, x, hx, hcall, hnil⟩)
      exact ⟨hsame.trans hspent, hle⟩

end

end

/-! ## The authority -/

section

variable {β : Type} (canon : Token → β) (opts : List Opt) (xs : List Input)

/-- An authority with a signer accepts a token only if it returned one with the same ID, subject,
permission, resource, expiry and constraints before. -/
theorem verify_issued {ring : Bool} (hsigner : Opt.withSigner ring ∈ opts)
    (hunf : Unforgeable canon opts xs) (hdist : Distinct canon opts xs) (i : Nat) (t : Token)
    (haccepts : AcceptsAt opts xs i t) :
    ∃ j t', j < i ∧ ReturnsAt opts xs j t' ∧ t'.id = t.id ∧ t'.subject = t.subject ∧
      t'.permission = t.permission ∧ t'.resource = t.resource ∧ t'.expiresAt = t.expiresAt ∧
      t'.constraints = t.constraints := by
  obtain ⟨j, t', hj, hreturns, hbody⟩ := haccepts.returned hsigner hunf hdist
  injection hbody with hid hsubject hpermission hresource _ hexpires hconstraints
  exact ⟨j, t', hj, hreturns, hid, hsubject, hpermission, hresource, hexpires, hconstraints⟩

/-- A token for one use, as the authority of `sampleHistory` signs it. -/
def sampleIssued : Token where
  id := "cap_0001020304050607"
  subject := "s"
  permission := "claim.release"
  resource := ""
  issuedAt := 0
  expiresAt := 4
  constraints := { singleUse := true }
  nonce := sampleNonce
  epoch := 0
  signature := [1]
  keyID := "k"

def sampleRequest : Request where
  subject := "s"
  permission := "claim.release"
  ttl := 4
  constraints := { singleUse := true }

/-- Keys that accept this token only. -/
def sampleChoice : Choice :=
  ({ sampleCrypto with verify := fun t _ _ => decide (t = sampleIssued.body) },
    { random := .ok (sampleNonce, "0001020304050607") })

/-- The token is issued and presented twice. -/
def sampleHistory : List Input :=
  [⟨.issue sampleRequest, fun _ => sampleChoice⟩, ⟨.verify sampleIssued, fun _ => sampleChoice⟩,
    ⟨.verify sampleIssued, fun _ => sampleChoice⟩]

theorem sampleHistory_presents {i : Nat} {x : Input} {t : Token} (hx : sampleHistory[i]? = some x)
    (hcall : x.call = .verify t) : 0 < i ∧ t = sampleIssued := by
  rcases i with _ | _ | _ | n
  · cases hx
    cases hcall
  · cases hx
    cases hcall
    exact ⟨by decide, rfl⟩
  · cases hx
    cases hcall
    exact ⟨by decide, rfl⟩
  · simp [sampleHistory] at hx

theorem sampleHistory_unforgeable : Unforgeable id [.withSigner true] sampleHistory := by
  intro i x t hx hcall _
  obtain ⟨hi, rfl⟩ := sampleHistory_presents hx hcall
  exact ⟨0, sampleIssued, hi, ⟨_, rfl, rfl⟩, rfl⟩

theorem sampleHistory_distinct : Distinct id [.withSigner true] sampleHistory :=
  fun _ _ _ _ _ _ _ _ h => h

theorem verify_issued_sample :
    ∃ j t', j < 1 ∧ ReturnsAt [.withSigner true] sampleHistory j t' ∧ t'.id = sampleIssued.id ∧
      t'.subject = sampleIssued.subject ∧ t'.permission = sampleIssued.permission ∧
      t'.resource = sampleIssued.resource ∧ t'.expiresAt = sampleIssued.expiresAt ∧
      t'.constraints = sampleIssued.constraints :=
  verify_issued id [.withSigner true] sampleHistory List.mem_cons_self sampleHistory_unforgeable
    sampleHistory_distinct 1 sampleIssued ⟨_, rfl, rfl, by decide⟩

/-- Without a signer any token of the current epoch is accepted. -/
theorem verify_made_up :
    AcceptsAt [] [⟨.verify sampleParent, fun _ => (sampleCrypto, {})⟩] 0 sampleParent ∧
    ∀ j t', ¬ ReturnsAt [] [⟨.verify sampleParent, fun _ => (sampleCrypto, {})⟩] j t' := by
  refine ⟨⟨_, rfl, rfl, by decide⟩, ?_⟩
  rintro j t' ⟨x, hx, hreply⟩
  rcases j with _ | n
  · cases hx
    cases hreply
  · simp at hx

/-- Use limits, revocation, expiry and epochs bind. -/
theorem verify_binds {ring : Bool} (hsigner : Opt.withSigner ring ∈ opts)
    (hunf : Unforgeable canon opts xs) (hdist : Distinct canon opts xs) :
    (∀ (id : ID) (n : Nat), (∀ j t, ReturnsAt opts xs j t → t.id = id →
      ∃ m, t.constraints.uses = some m ∧ m ≤ n) → ∀ i, accepted opts xs id i ≤ n) ∧
    (∀ i t, AcceptsAt opts xs i t →
      (∀ k y, k < i → xs[k]? = some y → y.call = .revoke t.id →
        (reply (stateAt opts xs k) y).isNil = false) ∧
      (∀ x, xs[i]? = some x → (x.choices 0).2.now ≤ t.expiresAt) ∧
      (∃ j t', j < i ∧ ReturnsAt opts xs j t' ∧ t'.body = t.body) ∧
      ∀ j k t' y, j < k → k < i → ReturnsAt opts xs j t' → t'.body = t.body → xs[k]? = some y →
        y.call = .advanceEpoch → (reply (stateAt opts xs k) y).isNil = false) := by
  refine ⟨fun id n huses i => ?_, fun i t haccepts => ⟨?_, ?_, ?_, ?_⟩⟩
  · refine (spent_eq_accepted (fun i t haccepts hid => ?_) i).2
    obtain ⟨j, t', _, hreturns, hbody⟩ := haccepts.returned hsigner hunf hdist
    injection hbody with hid' _ _ _ _ _ hconstraints
    rw [← hconstraints]
    exact huses j t' hreturns (hid'.trans hid)
  · intro k y hk hy hcall
    exact haccepts.not_revoked hk hy hcall
  · intro x hx
    obtain ⟨y, hy, hcall, hnil⟩ := haccepts
    obtain rfl : y = x := Option.some.inj (hy.symm.trans hx)
    exact (Authority.verifyLocked_none ((isNil_verify hcall).mp hnil)).2.2.1
  · exact haccepts.returned hsigner hunf hdist
  · intro j k t' y hjk hki hreturns hbody hy hcall
    exact haccepts.not_advanced hreturns hbody hjk hki hy hcall

theorem verify_binds_sample :
    accepted [.withSigner true] sampleHistory sampleIssued.id 3 ≤ 1 ∧
    acceptsID [.withSigner true] sampleHistory sampleIssued.id 1 = true := by
  refine ⟨(verify_binds id [.withSigner true] sampleHistory List.mem_cons_self sampleHistory_unforgeable
    sampleHistory_distinct).1 sampleIssued.id 1 ?_ 3, by decide⟩
  rintro j t ⟨x, hx, hreply⟩ _
  rcases j with _ | _ | _ | n
  · cases hx
    cases hreply
    exact ⟨1, by decide, by decide⟩
  · cases hx
    cases hreply
  · cases hx
    cases hreply
  · simp [sampleHistory] at hx

end

end ShiftLock.Capability
