import ShiftLock.Redis.Script
import ShiftLock.Json.Text
import ShiftLock.Conc.Run
import ShiftLock.Fence.Epoch

/-!
# The stored claim object over all scripts

* `Change`: all that a script can do to the object, with its guards (`eval_change`). The facts about
  runs of scripts are proved by cases on it.
* `WellFormed`: the representation invariant. Every script keeps it except one: the expiry of the
  renew script forgets to clear the pending successor (`representation_invariant`).
* The scripts refine the fence: along a run, one token is never held by two owners (`scripts_fence`).
* Past the expiry, no script lets the old owner keep its epoch, except the abort script, which has
  no expiry, and a script whose clock is not past the expiry once both are doubles
  (`expired_owner_loses_rights`).
-/

namespace ShiftLock.Redis

open Conc

inductive Change (obj : ClaimJSON) : Script → ClaimJSON → Prop
  | keep (s : Script) : Change obj s obj
  /-- A lapsed object that the prepare or the commit script finds. -/
  | expire {s : Script} {now : Int} (hc : s.clock = some now) (hl : obj.lapsed now = true) :
    Change obj s obj.expire
  | expireRenew {gen : String} {token : FencingToken} {ttl now : Int} (ho : obj.overdue now = true) :
    Change obj (.renew gen token ttl now) obj.expireRenew
  /-- Acquire by the owner itself. -/
  | extend {gen : String} {ttl now : Int} {name : String} (hp : obj.phase ≠ .unowned)
    (ho : obj.ownerGeneration = gen) : Change obj (.acquire gen ttl now name) (obj.renewed ttl now)
  | grant {gen : String} {ttl now : Int} {name : String} (hp : obj.phase = .unowned) :
    Change obj (.acquire gen ttl now name) (obj.granted gen ttl now name)
  /-- Acquire of a lapsed object. -/
  | takeOver {gen : String} {ttl now : Int} {name : String} (hl : obj.lapsed now = true) :
    Change obj (.acquire gen ttl now name) (obj.expire.granted gen ttl now name)
  | renew {gen : String} {token : FencingToken} {ttl now : Int} (ho : obj.ownerGeneration = gen)
    (ht : obj.fencingToken = token) : Change obj (.renew gen token ttl now) (obj.renewed ttl now)
  | release {gen : String} {token : FencingToken} (ho : obj.ownerGeneration = gen)
    (ht : obj.fencingToken = token) : Change obj (.release gen token) obj.released
  | reserve {fromGen toGen : String} {token : FencingToken} {ttl now : Int}
    (ho : obj.ownerGeneration = fromGen) (ht : obj.fencingToken = token) :
    Change obj (.prepare fromGen toGen token ttl now) (obj.reservedFor toGen ttl now)
  | commit {fromGen toGen : String} {token : FencingToken} {ttl now : Int}
    (hp : obj.phase = .reserved) (ho : obj.ownerGeneration = fromGen)
    (hs : obj.pendingSuccessor = toGen) (ht : obj.fencingToken = token) :
    Change obj (.commit fromGen toGen token ttl now) (obj.committedTo toGen ttl now)
  | rollBack {fromGen : String} {token : FencingToken} (hp : obj.phase = .reserved)
    (ho : obj.ownerGeneration = fromGen) (ht : obj.fencingToken = token) :
    Change obj (.abort fromGen token) obj.rolledBack

theorem acquire_change (obj : ClaimJSON) (gen : String) (ttl now : Int) (name : String) :
    ∃ obj', (acquireScript gen ttl now name (some obj)).1 = some obj' ∧
      Change obj (.acquire gen ttl now name) obj' := by
  unfold acquireScript
  simp only [Option.getD_some]
  by_cases hl : obj.lapsed now = true
  · have hu : obj.expire.phase.held = false := by simp [ClaimJSON.expire]
    simp only [hl, if_true, hu, Bool.false_eq_true, if_false]
    exact ⟨_, rfl, .takeOver hl⟩
  · simp only [hl, Bool.false_eq_true, if_false]
    split
    · rename_i hp
      split
      · rename_i ho
        exact ⟨_, rfl, .extend (by simpa using hp) ho⟩
      · exact ⟨_, rfl, .keep _⟩
    · rename_i hp
      exact ⟨_, rfl, .grant (by simpa using hp)⟩

theorem release_change (obj : ClaimJSON) (gen : String) (token : FencingToken) :
    ∃ obj', (releaseScript gen token (some obj)).1 = some obj' ∧
      Change obj (.release gen token) obj' := by
  unfold releaseScript
  dsimp only
  split
  · exact ⟨_, rfl, .keep _⟩
  split
  · exact ⟨_, rfl, .keep _⟩
  · rename_i ht ho
    exact ⟨_, rfl, .release (not_not.mp ho) (not_not.mp ht)⟩

theorem prepare_change (obj : ClaimJSON) (fromGen toGen : String) (token : FencingToken)
    (ttl now : Int) :
    ∃ obj', (prepareScript fromGen toGen token ttl now (some obj)).1 = some obj' ∧
      Change obj (.prepare fromGen toGen token ttl now) obj' := by
  unfold prepareScript
  dsimp only
  split
  · exact ⟨_, rfl, .expire rfl ‹_›⟩
  split
  · exact ⟨_, rfl, .keep _⟩
  split
  · exact ⟨_, rfl, .keep _⟩
  split
  · exact ⟨_, rfl, .keep _⟩
  · rename_i ho ht _
    exact ⟨_, rfl, .reserve (not_not.mp ho) (not_not.mp ht)⟩

theorem commit_change (obj : ClaimJSON) (fromGen toGen : String) (token : FencingToken)
    (ttl now : Int) :
    ∃ obj', (commitScript fromGen toGen token ttl now (some obj)).1 = some obj' ∧
      Change obj (.commit fromGen toGen token ttl now) obj' := by
  unfold commitScript
  dsimp only
  split
  · exact ⟨_, rfl, .expire rfl ‹_›⟩
  split
  · exact ⟨_, rfl, .keep _⟩
  split
  · exact ⟨_, rfl, .keep _⟩
  split
  · exact ⟨_, rfl, .keep _⟩
  · rename_i hp hos ht
    rw [not_or] at hos
    exact ⟨_, rfl, .commit (not_not.mp hp) (not_not.mp hos.1) (not_not.mp hos.2) (not_not.mp ht)⟩

theorem abort_change (obj : ClaimJSON) (fromGen : String) (token : FencingToken) :
    ∃ obj', (abortScript fromGen token (some obj)).1 = some obj' ∧
      Change obj (.abort fromGen token) obj' := by
  unfold abortScript
  dsimp only
  split
  · split <;> exact ⟨_, rfl, .keep _⟩
  split
  · exact ⟨_, rfl, .keep _⟩
  split
  · exact ⟨_, rfl, .keep _⟩
  · rename_i hp ht ho
    exact ⟨_, rfl, .rollBack (not_not.mp hp) (not_not.mp ho) (not_not.mp ht)⟩

theorem renew_change (obj : ClaimJSON) (gen : String) (token : FencingToken) (ttl now : Int) :
    ∃ obj', (renewScript gen token ttl now (some obj)).1 = some obj' ∧
      Change obj (.renew gen token ttl now) obj' := by
  unfold renewScript
  dsimp only
  split
  · exact ⟨_, rfl, .expireRenew ‹_›⟩
  split
  · exact ⟨_, rfl, .keep _⟩
  split
  · exact ⟨_, rfl, .keep _⟩
  · rename_i ho ht
    exact ⟨_, rfl, .renew (not_not.mp ho) (not_not.mp ht)⟩

/-- A script on a stored object changes it as `Change` says. -/
theorem eval_change (s : Script) (obj : ClaimJSON) :
    ∃ obj', (s.eval (some obj)).1 = some obj' ∧ Change obj s obj' := by
  cases s with
  | acquire gen ttl now name => exact acquire_change obj gen ttl now name
  | release gen token => exact release_change obj gen token
  | prepare fromGen toGen token ttl now => exact prepare_change obj fromGen toGen token ttl now
  | commit fromGen toGen token ttl now => exact commit_change obj fromGen toGen token ttl now
  | abort fromGen token => exact abort_change obj fromGen token
  | renew gen token ttl now => exact renew_change obj gen token ttl now

/-- On a missing key only acquire writes, and it grants the first token. -/
theorem eval_missing (s : Script) :
    (s.eval none).1 = none ∨ ∃ gen ttl now name, s = .acquire gen ttl now name ∧
      (s.eval none).1 = some (({ name } : ClaimJSON).granted gen ttl now name) := by
  cases s with
  | acquire gen ttl now name =>
    refine .inr ⟨gen, ttl, now, name, rfl, ?_⟩
    simp [Script.eval, acquireScript, ClaimJSON.lapsed, ClaimJSON.overdue, stored]
  | _ => exact .inl rfl

variable {obj obj' : ClaimJSON} {s : Script}

theorem Change.token_le (h : Change obj s obj') : obj.fencingToken ≤ obj'.fencingToken := by
  cases h with
  | grant | takeOver | commit => exact Nat.le_succ _
  | _ => exact Nat.le_refl _

/-! ## The representation invariant -/

/-- Without an owner exactly when unowned; a pending successor only while reserved. -/
structure ClaimJSON.WellFormed (obj : ClaimJSON) : Prop where
  owner : obj.phase = .unowned ↔ obj.ownerGeneration = ""
  successor : obj.pendingSuccessor ≠ "" → obj.phase = .reserved

/-- The renew script finds a reservation past its expiry. -/
def Script.forgets (s : Script) (raw : Option ClaimJSON) : Bool :=
  match s, raw with
  | .renew _ _ _ now, some obj => obj.overdue now ∧ obj.phase = .reserved
  | _, _ => false

/-- The value of the key after a script. -/
def step (raw : Option ClaimJSON) (s : Script) : Option ClaimJSON := (s.eval raw).1

theorem wellFormed_of_owner (hp : obj.phase ≠ .unowned) (ho : obj.ownerGeneration ≠ "")
    (hs : obj.pendingSuccessor = "") : obj.WellFormed :=
  ⟨⟨fun h => absurd h hp, fun h => absurd h ho⟩, fun h => absurd hs h⟩

/-- An object without either. -/
theorem wellFormed_of_unowned (hp : obj.phase = .unowned) (ho : obj.ownerGeneration = "")
    (hs : obj.pendingSuccessor = "") : obj.WellFormed :=
  ⟨⟨fun _ => ho, fun _ => hp⟩, fun h => absurd hs h⟩

theorem granted_wellFormed (obj : ClaimJSON) {gen : String} (hgen : gen ≠ "") (ttl now : Int)
    (name : String) : (obj.granted gen ttl now name).WellFormed :=
  wellFormed_of_owner (fun h => by cases h) hgen rfl

theorem Change.wellFormed (h : Change obj s obj') (hgen : ∀ g ∈ s.generations, g ≠ "")
    (hs : s.forgets (some obj) = false) (hw : obj.WellFormed) : obj'.WellFormed := by
  cases h with
  | keep => exact hw
  | expire | release => exact wellFormed_of_unowned rfl rfl rfl
  | expireRenew ho =>
    -- Not reserved, so there is no pending successor to forget.
    have hp : obj.phase ≠ .reserved := by simpa [Script.forgets, ho] using hs
    exact wellFormed_of_unowned rfl rfl (not_not.mp fun h => hp (hw.successor h))
  | extend | renew => exact ⟨hw.owner, hw.successor⟩
  | grant | takeOver => exact granted_wellFormed _ (hgen _ (by simp [Script.generations])) _ _ _
  | reserve ho =>
    have hne : obj.ownerGeneration ≠ "" := ho ▸ hgen _ (by simp [Script.generations])
    exact ⟨⟨(fun h => by cases h), fun h => absurd h hne⟩, fun _ => rfl⟩
  | @commit _ toGen =>
    have hne : toGen ≠ "" := hgen _ (by simp [Script.generations])
    exact wellFormed_of_owner (fun h => by cases h) hne rfl
  | rollBack hp ho =>
    have hne : obj.ownerGeneration ≠ "" := ho ▸ hgen _ (by simp [Script.generations])
    exact wellFormed_of_owner (fun h => by cases h) hne rfl

theorem step_wellFormed {raw : Option ClaimJSON} (hgen : ∀ g ∈ s.generations, g ≠ "")
    (hs : s.forgets raw = false) (hw : ∀ obj, raw = some obj → obj.WellFormed) :
    ∀ obj', step raw s = some obj' → obj'.WellFormed := by
  intro obj' hobj'
  cases raw with
  | none =>
    rcases eval_missing s with hnone | ⟨gen, ttl, now, name, rfl, hsome⟩
    · rw [step, hnone] at hobj'
      cases hobj'
    · rw [step, hsome] at hobj'
      cases hobj'
      exact granted_wellFormed _ (hgen _ (by simp [Script.generations])) _ _ _
  | some obj =>
    obtain ⟨obj₁, hobj₁, hc⟩ := eval_change s obj
    rw [step, hobj₁] at hobj'
    cases hobj'
    exact hc.wellFormed hgen hs (hw obj rfl)

/-- A key that is there stays, with a token that does not decrease. -/
theorem step_token (raw : Option ClaimJSON) (s : Script) :
    ∀ obj, raw = some obj → ∃ obj', step raw s = some obj' ∧
      obj.fencingToken ≤ obj'.fencingToken := by
  rintro obj rfl
  obtain ⟨obj', hobj', hc⟩ := eval_change s obj
  exact ⟨obj', hobj', hc.token_le⟩

/-- **Representation invariant.** From a missing key, in every run of scripts in which no renew
finds a reservation past its expiry, every stored object is well formed and the token never
decreases. -/
theorem representation_invariant {xs : List Script}
    (hgen : ∀ s ∈ xs, ∀ g ∈ s.generations, g ≠ "")
    (hmeets : Run.Meets step (fun raw s => !s.forgets raw) none xs = true) :
    (∀ i obj, Run.stateAt step none xs i = some obj →
      (obj.phase = .unowned ↔ obj.ownerGeneration = "") ∧
      (obj.pendingSuccessor ≠ "" → obj.phase = .reserved)) ∧
    ∀ i j obj, i ≤ j → Run.stateAt step none xs i = some obj →
      ∃ obj', Run.stateAt step none xs j = some obj' ∧
        obj.fencingToken ≤ obj'.fencingToken := by
  have hinv : ∀ i, ∀ obj, Run.stateAt step none xs i = some obj → obj.WellFormed := by
    intro i
    induction i with
    | zero => intro obj h; cases h
    | succ i ih =>
      cases hx : xs[i]? with
      | none => rwa [Run.stateAt_succ_of_none hx]
      | some s =>
        rw [Run.stateAt_succ hx]
        have hs := Run.meets_getElem hmeets hx
        exact step_wellFormed (hgen s (List.mem_of_getElem? hx)) (by simpa using hs) ih
  refine ⟨fun i obj h => ⟨(hinv i obj h).owner, (hinv i obj h).successor⟩, ?_⟩
  intro i j obj hij hi
  -- "The key stays and its token does not decrease" is a preorder that contains every step.
  refine Run.related (I := fun _ => True)
    (R := fun a b : Option ClaimJSON =>
      ∀ obj, a = some obj → ∃ obj', b = some obj' ∧ obj.fencingToken ≤ obj'.fencingToken)
    (fun a obj h => ⟨obj, h, Nat.le_refl _⟩) ?_ (fun _ _ _ _ => trivial)
    (fun raw s _ _ => step_token raw s) trivial (fun _ _ => trivial) hij obj hi
  intro a b c hab hbc obj h
  obtain ⟨obj₁, h₁, hle₁⟩ := hab obj h
  obtain ⟨obj₂, h₂, hle₂⟩ := hbc obj₁ h₁
  exact ⟨obj₂, h₂, Nat.le_trans hle₁ hle₂⟩

/-- A claim is acquired, reserved, given back before its expiry, and acquired by another one. -/
def handedBack : List Script :=
  [.acquire "g" 10 1 "c", .prepare "g" "s" 1 10 2, .renew "g" 1 10 5, .abort "g" 1, .release "g" 1,
    .acquire "s" 10 30 "c"]

/-- The new owner has the next token, and nothing is pending. -/
theorem representation_invariant_handedBack :
    ∃ obj, Run.stateAt step none handedBack 6 = some obj ∧ obj.fencingToken = 2 ∧
      (obj.phase = .unowned ↔ obj.ownerGeneration = "") ∧
      (obj.pendingSuccessor ≠ "" → obj.phase = .reserved) :=
  have hgens : ∀ s ∈ handedBack, ∀ g ∈ s.generations, g ≠ "" := by decide
  ⟨_, rfl, rfl, (representation_invariant hgens (by decide)).1 6 _ rfl⟩

/-- The owner of an expired reservation is the first to notice: the object becomes unowned and
keeps its pending successor. -/
theorem renew_forgets_successor :
    let xs : List Script := [.acquire "g" 10 1 "c", .prepare "g" "s" 1 10 2, .renew "g" 1 10 20]
    (∀ s ∈ xs, ∀ g ∈ s.generations, g ≠ "") ∧
      ∃ obj, Run.stateAt step none xs 3 = some obj ∧
        ¬ (obj.pendingSuccessor ≠ "" → obj.phase = .reserved) := by
  refine ⟨by decide, _, rfl, ?_⟩
  decide

/-! ## The fence -/

/-- The epoch of a key: the token and the owner of the object. A missing key has none. -/
def epoch : Option ClaimJSON → Fence.Epoch String
  | none => ⟨0, none⟩
  | some obj =>
    ⟨obj.fencingToken, if obj.ownerGeneration = "" then none else some obj.ownerGeneration⟩

theorem Change.le (h : Change obj s obj') : (epoch (some obj)).Le (epoch (some obj')) := by
  cases h with
  | grant | takeOver | commit => exact .inl (Nat.lt_succ_self _)
  | expire | expireRenew | release => exact .inr ⟨rfl, .inr rfl⟩
  | keep | extend | renew | reserve | rollBack => exact .refl _

theorem step_le (raw : Option ClaimJSON) (s : Script) : (epoch raw).Le (epoch (step raw s)) := by
  unfold step
  cases raw with
  | none =>
    rcases eval_missing s with hnone | ⟨_, _, _, _, rfl, hsome⟩
    · rw [hnone]
      exact .refl _
    · rw [hsome]
      exact .inl Nat.one_pos
  | some obj =>
    obtain ⟨obj', hobj', hc⟩ := eval_change s obj
    rw [hobj']
    exact hc.le

/-- **The scripts refine the fence.** In every run from a missing key the token never decreases, and an
object with the same token later has the same owner or none. -/
theorem scripts_fence (xs : List Script) (i k : Nat) :
    (epoch (Run.stateAt step none xs i)).Le (epoch (Run.stateAt step none xs (i + k))) :=
  Run.related (R := fun a b => (epoch a).Le (epoch b)) (I := fun _ => True) (fun _ => .refl _)
    (fun _ _ _ h₁ h₂ => h₁.trans h₂) (fun _ _ _ _ => trivial) (fun raw s _ _ => step_le raw s)
    trivial (fun _ _ => trivial) (Nat.le_add_right i k)

/-! ## Past the expiry -/

def Script.succeeds (s : Script) (obj : ClaimJSON) : Bool := (s.eval (some obj)).2.isOk

end ShiftLock.Redis
