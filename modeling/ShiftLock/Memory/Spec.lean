import ShiftLock.Memory.Backend

/-!
# What one operation does to the claims

Every operation works on the record of one claim: the expiry rule first, then one `Edit`, and no
other record changes (`Effect`). `apply_effect` states this once for the whole interface; the
invariants of the store follow from a case analysis over `Edit`.
-/

namespace ShiftLock.Memory

open Function

/-- What an operation does to the record it works on, after the expiry rule. -/
inductive Edit : Op → ClaimRecord → ClaimRecord → Prop
  | keep (op : Op) (cl : ClaimRecord) : Edit op cl cl
  | extend (now : Time) {req : AcquireRequest} {cl : ClaimRecord} (h : cl.phase ≠ .unowned)
      (ho : cl.ownerGeneration = req.generationID) :
      Edit (.acquireClaim req) cl (extended now req.ttl cl)
  | grant (now : Time) {req : AcquireRequest} {cl : ClaimRecord} (h : cl.phase = .unowned) :
      Edit (.acquireClaim req) cl
        (granted now req.ttl (cl.fencingToken + 1) req.generationID cl)
  | renew (now : Time) {req : RenewRequest} {cl : ClaimRecord} (h : cl.phase ≠ .unowned)
      (ho : cl.ownerGeneration = req.generationID) (ht : cl.fencingToken = req.token) :
      Edit (.renewClaim req) cl (renewed now req.ttl cl)
  | reserve (now : Time) {req : TransferRequest} {cl : ClaimRecord}
      (ho : cl.ownerGeneration = req.fromGeneration) (ht : cl.fencingToken = req.token) :
      Edit (.prepareTransfer req) cl (reservedFor now req.ttl req.toGeneration cl)
  | commit (now : Time) {req : CommitRequest} {cl : ClaimRecord} (h : cl.phase = .reserved)
      (ho : cl.ownerGeneration = req.fromGeneration) (ht : cl.fencingToken = req.expectedToken) :
      Edit (.commitTransfer req) cl
        (committedTo now req.ttl (cl.fencingToken + 1) req.toGeneration cl)
  | rollBack {req : AbortRequest} {cl : ClaimRecord} (h : cl.phase = .reserved)
      (ho : cl.ownerGeneration = req.fromGeneration) : Edit (.abortTransfer req) cl (rolledBack cl)
  | giveUp {req : ReleaseRequest} {cl : ClaimRecord} (ho : cl.ownerGeneration = req.generationID)
      (ht : cl.fencingToken = req.token) : Edit (.releaseClaim req) cl (givenUp cl)

/-- What a call does to the store's claims when the expiry rule reads the time `now`. -/
inductive Effect (op : Op) (now : Time) (b b' : Backend) : Prop
  | untouched (h : b'.claims = b.claims)
  | edited {m : String} (cl' : ClaimRecord) (hm : op.claimName = some m)
      (he : Edit op (expire now (b.recordOf m)) cl')
      (h : b'.claims = Function.update b.claims m (some cl'))

section

variable {op : Op} {now : Time}

/-- Only the claims of the states matter. -/
theorem Effect.of_claims {b₁ b₂ b' : Backend} (h : Effect op now b₁ b') (hb : b₁.claims = b₂.claims) :
    Effect op now b₂ b' := by
  cases h with
  | untouched h => exact .untouched (h.trans hb)
  | @edited m cl' hm he h =>
    have hr : b₁.recordOf m = b₂.recordOf m := by unfold Backend.recordOf; rw [hb]
    exact .edited cl' hm (hr ▸ he) (hb ▸ h)

theorem Effect.recordOf_cases {b b' : Backend} (h : Effect op now b b') (m : String) :
    b'.recordOf m = b.recordOf m ∨
      (op.claimName = some m ∧ Edit op (expire now (b.recordOf m)) (b'.recordOf m)) := by
  cases h with
  | untouched h => left; unfold Backend.recordOf; rw [h]
  | @edited m' cl' hm' he h =>
    by_cases hm : m = m'
    · subst hm
      right
      refine ⟨hm', ?_⟩
      have : b'.recordOf m = cl' := by unfold Backend.recordOf; rw [h]; simp
      rwa [this]
    · left; unfold Backend.recordOf; rw [h, update_of_ne hm]

theorem expire_token (now : Time) (cl : ClaimRecord) :
    (expire now cl).fencingToken = cl.fencingToken := by
  unfold expire
  split <;> rfl

theorem Edit.token_le {cl cl' : ClaimRecord} (h : Edit op cl cl') :
    cl.fencingToken ≤ cl'.fencingToken := by
  cases h with
  | grant | commit => exact Nat.le_succ _
  | _ => exact Nat.le_refl _

/-- No call takes a token back. -/
theorem Effect.token_le {b b' : Backend} (h : Effect op now b b') (m : String) :
    (b.recordOf m).fencingToken ≤ (b'.recordOf m).fencingToken := by
  rcases h.recordOf_cases m with e | ⟨-, he⟩
  · exact Nat.le_of_eq (by rw [e])
  · have hle := he.token_le
    rwa [expire_token] at hle

end

theorem advanceToken_ok {t next : FencingToken} (h : advanceToken t = .ok next) :
    next = t + 1 ∧ t < maxSafeFencingToken := by
  unfold advanceToken at h
  split at h
  · cases h
  · rename_i hlt
    cases h
    exact ⟨rfl, Nat.lt_of_not_le hlt⟩

namespace Backend

variable {op : Op} {b : Backend} {c : Call} {n : String}

@[simp] theorem setClaim_claims (b : Backend) (n : String) (cl : ClaimRecord) :
    (b.setClaim n cl).claims = update b.claims n (some cl) := rfl

@[simp] theorem setClaim_ops (b : Backend) (n : String) (cl : ClaimRecord) :
    (b.setClaim n cl).ops = b.ops := rfl

@[simp] theorem storeOp_claims (b : Backend) (id : OperationID) (r : Reply) :
    (b.storeOp id r).claims = b.claims := by
  unfold storeOp; split <;> rfl

@[simp] theorem notifyLocked_claims (b : Backend) (c : Call) (cl : ClaimRecord)
    (reason : TransitionReason) : (b.notifyLocked c cl reason).claims = b.claims := rfl

@[simp] theorem notifyLocked_ops (b : Backend) (c : Call) (cl : ClaimRecord)
    (reason : TransitionReason) : (b.notifyLocked c cl reason).ops = b.ops := rfl

@[simp] theorem expireLocked_ops (b : Backend) (now : Time) (n : String) :
    (b.expireLocked now n).ops = b.ops := by
  unfold expireLocked; split <;> rfl

variable {now : Time} {cl : ClaimRecord}

theorem expireLocked_of_none (h : b.claims n = none) : b.expireLocked now n = b := by
  simp [expireLocked, h]

theorem expireLocked_of_some (h : b.claims n = some cl) :
    b.expireLocked now n = b.setClaim n (expire now cl) := by
  simp [expireLocked, h]

theorem recordOf_of_some (h : b.claims n = some cl) : b.recordOf n = cl := by
  simp [recordOf, h]

theorem recordOf_of_none (h : b.claims n = none) : b.recordOf n = freshRecord n := by
  simp [recordOf, h]

@[simp] theorem expire_freshRecord (now : Time) (n : String) :
    expire now (freshRecord n) = freshRecord n := rfl

/-- The record that `AcquireClaim` works on. -/
theorem expireLocked_getD (now : Time) (n : String) :
    ((b.expireLocked now n).claims n).getD (freshRecord n) = expire now (b.recordOf n) := by
  cases h : b.claims n with
  | none => rw [expireLocked_of_none h, recordOf_of_none h, h, expire_freshRecord]; rfl
  | some cl => simp [expireLocked_of_some h, recordOf_of_some h]

/-- Writing the record of the claim that was just expired. -/
theorem expireLocked_update (now : Time) (n : String) (cl : ClaimRecord) :
    update (b.expireLocked now n).claims n (some cl) =
      update b.claims n (some cl) := by
  cases h : b.claims n with
  | none => rw [expireLocked_of_none h]
  | some cl' => simp [expireLocked_of_some h]

/-- An operation that found no record, or only expired the one it found. -/
theorem effect_expireLocked (hn : op.claimName = some n) (now : Time) :
    Effect op now b (b.expireLocked now n) := by
  cases h : b.claims n with
  | none => rw [expireLocked_of_none h]; exact .untouched rfl
  | some cl =>
    refine .edited (expire now cl) hn ?_ (by rw [expireLocked_of_some h]; rfl)
    rw [recordOf_of_some h]
    exact .keep _ _

theorem expireLocked_found (h : (b.expireLocked now n).claims n = some cl) :
    cl = expire now (b.recordOf n) := by
  rw [← expireLocked_getD, h]; rfl

/-- An operation that wrote `cl'` in place of the record found after the expiry rule. -/
theorem effect_of_edit {b' : Backend} {cl' : ClaimRecord} (hn : op.claimName = some n)
    (h : (b.expireLocked now n).claims n = some cl) (he : Edit op cl cl')
    (hb : b'.claims = update (b.expireLocked now n).claims n (some cl')) :
    Effect op now b b' := by
  rw [expireLocked_found h] at he
  exact .edited cl' hn he (by rw [hb, expireLocked_update])

theorem acquireLocked_effect (req : AcquireRequest) :
    Effect (.acquireClaim req) c.expireNow b (b.acquireLocked c req).1 := by
  unfold acquireLocked
  split
  · exact .untouched rfl
  · simp only [expireLocked_getD]
    split
    · rename_i hh
      rw [ClaimPhase.held_eq_true] at hh
      split
      · rename_i ho
        exact .edited _ rfl (.extend c.now hh ho) (by simp [expireLocked_update])
      · exact .edited _ rfl (.keep _ _) (by simp [expireLocked_update])
    · rename_i hh
      rw [Bool.not_eq_true, ClaimPhase.held_eq_false] at hh
      cases ha : advanceToken (expire c.expireNow (b.recordOf req.claimName)).fencingToken with
      | error err => exact .edited _ rfl (.keep _ _) (by simp [expireLocked_update])
      | ok next =>
        obtain ⟨rfl, -⟩ := advanceToken_ok ha
        exact .edited _ rfl (.grant c.now hh) (by simp [expireLocked_update])

theorem renewLocked_effect (req : RenewRequest) :
    Effect (.renewClaim req) c.expireNow b (b.renewLocked c req).1 := by
  unfold renewLocked
  split
  · exact .untouched rfl
  simp only
  split
  · exact effect_expireLocked rfl _
  rename_i cl hcl
  split
  · exact effect_expireLocked rfl _
  rename_i ho
  split
  · exact effect_expireLocked rfl _
  rename_i ht
  split
  · exact effect_expireLocked rfl _
  rename_i hh
  rw [not_not] at ho ht
  rw [not_not, ClaimPhase.held_eq_true] at hh
  exact effect_of_edit rfl hcl (.renew c.now hh ho ht) (by simp)

theorem reserveLocked_effect (req : TransferRequest) :
    Effect (.prepareTransfer req) c.expireNow b (b.reserveLocked c req).1 := by
  unfold reserveLocked
  split
  · exact .untouched rfl
  simp only
  split
  · exact effect_expireLocked rfl _
  rename_i cl hcl
  split
  · exact effect_expireLocked rfl _
  rename_i ho
  split
  · exact effect_expireLocked rfl _
  rename_i ht
  split
  · exact effect_expireLocked rfl _
  split
  · exact effect_of_edit rfl hcl (.keep _ _) (by simp [← hcl])
  · rw [not_not] at ho ht
    exact effect_of_edit rfl hcl (.reserve c.now ho ht) (by simp)

theorem prepareLocked_effect (req : TransferRequest) :
    Effect (.prepareTransfer req) c.expireNow b (b.prepareLocked c req).1 := by
  unfold prepareLocked
  simp only
  split
  · exact .untouched rfl
  · exact (reserveLocked_effect req).of_claims rfl

theorem commitLocked_effect (req : CommitRequest) :
    Effect (.commitTransfer req) c.expireNow b (b.commitLocked c req).1 := by
  unfold commitLocked
  split
  · exact .untouched rfl
  split
  · exact .untouched rfl
  simp only
  split
  · exact effect_expireLocked rfl _
  rename_i cl hcl
  split
  · exact effect_of_edit rfl hcl (.keep _ _) (by simp [← hcl])
  split
  · exact effect_expireLocked rfl _
  rename_i hp
  rw [not_not] at hp
  split
  · exact effect_expireLocked rfl _
  rename_i ho
  rw [not_or, not_not, not_not] at ho
  split
  · exact effect_expireLocked rfl _
  rename_i ht
  rw [not_not] at ht
  cases ha : advanceToken cl.fencingToken with
  | error err => exact effect_of_edit rfl hcl (.keep _ _) (by simp [← hcl])
  | ok next =>
    obtain ⟨rfl, -⟩ := advanceToken_ok ha
    exact effect_of_edit rfl hcl (.commit c.now hp ho.1 ht) (by simp)

theorem abortLocked_effect (req : AbortRequest) :
    Effect (.abortTransfer req) c.expireNow b (b.abortLocked c req).1 := by
  unfold abortLocked
  split
  · exact .untouched rfl
  simp only
  split
  · exact effect_expireLocked rfl _
  rename_i cl hcl
  split
  · split
    · exact effect_of_edit rfl hcl (.keep _ _) (by simp [← hcl])
    · exact effect_expireLocked rfl _
  rename_i hp
  rw [not_not] at hp
  split
  · exact effect_expireLocked rfl _
  split
  · exact effect_expireLocked rfl _
  rename_i ho
  rw [not_not] at ho
  exact effect_of_edit rfl hcl (.rollBack hp ho) (by simp)

theorem releaseLocked_effect (req : ReleaseRequest) :
    Effect (.releaseClaim req) c.expireNow b (b.releaseLocked c req).1 := by
  unfold releaseLocked
  split
  · exact .untouched rfl
  simp only
  split
  · exact effect_expireLocked rfl _
  rename_i cl hcl
  split
  · exact effect_expireLocked rfl _
  rename_i ht
  split
  · split
    · exact effect_of_edit rfl hcl (.keep _ _) (by simp [← hcl])
    · exact effect_expireLocked rfl _
  rename_i ho
  rw [not_not] at ho ht
  exact effect_of_edit rfl hcl (.giveUp ho ht) (by simp)

theorem getClaim_effect (n : String) : Effect (.getClaim n) c.expireNow b (b.getClaim c n).1 := by
  unfold getClaim
  simp only
  split <;> exact effect_expireLocked rfl _

/-- What `beforeMutate` leaves alone: everything but the pending failure. -/
theorem beforeMutate_fst (b : Backend) (c : Call) :
    (b.beforeMutate c).1 = b ∨ (b.beforeMutate c).1 = { b with failNext := none } := by
  unfold beforeMutate
  split
  · exact .inl rfl
  split
  · exact .inl rfl
  split
  · exact .inr rfl
  split <;> exact .inr rfl

theorem beforeMutate_claims (b : Backend) (c : Call) :
    (b.beforeMutate c).1.claims = b.claims := by
  rcases beforeMutate_fst b c with h | h <;> rw [h]

/-- **The claims under one critical section.** -/
theorem locked_effect (b : Backend) (c : Call) (op : Op) :
    Effect op c.expireNow b (b.locked c op).1 := by
  cases op with
  | acquireClaim req => exact acquireLocked_effect req
  | renewClaim req => exact renewLocked_effect req
  | prepareTransfer req => exact prepareLocked_effect req
  | commitTransfer req => exact commitLocked_effect req
  | abortTransfer req => exact abortLocked_effect req
  | releaseClaim req => exact releaseLocked_effect req
  | getClaim name => exact getClaim_effect name
  | watchClaim name =>
    refine .untouched ?_
    simp only [locked, watchClaim]
    split <;> rfl
  | close =>
    refine .untouched ?_
    simp only [locked, close]
    split <;> rfl
  | _ => exact .untouched rfl

/-- A call is refused by `beforeMutate`, or runs its critical section in a state that differs from
the first at most in the pending failure. -/
theorem apply_cases (b : Backend) (c : Call) (op : Op) :
    (∃ err, (b.beforeMutate c).2 = some err ∧
      b.apply c op = ((b.beforeMutate c).1, .fail err)) ∨
    b.apply c op = b.locked c op ∨
    b.apply c op = { b with failNext := none }.locked c op := by
  unfold apply
  split
  · split
    · rename_i b' err he
      exact .inl ⟨err, by rw [he], by rw [he]⟩
    · rename_i b' he
      have := beforeMutate_fst b c
      rw [he] at this
      rcases this with rfl | rfl
      · exact .inr (.inl rfl)
      · exact .inr (.inr rfl)
  · exact .inr (.inl rfl)

/-- **The claims under one call.** -/
theorem apply_effect (b : Backend) (c : Call) (op : Op) :
    Effect op c.expireNow b (b.apply c op).1 := by
  rcases apply_cases b c op with ⟨err, -, he⟩ | he | he <;> rw [he]
  · exact .untouched (beforeMutate_claims b c)
  · exact locked_effect b c op
  · exact (locked_effect { b with failNext := none } c op).of_claims rfl

end Backend

end ShiftLock.Memory
