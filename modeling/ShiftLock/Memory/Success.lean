import ShiftLock.Memory.Replay

/-!
# What the replies of the backend say

A reply with a record to an operation that was not recalled from the table says that the store
holds this record now, and that the record is in the state that the operation asks for
(`Op.Confirms`). An `AcquireClaim` or a `PrepareTransfer` without such a reply leaves every record
as it was, or lets the expiry rule clear the one it worked on (`acquireLocked_error`,
`prepareLocked_error`). The owner of a claim can reserve and release it (`prepareLocked_owned`,
`releaseLocked_owned`).
-/

namespace ShiftLock.Memory

open Function

/-- The record of a reply, or its error. A reply with neither is a nil pointer in the source. -/
def Reply.result (r : Reply) : Except Err ClaimRecord :=
  match r.err, r.record with
  | some err, _ => .error err
  | none, some record => .ok record
  | none, none => .error (.plain (.foreign "nil pointer dereference"))

@[simp] theorem Reply.result_ok (cl : ClaimRecord) : (ok cl).result = .ok cl := rfl

@[simp] theorem Reply.result_fail (err : Err) : (fail err).result = .error err := rfl

namespace Op

/-- The generation in whose name a claim operation is made. -/
def client : Op → Option String
  | .acquireClaim req => some req.generationID
  | .renewClaim req => some req.generationID
  | .prepareTransfer req => some req.fromGeneration
  | .commitTransfer req => some req.fromGeneration
  | .abortTransfer req => some req.fromGeneration
  | .releaseClaim req => some req.generationID
  | _ => none

/-- The state of a record that a successful operation returns. -/
def Confirms : Op → ClaimRecord → Prop
  | .acquireClaim req, r => r.ownerGeneration = req.generationID ∧ r.phase ≠ .unowned
  | .renewClaim req, r =>
    r.ownerGeneration = req.generationID ∧ r.fencingToken = req.token ∧ r.phase ≠ .unowned
  | .prepareTransfer req, r =>
    r.ownerGeneration = req.fromGeneration ∧ r.fencingToken = req.token ∧ r.phase = .reserved ∧
      r.pendingSuccessor = req.toGeneration
  | .commitTransfer req, r =>
    r.ownerGeneration = req.toGeneration ∧ r.fencingToken = wrapSucc req.expectedToken ∧
      r.phase = .owned ∧ r.transferStatus = .committed
  | .abortTransfer req, r => r.ownerGeneration = req.fromGeneration ∧ r.phase = .owned
  | _, _ => False

end Op

theorem wrapSucc_of_lt {t : FencingToken} (h : t < maxSafeFencingToken) : wrapSucc t = t + 1 := by
  have h' : t + 1 < 2 ^ 64 := Nat.lt_of_lt_of_le (Nat.succ_lt_succ h) (by decide)
  exact Nat.mod_eq_of_lt h'

namespace Backend

variable {b : Backend} {c : Call}

/-- The store holds the record of the reply, which is what the operation asks for. -/
def Confirmed (op : Op) (n : String) (b' : Backend) (r : Reply) : Prop :=
  ∀ record, r.result = .ok record → b'.claims n = some record ∧ op.Confirms record

variable {op : Op} {n : String} {cl : ClaimRecord} {req : TransferRequest} {id : OperationID}

theorem confirmed_fail {b' : Backend} {err : Err} :
    Confirmed op n b' (.fail err) := fun _ h => by cases h

theorem confirmed_ok {b' : Backend} (h : b'.claims n = some cl) (hop : op.Confirms cl) :
    Confirmed op n b' (.ok cl) := fun _ e => by
  cases e
  exact ⟨h, hop⟩

theorem acquireLocked_confirmed {req : AcquireRequest} (h : b.recallOp req.operationID = none) :
    Confirmed (.acquireClaim req) req.claimName (b.acquireLocked c req).1
      (b.acquireLocked c req).2 := by
  unfold acquireLocked
  rw [h]
  simp only [expireLocked_getD]
  split
  · rename_i hh
    rw [ClaimPhase.held_eq_true] at hh
    split
    · rename_i ho
      exact confirmed_ok (by simp) ⟨ho, hh⟩
    · exact fun _ e => by cases e
  · cases advanceToken _ with
    | error err => exact confirmed_fail
    | ok next => exact confirmed_ok (by simp) ⟨rfl, by simp [granted]⟩

theorem renewLocked_confirmed {req : RenewRequest} (h : b.recallOp req.operationID = none) :
    Confirmed (.renewClaim req) req.claimName (b.renewLocked c req).1 (b.renewLocked c req).2 := by
  unfold renewLocked
  rw [h]
  simp only
  split
  · exact confirmed_fail
  split
  · exact confirmed_fail
  rename_i ho
  split
  · exact confirmed_fail
  rename_i ht
  split
  · exact confirmed_fail
  rename_i hh
  rw [not_not] at ho ht
  rw [not_not, ClaimPhase.held_eq_true] at hh
  exact confirmed_ok (by simp) ⟨ho, ht, hh⟩

theorem reserveLocked_confirmed (h : b.recallOp req.operationID = none) :
    Confirmed (.prepareTransfer req) req.claimName (b.reserveLocked c req).1
      (b.reserveLocked c req).2 := by
  unfold reserveLocked
  rw [h]
  simp only
  split
  · exact confirmed_fail
  rename_i cl hcl
  split
  · exact confirmed_fail
  rename_i ho
  split
  · exact confirmed_fail
  rename_i ht
  rw [not_not] at ho ht
  split
  · exact confirmed_fail
  split
  · rename_i hs
    exact confirmed_ok (by simp [hcl]) ⟨ho, ht, hs⟩
  · exact confirmed_ok (by simp) ⟨ho, ht, rfl, rfl⟩

theorem prepareLocked_confirmed (h : b.recallOp req.operationID = none) :
    Confirmed (.prepareTransfer req) req.claimName (b.prepareLocked c req).1
      (b.prepareLocked c req).2 := by
  unfold prepareLocked
  simp only
  split
  · exact confirmed_fail
  · exact reserveLocked_confirmed h

theorem commitLocked_confirmed {req : CommitRequest} (h : b.recallOp req.operationID = none) :
    Confirmed (.commitTransfer req) req.claimName (b.commitLocked c req).1
      (b.commitLocked c req).2 := by
  unfold commitLocked
  rw [h]
  simp only
  split
  · exact confirmed_fail
  split
  · exact confirmed_fail
  rename_i cl hcl
  split
  · rename_i hd
    exact confirmed_ok (by simp [hcl]) ⟨hd.2.1, hd.2.2.1, hd.1, hd.2.2.2⟩
  split
  · exact confirmed_fail
  split
  · exact confirmed_fail
  split
  · exact confirmed_fail
  rename_i ht
  rw [not_not] at ht
  cases ha : advanceToken cl.fencingToken with
  | error err => exact confirmed_fail
  | ok next =>
    obtain ⟨rfl, hlt⟩ := advanceToken_ok ha
    exact confirmed_ok (by simp) ⟨rfl, by rw [← ht, wrapSucc_of_lt hlt]; rfl, rfl, rfl⟩

theorem abortLocked_confirmed {req : AbortRequest} (h : b.recallOp req.operationID = none) :
    Confirmed (.abortTransfer req) req.claimName (b.abortLocked c req).1
      (b.abortLocked c req).2 := by
  unfold abortLocked
  rw [h]
  simp only
  split
  · exact confirmed_fail
  rename_i cl hcl
  split
  · split
    · rename_i ho
      exact confirmed_ok (by simp [hcl]) ho
    · exact confirmed_fail
  split
  · exact confirmed_fail
  split
  · exact confirmed_fail
  rename_i ho
  rw [not_not] at ho
  exact confirmed_ok (by simp) ⟨ho, rfl⟩

/-- **Replies with a record.** -/
theorem locked_confirmed (hn : op.claimName = some n) (hid : op.operationID = some id)
    (h : b.recallOp id = none) : Confirmed op n (b.locked c op).1 (b.locked c op).2 := by
  cases op with
  | acquireClaim req => cases hn; cases hid; exact acquireLocked_confirmed h
  | renewClaim req => cases hn; cases hid; exact renewLocked_confirmed h
  | prepareTransfer req => cases hn; cases hid; exact prepareLocked_confirmed h
  | commitTransfer req => cases hn; cases hid; exact commitLocked_confirmed h
  | abortTransfer req => cases hn; cases hid; exact abortLocked_confirmed h
  | releaseClaim req =>
    intro record e
    simp only [locked, Reply.result] at e
    cases hr : (b.releaseLocked c req).2 <;> simp [hr] at e
  | _ => cases hid

/-! ## Failed operations -/

@[simp] theorem setClaim_gens (b : Backend) (n : String) (cl : ClaimRecord) :
    (b.setClaim n cl).gens = b.gens := rfl

@[simp] theorem storeOp_gens (b : Backend) (id : OperationID) (r : Reply) :
    (b.storeOp id r).gens = b.gens := by
  unfold storeOp; split <;> rfl

@[simp] theorem expireLocked_gens (b : Backend) (now : Time) (n : String) :
    (b.expireLocked now n).gens = b.gens := by
  unfold expireLocked; split <;> rfl

theorem expireLocked_claims (b : Backend) (now : Time) (n : String) :
    (b.expireLocked now n).claims = update b.claims n ((b.claims n).map (expire now)) := by
  cases h : b.claims n with
  | none => rw [expireLocked_of_none h, Option.map_none, ← h, update_eq_self]
  | some cl => rw [expireLocked_of_some h]; rfl

/-- The simulated crash of `CommitTransfer` hits this call. -/
def crashes (b : Backend) : Op → Bool
  | .commitTransfer _ => b.crashOnCommit
  | _ => false

/-- The claims and the generations are as they were, up to the expiry rule on claim `n`. -/
def OnlyExpired (now : Time) (n : String) (b b' : Backend) : Prop :=
  b'.claims = Function.update b.claims n ((b.claims n).map (expire now)) ∧ b'.gens = b.gens

/-- An operation that looks at its claim succeeds, with a record unless it is a release, or does
nothing but apply the expiry rule. -/
theorem locked_failed (hn : op.claimName = some n) (hid : op.operationID = some id)
    (hrec : b.recallOp id = none) (harm : b.armed op = false) (hcrash : b.crashes op = false) :
    (b.locked c op).2.err = none ∧ ((b.locked c op).2.record = none → ∃ req, op = .releaseClaim req) ∨
      OnlyExpired c.expireNow n b (b.locked c op).1 := by
  unfold OnlyExpired
  cases op with
  | acquireClaim req =>
    cases hn; cases hid
    simp only [locked, acquireLocked, hrec, expireLocked_getD]
    cases hcl : b.claims req.claimName with
    | none =>
      -- a claim that is created is granted
      have hheld : (freshRecord req.claimName).phase.held = false := rfl
      have hnext : advanceToken (freshRecord req.claimName).fencingToken = .ok 1 := rfl
      simp [recordOf_of_none hcl, hheld, hnext, Reply.ok]
    | some cl =>
      rw [recordOf_of_some hcl]
      repeat' split
      all_goals simp [Reply.ok, expireLocked_update]
  | renewClaim req =>
    cases hn; cases hid
    simp only [locked, renewLocked, hrec]
    repeat' split
    all_goals simp [Reply.ok, expireLocked_claims]
  | prepareTransfer req =>
    cases hn; cases hid
    simp only [armed, decide_eq_false_iff_not] at harm
    simp only [recallOp] at hrec
    simp only [locked, prepareLocked, reserveLocked, if_neg harm, recallOp, hrec]
    repeat' split
    all_goals simp [Reply.ok, expireLocked_claims]
  | commitTransfer req =>
    cases hn; cases hid
    simp only [crashes] at hcrash
    simp only [locked, commitLocked, hrec, hcrash]
    repeat' split
    all_goals simp_all [Reply.ok, expireLocked_claims]
  | abortTransfer req =>
    cases hn; cases hid
    simp only [locked, abortLocked, hrec]
    repeat' split
    all_goals simp [Reply.ok, expireLocked_claims]
  | releaseClaim req =>
    cases hn; cases hid
    simp only [locked, releaseLocked, hrec]
    repeat' split
    all_goals simp [expireLocked_claims]
  | _ => cases hid

/-- An operation that is answered without a look at its claim changes nothing. -/
theorem locked_untouched (hid : op.operationID = some id)
    (h : b.recallOp id ≠ none ∨ b.armed op = true ∨ b.crashes op = true) :
    (b.locked c op).1.claims = b.claims ∧ (b.locked c op).1.gens = b.gens := by
  cases hrec : b.recallOp id with
  | some r =>
    cases op with
    | prepareTransfer req =>
      cases hid
      simp only [recallOp] at hrec
      simp only [locked, prepareLocked, reserveLocked, recallOp, hrec]
      split <;> exact ⟨rfl, rfl⟩
    | acquireClaim req | renewClaim req | commitTransfer req | abortTransfer req
    | releaseClaim req =>
      cases hid
      simp [locked, acquireLocked, renewLocked, commitLocked, abortLocked, releaseLocked, hrec]
    | _ => cases hid
  | none =>
    cases op with
    | prepareTransfer req => simp_all [armed, crashes, locked, prepareLocked]
    | commitTransfer req =>
      cases hid
      simp_all [armed, crashes, locked, commitLocked]
    | _ => simp_all [armed, crashes]

theorem failed_of_result {r : Reply} {err : Err} (h : r.result = .error err) :
    r.err ≠ none ∨ r.record = none := by
  cases he : r.err <;> cases hr : r.record <;> simp_all [Reply.result]

/-- An operation that fails leaves every record as it was, up to the expiry rule. -/
theorem locked_error (hn : op.claimName = some n) (hid : op.operationID = some id)
    (he : (b.locked c op).2.err ≠ none ∨
      (b.locked c op).2.record = none ∧ ∀ req, op ≠ .releaseClaim req)
    (m : String) :
    (b.locked c op).1.recordOf m = b.recordOf m ∨
      (b.locked c op).1.recordOf m = expire c.expireNow (b.recordOf m) := by
  by_cases h : b.recallOp id ≠ none ∨ b.armed op = true ∨ b.crashes op = true
  · exact .inl (by rw [recordOf, (locked_untouched hid h).1, recordOf])
  push Not at h
  rcases locked_failed hn hid h.1 (by simpa using h.2.1) (by simpa using h.2.2) with
    hok | hexp
  · rcases he with he | he
    · exact absurd hok.1 he
    · obtain ⟨req, rfl⟩ := hok.2 he.1
      exact absurd rfl (he.2 req)
  rw [recordOf, hexp.1]
  by_cases hm : m = n
  · subst hm
    refine .inr ?_
    cases hcl : b.claims m <;> simp [recordOf, hcl]
  · exact .inl (by rw [update_of_ne hm, recordOf])

/-- The owner of a claim that is not reserved for somebody else can reserve it. -/
theorem prepareLocked_owned (hnew : b.recallOp req.operationID = none)
    (hinj : b.armed (.prepareTransfer req) = false) (hcl : b.claims req.claimName = some cl)
    (hexp : expire c.expireNow cl = cl) (ho : cl.ownerGeneration = req.fromGeneration)
    (ht : cl.fencingToken = req.token)
    (hp : cl.phase = .reserved → cl.pendingSuccessor = req.toGeneration) :
    ∃ record, (b.prepareLocked c req).2.result = .ok record := by
  have hinj' : ¬ (0 < b.failPrepareAt ∧ b.prepareCount + 1 = b.failPrepareAt) := by
    simpa [armed] using hinj
  have hfound : ({ b with prepareCount := b.prepareCount + 1 }.expireLocked c.expireNow
      req.claimName).claims req.claimName = some cl := by
    rw [expireLocked_of_some (b := { b with prepareCount := b.prepareCount + 1 }) hcl, hexp]
    simp
  have hnew' : { b with prepareCount := b.prepareCount + 1 }.recallOp req.operationID = none := hnew
  unfold prepareLocked reserveLocked
  simp only [if_neg hinj', hnew', hfound, ho, ht, ne_eq, not_true_eq_false, if_false]
  split
  · rename_i hs
    exact absurd (hp hs.1) hs.2.2
  split <;> exact ⟨_, rfl⟩

theorem releaseLocked_owned (req : ReleaseRequest) (hnew : b.recallOp req.operationID = none)
    (hcl : b.claims req.claimName = some cl) (hexp : expire c.expireNow cl = cl)
    (ho : cl.ownerGeneration = req.generationID) (ht : cl.fencingToken = req.token) :
    (b.releaseLocked c req).2 = none := by
  have hfound : (b.expireLocked c.expireNow req.claimName).claims req.claimName = some cl := by
    rw [expireLocked_of_some hcl, hexp]
    simp
  unfold releaseLocked
  simp [hnew, hfound, ho, ht]

/-- A release that succeeds leaves the claim without an owner, at the token of the request. -/
theorem releaseLocked_released {req : ReleaseRequest} (h : b.recallOp req.operationID = none)
    (hr : (b.releaseLocked c req).2 = none) :
    ∃ cl, (b.releaseLocked c req).1.claims req.claimName = some cl ∧ cl.fencingToken = req.token ∧
      cl.phase = .unowned := by
  unfold releaseLocked at hr ⊢
  rw [h] at hr ⊢
  simp only at hr ⊢
  split at hr
  · cases hr
  rename_i cl hcl
  split at hr
  · cases hr
  rename_i ht
  rw [if_neg ht]
  rw [not_not] at ht
  split at hr
  · rename_i ho
    rw [if_pos ho]
    split at hr
    · rename_i hp
      exact ⟨cl, by simp [hp, hcl], ht, hp⟩
    · cases hr
  · rename_i ho
    rw [if_neg ho]
    exact ⟨givenUp cl, by simp, ht, rfl⟩

theorem beforeMutate_gens (b : Backend) (c : Call) : (b.beforeMutate c).1.gens = b.gens := by
  rcases beforeMutate_fst b c with h | h <;> rw [h]

/-- The call looks at its claim: nothing refuses it before, no crash is simulated, and the table of
operations has no answer. -/
def looks (b : Backend) (c : Call) (op : Op) : Bool :=
  !b.refuses c op && !b.crashes op && (op.operationID.bind b.recallOp).isNone

end Backend

/-- **A failed call is atomic.** A claim operation that returns an error leaves the generations and
all other claims as they were. Its own claim is as it was, up to the expiry rule, which is applied if
the call gets to look at the claim. -/
theorem failed_call_atomic (b : Backend) (c : Call) (op : Op) {n : String} {id : OperationID}
    (hn : op.claimName = some n) (hid : op.operationID = some id)
    (herr : (b.apply c op).2.err ≠ none) :
    (b.apply c op).1.claims n =
        (if b.looks c op then (b.claims n).map (expire c.expireNow) else b.claims n) ∧
      (∀ m, m ≠ n → (b.apply c op).1.claims m = b.claims m) ∧
      (b.apply c op).1.gens = b.gens := by
  have hmut : op.mutating = true := by cases op <;> first | rfl | cases hid
  have hfst := Backend.beforeMutate_fst b c
  have hclaims := Backend.beforeMutate_claims b c
  have hgens := Backend.beforeMutate_gens b c
  simp only [Backend.apply, hmut, if_true] at herr ⊢
  rcases hbefore : b.beforeMutate c with ⟨b₁, _ | err⟩ <;> rw [hbefore] at herr hfst hclaims hgens
  · -- the state differs from the first in the pending failure only
    have hrecall : b₁.recallOp id = b.recallOp id := by rcases hfst with rfl | rfl <;> rfl
    have harm : b₁.armed op = b.armed op := by rcases hfst with rfl | rfl <;> cases op <;> rfl
    have hcrash : b₁.crashes op = b.crashes op := by rcases hfst with rfl | rfl <;> cases op <;> rfl
    have hlooks : b.looks c op = true ↔
        ¬ (b₁.recallOp id ≠ none ∨ b₁.armed op = true ∨ b₁.crashes op = true) := by
      simp [Backend.looks, Backend.refuses, hbefore, hid, hrecall, harm, hcrash, and_comm, and_assoc]
    by_cases h : b₁.recallOp id ≠ none ∨ b₁.armed op = true ∨ b₁.crashes op = true
    · obtain ⟨hc, hg⟩ := Backend.locked_untouched hid h
      rw [if_neg fun hl => hlooks.mp hl h]
      exact ⟨by rw [hc, hclaims], fun m _ => by rw [hc, hclaims], hg.trans hgens⟩
    · rw [if_pos (hlooks.mpr h)]
      push Not at h
      obtain ⟨hc, hg⟩ := (Backend.locked_failed hn hid h.1 (by simpa using h.2.1)
        (by simpa using h.2.2)).resolve_left fun hok => herr hok.1
      rw [hclaims] at hc
      exact ⟨by rw [hc, update_self], fun m hm => by rw [hc, update_of_ne hm],
        hg.trans hgens⟩
  · have hlooks : b.looks c op = false := by simp [Backend.looks, Backend.refuses, hbefore]
    rw [hlooks]
    exact ⟨by rw [hclaims]; rfl, fun m _ => by rw [hclaims], hgens⟩

/-- A renewal with a stale token: the lease is due, and the expiry rule is applied. -/
theorem failed_call_atomic_renewal :
    let req : AcquireRequest := { claimName := "c", generationID := "g", ttl := 10 }
    let b := step new { call := .at 1, op := .acquireClaim req }
    let op : Op := .renewClaim { claimName := "c", generationID := "g", token := 7, ttl := 10 }
    (b.apply (.at 20) op).1.claims "c" = (b.claims "c").map (expire 20) ∧
      (b.apply (.at 20) op).2 = .fail (.of .notOwner) := by
  intro req b op
  exact ⟨(failed_call_atomic b (.at 20) op rfl rfl (by decide)).1.trans (if_pos (by decide)),
    by decide⟩

/-- An injected failure comes before the expiry rule: the lease that is due stays. -/
theorem injected_failure_keeps_lease :
    let req : AcquireRequest := { claimName := "c", generationID := "g", ttl := 10 }
    let b := [{ call := .at 1, op := .acquireClaim req }, { op := .failNext (.of .backend) }].foldl
      step new
    let op : Op := .renewClaim { claimName := "c", generationID := "g", token := 1, ttl := 10 }
    (b.apply (.at 20) op).2 = .fail (.of .backend) ∧
      (b.apply (.at 20) op).1.claims "c" ≠ (b.claims "c").map (expire 20) := by
  decide

end ShiftLock.Memory
