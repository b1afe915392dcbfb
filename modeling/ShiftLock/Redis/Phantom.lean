import ShiftLock.Redis.Local
import ShiftLock.Conc.Run

/-!
# Where a committed token of `Local` comes from

`CommitTransfer` reports success without doing anything when the claim looks committed already:
owned by the successor, with the next token and the transfer status `committed`. That status
outlives its epoch: neither a release nor a grant clears it, so a token from an ordinary
`AcquireClaim` can look like a committed one (`acquire_looks_committed`). As long as no claim is
granted with that status, a reported commit is a real one (`no_phantom_commit`).

`Edit` says what a call can do to the record of its claim.
-/

namespace ShiftLock.Redis

open Conc
open Memory (Reply renewed reservedFor committedTo rolledBack)

namespace Local

/-- The record of a claim, or the one that `AcquireClaim` would create. -/
def recordOf (l : Local) (n : String) : ClaimRecord := (l.claims n).getD { name := n }

@[simp] theorem setClaim_claims (l : Local) (n : String) (cl : ClaimRecord) :
    (l.setClaim n cl).claims = Function.update l.claims n (some cl) := rfl

@[simp] theorem store_claims (l : Local) (id : OperationID) (r : Reply) :
    (l.store id r).claims = l.claims := by
  unfold store
  split <;> rfl

theorem recordOf_setClaim (l : Local) (m n : String) (cl : ClaimRecord) :
    (l.setClaim m cl).recordOf n = if n = m then cl else l.recordOf n := by
  unfold recordOf
  rw [setClaim_claims]
  by_cases h : n = m
  · subst h
    simp
  · simp [h]

@[simp] theorem recordOf_store (l : Local) (id : OperationID) (r : Reply) (n : String) :
    (l.store id r).recordOf n = l.recordOf n := by
  unfold recordOf
  rw [store_claims]

end Local

open Local (expire granted givenUp forced alreadyCommitted)

/-- What a call at time `now` can do to the record of its claim, after `expire`. -/
inductive Edit (now : Time) (cl : ClaimRecord) : LocalOp → ClaimRecord → Prop
  | keep (op : LocalOp) : Edit now cl op cl
  | extend (req : AcquireRequest) (hp : cl.phase ≠ .unowned) :
    Edit now cl (.acquireClaim req) (renewed now req.ttl cl)
  | grant (req : AcquireRequest) (hp : cl.phase = .unowned)
    (ht : cl.fencingToken < maxSafeFencingToken) :
    Edit now cl (.acquireClaim req)
      (granted now req.ttl (cl.fencingToken + 1) req.generationID cl)
  | renew (req : RenewRequest) : Edit now cl (.renewClaim req) (renewed now req.ttl cl)
  | reserve (req : TransferRequest) :
    Edit now cl (.prepareTransfer req) (reservedFor now req.ttl req.toGeneration cl)
  | commit (req : CommitRequest) (hp : cl.phase = .reserved)
    (ho : cl.ownerGeneration = req.fromGeneration) (hs : cl.pendingSuccessor = req.toGeneration)
    (hx : cl.fencingToken = req.expectedToken) (ht : cl.fencingToken < maxSafeFencingToken) :
    Edit now cl (.commitTransfer req)
      (committedTo now req.ttl (cl.fencingToken + 1) req.toGeneration cl)
  | rollBack (req : AbortRequest) : Edit now cl (.abortTransfer req) (rolledBack cl)
  | giveUp (req : ReleaseRequest) : Edit now cl (.releaseClaim req) (givenUp cl)

def LocalOp.operationID : LocalOp → OperationID
  | .acquireClaim req => req.operationID
  | .renewClaim req => req.operationID
  | .prepareTransfer req => req.operationID
  | .commitTransfer req => req.operationID
  | .abortTransfer req => req.operationID
  | .releaseClaim req => req.operationID
  | _ => ""

def LocalOp.claimName : LocalOp → Option String
  | .acquireClaim req => some req.claimName
  | .renewClaim req => some req.claimName
  | .prepareTransfer req => some req.claimName
  | .commitTransfer req => some req.claimName
  | .abortTransfer req => some req.claimName
  | .releaseClaim req => some req.claimName
  | .getClaim name | .forceSetToken name _ => some name
  | .registerGeneration _ => none

theorem advanceLocal_ok {cur next : FencingToken} (h : advanceLocal cur = .ok next) :
    next = cur + 1 ∧ cur < maxSafeFencingToken := by
  unfold advanceLocal at h
  split at h
  · cases h
  · rename_i hlt
    cases h
    exact ⟨rfl, Nat.lt_of_not_le hlt⟩

namespace Local

variable {l : Local} {t : Clock}

/-- Claim `m` was expired and then edited; every other record is as it was. -/
def Edited (l l' : Local) (t : Clock) (op : LocalOp) (m : String) : Prop :=
  ∃ cl', (∀ n, l'.recordOf n = if n = m then cl' else l.recordOf n) ∧
    Edit t.now (expire t.expireNow (l.recordOf m)) op cl'

/-- `expire`, then an edit, then the operation table. -/
theorem edited_of_edit {op : LocalOp} {m : String} {cl' : ClaimRecord} {id : OperationID}
    {r : Reply} (h : Edit t.now (expire t.expireNow (l.recordOf m)) op cl') :
    Edited l (((l.setClaim m (expire t.expireNow (l.recordOf m))).setClaim m cl').store id r) t op
      m := by
  refine ⟨cl', fun n => ?_, h⟩
  rw [recordOf_store, recordOf_setClaim, recordOf_setClaim]
  split <;> rfl

/-- `expire`, and the operation table at most. -/
theorem edited_of_keep (op : LocalOp) (m : String) :
    Edited l (l.setClaim m (expire t.expireNow (l.recordOf m))) t op m :=
  ⟨_, fun n => recordOf_setClaim l m n _, .keep op⟩

theorem edited_of_store (op : LocalOp) (m : String) (id : OperationID) (r : Reply) :
    Edited l ((l.setClaim m (expire t.expireNow (l.recordOf m))).store id r) t op m :=
  ⟨_, fun n => by rw [recordOf_store, recordOf_setClaim], .keep op⟩

/-- A call changes no record, edits the record of its claim, or is `ForceSetToken`. -/
inductive Effect (l l' : Local) (t : Clock) (op : LocalOp) : Prop
  | same (h : ∀ n, l'.recordOf n = l.recordOf n)
  | edit (m : String) (hm : op.claimName = some m) (hnew : l.recalled op.operationID = none)
    (h : Edited l l' t op m)
  | force (m : String) (tok : FencingToken) (hop : op = .forceSetToken m tok)
    (h : ∀ n, l'.recordOf n = if n = m then forced tok (l.recordOf m) else l.recordOf n)

theorem recordOf_of_some {n : String} {cl : ClaimRecord} (h : l.claims n = some cl) :
    l.recordOf n = cl := by
  simp [recordOf, h]

theorem acquireClaim_effect (l : Local) (t : Clock) (req : AcquireRequest) :
    Effect l (l.acquireClaim t req).1 t (.acquireClaim req) := by
  unfold acquireClaim
  split
  · exact .same fun _ => rfl
  · rename_i hnew
    refine .edit req.claimName rfl hnew ?_
    rw [show (l.claims req.claimName).getD { name := req.claimName } = l.recordOf req.claimName
      from rfl]
    dsimp only
    split
    · rename_i hp
      split
      · exact edited_of_edit (.extend req (by simpa using hp))
      · exact edited_of_store ..
    · rename_i hp
      split
      · exact edited_of_store ..
      · rename_i next hnext
        obtain ⟨rfl, ht⟩ := advanceLocal_ok hnext
        exact edited_of_edit (.grant req (by simpa using hp) ht)

theorem renewClaim_effect (l : Local) (t : Clock) (req : RenewRequest) :
    Effect l (l.renewClaim t req).1 t (.renewClaim req) := by
  unfold renewClaim
  split
  · exact .same fun _ => rfl
  rename_i hnew
  split
  · exact .same fun _ => rfl
  rename_i cl hcl
  refine .edit req.claimName rfl hnew ?_
  rw [← recordOf_of_some hcl]
  dsimp only
  split
  · exact edited_of_keep ..
  split
  · exact edited_of_keep ..
  split
  · exact edited_of_keep ..
  · exact edited_of_edit (.renew req)

theorem prepareTransfer_effect (l : Local) (t : Clock) (req : TransferRequest) :
    Effect l (l.prepareTransfer t req).1 t (.prepareTransfer req) := by
  unfold prepareTransfer
  split
  · exact .same fun _ => rfl
  rename_i hnew
  split
  · exact .same fun _ => rfl
  rename_i cl hcl
  refine .edit req.claimName rfl hnew ?_
  rw [← recordOf_of_some hcl]
  dsimp only
  split
  · exact edited_of_keep ..
  split
  · exact edited_of_keep ..
  split
  · exact edited_of_keep ..
  split
  · exact edited_of_store ..
  · exact edited_of_edit (.reserve req)

theorem commitTransfer_effect (l : Local) (t : Clock) (req : CommitRequest) :
    Effect l (l.commitTransfer t req).1 t (.commitTransfer req) := by
  unfold commitTransfer
  split
  · exact .same fun _ => rfl
  rename_i hnew
  split
  · exact .same fun _ => rfl
  rename_i cl hcl
  refine .edit req.claimName rfl hnew ?_
  rw [← recordOf_of_some hcl]
  dsimp only
  split
  · exact edited_of_store ..
  split
  · exact edited_of_keep ..
  split
  · exact edited_of_keep ..
  split
  · exact edited_of_keep ..
  · rename_i hp hos hx
    rw [not_or] at hos
    split
    · exact edited_of_store ..
    · rename_i next hnext
      obtain ⟨rfl, ht⟩ := advanceLocal_ok hnext
      exact edited_of_edit
        (.commit req (not_not.mp hp) (not_not.mp hos.1) (not_not.mp hos.2) (not_not.mp hx) ht)

theorem abortTransfer_effect (l : Local) (t : Clock) (req : AbortRequest) :
    Effect l (l.abortTransfer t req).1 t (.abortTransfer req) := by
  unfold abortTransfer
  split
  · exact .same fun _ => rfl
  rename_i hnew
  split
  · exact .same fun _ => rfl
  rename_i cl hcl
  refine .edit req.claimName rfl hnew ?_
  rw [← recordOf_of_some hcl]
  dsimp only
  split
  · split
    · exact edited_of_store ..
    · exact edited_of_keep ..
  split
  · exact edited_of_keep ..
  split
  · exact edited_of_keep ..
  · exact edited_of_edit (.rollBack req)

theorem releaseClaim_effect (l : Local) (t : Clock) (req : ReleaseRequest) :
    Effect l (l.releaseClaim t req).1 t (.releaseClaim req) := by
  unfold releaseClaim
  split
  · exact .same fun _ => rfl
  rename_i hnew
  split
  · exact .same fun _ => rfl
  rename_i cl hcl
  refine .edit req.claimName rfl hnew ?_
  rw [← recordOf_of_some hcl]
  dsimp only
  split
  · exact edited_of_keep ..
  split
  · split
    · exact edited_of_store ..
    · exact edited_of_keep ..
  · exact edited_of_edit (.giveUp req)

theorem apply_effect (l : Local) (t : Clock) (op : LocalOp) : Effect l (l.apply t op).1 t op := by
  cases op with
  | acquireClaim req => exact acquireClaim_effect l t req
  | renewClaim req => exact renewClaim_effect l t req
  | prepareTransfer req => exact prepareTransfer_effect l t req
  | commitTransfer req => exact commitTransfer_effect l t req
  | abortTransfer req => exact abortTransfer_effect l t req
  | releaseClaim req => exact releaseClaim_effect l t req
  | getClaim name =>
    unfold apply getClaim
    dsimp only
    split
    · exact .same fun _ => rfl
    · rename_i cl hcl
      refine .edit name rfl rfl ?_
      rw [← recordOf_of_some hcl]
      exact edited_of_keep ..
  | registerGeneration gen => exact .same fun _ => rfl
  | forceSetToken name tok => exact .force name tok rfl fun n => recordOf_setClaim l name n _

end Local

/-! ## Reported commits -/

/-- The claim looks committed to `gen` with token `tok`. -/
def Live (gen : String) (tok : FencingToken) (cl : ClaimRecord) : Prop :=
  cl.phase = .owned ∧ cl.ownerGeneration = gen ∧ cl.fencingToken = tok ∧
    cl.transferStatus = .committed

theorem live_of_expire {gen : String} {tok : FencingToken} {cl : ClaimRecord} {now : Time}
    (h : Live gen tok (expire now cl)) : Live gen tok cl := by
  unfold expire at h
  split at h
  · exact h
  split at h
  · cases h.1
  · exact h

/-- This call commits a reservation: of the claim, the successor and the token of `req`. -/
def Commits (l : Local) (x : Clock × LocalOp) (req : CommitRequest) : Prop :=
  x.2 = .commitTransfer req ∧ l.recalled req.operationID = none ∧
    (expire x.1.expireNow (l.recordOf req.claimName)).phase = .reserved ∧
    (expire x.1.expireNow (l.recordOf req.claimName)).pendingSuccessor = req.toGeneration ∧
    (expire x.1.expireNow (l.recordOf req.claimName)).fencingToken = req.expectedToken ∧
    Live req.toGeneration (req.expectedToken + 1) ((l.step x).recordOf req.claimName)

/-- This call grants a claim whose transfer status is still `committed`. -/
def regrants (l : Local) (x : Clock × LocalOp) : Bool :=
  match x.2 with
  | .acquireClaim req =>
    let cl := expire x.1.expireNow (l.recordOf req.claimName)
    l.recalled req.operationID = none ∧ cl.phase = .unowned ∧ cl.transferStatus = .committed ∧
      cl.fencingToken < maxSafeFencingToken
  | _ => false

/-- A claim looks committed after a call only if it did before, or the call commits it. -/
theorem live_of_step {l : Local} {x : Clock × LocalOp} (hx : regrants l x = false) {n gen : String}
    {tok : FencingToken} (h : Live gen tok ((l.step x).recordOf n)) :
    Live gen tok (l.recordOf n) ∨ ∃ req, Commits l x req ∧ req.claimName = n ∧
      req.toGeneration = gen ∧ req.expectedToken + 1 = tok := by
  obtain ⟨t, op⟩ := x
  cases hE : l.apply_effect t op with
  | same hs => exact .inl ((hs n) ▸ h)
  | force m tok' hop hs =>
    have hn := hs n
    rw [show (l.apply t op).1 = l.step (t, op) from rfl] at hn
    rw [hn] at h
    split at h
    · cases h.1
    · exact .inl h
  | edit m hm hnew hed =>
    obtain ⟨cl', hs, hedit⟩ := hed
    have hself : (l.step (t, op)).recordOf m = cl' := by
      rw [show l.step (t, op) = (l.apply t op).1 from rfl, hs m, if_pos rfl]
    have hn := hs n
    rw [show (l.apply t op).1 = l.step (t, op) from rfl] at hn
    by_cases hnm : n = m
    swap
    · rw [hn, if_neg hnm] at h
      exact .inl h
    subst hnm
    rw [hself] at h
    cases hedit with
    | keep | extend | renew => exact .inl (live_of_expire h)
    | grant req hp ht =>
      cases hm
      simp only [regrants, decide_eq_false_iff_not] at hx
      exact absurd ⟨hnew, hp, h.2.2.2, ht⟩ hx
    | reserve | giveUp => cases h.1
    | commit req hp ho hsucc htok ht =>
      cases hm
      refine .inr ⟨req, ⟨rfl, hnew, hp, hsucc, htok, ?_⟩, rfl, h.2.1, ?_⟩
      · rw [hself, ← htok]
        exact ⟨rfl, rfl, rfl, rfl⟩
      · rw [← htok]
        exact h.2.2.1
    | rollBack => cases h.2.2.2

/-- A successor is no wrapped zero. -/
theorem eq_of_succ_eq_wrapSucc {a b : Nat} (hb : b < 2 ^ 64) (h : a + 1 = wrapSucc b) : a = b := by
  unfold wrapSucc at h
  omega

section

variable {xs : List (Clock × LocalOp)}

/-- A claim that looks committed was committed by an earlier call, and has looked so since. -/
theorem live_origin
    (hmeets : Run.Meets Local.step (fun l x => !regrants l x) Local.new xs = true)
    {n gen : String} {tok : FencingToken} {k : Nat}
    (hlive : Live gen tok ((Run.stateAt Local.step Local.new xs k).recordOf n)) :
    ∃ j < k, ∃ x req, xs[j]? = some x ∧
      Commits (Run.stateAt Local.step Local.new xs j) x req ∧ req.claimName = n ∧
      req.toGeneration = gen ∧ req.expectedToken + 1 = tok ∧
      ∀ m, j < m → m ≤ k →
        Live gen tok ((Run.stateAt Local.step Local.new xs m).recordOf n) := by
  induction k with
  | zero => cases hlive.1
  | succ k ih =>
    cases hx : xs[k]? with
    | none =>
      rw [Run.stateAt_succ_of_none hx] at hlive
      obtain ⟨j, hj, x, req, hxj, hc, hname, hto, htok, hsince⟩ := ih hlive
      refine ⟨j, Nat.lt_succ_of_lt hj, x, req, hxj, hc, hname, hto, htok, fun m hjm hm => ?_⟩
      rcases Nat.le_succ_iff.mp hm with hm | rfl
      · exact hsince m hjm hm
      · rw [Run.stateAt_succ_of_none hx]
        exact hlive
    | some x =>
      have hlive' := hlive
      rw [Run.stateAt_succ hx] at hlive
      rcases live_of_step (by simpa using Run.meets_getElem hmeets hx) hlive with
        hbefore | ⟨req, hc, hname, hto, htok⟩
      · obtain ⟨j, hj, y, req, hxj, hc, hname, hto, htok, hsince⟩ := ih hbefore
        refine ⟨j, Nat.lt_succ_of_lt hj, y, req, hxj, hc, hname, hto, htok, fun m hjm hm => ?_⟩
        rcases Nat.le_succ_iff.mp hm with hm | rfl
        · exact hsince m hjm hm
        · exact hlive'
      · refine ⟨k, Nat.lt_succ_self k, x, req, hx, hc, hname, hto, htok, fun m hjm hm => ?_⟩
        obtain rfl : m = k + 1 := by omega
        exact hlive'

/-- What a `CommitTransfer` that reports success has found: a claim that looks committed, or a
reservation that it commits. -/
theorem commitTransfer_ok {l : Local} {t : Clock} {req : CommitRequest}
    (hnew : l.recalled req.operationID = none) (hok : (l.commitTransfer t req).2.err = none) :
    Live req.toGeneration (wrapSucc req.expectedToken) (l.recordOf req.claimName) ∨
      Commits l (t, .commitTransfer req) req := by
  unfold Local.commitTransfer at hok
  rw [hnew] at hok
  dsimp only at hok
  split at hok
  · cases hok
  rename_i cl hcl
  have hrec := Local.recordOf_of_some hcl
  split at hok
  · rename_i ha
    left
    simp only [alreadyCommitted, decide_eq_true_eq] at ha
    rw [hrec]
    exact live_of_expire ⟨ha.1, ha.2.1, ha.2.2.1, ha.2.2.2⟩
  rename_i hna
  split at hok
  · cases hok
  split at hok
  · cases hok
  split at hok
  · cases hok
  rename_i hp hos hx
  split at hok
  · cases hok
  rename_i next hnext
  obtain ⟨rfl, ht⟩ := advanceLocal_ok hnext
  rw [not_or] at hos
  right
  refine ⟨rfl, hnew, ?_, ?_, ?_, ?_⟩
  · rw [hrec]; exact not_not.mp hp
  · rw [hrec]; exact not_not.mp hos.2
  · rw [hrec]; exact not_not.mp hx
  · have hstep : (l.step (t, .commitTransfer req)).recordOf req.claimName =
        committedTo t.now req.ttl ((expire t.expireNow cl).fencingToken + 1) req.toGeneration
          (expire t.expireNow cl) := by
      unfold Local.step Local.apply Local.commitTransfer
      dsimp only
      rw [hnew, hcl]
      simp only [hna, hp, hos, hx, hnext, if_false, Bool.false_eq_true, or_self]
      rw [Local.recordOf_store, Local.recordOf_setClaim, if_pos rfl]
    rw [hstep, ← not_not.mp hx]
    exact ⟨rfl, rfl, rfl, rfl⟩

/-- **No phantom commit.** In every run of calls from `NewLocal` in which no claim is granted with
the transfer status `committed`: a `CommitTransfer` with a fresh or empty operation ID that reports
success follows, or is, a commit of a reservation of that claim at the expected token to the same
successor, and the claim has kept this owner and token since. -/
theorem no_phantom_commit
    (hmeets : Run.Meets Local.step (fun l x => !regrants l x) Local.new xs = true) {i : Nat}
    {t : Clock} {req : CommitRequest} (hx : xs[i]? = some (t, .commitTransfer req))
    (htok : req.expectedToken < 2 ^ 64)
    (hnew : (Run.stateAt Local.step Local.new xs i).recalled req.operationID = none)
    (hok : ((Run.stateAt Local.step Local.new xs i).commitTransfer t req).2.err = none) :
    ∃ j ≤ i, ∃ x req', xs[j]? = some x ∧
      Commits (Run.stateAt Local.step Local.new xs j) x req' ∧
      req'.claimName = req.claimName ∧ req'.toGeneration = req.toGeneration ∧
      req'.expectedToken = req.expectedToken ∧
      ∀ m, j < m → m ≤ i →
        Live req.toGeneration (req.expectedToken + 1)
          ((Run.stateAt Local.step Local.new xs m).recordOf req.claimName) := by
  rcases commitTransfer_ok hnew hok with hlive | hc
  · obtain ⟨j, hj, x, req', hxj, hc, hname, hto, htok', hsince⟩ := live_origin hmeets hlive
    -- The token is a successor, so the addition on `uint64` did not wrap.
    have heq : req'.expectedToken = req.expectedToken := eq_of_succ_eq_wrapSucc htok htok'
    refine ⟨j, Nat.le_of_lt hj, x, req', hxj, hc, hname, hto, heq, ?_⟩
    rw [← htok', heq] at hsince
    exact hsince
  · exact ⟨i, Nat.le_refl i, _, req, hx, hc, rfl, rfl, rfl, fun m hm hm' => by omega⟩

end

/-- "g1" hands the claim to "g2". -/
def handoff : List (Clock × LocalOp) :=
  [(⟨1, 1⟩, .acquireClaim { claimName := "c", generationID := "g1", ttl := 10 }),
    (⟨2, 2⟩, .prepareTransfer { claimName := "c", fromGeneration := "g1", toGeneration := "g2"
                                token := 1, ttl := 10 }),
    (⟨3, 3⟩, .commitTransfer { claimName := "c", fromGeneration := "g1", toGeneration := "g2"
                               expectedToken := 1, ttl := 10 })]

/-- The request is sent again. -/
def committedTwice : List (Clock × LocalOp) :=
  handoff ++
    [(⟨4, 4⟩, .commitTransfer { claimName := "c", fromGeneration := "g1", toGeneration := "g2"
                                expectedToken := 1, ttl := 10 })]

theorem no_phantom_commit_repeated :
    ∃ j ≤ 3, ∃ x req', committedTwice[j]? = some x ∧
      Commits (Run.stateAt Local.step Local.new committedTwice j) x req' ∧
      req'.toGeneration = "g2" ∧ req'.expectedToken = 1 := by
  have hmeets : Run.Meets Local.step (fun l x => !regrants l x) Local.new committedTwice =
      true := by decide
  obtain ⟨j, hj, x, req', hx, hc, -, hto, htok, -⟩ :=
    no_phantom_commit hmeets (i := 3) rfl (by decide) rfl (by decide)
  exact ⟨j, hj, x, req', hx, hc, hto, htok⟩

/-- After a handoff "g2" releases the claim and "g3" acquires it. Then comes a commit from "g2" to
"g3" that nobody prepared. -/
def acquiredAfterCommit : List (Clock × LocalOp) :=
  handoff ++
    [(⟨4, 4⟩, .releaseClaim { claimName := "c", generationID := "g2", token := 2 }),
    (⟨5, 5⟩, .acquireClaim { claimName := "c", generationID := "g3", ttl := 10 }),
    (⟨6, 6⟩, .commitTransfer { claimName := "c", fromGeneration := "g2", toGeneration := "g3"
                               expectedToken := 2, ttl := 10 })]

/-- It reports success, and no call has committed a reservation to "g3". -/
theorem acquire_looks_committed :
    ((Run.stateAt Local.step Local.new acquiredAfterCommit 5).commitTransfer ⟨6, 6⟩
        { claimName := "c", fromGeneration := "g2", toGeneration := "g3", expectedToken := 2
          ttl := 10 }).2.err = none ∧
      ¬ ∃ j ≤ 5, ∃ x req', acquiredAfterCommit[j]? = some x ∧
        Commits (Run.stateAt Local.step Local.new acquiredAfterCommit j) x req' ∧
        req'.toGeneration = "g3" := by
  refine ⟨by decide, ?_⟩
  rintro ⟨j, hj, x, req', hx, ⟨hop, -, hp, -⟩, hto⟩
  -- Only the third and the last call are commits; the last one finds no reservation.
  have hj' : j = 0 ∨ j = 1 ∨ j = 2 ∨ j = 3 ∨ j = 4 ∨ j = 5 := by omega
  rcases hj' with rfl | rfl | rfl | rfl | rfl | rfl <;> cases hx <;> cases hop
  · revert hto; decide
  · revert hp; decide

end ShiftLock.Redis
