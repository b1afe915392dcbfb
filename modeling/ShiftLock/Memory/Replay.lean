import ShiftLock.Memory.Spec
import ShiftLock.Conc.Run

/-!
# Idempotent replay

The operation table of the in-memory backend: an operation writes only the entry of its own ID,
and only when there was none (`Stores`), so an entry never changes; a successful operation leaves
its reply in the table (`Recorded`). A call that is submitted again therefore gets the stored
reply, before the expiry rule or any update runs.

The table is consulted behind the checks of `beforeMutate` and, in `PrepareTransfer`, behind the
injected failure: a closed or partitioned backend, a pending failure, a context that is done
before a delay ends, or an armed `FailPrepareAt` refuse the call instead (`refuses`). A refused
call changes no claim and sends no event either.
-/

namespace ShiftLock.Memory

open Function

/-- What an operation with the given ID does to the operation table. -/
def Stores (id : OperationID) (b b' : Backend) : Prop :=
  b'.ops = b.ops ∨
    (id ≠ "" ∧ b.ops id = none ∧ ∃ r, b'.ops = Function.update b.ops id (some r))

/-- The reply of a call whose operation is recalled with `r`: `ReleaseClaim` returns the error
only. -/
def Op.answer : Op → Reply → Reply
  | .releaseClaim _, r => { err := r.err }
  | _, r => r

/-- An operation that was not recalled from the table: it touches at most the entry of its ID, and
a success is stored so that the table answers the same again. -/
structure Recorded (op : Op) (id : OperationID) (b b' : Backend) (r : Reply) : Prop where
  stores : Stores id b b'
  success : r.err = none → id ≠ "" → ∃ r', b'.ops id = some r' ∧ op.answer r' = r

namespace Stores

variable {id : OperationID} {b b' b'' : Backend}

/-- An entry of the table stays as it is. -/
theorem keeps (h : Stores id b b') {id' : OperationID} {r : Reply} (hr : b.ops id' = some r) :
    b'.ops id' = some r := by
  rcases h with h | ⟨-, hn, r', h⟩
  · rw [h]; exact hr
  · rw [h, update_of_ne]
    · exact hr
    · rintro rfl
      rw [hn] at hr
      cases hr

/-- A new entry has the ID of the operation. -/
theorem id_eq (h : Stores id b b') {id' : OperationID} (hn : b.ops id' = none)
    (hs : b'.ops id' ≠ none) : id' = id := by
  rcases h with h | ⟨-, -, r', h⟩
  · rw [h] at hs; exact absurd hn hs
  · by_contra hne
    rw [h, update_of_ne hne] at hs
    exact hs hn

theorem of_ops {b₁ : Backend} (h : Stores id b₁ b') (hb : b₁.ops = b.ops) : Stores id b b' := by
  unfold Stores at *
  rwa [hb] at h

end Stores

namespace Backend

variable {b : Backend} {c : Call} {id : OperationID}

variable {r : Reply} {op : Op}

theorem recallOp_of_some (hne : id ≠ "") (h : b.ops id = some r) : b.recallOp id = some r := by
  simp [recallOp, hne, h]

theorem ops_of_recallOp_none (h : b.recallOp id = none) (hne : id ≠ "") : b.ops id = none := by
  simpa [recallOp, hne] using h

/-- An operation that fails without storing. -/
theorem recorded_fail {b' : Backend} {e : Err} (hb : b'.ops = b.ops := by simp) :
    Recorded op id b b' (.fail e) :=
  ⟨.inl hb, fun h => by cases h⟩

/-- An operation that ends with `storeOp`: a success is stored as it is answered. -/
theorem recorded_storeOp {b' : Backend} {r' : Reply} (hb : b'.ops = b.ops)
    (h : b.recallOp id = none) (hr : r'.err = none → op.answer r = r') :
    Recorded op id b (b'.storeOp id r) r' := by
  constructor
  · unfold storeOp
    split
    · exact .inl hb
    · rename_i hne
      exact .inr ⟨hne, ops_of_recallOp_none h hne, r, by rw [hb]⟩
  · intro hok hne
    refine ⟨r, ?_, hr hok⟩
    unfold storeOp
    rw [if_neg hne]
    simp

theorem acquireLocked_recorded {req : AcquireRequest} (h : b.recallOp req.operationID = none) :
    Recorded (.acquireClaim req) req.operationID b (b.acquireLocked c req).1
      (b.acquireLocked c req).2 := by
  unfold acquireLocked
  rw [h]
  simp only
  split
  · split
    · exact recorded_storeOp (by simp) h fun _ => rfl
    · exact recorded_storeOp (by simp) h fun _ => rfl
  · cases advanceToken _ with
    | error err => exact recorded_storeOp (by simp) h fun hok => by cases hok
    | ok next => exact recorded_storeOp (by simp) h fun _ => rfl

theorem renewLocked_recorded {req : RenewRequest} (h : b.recallOp req.operationID = none) :
    Recorded (.renewClaim req) req.operationID b (b.renewLocked c req).1
      (b.renewLocked c req).2 := by
  unfold renewLocked
  rw [h]
  simp only
  split
  · exact recorded_fail
  split
  · exact recorded_fail
  split
  · exact recorded_fail
  split
  · exact recorded_fail
  · exact recorded_storeOp (by simp) h fun _ => rfl

theorem reserveLocked_recorded {req : TransferRequest} (h : b.recallOp req.operationID = none) :
    Recorded (.prepareTransfer req) req.operationID b (b.reserveLocked c req).1
      (b.reserveLocked c req).2 := by
  unfold reserveLocked
  rw [h]
  simp only
  split
  · exact recorded_fail
  split
  · exact recorded_fail
  split
  · exact recorded_fail
  split
  · exact recorded_fail
  split
  · exact recorded_storeOp (by simp) h fun _ => rfl
  · exact recorded_storeOp (by simp) h fun _ => rfl

theorem commitLocked_recorded {req : CommitRequest} (h : b.recallOp req.operationID = none) :
    Recorded (.commitTransfer req) req.operationID b (b.commitLocked c req).1
      (b.commitLocked c req).2 := by
  unfold commitLocked
  rw [h]
  simp only
  split
  · exact recorded_fail rfl
  split
  · exact recorded_fail
  split
  · exact recorded_storeOp (by simp) h fun _ => rfl
  split
  · exact recorded_fail
  split
  · exact recorded_fail
  split
  · exact recorded_fail
  cases advanceToken _ with
  | error err => exact recorded_storeOp (by simp) h fun hok => by cases hok
  | ok next => exact recorded_storeOp (by simp) h fun _ => rfl

theorem abortLocked_recorded {req : AbortRequest} (h : b.recallOp req.operationID = none) :
    Recorded (.abortTransfer req) req.operationID b (b.abortLocked c req).1
      (b.abortLocked c req).2 := by
  unfold abortLocked
  rw [h]
  simp only
  split
  · exact recorded_fail
  split
  · split
    · exact recorded_storeOp (by simp) h fun _ => rfl
    · exact recorded_fail
  split
  · exact recorded_fail
  split
  · exact recorded_fail
  · exact recorded_storeOp (by simp) h fun _ => rfl

theorem releaseLocked_recorded {req : ReleaseRequest} (h : b.recallOp req.operationID = none) :
    Recorded (.releaseClaim req) req.operationID b (b.releaseLocked c req).1
      { err := (b.releaseLocked c req).2 } := by
  unfold releaseLocked
  rw [h]
  simp only
  split
  · exact recorded_fail
  split
  · exact recorded_fail
  split
  · split
    · exact recorded_storeOp (by simp) h fun _ => rfl
    · exact recorded_fail
  · exact recorded_storeOp (by simp) h fun _ => rfl

/-! ## Calls -/

/-- The injected failure of `PrepareTransfer` hits this call. -/
def armed (b : Backend) : Op → Bool
  | .prepareTransfer _ => 0 < b.failPrepareAt ∧ b.prepareCount + 1 = b.failPrepareAt
  | _ => false

/-- The call is refused before the operation table is consulted. -/
def refuses (b : Backend) (c : Call) (op : Op) : Bool := (b.beforeMutate c).2.isSome || b.armed op

/-- A recalled operation: the claims, the watchers and the table stay, and the table answers. -/
theorem locked_recall (hid : op.operationID = some id) (hne : id ≠ "") (hr : b.ops id = some r) :
    (b.locked c op).1.claims = b.claims ∧ (b.locked c op).1.watchers = b.watchers ∧
      (b.locked c op).1.ops = b.ops ∧ (b.armed op = false → (b.locked c op).2 = op.answer r) := by
  have hrec := recallOp_of_some hne hr
  cases op with
  | acquireClaim req | renewClaim req | commitTransfer req | abortTransfer req
  | releaseClaim req =>
    cases hid
    simp [locked, acquireLocked, renewLocked, commitLocked, abortLocked, releaseLocked, hrec,
      Op.answer]
  | prepareTransfer req =>
    cases hid
    have hrec' : { b with prepareCount := b.prepareCount + 1 }.recallOp req.operationID = some r :=
      hrec
    unfold locked prepareLocked
    simp only
    split
    · rename_i ha
      exact ⟨rfl, rfl, rfl, fun h => by simp [armed, ha] at h⟩
    · unfold reserveLocked
      rw [hrec']
      exact ⟨rfl, rfl, rfl, fun _ => rfl⟩
  | _ => cases hid

theorem locked_recorded (hid : op.operationID = some id) (h : b.recallOp id = none) :
    Recorded op id b (b.locked c op).1 (b.locked c op).2 := by
  cases op with
  | acquireClaim req => cases hid; exact acquireLocked_recorded h
  | renewClaim req => cases hid; exact renewLocked_recorded h
  | commitTransfer req => cases hid; exact commitLocked_recorded h
  | abortTransfer req => cases hid; exact abortLocked_recorded h
  | releaseClaim req => cases hid; exact releaseLocked_recorded h
  | prepareTransfer req =>
    cases hid
    unfold locked prepareLocked
    simp only
    split
    · exact recorded_fail rfl
    · have hr := reserveLocked_recorded (c := c)
        (b := { b with prepareCount := b.prepareCount + 1 }) h
      exact ⟨hr.stores.of_ops rfl, hr.success⟩
  | _ => cases hid

/-- The operation table under one critical section. -/
theorem locked_ops (b : Backend) (c : Call) (op : Op) :
    (b.locked c op).1.ops = b.ops ∨
      ∃ id, op.operationID = some id ∧ Stores id b (b.locked c op).1 := by
  cases hid : op.operationID with
  | some id =>
    right
    refine ⟨id, rfl, ?_⟩
    cases hr : b.recallOp id with
    | none => exact (locked_recorded hid hr).stores
    | some r =>
      by_cases hne : id = ""
      · simp [recallOp, hne] at hr
      · have hops : b.ops id = some r := by simpa [recallOp, hne] using hr
        exact .inl (locked_recall hid hne hops).2.2.1
  | none =>
    left
    cases op with
    | getClaim name =>
      simp only [locked, getClaim]
      split <;> simp
    | watchClaim name =>
      simp only [locked, watchClaim]
      split <;> rfl
    | close =>
      simp only [locked, close]
      split <;> rfl
    | acquireClaim | renewClaim | prepareTransfer | commitTransfer | abortTransfer
    | releaseClaim => cases hid
    | _ => rfl

theorem beforeMutate_ops (b : Backend) (c : Call) : (b.beforeMutate c).1.ops = b.ops := by
  rcases beforeMutate_fst b c with h | h <;> rw [h]

theorem beforeMutate_watchers (b : Backend) (c : Call) :
    (b.beforeMutate c).1.watchers = b.watchers := by
  rcases beforeMutate_fst b c with h | h <;> rw [h]

/-- The operation table under one call. -/
theorem apply_ops (b : Backend) (c : Call) (op : Op) :
    (b.apply c op).1.ops = b.ops ∨
      ∃ id, op.operationID = some id ∧ Stores id b (b.apply c op).1 := by
  rcases apply_cases b c op with ⟨err, -, he⟩ | he | he
  · left; rw [he]; exact beforeMutate_ops b c
  · rw [he]; exact locked_ops b c op
  · rw [he]
    rcases locked_ops { b with failNext := none } c op with h | ⟨id, hid, h⟩
    · exact .inl h
    · exact .inr ⟨id, hid, h.of_ops rfl⟩

/-- An operation that is answered from the table. -/
theorem apply_recall (hid : op.operationID = some id) (hne : id ≠ "") (hr : b.ops id = some r) :
    (b.apply c op).1.claims = b.claims ∧ (b.apply c op).1.watchers = b.watchers ∧
      (b.refuses c op = false → (b.apply c op).2 = op.answer r) := by
  rcases apply_cases b c op with ⟨err, hb, he⟩ | he | he
  · rw [he]
    refine ⟨beforeMutate_claims b c, beforeMutate_watchers b c, fun h => ?_⟩
    simp [refuses, hb] at h
  · obtain ⟨h₁, h₂, -, h₃⟩ := locked_recall hid hne hr
    rw [he]
    exact ⟨h₁, h₂, fun h => h₃ (by simp [refuses] at h; exact h.2)⟩
  · obtain ⟨h₁, h₂, -, h₃⟩ := locked_recall (b := { b with failNext := none }) hid hne hr
    rw [he]
    refine ⟨h₁, h₂, fun h => h₃ ?_⟩
    have : { b with failNext := none }.armed op = b.armed op := by cases op <;> rfl
    simp [refuses] at h
    rw [this]
    exact h.2

/-- A success under a fresh ID is in the table afterwards. -/
theorem apply_success (hid : op.operationID = some id) (hne : id ≠ "") (hn : b.ops id = none)
    (hok : (b.apply c op).2.err = none) :
    ∃ r, (b.apply c op).1.ops id = some r ∧ op.answer r = (b.apply c op).2 := by
  have hrec : ∀ b' : Backend, b'.ops = b.ops → b'.recallOp id = none := fun b' hb => by
    simp [recallOp, hb, hn]
  rcases apply_cases b c op with ⟨err, -, he⟩ | he | he
  · rw [he] at hok; cases hok
  · rw [he] at hok ⊢
    exact (locked_recorded hid (hrec b rfl)).success hok hne
  · rw [he] at hok ⊢
    exact (locked_recorded hid (hrec { b with failNext := none } rfl)).success hok hne

end Backend

/-! ## Runs -/

variable {id : OperationID}

theorem step_keeps {b : Backend} {r : Reply} (hr : b.ops id = some r) (x : Input) :
    (step b x).ops id = some r := by
  rcases b.apply_ops x.call x.op with h | ⟨id', -, h⟩
  · unfold step; rw [h]; exact hr
  · exact h.keeps hr

/-- An ID that no call of a run has used is not in the table. -/
theorem ops_of_unused {p : Bool} {xs : List Input} (h : ∀ x ∈ xs, x.op.operationID ≠ some id) :
    (xs.foldl step (new p)).ops id = none := by
  rw [← Conc.Run.stateAt_length step (new p) xs (Nat.le_refl _)]
  refine Conc.Run.invariant
    (I := fun b : Backend => b.ops id = none) ?_ rfl h _
  intro b x hb hx
  rcases b.apply_ops x.call x.op with e | ⟨id', hid', e⟩
  · unfold step; rw [e]; exact hb
  · by_contra hne
    exact hx (by rw [hid', e.id_eq hb hne])

theorem foldl_keeps {b : Backend} {r : Reply} (hr : b.ops id = some r) (ys : List Input) :
    (ys.foldl step b).ops id = some r := by
  induction ys generalizing b with
  | nil => exact hr
  | cons y ys ih => exact ih (step_keeps hr y)

/-- **Idempotent replay.** A call `x` with an operation ID that was not used before (in `xs`)
succeeds. The same request submitted again after any continuation `ys` changes no record and sends
no event; unless it is refused before the table is consulted, its reply is that of the first
call. -/
theorem replay_same_reply (p : Bool) (xs ys : List Input) (x : Input) (id : OperationID)
    (hid : x.op.operationID = some id) (hne : id ≠ "")
    (hfresh : ∀ y ∈ xs, y.op.operationID ≠ some id)
    (hok : ((xs.foldl step (new p)).apply x.call x.op).2.err = none) (c : Call) :
    let b := (xs ++ x :: ys).foldl step (new p)
    (b.apply c x.op).1.claims = b.claims ∧ (b.apply c x.op).1.watchers = b.watchers ∧
      (b.refuses c x.op = false →
        (b.apply c x.op).2 = ((xs.foldl step (new p)).apply x.call x.op).2) := by
  intro b
  obtain ⟨r, hr, ha⟩ := Backend.apply_success hid hne (ops_of_unused hfresh) hok
  have hb : b.ops id = some r := by
    have hr' : (step (xs.foldl step (new p)) x).ops id = some r := hr
    rw [show b = ys.foldl step (step (xs.foldl step (new p)) x) by simp [b]]
    exact foldl_keeps hr' ys
  rw [← ha]
  exact Backend.apply_recall hid hne hb

/-- An acquire that is answered from the table after the claim went to another generation. -/
theorem replay_same_reply_after_takeover :
    let req : AcquireRequest :=
      { claimName := "c", generationID := "g", ttl := 10, operationID := "op" }
    let x : Input := { call := .at 1, op := .acquireClaim req }
    let ys : List Input :=
      [{ call := .at 2, op := .releaseClaim { claimName := "c", generationID := "g", token := 1 } },
        { call := .at 3, op := .acquireClaim { claimName := "c", generationID := "h", ttl := 10 } }]
    let b := (x :: ys).foldl step new
    (b.recordOf "c").ownerGeneration = "h" ∧
      (b.apply (.at 4) x.op).2 = (new.apply x.call x.op).2 := by
  intro req x ys b
  have h := replay_same_reply false [] ys x "op" rfl (by decide) (by simp) (by decide) (.at 4)
  exact ⟨by decide, h.2.2 (by decide)⟩

/-- A closed backend does not answer from the table. -/
theorem replay_after_close :
    let req : AcquireRequest :=
      { claimName := "c", generationID := "g", ttl := 10, operationID := "op" }
    let x : Input := { call := .at 1, op := .acquireClaim req }
    let b := [x, { op := .close }].foldl step new
    (new.apply x.call x.op).2.err = none ∧ (b.apply (.at 2) x.op).2 = .fail (.of .closed) := by
  decide

end ShiftLock.Memory
