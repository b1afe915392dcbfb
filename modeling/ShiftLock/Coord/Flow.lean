import ShiftLock.Coord.Frame

/-!
# What the code of a coordinator does with its data

One monitor for all programs of a coordinator. It follows, within one call:

* the operation ID that `newOpID` has built and no request has used yet: every claim operation
  carries such an ID, and is made in the name of the generation;
* the reply of a backend call: a record is applied to a claim only by the action after the call on
  that claim that returned it, so the records that are on their way to a claim are those of the
  threads whose next action applies one (`Act.delivers`);
* how `tryAcquire` left its first section, and the lease that it installed.

`task_flow`: the program of every task obeys the monitor.
-/

namespace ShiftLock
namespace Coord

open Conc.Prog (Obeys Monitor Within Uses)

/-! ## Neutral actions -/

/-- The actions that touch no record, no lease and no handoff: whatever a monitor follows, they
leave it where it is. -/
def Act.neutral : Act → Bool
  | .tick | .pause | .readiness | .checkOpen | .claim _ | .newOpID _ _ | .setState _ _ | .emit _
  | .heartbeat | .validLease _ | .markRenewing _ | .clearRenewing _ | .ownership _
  | .call (.updateGeneration _) => true
  | _ => false

theorem uses_perform {a : Act} (h : a.neutral) :
    Uses (fun a => a.neutral) (Code.perform a) := ⟨h, fun _ => trivial⟩

theorem setState_uses (target : GenerationState) (reason : TransitionReason) :
    Uses (fun a => a.neutral) (Code.setState target reason) := by
  refine (uses_perform rfl).bind fun r => ?_
  cases r with
  | same => trivial
  | invalid source => exact (uses_perform rfl).bind fun _ => trivial
  | changed source gen =>
    exact (uses_perform rfl).bind fun _ => (uses_perform rfl).bind fun _ => trivial

theorem claim_uses (name : String) : Uses (fun a => a.neutral) (Code.claim name) := by
  unfold Code.claim
  split
  · trivial
  · refine (uses_perform rfl).bind fun r => ?_
    cases r with
    | some err => trivial
    | none => exact uses_perform rfl

theorem runBegin_uses (worker : Code.Worker) :
    Uses (fun a => a.neutral) (Code.runBegin worker) := by
  have hclaim : Uses (fun a => a.neutral) (Code.runClaim worker) := by
    refine (claim_uses worker.name).bind fun r => ?_
    cases r with
    | some err => trivial
    | none =>
      refine (uses_perform rfl).bind fun r => ?_
      cases r <;> trivial
  unfold Code.runBegin
  split
  · trivial
  split
  · refine Uses.bind ?_ fun r => ?_
    · refine (setState_uses _ _).bind fun _ => (uses_perform rfl).bind fun _ =>
        (uses_perform rfl).bind fun r => ?_
      cases r with
      | some err =>
        exact (setState_uses _ _).bind fun _ => (uses_perform rfl).bind fun _ => trivial
      | none =>
        exact (uses_perform rfl).bind fun _ => (setState_uses _ _).bind fun _ => trivial
    · cases r with
      | some err => trivial
      | none => exact hclaim
  · exact hclaim

/-! ## The monitor -/

/-- The call whose record the action applies. -/
def Act.accepts : Act → Memory.Op → Prop
  | .tryAcquireInstall name _, .acquireClaim req => req.claimName = name
  | .applyRecord name _, .renewClaim req => req.claimName = name
  | .applyRecord name _, .prepareTransfer req => req.claimName = name
  | .applyRecord name _, .commitTransfer req => req.claimName = name
  | .setRecord name _, .abortTransfer req => req.claimName = name
  | _, _ => False

theorem Act.accepts_claimName {a : Act} {op : Memory.Op} {name : String} {record : ClaimRecord}
    (h : a.accepts op) (hd : a.delivers = some (name, record)) :
    op.claimName = some name ∧ ∃ id, op.operationID = some id := by
  cases a <;> cases hd <;> cases op <;> cases h <;> exact ⟨rfl, _, rfl⟩

/-- What is known of a thread within its call. -/
structure Flow where
  /-- The operation ID that is built and not used. -/
  opID : Option OperationID := none
  /-- The backend call of the last action, with its reply. -/
  reply : Option (Memory.Op × Memory.Reply) := none
  /-- How `tryAcquire` left its first section. -/
  entry : Option AcquireEntry := none
  /-- The lease that this call has installed. -/
  lease : Option (String × Lease) := none

namespace Flow

/-- The state of the monitor after an action. -/
def after (f : Flow) (a : Act) (r : a.Answer) : Flow :=
  let f := { f with reply := none }
  match a with
  | .newOpID _ _ => { f with opID := some r }
  | .call op => { f with opID := none, reply := some (op, r) }
  | .tryAcquireBegin _ => { f with entry := some r }
  | .tryAcquireInstall name _ =>
    match r with
    | .installed l => { f with lease := some (name, l) }
    | _ => f
  | _ => f

theorem after_install_entry (f : Flow) (name : String) (record : ClaimRecord)
    (r : InstallResult) : (f.after (.tryAcquireInstall name record) r).entry = f.entry := by
  cases r <;> rfl

theorem after_opID (f : Flow) {a : Act} (h : ∀ op claim, a ≠ .newOpID op claim)
    (hc : ∀ op, a ≠ .call op) (r : a.Answer) : (f.after a r).opID = f.opID := by
  cases a with
  | newOpID op claim => exact absurd rfl (h op claim)
  | call op => exact absurd rfl (hc op)
  | tryAcquireInstall name record => cases r <;> rfl
  | _ => rfl

theorem after_reply {f : Flow} {a : Act} {r : a.Answer} {op : Memory.Op} {reply : Memory.Reply}
    (h : (f.after a r).reply = some (op, reply)) : a = .call op ∧ HEq r reply := by
  cases a with
  | call op' => cases h; exact ⟨rfl, .rfl⟩
  | tryAcquireInstall name record => cases r <;> cases h
  | _ => cases h

def allows (cfg : Config) (f : Flow) (a : Act) : Prop :=
  (∀ op, a = .call op → op.operationID = none ∨
    (op.operationID = f.opID ∧ op.client = some cfg.generationID)) ∧
  ∀ name record, a.delivers = some (name, record) →
    ∃ op r, f.reply = some (op, r) ∧ r.result = .ok record ∧ a.accepts op

def monitor (cfg : Config) : Monitor Act Act.Answer Flow := { allows := allows cfg, after }

/-- Parts of a call that do not acquire a claim keep what is known of the acquisition. -/
def Same (f f' : Flow) : Prop := f'.entry = f.entry ∧ f'.lease = f.lease

end Flow

/-- A program that keeps what is known of the acquisition, from wherever it starts. -/
abbrev Keeps (cfg : Config) {α : Type} (p : Code.P α) : Prop := Within (Flow.monitor cfg) Flow.Same p

section

variable {cfg : Config} {f : Flow} {α β : Type}

variable {a : Act} {op : Memory.Op} {name : String} {record : ClaimRecord} {r : Memory.Reply}

/-- The calls and the actions that apply a record are the only ones that are restricted. -/
theorem allows_of_plain (h : ∀ op, a ≠ .call op) (hd : a.delivers = none) : Flow.allows cfg f a :=
  ⟨fun op e => absurd e (h op), fun _ _ e => by rw [hd] at e; cases e⟩

theorem allows_call
    (h : op.operationID = none ∨ (op.operationID = f.opID ∧ op.client = some cfg.generationID)) :
    Flow.allows cfg f (.call op) :=
  ⟨fun op' e => by cases e; exact h, fun _ _ e => by cases e⟩

theorem allows_deliver (h : a.delivers = some (name, record)) (hf : f.reply = some (op, r))
    (hr : r.result = .ok record) (hop : a.accepts op) : Flow.allows cfg f a := by
  refine ⟨fun op' e => ?_, fun name' record' e => ?_⟩
  · rw [e] at h; cases h
  · rw [h] at e; cases e
    exact ⟨op, r, hf, hr, hop⟩

theorem Flow.Same.refl (f : Flow) : f.Same f := ⟨rfl, rfl⟩

theorem Flow.Same.trans {f f' f'' : Flow} (h : f.Same f') (h' : f'.Same f'') : f.Same f'' :=
  ⟨h'.1.trans h.1, h'.2.trans h.2⟩

/-- An action that is not restricted and does not belong to an acquisition. -/
def Act.plain : Act → Bool
  | .call op => op.operationID = none
  | .tryAcquireBegin _ | .tryAcquireInstall _ _ | .applyRecord _ _ | .setRecord _ _ => false
  | _ => true

theorem Flow.same_after (h : a.plain ∨ ∃ op, a = .call op) (r : a.Answer) :
    f.Same (f.after a r) := by
  cases a <;> first | exact ⟨rfl, rfl⟩ | simp [Act.plain] at h

theorem Keeps.ret (x : α) : Keeps cfg (pure x : Code.P α) := Within.ret .refl x

variable {p : Code.P α} {k : Memory.Reply → Code.P α} {mk : OperationID → Memory.Op}

theorem Keeps.bind {k : α → Code.P β} (h : Keeps cfg p) (hk : ∀ x, Keeps cfg (k x)) :
    Keeps cfg (p >>= k) := Within.bind .trans h hk

theorem Keeps.plain (h : a.plain) : Keeps cfg (Code.perform a) := by
  intro f
  refine ⟨?_, fun r => Flow.same_after (.inl h) r⟩
  by_cases hc : ∃ op, a = .call op
  · obtain ⟨op, rfl⟩ := hc
    exact allows_call (.inl (by simpa [Act.plain] using h))
  · refine allows_of_plain (fun op e => hc ⟨op, e⟩) ?_
    cases a <;> first | rfl | cases h

/-- A plain action, and what comes after it. -/
theorem Keeps.step {k : a.Answer → Code.P β} (h : a.plain) (hk : ∀ x, Keeps cfg (k x)) :
    Keeps cfg (Code.perform a >>= k) := (plain h).bind hk

/-- A claim operation with an ID of its own; what follows knows the reply. -/
theorem obeys_request {op : String} (hid : ∀ id, (mk id).operationID = some id)
    (hc : ∀ id, (mk id).client = some cfg.generationID) {Q : Flow → α → Prop}
    (hk : ∀ id r f', f.Same f' → f'.reply = some (mk id, r) → Obeys (Flow.monitor cfg) Q (k r) f') :
    Obeys (Flow.monitor cfg) Q (Code.request op name mk >>= k) f := by
  refine ⟨allows_of_plain (by simp) rfl, fun id => ?_⟩
  refine ⟨allows_call (.inr ⟨hid id, hc id⟩), fun r => ?_⟩
  exact hk id r { f with opID := none, reply := some (mk id, r) } ⟨rfl, rfl⟩ rfl

theorem Keeps.request {op : String} (hid : ∀ id, (mk id).operationID = some id)
    (hc : ∀ id, (mk id).client = some cfg.generationID)
    (hk : ∀ id r f, f.reply = some (mk id, r) →
      Obeys (Flow.monitor cfg) (fun f' _ => f.Same f') (k r) f) :
    Keeps cfg (Code.request op name mk >>= k) := fun _ =>
  obeys_request hid hc fun id r f' hs hf => (hk id r f' hf).mono fun _ _ h => hs.trans h

/-- A record is applied right after the call that returned it. -/
theorem obeys_deliver (h : a.delivers = some (name, record)) (hf : f.reply = some (op, r))
    (hr : r.result = .ok record) (hop : a.accepts op) (hs : ∀ x, f.Same (f.after a x))
    {k : a.Answer → Code.P α} (hk : ∀ x, Keeps cfg (k x)) :
    Obeys (Flow.monitor cfg) (fun f' _ => f.Same f') (Code.perform a >>= k) f :=
  ⟨allows_deliver h hf hr hop, fun x => (hk x _).mono fun _ _ h => (hs x).trans h⟩

/-! ## The programs -/

theorem Keeps.neutral (h : Uses (fun a => a.neutral) p) : Keeps cfg p :=
  h.within .refl .trans fun a ha g => by
    have hp : a.plain := by
      cases a with
      | call op => cases op <;> first | rfl | cases ha
      | _ => first | rfl | cases ha
    obtain ⟨h₁, h₂⟩ := (plain hp g : Obeys (Flow.monitor cfg) _ _ _)
    exact ⟨h₁, h₂⟩

theorem setState_keeps (target : GenerationState) (reason : TransitionReason) :
    Keeps cfg (Code.setState target reason) := .neutral (setState_uses target reason)

theorem startRenewal_keeps (name : String) : Keeps cfg (Code.startRenewal name) := by
  refine .step rfl fun r => ?_
  cases r with
  | false => exact .ret _
  | true => exact .step rfl fun _ => .ret _

theorem renew_keeps (name : String) : Keeps cfg (Code.renew cfg name) := by
  refine .step rfl fun token => ?_
  cases token with
  | none => exact .ret _
  | some token =>
    refine .step rfl fun own => ?_
    refine Keeps.request (fun _ => rfl) (fun _ => rfl) ?_
    intro id r f hf
    cases hr : r.result with
    | error err =>
      exact (Keeps.step rfl fun _ => .step rfl fun _ => .ret _) f
    | ok record =>
      refine obeys_deliver rfl hf hr (by exact rfl) (fun _ => ⟨rfl, rfl⟩) fun _ => ?_
      exact .step rfl fun _ => .step rfl fun _ =>
        .step rfl fun _ => .ret _

theorem renewalRound_keeps (name : String) : Keeps cfg (Code.renewalRound cfg name) := by
  refine Keeps.bind ?_ fun goOn => ?_
  · refine .step rfl fun r => ?_
    cases r with
    | true => exact renew_keeps name
    | false => exact .ret _
  · cases goOn with
    | true => exact .ret _
    | false => exact .step rfl fun _ => .ret _

theorem release_keeps (name : String) : Keeps cfg (Code.release cfg name) := by
  refine .step rfl fun l => ?_
  cases l with
  | none => exact .ret _
  | some l =>
    refine Keeps.request (fun _ => rfl) (fun _ => rfl) ?_
    intro id r f hf
    cases hr : r.err with
    | some err => exact Flow.Same.refl f
    | none => exact (Keeps.step rfl fun _ => .step rfl fun _ => .ret _) f

theorem restoreLease_obeys {req : AbortRequest} (hf : f.reply = some (.abortTransfer req, r))
    (hr : r.result = .ok record) (hn : req.claimName = name) :
    Obeys (Flow.monitor cfg) (fun f' _ => f.Same f') (Code.restoreLease name record) f := by
  refine obeys_deliver rfl hf hr (by exact hn) (fun _ => ⟨rfl, rfl⟩) fun _ => ?_
  refine .step rfl fun start => ?_
  cases start with
  | true => exact startRenewal_keeps name
  | false => exact .ret _

theorem prepareHandoff_keeps : Keeps cfg Code.prepareHandoff := by
  refine .step rfl fun r => ?_
  cases r with
  | some err => exact .ret _
  | none =>
    refine .step rfl fun h => (setState_keeps _ _).bind fun r => ?_
    cases r with
    | some err => exact .ret _
    | none => exact .step rfl fun _ => .ret _

theorem closeClaims_keeps (names : List String) : Keeps cfg (Code.closeClaims names) := by
  induction names with
  | nil => exact .ret _
  | cons name rest ih =>
    exact .step rfl fun _ => .step rfl fun _ => ih

theorem close_keeps : Keeps cfg Code.close := by
  refine .step rfl fun r => ?_
  cases r with
  | none => exact .ret _
  | some names =>
    exact (closeClaims_keeps names).bind fun _ => (setState_keeps _ _).bind fun _ =>
      .step rfl fun _ => Keeps.plain rfl

/-! ## The handoff -/

theorem fail_keeps (h : Nat) (err : Err) : Keeps cfg (Code.fail h err) :=
  .step rfl fun _ => Keeps.plain rfl

theorem drainClaims_keeps (h : Nat) (names : List String) :
    Keeps cfg (Code.drainClaims h names) := by
  induction names with
  | nil => exact .ret _
  | cons name rest ih =>
    refine .step rfl fun _ => .step rfl fun r => ?_
    cases r with
    | some err => exact .step rfl fun _ => (fail_keeps h err).bind fun _ => .ret _
    | none => exact ih

theorem drain_keeps (h : Nat) : Keeps cfg (Code.drain h) := by
  refine .step rfl fun r => ?_
  cases r with
  | some err => exact .ret _
  | none =>
    refine (setState_keeps _ _).bind fun _ => .step rfl fun _ =>
      .step rfl fun names => (drainClaims_keeps h names).bind fun r => ?_
    cases r with
    | some err => exact .ret _
    | none => exact .step rfl fun _ => .step rfl fun _ => .ret _

theorem abortLoop_keeps (h : Nat) (successor : String) (tokens : Tokens) (names : List String) :
    Keeps cfg (Code.abortLoop cfg h successor tokens names) := by
  induction names with
  | nil => exact .ret _
  | cons name rest ih =>
    unfold Code.abortLoop
    cases tokens.lookup name with
    | none => exact ih
    | some token =>
      refine Keeps.request (fun _ => rfl) (fun _ => rfl) fun id r f hf => ?_
      cases hr : r.result with
      | error err => exact (Keeps.step rfl fun _ => ih) f
      | ok record =>
        refine (restoreLease_obeys hf hr rfl).bind fun f' _ hs => ?_
        exact ((Keeps.step rfl fun _ => ih) f').mono fun _ _ h => hs.trans h

theorem abortTokens_keeps (h : Nat) (successor : String) (tokens : Tokens) :
    Keeps cfg (Code.abortTokens cfg h successor tokens) := by
  unfold Code.abortTokens
  split
  · exact .ret _
  · exact .step rfl fun names => abortLoop_keeps h successor tokens names

theorem abortPrepared_keeps (h : Nat) : Keeps cfg (Code.abortPrepared cfg h) := by
  refine .step rfl fun p => ?_
  exact abortTokens_keeps h p.1 p.2

theorem abortUncommitted_keeps (h : Nat) (committed : List String) :
    Keeps cfg (Code.abortUncommitted cfg h committed) := by
  refine .step rfl fun p => ?_
  exact abortTokens_keeps h p.1 _

theorem startTimeoutWatcher_keeps (h : Nat) : Keeps cfg (Code.startTimeoutWatcher h) := by
  refine .step rfl fun r => ?_
  cases r with
  | false => exact .ret _
  | true => exact .step rfl fun _ => .ret _

theorem transferClaims_keeps (h : Nat) (successor : String) (names : List String) :
    Keeps cfg (Code.transferClaims cfg h successor names) := by
  induction names with
  | nil => exact .ret _
  | cons name rest ih =>
    refine .step rfl fun token => ?_
    cases token with
    | none => exact ih
    | some token =>
      refine Keeps.request (fun _ => rfl) (fun _ => rfl) fun id r f hf => ?_
      cases hr : r.result with
      | error err =>
        exact ((fail_keeps h err).bind fun _ => (startTimeoutWatcher_keeps h).bind fun _ =>
          (abortPrepared_keeps h).bind fun _ => .step rfl fun _ => .ret _) f
      | ok record =>
        exact obeys_deliver rfl hf hr (by exact rfl) (fun _ => ⟨rfl, rfl⟩) fun _ =>
          .step rfl fun _ => .step rfl fun _ => ih

theorem transfer_keeps (h : Nat) (successor : String) :
    Keeps cfg (Code.transfer cfg h successor) := by
  have hrun : Keeps cfg (Code.transferRun cfg h successor) := by
    refine (setState_keeps _ _).bind fun _ => .step rfl fun names =>
      (transferClaims_keeps h successor names).bind fun r => ?_
    cases r with
    | some err => exact .ret _
    | none =>
      exact .step rfl fun _ => (startTimeoutWatcher_keeps h).bind fun _ => .ret _
  unfold Code.transfer
  split
  · exact .ret _
  · refine .step rfl fun r => ?_
    cases r with
    | refused err => exact .ret _
    | started => exact hrun
    | needsDrain =>
      refine (drain_keeps h).bind fun r => ?_
      cases r with
      | some err => exact .ret _
      | none => exact .step rfl fun _ => hrun

theorem commitClaims_keeps (h : Nat) (successor : String) (tokens : Tokens)
    (committed names : List String) :
    Keeps cfg (Code.commitClaims cfg h successor tokens committed names) := by
  induction names generalizing committed with
  | nil => exact .ret _
  | cons name rest ih =>
    unfold Code.commitClaims
    cases tokens.lookup name with
    | none => exact ih committed
    | some token =>
      refine Keeps.request (fun _ => rfl) (fun _ => rfl) fun id r f hf => ?_
      cases hr : r.result with
      | error err =>
        exact ((fail_keeps h err).bind fun _ => (startTimeoutWatcher_keeps h).bind fun _ =>
          (abortUncommitted_keeps h committed).bind fun _ => .ret _) f
      | ok record =>
        exact obeys_deliver rfl hf hr (by exact rfl) (fun _ => ⟨rfl, rfl⟩) fun _ =>
          .step rfl fun _ => .step rfl fun _ =>
            .step rfl fun _ => ih _

theorem commit_keeps (h : Nat) : Keeps cfg (Code.commit cfg h) := by
  refine .step rfl fun r => ?_
  cases r with
  | returned err => exact .ret _
  | started successor tokens =>
    refine .step rfl fun names =>
      (commitClaims_keeps h successor tokens [] names).bind fun r => ?_
    cases r with
    | some err => exact .ret _
    | none =>
      exact .step rfl fun _ => (setState_keeps _ _).bind fun _ =>
        .step rfl fun _ => .ret _

theorem abortClaims_keeps (successor : String) (tokens : Tokens) (names : List String) :
    Keeps cfg (Code.abortClaims cfg successor tokens names) := by
  induction names with
  | nil => exact .ret _
  | cons name rest ih =>
    unfold Code.abortClaims
    cases tokens.lookup name with
    | none => exact ih
    | some token =>
      refine Keeps.request (fun _ => rfl) (fun _ => rfl) fun id r f hf => ?_
      cases hr : r.result with
      | error err => exact (Keeps.step rfl fun _ => .ret _) f
      | ok record =>
        refine (restoreLease_obeys hf hr rfl).bind fun f' _ hs => ?_
        exact ((Keeps.step rfl fun _ => ih) f').mono fun _ _ h => hs.trans h

theorem abort_keeps (h : Nat) : Keeps cfg (Code.abort cfg h) := by
  refine .step rfl fun r => ?_
  cases r with
  | returned err => exact .ret _
  | started successor tokens =>
    refine .step rfl fun names =>
      (abortClaims_keeps successor tokens names).bind fun r => ?_
    cases r with
    | some err => exact .ret _
    | none => exact (setState_keeps _ _).bind fun _ => .step rfl fun _ => .ret _

theorem watcher_keeps (h : Nat) : Keeps cfg (Code.watcher cfg h) := by
  refine .step rfl fun r => ?_
  cases r with
  | false => exact .ret _
  | true =>
    refine .step rfl fun r => ?_
    cases r with
    | false => exact .ret _
    | true => exact (abort_keeps h).bind fun _ => .ret _

/-! ## Acquisition -/

/-- What is known when `tryAcquire` returns: a closed claim gives no lease, and a lease that the
call has installed is recorded. -/
def Flow.Acquired (name : String) (f : Flow) (r : Except Err Code.Obtained) : Prop :=
  (∃ e, f.entry = some e ∧ (e = .closed → r = .error (.of .closed))) ∧
    ∀ l, r = .ok (.installed l) → f.lease = some (name, l)

theorem installLease_obeys {req : AcquireRequest} (hf : f.reply = some (.acquireClaim req, r))
    (hr : r.result = .ok record) (hn : req.claimName = name) :
    Obeys (Flow.monitor cfg) (fun f' x => f'.entry = f.entry ∧
      ∀ l, x = .ok (.installed l) → f'.lease = some (name, l))
      (Code.installLease cfg name record) f := by
  refine ⟨allows_deliver rfl hf hr hn, fun x => ?_⟩
  cases x with
  | closed =>
    refine obeys_request (fun _ => rfl) (fun _ => rfl) fun _ _ f' hs _ => ?_
    exact ⟨hs.1, fun l hl => by cases hl⟩
  | valid l | notOwned => exact ⟨rfl, fun l hl => by cases hl⟩
  | installed l =>
    refine (setState_keeps _ _ _).bind fun f₁ _ h₁ => ?_
    refine (Keeps.plain rfl f₁).bind fun f₂ _ h₂ => ?_
    refine (startRenewal_keeps name f₂).bind fun f₃ _ h₃ => ?_
    have h := (h₁.trans h₂).trans h₃
    exact ⟨h.1, fun l' hl => by cases hl; exact h.2⟩

theorem tryAcquire_obeys (name : String) :
    Obeys (Flow.monitor cfg) (Flow.Acquired name) (Code.tryAcquire cfg name) f := by
  refine ⟨allows_of_plain (by simp) rfl, fun entry => ?_⟩
  cases entry with
  | closed => exact ⟨⟨_, rfl, fun _ => rfl⟩, fun l hl => by cases hl⟩
  | valid l | busy => exact ⟨⟨_, rfl, fun h => by cases h⟩, fun l hl => by cases hl⟩
  | entered =>
    have hacq : ∀ f : Flow, Obeys (Flow.monitor cfg) (fun f' x => f'.entry = f.entry ∧
        ∀ l, x = .ok (.installed l) → f'.lease = some (name, l))
        (Code.acquireClaim cfg name) f := fun f => by
      refine obeys_request (fun _ => rfl) (fun _ => rfl) fun id r f' hs hf => ?_
      cases hr : r.result with
      | error err => exact ⟨hs.1, fun l hl => by cases hl⟩
      | ok record =>
        refine (installLease_obeys hf hr rfl).mono fun f'' x h => ⟨h.1.trans hs.1, h.2⟩
    refine (hacq _).bind fun f' x h => (Keeps.plain rfl f').bind fun f'' _ hs => ?_
    refine ⟨⟨.entered, hs.1.trans h.1, fun h => by cases h⟩, fun l hl => ?_⟩
    exact hs.2.trans (h.2 l hl)

theorem waitRound_obeys (name : String) :
    Obeys (Flow.monitor cfg)
      (fun f x => ∀ o, x = some (.ok o) →
        (∃ e, f.entry = some e ∧ e ≠ .closed) ∧ ∀ l, o = .installed l → f.lease = some (name, l))
      (Code.waitRound cfg name) f := by
  refine (tryAcquire_obeys name).bind fun f' x hx => ?_
  obtain ⟨⟨e, he, hc⟩, hl⟩ := hx
  cases x with
  | ok o =>
    intro o' ho
    cases ho
    exact ⟨⟨e, he, fun h => by cases hc h⟩, fun l h => hl l (by rw [h])⟩
  | error err =>
    simp only
    split
    · exact fun o h => by cases h
    · rename_i hheld
      refine (Keeps.plain rfl f').bind fun f₁ l h₁ => ?_
      cases l with
      | some l =>
        intro o ho
        cases ho
        refine ⟨⟨e, h₁.1.trans he, fun h => ?_⟩, fun l h => by cases h⟩
        -- A closed claim does not get here.
        have : err = .of .closed := by simpa using hc h
        subst this
        exact hheld (by decide)
      | none =>
        refine (Keeps.plain rfl f₁).bind fun f₂ w h₂ => ?_
        cases w <;> exact fun o h => by cases h

end

end Coord

/-! ## Tasks -/

/-- The claim that a call acquires. -/
def Task.acquires : Task → Option String
  | .tryAcquire name => some name
  | .waitRound name => some name
  | .runRound name => some name
  | _ => none

namespace Coord

open Conc.Prog (Obeys)

/-- What is known when a call returns. -/
def Flow.Returns (t : Task) (f : Flow) (x : Result ⊕ Task) : Prop :=
  ∀ o, x = .inl (.lease (.ok o)) →
    (∃ e, f.entry = some e ∧ e ≠ .closed) ∧
      ∀ l, o = .installed l → ∃ name, t.acquires = some name ∧ f.lease = some (name, l)

theorem task_flow (cfg : Config) (t : Task) :
    Obeys (Flow.monitor cfg) (Flow.Returns t) (Code.task cfg t) {} := by
  have plain {α : Type} {p : Code.P α} {k : α → Code.P (Result ⊕ Task)} (h : Keeps cfg p)
      (hk : ∀ x, ∃ y, k x = .ret y ∧ ∀ o, y ≠ .inl (.lease (.ok o))) :
      Obeys (Flow.monitor cfg) (Flow.Returns t) (p >>= k) {} := by
    refine (h {}).bind fun f x _ => ?_
    obtain ⟨y, hy, hne⟩ := hk x
    rw [hy]
    exact fun o ho => absurd ho (hne o)
  cases t with
  | claim name => exact plain (.neutral (claim_uses name)) fun _ => ⟨_, rfl, by simp⟩
  | release name => exact plain (release_keeps name) fun _ => ⟨_, rfl, by simp⟩
  | prepareHandoff => exact plain prepareHandoff_keeps fun _ => ⟨_, rfl, by simp⟩
  | drain h => exact plain (drain_keeps h) fun _ => ⟨_, rfl, by simp⟩
  | transfer h s => exact plain (transfer_keeps h s) fun _ => ⟨_, rfl, by simp⟩
  | commit h => exact plain (commit_keeps h) fun _ => ⟨_, rfl, by simp⟩
  | abort h => exact plain (abort_keeps h) fun _ => ⟨_, rfl, by simp⟩
  | close => exact plain close_keeps fun _ => ⟨_, rfl, by simp⟩
  | watcher h => exact plain (watcher_keeps h) fun _ => ⟨_, rfl, by simp⟩
  | renewal name =>
    refine plain (renewalRound_keeps name) fun goOn => ?_
    cases goOn <;> exact ⟨_, rfl, by simp⟩
  | waitForOwnership name =>
    refine plain (Keeps.plain rfl) fun r => ?_
    cases r <;> exact ⟨_, rfl, by simp⟩
  | run worker =>
    refine plain (.neutral (runBegin_uses worker)) fun r => ?_
    cases r <;> exact ⟨_, rfl, by simp⟩
  | tryAcquire name =>
    refine (tryAcquire_obeys name).bind fun f x hx o ho => ?_
    obtain ⟨⟨e, he, hc⟩, hl⟩ := hx
    have hx : x = .ok o := by simpa using ho
    subst hx
    exact ⟨⟨e, he, fun h => by cases hc h⟩, fun l h => ⟨name, rfl, hl l (by rw [h])⟩⟩
  | waitRound name =>
    refine (waitRound_obeys name).bind fun f x hx => ?_
    cases x with
    | none => exact fun o ho => by cases ho
    | some r =>
      intro o ho
      have hr : r = .ok o := by simpa using ho
      obtain ⟨he, hl⟩ := hx o (by rw [hr])
      exact ⟨he, fun l h => ⟨name, rfl, hl l h⟩⟩
  | runRound name =>
    refine (waitRound_obeys name).bind fun f x hx => ?_
    rcases x with - | (err | o)
    · exact fun o ho => by cases ho
    · exact fun o ho => by cases ho
    · intro o' ho
      cases ho
      obtain ⟨he, hl⟩ := hx o rfl
      exact ⟨he, fun l h => ⟨name, rfl, hl l h⟩⟩

/-- What is known of every thread after the first `i` moves of a schedule. -/
abbrev watchAt (cfg : Config) (w : World) (xs : Schedule) (i : Nat) : Nat → Option Flow :=
  (system cfg).watchAt (Flow.monitor cfg) (fun _ => {}) w xs i

theorem tracks_at (cfg : Config) (w : World) (xs : Schedule) (i : Nat) :
    Conc.Tracks (Flow.monitor cfg) Flow.Returns (stateAt cfg w xs i) (watchAt cfg w xs i) :=
  Conc.Sys.tracks (task_flow cfg) i

theorem moved_at (cfg : Config) (w : World) {xs : Schedule} {i : Nat}
    {x : Conc.Move Env Outside Task} (hx : xs[i]? = some x) :
    Conc.Moved (system cfg) (Flow.monitor cfg) (fun _ => {}) Flow.Returns (stateAt cfg w xs i)
      (watchAt cfg w xs i) x (stateAt cfg w xs (i + 1)) (watchAt cfg w xs (i + 1)) :=
  Conc.Sys.moved (task_flow cfg) hx

end Coord
end ShiftLock
