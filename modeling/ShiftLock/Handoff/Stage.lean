import ShiftLock.Coord.OpId
import ShiftLock.Conc.Sequential

/-!
# Where a call on a handoff is

A monitor for the calls on a handoff among all threads of a coordinator. `Phase` follows one call of
`Drain`, `Transfer`, `Commit` or `Abort` through its loop: which claims it has seen, which reservation
or commit the backend has just confirmed, and whether the call has failed. All other calls and the
goroutines are `outside`: they perform none of the actions that work on a handoff's fields, except that
the timeout watcher aborts (`Act.beside`).

`task_stage`: the program of every task obeys the monitor.
-/

namespace ShiftLock

def Task.handoff : Task → Option Nat
  | .drain h | .transfer h _ | .commit h | .abort h => some h
  | _ => none

namespace Coord

open Conc.Prog (Obeys Monitor Within Uses)

/-- The actions that any thread may perform beside a call on a handoff. -/
def Act.beside : Act → Bool
  | .call (.prepareTransfer _) | .call (.commitTransfer _) => false
  | .applyRecord _ _ | .drainBegin _ | .drainEnd _ | .transferBegin _ _ | .transferStart _ _
  | .setToken _ _ _ | .dropToken _ _ | .transferEnd _ | .commitBegin _ | .commitEnd _
  | .fail _ _ => false
  | _ => true

/-- A loop over the claims of a handoff: the claims it goes through, once it has read them, and those
it is done with. -/
structure Loop where
  successor : String
  names : Option (List String) := none
  seen : List String := []

inductive Phase where
  /-- Before the first section, or behind everything that matters. -/
  | plain
  /-- `Drain` runs. -/
  | draining
  /-- `Transfer` reserves. -/
  | reserving (l : Loop)
  /-- The backend has reserved claim `n`. -/
  | reserved (l : Loop) (n : String) (record : ClaimRecord)
  /-- The record of the reservation is applied. -/
  | applied (l : Loop) (n : String) (t : FencingToken)
  /-- `Commit` hands over, with its copy of the entries. -/
  | committing (l : Loop) (tokens : Tokens)
  /-- The backend has handed claim `n` over. -/
  | settled (l : Loop) (tokens : Tokens) (n : String) (record : ClaimRecord)
  /-- A backend call has failed. -/
  | broken
  /-- The status is set, and reservations are rolled back. -/
  | rolling
  /-- `Commit` returns nil. -/
  | committed

namespace Loop

/-- The loop is done with claim `n`. -/
def see (l : Loop) (n : String) : Loop := { l with seen := n :: l.seen }

def read (l : Loop) (names : List String) : Loop := { l with names := some names }

/-- The loop is done with every claim in `S`. -/
def Covers (l : Loop) (S : String → Prop) : Prop :=
  ∃ names, l.names = some names ∧ ∀ n ∈ names, S n → n ∈ l.seen

end Loop

namespace Phase

/-- The phase of a call on handoff `h` after an action. -/
def after (h : Nat) (p : Phase) (a : Act) (r : a.Answer) : Phase :=
  match p with
  | .plain =>
    match a, r with
    | .drainBegin _, none => .draining
    | .transferBegin _ s, .started => .reserving { successor := s }
    | .commitBegin _, .returned none => .committed
    | .commitBegin _, .started s tokens => .committing { successor := s } tokens
    | _, _ => .plain
  | .draining =>
    match a with
    | .transferStart _ s => .reserving { successor := s }
    | _ => .draining
  | .reserving l =>
    match a, r with
    | .handoffClaims h', names => .reserving (if h' = h then l.read names else l)
    | .currentLeaseToken n, none => .reserving (l.see n)
    | .call (.prepareTransfer req), r =>
      match r.result with
      | .ok record => .reserved l req.claimName record
      | .error _ => .broken
    | .transferEnd _, _ => .plain
    | _, _ => .reserving l
  | .reserved l n record =>
    match a with
    | .applyRecord _ _ => .applied l n record.fencingToken
    | _ => .reserved l n record
  | .applied l n t =>
    match a with
    | .setToken _ _ _ => .reserving (l.see n)
    | _ => .applied l n t
  | .committing l tokens =>
    match a, r with
    | .handoffClaims h', names => .committing (if h' = h then l.read names else l) tokens
    | .call (.commitTransfer req), r =>
      match r.result with
      | .ok record => .settled l tokens req.claimName record
      | .error _ => .broken
    | .commitEnd _, _ => .committed
    | _, _ => .committing l tokens
  | .settled l tokens n record =>
    match a with
    | .applyRecord _ _ => .committing (l.see n) tokens
    | _ => .settled l tokens n record
  | .broken =>
    match a with
    | .fail _ _ => .rolling
    | _ => .broken
  | .rolling => .rolling
  | .committed => .committed

/-- The actions of a call on handoff `h` that only this phase allows. -/
def own (h : Nat) (p : Phase) (a : Act) : Prop :=
  match p, a with
  | .plain, .drainBegin h' | .plain, .transferBegin h' _ | .plain, .commitBegin h' => h' = h
  | .draining, .fail h' _ | .draining, .drainEnd h' | .draining, .transferStart h' _ => h' = h
  | .reserving l, .call (.prepareTransfer req) =>
    req.toGeneration = l.successor ∧ ∃ names, l.names = some names ∧ req.claimName ∈ names
  | .reserving l, .transferEnd h' => h' = h ∧ l.Covers fun _ => True
  | .reserved _ n record, .applyRecord n' record' => n' = n ∧ record' = record
  | .applied _ n t, .setToken h' n' t' => h' = h ∧ n' = n ∧ t' = t
  | .committing l tokens, .call (.commitTransfer req) =>
    req.toGeneration = l.successor ∧ tokens.lookup req.claimName = some req.expectedToken
  | .committing l tokens, .commitEnd h' => h' = h ∧ l.Covers fun n => tokens.lookup n ≠ none
  | .committing _ _, .dropToken h' _ => h' = h
  | .settled _ _ n record, .applyRecord n' record' => n' = n ∧ record' = record
  | .broken, .fail h' _ => h' = h
  | .rolling, .dropToken h' _ => h' = h
  | _, _ => False

end Phase

/-- A thread with respect to handoffs. -/
inductive Stage where
  | outside
  | inside (h : Nat) (p : Phase)

namespace Stage

def allows : Stage → Act → Prop
  | .outside, a => a.beside = true ∨ ∃ n record, a = .applyRecord n record
  | .inside h p, a => a.beside = true ∨ p.own h a

def after (g : Stage) (a : Act) (r : a.Answer) : Stage :=
  match g with
  | .outside => .outside
  | .inside h p => .inside h (p.after h a r)

def monitor : Monitor Act Act.Answer Stage := { allows, after }

/-- The stage of a call at its start. -/
def init (t : Task) : Stage :=
  match t.handoff with
  | some h => .inside h .plain
  | none => .outside

/-- How a call ends: one on a handoff returns, a `Commit` with nil only if it is committed. -/
def Ends (t : Task) (g : Stage) (x : Result ⊕ Task) : Prop :=
  match t.handoff with
  | none => ∀ t', x = .inr t' → t'.handoff = none
  | some h => (∃ r, x = .inl r) ∧ (∃ p, g = .inside h p ∧
      (p = .plain ∨ p = .draining ∨ p = .rolling ∨ p = .committed)) ∧
    (t = .commit h → x = .inl (.error none) → g = .inside h .committed)

end Stage

/-! ## Actions that leave a call where it is -/

/-- The actions that no phase follows. -/
def Act.quiet : Act → Bool
  | .handoffClaims _ | .currentLeaseToken _ => false
  | a => a.beside

theorem Act.quiet_beside {a : Act} (h : a.quiet = true) : a.beside = true := by
  cases a <;> first | exact h | rfl

theorem Act.beside_cases {a : Act} (h : a.beside = true) :
    a.quiet = true ∨ (∃ h', a = .handoffClaims h') ∨ ∃ n, a = .currentLeaseToken n := by
  cases a with
  | handoffClaims h' => exact .inr (.inl ⟨h', rfl⟩)
  | currentLeaseToken n => exact .inr (.inr ⟨n, rfl⟩)
  | _ => exact .inl h

theorem Phase.after_quiet {a : Act} (ha : a.quiet = true) (h : Nat) (p : Phase) (r : a.Answer) :
    p.after h a r = p := by
  cases a with
  | call op => cases op <;> first | (cases p <;> rfl) | cases ha
  | _ => first | (cases p <;> rfl) | cases ha

variable {cfg : Config} {h : Nat} {p : Phase} {α β : Type}

/-- A program of quiet actions. -/
abbrev Quiet (prog : Code.P α) : Prop := Uses (fun a => a.quiet = true) prog

/-- A program that rolls entries of handoff `h` back. -/
abbrev RollsBack (h : Nat) (prog : Code.P α) : Prop :=
  Uses (fun a => a.beside = true ∨ ∃ n, a = .dropToken h n) prog

/-- A program that any thread may run. -/
abbrev Outsider (prog : Code.P α) : Prop :=
  Uses (fun a => a.beside = true ∨ ∃ n record, a = .applyRecord n record) prog

/-- The actions that grant a claim to nobody. -/
def Act.grantless : Act → Bool
  | .call (.acquireClaim _) | .call (.commitTransfer _) => false
  | _ => true

/-- What any thread may do that grants no claim. -/
def Act.tame (a : Act) : Bool := a.beside && a.grantless

/-- A program of quiet actions that grants no claim. -/
abbrev Mild (prog : Code.P α) : Prop := Uses (fun a => (a.quiet && a.grantless) = true) prog

variable {a : Act} {prog : Code.P α}

theorem Act.tame_beside (h : a.tame = true) : a.beside = true := (Bool.and_eq_true_iff.mp h).1

/-- A rollback of handoff `h` that grants no claim. -/
abbrev Undoes (h : Nat) (prog : Code.P α) : Prop :=
  Uses (fun a => a.tame = true ∨ ∃ n, a = .dropToken h n) prog

/-- A program that any thread may run and that grants no claim. -/
abbrev Loose (prog : Code.P α) : Prop :=
  Uses (fun a => a.tame = true ∨ ∃ n record, a = .applyRecord n record) prog

theorem Mild.quiet (hu : Mild prog) : Quiet prog :=
  hu.mono fun _ ha => (Bool.and_eq_true_iff.mp ha).1

theorem Mild.tame (hu : Mild prog) : Uses (fun a => a.tame = true) prog :=
  hu.mono fun _ ha =>
    Bool.and_eq_true_iff.mpr ((Bool.and_eq_true_iff.mp ha).imp_left Act.quiet_beside)

theorem Mild.undoes (hu : Mild prog) : Undoes h prog := hu.tame.mono fun _ => .inl

theorem Mild.loose (hu : Mild prog) : Loose prog := hu.tame.mono fun _ => .inl

theorem Undoes.rollsBack (hu : Undoes h prog) : RollsBack h prog :=
  hu.mono fun _ ha => ha.imp_left Act.tame_beside

theorem Loose.outsider (hu : Loose prog) : Outsider prog :=
  hu.mono fun _ ha => ha.imp_left Act.tame_beside

theorem Quiet.beside (hu : Quiet prog) : Uses (fun a => a.beside = true) prog :=
  hu.mono fun _ ha => Act.quiet_beside ha

theorem Quiet.outsider (hu : Quiet prog) : Outsider prog :=
  hu.beside.mono fun _ ha => .inl ha

/-- A program of actions that the phase allows and that leave it as it is. -/
theorem obeys_stay {S : Act → Prop} (hu : Uses S prog)
    (hS : ∀ a, S a → (a.beside = true ∨ p.own h a) ∧ ∀ r, p.after h a r = p) :
    Obeys Stage.monitor (fun g _ => g = .inside h p) prog (.inside h p) := by
  induction prog with
  | ret x => rfl
  | act a k ih =>
    obtain ⟨ha, hk⟩ := hu
    refine ⟨(hS a ha).1, fun r => ?_⟩
    have hstay : Stage.monitor.after (.inside h p) a r = .inside h p :=
      congrArg (Stage.inside h) ((hS a ha).2 r)
    rw [hstay]
    exact ih r (hk r)

theorem obeys_quiet (hu : Quiet prog) :
    Obeys Stage.monitor (fun g _ => g = .inside h p) prog (.inside h p) :=
  obeys_stay hu fun _ ha => ⟨.inl (Act.quiet_beside ha), Phase.after_quiet ha h p⟩

/-- The rollback of a call: whatever is dropped, the call is done for. -/
theorem obeys_rolling (hu : RollsBack h prog) :
    Obeys Stage.monitor (fun g _ => g = .inside h .rolling) prog (.inside h .rolling) := by
  refine obeys_stay hu fun a ha => ⟨?_, fun _ => rfl⟩
  rcases ha with hb | ⟨n, rfl⟩
  · exact .inl hb
  · exact .inr rfl

theorem obeys_outside (hu : Outsider prog) :
    Obeys Stage.monitor (fun g _ => g = .outside) prog .outside := by
  induction prog with
  | ret x => rfl
  | act a k ih => exact ⟨hu.1, fun r => ih r (hu.2 r)⟩

/-! ## Programs of such actions -/

theorem Quiet.perform (ha : a.quiet = true) : Quiet (Code.perform a) := ⟨ha, fun _ => trivial⟩

variable {op name : String} {mk : OperationID → Memory.Op}

theorem Quiet.request (hop : ∀ id, (Act.call (mk id)).quiet = true) :
    Quiet (Code.request op name mk) :=
  .step rfl fun id => perform (hop id)

theorem Mild.neutral (hu : Uses (fun a => a.neutral) prog) : Mild prog :=
  hu.mono fun a ha => by
    cases a with
    | call op => cases op <;> first | rfl | cases ha
    | _ => first | rfl | cases ha

theorem Mild.perform (ha : (a.quiet && a.grantless) = true) : Mild (Code.perform a) :=
  ⟨ha, fun _ => trivial⟩

theorem Mild.request (hop : ∀ id, ((Act.call (mk id)).quiet && (Act.call (mk id)).grantless) = true) :
    Mild (Code.request op name mk) := .step rfl fun id => perform (hop id)

theorem setState_mild (target : GenerationState) (reason : TransitionReason) :
    Mild (Code.setState target reason) := .neutral (setState_uses target reason)

theorem startRenewal_mild (name : String) : Mild (Code.startRenewal name) := by
  refine .step rfl fun marked => ?_
  cases marked with
  | false => trivial
  | true => exact .step rfl fun _ => trivial

theorem restoreLease_mild (name : String) (record : ClaimRecord) :
    Mild (Code.restoreLease name record) := by
  refine .step rfl fun _ => .step rfl fun start => ?_
  cases start with
  | true => exact startRenewal_mild name
  | false => trivial

theorem startTimeoutWatcher_mild (h : Nat) : Mild (Code.startTimeoutWatcher h) := by
  refine .step rfl fun starts => ?_
  cases starts with
  | false => trivial
  | true => exact .step rfl fun _ => trivial

theorem abortClaims_mild (successor : String) (tokens : Tokens) (names : List String) :
    Mild (Code.abortClaims cfg successor tokens names) := by
  induction names with
  | nil => trivial
  | cons name rest ih =>
    unfold Code.abortClaims
    cases tokens.lookup name with
    | none => exact ih
    | some token =>
      refine (Mild.request fun _ => rfl).bind fun reply => ?_
      cases reply.result with
      | error err => exact .step rfl fun _ => trivial
      | ok record =>
        exact (restoreLease_mild name record).bind fun _ => .step rfl fun _ => ih

/-- The actions of `Abort` are those of any thread. -/
theorem abort_tame (h : Nat) : Uses (fun a => a.tame = true) (Code.abort cfg h) := by
  refine (Mild.perform rfl).tame.bind fun entry => ?_
  cases entry with
  | returned err => trivial
  | started successor tokens =>
    refine Uses.bind ⟨rfl, fun _ => trivial⟩ fun names =>
      (abortClaims_mild successor tokens names).tame.bind fun err => ?_
    cases err with
    | some err => trivial
    | none =>
      refine Mild.tame ?_
      exact (setState_mild _ _).bind fun _ => .step rfl fun _ => trivial

/-! ## The calls on a handoff -/

section

variable {Q : Stage → α → Prop}

/-- A quiet program in front of another one. -/
theorem Quiet.then {prog : Code.P β} {k : β → Code.P α} (hu : Quiet prog)
    (hk : ∀ x, Obeys Stage.monitor Q (k x) (.inside h p)) :
    Obeys Stage.monitor Q (prog >>= k) (.inside h p) :=
  (obeys_quiet hu).bind fun g x hg => by
    subst hg
    exact hk x

/-- An action of the call itself. -/
theorem obeys_own {a : Act} {k : a.Answer → Code.P α} (ha : p.own h a)
    (hk : ∀ r, Obeys Stage.monitor Q (k r) (.inside h (p.after h a r))) :
    Obeys Stage.monitor Q (Code.perform a >>= k) (.inside h p) := ⟨.inr ha, hk⟩

/-- An action that any thread may perform. -/
theorem obeys_beside {a : Act} {k : a.Answer → Code.P α} (ha : a.beside = true)
    (hk : ∀ r, Obeys Stage.monitor Q (k r) (.inside h (p.after h a r))) :
    Obeys Stage.monitor Q (Code.perform a >>= k) (.inside h p) := ⟨.inl ha, hk⟩

end

theorem obeys_at {Q : Stage → α → Prop} {p p' : Phase} {prog : Code.P α} (hp : p = p')
    (hk : Obeys Stage.monitor Q prog (.inside h p')) : Obeys Stage.monitor Q prog (.inside h p) := by
  rw [hp]
  exact hk

theorem drainClaims_stage (names : List String) :
    Obeys Stage.monitor (fun g _ => g = .inside h .draining) (Code.drainClaims h names)
      (.inside h .draining) := by
  induction names with
  | nil => rfl
  | cons name rest ih =>
    refine (Quiet.perform rfl).then fun _ => (Quiet.perform rfl).then fun err => ?_
    cases err with
    | none => exact ih
    | some err =>
      refine (Quiet.perform rfl).then fun _ => ?_
      refine Obeys.bind (obeys_own rfl fun _ => obeys_quiet (Quiet.perform rfl)) fun g _ hg => ?_
      exact hg

/-- `Drain` returns where it started if its first section refuses it. -/
theorem drain_stage :
    Obeys Stage.monitor (fun g r => g = .inside h .draining ∨ (g = .inside h .plain ∧ r ≠ none))
      (Code.drain h) (.inside h .plain) := by
  refine obeys_own rfl fun r => ?_
  cases r with
  | some err => exact .inr ⟨rfl, by simp⟩
  | none =>
    refine (setState_mild _ _).quiet.then fun _ => (Quiet.perform rfl).then fun _ => ?_
    refine obeys_beside rfl fun names => (drainClaims_stage names).bind fun g r hg => ?_
    subst hg
    cases r with
    | some err => exact .inl rfl
    | none =>
      refine obeys_own rfl fun _ => (Quiet.perform rfl).then fun _ => ?_
      exact .inl rfl

/-- The failure of a backend call: the status is set, and then everything is rolled back. -/
theorem fail_stage {Q : Stage → α → Prop} {err : Err} {k : Unit → Code.P α}
    (hk : Obeys Stage.monitor Q (k ()) (.inside h .rolling)) :
    Obeys Stage.monitor Q (Code.fail h err >>= k) (.inside h .broken) := by
  refine obeys_own rfl fun _ => ?_
  exact (Quiet.perform rfl).then fun _ => hk

theorem abortLoop_undoes (successor : String) (tokens : Tokens) (names : List String) :
    Undoes h (Code.abortLoop cfg h successor tokens names) := by
  induction names with
  | nil => trivial
  | cons name rest ih =>
    unfold Code.abortLoop
    cases tokens.lookup name with
    | none => exact ih
    | some token =>
      refine (Mild.request fun _ => rfl).undoes.bind fun reply => ?_
      cases reply.result with
      | error err => exact (Mild.perform rfl).undoes.bind fun _ => ih
      | ok record =>
        refine (restoreLease_mild name record).undoes.bind fun _ => ?_
        exact Uses.bind ⟨.inr ⟨name, rfl⟩, fun _ => trivial⟩ fun _ => ih

theorem abortTokens_undoes (successor : String) (tokens : Tokens) :
    Undoes h (Code.abortTokens cfg h successor tokens) := by
  unfold Code.abortTokens
  split
  · trivial
  · exact Uses.bind ⟨.inl rfl, fun _ => trivial⟩ fun names =>
      abortLoop_undoes successor tokens names

theorem abortPrepared_undoes : Undoes h (Code.abortPrepared cfg h) :=
  Uses.bind ⟨.inl rfl, fun _ => trivial⟩ fun x => abortTokens_undoes x.1 x.2

theorem abortUncommitted_undoes (committed : List String) :
    Undoes h (Code.abortUncommitted cfg h committed) :=
  Uses.bind ⟨.inl rfl, fun _ => trivial⟩ fun x => abortTokens_undoes x.1 _

section

variable {l : Loop} {tokens : Tokens} {reply : Memory.Reply}

variable {req : TransferRequest} {err : Err} {record : ClaimRecord}

theorem Phase.after_prepare_error (hr : reply.result = .error err) :
    (reserving l).after h (.call (.prepareTransfer req)) reply = .broken := by
  simp only [after, hr]

theorem Phase.after_prepare_ok (hr : reply.result = .ok record) :
    (reserving l).after h (.call (.prepareTransfer req)) reply =
      .reserved l req.claimName record := by
  simp only [after, hr]

theorem Phase.after_commit_error {req : CommitRequest} (hr : reply.result = .error err) :
    (committing l tokens).after h (.call (.commitTransfer req)) reply = .broken := by
  simp only [after, hr]

theorem Phase.after_commit_ok {req : CommitRequest} (hr : reply.result = .ok record) :
    (committing l tokens).after h (.call (.commitTransfer req)) reply =
      .settled l tokens req.claimName record := by
  simp only [after, hr]

end

variable {l : Loop} {names rest : List String}

theorem Loop.seen_cons {name : String} {S : String → Prop}
    (h : ∀ n ∈ names, S n → n ∈ l.seen ∨ n ∈ name :: rest) :
    ∀ n ∈ names, S n → n ∈ (l.see name).seen ∨ n ∈ rest := by
  intro n hn hS
  rcases h n hn hS with hseen | hrest
  · exact .inl (List.mem_cons_of_mem name hseen)
  · rcases List.mem_cons.mp hrest with rfl | hrest
    · exact .inl List.mem_cons_self
    · exact .inr hrest

/-- The loop of `Transfer`, when the claims before `rest` are seen. -/
theorem transferClaims_stage (hnames : l.names = some names) (hsub : ∀ n ∈ rest, n ∈ names)
    (hseen : ∀ n ∈ names, True → n ∈ l.seen ∨ n ∈ rest) :
    Obeys Stage.monitor (fun g r => (r ≠ none ∧ g = .inside h .rolling) ∨
        (r = none ∧ ∃ l', g = .inside h (.reserving l') ∧ l'.Covers fun _ => True))
      (Code.transferClaims cfg h l.successor rest) (.inside h (.reserving l)) := by
  induction rest generalizing l with
  | nil =>
    refine .inr ⟨rfl, l, rfl, names, hnames, fun n hn _ => ?_⟩
    simpa using hseen n hn trivial
  | cons name rest ih =>
    have hnext := ih (l := l.see name) hnames (fun n hn => hsub n (List.mem_cons_of_mem name hn))
      (Loop.seen_cons hseen)
    refine obeys_beside rfl fun token => ?_
    cases token with
    | none => exact hnext
    | some token =>
      refine (Quiet.perform rfl).then fun id =>
        obeys_own ⟨rfl, names, hnames, hsub name List.mem_cons_self⟩ fun reply => ?_
      generalize hr : reply.result = result
      cases result with
      | error err =>
        refine obeys_at (Phase.after_prepare_error hr) ?_
        refine fail_stage ((startTimeoutWatcher_mild h).quiet.then fun _ => ?_)
        refine (obeys_rolling abortPrepared_undoes.rollsBack).bind fun g _ hg => ?_
        subst hg
        exact (Quiet.perform rfl).then fun _ => .inl ⟨by simp, rfl⟩
      | ok record =>
        refine obeys_at (Phase.after_prepare_ok hr) ?_
        refine obeys_own ⟨rfl, rfl⟩ fun _ => obeys_own ⟨rfl, rfl, rfl⟩ fun _ => ?_
        exact (Quiet.perform rfl).then fun _ => hnext

/-- `Transfer` once its fields are set. -/
theorem transferRun_stage (successor : String) :
    Obeys Stage.monitor (fun g r => g = .inside h .plain ∨ (r ≠ none ∧ g = .inside h .rolling))
      (Code.transferRun cfg h successor) (.inside h (.reserving { successor })) := by
  refine (setState_mild _ _).quiet.then fun _ => obeys_beside rfl fun names => ?_
  refine obeys_at (congrArg Phase.reserving (if_pos rfl)) ?_
  refine (transferClaims_stage (l := Loop.read { successor } names) rfl (fun _ hn => hn)
    fun n hn _ => .inr hn).bind fun g r hg => ?_
  rcases hg with ⟨hr, rfl⟩ | ⟨rfl, l', rfl, hcovers⟩
  · cases r with
    | none => exact absurd rfl hr
    | some err => exact .inr ⟨by simp, rfl⟩
  · refine obeys_own ⟨rfl, hcovers⟩ fun _ => ?_
    exact (startTimeoutWatcher_mild h).quiet.then fun _ => .inl rfl

theorem transfer_stage (successor : String) :
    Obeys Stage.monitor
      (fun g _ => g = .inside h .plain ∨ g = .inside h .draining ∨ g = .inside h .rolling)
      (Code.transfer cfg h successor) (.inside h .plain) := by
  have hrun : Obeys Stage.monitor
      (fun g _ => g = .inside h .plain ∨ g = .inside h .draining ∨ g = .inside h .rolling)
      (Code.transferRun cfg h successor) (.inside h (.reserving { successor })) := by
    refine (transferRun_stage successor).mono ?_
    rintro g r (hg | ⟨-, hg⟩)
    · exact .inl hg
    · exact .inr (.inr hg)
  unfold Code.transfer
  split
  · exact .inl rfl
  refine obeys_own rfl fun r => ?_
  cases r with
  | refused err => exact .inl rfl
  | started => exact hrun
  | needsDrain =>
    refine drain_stage.bind fun g r hg => ?_
    cases r with
    | some err =>
      rcases hg with hg | ⟨hg, -⟩
      · exact .inr (.inl hg)
      · exact .inl hg
    | none =>
      obtain rfl : g = .inside h .draining := hg.resolve_right fun hg => hg.2 rfl
      exact obeys_own rfl fun _ => hrun

/-- The loop of `Commit`, when the claims with an entry before `rest` are seen. -/
theorem commitClaims_stage {tokens : Tokens} {committed : List String}
    (hnames : l.names = some names)
    (hseen : ∀ n ∈ names, tokens.lookup n ≠ none → n ∈ l.seen ∨ n ∈ rest) :
    Obeys Stage.monitor (fun g r => (r ≠ none ∧ g = .inside h .rolling) ∨
        (r = none ∧ ∃ l', g = .inside h (.committing l' tokens) ∧
          l'.Covers fun n => tokens.lookup n ≠ none))
      (Code.commitClaims cfg h l.successor tokens committed rest)
      (.inside h (.committing l tokens)) := by
  induction rest generalizing l committed with
  | nil =>
    refine .inr ⟨rfl, l, rfl, names, hnames, fun n hn htoken => ?_⟩
    simpa using hseen n hn htoken
  | cons name rest ih =>
    unfold Code.commitClaims
    cases htoken : tokens.lookup name with
    | none =>
      refine ih hnames fun n hn hentry => (hseen n hn hentry).imp_right fun hrest => ?_
      exact (List.mem_cons.mp hrest).resolve_left fun h => hentry (by rw [h, htoken])
    | some token =>
      refine (Quiet.perform rfl).then fun id => obeys_own ⟨rfl, htoken⟩ fun reply => ?_
      generalize hr : reply.result = result
      cases result with
      | error err =>
        refine obeys_at (Phase.after_commit_error hr) ?_
        refine fail_stage ((startTimeoutWatcher_mild h).quiet.then fun _ => ?_)
        refine (obeys_rolling (abortUncommitted_undoes committed).rollsBack).bind fun g _ hg => ?_
        exact .inl ⟨by simp, hg⟩
      | ok record =>
        refine obeys_at (Phase.after_commit_ok hr) ?_
        refine obeys_own ⟨rfl, rfl⟩ fun _ => (Quiet.perform rfl).then fun _ => ?_
        refine obeys_own rfl fun _ => (Quiet.perform rfl).then fun _ => ?_
        exact ih (l := l.see name) hnames (Loop.seen_cons hseen)

/-- `Commit` returns nil only when it is committed. -/
theorem commit_stage :
    Obeys Stage.monitor (fun g r => (r ≠ none ∧ (g = .inside h .plain ∨ g = .inside h .rolling)) ∨
      g = .inside h .committed) (Code.commit cfg h) (.inside h .plain) := by
  refine obeys_own rfl fun r => ?_
  rcases r with (- | err) | ⟨successor, tokens⟩
  · exact .inr rfl
  · exact .inl ⟨by simp, .inl rfl⟩
  refine obeys_beside rfl fun names => ?_
  refine obeys_at (congrArg (Phase.committing · tokens) (if_pos rfl)) ?_
  refine (commitClaims_stage (l := Loop.read { successor } names) rfl
    fun n hn _ => .inr hn).bind fun g r hg => ?_
  rcases hg with ⟨hr, rfl⟩ | ⟨rfl, l', rfl, hcovers⟩
  · cases r with
    | none => exact absurd rfl hr
    | some err => exact .inl ⟨by simp, .inr rfl⟩
  · refine obeys_own ⟨rfl, hcovers⟩ fun _ => (setState_mild _ _).quiet.then fun _ => ?_
    exact (Quiet.perform rfl).then fun _ => .inr rfl

theorem abort_stage :
    Obeys Stage.monitor (fun g _ => g = .inside h .plain) (Code.abort cfg h) (.inside h .plain) := by
  refine obeys_stay ((abort_tame h).mono fun _ => Act.tame_beside) fun a ha => ⟨.inl ha, fun r => ?_⟩
  cases a with
  | call op => cases op <;> rfl
  | _ => first | rfl | cases ha

/-! ## The other calls -/

theorem installLease_quiet (name : String) (record : ClaimRecord) :
    Quiet (Code.installLease cfg name record) := by
  refine .step rfl fun r => ?_
  cases r with
  | closed => exact (Quiet.request fun _ => rfl).bind fun _ => trivial
  | valid l | notOwned => trivial
  | installed l =>
    exact (setState_mild _ _).quiet.bind fun _ => .step rfl fun _ =>
      (startRenewal_mild name).quiet.bind fun _ => trivial

theorem tryAcquire_quiet (name : String) : Quiet (Code.tryAcquire cfg name) := by
  refine .step rfl fun entry => ?_
  cases entry with
  | closed | valid l | busy => trivial
  | entered =>
    refine Uses.bind ?_ fun _ => .step rfl fun _ => trivial
    refine (Quiet.request fun _ => rfl).bind fun reply => ?_
    cases reply.result with
    | error err => trivial
    | ok record => exact installLease_quiet name record

theorem waitRound_quiet (name : String) : Quiet (Code.waitRound cfg name) := by
  refine (tryAcquire_quiet name).bind fun r => ?_
  cases r with
  | ok l => trivial
  | error err =>
    simp only
    split
    · trivial
    refine .step rfl fun l => ?_
    cases l with
    | some l => trivial
    | none =>
      refine .step rfl fun wake => ?_
      cases wake <;> trivial

theorem release_mild (name : String) : Mild (Code.release cfg name) := by
  refine .step rfl fun l => ?_
  cases l with
  | none => trivial
  | some l =>
    refine (Mild.request fun _ => rfl).bind fun reply => ?_
    cases reply.err with
    | some err => trivial
    | none => exact .step rfl fun _ => .step rfl fun _ => trivial

theorem prepareHandoff_mild : Mild Code.prepareHandoff := by
  refine .step rfl fun r => ?_
  cases r with
  | some err => trivial
  | none =>
    refine .step rfl fun h => (setState_mild _ _).bind fun r => ?_
    cases r with
    | some err => trivial
    | none => exact .step rfl fun _ => trivial

theorem closeClaims_mild (names : List String) : Mild (Code.closeClaims names) := by
  induction names with
  | nil => trivial
  | cons name rest ih => exact .step rfl fun _ => .step rfl fun _ => ih

theorem close_mild : Mild Code.close := by
  refine .step rfl fun r => ?_
  cases r with
  | none => trivial
  | some names =>
    exact (closeClaims_mild names).bind fun _ => (setState_mild _ _).bind fun _ =>
      .step rfl fun _ => Mild.perform rfl

theorem renew_loose (name : String) : Loose (Code.renew cfg name) := by
  refine Uses.bind ⟨.inl rfl, fun _ => trivial⟩ fun token => ?_
  cases token with
  | none => trivial
  | some token =>
    refine (Mild.perform rfl).loose.bind fun own =>
      (Mild.request fun _ => rfl).loose.bind fun reply => ?_
    cases reply.result with
    | error err =>
      refine Mild.loose ?_
      exact .step rfl fun _ => .step rfl fun _ => trivial
    | ok record =>
      refine Uses.bind ⟨.inr ⟨name, record, rfl⟩, fun _ => trivial⟩ fun _ => Mild.loose ?_
      exact .step rfl fun _ => .step rfl fun _ =>
        .step rfl fun _ => trivial

theorem renewalRound_loose (name : String) : Loose (Code.renewalRound cfg name) := by
  refine Uses.bind ((Mild.perform rfl).loose.bind fun fired => ?_) fun goOn => ?_
  · cases fired with
    | true => exact renew_loose name
    | false => trivial
  · cases goOn with
    | true => trivial
    | false => exact (Mild.perform rfl).loose.bind fun _ => trivial

theorem watcher_loose (h : Nat) : Loose (Code.watcher cfg h) := by
  refine (Mild.perform rfl).loose.bind fun fired => ?_
  cases fired with
  | false => trivial
  | true =>
    refine (Mild.perform rfl).loose.bind fun aborts => ?_
    cases aborts with
    | false => trivial
    | true => exact ((abort_tame h).mono fun _ => .inl).bind fun _ => trivial

/-- **The program of every task obeys the monitor.** -/
theorem task_stage (cfg : Config) (t : Task) :
    Obeys Stage.monitor (Stage.Ends t) (Code.task cfg t) (Stage.init t) := by
  -- Calls that are not on a handoff: only where they continue matters.
  have other {α : Type} {t : Task} {prog : Code.P α} {k : α → Code.P (Result ⊕ Task)}
      (ht : t.handoff = none) (hu : Outsider prog)
      (hk : ∀ x, ∃ y, k x = .ret y ∧ ∀ t', y = .inr t' → t'.handoff = none) :
      Obeys Stage.monitor (Stage.Ends t) (prog >>= k) .outside := by
    refine (obeys_outside hu).bind fun g x hg => ?_
    obtain ⟨y, hy, hjump⟩ := hk x
    rw [hy]
    show Stage.Ends t g y
    unfold Stage.Ends
    rw [ht]
    exact hjump
  have jumps {t : Task} (ht : t.handoff = none) :
      ∀ t'', (.inr t : Result ⊕ Task) = .inr t'' → t''.handoff = none := by
    rintro _ ⟨⟩
    exact ht
  -- Calls on a handoff: how they return.
  have own {h : Nat} {t : Task} {prog : Code.P (Option Err)} (ht : t.handoff = some h)
      (hu : Obeys Stage.monitor (fun g r => (∃ p, g = .inside h p ∧
          (p = .plain ∨ p = .draining ∨ p = .rolling ∨ p = .committed)) ∧
        (t = .commit h → r = none → g = .inside h .committed)) prog (.inside h .plain)) :
      Obeys Stage.monitor (Stage.Ends t) (Code.returns prog) (.inside h .plain) := by
    refine hu.bind fun g r hg => ?_
    show Stage.Ends t g (.inl (.error r))
    unfold Stage.Ends
    rw [ht]
    refine ⟨⟨_, rfl⟩, hg.1, fun htask hr => hg.2 htask ?_⟩
    cases hr
    rfl
  cases t with
  | claim name => exact other rfl (Mild.neutral (claim_uses name)).quiet.outsider fun _ => ⟨_, rfl, by simp⟩
  | tryAcquire name => exact other rfl (tryAcquire_quiet name).outsider fun _ => ⟨_, rfl, by simp⟩
  | release name => exact other rfl (release_mild name).quiet.outsider fun _ => ⟨_, rfl, by simp⟩
  | prepareHandoff => exact other rfl prepareHandoff_mild.quiet.outsider fun _ => ⟨_, rfl, by simp⟩
  | close => exact other rfl close_mild.quiet.outsider fun _ => ⟨_, rfl, by simp⟩
  | watcher h => exact other rfl (watcher_loose h).outsider fun _ => ⟨_, rfl, by simp⟩
  | waitForOwnership name =>
    refine other rfl (Quiet.perform rfl).outsider fun r => ?_
    cases r with
    | some err => exact ⟨_, rfl, by simp⟩
    | none => exact ⟨_, rfl, jumps rfl⟩
  | waitRound name =>
    refine other rfl (waitRound_quiet name).outsider fun r => ?_
    cases r with
    | some r => exact ⟨_, rfl, by simp⟩
    | none => exact ⟨_, rfl, jumps rfl⟩
  | run worker =>
    refine other rfl (Mild.neutral (runBegin_uses worker)).quiet.outsider fun r => ?_
    cases r with
    | some err => exact ⟨_, rfl, by simp⟩
    | none => exact ⟨_, rfl, jumps rfl⟩
  | runRound name =>
    refine other rfl (waitRound_quiet name).outsider fun r => ?_
    rcases r with - | (err | l)
    · exact ⟨_, rfl, jumps rfl⟩
    · exact ⟨_, rfl, by simp⟩
    · exact ⟨_, rfl, by simp⟩
  | renewal name =>
    refine other rfl (renewalRound_loose name).outsider fun goOn => ?_
    cases goOn with
    | true => exact ⟨_, rfl, jumps rfl⟩
    | false => exact ⟨_, rfl, by simp⟩
  | drain h =>
    refine own rfl (drain_stage.mono fun g r hg => ⟨?_, by simp⟩)
    rcases hg with rfl | ⟨rfl, -⟩
    · exact ⟨_, rfl, .inr (.inl rfl)⟩
    · exact ⟨_, rfl, .inl rfl⟩
  | transfer h s =>
    refine own rfl ((transfer_stage s).mono fun g r hg => ⟨?_, by simp⟩)
    rcases hg with rfl | rfl | rfl
    · exact ⟨_, rfl, .inl rfl⟩
    · exact ⟨_, rfl, .inr (.inl rfl)⟩
    · exact ⟨_, rfl, .inr (.inr (.inl rfl))⟩
  | commit h =>
    refine own rfl (commit_stage.mono ?_)
    rintro g r (⟨hr, rfl | rfl⟩ | rfl)
    · exact ⟨⟨_, rfl, .inl rfl⟩, fun _ hnone => absurd hnone hr⟩
    · exact ⟨⟨_, rfl, .inr (.inr (.inl rfl))⟩, fun _ hnone => absurd hnone hr⟩
    · exact ⟨⟨_, rfl, .inr (.inr (.inr rfl))⟩, fun _ _ => rfl⟩
  | abort h =>
    refine own rfl (abort_stage.mono ?_)
    rintro g r rfl
    exact ⟨⟨_, rfl, .inl rfl⟩, by simp⟩

end Coord
end ShiftLock
