import ShiftLock.Runtime.Code

/-!
# What reaches the audit store of a runtime

`AuditCommand` passes the outcome of a command to `Append` as its operation ID, and all hook calls of
a workflow run pass the operation ID of the run. `Append` refuses an operation ID that it has seen, so
a call leaves its record exactly if the ID it passes is empty or new, and a refused record of
`AuditCommand` puts the runtime into quarantine when the settings say so.

The monitor `trail` follows the threads of commands and workflow runs: they set the quarantine only
right after a refused record of `auditAction`.
-/

namespace ShiftLock.Runtime

open Conc
open Conc.Prog (Obeys Monitor)
open Json (utf8)

/-- A refused record of `auditAction` puts the runtime into quarantine. -/
def Setup.quarantines (S : Setup) : Bool := S.sec.auditFailClosed && S.sec.quarantineOnTamper

/-- The calls of commands and the runs of workflows. -/
def Task.records : Task → Bool
  | .invoke _ | .workflow _ _ _ => true
  | _ => false

/-- What is known of a thread. -/
inductive Trail where
  /-- It is neither a command nor a workflow run. -/
  | other
  | going
  /-- The last record of `auditAction` was refused. -/
  | refused
  deriving DecidableEq, Repr

/-- The actions of a thread. -/
def Trail.allows (S : Setup) : Trail → Act → Prop
  | .other, _ => True
  | g, .quarantine => g = .refused ∧ S.quarantines = true
  | _, .coord _ | _, .capability _ | _, .election _ _ => False
  | _, _ => True

/-- What is known after an action. -/
def Trail.after : Trail → (a : Act) → a.Answer → Trail
  | .other, _, _ => .other
  | _, .append x, err => if err.isSome ∧ x.actor.type = utf8 "principal" then .refused else .going
  | _, _, _ => .going

def trail (S : Setup) : Monitor Act Act.Answer Trail where
  allows := Trail.allows S
  after := Trail.after

/-- What is known of a thread at the start of a task. -/
def Task.trail (t : Task) : Trail := if t.records then .going else .other

/-! ## Programs -/

variable {S : Setup} {α β : Type}

theorem obeys_other (p : P α) : Obeys (trail S) (fun g _ => g = .other) p .other := by
  induction p with
  | ret x => rfl
  | act a k ih => exact ⟨trivial, ih⟩

/-- The program sets the quarantine only where the monitor allows it. -/
def Quiet (S : Setup) (p : P α) : Prop :=
  ∀ g, g ≠ .other → Obeys (trail S) (fun g' _ => g' ≠ .other) p g

theorem Quiet.ret (x : α) : Quiet S (pure x : P α) := fun _ hg => hg

theorem Quiet.bind {p : P α} {f : α → P β} (h : Quiet S p) (hf : ∀ x, Quiet S (f x)) :
    Quiet S (p >>= f) := fun g hg => (h g hg).bind fun g' x hg' => hf x g' hg'

/-- The actions that do not matter to the audit. -/
def Act.plain : Act → Bool
  | .quarantine | .coord _ | .capability _ | .election _ _ => false
  | _ => true

theorem Trail.after_ne_other {g : Trail} (hg : g ≠ .other) (a : Act) (r : a.Answer) :
    g.after a r ≠ .other := by
  cases g with
  | other => exact absurd rfl hg
  | going | refused => cases a <;> simp only [after] <;> (try split) <;> simp

theorem Quiet.perform {a : Act} (ha : a.plain = true) : Quiet S (perform a) := by
  intro g hg
  refine ⟨?_, fun r => Trail.after_ne_other hg a r⟩
  cases g with
  | other => trivial
  | going | refused => cases a <;> trivial

theorem auditActionIn_quiet (depth : Nat) {x : Audit.Entry} (hx : x.actor.type = utf8 "principal") :
    Quiet S (auditActionIn S depth x) := by
  induction depth generalizing x with
  | zero => exact Quiet.perform rfl
  | succ depth ih =>
    unfold auditActionIn
    split
    · intro g hg
      refine Obeys.perform ?_ fun err => ?_
      · cases g <;> trivial
      have hafter := Trail.after_ne_other hg (.append x) err
      by_cases hfail : err.isSome ∧ S.sec.auditFailClosed ∧ S.sec.quarantineOnTamper
      · rw [if_pos hfail]
        -- the record was refused: the quarantine is allowed
        have hrefused : (trail S).after g (.append x) err = .refused := by
          cases g with
          | other => exact absurd rfl hg
          | going | refused => exact if_pos ⟨hfail.1, hx⟩
        rw [hrefused]
        refine Obeys.perform ⟨rfl, ?_⟩ fun _ => ih rfl _ (by simp [trail, Trail.after])
        simp [Setup.quarantines, hfail.2.1, hfail.2.2]
      · rw [if_neg hfail]
        exact hafter
    · exact Quiet.ret _

theorem auditAction_quiet (actor action resource result : String) (operationID : OperationID) :
    Quiet S (auditAction S actor action resource result operationID) := auditActionIn_quiet _ rfl

theorem tryAutoEnter_quiet (trigger reason : String) : Quiet S (tryAutoEnter trigger reason) := by
  refine (Quiet.perform rfl).bind fun enters => ?_
  cases enters with
  | true => exact Quiet.perform rfl
  | false => exact Quiet.ret _

theorem noteUnauthorized_quiet : Quiet S (noteUnauthorized S) := by
  unfold noteUnauthorized
  split
  · refine (Quiet.perform rfl).bind fun n => ?_
    split
    · exact (tryAutoEnter_quiet _ _).bind fun _ => auditAction_quiet _ _ _ _ _
    · exact Quiet.ret _
  · exact Quiet.ret _

theorem auditCommand_quiet (actor name decision outcome : String) :
    Quiet S (auditCommand S actor name decision outcome) := by
  refine (auditAction_quiet _ _ _ _ _).bind fun _ => ?_
  split
  · exact noteUnauthorized_quiet
  · exact Quiet.ret _

theorem checkControlGates_quiet (op : Gated) : Quiet S (checkControlGates S op) := by
  refine (Quiet.perform rfl).bind fun flags => ?_
  split
  · exact Quiet.ret _
  split
  · exact Quiet.ret _
  split
  · refine (Quiet.perform rfl).bind fun st => ?_
    split
    · refine (Quiet.perform rfl).bind fun st => ?_
      split <;> exact Quiet.ret _
    · exact Quiet.ret _
  · exact Quiet.ret _

theorem unauthorized_quiet (err : Error) : Quiet S (unauthorized S err) :=
  noteUnauthorized_quiet.bind fun _ => Quiet.ret _

theorem authorizeCommand_quiet (actor name permission : String) :
    Quiet S (authorizeCommand S actor name permission) := by
  refine (checkControlGates_quiet _).bind fun err => ?_
  cases err with
  | some err => exact unauthorized_quiet err
  | none =>
    simp only
    split
    · refine (Quiet.perform rfl).bind fun decision => ?_
      cases decision with
      | deny | requireApproval | requireQuorum => exact unauthorized_quiet _
      | allow | allowWithConstraints => exact Quiet.ret _
    · split
      · exact unauthorized_quiet _
      · exact Quiet.ret _

theorem onCommand_quiet (a : Command.Act) : Quiet S (onCommand S a) := by
  cases a with
  | accept req | handle req deadline | remember key res => exact Quiet.perform rfl
  | authorize actor name permission => exact (authorizeCommand_quiet _ _ _).bind fun _ => Quiet.ret _
  | audit actor name decision outcome => exact (auditCommand_quiet _ _ _ _).bind fun _ => Quiet.ret _

theorem invoke_quiet (req : Command.Request) : Quiet S (invoke S req) := by
  intro g hg
  have hinterp := Obeys.interp (M := trail S)
    (fun _ g a hg _ => onCommand_quiet a g hg)
    (Prog.obeys_free (Command.invoke req)) hg
  exact hinterp.mono fun g' _ h => by
    obtain ⟨_, hg', -⟩ := h
    exact hg'

theorem workflowRun_quiet (name : String) (operationID : OperationID) (calls : List Hook) :
    Quiet S (workflowRun S name operationID calls) := by
  induction calls with
  | nil => exact Quiet.ret _
  | cons h rest ih =>
    unfold workflowRun
    split
    · exact (Quiet.perform rfl).bind fun _ => ih
    · exact ih

/-- The program of every task obeys the monitor; commands and workflow runs do not continue with
another task. -/
theorem code_trail (t : Task) :
    Obeys (trail S) (fun g x => g ≠ .other → ∀ t', x ≠ .inr t') (code S t) t.trail := by
  have hother : t.records = false →
      Obeys (trail S) (fun g x => g ≠ .other → ∀ t', x ≠ .inr t') (code S t) t.trail := by
    intro h
    rw [Task.trail, h]
    exact (obeys_other _).mono fun g _ hg hne => absurd hg hne
  cases t with
  | invoke req =>
    refine (invoke_quiet req _ (by simp [Task.trail, Task.records])).bind fun g r _ => ?_
    exact fun _ t' h => by cases h
  | workflow name operationID calls =>
    refine (workflowRun_quiet name operationID calls _
      (by simp [Task.trail, Task.records])).bind fun g r _ => ?_
    exact fun _ t' h => by cases h
  | _ => exact hother rfl

/-! ## Runs -/

section

variable (S : Setup) (w : World) (xs : Schedule)

/-- What is known of the threads after `i` moves. -/
abbrev trailAt (i : Nat) : Nat → Option Trail := (system S).watchAt (trail S) Task.trail w xs i

/-- The move appends a record of `auditAction` only with an operation ID that is empty or new, or the
settings do not turn a refused record into a quarantine. -/
def recordKept : Conc.Config Act Act.Answer World Task Result → Conc.Move Env Outside Task → Bool :=
  Conc.Config.onAct fun _ a _ w =>
    match a with
    | .append x => w.audit.Fresh x.operationID ∨ x.actor.type ≠ utf8 "principal" ∨ S.quarantines = false
    | _ => true

end

theorem exec_quarantined {a : Act} (ha : a ≠ .quarantine) (e : Env) (w : World) :
    (exec S a e w).1.quarantined = w.quarantined := by
  cases a <;> first | rfl | exact absurd rfl ha

theorem exec_path (a : Act) (e : Env) (w : World) :
    (exec S a e w).1.audit.path = w.audit.path := by
  cases a <;> first | rfl | exact Audit.Store.append_path

theorem outside_same (x : Outside) (w : World) :
    (outside x w).quarantined = w.quarantined ∧ (outside x w).audit = w.audit := by
  cases x <;> exact ⟨rfl, rfl⟩

/-- A runtime of commands and workflow runs that have not brought it into quarantine. -/
structure Calm (S : Setup) (w : World) (G : Nat → Option Trail) : Prop where
  open_ : w.quarantined = false
  path : w.audit.path = ""
  threads : ∀ u g, G u = some g → g ≠ .other ∧ (g = .refused → S.quarantines = false)

section

variable {w w' : World} {G : Nat → Option Trail} {u : Nat} {g : Trail}

theorem Calm.update (h : Calm S w G) (hq : w'.quarantined = w.quarantined)
    (hpath : w'.audit.path = w.audit.path) (hg : g ≠ .other ∧ (g = .refused → S.quarantines = false)) :
    Calm S w' (Function.update G u (some g)) := by
  refine ⟨hq.trans h.open_, hpath.trans h.path, fun v g' hv => ?_⟩
  rcases update_eq_some.mp hv with ⟨-, rfl⟩ | ⟨-, hv⟩
  · exact hg
  · exact h.threads v g' hv

/-- What is known of the thread after an action. -/
theorem Calm.after (hc : S.hashes.Works) (h : Calm S w G) (hgu : G u = some g) {a : Act} (e : Env)
    (ha : (trail S).allows g a)
    (hkept : ∀ x, a = .append x → w.audit.Fresh x.operationID ∨ x.actor.type ≠ utf8 "principal" ∨
      S.quarantines = false) :
    a ≠ .quarantine ∧ (g.after a (exec S a e w).2 = .refused → S.quarantines = false) := by
  obtain ⟨hg, hrefused⟩ := h.threads u g hgu
  constructor
  · rintro rfl
    have hboth : g = .refused ∧ S.quarantines = true := by
      cases g with
      | other => exact absurd rfl hg
      | going | refused => exact ha
    rw [hrefused hboth.1] at hboth
    cases hboth.2
  · intro hafter
    by_cases happend : ∃ x, a = .append x
    · obtain ⟨x, rfl⟩ := happend
      -- the store has refused the record, so its operation ID was taken
      have hfailed : ((exec S (.append x) e w).2 : Option Audit.AppendError).isSome ∧
          x.actor.type = utf8 "principal" := by
        by_contra hnot
        cases g <;> simp [Trail.after, hnot] at hafter hg
      rcases hkept x rfl with hfresh | htype | hset
      · rw [exec, (Audit.Store.append_err hc h.path).mpr hfresh] at hfailed
        cases hfailed.1
      · exact absurd hfailed.2 htype
      · exact hset
    · exfalso
      cases g with
      | other => exact hg rfl
      | going | refused => cases a <;> first | cases hafter | exact happend ⟨_, rfl⟩

end

/-- **Along a run** of commands and workflow runs whose records are kept, there is no quarantine. -/
theorem calm_at (hc : S.hashes.Works) {w : World} {xs : Schedule} (hpath : w.audit.path = "")
    (hopen : w.quarantined = false) (hxs : ∀ t, .start t ∈ xs → t.records = true)
    (hkept : Run.Meets (system S).step (recordKept S) { shared := w } xs = true)
    {i : Nat} (hi : i ≤ xs.length) : Calm S (stateAt S w xs i).shared (trailAt S w xs i) := by
  refine Run.along (J := fun i => Calm S (stateAt S w xs i).shared (trailAt S w xs i))
    ⟨hopen, hpath, fun u g h => by cases h⟩ (fun i x hx ih => ?_) hi
  have hmoved : Moved (system S) (trail S) Task.trail
      (fun _ g x => g ≠ .other → ∀ t', x ≠ .inr t') (stateAt S w xs i) (trailAt S w xs i) x
      (stateAt S w xs (i + 1)) (trailAt S w xs (i + 1)) := Sys.moved code_trail hx
  have hmeets := Run.meets_getElem hkept hx
  generalize stateAt S w xs (i + 1) = c' at hmoved ⊢
  generalize trailAt S w xs (i + 1) = G' at hmoved ⊢
  cases hmoved with
  | idle => exact ih
  | env x =>
    obtain ⟨hq, haudit⟩ := outside_same x (stateAt S w xs i).shared
    exact ⟨hq.trans ih.open_, (congrArg _ haudit).trans ih.path, ih.threads⟩
  | start t =>
    have ht : t.trail = .going := by simp [Task.trail, hxs t (List.mem_of_getElem? hx)]
    exact ih.update rfl rfl (by simp [ht])
  | jump u e th g t hth hp hg hQ => exact absurd rfl (hQ (ih.threads u g hg).1 t)
  | act u e th g a k hth hp hg ha hf =>
    have hfresh := Conc.Config.of_onAct hmeets hth hp
    obtain ⟨hq, hrefused⟩ := ih.after hc hg e ha (fun x hx => by subst hx; simpa using hfresh)
    exact ih.update (exec_quarantined hq e _) (exec_path a e _)
      ⟨Trail.after_ne_other (ih.threads u g hg).1 a _, hrefused⟩
  | fork u e th g a k t hth hp hg ha hf =>
    -- commands and workflow runs start no goroutine
    exfalso
    have hg' := (ih.threads u g hg).1
    cases g with
    | other => exact hg' rfl
    | going | refused => cases a <;> first | cases hf | exact False.elim ha

/-- An `AuditCommand` call begins with the `Append` of its entry. -/
theorem auditCommand_appends (haudited : S.audited = true) (actor name decision outcome : String) :
    ∃ k, auditCommand S actor name decision outcome =
      .act (.append (principalEntry actor ("command." ++ name) name decision outcome)) k := by
  unfold auditCommand auditAction auditActionIn
  rw [if_pos haudited]
  exact ⟨_, rfl⟩

/-- A hook call is the `Append` of its entry. -/
theorem workflowRun_appends (haudited : S.audited = true) (name : String)
    (operationID : OperationID) (h : Hook) (rest : List Hook) :
    workflowRun S name operationID (h :: rest) =
      .act (.append (h.entry name operationID)) fun _ => workflowRun S name operationID rest := by
  conv_lhs => unfold workflowRun
  rw [if_pos haudited]
  rfl

/-! ### A sample run -/

/-- SHA-256 over the canonical JSON of the records of the sample run. -/
def sampleDigest : UInt64 → Digest
  | 1 => ⟨[156, 155, 162, 111, 88, 119, 36, 30, 52, 196, 82, 149, 28, 154, 138, 40,
    85, 57, 160, 117, 69, 191, 176, 119, 203, 240, 30, 226, 92, 53, 43, 171], rfl⟩
  | 2 => ⟨[91, 248, 122, 104, 117, 93, 138, 246, 98, 73, 178, 179, 31, 103, 199, 162,
    57, 117, 5, 6, 237, 227, 29, 164, 247, 50, 219, 36, 47, 44, 49, 58], rfl⟩
  | 3 => ⟨[240, 68, 204, 91, 97, 134, 32, 52, 81, 41, 6, 164, 186, 135, 136, 40,
    4, 239, 243, 154, 28, 219, 144, 63, 210, 243, 181, 184, 88, 163, 152, 200], rfl⟩
  | _ => zeroDigest

/-- A runtime with a security profile, over the in-memory backend. -/
def Setup.sample (profile : SecurityProfile) : Setup where
  cfg := Config.sample "g1"
  sec := expandSecurityProfile profile
  guarded := true
  audited := true
  lockable := true
  capable := true
  hashes := { hash := fun b => .ok (sampleDigest b.sequence), sign := fun _ => .ok ([], "") }
  signatures := { sign := fun _ => .error "no signer", verify := fun _ _ _ => false }
  text := fun _ => "error"
  depth := 1

/-- Every clock reads the Unix epoch and the handler of a command succeeds. -/
def Env.sample : Env where
  now := unixEpoch
  outcome := .returned { ok := true } none

/-- A command of the sample run. -/
def deploySpec : Command.Spec where
  name := "deploy"
  permission := "ops.deploy"
  maxBodyBytes := 32768
  deadline := 10 * second

/-- An operator allows and registers a command, which is invoked; then a workflow of one step runs. -/
def sampleRun : Schedule :=
  [.env (.rule { name := "allow-ops", permission := "ops.*", decision := .allow }),
    .env (.register deploySpec)] ++
  alone 2 (.invoke { name := "deploy", actorID := "ops" }) Env.sample 6 ++
  alone 9 (.workflow "nightly" "run-1" [.runStart, .stepOk "build", .runEnd .completed])
    Env.sample 3

/-- **Audit.** In every run of commands and workflows, an `Append` leaves exactly one record with its
actor, action and result exactly if its operation ID is empty or new, and a runtime that keeps the
records of its commands, or whose settings do not ask for it, does not get into quarantine. -/
theorem audit_events_kept (S : Setup) (hc : S.hashes.Works) (haudited : S.audited = true) (w : World)
    (hpath : w.audit.path = "") (xs : Schedule) (hxs : ∀ t, .start t ∈ xs → t.records = true) :
    (∀ actor name decision outcome, ∃ k, auditCommand S actor name decision outcome =
      .act (.append (principalEntry actor ("command." ++ name) name decision outcome)) k) ∧
    (∀ name operationID h rest, workflowRun S name operationID (h :: rest) =
      .act (.append (h.entry name operationID)) fun _ => workflowRun S name operationID rest) ∧
    (∀ i u e th x k, xs[i]? = some (.run u e) → (stateAt S w xs i).threads u = some th →
      th.prog = .act (.append x) k →
      ((stateAt S w xs i).shared.audit.Fresh x.operationID ↔
        ∃ r, (stateAt S w xs (i + 1)).shared.audit.records =
            (stateAt S w xs i).shared.audit.records ++ [r] ∧
          r.actor = x.actor ∧ r.action = x.action ∧ r.result = x.result)) ∧
    (w.quarantined = false →
      Run.Meets (system S).step (recordKept S) { shared := w } xs = true →
      ∀ i, i ≤ xs.length → (stateAt S w xs i).shared.quarantined = false) := by
  refine ⟨auditCommand_appends haudited, workflowRun_appends haudited, ?_, ?_⟩
  · intro i u e th x k hx hth hp
    have hnext : (stateAt S w xs (i + 1)).shared = (exec S (.append x) e (stateAt S w xs i).shared).1 := by
      rw [stateAt, Sys.stateAt, Run.stateAt_succ hx]
      exact (system S).step_act_shared hth hp e
    rw [hnext]
    generalize (stateAt S w xs i).shared = w'
    constructor
    · intro h
      obtain ⟨r, hof, hrecords⟩ := (Audit.Store.append_iff hc).mp h
      exact ⟨r, hrecords, hof.actor, hof.action, hof.result⟩
    · rintro ⟨r, hrecords, -⟩
      by_contra h
      obtain ⟨seq, happend⟩ := Audit.Store.append_duplicate S.hashes e.now e.file h
      have hsame : (exec S (.append x) e w').1.audit.records = w'.audit.records := by
        simp only [exec, happend]
      rw [hsame] at hrecords
      simp at hrecords
  · intro hopen hkept i hi
    exact (calm_at hc hpath hopen hxs hkept hi).open_

theorem sampleRun_records (t : Task) (ht : .start t ∈ sampleRun) : t.records = true := by
  simp only [sampleRun, alone, List.mem_append, List.mem_cons, List.mem_replicate,
    List.not_mem_nil, reduceCtorEq, Conc.Move.start.injEq, or_false, false_or, and_false] at ht
  rcases ht with rfl | rfl <;> rfl

theorem audit_events_kept_hardened :
    let S := Setup.sample .hardened
    let w := World.new S unixEpoch Memory.new
    (∀ i, i ≤ sampleRun.length → (stateAt S w sampleRun i).shared.quarantined = false) ∧
      (stateAt S w sampleRun sampleRun.length).shared.audit.records.length = 2 :=
  ⟨(audit_events_kept (Setup.sample .hardened) ⟨fun _ => ⟨_, rfl⟩, fun _ => ⟨_, rfl⟩⟩ rfl _ rfl sampleRun
      sampleRun_records).2.2.2 rfl (by decide +kernel), by decide +kernel⟩

/-- Two commands that are allowed and succeed, with a workflow run between them: two of the three hook
calls and the second command leave no record, and the runtime is in quarantine. -/
theorem audit_event_lost :
    let S := Setup.sample .hardened
    let xs := sampleRun ++ alone 13 (.invoke { name := "deploy", actorID := "ops" }) Env.sample 8
    let s := stateAt S (World.new S unixEpoch Memory.new) xs xs.length
    s.shared.audit.records.map (fun r => (r.actor.id, r.action, r.result)) =
        [(utf8 "ops", utf8 "command.deploy", utf8 "allow"),
          (utf8 "workflow", utf8 "workflow.run", utf8 "start"),
          (utf8 "system", utf8 "quarantine.enter", utf8 "ok")] ∧
      s.shared.quarantined = true ∧
      (∀ u ∈ [2, 13], (s.threads u).bind (·.result) = some (.command { ok := true } none)) := by
  decide +kernel

end ShiftLock.Runtime
