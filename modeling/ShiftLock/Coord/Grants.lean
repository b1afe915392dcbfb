import ShiftLock.Handoff.Stage
import ShiftLock.Memory.Holder

/-!
# Which calls acquire a claim

Only `TryAcquire`, `WaitForOwnership` and `Run` call `AcquireClaim`. What the other calls and the
goroutines of a coordinator do keeps the owners of all claims, or gives them to others
(`task_keeps_owner`, `exec_owner_ne`).
-/

namespace ShiftLock

/-- The calls that acquire a claim, and the rounds of their loops. -/
def Task.grants : Task → Bool
  | .tryAcquire _ | .waitForOwnership _ | .waitRound _ | .run _ | .runRound _ => true
  | _ => false

namespace Coord

open Conc.Prog (Uses Sat)

/-- The generation does not become the owner of a claim by the action. -/
def Act.keepsOwner (genID : String) : Act → Bool
  | .call op => op.keepsOwner genID
  | _ => true

theorem exec_owner_ne {cfg : Config} {a : Act} {genID : String} (ha : a.keepsOwner genID = true)
    (hgen : genID ≠ "") (e : Env) {w : World} {m : String}
    (hm : (w.backend.recordOf m).ownerGeneration ≠ genID) :
    ((exec cfg a e w).1.backend.recordOf m).ownerGeneration ≠ genID := by
  cases a with
  | call op =>
    cases hfault : e.fault with
    | some err =>
      simp only [exec, hfault]
      exact hm
    | none =>
      simp only [exec, hfault]
      exact (w.backend.locked_effect e.call op).owner_ne_of_keeps ha hgen hm
  | _ => exact hm

/-- A program by which the generation does not become the owner of a claim. -/
abbrev KeepsOwner (cfg : Config) {α : Type} (p : Code.P α) : Prop :=
  Uses (fun a => a.keepsOwner cfg.generationID = true) p

variable {cfg : Config} {α : Type}

theorem Act.keepsOwner_of_tame {a : Act} (h : a.tame = true) (genID : String) :
    a.keepsOwner genID = true := by
  cases a with
  | call op => cases op <;> first | rfl | cases h
  | _ => rfl

theorem KeepsOwner.mild {p : Code.P α} (h : Mild p) : KeepsOwner cfg p :=
  h.tame.mono fun _ ha => Act.keepsOwner_of_tame ha _

theorem KeepsOwner.loose {p : Code.P α} (h : Loose p) : KeepsOwner cfg p :=
  h.mono fun _ ha => by
    rcases ha with ha | ⟨n, record, rfl⟩
    · exact Act.keepsOwner_of_tame ha _
    · rfl

theorem KeepsOwner.undoes {h : Nat} {p : Code.P α} (hu : Undoes h p) : KeepsOwner cfg p :=
  hu.mono fun _ ha => by
    rcases ha with ha | ⟨n, rfl⟩
    · exact Act.keepsOwner_of_tame ha _
    · rfl

theorem KeepsOwner.perform {a : Act} (h : a.keepsOwner cfg.generationID = true) :
    KeepsOwner cfg (Code.perform a) := ⟨h, fun _ => trivial⟩

theorem KeepsOwner.request {op name : String} {mk : OperationID → Memory.Op}
    (h : ∀ id, (mk id).keepsOwner cfg.generationID = true) :
    KeepsOwner cfg (Code.request op name mk) :=
  .step rfl fun id => perform (h id)

/-! ## Handoffs -/

theorem fail_keeps_owner (h : Nat) (err : Err) : KeepsOwner cfg (Code.fail h err) :=
  .step rfl fun _ => KeepsOwner.perform rfl

theorem drain_keeps_owner (h : Nat) : KeepsOwner cfg (Code.drain h) := by
  have hclaims (names : List String) : KeepsOwner cfg (Code.drainClaims h names) := by
    induction names with
    | nil => trivial
    | cons name rest ih =>
      refine .step rfl fun _ => .step rfl fun err => ?_
      cases err with
      | some err =>
        exact .step rfl fun _ => (fail_keeps_owner h err).bind fun _ => trivial
      | none => exact ih
  refine .step rfl fun err => ?_
  cases err with
  | some err => trivial
  | none =>
    refine (KeepsOwner.mild (setState_mild _ _)).bind fun _ => .step rfl fun _ =>
      .step rfl fun names => (hclaims names).bind fun err => ?_
    cases err with
    | some err => trivial
    | none =>
      exact .step rfl fun _ => .step rfl fun _ => trivial

theorem transferClaims_keeps_owner (h : Nat) (successor : String) (names : List String) :
    KeepsOwner cfg (Code.transferClaims cfg h successor names) := by
  induction names with
  | nil => trivial
  | cons name rest ih =>
    refine .step rfl fun token => ?_
    cases token with
    | none => exact ih
    | some token =>
      refine (KeepsOwner.request fun _ => rfl).bind fun reply => ?_
      cases reply.result with
      | error err =>
        exact (fail_keeps_owner h err).bind fun _ =>
          (KeepsOwner.mild (startTimeoutWatcher_mild h)).bind fun _ =>
            (KeepsOwner.undoes abortPrepared_undoes).bind fun _ =>
              .step rfl fun _ => trivial
      | ok record =>
        exact .step rfl fun _ => .step rfl fun _ =>
          .step rfl fun _ => ih

theorem transfer_keeps_owner (h : Nat) (successor : String) :
    KeepsOwner cfg (Code.transfer cfg h successor) := by
  have hrun : KeepsOwner cfg (Code.transferRun cfg h successor) := by
    refine (KeepsOwner.mild (setState_mild _ _)).bind fun _ => .step rfl fun names =>
      (transferClaims_keeps_owner h successor names).bind fun err => ?_
    cases err with
    | some err => trivial
    | none =>
      exact .step rfl fun _ =>
        (KeepsOwner.mild (startTimeoutWatcher_mild h)).bind fun _ => trivial
  unfold Code.transfer
  split
  · trivial
  · refine .step rfl fun entry => ?_
    cases entry with
    | refused err => trivial
    | started => exact hrun
    | needsDrain =>
      refine (drain_keeps_owner h).bind fun err => ?_
      cases err with
      | some err => trivial
      | none => exact .step rfl fun _ => hrun

theorem commit_keeps_owner (h : Nat) : KeepsOwner cfg (Code.commit cfg h) := by
  have hclaims (successor : String) (tokens : Tokens) (committed names : List String) :
      KeepsOwner cfg (Code.commitClaims cfg h successor tokens committed names) := by
    induction names generalizing committed with
    | nil => trivial
    | cons name rest ih =>
      unfold Code.commitClaims
      cases tokens.lookup name with
      | none => exact ih committed
      | some token =>
        refine Uses.bind (KeepsOwner.request fun id => ?_) fun reply => ?_
        · -- the transfer is made in the name of the generation
          exact decide_eq_true rfl
        cases reply.result with
        | error err =>
          exact (fail_keeps_owner h err).bind fun _ =>
            (KeepsOwner.mild (startTimeoutWatcher_mild h)).bind fun _ =>
              (KeepsOwner.undoes (abortUncommitted_undoes _)).bind fun _ => trivial
        | ok record =>
          exact .step rfl fun _ => .step rfl fun _ =>
            .step rfl fun _ => .step rfl fun _ => ih _
  refine .step rfl fun entry => ?_
  cases entry with
  | returned err => trivial
  | started successor tokens =>
    refine .step rfl fun names => (hclaims _ _ _ names).bind fun err => ?_
    cases err with
    | some err => trivial
    | none =>
      exact .step rfl fun _ => (KeepsOwner.mild (setState_mild _ _)).bind fun _ =>
        .step rfl fun _ => trivial

/-! ## Tasks -/

/-- A call that does not acquire a claim, and the goroutines, do not make the generation an owner, and
they do not continue with a call that does. -/
theorem task_keeps_owner {t : Task} (ht : t.grants = false) :
    Sat (fun a => a.keepsOwner cfg.generationID = true)
      (fun x => ∀ t', x = .inr t' → t'.grants = false) (Code.task cfg t) := by
  have plain {α : Type} {p : Code.P α} {f : α → Result} (h : KeepsOwner cfg p) :
      Sat (fun a => a.keepsOwner cfg.generationID = true)
        (fun x => ∀ t', x = .inr t' → t'.grants = false)
        (do return .inl (f (← p)) : Code.P (Result ⊕ Task)) :=
    h.sat.bind fun _ _ t' h => by cases h
  cases t with
  | claim name => exact plain (.mild (.neutral (claim_uses name)))
  | release name => exact plain (.mild (release_mild name))
  | prepareHandoff => exact plain (.mild prepareHandoff_mild)
  | drain h => exact plain (drain_keeps_owner h)
  | transfer h s => exact plain (transfer_keeps_owner h s)
  | commit h => exact plain (commit_keeps_owner h)
  | abort h => exact plain ((abort_tame h).mono fun _ ha => Act.keepsOwner_of_tame ha _)
  | close => exact plain (.mild close_mild)
  | watcher h => exact plain (.loose (watcher_loose h))
  | renewal name =>
    refine (KeepsOwner.loose (renewalRound_loose name)).sat.bind fun again _ => ?_
    cases again with
    | true => exact fun t' h => by cases h; rfl
    | false => exact fun t' h => by cases h
  | tryAcquire name | waitForOwnership name | waitRound name | run worker | runRound name => cases ht

end Coord
end ShiftLock
