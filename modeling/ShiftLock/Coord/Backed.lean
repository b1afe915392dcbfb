import ShiftLock.Coord.Cluster

/-!
# A lease is backed by the store

A lease that `tryAcquire` installs comes from the record of an `AcquireClaim` of the same call. If
that request was executed, the store held the record at that moment (`lease_backed`). If it was
answered from the operation table, it need not have: operation IDs are built from a counter that
starts again with every process, so a restarted process with the same generation ID repeats the IDs
of its predecessor and is handed the predecessor's record (`lease_not_backed`).
-/

namespace ShiftLock.Cluster

open Conc
open Coord (Env Act Flow)

variable {cfgs : Nat → Config} {boot : Nat → Time}

abbrev State := Conc.Config (Nat × Act) (fun a => a.2.Answer) Cluster ClusterTask Result

/-- The configuration after `i` moves of a schedule. -/
abbrev stateAt (cfgs : Nat → Config) (boot : Nat → Time)
    (xs : List (Move Env (Nat × Outside) ClusterTask)) (i : Nat) : State :=
  (system cfgs boot).stateAt (initial cfgs boot) xs i

/-- The move sends no `AcquireClaim` with an operation ID that is in the table already. -/
def noRecall (c : State) : Move Env (Nat × Outside) ClusterTask → Bool
  | .run u _ =>
    match (c.threads u).bind Conc.Thread.next with
    | some (_, .call (.acquireClaim req)) => (c.shared.backend.ops req.operationID).isNone
    | _ => true
  | _ => true

/-- Generations keep their IDs. -/
theorem genID_eq (xs : List (Move Env (Nat × Outside) ClusterTask)) (i p : Nat) :
    ((stateAt cfgs boot xs i).shared.world p).genID = (cfgs p).generationID := by
  have hput : ∀ (c : Cluster) (q : Nat) (w : World), w.genID = (c.world q).genID →
      (∀ p, (c.world p).genID = (cfgs p).generationID) →
      ∀ p, ((c.put q w).world p).genID = (cfgs p).generationID := by
    intro c q w hw hc p
    by_cases hp : p = q
    · subst hp
      rw [← hc p, ← hw]
      simp [world, put, World.genID]
    · rw [← hc p]
      simp [world, put, World.genID, Function.update_of_ne hp]
  refine Sys.shared_invariant (S := system cfgs boot)
    (I := fun c => ∀ p, (c.world p).genID = (cfgs p).generationID) ?_ ?_ (fun _ => rfl) xs i p
  · exact fun a e c hc => hput c a.1 _ (Coord.exec_genID _ e _ a.2) hc
  · refine fun x c hc => hput c x.1 _ ?_ hc
    cases x.2 <;> rfl

/-- What the record of an executed `AcquireClaim` and an installed lease say about the store, at
some moment since `born`. -/
structure Backed (cfgs : Nat → Config) (boot : Nat → Time)
    (xs : List (Move Env (Nat × Outside) ClusterTask)) (i born : Nat) (g : Nat × Flow) : Prop where
  reply : ∀ req r record, g.2.reply = some (.acquireClaim req, r) → r.result = .ok record →
    ∃ j, born ≤ j ∧ j ≤ i ∧
      (stateAt cfgs boot xs j).shared.backend.recordOf req.claimName = record
  lease : ∀ name l, g.2.lease = some (name, l) → ∃ j, born ≤ j ∧ j ≤ i ∧
    ((stateAt cfgs boot xs j).shared.backend.recordOf name).ownerGeneration =
      (cfgs g.1).generationID ∧
    ((stateAt cfgs boot xs j).shared.backend.recordOf name).fencingToken = l.token

variable {xs : List (Move Env (Nat × Outside) ClusterTask)}

theorem Backed.succ {i born : Nat} {g : Nat × Flow} (h : Backed cfgs boot xs i born g) :
    Backed cfgs boot xs (i + 1) born g := by
  refine ⟨fun req r record hg hr => ?_, fun name l hg => ?_⟩
  · obtain ⟨j, h₁, h₂, h₃⟩ := h.reply req r record hg hr
    exact ⟨j, h₁, Nat.le_succ_of_le h₂, h₃⟩
  · obtain ⟨j, h₁, h₂, h₃⟩ := h.lease name l hg
    exact ⟨j, h₁, Nat.le_succ_of_le h₂, h₃⟩

/-- The record of an `AcquireClaim` that is executed now. -/
theorem exec_acquireClaim {cfg : Config} {e : Env} {w : World} {req : AcquireRequest}
    {record : ClaimRecord} (hops : w.backend.ops req.operationID = none)
    (hr : (Coord.exec cfg (.call (.acquireClaim req)) e w).2.result = .ok record) :
    (Coord.exec cfg (.call (.acquireClaim req)) e w).1.backend.recordOf req.claimName =
      record := by
  unfold Coord.exec at hr ⊢
  cases hf : e.fault with
  | some err => simp [hf] at hr
  | none =>
    simp only [hf] at hr ⊢
    have hrec : w.backend.recallOp req.operationID = none := by simp [Memory.Backend.recallOp, hops]
    exact Memory.Backend.recordOf_of_some
      (Memory.Backend.locked_confirmed rfl rfl hrec record
        hr).1

/-- The thread's own action. -/
theorem Backed.act {i born p : Nat} {e : Env} {f : Flow} {a : Act}
    (h : Backed cfgs boot xs i born (p, f)) (ha : Flow.allows (cfgs p) f a) (hborn : born ≤ i)
    (hrecall : ∀ req, a = .call (.acquireClaim req) →
      (stateAt cfgs boot xs i).shared.backend.ops req.operationID = none)
    (hs : (stateAt cfgs boot xs (i + 1)).shared =
      ((system cfgs boot).exec (p, a) e (stateAt cfgs boot xs i).shared).1) :
    Backed cfgs boot xs (i + 1) born
      (p, f.after a ((system cfgs boot).exec (p, a) e (stateAt cfgs boot xs i).shared).2) := by
  cases a with
  | call op =>
    refine ⟨fun req r record hg hr => ?_, h.succ.lease⟩
    cases hg
    refine ⟨i + 1, Nat.le_succ_of_le hborn, Nat.le_refl _, ?_⟩
    rw [hs]
    exact exec_acquireClaim (hrecall req rfl) hr
  | tryAcquireInstall name record =>
    have hlease : ∀ l, ((system cfgs boot).exec (p, .tryAcquireInstall name record) e
        (stateAt cfgs boot xs i).shared).2 = .installed l →
        ∃ j, born ≤ j ∧ j ≤ i + 1 ∧
          ((stateAt cfgs boot xs j).shared.backend.recordOf name).ownerGeneration =
            (cfgs p).generationID ∧
          ((stateAt cfgs boot xs j).shared.backend.recordOf name).fencingToken = l.token := by
      intro l hl
      obtain ⟨ho, ht, -⟩ := Claim.tryAcquireInstall_installed hl
      -- The record is that of an acquire of this call.
      obtain ⟨op, r, hf, hr, hop⟩ := ha.2 name record rfl
      cases op with
      | acquireClaim req =>
        obtain ⟨j, h₁, h₂, h₃⟩ := h.reply req r record hf hr
        rw [show req.claimName = name from hop] at h₃
        exact ⟨j, h₁, Nat.le_succ_of_le h₂, by rw [h₃, ho, genID_eq], by rw [h₃, ht]⟩
      | _ => cases hop
    generalize ((system cfgs boot).exec (p, .tryAcquireInstall name record) e
      (stateAt cfgs boot xs i).shared).2 = x at hlease
    cases x with
    | installed l =>
      refine ⟨fun _ _ _ hg => (by cases hg), fun name' l' hg => ?_⟩
      cases hg
      exact hlease l rfl
    | _ => exact ⟨fun _ _ _ hg => (by cases hg), h.succ.lease⟩
  | _ => exact ⟨fun _ _ _ hg => (by cases hg), h.succ.lease⟩

/-- **Leases are backed.** In every schedule of any coordinators that sends no `AcquireClaim` with an
operation ID that is in the table already: when a call returns a lease that it has installed, then
at some moment of the call the store had the generation as owner of the claim, with the token of
the lease. -/
theorem lease_backed (cfgs : Nat → Config) (boot : Nat → Time)
    (xs : List (Move Env (Nat × Outside) ClusterTask))
    (hxs : Run.Meets (system cfgs boot).step noRecall { shared := initial cfgs boot } xs)
    {i u : Nat} (hi : i ≤ xs.length)
    {th : Conc.Thread (Nat × Act) (fun a => a.2.Answer) ClusterTask Result}
    (hth : (stateAt cfgs boot xs i).threads u = some th) {l : Lease}
    (hres : th.result = some (.lease (.ok (.installed l)))) :
    ∃ name, th.task.2.bind Task.acquires = some name ∧ ∃ j, th.born ≤ j ∧ j ≤ i ∧
      ((stateAt cfgs boot xs j).shared.backend.recordOf name).ownerGeneration =
        (cfgs th.task.1).generationID ∧
      ((stateAt cfgs boot xs j).shared.backend.recordOf name).fencingToken = l.token := by
  obtain ⟨-, g, hg, hO⟩ := (Sys.tracks
    (system_flow cfgs boot) i).2 u th hth
  have hback : th.born ≤ i ∧ Backed cfgs boot xs i th.born g := by
    refine Sys.each_thread (P := fun i th g => th.born ≤ i ∧ Backed cfgs boot xs i th.born g)
      (system_flow cfgs boot) (fun i t => ?_) (fun i th g h => ?_) ?_ hi hth hg
    · exact ⟨Nat.le_succ i, ⟨fun _ _ _ h => (by cases h), fun _ _ h => by cases h⟩⟩
    · exact ⟨Nat.le_succ_of_le h.1, h.2.succ⟩
    · rintro i u e th ⟨p, f⟩ ⟨q, a⟩ k hx hth hp - ⟨rfl, ha⟩ ⟨hborn, h⟩ hs
      refine ⟨Nat.le_succ_of_le hborn, h.act ha hborn (fun req hreq => ?_) hs⟩
      have hno := Run.meets_getElem hxs hx
      have hnext := Thread.next_of_prog hp
      rw [show a = .call (.acquireClaim req) from hreq] at hnext
      simpa [noRecall, hth, hnext] using hno
  rw [Thread.prog_of_result hres] at hO
  obtain ⟨hp, hl⟩ := hO
  obtain ⟨name, hname, hlease⟩ := hl l rfl
  obtain ⟨j, h₁, h₂, h₃⟩ := hback.2.lease name l hlease
  rw [hp] at h₃
  exact ⟨name, hname, j, h₁, h₂, h₃⟩

/-! ## A restarted process -/

/-- Processes 0 and 1 have the same generation ID, process 2 has another one. -/
def restartConfigs (i : Nat) : Config := Config.sample (if i = 2 then "h" else "g")

/-- Process 0 acquires a claim and releases it, and process 2 acquires it. -/
def takeover : List (Move Env (Nat × Outside) ClusterTask) :=
  alone 0 (0, none) .atOne 5 ++ alone 6 (0, some (.tryAcquire "c")) .atOne 11 ++
    alone 18 (0, some (.release "c")) .atOne 5 ++
    alone 24 (2, some (.tryAcquire "c")) .atOne 11

/-- The claim belongs to process 2 with token 2 when process 1 is created. Its `TryAcquire` is
answered from the operation table with the first record of process 0, and it returns a lease with
token 1. -/
theorem lease_not_backed :
    let xs := takeover ++ alone 36 (1, none) .atOne 5 ++
      alone 42 (1, some (.tryAcquire "c")) .atOne 11
    let s := stateAt restartConfigs (fun _ => 1) xs
    ((s 54).threads 42).bind Thread.result = some (.lease (.ok (.installed ⟨0, 1⟩))) ∧
      ∀ j ≤ 54, 42 ≤ j → ((s j).shared.backend.recordOf "c").ownerGeneration = "h" ∧
        ((s j).shared.backend.recordOf "c").fencingToken = 2 := by
  decide +kernel

/-- The lease of process 2 is backed. -/
theorem lease_backed_takeover :
    let s := stateAt restartConfigs (fun _ => 1) takeover
    ∃ j ≤ 36, 24 ≤ j ∧ ((s j).shared.backend.recordOf "c").ownerGeneration = "h" ∧
      ((s j).shared.backend.recordOf "c").fencingToken = 2 := by
  intro s
  have hth : ∃ th, (s 36).threads 24 = some th ∧ th.born = 24 ∧ th.task = (2, some (.tryAcquire "c")) ∧
      th.result = some (.lease (.ok (.installed ⟨0, 2⟩))) := ⟨_, rfl, rfl, rfl, rfl⟩
  obtain ⟨th, hth, hborn, htask, hres⟩ := hth
  obtain ⟨name, hname, j, h₁, h₂, h₃⟩ :=
    lease_backed restartConfigs (fun _ => 1) takeover (by decide +kernel) (by decide) hth hres
  rw [htask] at hname h₃
  cases hname
  exact ⟨j, h₂, hborn ▸ h₁, h₃⟩

end ShiftLock.Cluster
