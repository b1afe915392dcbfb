import ShiftLock.Kubernetes.Backend
import ShiftLock.Memory.Fencing
import ShiftLock.Conc.Stamp

/-!
# Fencing under races on the Kubernetes backend

Every operation is a read-modify-write, some are two of them, and a missing lease is created in
a race. Two facts carry the proof, for any interleaving of any number of processes:

* what a process does by itself (`lastRead`): it updates a lease only with a new version of the one
  that it has read last, under the same `ResourceVersion`, and the new version is an `Epoch.Next`
  of the old one;
* what the server adds (`Conc.Snapshot`): if the `ResourceVersion` is still the stored one, then the
  lease that was read is the stored one.

So each step on the server is an `Epoch.Next` of the stored lease (`step_next`), and whole schedules
follow from `Epoch.Le` (`fencing_under_races`).
-/

namespace ShiftLock.Kubernetes

open Function
open Fence Conc
open Memory (Reply)

/-! ## Record updates -/

/-- The record of a lease is well formed. -/
def LeaseObject.WF (l : LeaseObject) : Prop := (recordFromLease l.name l).WF

def LeaseObject.epoch (l : LeaseObject) : Epoch String := (recordFromLease l.name l).epoch

/-- The new record is well formed if the old one is, and its epoch comes next. -/
def Advances (rec rec' : ClaimRecord) : Prop := rec.WF → rec'.WF ∧ Epoch.Next rec.epoch rec'.epoch

variable {rec : ClaimRecord}

theorem expired_advances : Advances rec (expired rec) := fun _ =>
  ⟨⟨by simp [expired], by simp [expired]⟩, .vacate _⟩

theorem renewed_advances : Advances rec (renewed rec) := fun h =>
  ⟨⟨h.owner, h.successor⟩, .keep _⟩

theorem granted_advances {now : Time} {gen : String} (hgen : gen ≠ "") :
    Advances rec (granted now gen rec) := fun _ =>
  ⟨⟨by simp [granted, hgen], by simp [granted]⟩, .grant _ gen⟩

theorem reservedFor_advances {fromGen toGen : String} (hfrom : fromGen ≠ "") (hto : toGen ≠ "")
    (ho : rec.ownerGeneration = fromGen) : Advances rec (reservedFor toGen rec) := by
  intro h
  have hp : rec.phase ≠ .unowned := fun hp => hfrom (ho ▸ h.owner.mp hp)
  refine ⟨⟨by simp [reservedFor, ho, hfrom], by simp [reservedFor, hto]⟩, ?_⟩
  have hepoch : (reservedFor toGen rec).epoch = rec.epoch := by
    simp [ClaimRecord.epoch, reservedFor, hp]
  rw [hepoch]
  exact .keep _

theorem committedTo_advances {now : Time} {gen : String} (hgen : gen ≠ "") :
    Advances rec (committedTo now gen rec) := fun _ =>
  ⟨⟨by simp [committedTo, hgen], by simp [committedTo]⟩, .grant _ gen⟩

theorem rolledBack_advances (hp : rec.phase = .reserved) : Advances rec (rolledBack rec) := by
  intro h
  have ho : rec.ownerGeneration ≠ "" := fun ho => by simp [h.owner.mpr ho] at hp
  refine ⟨⟨by simp [rolledBack, ho], by simp [rolledBack]⟩, ?_⟩
  have hepoch : (rolledBack rec).epoch = rec.epoch := by
    simp [ClaimRecord.epoch, rolledBack, hp]
  rw [hepoch]
  exact .keep _

theorem givenUp_advances : Advances rec (givenUp rec) := fun _ =>
  ⟨⟨by simp [givenUp], by simp [givenUp]⟩, .vacate _⟩

/-! ## One process by itself -/

/-- `l'` is a next version of `l`, to be written under the same resource version. -/
structure Derived (l l' : LeaseObject) : Prop where
  name : l'.name = l.name
  version : l'.resourceVersion = l.resourceVersion
  next : l.WF → l'.WF ∧ Epoch.Next l.epoch l'.epoch

theorem derived_applyRecord {claim : String} {l : LeaseObject} {rec : ClaimRecord}
    (h : Advances (recordFromLease claim l) rec) (now : Time) (ttl : Duration) :
    Derived l (applyRecord now ttl rec l) := by
  refine ⟨rfl, rfl, fun hl => ?_⟩
  obtain ⟨hwf, hnext⟩ := h ⟨hl.owner, hl.successor⟩
  exact ⟨⟨hwf.owner, hwf.successor⟩, hnext⟩

/-- The lease that the client has answered with last. -/
def answered (g : Option LeaseObject) : Except String LeaseObject → Option LeaseObject
  | .ok l => some l
  | .error _ => g

/-- A process updates only the lease that it has read last, and creates only empty ones. -/
def lastRead : Prog.Monitor Cmd Cmd.Answer (Option LeaseObject) where
  allows g
    | .update l' => ∃ l, g = some l ∧ Derived l l'
    | .create l' => ∃ name, l' = emptyLease name
    | _ => True
  after g
    | .get _, r => answered g r
    | .create _, r => answered g r
    | .update _, r => answered g r
    | _, _ => g

/-- The program obeys the monitor, whatever it returns. -/
abbrev Careful {α : Type} (p : Client α) (g : Option LeaseObject) : Prop :=
  Prog.Obeys lastRead (fun _ _ => True) p g

variable {proc : Nat} {id : OperationID} {name claim : String} {g : Option LeaseObject}

theorem storeOp_careful (r : Reply) : Careful (storeOp proc id r) g := by
  unfold storeOp
  split
  · trivial
  · exact ⟨trivial, fun _ => trivial⟩

theorem storeReply_careful (r r' : Reply) :
    Careful (do storeOp proc id r; return r') g :=
  (storeOp_careful r).bind fun _ _ _ => trivial

/-- The start of every operation. -/
theorem recallOp_careful {k : Option Reply → Client Reply}
    (hnone : ∀ g, Careful (k none) g)
    (hsome : ∀ g r, Careful (k (some r)) g := by exact fun _ _ => trivial) :
    Careful (recallOp proc id >>= k) g := by
  unfold recallOp
  split
  · exact hnone g
  · refine ⟨trivial, fun (r : Option Reply) => ?_⟩
    cases r with
    | none => exact hnone g
    | some r => exact hsome g r

variable {l : LeaseObject} {s : Store}

theorem writeRecord_careful {α : Type} {rec : ClaimRecord}
    (h : Advances (recordFromLease claim l) rec) (ttl : Duration)
    {k : Except String LeaseObject → Client α} (hk : ∀ v, Careful (k v) (answered (some l) v)) :
    Careful (writeRecord ttl rec l >>= k) (some l) :=
  ⟨trivial, fun now => ⟨⟨l, rfl, derived_applyRecord h now ttl⟩, hk⟩⟩

theorem finish_careful (v : Except String LeaseObject) (onError : String → Err) :
    Careful (finish proc id claim v onError) g := by
  cases v with
  | error text => trivial
  | ok l => exact storeReply_careful _ _

/-- What `getOrCreate` returns is what was read last. -/
def IsRead (claim : String) (g : Option LeaseObject)
    (v : Except String (LeaseObject × ClaimRecord)) : Prop :=
  ∀ l rec, v = .ok (l, rec) → g = some l ∧ rec = recordFromLease claim l

theorem expireLease_obeys (l : LeaseObject) :
    Prog.Obeys lastRead (IsRead claim) (expireLease claim l) (some l) := by
  have hread : IsRead claim (some l) (.ok (l, recordFromLease claim l)) := by
    rintro _ _ ⟨⟩
    exact ⟨rfl, rfl⟩
  unfold expireLease
  dsimp only
  split
  · exact hread
  refine ⟨trivial, fun (now : Time) => ?_⟩
  show Prog.Obeys _ _ (ite _ _ _) _
  split
  · refine ⟨trivial, fun now => ⟨⟨l, rfl, derived_applyRecord expired_advances now _⟩, ?_⟩⟩
    intro (v : Except String LeaseObject)
    cases v with
    | error text => rintro _ _ ⟨⟩
    | ok l' =>
      rintro _ _ ⟨⟩
      exact ⟨rfl, rfl⟩
  · exact hread

theorem getOrCreate_obeys :
    Prog.Obeys lastRead (IsRead claim) (getOrCreate name claim) g := by
  refine ⟨trivial, fun (got : Except String LeaseObject) => ?_⟩
  cases got with
  | ok l => exact expireLease_obeys l
  | error text =>
    refine ⟨⟨name, rfl⟩, fun (made : Except String LeaseObject) => ?_⟩
    cases made with
    | ok l => exact expireLease_obeys l
    | error text =>
      refine ⟨trivial, fun (again : Except String LeaseObject) => ?_⟩
      cases again with
      | ok l => exact expireLease_obeys l
      | error text => rintro _ _ ⟨⟩

theorem getOrCreate_careful {k : Except String (LeaseObject × ClaimRecord) → Client Reply}
    (hok : ∀ l, Careful (k (.ok (l, recordFromLease claim l))) (some l))
    (herr : ∀ g text, Careful (k (.error text)) g := by exact fun _ _ => trivial) :
    Careful (getOrCreate name claim >>= k) g := by
  refine getOrCreate_obeys.bind fun g v hv => ?_
  cases v with
  | error text => exact herr g text
  | ok p =>
    obtain ⟨l, rec⟩ := p
    obtain ⟨rfl, rfl⟩ := hv l rec rfl
    exact hok l

theorem acquireClaim_careful {req : AcquireRequest} (hgen : req.generationID ≠ "") :
    Careful (acquireClaim proc name req) none := by
  refine recallOp_careful fun g => ?_
  refine getOrCreate_careful fun l => ?_
  dsimp only
  split
  · split
    · exact writeRecord_careful renewed_advances _ fun v => finish_careful v _
    · exact storeReply_careful _ _
  split
  · exact storeReply_careful _ _
  · exact ⟨trivial, fun (now : Time) =>
      writeRecord_careful (granted_advances hgen) _ fun v => finish_careful v _⟩

theorem renewClaim_careful {req : RenewRequest} : Careful (renewClaim proc name req) none := by
  refine recallOp_careful fun g => ?_
  refine getOrCreate_careful fun l => ?_
  dsimp only
  split
  · trivial
  split
  · trivial
  split
  · trivial
  · exact writeRecord_careful renewed_advances _ fun v => finish_careful v _

theorem prepareTransfer_careful {req : TransferRequest} (hfrom : req.fromGeneration ≠ "")
    (hto : req.toGeneration ≠ "") : Careful (prepareTransfer proc name req) none := by
  refine recallOp_careful fun g => ?_
  refine getOrCreate_careful fun l => ?_
  dsimp only
  split
  · trivial
  rename_i ho
  split
  · trivial
  split
  · trivial
  split
  · exact storeReply_careful _ _
  · exact writeRecord_careful (reservedFor_advances hfrom hto (not_not.mp ho)) _
      fun v => finish_careful v _

theorem commitTransfer_careful {req : CommitRequest} (hto : req.toGeneration ≠ "") :
    Careful (commitTransfer proc name req) none := by
  refine recallOp_careful fun g => ?_
  refine getOrCreate_careful fun l => ?_
  dsimp only
  split
  · exact storeReply_careful _ _
  split
  · trivial
  split
  · trivial
  split
  · trivial
  split
  · exact storeReply_careful _ _
  · exact ⟨trivial, fun (now : Time) =>
      writeRecord_careful (committedTo_advances hto) _ fun v => finish_careful v _⟩

theorem abortTransfer_careful {req : AbortRequest} :
    Careful (abortTransfer proc name req) none := by
  refine recallOp_careful fun g => ?_
  refine getOrCreate_careful fun l => ?_
  dsimp only
  split
  · split
    · exact storeReply_careful _ _
    · trivial
  rename_i hp
  split
  · trivial
  split
  · trivial
  · exact writeRecord_careful (rolledBack_advances (not_not.mp hp)) _ fun v => finish_careful v _

theorem releaseClaim_careful {req : ReleaseRequest} :
    Careful (releaseClaim proc name req) none := by
  refine recallOp_careful fun g => ?_
  refine getOrCreate_careful fun l => ?_
  dsimp only
  split
  · trivial
  split
  · split
    · exact storeReply_careful _ _
    · trivial
  · exact writeRecord_careful givenUp_advances _ fun v => storeReply_careful _ _

theorem task_careful (pre : Nat → String) (t : Task) :
    Prog.Obeys lastRead (fun _ _ => True) ((processes pre).code t) none := by
  obtain ⟨proc, call, named⟩ := t
  suffices hcall : Careful (call.code proc (pre proc)) none from
    hcall.bind fun _ _ _ => trivial
  cases call with
  | acquireClaim req => exact acquireClaim_careful (named _ (by simp [Call.generations]))
  | renewClaim req => exact renewClaim_careful
  | prepareTransfer req =>
    exact prepareTransfer_careful (named _ (by simp [Call.generations]))
      (named _ (by simp [Call.generations]))
  | commitTransfer req => exact commitTransfer_careful (named _ (by simp [Call.generations]))
  | abortTransfer req => exact abortTransfer_careful
  | releaseClaim req => exact releaseClaim_careful
  | getClaim claim => exact getOrCreate_careful fun _ => trivial

/-! ## The server -/

/-- The leases are filed under their names, and their resource versions are not ahead. -/
structure Store.Filed (s : Store) : Prop where
  name : ∀ n l, s.leases n = some l → l.name = n
  stamped : Stamped LeaseObject.resourceVersion s.leases s.rv

/-- The lease is what the server had under its name at some time. -/
def Store.Read (s : Store) (l : LeaseObject) : Prop :=
  Snapshot LeaseObject.resourceVersion s.leases s.rv l.name l

/-- What a step does to the leases: nothing, or it writes one, with a new resource version. -/
theorem exec_leases (a : Cmd) (e : Env) (s : Store) :
    ((exec a e s).1.leases = s.leases ∧ (exec a e s).1.rv = s.rv) ∨
      ∃ l, (a = .create l ∧ s.leases l.name = none ∨
          a = .update l ∧ ∃ cur, s.leases l.name = some cur ∧
            (l.resourceVersion = none ∨ l.resourceVersion = cur.resourceVersion)) ∧
        (exec a e s).1.leases = (s.write l).leases ∧ (exec a e s).1.rv = s.rv + 1 := by
  -- A fault only decides whether the server has applied the call.
  have hcall : ∀ r : Store × Except String LeaseObject,
      (e.call s r).1 = s ∨ (e.call s r).1 = r.1 := by
    intro r
    unfold Env.call
    split
    · exact .inr rfl
    · dsimp only
      split
      · exact .inr rfl
      · exact .inl rfl
  cases a with
  | now | recalled proc id | store proc id r => exact .inl ⟨rfl, rfl⟩
  | get name => rcases hcall (s, s.get name) with h | h <;> exact .inl (by simp [exec, h])
  | create l =>
    rcases hcall (s.create l) with h | h
    · exact .inl (by simp [exec, h])
    · simp only [exec, h]
      unfold Store.create
      cases hl : s.leases l.name with
      | some cur => exact .inl ⟨rfl, rfl⟩
      | none => exact .inr ⟨l, .inl ⟨rfl, hl⟩, rfl, rfl⟩
  | update l =>
    rcases hcall (s.update l) with h | h
    · exact .inl (by simp [exec, h])
    · simp only [exec, h]
      unfold Store.update
      cases hl : s.leases l.name with
      | none => exact .inl ⟨rfl, rfl⟩
      | some cur =>
        dsimp only
        split
        · exact .inl ⟨rfl, rfl⟩
        · rename_i hv
          refine .inr ⟨l, .inr ⟨rfl, cur, hl, ?_⟩, rfl, rfl⟩
          by_cases hnone : l.resourceVersion = none
          · exact .inl hnone
          · exact .inr (not_not.mp fun hne => hv ⟨hnone, hne⟩)

theorem exec_filed (a : Cmd) (e : Env) (s : Store) (h : s.Filed) : (exec a e s).1.Filed := by
  rcases exec_leases a e s with ⟨hl, hrv⟩ | ⟨l, -, hl, hrv⟩
  · exact ⟨by rw [hl]; exact h.name, by rw [hl, hrv]; exact h.stamped⟩
  · refine ⟨fun n l' hn => ?_, by rw [hl, hrv]; exact h.stamped.write rfl⟩
    rw [hl] at hn
    by_cases heq : n = l.name
    · subst heq
      simp only [Store.write, update_self, Option.some.injEq] at hn
      rw [← hn]
    · simp only [Store.write, update_of_ne heq] at hn
      exact h.name n l' hn

/-- No step makes an old lease look current. -/
theorem exec_read (a : Cmd) (e : Env) (h : s.Read l) : (exec a e s).1.Read l := by
  unfold Store.Read
  rcases exec_leases a e s with ⟨hl, hrv⟩ | ⟨l', -, hl, hrv⟩
  · rw [hl, hrv]; exact h
  · rw [hl, hrv]; exact h.write rfl

theorem create_ok {l' : LeaseObject} (h : (s.create l).2 = .ok l') :
    (s.create l).1 = s.write l ∧ l' = { l with resourceVersion := some (s.rv + 1) } := by
  unfold Store.create at h ⊢
  split at h
  · cases h
  · cases h
    exact ⟨rfl, rfl⟩

theorem update_ok {l' : LeaseObject} (h : (s.update l).2 = .ok l') :
    (s.update l).1 = s.write l ∧ l' = { l with resourceVersion := some (s.rv + 1) } := by
  unfold Store.update at h ⊢
  cases hl : s.leases l.name with
  | none => rw [hl] at h; cases h
  | some cur =>
    rw [hl] at h
    dsimp only at h ⊢
    split at h
    · cases h
    · rename_i hv
      cases h
      rw [if_neg hv]
      exact ⟨rfl, rfl⟩

/-- What the client answers with has just been read. -/
theorem answer_read {a : Cmd} {e : Env} (h : s.Filed)
    (hl : lastRead.after none a (exec a e s).2 = some l) : (exec a e s).1.Read l := by
  have hok : ∀ r : Store × Except String LeaseObject, answered none (e.call s r).2 = some l →
      e.call s r = r ∧ r.2 = .ok l := by
    intro r hr
    unfold Env.call at hr ⊢
    split at hr
    · refine ⟨rfl, ?_⟩
      cases hv : r.2 with
      | error text => rw [hv] at hr; cases hr
      | ok l' => rw [hv] at hr; cases hr; rfl
    · cases hr
  cases a with
  | now | recalled proc id | store proc id r => cases hl
  | get name =>
    obtain ⟨hcall, hget⟩ := hok (s, s.get name) hl
    simp only [exec, hcall]
    unfold Store.get at hget
    cases hs : s.leases name with
    | none => rw [hs] at hget; cases hget
    | some l' =>
      rw [hs] at hget
      cases hget
      obtain rfl := h.name _ _ hs
      exact .of_read h.stamped hs
  | create l' =>
    obtain ⟨hcall, hmade⟩ := hok (s.create l') hl
    obtain ⟨hs, rfl⟩ := create_ok hmade
    simp only [exec, hcall, hs]
    exact .of_write rfl
  | update l' =>
    obtain ⟨hcall, hmade⟩ := hok (s.update l') hl
    obtain ⟨hs, rfl⟩ := update_ok hmade
    simp only [exec, hcall, hs]
    exact .of_write rfl

/-! ## Any schedule -/

/-- The lease under a name; a missing one is as `getOrCreate` would create it. -/
def Store.leaseOf (s : Store) (n : String) : LeaseObject := (s.leases n).getD (emptyLease n)

/-- A server on which every lease is well formed. -/
structure Store.WF (s : Store) : Prop where
  filed : s.Filed
  leases : ∀ n, (s.leaseOf n).WF

theorem leaseOf_of_some {n : String} (h : s.leases n = some l) : s.leaseOf n = l := by
  simp [Store.leaseOf, h]

theorem emptyLease_wf (n : String) : (emptyLease n).WF :=
  ⟨by simp [emptyLease, recordFromLease], by simp [emptyLease, recordFromLease]⟩

/-- `NewMemoryLeaseClient`. -/
theorem empty_wf : ({} : Store).WF :=
  ⟨⟨fun _ _ h => (by cases h), fun _ _ h => (by cases h)⟩, fun n => emptyLease_wf n⟩

theorem leaseOf_write (l : LeaseObject) (n : String) :
    (s.write l).leaseOf n =
      if n = l.name then { l with resourceVersion := some (s.rv + 1) } else s.leaseOf n := by
  unfold Store.leaseOf Store.write
  by_cases hn : n = l.name
  · subst hn; simp
  · simp [hn]

section

variable {pre : Nat → String} {s : Store} {xs : List (Move Env Empty Task)}

theorem filed_at (hs : s.Filed) (i : Nat) : ((processes pre).stateAt s xs i).shared.Filed :=
  Sys.shared_invariant (processes pre) exec_filed (fun x => nomatch x) hs xs i

variable {i : Nat} {l : LeaseObject}

theorem read_succ (h : ((processes pre).stateAt s xs i).shared.Read l) :
    ((processes pre).stateAt s xs (i + 1)).shared.Read l := by
  cases hx : xs[i]? with
  | none => rwa [Sys.stateAt, Run.stateAt_succ_of_none hx]
  | some x =>
    rw [Sys.stateAt, Run.stateAt_succ hx]
    rcases (processes pre).step_shared ((processes pre).stateAt s xs i) x with
      hsame | ⟨y, -, -⟩ | ⟨u, e, th, a, k, -, -, -, hexec⟩
    · rw [hsame]; exact h
    · exact y.elim
    · rw [hexec]; exact exec_read a e h

theorem after_cases {g : Option LeaseObject} {a : Cmd} {r : a.Answer}
    (h : lastRead.after g a r = some l) : g = some l ∨ lastRead.after none a r = some l := by
  have hanswered : ∀ v, answered g v = some l → g = some l ∨ answered none v = some l := by
    intro v hv
    cases v with
    | error text => exact .inl hv
    | ok l' => exact .inr hv
  cases a with
  | now | recalled proc id | store proc id r => exact .inl h
  | get name | create l' | update l' => exact hanswered r h

theorem read_at (hs : s.Filed) (hi : i ≤ xs.length) {u : Nat}
    {th : Thread Cmd Cmd.Answer Task Reply}
    (hth : ((processes pre).stateAt s xs i).threads u = some th)
    (hg : (processes pre).watchAt lastRead (fun _ => none) s xs i u = some (some l)) :
    ((processes pre).stateAt s xs i).shared.Read l := by
  refine Sys.each_thread (task_careful pre)
    (P := fun i _ g => ∀ l, g = some l → ((processes pre).stateAt s xs i).shared.Read l)
    (fun _ _ _ h => by cases h) (fun _ _ _ h l hl => read_succ (h l hl)) ?_ hi hth hg l rfl
  intro i u e th g a k _ _ _ _ _ hP hexec l hl
  rcases after_cases hl with hg | hnew
  · exact read_succ (hP l hg)
  · rw [hexec]
    exact answer_read (filed_at hs i) hnew

/-- One move: the leases stay well formed, and each epoch is followed by a next one. -/
theorem step_next (hs : s.Filed) (hi : i < xs.length)
    (hwf : ∀ n, (((processes pre).stateAt s xs i).shared.leaseOf n).WF) (n : String) :
    (((processes pre).stateAt s xs (i + 1)).shared.leaseOf n).WF ∧
      Epoch.Next (((processes pre).stateAt s xs i).shared.leaseOf n).epoch
        (((processes pre).stateAt s xs (i + 1)).shared.leaseOf n).epoch := by
  have hmoved := Sys.moved (s := s) (task_careful pre)
    (List.getElem?_eq_getElem hi)
  rcases hmoved.shared with hsame | ⟨y, -, -⟩ | ⟨u, e, th, g, a, k, -, hth, -, hg, ha, hexec⟩
  · rw [hsame]
    exact ⟨hwf n, .keep _⟩
  · exact nomatch y
  rw [hexec]
  have hread : ∀ l, g = some l → ((processes pre).stateAt s xs i).shared.Read l := by
    rintro l rfl
    exact read_at hs (Nat.le_of_lt hi) hth hg
  generalize ((processes pre).stateAt s xs i).shared = c at hwf hread ⊢
  show ((exec a e c).1.leaseOf n).WF ∧ Epoch.Next _ ((exec a e c).1.leaseOf n).epoch
  rcases exec_leases a e c with ⟨hl, -⟩ | ⟨l', hwrite, hl, -⟩
  · have hsame : (exec a e c).1.leaseOf n = c.leaseOf n := by rw [Store.leaseOf, hl]; rfl
    rw [hsame]
    exact ⟨hwf n, .keep _⟩
  have hwritten : (exec a e c).1.leaseOf n = (c.write l').leaseOf n := by
    rw [Store.leaseOf, hl]; rfl
  rw [hwritten, leaseOf_write]
  split
  · rename_i hn
    subst hn
    rcases hwrite with ⟨rfl, hnone⟩ | ⟨rfl, cur, hcur, hversion⟩
    · -- A created lease has the epoch of a missing one.
      obtain ⟨m, rfl⟩ := ha
      have hmissing : c.leaseOf (emptyLease m).name = emptyLease m := by
        rw [Store.leaseOf, hnone]
        rfl
      rw [hmissing]
      exact ⟨emptyLease_wf m, .keep _⟩
    · -- The version matches, so the lease that was read is the one that is replaced.
      obtain ⟨l, rfl, hderived⟩ := ha
      have hsnap := hread l rfl
      obtain ⟨v, -, hv⟩ := hsnap.stamped
      have hsome : l'.resourceVersion = some v := hderived.version.trans hv
      rw [hsome] at hversion
      rcases hversion with hversion | hversion
      · cases hversion
      rw [hderived.name] at hcur
      have heq : cur = l := hsnap.current cur hcur (hversion.symm.trans hv.symm)
      subst heq
      have hold : c.leaseOf l'.name = cur := by
        rw [hderived.name]
        exact leaseOf_of_some hcur
      have hwas : cur.WF := hold ▸ hwf l'.name
      rw [hold]
      exact hderived.next hwas
  · exact ⟨hwf n, .keep _⟩

theorem wf_at (hs : s.WF) (hi : i ≤ xs.length) (n : String) :
    (((processes pre).stateAt s xs i).shared.leaseOf n).WF := by
  refine Run.along (J := fun i => i ≤ xs.length →
    ∀ n, (((processes pre).stateAt s xs i).shared.leaseOf n).WF) (fun _ => hs.leases) ?_ hi hi n
  intro j x hx ih hj n
  exact (step_next hs.filed hj (ih (Nat.le_of_lt hj)) n).1

end

/-- The lease under a name after the first `i` moves of a schedule. -/
def leaseAt (pre : Nat → String) (s : Store) (xs : List (Move Env Empty Task)) (n : String)
    (i : Nat) : LeaseObject :=
  ((processes pre).stateAt s xs i).shared.leaseOf n

section

variable {pre : Nat → String} {s : Store} {xs : List (Move Env Empty Task)} {n : String}

/-- After the end of the schedule nothing moves. -/
theorem leaseAt_succ_of_le {i : Nat} (hi : xs.length ≤ i) :
    leaseAt pre s xs n (i + 1) = leaseAt pre s xs n i := by
  unfold leaseAt
  rw [Sys.stateAt, Run.stateAt_succ_of_none (List.getElem?_eq_none hi)]

theorem leaseAt_wf (hs : s.WF) (i : Nat) : (leaseAt pre s xs n i).WF := by
  induction i with
  | zero => exact hs.leases n
  | succ i ih =>
    by_cases hi : i < xs.length
    · exact wf_at hs hi n
    · rw [leaseAt_succ_of_le (Nat.le_of_not_lt hi)]
      exact ih

theorem leaseAt_next (hs : s.WF) (i : Nat) :
    Epoch.Next (leaseAt pre s xs n i).epoch (leaseAt pre s xs n (i + 1)).epoch := by
  by_cases hi : i < xs.length
  · exact (step_next hs.filed hi (wf_at hs (Nat.le_of_lt hi)) n).2
  · rw [leaseAt_succ_of_le (Nat.le_of_not_lt hi)]
    exact .keep _

theorem leaseAt_le (hs : s.WF) {i j : Nat} (hij : i ≤ j) :
    Epoch.Le (leaseAt pre s xs n i).epoch (leaseAt pre s xs n j).epoch := by
  induction hij with
  | refl => exact .refl _
  | step _ ih => exact ih.trans (leaseAt_next hs _).le

end

theorem epoch_holder {l : LeaseObject} (h : l.WF) (hne : l.holderIdentity ≠ "") :
    l.epoch.holder = some l.holderIdentity :=
  ClaimRecord.epoch_holder_of_held fun hp => hne (h.owner.mp hp)

/-- **Fencing under races.** Any number of processes share a server, and the `Get`, `Create` and
`Update` steps of their calls interleave in any way. For every lease: its token annotation never
decreases, a step that installs a new holder advances it by exactly one, and one token is never held
by two generations. -/
theorem fencing_under_races (pre : Nat → String) {s : Store} (hs : s.WF)
    (xs : List (Move Env Empty Task)) (n : String) :
    (∀ i j, i ≤ j →
      (leaseAt pre s xs n i).annotations.token ≤ (leaseAt pre s xs n j).annotations.token) ∧
    (∀ i, (leaseAt pre s xs n (i + 1)).holderIdentity ≠ "" →
      (leaseAt pre s xs n (i + 1)).holderIdentity ≠ (leaseAt pre s xs n i).holderIdentity →
      (leaseAt pre s xs n (i + 1)).annotations.token =
        (leaseAt pre s xs n i).annotations.token + 1) ∧
    (∀ i j, (leaseAt pre s xs n i).holderIdentity ≠ "" →
      (leaseAt pre s xs n j).holderIdentity ≠ "" →
      (leaseAt pre s xs n i).annotations.token = (leaseAt pre s xs n j).annotations.token →
      (leaseAt pre s xs n i).holderIdentity = (leaseAt pre s xs n j).holderIdentity) := by
  refine ⟨fun i j hij => (leaseAt_le hs hij).token_le, ?_, ?_⟩
  · intro i hne hdiff
    refine (leaseAt_next hs i).token_succ (epoch_holder (leaseAt_wf hs (i + 1)) hne) fun hold => ?_
    by_cases hwas : (leaseAt pre s xs n i).holderIdentity = ""
    · -- Without a holder the phase is unowned, and so is the epoch.
      have hwf : (leaseAt pre s xs n i).WF := leaseAt_wf hs i
      have hp := hwf.owner.mpr hwas
      simp [LeaseObject.epoch, ClaimRecord.epoch, hp] at hold
    · rw [epoch_holder (leaseAt_wf hs i) hwas, Option.some.injEq] at hold
      exact hdiff hold.symm
  · have key : ∀ i j, i ≤ j → (leaseAt pre s xs n i).holderIdentity ≠ "" →
        (leaseAt pre s xs n j).holderIdentity ≠ "" →
        (leaseAt pre s xs n i).annotations.token = (leaseAt pre s xs n j).annotations.token →
        (leaseAt pre s xs n i).holderIdentity = (leaseAt pre s xs n j).holderIdentity := by
      intro i j hij hi hj ht
      have hj' := epoch_holder (leaseAt_wf hs j) hj
      have h := (leaseAt_le hs hij).holder_eq ht (by rw [hj']; simp)
      rw [hj', epoch_holder (leaseAt_wf hs i) hi, Option.some.injEq] at h
      exact h.symm
    intro i j hi hj ht
    rcases Nat.le_total i j with hij | hji
    · exact key i j hij hi hj ht
    · exact (key j i hji hj hi ht.symm).symm

/-- Two processes acquire the same claim at the same time: both find no lease, both try to create
it, and both try to update it. -/
def race : List (Move Env Empty Task) :=
  [.start ⟨0, .acquireClaim { claimName := "c", generationID := "g", ttl := 10 * second },
      by decide⟩,
    .start ⟨1, .acquireClaim { claimName := "c", generationID := "h", ttl := 10 * second },
      by decide⟩,
    .run 0 {}, .run 1 {}, .run 0 {}, .run 1 {}, .run 1 {}, .run 0 { now := 1 }, .run 1 { now := 1 },
    .run 0 { now := 1 }, .run 1 { now := 1 }, .run 1 {}, .run 0 {}]

/-- One of them gets the lease, with token one, and the other one is told that it is held. -/
theorem fencing_under_races_acquire :
    (leaseAt (fun _ => "shiftlock-") {} race "shiftlock-c" 13).holderIdentity = "h" ∧
      ((((processes fun _ => "shiftlock-").stateAt {} race 13).threads 0).bind
        Thread.result).map (·.err) = some (some (.of .claimHeld)) ∧
      (leaseAt (fun _ => "shiftlock-") {} race "shiftlock-c" 12).annotations.token =
        (leaseAt (fun _ => "shiftlock-") {} race "shiftlock-c" 11).annotations.token + 1 :=
  ⟨by decide +kernel, by decide +kernel,
    (fencing_under_races (fun _ => "shiftlock-") empty_wf race "shiftlock-c").2.1 11
      (by decide +kernel) (by decide +kernel)⟩

end ShiftLock.Kubernetes
