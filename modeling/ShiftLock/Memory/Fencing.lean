import ShiftLock.Memory.Spec
import ShiftLock.Fence.Epoch
import ShiftLock.Conc.Run

/-!
# Fencing safety of the in-memory backend

The record of a claim is read as a fencing epoch: its token, and its owner unless it is unowned.
`Edit.next` shows that every operation is one `Fence.Epoch.Next` on the epoch of every claim, so
the store refines the abstract fence; the statements about runs are those of `Fence.Epoch.Le`.
The two halves of the representation invariant (`ClaimRecord.WF`) are kept by the same edits.
-/

namespace ShiftLock

open Conc
open Fence (Epoch)

/-- The representation invariant of a stored record: the owner is empty exactly in the phase
`unowned`, and a successor is pending exactly in the phase `reserved`. -/
structure ClaimRecord.WF (r : ClaimRecord) : Prop where
  owner : r.phase = .unowned ↔ r.ownerGeneration = ""
  successor : r.pendingSuccessor ≠ "" ↔ r.phase = .reserved

def ClaimRecord.epoch (r : ClaimRecord) : Epoch String :=
  ⟨r.fencingToken, if r.phase = .unowned then none else some r.ownerGeneration⟩

theorem ClaimRecord.epoch_holder_ne_none {r : ClaimRecord} :
    r.epoch.holder ≠ none ↔ r.phase ≠ .unowned := by
  unfold epoch
  simp

theorem ClaimRecord.epoch_holder_of_held {r : ClaimRecord} (h : r.phase ≠ .unowned) :
    r.epoch.holder = some r.ownerGeneration := by
  unfold epoch
  simp [h]

namespace Memory

theorem freshRecord_wf (n : String) : (freshRecord n).WF :=
  ⟨by simp [freshRecord], by simp [freshRecord]⟩

variable {cl cl' : ClaimRecord} {op : Op}

theorem expire_wf (now : Time) (h : cl.WF) : (expire now cl).WF := by
  unfold expire
  split
  · exact ⟨by simp, by simp⟩
  · exact h

/-- The expiry rule keeps the epoch or gives it up; it never touches the token. -/
theorem expire_next (now : Time) (cl : ClaimRecord) :
    Epoch.Next cl.epoch (expire now cl).epoch ∧ (expire now cl).epoch.token = cl.epoch.token := by
  unfold expire
  split
  · exact ⟨.vacate _, rfl⟩
  · exact ⟨.keep _, rfl⟩

theorem Edit.wf (he : Edit op cl cl') (hN : op.Named) (h : cl.WF) : cl'.WF := by
  obtain ⟨ho, hs⟩ := h
  cases he with
  | keep | extend now _ _ | renew now _ _ _ => exact ⟨ho, hs⟩
  | grant now _ => exact ⟨by simp [granted, show _ ≠ "" from hN], by simp [granted]⟩
  | reserve now hfrom _ =>
    exact ⟨by simp [reservedFor, hfrom, hN.1], by simp [reservedFor, hN.2]⟩
  | commit now _ _ _ => exact ⟨by simp [committedTo, hN.2], by simp [committedTo]⟩
  | rollBack _ hfrom => exact ⟨by simp [rolledBack, hfrom, hN.1], by simp [rolledBack]⟩
  | giveUp _ _ => exact ⟨by simp [givenUp], by simp [givenUp]⟩

/-- **Refinement of the fence.** An operation keeps the epoch of its claim, gives it up, or grants
the next token. That it names its generations is needed here: an empty `FromGeneration` would match
the empty owner of a free claim. -/
theorem Edit.next (he : Edit op cl cl') (hN : op.Named) (h : cl.WF) :
    Epoch.Next cl.epoch cl'.epoch := by
  have hheld : ∀ {r : ClaimRecord}, r.fencingToken = cl.fencingToken → r.phase ≠ .unowned →
      r.ownerGeneration = cl.ownerGeneration → cl.phase ≠ .unowned → r.epoch = cl.epoch := by
    intro r ht hp ho hc
    unfold ClaimRecord.epoch
    rw [if_neg hp, if_neg hc, ht, ho]
  cases he with
  | keep => exact .keep _
  | @extend now req _ hp _ =>
    rw [hheld rfl hp rfl hp]; exact .keep _
  | @renew now req _ hp _ _ =>
    rw [hheld rfl hp rfl hp]; exact .keep _
  | grant now _ | commit now _ _ _ => exact .grant _ _
  | @reserve now req _ hfrom _ =>
    have hp : cl.phase ≠ .unowned := fun e => hN.1 (hfrom ▸ h.owner.mp e)
    rw [hheld (r := reservedFor now req.ttl req.toGeneration cl) rfl (by simp [reservedFor]) rfl hp]
    exact .keep _
  | rollBack hp _ =>
    have hp' : cl.phase ≠ .unowned := fun e => by rw [e] at hp; cases hp
    rw [hheld (r := rolledBack cl) rfl (by simp [rolledBack]) rfl hp']
    exact .keep _
  | giveUp _ _ => exact .vacate _

/-- Every record of the store is well formed. -/
def Backend.WF (b : Backend) : Prop := ∀ n, (b.recordOf n).WF

theorem new_wf (p : Bool) : (new p).WF := fun n => freshRecord_wf n

section

variable {op : Op} {now : Time} {b b' : Backend}

theorem Effect.wf (h : Effect op now b b') (hN : op.Named) (hb : b.WF) : b'.WF := by
  intro m
  rcases h.recordOf_cases m with e | ⟨-, he⟩
  · rw [e]; exact hb m
  · exact he.wf hN (expire_wf now (hb m))

theorem Effect.next (h : Effect op now b b') (hN : op.Named) (hb : b.WF) (m : String) :
    Epoch.Next (b.recordOf m).epoch (b'.recordOf m).epoch := by
  rcases h.recordOf_cases m with e | ⟨-, he⟩
  · rw [e]; exact .keep _
  · obtain ⟨hx, ht⟩ := expire_next now (b.recordOf m)
    exact hx.trans_of_token_eq ht (he.next hN (expire_wf now (hb m)))

end

theorem step_wf (b : Backend) (x : Input) (hb : b.WF) (hx : x.op.Named) : (step b x).WF :=
  (b.apply_effect x.call x.op).wf hx hb

theorem step_next (b : Backend) (x : Input) (hb : b.WF) (hx : x.op.Named) (m : String) :
    Epoch.Next (b.recordOf m).epoch ((step b x).recordOf m).epoch :=
  (b.apply_effect x.call x.op).next hx hb m

/-- The state of a run from `New` after its first `i` calls. -/
abbrev stateAt (p : Bool) (xs : List Input) (i : Nat) : Backend :=
  Conc.Run.stateAt step (new p) xs i

/-- Any two states of a run, in the order of the run. -/
theorem run_le {p : Bool} {xs : List Input} (hxs : ∀ x ∈ xs, x.op.Named) (m : String) {i j : Nat}
    (hij : i ≤ j) :
    ((stateAt p xs i).recordOf m).epoch.Le ((stateAt p xs j).recordOf m).epoch :=
  Run.related
    (R := fun b b' => (b.recordOf m).epoch.Le (b'.recordOf m).epoch) (fun _ => .refl _)
    (fun _ _ _ h₁ h₂ => h₁.trans h₂) step_wf (fun b x hb hx => (step_next b x hb hx m).le)
    (new_wf p) hxs hij

theorem run_wf {p : Bool} {xs : List Input} (hxs : ∀ x ∈ xs, x.op.Named) (i : Nat) :
    (stateAt p xs i).WF :=
  Run.invariant step_wf (new_wf p) hxs i

/-- **Fencing safety.** Along every run from `New` and for every claim: the token never decreases,
a step that installs a new owner advances it by exactly one, one token is never held by two
generations, and the stored record is well formed. -/
theorem fencing_safety (p : Bool) (xs : List Input) (hxs : ∀ x ∈ xs, x.op.Named) (m : String) :
    (∀ i j, i ≤ j →
      ((stateAt p xs i).recordOf m).fencingToken ≤ ((stateAt p xs j).recordOf m).fencingToken) ∧
    (∀ i, ((stateAt p xs (i + 1)).recordOf m).ownerGeneration ≠ "" →
      ((stateAt p xs (i + 1)).recordOf m).ownerGeneration ≠
        ((stateAt p xs i).recordOf m).ownerGeneration →
      ((stateAt p xs (i + 1)).recordOf m).fencingToken =
        ((stateAt p xs i).recordOf m).fencingToken + 1) ∧
    (∀ i j, ((stateAt p xs i).recordOf m).phase ≠ .unowned →
      ((stateAt p xs j).recordOf m).phase ≠ .unowned →
      ((stateAt p xs i).recordOf m).fencingToken = ((stateAt p xs j).recordOf m).fencingToken →
      ((stateAt p xs i).recordOf m).ownerGeneration =
        ((stateAt p xs j).recordOf m).ownerGeneration) ∧
    (∀ i,
      (((stateAt p xs i).recordOf m).phase = .unowned ↔
        ((stateAt p xs i).recordOf m).ownerGeneration = "") ∧
      (((stateAt p xs i).recordOf m).pendingSuccessor ≠ "" ↔
        ((stateAt p xs i).recordOf m).phase = .reserved)) := by
  refine ⟨fun i j hij => (run_le hxs m hij).token_le, ?_, ?_,
    fun i => ⟨(run_wf hxs i m).owner, (run_wf hxs i m).successor⟩⟩
  · intro i hne hdiff
    cases hx : xs[i]? with
    | none =>
      rw [stateAt, Run.stateAt_succ_of_none hx] at hdiff
      exact absurd rfl hdiff
    | some x =>
      have hnext := step_next _ x (run_wf (p := p) hxs i) (hxs x (List.mem_of_getElem? hx)) m
      rw [← show stateAt p xs (i + 1) = step (stateAt p xs i) x from Run.stateAt_succ hx] at hnext
      -- The new owner holds the new epoch and not the old one.
      have hp' : ((stateAt p xs (i + 1)).recordOf m).phase ≠ .unowned :=
        fun e => hne ((run_wf hxs (i + 1) m).owner.mp e)
      refine hnext.token_succ (ClaimRecord.epoch_holder_of_held hp') fun e => ?_
      have hp : ((stateAt p xs i).recordOf m).phase ≠ .unowned :=
        ClaimRecord.epoch_holder_ne_none.mp (by rw [e]; simp)
      rw [ClaimRecord.epoch_holder_of_held hp] at e
      exact hdiff (Option.some.inj e).symm
  · -- One of the two states comes first.
    have key : ∀ i j, i ≤ j → ((stateAt p xs i).recordOf m).phase ≠ .unowned →
        ((stateAt p xs j).recordOf m).phase ≠ .unowned →
        ((stateAt p xs i).recordOf m).fencingToken = ((stateAt p xs j).recordOf m).fencingToken →
        ((stateAt p xs i).recordOf m).ownerGeneration =
          ((stateAt p xs j).recordOf m).ownerGeneration := by
      intro i j hij hi hj ht
      have h := (run_le hxs m hij).holder_eq ht (ClaimRecord.epoch_holder_ne_none.mpr hj)
      rw [ClaimRecord.epoch_holder_of_held hi, ClaimRecord.epoch_holder_of_held hj] at h
      exact (Option.some.inj h).symm
    intro i j hi hj ht
    rcases Nat.le_total i j with hij | hji
    · exact key i j hij hi hj ht
    · exact (key j i hji hj hi ht.symm).symm

/-- A claim that is released and taken by another generation: the token goes from one to two. -/
theorem fencing_safety_takeover :
    let xs : List Input :=
      [{ call := .at 1, op := .acquireClaim { claimName := "c", generationID := "g", ttl := 10 } },
        { call := .at 2, op := .releaseClaim { claimName := "c", generationID := "g", token := 1 } },
        { call := .at 3, op := .acquireClaim { claimName := "c", generationID := "h", ttl := 10 } }]
    ((stateAt false xs 1).recordOf "c").fencingToken = 1 ∧
      ((stateAt false xs 3).recordOf "c").fencingToken =
        ((stateAt false xs 2).recordOf "c").fencingToken + 1 := by
  intro xs
  have h := fencing_safety false xs (by simp [xs, Op.Named]) "c"
  exact ⟨by decide, h.2.1 2 (by decide) (by decide)⟩

end Memory
end ShiftLock
