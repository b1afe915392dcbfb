import ShiftLock.Memory.Success

/-!
# One holder of a claim

What the operations of everybody do to a claim from the point of view of one generation that holds
it with token `t`: it goes on holding the claim, or it has lost this token for good (`Lost`).
Another generation can neither reserve nor change a claim that the generation holds.
-/

namespace ShiftLock

namespace ClaimRecord

/-- The generation holds the claim with token `t`. -/
structure HeldBy (genID : String) (t : FencingToken) (r : ClaimRecord) : Prop where
  owner : r.ownerGeneration = genID
  token : r.fencingToken = t
  phase : r.phase = .owned ∨ r.phase = .reserved

/-- The generation cannot hold the claim with token `t` any more. -/
def Lost (genID : String) (t : FencingToken) (r : ClaimRecord) : Prop :=
  t < r.fencingToken ∨ (r.fencingToken = t ∧ r.ownerGeneration ≠ genID)

/-- The generation holds the claim and has it reserved for a successor. -/
def ReservedBy (genID : String) (r : ClaimRecord) : Prop :=
  r.phase = .reserved ∧ r.ownerGeneration = genID

variable {genID : String} {t : FencingToken} {r : ClaimRecord}

theorem HeldBy.not_lost (h : r.HeldBy genID t) : ¬ r.Lost genID t := by
  rintro (hlt | ⟨-, ho⟩)
  · rw [h.token] at hlt
    exact Nat.lt_irrefl _ hlt
  · exact ho h.owner

theorem HeldBy.controls (h : r.HeldBy genID t) (ht : t ≠ 0) : r.controls genID = true :=
  controls_iff.mpr ⟨h.owner, by rwa [h.token], by rcases h.phase with hp | hp <;> simp [hp]⟩

end ClaimRecord

namespace Memory

variable {genID : String} {t : FencingToken} {op : Op} {now : Time} {cl cl' : ClaimRecord}
  {b b' : Backend}

open ClaimRecord

theorem expire_cases (now : Time) (cl : ClaimRecord) :
    expire now cl = cl ∨
      ((expire now cl).phase = .unowned ∧ (expire now cl).ownerGeneration = "" ∧
        (expire now cl).fencingToken = cl.fencingToken) := by
  unfold expire
  split
  · exact .inr ⟨rfl, rfl, rfl⟩
  · exact .inl rfl

section

variable (hgen : genID ≠ "")

include hgen

theorem expire_lost (now : Time) (h : cl.Lost genID t) : (expire now cl).Lost genID t := by
  rcases expire_cases now cl with e | ⟨-, ho, ht⟩
  · rwa [e]
  · unfold Lost at h ⊢
    rw [ho, ht]
    exact h.imp_right fun h => ⟨h.1, hgen.symm⟩

theorem expire_heldBy (now : Time) (h : cl.HeldBy genID t) :
    (expire now cl).HeldBy genID t ∨ (expire now cl).Lost genID t := by
  rcases expire_cases now cl with e | ⟨-, ho, ht⟩
  · exact .inl (by rwa [e])
  · exact .inr (.inr ⟨ht.trans h.token, by rw [ho]; exact hgen.symm⟩)

theorem Edit.lost (he : Edit op cl cl') (h : cl.Lost genID t) : cl'.Lost genID t := by
  have hle : t ≤ cl.fencingToken := h.elim Nat.le_of_lt fun h => Nat.le_of_eq h.1.symm
  cases he with
  | grant now _ | commit now _ _ _ => exact .inl (Nat.lt_succ_of_le hle)
  | giveUp _ _ => exact h.imp_right fun h => ⟨h.1, hgen.symm⟩
  | _ => exact h

theorem Edit.heldBy (he : Edit op cl cl') (h : cl.HeldBy genID t) :
    cl'.HeldBy genID t ∨ cl'.Lost genID t := by
  obtain ⟨ho, ht, hp⟩ := h
  cases he with
  | keep | extend now _ _ | renew now _ _ _ => exact .inl ⟨ho, ht, hp⟩
  | grant now _ | commit now _ _ _ => exact .inr (.inl (Nat.lt_succ_of_le (Nat.le_of_eq ht.symm)))
  | reserve now _ _ => exact .inl ⟨ho, ht, .inr rfl⟩
  | rollBack _ _ => exact .inl ⟨ho, ht, .inl rfl⟩
  | giveUp _ _ => exact .inr (.inr ⟨ht, hgen.symm⟩)

/-- A lost token does not come back. -/
theorem Effect.lost (h : Effect op now b b') {m : String} (hl : (b.recordOf m).Lost genID t) :
    (b'.recordOf m).Lost genID t := by
  rcases h.recordOf_cases m with e | ⟨-, he⟩
  · rwa [e]
  · exact he.lost hgen (expire_lost hgen now hl)

/-- A token is held until it is lost. -/
theorem Effect.heldBy (h : Effect op now b b') {m : String} (hh : (b.recordOf m).HeldBy genID t) :
    (b'.recordOf m).HeldBy genID t ∨ (b'.recordOf m).Lost genID t := by
  rcases h.recordOf_cases m with e | ⟨-, he⟩
  · exact .inl (by rwa [e])
  · rcases expire_heldBy hgen now hh with hx | hx
    · exact he.heldBy hgen hx
    · exact .inr (he.lost hgen hx)

end

theorem expire_reservedBy (now : Time) (h : (expire now cl).ReservedBy genID) :
    cl.ReservedBy genID := by
  rcases expire_cases now cl with e | ⟨hp, -, -⟩
  · rwa [e] at h
  · rw [ReservedBy, hp] at h
    cases h.1

theorem Edit.abort_token {req : AbortRequest} (he : Edit (.abortTransfer req) cl cl') :
    cl'.fencingToken = cl.fencingToken := by
  cases he <;> rfl

/-- Only a `PrepareTransfer` of the generation makes a reservation of it. -/
theorem Edit.reservedBy (he : Edit op cl cl') (h : cl'.ReservedBy genID) :
    cl.ReservedBy genID ∨ ∃ req, op = .prepareTransfer req ∧ req.fromGeneration = genID := by
  cases he with
  | keep | extend now _ _ | renew now _ _ _ => exact .inl h
  | reserve now ho _ => exact .inr ⟨_, rfl, ho ▸ h.2⟩
  | grant now _ | commit now _ _ _ | rollBack _ _ | giveUp _ _ => cases h.1

theorem Effect.reservedBy (h : Effect op now b b') {m : String} (hr : (b'.recordOf m).ReservedBy genID) :
    (b.recordOf m).ReservedBy genID ∨ (op.claimName = some m ∧
      ∃ req, op = .prepareTransfer req ∧ req.fromGeneration = genID) := by
  rcases h.recordOf_cases m with e | ⟨hm, he⟩
  · exact .inl (by rwa [← e])
  · exact (he.reservedBy hr).imp (expire_reservedBy now) fun h => ⟨hm, h⟩

/-! ## Other generations -/

/-- The operation can make the generation the owner of a claim. -/
def Op.grantsTo (genID : String) : Op → Bool
  | .acquireClaim req => req.generationID = genID
  | .commitTransfer req => req.toGeneration = genID
  | _ => false

/-- The operation can end the ownership of a claim that has not expired. -/
def Op.handsOver : Op → Bool
  | .commitTransfer _ | .releaseClaim _ => true
  | _ => false

/-- No other operation changes the owner of a claim that has one. -/
theorem Edit.stays (he : Edit op cl cl') (hop : op.handsOver = false) (hp : cl.phase ≠ .unowned) :
    cl'.phase ≠ .unowned ∧ cl'.ownerGeneration = cl.ownerGeneration := by
  cases he with
  | keep | extend now _ _ | renew now _ _ _ => exact ⟨hp, rfl⟩
  | grant now hun => exact absurd hun hp
  | reserve now _ _ => exact ⟨by simp [reservedFor], rfl⟩
  | rollBack _ _ => exact ⟨by simp [rolledBack], rfl⟩
  | commit now _ _ _ | giveUp _ _ => cases hop

theorem Edit.owner_ne (he : Edit op cl cl') (hop : op.grantsTo genID = false) (hgen : genID ≠ "")
    (h : cl.ownerGeneration ≠ genID) : cl'.ownerGeneration ≠ genID := by
  cases he with
  | grant now _ | commit now _ _ _ => exact of_decide_eq_false hop
  | giveUp _ _ => exact hgen.symm
  | _ => exact h

/-- The operations by which the generation does not become the owner of a claim that it does not own:
it acquires none, and it transfers only what it owns. -/
def Op.keepsOwner (genID : String) : Op → Bool
  | .acquireClaim _ => false
  | .commitTransfer req => req.fromGeneration = genID
  | _ => true

theorem Edit.owner_ne_of_keeps (he : Edit op cl cl') (hop : op.keepsOwner genID = true)
    (hgen : genID ≠ "") (h : cl.ownerGeneration ≠ genID) : cl'.ownerGeneration ≠ genID := by
  cases he with
  | grant now _ => cases hop
  | commit now _ hown _ => exact absurd (hown.trans (of_decide_eq_true hop)) h
  | giveUp _ _ => exact hgen.symm
  | _ => exact h

theorem expire_owner_ne (now : Time) (hgen : genID ≠ "") (h : cl.ownerGeneration ≠ genID) :
    (expire now cl).ownerGeneration ≠ genID := by
  rcases expire_cases now cl with e | ⟨-, ho, -⟩
  · rwa [e]
  · rw [ho]; exact hgen.symm

/-- A generation does not become the owner of a claim by the operations of others. -/
theorem Effect.owner_ne (h : Effect op now b b') (hop : op.grantsTo genID = false)
    (hgen : genID ≠ "") {m : String} (hm : (b.recordOf m).ownerGeneration ≠ genID) :
    (b'.recordOf m).ownerGeneration ≠ genID := by
  rcases h.recordOf_cases m with e | ⟨-, he⟩
  · rwa [e]
  · exact he.owner_ne hop hgen (expire_owner_ne now hgen hm)

theorem Effect.owner_ne_of_keeps (h : Effect op now b b') (hop : op.keepsOwner genID = true)
    (hgen : genID ≠ "") {m : String} (hm : (b.recordOf m).ownerGeneration ≠ genID) :
    (b'.recordOf m).ownerGeneration ≠ genID := by
  rcases h.recordOf_cases m with e | ⟨-, he⟩
  · rwa [e]
  · exact he.owner_ne_of_keeps hop hgen (expire_owner_ne now hgen hm)

/-- The operations of others do not touch a claim that the generation holds, unless it expires. -/
theorem Effect.of_other (h : Effect op now b b') (hop : op.client ≠ some genID) {m : String}
    (hm : (b.recordOf m).HeldBy genID t)
    (hexp : op.claimName = some m → expire now (b.recordOf m) = b.recordOf m) :
    b'.recordOf m = b.recordOf m := by
  rcases h.recordOf_cases m with e | ⟨hn, he⟩
  · exact e
  rw [hexp hn] at he
  generalize b'.recordOf m = cl' at he
  obtain ⟨ho, -, hp⟩ := hm
  cases he with
  | keep => rfl
  | grant now hun => rw [hun] at hp; rcases hp with hp | hp <;> cases hp
  | extend now _ hown | renew now _ hown _ | reserve now hown _ | commit now _ hown _ | rollBack _ hown
  | giveUp hown _ => exact absurd (congrArg some (hown.symm.trans ho)) hop

/-- Every claim with an owner has had a token. -/
def Backend.Issued (b : Backend) : Prop :=
  ∀ m, (b.recordOf m).ownerGeneration ≠ "" → (b.recordOf m).fencingToken ≠ 0

theorem Edit.issued (he : Edit op cl cl') (h : cl.ownerGeneration ≠ "" → cl.fencingToken ≠ 0) :
    cl'.ownerGeneration ≠ "" → cl'.fencingToken ≠ 0 := by
  cases he with
  | grant now _ | commit now _ _ _ => exact fun _ => Nat.succ_ne_zero _
  | giveUp _ _ => exact fun ho => absurd rfl ho
  | _ => exact h

theorem Effect.issued (h : Effect op now b b') (hb : b.Issued) : b'.Issued := by
  intro m
  rcases h.recordOf_cases m with e | ⟨-, he⟩
  · rw [e]
    exact hb m
  · refine he.issued fun ho => ?_
    rcases expire_cases now (b.recordOf m) with e | ⟨-, hnone, -⟩
    · rw [e] at ho ⊢
      exact hb m ho
    · exact absurd hnone ho

end Memory
end ShiftLock
