import ShiftLock.Syncprim.Attempt
import ShiftLock.Coord.OpId
import ShiftLock.Memory.Holder

/-!
# The permits of semaphores

A claim is re-entrant for the generation that holds it, so `Acquire` can hand out a slot twice in one
runtime; and a closure gives up whatever its slot is held for when it is called. In every schedule in
which no attempt meets a claim of its own runtime, and no closure finds the entry of another permit,
there are at most as many outstanding permits as slots, each backed by its own claim
(`permits_bounded`).
-/

namespace ShiftLock.Semaphore

open Conc
open Memory (Edit)

variable (S : Setup)

theorem Setup.slotName_inj {i j : Nat} (h : S.slotName i = S.slotName j) : i = j := by
  have hl : ∀ k, (S.slotName k).toList = (S.namePrefix ++ "#").toList ++ (itoa64 k).toList :=
    fun k => by simp [slotName]
  have hd : (itoa64 i).toList = (itoa64 j).toList := by
    apply List.append_cancel_left
    rw [← hl, ← hl, h]
  rw [← (itoa64_spec i).1, hd, (itoa64_spec j).1]

/-! ## The invariant -/

def World.record (w : World) (i : Nat) : ClaimRecord := w.cluster.backend.recordOf (S.slotName i)

/-- The generation of runtime `r` holds the claim of slot `i`. -/
def World.Holds (w : World) (r i : Nat) : Prop :=
  (w.record S i).phase ≠ .unowned ∧ (w.record S i).ownerGeneration = (S.cfgs r).generationID

/-- The slot that a thread works on: it owns the claim, or gives up a permit. -/
def Stage.slot : Stage → Option Nat
  | .owns _ i => some i
  | .closing p | .gaveUp p => some p.slot
  | _ => none

/-- A closure has the entry of its permit, which is outstanding. -/
def World.Closes (w : World) (p : Permit) : Prop :=
  p ∈ w.outstanding ∧ p ∈ w.closing ∧ w.held p.sem p.slot = none

/-- What a thread in a stage relies on. -/
def Fits (w : World) : Stage → Prop
  | .again _ _ => False
  | .owns r i => w.Holds S r i ∧ ∀ p ∈ w.outstanding, p.slot ≠ i
  | .closing p | .gaveUp p => w.Closes p
  | _ => True

/-- At most one permit for a slot, which its claim backs until its closure gives it up, and at most
one thread that works on a slot. -/
structure Permits (w : World) (G : Nat → Option Stage) : Prop where
  nodup : (w.outstanding.map Permit.slot).Nodup
  slot_lt : ∀ p ∈ w.outstanding, p.slot < S.slots
  backed : ∀ p ∈ w.outstanding,
    w.Holds S (S.runtime p.sem) p.slot ∨ ∃ u, G u = some (.gaveUp p)
  stage : ∀ u g, G u = some g → Fits S w g
  apart : ∀ u v g g' i, G u = some g → G v = some g' → g.slot = some i → g'.slot = some i → u = v

section

variable {S} {w w' : World} {G : Nat → Option Stage} {u : Nat} {g g' : Stage}

/-- A thread goes from stage `g` to `g'`, or begins. -/
theorem Permits.update (h : Permits S w G) (hnodup : (w'.outstanding.map Permit.slot).Nodup)
    (hlt : ∀ p ∈ w'.outstanding, p.slot < S.slots)
    (hbacked : ∀ p ∈ w'.outstanding, w'.Holds S (S.runtime p.sem) p.slot ∨ g' = .gaveUp p ∨
      ∃ v, v ≠ u ∧ G v = some (.gaveUp p))
    (hu : Fits S w' g')
    (hv : ∀ v x, v ≠ u → G v = some x → Fits S w' x ∧ ∀ i, x.slot = some i → g'.slot ≠ some i) :
    Permits S w' (Function.update G u (some g')) where
  nodup := hnodup
  slot_lt := hlt
  backed p hp := by
    refine (hbacked p hp).imp_right ?_
    rintro (rfl | ⟨v, hne, hv⟩)
    · exact ⟨u, Function.update_self ..⟩
    · exact ⟨v, by rw [Function.update_of_ne hne, hv]⟩
  stage v x hx := by
    rcases update_eq_some.mp hx with ⟨-, rfl⟩ | ⟨hne, hx⟩
    · exact hu
    · exact (hv v x hne hx).1
  apart v v' x x' i hx hx' hi hi' := by
    rcases update_eq_some.mp hx with ⟨rfl, rfl⟩ | ⟨hne, hy⟩ <;>
      rcases update_eq_some.mp hx' with ⟨rfl, rfl⟩ | ⟨hne', hy'⟩
    · rfl
    · exact absurd hi ((hv v' x' hne' hy').2 i hi')
    · exact absurd hi' ((hv v x hne hy).2 i hi)
    · exact h.apart v v' x x' i hy hy' hi hi'

/-- A permit does not depend on a thread that has not given one up. -/
theorem Permits.backed_apart (h : Permits S w G) {n : Nat} (hn : ∀ p, G n ≠ some (.gaveUp p))
    {p : Permit} (hp : p ∈ w.outstanding) :
    w.Holds S (S.runtime p.sem) p.slot ∨ g' = .gaveUp p ∨ ∃ v, v ≠ n ∧ G v = some (.gaveUp p) := by
  refine (h.backed p hp).imp_right ?_
  rintro ⟨v, hv⟩
  refine .inr ⟨v, ?_, hv⟩
  rintro rfl
  exact hn p hv

/-- The permits and the maps `held` are the same. -/
structure SameBooks (w w' : World) : Prop where
  outstanding : w'.outstanding = w.outstanding
  closing : w'.closing = w.closing
  held : w'.held = w.held

theorem Fits.of_same (h : Fits S w g) (hb : SameBooks w w')
    (hh : ∀ r i, g.slot = some i → w.Holds S r i → w'.Holds S r i) : Fits S w' g := by
  cases g with
  | owns r i => exact ⟨hh r i rfl h.1, by rw [hb.outstanding]; exact h.2⟩
  | closing p | gaveUp p => rwa [Fits, World.Closes, hb.outstanding, hb.closing, hb.held]
  | _ => exact h

theorem Permits.work (h : Permits S w G) (hg : G u = some g) (hb : SameBooks w w')
    (hh : ∀ r i, g.slot ≠ some i → w.Holds S r i → w'.Holds S r i) (hu : Fits S w' g')
    (hslot : ∀ i, g'.slot = some i → g.slot = some i)
    (hback : ∀ p ∈ w.outstanding, g.slot = some p.slot →
      w'.Holds S (S.runtime p.sem) p.slot ∨ g' = .gaveUp p) :
    Permits S w' (Function.update G u (some g')) := by
  have hother : ∀ v x i, v ≠ u → G v = some x → x.slot = some i → g.slot ≠ some i :=
    fun v x i hne hx hi hgi => hne (h.apart v u x g i hx hg hi hgi)
  refine h.update ?_ ?_ (fun p hp => ?_) hu fun v x hne hx => ⟨?_, fun i hi hi' => ?_⟩
  · rw [hb.outstanding]
    exact h.nodup
  · rw [hb.outstanding]
    exact h.slot_lt
  · rw [hb.outstanding] at hp
    by_cases hgp : g.slot = some p.slot
    · exact (hback p hp hgp).imp_right .inl
    · refine (h.backed p hp).imp (hh _ _ hgp) ?_
      rintro ⟨v, hv⟩
      refine .inr ⟨v, ?_, hv⟩
      rintro rfl
      obtain rfl : g = .gaveUp p := Option.some.inj (hg.symm.trans hv)
      exact hgp rfl
  · exact (h.stage v x hx).of_same hb fun r i hi => hh r i (hother v x i hne hx hi)
  · exact hother v x i hne hx hi (hslot i hi')

/-- Nothing changes that the permits depend on. -/
theorem Permits.keep (h : Permits S w G) (hg : G u = some g) (hb : SameBooks w w')
    (hh : ∀ r i, w.Holds S r i → w'.Holds S r i) :
    Permits S w' (Function.update G u (some g)) := by
  refine h.work hg hb (fun r i _ => hh r i) ((h.stage u g hg).of_same hb fun r i _ => hh r i)
    (fun _ hi => hi) fun p hp hgp => ?_
  refine (h.backed p hp).imp (hh _ _) ?_
  rintro ⟨v, hv⟩
  obtain rfl := h.apart v u _ g p.slot hv hg rfl hgp
  exact Option.some.inj (hg.symm.trans hv)

/-- A thread without a slot begins, or begins anew. -/
theorem Permits.begin (h : Permits S w G) {n : Nat} (hn : ∀ p, G n ≠ some (.gaveUp p))
    (hslot : g.slot = none) (hg : Fits S w g) : Permits S w (Function.update G n (some g)) := by
  refine h.update h.nodup h.slot_lt (fun p => h.backed_apart hn) hg
    fun v x _ hx => ⟨h.stage v x hx, fun i _ hi => ?_⟩
  rw [hslot] at hi
  cases hi

end

/-! ## The condition -/

/-- An attempt does not meet a claim for which its runtime has a lease, or that the backend holds for
its generation already; it does not get a slot while a closure of the slot is still returning; and a
closure finds no entry once its permit has been given up. -/
def separate (_ : Task) (a : Act) (_ : Env) (w : World) : Bool :=
  match a with
  | .coord r (.tryAcquireBegin name) =>
    (((w.cluster.procs r).coord.claims name).validLease (w.cluster.world r).live).isNone
  | .coord _ (.call (.acquireClaim req)) =>
    (w.cluster.backend.recallOp req.operationID).isNone &&
      match (w.cluster.backend.recordOf req.claimName).phase with
      | .unowned => w.closing.all fun p => S.slotName p.slot != req.claimName
      | _ => (w.cluster.backend.recordOf req.claimName).ownerGeneration != req.generationID
  | .take p => p ∈ w.outstanding || (w.held p.sem p.slot).isNone
  | _ => true

def unexpired (_ : Task) (a : Act) (e : Env) (w : World) : Bool :=
  match a with
  | .coord _ (.call op) => op.claimName.all fun name =>
    Memory.expire e.coord.call.expireNow (w.cluster.backend.recordOf name) ==
      w.cluster.backend.recordOf name
  | _ => true

/-! ## Actions of a coordinator -/

section

variable {S} {w : World} {G : Nat → Option Stage} {u r : Nat} {g : Stage} {e : Env} {t : Task}

theorem sameBooks_coord (a : Coord.Act) : SameBooks w (exec S (.coord r a) e w).1 := ⟨rfl, rfl, rfl⟩

variable {i j s : Nat} {op : Memory.Op} {req : AcquireRequest} {p : Permit}

theorem holds_of_record {w' : World} (hr : w'.record S i = w.record S i) (h : w.Holds S j i) :
    w'.Holds S j i := by
  rwa [World.Holds, hr]

theorem record_of_section {a : Coord.Act} (ha : ∀ op, a ≠ .call op) (i : Nat) :
    (exec S (.coord r a) e w).1.record S i = w.record S i :=
  congrArg (fun b => Memory.Backend.recordOf b (S.slotName i)) (Coord.exec_backend _ _ _ ha)

theorem record_of_call (hexp : unexpired t (.coord r (.call op)) e w = true) (i : Nat) :
    (exec S (.coord r (.call op)) e w).1.record S i = w.record S i ∨
      op.claimName = some (S.slotName i) ∧
        Edit op (w.record S i) ((exec S (.coord r (.call op)) e w).1.record S i) := by
  cases hfault : e.coord.fault with
  | some err =>
    left
    simp only [exec, Coord.exec, hfault]
    rfl
  | none =>
    have heffect := Memory.Backend.locked_effect w.cluster.backend e.coord.call op
    have hbackend : (exec S (.coord r (.call op)) e w).1.cluster.backend =
        (w.cluster.backend.locked e.coord.call op).1 := by
      simp only [exec, Coord.exec, hfault]
      rfl
    unfold World.record
    rw [hbackend]
    refine (heffect.recordOf_cases (S.slotName i)).imp_right fun ⟨hname, hedit⟩ => ⟨hname, ?_⟩
    have hsame : Memory.expire e.coord.call.expireNow (w.cluster.backend.recordOf (S.slotName i)) =
        w.cluster.backend.recordOf (S.slotName i) := by
      simpa [unexpired, hname] using hexp
    rwa [hsame] at hedit

/-- A call that does not hand over a claim leaves it to its holder. -/
theorem owner_of_call (hexp : unexpired t (.coord r (.call op)) e w = true)
    (hop : op.handsOver = false) (h : (w.record S i).phase ≠ .unowned) :
    ((exec S (.coord r (.call op)) e w).1.record S i).phase ≠ .unowned ∧
      ((exec S (.coord r (.call op)) e w).1.record S i).ownerGeneration =
        (w.record S i).ownerGeneration := by
  rcases record_of_call hexp i with hr | ⟨-, hedit⟩
  · rw [hr]
    exact ⟨h, rfl⟩
  · exact hedit.stays hop h

theorem holds_of_call (hexp : unexpired t (.coord r (.call op)) e w = true)
    (hop : op.handsOver = false) (h : w.Holds S j i) :
    (exec S (.coord r (.call op)) e w).1.Holds S j i := by
  obtain ⟨hphase, howner⟩ := owner_of_call hexp hop h.1
  exact ⟨hphase, howner.trans h.2⟩

theorem separate_acquire (h : separate S t (.coord r (.call (.acquireClaim req))) e w = true) :
    w.cluster.backend.recallOp req.operationID = none ∧
      ((w.cluster.backend.recordOf req.claimName).phase = .unowned ∧
          (∀ p ∈ w.closing, S.slotName p.slot ≠ req.claimName) ∨
        (w.cluster.backend.recordOf req.claimName).phase ≠ .unowned ∧
          (w.cluster.backend.recordOf req.claimName).ownerGeneration ≠ req.generationID) := by
  simp only [separate, Bool.and_eq_true, Option.isNone_iff_eq_none] at h
  refine ⟨h.1, ?_⟩
  cases hp : (w.cluster.backend.recordOf req.claimName).phase with
  | unowned => exact .inl ⟨rfl, by simpa [hp] using h.2⟩
  | _ => exact .inr ⟨by simp, by simpa [hp] using h.2⟩

theorem acquire_granted {record : ClaimRecord} (hname : req.claimName = S.slotName i)
    (hgen : req.generationID = (S.cfgs r).generationID)
    (hsep : separate S t (.coord r (.call (.acquireClaim req))) e w = true)
    (hexp : unexpired t (.coord r (.call (.acquireClaim req))) e w = true)
    (hok : (exec S (.coord r (.call (.acquireClaim req))) e w).2.result = .ok record) :
    (w.record S i).phase = .unowned ∧ (∀ p ∈ w.closing, p.slot ≠ i) ∧
      (exec S (.coord r (.call (.acquireClaim req))) e w).1.Holds S r i := by
  obtain ⟨hnew, hcases⟩ := separate_acquire hsep
  have hholds : (exec S (.coord r (.call (.acquireClaim req))) e w).1.Holds S r i := by
    cases hfault : e.coord.fault with
    | some err =>
      simp only [exec, Coord.exec, hfault] at hok
      cases hok
    | none =>
      simp only [exec, Coord.exec, hfault] at hok ⊢
      obtain ⟨hclaims, howner, hphase⟩ :=
        Memory.Backend.locked_confirmed rfl rfl hnew record hok
      rw [hname] at hclaims
      have hrecord := Memory.Backend.recordOf_of_some hclaims
      exact ⟨by rw [← hrecord] at hphase; exact hphase,
        by rw [← hrecord] at howner; exact howner.trans hgen⟩
  rw [hname] at hcases
  rcases hcases with ⟨hun, hclosing⟩ | ⟨hheld, howner⟩
  · exact ⟨hun, fun p hp hi => hclosing p hp (by rw [hi]), hholds⟩
  · -- a claim of another generation stays with it
    have hsame := (owner_of_call hexp rfl hheld).2
    exact absurd (hsame.symm.trans (hholds.2.trans hgen.symm)) howner

theorem Permits.acquire (h : Permits S w G) (hg : G u = some g)
    (ha : g.allows S (.coord r (.call (.acquireClaim req))))
    (hsep : separate S t (.coord r (.call (.acquireClaim req))) e w = true)
    (hexp : unexpired t (.coord r (.call (.acquireClaim req))) e w = true) :
    Permits S (exec S (.coord r (.call (.acquireClaim req))) e w).1
      (Function.update G u (some (g.after S (.coord r (.call (.acquireClaim req)))
        (exec S (.coord r (.call (.acquireClaim req))) e w).2))) := by
  obtain ⟨i, rfl, hname, hgen⟩ := ha
  have hkeep : ∀ j k, w.Holds S j k →
      (exec S (.coord r (.call (.acquireClaim req))) e w).1.Holds S j k :=
    fun j k => holds_of_call hexp rfl
  cases hok : (exec S (.coord r (.call (.acquireClaim req))) e w).2.result with
  | error err =>
    simp only [Stage.after, hok, Stage.granted]
    exact h.keep hg (sameBooks_coord _) hkeep
  | ok record =>
    simp only [Stage.after, hok, Stage.granted]
    obtain ⟨hun, hclosing, hholds⟩ := acquire_granted hname hgen hsep hexp hok
    -- nobody held the claim, so no permit and no other thread has the slot
    have hpermit : ∀ p ∈ w.outstanding, p.slot ≠ i := by
      rintro p hp rfl
      rcases h.backed p hp with hb | ⟨v, hv⟩
      · exact hb.1 hun
      · exact hclosing p (h.stage v _ hv).2.1 rfl
    refine h.update h.nodup h.slot_lt
      (fun p hp => (h.backed_apart (fun q => by simp [hg]) hp).imp_left (hkeep _ _))
      ⟨hholds, hpermit⟩ fun v x hne hx => ⟨?_, ?_⟩
    · exact (h.stage v x hx).of_same (sameBooks_coord _) fun j k _ => hkeep j k
    · intro k hk hk'
      cases hk'
      have hfits := h.stage v x hx
      cases x with
      | owns j k =>
        cases hk
        exact hfits.1.1 hun
      | closing p | gaveUp p => exact hpermit p hfits.1 (Option.some.inj hk)
      | _ => cases hk

/-- A call on which no stage depends. -/
theorem Permits.call (h : Permits S w G) (hg : G u = some g) (hn : neutral (.call op) = true)
    (hop : op.handsOver = false) (hexp : unexpired t (.coord r (.call op)) e w = true) :
    Permits S (exec S (.coord r (.call op)) e w).1
      (Function.update G u
        (some (g.after S (.coord r (.call op)) (exec S (.coord r (.call op)) e w).2))) := by
  have hafter : g.after S (.coord r (.call op)) (exec S (.coord r (.call op)) e w).2 = g :=
    after_of_neutral hn g _
  rw [hafter]
  exact h.keep hg (sameBooks_coord _) fun _ _ => holds_of_call hexp hop

theorem holds_of_release {req : ReleaseRequest} (hname : req.claimName = S.slotName i)
    (hexp : unexpired t (.coord r (.call (.releaseClaim req))) e w = true) {k : Nat} (hk : k ≠ i)
    (h : w.Holds S j k) : (exec S (.coord r (.call (.releaseClaim req))) e w).1.Holds S j k := by
  rcases record_of_call hexp k with hr | ⟨hclaim, -⟩
  · exact holds_of_record hr h
  · exact absurd (S.slotName_inj (Option.some.inj (hclaim.symm.trans (congrArg some hname)))) hk

theorem holds_of_failed_release {req : ReleaseRequest}
    (hexp : unexpired t (.coord r (.call (.releaseClaim req))) e w = true)
    (herr : (exec S (.coord r (.call (.releaseClaim req))) e w).2.err ≠ none) {k : Nat}
    (h : w.Holds S j k) : (exec S (.coord r (.call (.releaseClaim req))) e w).1.Holds S j k := by
  cases hfault : e.coord.fault with
  | some err =>
    simp only [exec, Coord.exec, hfault]
    exact h
  | none =>
    simp only [exec, Coord.exec, hfault] at herr ⊢
    refine holds_of_record ?_ h
    rcases Memory.Backend.locked_error rfl rfl (.inl herr) (S.slotName k) with hr | hr
    · exact hr
    · by_cases hname : req.claimName = S.slotName k
      · have hsame : Memory.expire e.coord.call.expireNow (w.record S k) = w.record S k := by
          simpa [unexpired, Memory.Op.claimName, hname, World.record] using hexp
        exact hr.trans hsame
      · have heffect := Memory.Backend.locked_effect w.cluster.backend e.coord.call (.releaseClaim req)
        rcases heffect.recordOf_cases (S.slotName k) with hr | ⟨hclaim, -⟩
        · exact hr
        · exact absurd (Option.some.inj hclaim) hname

theorem Permits.release {req : ReleaseRequest} (h : Permits S w G) (hg : G u = some g)
    (ha : g.allows S (.coord r (.call (.releaseClaim req))))
    (hexp : unexpired t (.coord r (.call (.releaseClaim req))) e w = true) :
    Permits S (exec S (.coord r (.call (.releaseClaim req))) e w).1
      (Function.update G u (some (g.after S (.coord r (.call (.releaseClaim req)))
        (exec S (.coord r (.call (.releaseClaim req))) e w).2))) := by
  have hfits := h.stage u g hg
  have hslot : ∀ {i : Nat}, g.slot = some i → ∀ j k, g.slot ≠ some k → w.Holds S j k → k ≠ i :=
    fun hi j k hk _ hki => hk (hki ▸ hi)
  rcases ha with ⟨i, rfl, hname⟩ | ⟨p, rfl, hname⟩
  · -- the claim is given back before there is a permit
    refine h.work hg (sameBooks_coord _)
      (fun j k hk hh => holds_of_release hname hexp (hslot rfl j k hk hh) hh) trivial
      (fun _ hi => by cases hi) fun p hp hi => ?_
    exact absurd (Option.some.inj hi).symm (hfits.2 p hp)
  · by_cases herr : (exec S (.coord r (.call (.releaseClaim req))) e w).2.err = none
    · simp only [Stage.after, herr, if_pos]
      refine h.work hg (sameBooks_coord _)
        (fun j k hk hh => holds_of_release hname hexp (hslot rfl j k hk hh) hh) hfits
        (fun _ hi => hi) fun q hq hi => .inr ?_
      rw [List.inj_on_of_nodup_map h.nodup hfits.1 hq (Option.some.inj hi)]
    · simp only [Stage.after, herr, if_false]
      exact h.keep hg (sameBooks_coord _) fun j k => holds_of_failed_release hexp herr

theorem Permits.section {a : Coord.Act} (h : Permits S w G) (hg : G u = some g)
    (ha : g.allows S (.coord r a)) (hcall : ∀ op, a ≠ .call op)
    (hsep : separate S t (.coord r a) e w = true) :
    Permits S (exec S (.coord r a) e w).1
      (Function.update G u (some (g.after S (.coord r a) (exec S (.coord r a) e w).2))) := by
  have hkeep : ∀ j k, w.Holds S j k → (exec S (.coord r a) e w).1.Holds S j k :=
    fun j k => holds_of_record (record_of_section hcall k)
  have hneutral : neutral a = true → Permits S (exec S (.coord r a) e w).1
      (Function.update G u (some (g.after S (.coord r a) (exec S (.coord r a) e w).2))) := by
    intro hn
    have hafter : g.after S (.coord r a) (exec S (.coord r a) e w).2 = g := after_of_neutral hn g _
    rw [hafter]
    exact h.keep hg (sameBooks_coord a) hkeep
  cases a with
  | call op => exact absurd rfl (hcall op)
  | tryAcquireBegin name =>
    obtain ⟨i, rfl, rfl⟩ := ha
    have hentry : ∀ l, (exec S (.coord r (.tryAcquireBegin (S.slotName i))) e w).2 ≠ .valid l := by
      intro l hl
      have hnone : ((w.cluster.world r).coord.claims (S.slotName i)).validLease
          (w.cluster.world r).live = none := Option.isNone_iff_eq_none.mp hsep
      simp only [exec, Coord.exec, World.withClaim, Claim.tryAcquireBegin, hnone] at hl
      split at hl
      · cases hl
      · split at hl <;> cases hl
    cases hr : (exec S (.coord r (.tryAcquireBegin (S.slotName i))) e w).2 with
    | valid l => exact absurd hr (hentry l)
    | _ => exact h.keep hg (sameBooks_coord _) hkeep
  | tryAcquireInstall name record =>
    obtain ⟨i, rfl⟩ := ha
    cases hr : (exec S (.coord r (.tryAcquireInstall name record)) e w).2 with
    | notOwned =>
      refine h.work hg (sameBooks_coord _) (fun j k _ => hkeep j k) trivial
        (fun _ hi => by cases hi) fun p hp hi => ?_
      exact absurd (Option.some.inj hi).symm ((h.stage u _ hg).2 p hp)
    | _ => exact h.keep hg (sameBooks_coord _) hkeep
  | _ => exact hneutral rfl

theorem Permits.gates (h : Permits S w G) (hg : G u = some g)
    (ha : g = .out ∨ ∃ r j, g = .trying r j) :
    Permits S w (Function.update G u (some (.trying (S.runtime s) i))) := by
  refine h.begin (fun p => ?_) rfl trivial
  rcases ha with rfl | ⟨r, j, rfl⟩ <;> simp [hg]

/-- The entry of a slot that the thread owns. -/
theorem Permits.hold {token : FencingToken} (h : Permits S w G)
    (hg : G u = some (.owns (S.runtime s) i)) :
    Permits S (w.setHeld s i (some token)) (Function.update G u (some (.owns (S.runtime s) i))) := by
  have hfits := h.stage u _ hg
  -- no closure works on the slot
  have hcloses : ∀ p, w.Closes p → (w.setHeld s i (some token)).Closes p := by
    refine fun p hp => ⟨hp.1, hp.2.1, ?_⟩
    have hslot : p.slot ≠ i := hfits.2 p hp.1
    by_cases hs : p.sem = s
    · subst hs
      simpa [World.setHeld, hslot] using hp.2.2
    · simpa [World.setHeld, hs] using hp.2.2
  refine h.update h.nodup h.slot_lt (fun p => h.backed_apart fun q => by simp [hg]) hfits
    fun v x hne hx => ⟨?_, fun k hk hk' => hne (h.apart v u x _ k hx hg hk hk')⟩
  have hx := h.stage v x hx
  cases x with
  | closing p | gaveUp p => exact hcloses p hx
  | _ => exact hx

/-- The thread returns a permit for a slot that it owns. -/
theorem Permits.grant (h : Permits S w G) (hg : G u = some (.owns (S.runtime s) i))
    (hi : i < S.slots) :
    Permits S (exec S (.grant s i) e w).1 (Function.update G u (some .out)) := by
  have hfits := h.stage u _ hg
  refine h.update ?_ ?_ ?_ trivial fun v x hne hx => ⟨?_, fun _ _ hk => by cases hk⟩
  · refine List.nodup_cons.mpr ⟨fun hmem => ?_, h.nodup⟩
    obtain ⟨p, hp, hslot⟩ := List.mem_map.mp hmem
    exact hfits.2 p hp hslot
  · refine fun p hp => (List.mem_cons.mp hp).elim (fun hpn => ?_) (h.slot_lt p)
    rw [hpn]
    exact hi
  · refine fun p hp => (List.mem_cons.mp hp).elim (fun hpn => ?_) fun hp => ?_
    · rw [hpn]
      exact .inl hfits.1
    · exact h.backed_apart (fun q => by simp [hg]) hp
  · have hx' := h.stage v x hx
    cases x with
    | owns r' j =>
      refine ⟨hx'.1, fun p hp => (List.mem_cons.mp hp).elim (fun hpn => ?_) (hx'.2 p)⟩
      rw [hpn]
      rintro rfl
      exact hne (h.apart v u _ _ i hx hg rfl rfl)
    | closing p | gaveUp p => exact ⟨List.mem_cons_of_mem _ hx'.1, hx'.2⟩
    | _ => exact hx'

theorem Permits.take (h : Permits S w G) (hg : G u = some (.called p))
    (hsep : separate S t (.take p) e w = true) :
    Permits S (exec S (.take p) e w).1
      (Function.update G u (some (Stage.after S (.called p) (.take p) (exec S (.take p) e w).2))) := by
  cases hheld : w.held p.sem p.slot with
  | none =>
    simp only [exec, hheld]
    exact h.keep hg ⟨rfl, rfl, rfl⟩ fun _ _ hh => hh
  | some token =>
    have hp : p ∈ w.outstanding := by simpa [separate, hheld] using hsep
    simp only [exec, hheld]
    have hnone : ∀ q : Permit, w.held q.sem q.slot = none →
        (w.setHeld p.sem p.slot none).held q.sem q.slot = none := by
      intro q hq
      by_cases hs : q.sem = p.sem
      · by_cases hi : q.slot = p.slot
        · simp [World.setHeld, hs, hi]
        · simpa [World.setHeld, hs, hi] using hq
      · simpa [World.setHeld, hs] using hq
    refine h.update h.nodup h.slot_lt (fun q => h.backed_apart fun q => by simp [hg])
      ⟨hp, List.mem_cons_self, by simp [World.setHeld]⟩ fun v x _ hx => ⟨?_, ?_⟩
    · have hx := h.stage v x hx
      cases x with
      | closing q | gaveUp q => exact ⟨hx.1, List.mem_cons_of_mem _ hx.2.1, hnone q hx.2.2⟩
      | _ => exact hx
    · -- a closure that works on the slot would have the entry already
      have hcloses : ∀ q : Permit, w.Closes q → q.slot ≠ p.slot := by
        intro q hq hslot
        rw [List.inj_on_of_nodup_map h.nodup hq.1 hp hslot, World.Closes, hheld] at hq
        cases hq.2.2
      intro i hi hi'
      obtain rfl : p.slot = i := Option.some.inj hi'
      have hx := h.stage v x hx
      cases x with
      | owns r j => exact hx.2 p hp (Option.some.inj hi).symm
      | closing q | gaveUp q => exact hcloses q hx (Option.some.inj hi)
      | _ => cases hi

theorem Permits.leave {err : Bool} (h : Permits S w G)
    (hg : G u = some (if err then .closing p else .gaveUp p)) :
    Permits S (exec S (.leave p err) e w).1 (Function.update G u (some .out)) := by
  have hslot : (if err then Stage.closing p else .gaveUp p).slot = some p.slot := by
    cases err <;> rfl
  have hsub : (exec S (.leave p err) e w).1.outstanding.Sublist w.outstanding := by
    cases err
    · exact List.erase_sublist
    · exact List.Sublist.refl _
  refine h.update (h.nodup.sublist (hsub.map _)) (fun q hq => h.slot_lt q (hsub.subset hq))
    (fun q hq => (h.backed q (hsub.subset hq)).imp_right ?_) trivial
    fun v x hne hx => ⟨?_, fun _ _ hi => by cases hi⟩
  · rintro ⟨v, hv⟩
    refine .inr ⟨v, ?_, hv⟩
    rintro rfl
    cases err with
    | true => simp [hg] at hv
    | false =>
      obtain rfl : p = q := by simpa [hg] using hv
      exact (List.Nodup.mem_erase_iff h.nodup.of_map).mp hq |>.1 rfl
  · -- the other closures are those of other permits
    have hcloses : ∀ q : Permit, x.slot = some q.slot → w.Closes q →
        World.Closes (exec S (.leave p err) e w).1 q := by
      intro q hq hc
      have hqp : q ≠ p := by
        rintro rfl
        exact hne (h.apart v u x _ _ hx hg hq hslot)
      refine ⟨?_, (List.mem_erase_of_ne hqp).mpr hc.2.1, hc.2.2⟩
      cases err
      · exact (List.mem_erase_of_ne hqp).mpr hc.1
      · exact hc.1
    have hx := h.stage v x hx
    cases x with
    | owns r i => exact ⟨hx.1, fun q hq => hx.2 q (hsub.subset hq)⟩
    | closing q | gaveUp q => exact hcloses q rfl hx
    | _ => exact hx

/-- One action of a thread. -/
theorem Permits.act {a : Act} (h : Permits S w G) (hg : G u = some g) (ha : g.allows S a)
    (hsep : separate S t a e w = true) (hexp : unexpired t a e w = true) :
    Permits S (exec S a e w).1 (Function.update G u (some (g.after S a (exec S a e w).2))) := by
  have howns : ∀ {s i : Nat}, (g = .owns (S.runtime s) i ∨ g = .again (S.runtime s) i) →
      g = .owns (S.runtime s) i := by
    rintro s i (rfl | rfl)
    · rfl
    · exact (h.stage u _ hg).elim
  cases a with
  | coord r a =>
    cases a with
    | call op =>
      cases op with
      | acquireClaim req => exact h.acquire hg ha hsep hexp
      | releaseClaim req => exact h.release hg ha hexp
      | renewClaim req | registerGeneration gen | updateGeneration gen => exact h.call hg rfl rfl hexp
      | _ => cases ha
    | _ => exact h.section hg ha (fun _ hc => by cases hc) hsep
  | gates s i =>
    have hafter : g.after S (.gates s i) (exec S (.gates s i) e w).2 = .trying (S.runtime s) i := by
      rcases ha.1 with rfl | ⟨r, j, rfl⟩ <;> rfl
    rw [hafter]
    exact h.gates hg ha.1
  | hold s i token =>
    obtain rfl := howns ha
    exact h.hold hg
  | take p =>
    obtain rfl := ha
    exact h.take hg hsep
  | grant s i =>
    obtain rfl := howns ha.1
    exact h.grant hg ha.2
  | leave p err =>
    have hafter : g.after S (.leave p err) (exec S (.leave p err) e w).2 = .out := by
      cases g <;> rfl
    rw [hafter]
    obtain rfl := ha
    exact h.leave hg

/-- A thread takes away the claim of no permit but the one that it closes. -/
theorem Permits.holds_act {a : Act} (h : Permits S w G) (hg : G u = some g) (ha : g.allows S a)
    (hexp : unexpired t a e w = true) (hp : p ∈ w.outstanding) (hne : g ≠ .closing p)
    (hh : w.Holds S j p.slot) : (exec S a e w).1.Holds S j p.slot := by
  have hfits := h.stage u g hg
  cases a with
  | coord r a =>
    cases a with
    | call op =>
      cases op with
      | acquireClaim req | renewClaim req | registerGeneration gen | updateGeneration gen =>
        exact holds_of_call hexp rfl hh
      | releaseClaim req =>
        rcases ha with ⟨i, rfl, hname⟩ | ⟨q, rfl, hname⟩
        · exact holds_of_release hname hexp (hfits.2 p hp) hh
        · refine holds_of_release hname hexp (fun hslot => hne ?_) hh
          rw [List.inj_on_of_nodup_map h.nodup hp hfits.1 hslot]
      | _ => cases ha
    | _ => exact holds_of_record (record_of_section (fun _ hc => by cases hc) _) hh
  | take q =>
    cases hheld : w.held q.sem q.slot <;> simp only [exec, hheld] <;> exact hh
  | _ => exact hh

end

/-! ## Schedules -/

/-- Before any call, over an empty backend. -/
def World.initial : World := { cluster := .initial S.cfgs S.boot }

/-- Moves of semaphores. -/
abbrev Schedule := List (Move Env Empty Task)

/-- The state after `i` moves. -/
abbrev stateAt (xs : Schedule) (i : Nat) : Conc.Config Act Act.Answer World Task Result :=
  (system S).stateAt (World.initial S) xs i

/-- The stages of the threads after `i` moves. -/
abbrev stagesAt (xs : Schedule) (i : Nat) : Nat → Option Stage :=
  (system S).watchAt (monitor S) Task.stage (World.initial S) xs i

/-- A program returns a task in no stage but the first. -/
abbrev Ends (_ : Task) (g : Stage) (x : Result ⊕ Task) : Prop := ∀ t', x = .inr t' → g = .out

theorem Task.stage_slot (t : Task) : t.stage.slot = none := by
  cases t <;> rfl

theorem Task.stage_fits (t : Task) (w : World) : Fits S w t.stage := by
  cases t <;> trivial

section

variable {S} {xs : Schedule} {i : Nat}

theorem permits_at
    (hseparate : Run.Meets (system S).step (Conc.Config.onAct (separate S))
      { shared := World.initial S } xs = true)
    (hunexpired : Run.Meets (system S).step (Conc.Config.onAct unexpired)
      { shared := World.initial S } xs = true) (hi : i ≤ xs.length) :
    Permits S (stateAt S xs i).shared (stagesAt S xs i) := by
  refine Run.along (J := fun i => Permits S (stateAt S xs i).shared (stagesAt S xs i)) ?_
    (fun i x hx ih => ?_) hi
  · refine ⟨List.nodup_nil, ?_, ?_, ?_, ?_⟩
    · exact fun p hp => by cases hp
    · exact fun p hp => by cases hp
    · exact fun u g hg => by cases hg
    · exact fun u v g g' i hg => by cases hg
  have hsep := Run.meets_getElem hseparate hx
  have hexp := Run.meets_getElem hunexpired hx
  have htracks : Tracks (monitor S) Ends (stateAt S xs i) (stagesAt S xs i) :=
    Sys.tracks code_obeys i
  have hmoved : Moved (system S) (monitor S) Task.stage Ends (stateAt S xs i) (stagesAt S xs i) x
      (stateAt S xs (i + 1)) (stagesAt S xs (i + 1)) := Sys.moved code_obeys hx
  have hclock : ∀ p, stagesAt S xs i (stateAt S xs i).clock ≠ some (.gaveUp p) := fun p => by
    rw [htracks.at_clock]
    simp
  generalize stateAt S xs (i + 1) = c' at hmoved ⊢
  generalize stagesAt S xs (i + 1) = G' at hmoved ⊢
  cases hmoved with
  | idle => exact ih
  | env x => exact x.elim
  | start t => exact ih.begin hclock t.stage_slot (t.stage_fits S _)
  | jump u e th g t hth hp hg hQ =>
    obtain rfl := hQ t rfl
    exact ih.begin (fun p => by simp [hg]) t.stage_slot (t.stage_fits S _)
  | act u e th g a k hth hp hg ha hf =>
    exact ih.act hg ha (Conc.Config.of_onAct hsep hth hp) (Conc.Config.of_onAct hexp hth hp)
  | fork u e th g a k t hth hp hg ha hf =>
    have hne : (stateAt S xs i).clock ≠ u := by
      rintro rfl
      rw [htracks.at_clock] at hg
      cases hg
    refine (ih.act hg ha (Conc.Config.of_onAct hsep hth hp)
      (Conc.Config.of_onAct hexp hth hp)).begin (fun p => ?_) t.stage_slot (t.stage_fits S _)
    rw [Function.update_of_ne hne]
    exact hclock p

/-- Only a closure gets to the stages of a closure. -/
theorem Stage.closing_of_after {a : Act} {x : a.Answer} {g : Stage} {p : Permit}
    (ha : g.allows S a) (h : g.after S a x = .called p ∨ g.after S a x = .closing p) :
    g = .called p ∨ g = .closing p := by
  have hneutral : ∀ {r b} {y : Coord.Act.Answer b}, neutral b = true →
      (g.after S (.coord r b) y = .called p ∨ g.after S (.coord r b) y = .closing p) →
      g = .called p ∨ g = .closing p := by
    intro r b y hn hy
    have hafter : g.after S (.coord r b) y = g := after_of_neutral hn g y
    rwa [hafter] at hy
  cases a with
  | coord r a =>
    cases a with
    | call op =>
      cases op with
      | acquireClaim req =>
        obtain ⟨j, rfl, -⟩ := ha
        simp only [after] at h
        cases hr : Memory.Reply.result x <;> simp [hr, granted] at h
      | releaseClaim req =>
        rcases ha with ⟨j, rfl, -⟩ | ⟨q, rfl, -⟩
        · simp [after] at h
        · simp only [after] at h
          split at h <;> simp_all
      | renewClaim req | registerGeneration gen | updateGeneration gen => exact hneutral rfl h
      | _ => cases ha
    | tryAcquireBegin name =>
      obtain ⟨j, rfl, -⟩ := ha
      cases x <;> simp [after] at h
    | tryAcquireInstall name record =>
      obtain ⟨j, rfl⟩ := ha
      cases x <;> simp [after] at h
    | _ => exact hneutral rfl h
  | gates s j => rcases ha.1 with rfl | ⟨r, k, rfl⟩ <;> simp [after] at h
  | hold s j token => rcases ha with rfl | rfl <;> simp [after] at h
  | take q =>
    obtain rfl := ha
    cases x <;> simp_all [after]
  | grant s j => rcases ha.1 with rfl | rfl <;> simp [after] at h
  | leave q err =>
    obtain rfl := ha
    cases err <;> simp [after] at h

theorem task_of_closing (hi : i ≤ xs.length) {u : Nat} {g : Stage} {p : Permit}
    {th : Thread Act Act.Answer Task Result} (hth : (stateAt S xs i).threads u = some th)
    (hg : stagesAt S xs i u = some g) (hp : g = .called p ∨ g = .closing p) :
    th.task = .closure p := by
  refine Sys.each_thread code_obeys
    (P := fun _ th g => ∀ p, (g = Stage.called p ∨ g = .closing p) → th.task = Task.closure p)
    (fun i t p h => ?_) (fun _ _ _ h => h)
    (fun i u e th g a k _ _ _ _ ha h _ p hg => h p (Stage.closing_of_after ha hg)) hi hth hg p hp
  cases t with
  | closure q =>
    rcases h with h | h <;> cases h
    rfl
  | _ => rcases h with h | h <;> cases h

theorem Permits.length_le {w : World} {G : Nat → Option Stage} (h : Permits S w G) :
    w.outstanding.length ≤ S.slots := by
  have hsub : w.outstanding.map Permit.slot ⊆ List.range S.slots := by
    intro k hk
    obtain ⟨p, hp, rfl⟩ := List.mem_map.mp hk
    exact List.mem_range.mpr (h.slot_lt p hp)
  simpa using (List.subperm_of_subset h.nodup hsub).length_le

/-- **The semaphore bound.** In every schedule in which no lease expires, no attempt meets a claim of
its own runtime or a closure that is still returning, and no closure finds the entry of another
permit: there are at most as many outstanding permits as slots, the claim of a permit is held for its
runtime until its closure is called, and a closure takes away the claim of no other permit. -/
theorem permits_bounded
    (hseparate : Run.Meets (system S).step (Conc.Config.onAct (separate S))
      { shared := World.initial S } xs = true)
    (hunexpired : Run.Meets (system S).step (Conc.Config.onAct unexpired)
      { shared := World.initial S } xs = true) (hi : i ≤ xs.length) :
    (stateAt S xs i).shared.outstanding.length ≤ S.slots ∧
      (∀ p ∈ (stateAt S xs i).shared.outstanding, p ∉ (stateAt S xs i).shared.closing →
        (stateAt S xs i).shared.Holds S (S.runtime p.sem) p.slot) ∧
      ∀ u e th q, xs[i]? = some (.run u e) → (stateAt S xs i).threads u = some th →
        th.task = .closure q → ∀ p ∈ (stateAt S xs i).shared.outstanding, p ≠ q →
        (stateAt S xs i).shared.Holds S (S.runtime p.sem) p.slot →
        (stateAt S xs (i + 1)).shared.Holds S (S.runtime p.sem) p.slot := by
  have h := permits_at hseparate hunexpired hi
  refine ⟨h.length_le, fun p hp hclosing => ?_, ?_⟩
  · rcases h.backed p hp with hb | ⟨u, hu⟩
    · exact hb
    · exact absurd (h.stage u _ hu).2.1 hclosing
  · intro u e th q hx hth htask p hp hpq hholds
    have hmoved : Moved (system S) (monitor S) Task.stage Ends (stateAt S xs i)
        (stagesAt S xs i) (.run u e) (stateAt S xs (i + 1)) (stagesAt S xs (i + 1)) :=
      Sys.moved code_obeys hx
    rcases hmoved.shared with hs | ⟨y, hy, -⟩ | ⟨v, e', th', g, a, k, hrun, hth', hprog, hg, ha, hs⟩
    · rwa [hs]
    · cases hy
    · cases hrun
      obtain rfl : th = th' := Option.some.inj (hth.symm.trans hth')
      rw [hs]
      have hexp := Conc.Config.of_onAct (Run.meets_getElem hunexpired hx) hth hprog
      refine h.holds_act hg ha hexp hp ?_ hholds
      rintro rfl
      have hp := task_of_closing hi hth hg (.inr rfl)
      rw [htask] at hp
      cases hp
      exact hpq rfl

end

/-! ## Two runtimes -/

/-- Two runtimes with one semaphore of one slot each. -/
def pair : Setup where
  cfgs r := { service := "svc", instanceID := "i" ++ itoa64 r, generationID := "g" ++ itoa64 r
              leaseTTL := 15 * second }
  boot _ := 0
  runtime s := s
  namePrefix := "sem"
  slots := 1

/-- The calls of a caller, one after the other, each for twenty moves. -/
def calls : Nat → List Task → Schedule
  | _, [] => []
  | u, t :: rest => alone u t {} 20 ++ calls (u + 21) rest

/-- The second semaphore gets a permit once the first has given its own back. -/
def turns : Schedule :=
  calls 0 [.new 0, .new 1, .acquire 0, .acquire 1, .closure ⟨0, 0, 0⟩, .acquire 1]

theorem permits_bounded_turns :
    (stateAt pair turns 126).shared.outstanding = [⟨1, 1, 0⟩] ∧
      (stateAt pair turns 126).shared.outstanding.length ≤ pair.slots :=
  ⟨by decide +kernel, (permits_bounded (by decide +kernel) (by decide +kernel) (by decide +kernel)).1⟩

/-- Two calls of `Acquire` in one runtime return a permit each, although there is one slot. And the
closure of a permit that has been given back, called again, gives up the claim of the next one. -/
theorem slot_granted_twice :
    Run.Meets (system pair).step (Conc.Config.onAct unexpired)
        { shared := World.initial pair } (calls 0 [.new 0, .acquire 0, .acquire 0]) = true ∧
      (stateAt pair (calls 0 [.new 0, .acquire 0, .acquire 0]) 63).shared.outstanding.length = 2 ∧
      (stateAt pair (calls 0 [.new 0, .acquire 0, .closure ⟨0, 0, 0⟩, .acquire 0,
        .closure ⟨0, 0, 0⟩]) 105).shared.outstanding = [⟨1, 0, 0⟩] ∧
      ((stateAt pair (calls 0 [.new 0, .acquire 0, .closure ⟨0, 0, 0⟩, .acquire 0,
        .closure ⟨0, 0, 0⟩]) 105).shared.record pair 0).phase = .unowned := by
  decide +kernel

end ShiftLock.Semaphore
