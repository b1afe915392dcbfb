import ShiftLock.Handoff.Alone
import ShiftLock.Memory.Holder

/-!
# Rollback of a handoff

Calls on one handoff, one after the other, over a backend that may fail at any call, with other
clients between them. `Sound` is the invariant of such a history:

* a claim that is reserved by this generation has an entry in `h.tokens`, by which it will be rolled
  back;
* the claims that are followed (`H`) are held at the backend with a valid lease, or lost for good;
* once `Drain` has succeeded, the drain groups of the claims are draining.

The invariant needs that `Transfer` is not called again while there are entries: its first section
empties the map.
-/

namespace ShiftLock.Rollback

open Conc
open Conc.Prog (wp Uses)
open Coord

/-! ## Routine actions -/

/-- The actions that keep the records, the leases and the entries. -/
def routine : Act → Bool
  | .call (.updateGeneration _) => true
  | .tick | .setState _ _ | .emit _ | .go _ | .currentLeaseToken _ | .markRenewing _
  | .startDrain _ | .drainWait _ | .handoffClaims _ | .drainBegin _ | .transferEnd _
  | .commitBegin _ | .commitEnd _ | .abortBegin _ | .fail _ _ | .tokens _ | .watcherBegin _
  | .watcherCheck _ => true
  | _ => false

/-- What routine actions keep of claim `n`; draining is not undone. -/
structure SameClaim (c c' : Claim) : Prop where
  record : c'.record = c.record
  lease : c'.lease = c.lease
  closed : c'.closed = c.closed
  draining : c.drain.draining → c'.drain.draining

/-- What routine actions keep. -/
structure Same (h : Nat) (w w' : World) : Prop where
  stored : ∀ n, w'.backend.recordOf n = w.backend.recordOf n
  shutdown : w'.coord.shutdown = w.coord.shutdown
  claims : (w'.handoffs h).claims = (w.handoffs h).claims
  tokens : (w'.handoffs h).tokens = (w.handoffs h).tokens
  drainDone : (w'.handoffs h).drainDone = (w.handoffs h).drainDone
  claim : ∀ n, SameClaim (w.coord.claims n) (w'.coord.claims n)

theorem SameClaim.refl (c : Claim) : SameClaim c c := ⟨rfl, rfl, rfl, id⟩

theorem SameClaim.trans {c₁ c₂ c₃ : Claim} (h : SameClaim c₁ c₂) (h' : SameClaim c₂ c₃) :
    SameClaim c₁ c₃ :=
  ⟨h'.record.trans h.record, h'.lease.trans h.lease, h'.closed.trans h.closed,
    h'.draining ∘ h.draining⟩

variable {cfg : Config} {h : Nat} {w w' : World} {α : Type}

theorem Same.refl (w : World) : Same h w w := ⟨fun _ => rfl, rfl, rfl, rfl, rfl, fun _ => .refl _⟩

theorem Same.trans {w₁ w₂ w₃ : World} (h₁ : Same h w₁ w₂) (h₂ : Same h w₂ w₃) : Same h w₁ w₃ :=
  ⟨fun n => (h₂.stored n).trans (h₁.stored n), h₂.shutdown.trans h₁.shutdown,
    h₂.claims.trans h₁.claims, h₂.tokens.trans h₁.tokens, h₂.drainDone.trans h₁.drainDone,
    fun n => (h₁.claim n).trans (h₂.claim n)⟩

theorem startDrain_draining (g : DrainGroup) : g.startDrain.draining = true := by
  rw [DrainGroup.startDrain_eq]

variable {a : Act}

theorem routine_claim (ha : routine a) (e : Env) (n : String) :
    SameClaim (w.coord.claims n) ((exec cfg a e w).1.coord.claims n) := by
  rw [exec_claims]
  split
  · cases a <;> first | exact .refl _ | cases ha
    · unfold Act.section Claim.markRenewing
      dsimp only
      split <;> exact ⟨rfl, rfl, rfl, id⟩
    · exact ⟨rfl, rfl, rfl, fun _ => startDrain_draining _⟩
  · exact .refl _

theorem routine_handoff (ha : routine a) (e : Env) :
    ((exec cfg a e w).1.handoffs h).claims = (w.handoffs h).claims ∧
      ((exec cfg a e w).1.handoffs h).tokens = (w.handoffs h).tokens ∧
      ((exec cfg a e w).1.handoffs h).drainDone = (w.handoffs h).drainDone := by
  rw [exec_handoffs cfg e w a (fun e => by rw [e] at ha; cases ha)]
  split
  · cases a with
    | drainBegin _ =>
      unfold Act.handoffSection Handoff.drainBegin
      dsimp only
      split <;> exact ⟨rfl, rfl, rfl⟩
    | abortBegin _ =>
      unfold Act.handoffSection Handoff.abortBegin
      dsimp only
      split <;> exact ⟨rfl, rfl, rfl⟩
    | watcherBegin _ =>
      unfold Act.handoffSection Handoff.watcherBegin
      dsimp only
      split <;> exact ⟨rfl, rfl, rfl⟩
    | _ => first | exact ⟨rfl, rfl, rfl⟩ | cases ha
  · exact ⟨rfl, rfl, rfl⟩

theorem routine_stored (ha : routine a) (e : Env) (n : String) :
    (exec cfg a e w).1.backend.recordOf n = w.backend.recordOf n := by
  by_cases hc : ∃ op, a = .call op
  · obtain ⟨op, rfl⟩ := hc
    cases op <;> cases ha
    unfold exec
    cases e.fault <;> rfl
  · push Not at hc
    rw [exec_backend cfg e w hc]

theorem routine_same (ha : routine a) (e : Env) : Same h w (exec cfg a e w).1 := by
  obtain ⟨h₁, h₂, h₃⟩ := routine_handoff ha e
  exact ⟨routine_stored ha e, exec_shutdown cfg e w (by rintro rfl; cases ha), h₁, h₂, h₃,
    routine_claim ha e⟩

theorem routine_ready (ha : routine a) (e : Env) (hw : w.Ready cfg) :
    (exec cfg a e w).1.Ready cfg := by
  refine hw.act e fun op hop => ?_
  subst hop
  cases op <;> first | rfl | cases ha

/-- The condition on the environment of a history with arbitrary failures. -/
abbrev free : Act → Env → World → Prop := fun _ _ _ => True

/-- A program of routine actions. -/
theorem wp_routine {p : Code.P α} (hp : Uses (fun a => routine a) p) (hw : w.Ready cfg) :
    wp (exec cfg) free (fun w' _ => Same h w w' ∧ w'.Ready cfg) p w := by
  induction p generalizing w with
  | ret x => exact ⟨.refl w, hw⟩
  | act a k ih =>
    intro e _
    refine Prog.wp_mono (fun w' x hx => ?_) (ih _ (hp.2 _) (routine_ready hp.1 e hw))
    exact ⟨(routine_same hp.1 e).trans hx.1, hx.2⟩

theorem uses_routine (ha : routine a) : Uses (fun a => routine a) (Code.perform a) :=
  ⟨ha, fun _ => trivial⟩

theorem setState_routine (target : GenerationState) (reason : TransitionReason) :
    Uses (fun a => routine a) (Code.setState target reason) := by
  refine (uses_routine rfl).bind fun r => ?_
  cases r with
  | same => trivial
  | invalid source => exact (uses_routine rfl).bind fun _ => trivial
  | changed source gen =>
    exact (uses_routine rfl).bind fun _ => (uses_routine rfl).bind fun _ => trivial

theorem fail_routine (err : Err) : Uses (fun a => routine a) (Code.fail h err) :=
  (uses_routine rfl).bind fun _ => uses_routine rfl

theorem startTimeoutWatcher_routine : Uses (fun a => routine a) (Code.startTimeoutWatcher h) := by
  refine (uses_routine rfl).bind fun r => ?_
  cases r with
  | false => trivial
  | true => exact (uses_routine rfl).bind fun _ => trivial

theorem startRenewal_routine (name : String) : Uses (fun a => routine a) (Code.startRenewal name) := by
  refine (uses_routine rfl).bind fun r => ?_
  cases r with
  | false => trivial
  | true => exact (uses_routine rfl).bind fun _ => trivial

/-! ## The invariant -/

/-- Claim `n` of the coordinator has a valid lease with token `t`. -/
structure Leased (genID : String) (t : FencingToken) (c : Claim) : Prop where
  lease : ∃ l, c.lease = some l ∧ l.token = t
  controls : c.record.controls genID = true
  token : c.record.fencingToken = t
  isOpen : c.closed = false

/-- The generation holds claim `n` with token `t` at the backend and in the coordinator. -/
structure Holds (cfg : Config) (w : World) (n : String) (t : FencingToken) : Prop where
  stored : (w.backend.recordOf n).HeldBy cfg.generationID t
  leased : Leased cfg.generationID t (w.coord.claims n)
  live : w.coord.shutdown = false

/-- A claim that was held with token `t` is still held, and its entry has this token, or it is
lost. -/
def Kept (cfg : Config) (h : Nat) (w : World) (n : String) (t : FencingToken) : Prop :=
  (w.backend.recordOf n).Lost cfg.generationID t ∨
    (Holds cfg w n t ∧ ∀ t', (w.handoffs h).tokens.lookup n = some t' → t' = t)

/-- The invariant of a handoff over the claims `L` of which the claims in `H` are followed. The
reservation of `x` has just been obtained. -/
structure Sound (cfg : Config) (h : Nat) (L : List String) (H : String → FencingToken → Prop)
    (x : Option String) (w : World) : Prop where
  ready : w.Ready cfg
  claims : (w.handoffs h).claims = L
  entry : ∀ n, (w.backend.recordOf n).ReservedBy cfg.generationID →
    n ∈ (w.handoffs h).tokens ∨ x = some n
  listed : ∀ n ∈ (w.handoffs h).tokens, n ∈ L
  drained : (w.handoffs h).drainDone → ∀ n ∈ L, (w.coord.claims n).drain.draining
  kept : ∀ n t, H n t → Kept cfg h w n t

variable {L : List String} {H : String → FencingToken → Prop} {x : Option String}

/-- The claims of the coordinator are as they were, up to their drain groups. -/
theorem Holds.of_same {n : String} {t : FencingToken} (hh : Holds cfg w n t) (hs : Same h w w') :
    Holds cfg w' n t where
  stored := by rw [hs.stored]; exact hh.stored
  leased := by
    obtain ⟨hr, hl, hc, -⟩ := hs.claim n
    exact ⟨by rw [hl]; exact hh.leased.lease, by rw [hr]; exact hh.leased.controls,
      by rw [hr]; exact hh.leased.token, by rw [hc]; exact hh.leased.isOpen⟩
  live := hs.shutdown.trans hh.live

theorem Sound.of_same (hs : Sound cfg h L H x w) (hsame : Same h w w') (hw : w'.Ready cfg) :
    Sound cfg h L H x w' where
  ready := hw
  claims := hsame.claims.trans hs.claims
  entry n hn := by
    rw [hsame.stored] at hn
    rw [hsame.tokens]
    exact hs.entry n hn
  listed n hn := by
    rw [hsame.tokens] at hn
    exact hs.listed n hn
  drained hd n hn := by
    rw [hsame.drainDone] at hd
    exact (hsame.claim n).draining (hs.drained hd n hn)
  kept n t hn := by
    rcases hs.kept n t hn with hl | ⟨hh, ht⟩
    · exact .inl (by rwa [hsame.stored])
    · exact .inr ⟨hh.of_same hsame, by rwa [hsame.tokens]⟩

/-- Routine parts of a program. -/
theorem Sound.routine {p : Code.P α} (hs : Sound cfg h L H x w)
    (hp : Uses (fun a => Rollback.routine a) p) :
    wp (exec cfg) free (fun w' _ => Sound cfg h L H x w' ∧ Same h w w') p w :=
  Prog.wp_mono (fun _ _ hw => ⟨hs.of_same hw.1 hw.2, hw.1⟩) (wp_routine hp hs.ready)

/-! ## The other actions -/

section

variable (hgen : cfg.generationID ≠ "")

include hgen

variable {op : Memory.Op} {b : Memory.Backend}

/-- A call of the generation itself on claim `n`, or of another client. Only a reservation can be
without an entry after it. -/
theorem Sound.effect (hs : Sound cfg h L H none w) {now : Time}
    (hb : Memory.Effect op now w.backend b) (hclaims : w'.coord.claims = w.coord.claims)
    (hshut : w'.coord.shutdown = w.coord.shutdown) (hhandoffs : w'.handoffs = w.handoffs)
    (hback : w'.backend = b) (hw : w'.Ready cfg)
    (hx : ∀ n, (b.recordOf n).ReservedBy cfg.generationID →
      (w.backend.recordOf n).ReservedBy cfg.generationID ∨ x = some n) :
    Sound cfg h L H x w' := by
  subst hback
  refine ⟨hw, by rw [hhandoffs]; exact hs.claims, fun n hn => ?_, ?_, ?_, fun n t hn => ?_⟩
  · rw [hhandoffs]
    rcases hx n hn with hr | hr
    · exact .inl ((hs.entry n hr).resolve_right (by simp))
    · exact .inr hr
  · rw [hhandoffs]; exact hs.listed
  · rw [hhandoffs, hclaims]; exact hs.drained
  · rcases hs.kept n t hn with hl | ⟨hh, ht⟩
    · exact .inl (hb.lost hgen hl)
    · rcases hb.heldBy hgen hh.stored with hstored | hl
      · refine .inr ⟨⟨hstored, by rw [hclaims]; exact hh.leased, hshut.trans hh.live⟩, ?_⟩
        rwa [hhandoffs]
      · exact .inl hl

/-- A claim operation of the coordinator that reserves nothing. -/
theorem Sound.called (hs : Sound cfg h L H none w) {e : Env} {r : Memory.Reply}
    (hc : Memory.Called e op w.backend b r) (hop : ∀ req, op ≠ .prepareTransfer req)
    (hw : World.Ready cfg { w.counted with backend := b }) :
    Sound cfg h L H none { w.counted with backend := b } :=
  hs.effect hgen hc.effect rfl rfl rfl rfl hw fun _ hn =>
    (hc.effect.reservedBy hn).imp_right fun ⟨_, req, hreq, _⟩ => absurd hreq (hop req)

theorem Sound.client (hs : Sound cfg h L H none w) (c : Memory.Call)
    (hop : Other cfg.generationID op) : Sound cfg h L H none (outside (.client c op) w) := by
  refine hs.effect hgen (w.backend.apply_effect c op) rfl rfl rfl rfl (hs.ready.client c hop.foreign)
    fun _ hn => ((w.backend.apply_effect c op).reservedBy hn).imp_right ?_
  rintro ⟨-, req, rfl, hreq⟩
  exact absurd (congrArg some hreq) hop.client

end

/-- An action on claim `n` of the coordinator. -/
theorem Sound.local (hs : Sound cfg h L H x w) {a : Act} {e : Env} (hw : ∀ op, a ≠ .call op)
    (hnew : a.handoffOf = none ∧ a ≠ .newHandoff ∧ a ≠ .shutdown) (name : String)
    (hname : a.claimOf = some name)
    (hdrain : ((exec cfg a e w).1.coord.claims name).drain = (w.coord.claims name).drain)
    (hkept : ∀ t, H name t → (w.backend.recordOf name).Lost cfg.generationID t ∨
      (Holds cfg w name t → Leased cfg.generationID t ((exec cfg a e w).1.coord.claims name))) :
    Sound cfg h L H x (exec cfg a e w).1 := by
  have hback : (exec cfg a e w).1.backend = w.backend := exec_backend cfg e w hw
  have hhand : (exec cfg a e w).1.handoffs h = w.handoffs h := by
    rw [exec_handoffs cfg e w a (fun e => absurd e hnew.2.1), hnew.1]
    rfl
  have hother : ∀ n, n ≠ name → (exec cfg a e w).1.coord.claims n = w.coord.claims n := by
    intro n hn
    rw [exec_claims, hname, if_neg (by simpa using Ne.symm hn)]
  refine ⟨hs.ready.act e fun op h => absurd h (hw op), by rw [hhand]; exact hs.claims, ?_, ?_,
    fun hd n hn => ?_, fun n t hn => ?_⟩
  · rw [hback, hhand]; exact hs.entry
  · rw [hhand]; exact hs.listed
  · rw [hhand] at hd
    have := hs.drained hd n hn
    by_cases hnn : n = name
    · subst hnn; rwa [hdrain]
    · rwa [hother n hnn]
  · rw [Kept, hback, hhand]
    rcases hs.kept n t hn with hl | ⟨hh, ht⟩
    · exact .inl hl
    · have hlive := (exec_shutdown cfg e w hnew.2.2).trans hh.live
      by_cases hnn : n = name
      · subst hnn
        rcases hkept t hn with hl | hk
        · exact .inl hl
        · exact .inr ⟨⟨by rw [hback]; exact hh.stored, hk hh, hlive⟩, ht⟩
      · exact .inr ⟨⟨by rw [hback]; exact hh.stored, by rw [hother n hnn]; exact hh.leased, hlive⟩, ht⟩

theorem Holds.token_ne_zero {n : String} {t : FencingToken} (hh : Holds cfg w n t) : t ≠ 0 := by
  rw [← hh.leased.token]
  exact (ClaimRecord.controls_iff.mp hh.leased.controls).2.1

/-- A record that the store holds is the one of a claim that is held. -/
theorem Holds.record {n : String} {t : FencingToken} (hh : Holds cfg w n t) {record : ClaimRecord}
    (hr : w.backend.claims n = some record) :
    record.controls cfg.generationID = true ∧ record.fencingToken = t := by
  have := hh.stored
  rw [Memory.Backend.recordOf_of_some hr] at this
  exact ⟨this.controls hh.token_ne_zero, this.token⟩

variable {e : Env} {name : String} {record : ClaimRecord}

/-- `applyRecord` with the stored record. -/
theorem Sound.applyRecord (hs : Sound cfg h L H x w) (hr : w.backend.claims name = some record) :
    Sound cfg h L H x (exec cfg (.applyRecord name record) e w).1 := by
  have hsec : (exec cfg (.applyRecord name record) e w).1.coord.claims name =
      ((w.coord.claims name).applyRecord cfg.generationID record).1 := by
    rw [exec_claims, ← hs.ready.genID]
    exact if_pos rfl
  refine hs.local (by simp) ⟨rfl, by simp, by simp⟩ name rfl ?_ fun t _ => .inr fun hh => ?_
  · rw [hsec]
    unfold Claim.applyRecord
    dsimp only
    split
    · rfl
    · split <;> rfl
  · obtain ⟨hc, ht⟩ := hh.record hr
    obtain ⟨l, hl, -⟩ := hh.leased.lease
    rw [hsec]
    simp only [Claim.applyRecord, hl, hc, if_true]
    exact ⟨⟨_, rfl, ht⟩, hc, ht, hh.leased.isOpen⟩

/-- `restoreLease` with the stored record: its own section. -/
theorem Sound.setRecord (hs : Sound cfg h L H x w) (hr : w.backend.claims name = some record) :
    Sound cfg h L H x (exec cfg (.setRecord name record) e w).1 := by
  have hsec : (exec cfg (.setRecord name record) e w).1.coord.claims name =
      (w.coord.claims name).setRecord record := by
    rw [exec_claims]
    exact if_pos rfl
  refine hs.local (by simp) ⟨rfl, by simp, by simp⟩ name rfl (by rw [hsec]; rfl)
    fun t _ => .inr fun hh => ?_
  obtain ⟨hc, ht⟩ := hh.record hr
  rw [hsec]
  exact ⟨hh.leased.lease, hc, ht, hh.leased.isOpen⟩

theorem Sound.ensureLocalLease (hs : Sound cfg h L H x w) (name : String) :
    Sound cfg h L H x (exec cfg (.ensureLocalLease name) e w).1 := by
  have hsec : (exec cfg (.ensureLocalLease name) e w).1.coord.claims name =
      ((w.coord.claims name).ensureLocalLease w.live cfg.generationID w.coord.nextLease).1 := by
    rw [exec_claims, ← hs.ready.genID]
    exact if_pos rfl
  refine hs.local (by simp) ⟨rfl, by simp, by simp⟩ name rfl ?_ fun t _ => .inr fun hh => ?_
  · rw [hsec]
    unfold Claim.ensureLocalLease
    split
    · rfl
    split
    · rfl
    split <;> rfl
  · obtain ⟨l, hl, -⟩ := hh.leased.lease
    rw [hsec]
    simp only [Claim.ensureLocalLease, hh.leased.isOpen, hh.leased.controls, Claim.validLease,
      World.live, hh.live, hl, Bool.false_eq_true, not_true_eq_false, Bool.not_false, if_true,
      if_false]
    exact ⟨⟨_, rfl, hh.leased.token⟩, hh.leased.controls, hh.leased.token, rfl⟩

/-- `revokeLease` of a claim that is lost. -/
theorem Sound.revokeLease (hs : Sound cfg h L H x w) (reason : TransitionReason)
    (hl : ∀ t, H name t → (w.backend.recordOf name).Lost cfg.generationID t) :
    Sound cfg h L H x (exec cfg (.revokeLease name reason) e w).1 := by
  refine hs.local (by simp) ⟨rfl, by simp, by simp⟩ name rfl ?_ fun t ht => .inl (hl t ht)
  rw [exec_claims, if_pos (by rfl)]
  unfold Act.section Claim.revokeLease
  dsimp only
  split <;> rfl

theorem Sound.handoff {x' : Option String} (hs : Sound cfg h L H x w) {a : Act}
    (ha : a.handoffOf = some h) (hclaims : (a.handoffSection (w.handoffs h)).claims = L)
    (hentry : ∀ n, (w.backend.recordOf n).ReservedBy cfg.generationID →
      n ∈ (a.handoffSection (w.handoffs h)).tokens ∨ x' = some n)
    (hlisted : ∀ n ∈ (a.handoffSection (w.handoffs h)).tokens, n ∈ L)
    (hdrained : (a.handoffSection (w.handoffs h)).drainDone → ∀ n ∈ L,
      (w.coord.claims n).drain.draining)
    (htoken : ∀ n t, H n t → Holds cfg w n t →
      (∀ t', (w.handoffs h).tokens.lookup n = some t' → t' = t) →
      ∀ t', (a.handoffSection (w.handoffs h)).tokens.lookup n = some t' → t' = t) :
    Sound cfg h L H x' (exec cfg a e w).1 := by
  have hnew : a ≠ .newHandoff := fun e => by rw [e] at ha; cases ha
  have hcall : ∀ op, a ≠ .call op := fun op e => by rw [e] at ha; cases ha
  have hback : (exec cfg a e w).1.backend = w.backend := exec_backend cfg e w hcall
  have hhand : (exec cfg a e w).1.handoffs h = a.handoffSection (w.handoffs h) := by
    rw [exec_handoffs cfg e w a (fun e => absurd e hnew), if_pos ha]
  have hcl : ∀ n, (exec cfg a e w).1.coord.claims n = w.coord.claims n := by
    intro n
    rw [exec_claims, if_neg]
    cases a <;> cases ha <;> simp [Act.claimOf]
  refine ⟨hs.ready.act e fun op h => absurd h (hcall op), ?_, ?_, ?_, ?_, fun n t hn => ?_⟩
  · rw [hhand]; exact hclaims
  · rw [hback, hhand]; exact hentry
  · rw [hhand]; exact hlisted
  · rw [hhand]
    intro hd n hn
    rw [hcl]
    exact hdrained hd n hn
  · rw [Kept, hback, hhand]
    refine (hs.kept n t hn).imp_right fun ⟨hh, ht⟩ => ⟨⟨?_, ?_, ?_⟩, htoken n t hn hh ht⟩
    · rw [hback]; exact hh.stored
    · rw [hcl]; exact hh.leased
    · exact (exec_shutdown cfg e w (by rintro rfl; cases ha)).trans hh.live

/-- The reservation of `name` gets its entry. -/
theorem Sound.setToken (hs : Sound cfg h L H (some name) w) (hname : name ∈ L) {t : FencingToken}
    (ht : (w.backend.recordOf name).fencingToken = t) :
    Sound cfg h L H none (exec cfg (.setToken h name t) e w).1 := by
  refine hs.handoff rfl hs.claims (fun n hn => .inl ?_) (fun n hn => ?_) hs.drained
    fun n t₀ hn hh hold t' ht' => ?_
  · rw [Act.handoffSection, Handoff.setToken, AList.mem_insert]
    rcases hs.entry n hn with h | h
    · exact .inr h
    · cases h; exact .inl rfl
  · rw [Act.handoffSection, Handoff.setToken, AList.mem_insert] at hn
    rcases hn with rfl | hn
    · exact hname
    · exact hs.listed n hn
  · by_cases hnn : n = name
    · subst hnn
      simp only [Act.handoffSection, Handoff.setToken, AList.lookup_insert] at ht'
      cases ht'
      rw [← ht, hh.stored.token]
    · simp only [Act.handoffSection, Handoff.setToken, AList.lookup_insert_ne hnn] at ht'
      exact hold t' ht'

/-- An entry of a claim that is not reserved any more goes. -/
theorem Sound.dropToken (hs : Sound cfg h L H none w) (name : String)
    (hname : ¬ (w.backend.recordOf name).ReservedBy cfg.generationID) :
    Sound cfg h L H none (exec cfg (.dropToken h name) e w).1 := by
  refine hs.handoff rfl hs.claims (fun n hn => .inl ?_) (fun n hn => ?_) hs.drained
    fun n t₀ hn hh hold t' ht' => ?_
  · rw [Act.handoffSection, Handoff.dropToken, AList.mem_erase]
    exact ⟨by rintro rfl; exact hname hn, (hs.entry n hn).resolve_right (by simp)⟩
  · rw [Act.handoffSection, Handoff.dropToken, AList.mem_erase] at hn
    exact hs.listed n hn.2
  · by_cases hnn : n = name
    · subst hnn
      simp [Act.handoffSection, Handoff.dropToken] at ht'
    · simp only [Act.handoffSection, Handoff.dropToken, AList.lookup_erase_ne hnn] at ht'
      exact hold t' ht'

/-- `Transfer` empties a map that is empty. -/
theorem Sound.transferStart (hs : Sound cfg h L H none w) {a : Act} (ha : a.handoffOf = some h)
    {s : String} (hsec : a.handoffSection (w.handoffs h) = (w.handoffs h).transferStart s)
    (hempty : (w.handoffs h).tokens = ∅) : Sound cfg h L H none (exec cfg a e w).1 := by
  refine hs.handoff ha ?_ (fun n hn => ?_) ?_ ?_ ?_ <;> rw [hsec]
  · exact hs.claims
  · have := (hs.entry n hn).resolve_right (by simp)
    rw [hempty] at this
    exact .inl this
  · exact fun n hn => absurd hn (AList.notMem_empty n)
  · exact hs.drained
  · intro n t _ _ _ t' ht'
    simp [Handoff.transferStart] at ht'

theorem Sound.drainEnd (hs : Sound cfg h L H none w)
    (hall : ∀ n ∈ L, (w.coord.claims n).drain.draining) :
    Sound cfg h L H none (exec cfg (.drainEnd h) e w).1 :=
  hs.handoff rfl hs.claims hs.entry hs.listed (fun _ => hall) fun _ _ _ _ hold => hold

/-! ## Rolling back -/

variable (cfg h L H) in
/-- The program keeps the invariant. -/
abbrev Keeps (p : Code.P α) (w : World) : Prop :=
  wp (exec cfg) free (fun w' _ => Sound cfg h L H none w') p w

/-- After a reservation is rolled back, the claim is as it was. -/
theorem restoreLease_wp (hs : Sound cfg h L H none w) (hr : w.backend.claims name = some record) :
    wp (exec cfg) free (fun w' _ => Sound cfg h L H none w' ∧
      ∀ n, w'.backend.recordOf n = w.backend.recordOf n) (Code.restoreLease name record) w := by
  refine wp_act fun e _ => wp_act fun e' _ => ?_
  have hs' := (hs.setRecord (e := e) hr).ensureLocalLease (e := e') name
  generalize hans : (exec cfg (.ensureLocalLease name) e' (exec cfg (.setRecord name record) e w).1).2
    = ans
  cases ans with
  | false => exact ⟨hs', fun _ => rfl⟩
  | true =>
    refine Prog.wp_mono (fun w' _ hw => ⟨hw.1, fun n => ?_⟩)
      (hs'.routine (startRenewal_routine name))
    exact hw.2.stored n

/-- The reply to an `AbortTransfer` says that the claim is owned again. -/
theorem not_reserved_of_abort (cfg : Config) {b b' : Memory.Backend} {req : AbortRequest} {r : Memory.Reply}
    (hc : Memory.Called e (.abortTransfer req) b b' r) (hr : r.result = .ok record) :
    b'.claims req.claimName = some record ∧
      ¬ (b'.recordOf req.claimName).ReservedBy cfg.generationID := by
  obtain ⟨hstored, -, hp⟩ := hc.confirmed rfl hr
  refine ⟨hstored, fun hres => ?_⟩
  rw [Memory.Backend.recordOf_of_some hstored] at hres
  rw [hres.1] at hp
  cases hp

/-- A successful `AbortTransfer` of the generation loses it no token. -/
theorem lost_of_abort {b b' : Memory.Backend} {req : AbortRequest} {r : Memory.Reply}
    (hc : Memory.Called e (.abortTransfer req) b b' r) (hr : r.result = .ok record) {n : String}
    {t : FencingToken} (h : (b'.recordOf n).Lost req.fromGeneration t) :
    (b.recordOf n).Lost req.fromGeneration t := by
  rcases hc.effect.recordOf_cases n with he | ⟨hn, he⟩
  · rwa [he] at h
  · obtain rfl : req.claimName = n := Option.some.inj hn
    obtain ⟨hstored, howner, -⟩ := hc.confirmed rfl hr
    have hrecord : b'.recordOf req.claimName = record := Memory.Backend.recordOf_of_some hstored
    have hlt : t < (b'.recordOf req.claimName).fencingToken :=
      h.resolve_right fun h => h.2 (by rw [hrecord]; exact howner)
    left
    rwa [he.abort_token, Memory.expire_token] at hlt

variable (cfg h L H) in
/-- What `Abort` has done at its end: no lost token comes back and, where it returns nil, none is
lost and no claim is reserved. -/
structure Aborted (w w' : World) (err : Option Err) : Prop where
  sound : Sound cfg h L H none w'
  lost : ∀ n t, (w.backend.recordOf n).Lost cfg.generationID t →
    (w'.backend.recordOf n).Lost cfg.generationID t
  kept : err = none → ∀ n t, (w'.backend.recordOf n).Lost cfg.generationID t →
    (w.backend.recordOf n).Lost cfg.generationID t
  unreserved : err = none → ∀ n, ¬ (w'.backend.recordOf n).ReservedBy cfg.generationID

/-- What follows does not change the records. -/
theorem Aborted.of_stored {w₁ w₂ w₃ : World} {err : Option Err} (ha : Aborted cfg h L H w₁ w₂ err)
    (hs : Sound cfg h L H none w₃)
    (hstored : ∀ n, w₃.backend.recordOf n = w₂.backend.recordOf n) :
    Aborted cfg h L H w₁ w₃ err where
  sound := hs
  lost n t hl := by rw [hstored]; exact ha.lost n t hl
  kept he n t hl := ha.kept he n t (by rwa [← hstored])
  unreserved he n := by rw [hstored]; exact ha.unreserved he n

section

variable (hgen : cfg.generationID ≠ "") (hs : Sound cfg h L H none w)

include hgen hs

variable {successor : String} {tokens : Tokens} {names : List String}

theorem abortLoop_wp : Keeps cfg h L H (Code.abortLoop cfg h successor tokens names) w := by
  induction names generalizing w with
  | nil => exact wp_ret hs
  | cons name rest ih =>
    unfold Code.abortLoop
    split
    · exact ih hs
    · refine wp_request hs.ready (fun _ => rfl) fun id e b r _ hc hw => ?_
      have hs' := hs.called hgen hc (by simp) hw
      split
      · exact wp_seq (hs'.routine (uses_routine rfl)) fun _ _ hw => ih hw.1
      · rename_i record hr
        obtain ⟨hstored, hres⟩ := not_reserved_of_abort cfg hc hr
        refine wp_seq (restoreLease_wp hs' hstored) fun w₁ _ hw => wp_act fun _ _ => ih ?_
        refine hw.1.dropToken _ ?_
        rw [hw.2]
        exact hres

theorem abortTokens_wp : Keeps cfg h L H (Code.abortTokens cfg h successor tokens) w := by
  unfold Code.abortTokens
  split
  · exact wp_ret hs
  · exact wp_act fun _ _ => abortLoop_wp hgen hs

theorem abortUncommitted_wp (committed : List String) :
    Keeps cfg h L H (Code.abortUncommitted cfg h committed) w :=
  wp_act fun _ _ => abortTokens_wp hgen hs

theorem abortPrepared_wp : Keeps cfg h L H (Code.abortPrepared cfg h) w :=
  wp_act fun _ _ => abortTokens_wp hgen hs

/-! ## Abort -/

/-- The loop of `Abort`. -/
theorem abortClaims_wp
    (hrest : ∀ n, (w.backend.recordOf n).ReservedBy cfg.generationID → n ∈ tokens ∧ n ∈ names) :
    wp (exec cfg) free (Aborted cfg h L H w) (Code.abortClaims cfg successor tokens names) w := by
  induction names generalizing w with
  | nil =>
    exact wp_ret ⟨hs, fun _ _ hl => hl, fun _ _ _ hl => hl, fun _ n hn => by
      simpa using (hrest n hn).2⟩
  | cons name rest ih =>
    unfold Code.abortClaims
    split
    · rename_i hlook
      refine ih hs fun n hn => ⟨(hrest n hn).1, ?_⟩
      refine (List.mem_cons.mp (hrest n hn).2).resolve_left ?_
      rintro rfl
      exact AList.lookup_eq_none.mp hlook (hrest n hn).1
    · refine wp_request hs.ready (fun _ => rfl) fun id e b r _ hc hw => ?_
      have hs' := hs.called hgen hc (by simp) hw
      split
      · refine wp_seq (hs'.routine (uses_routine rfl)) fun w₁ _ hw₁ => ?_
        refine ⟨hw₁.1, fun n t hl => ?_, (fun h => by cases h), (fun h => by cases h)⟩
        rw [hw₁.2.stored]
        exact hc.effect.lost hgen hl
      · rename_i record hr
        obtain ⟨hstored, hres⟩ := not_reserved_of_abort cfg hc hr
        refine wp_seq (restoreLease_wp hs' hstored) fun w₁ _ hw₁ => ?_
        refine wp_seq (hw₁.1.routine (uses_routine rfl)) fun w₂ _ hw₂ => ?_
        have hsame : ∀ n, w₂.backend.recordOf n = b.recordOf n := fun n =>
          (hw₂.2.stored n).trans (hw₁.2 n)
        refine Prog.wp_mono (fun w' err ha => ?_) (ih hw₂.1 fun n hn => ?_)
        · refine ⟨ha.sound, fun n t hl => ha.lost n t ?_, fun he n t hl => ?_, ha.unreserved⟩
          · rw [hsame]
            exact hc.effect.lost hgen hl
          · have := ha.kept he n t hl
            rw [hsame] at this
            exact lost_of_abort hc hr this
        · rw [hsame] at hn
          have hold : (w.backend.recordOf n).ReservedBy cfg.generationID := by
            refine (hc.effect.reservedBy hn).resolve_right ?_
            rintro ⟨_, _, h, _⟩
            cases h
          refine ⟨(hrest n hold).1, (List.mem_cons.mp (hrest n hold).2).resolve_left ?_⟩
          rintro rfl
          exact hres hn

omit hgen hs in
theorem abortBegin_cases (x : Handoff) : (∃ err, x.abortBegin.2 = .returned (some err)) ∨
    x.abortBegin.2 = .started x.successorID x.tokens := by
  unfold Handoff.abortBegin
  split
  · exact .inl ⟨_, rfl⟩
  · exact .inr rfl

/-- `Abort`: when it returns nil, no claim is reserved by the generation. -/
theorem abort_wp : wp (exec cfg) free (Aborted cfg h L H w) (Code.abort cfg h) w := by
  refine wp_act fun e _ => ?_
  have hsame : Same h w (exec cfg (.abortBegin h) e w).1 := routine_same rfl e
  have hs' := hs.of_same hsame (routine_ready rfl e hs.ready)
  have hans : (exec cfg (.abortBegin h) e w).2 = (w.handoffs h).abortBegin.2 := rfl
  rw [hans]
  rcases abortBegin_cases (w.handoffs h) with ⟨err, hb⟩ | hb <;> rw [hb]
  · refine ⟨hs', fun n t hl => ?_, (fun h => by cases h), (fun h => by cases h)⟩
    rwa [hsame.stored]
  refine wp_act fun e' _ => wp_seq (abortClaims_wp hgen hs' fun n hn => ?_) fun w₁ r ha => ?_
  · have hn : (w.backend.recordOf n).ReservedBy cfg.generationID := by rwa [← hsame.stored]
    have hmem := (hs.entry n hn).resolve_right (by simp)
    refine ⟨hmem, ?_⟩
    rw [show (exec cfg (.handoffClaims h) e' (exec cfg (.abortBegin h) e w).1).2 = L from hs'.claims]
    exact hs.listed n hmem
  · have ha : Aborted cfg h L H w w₁ r :=
      ⟨ha.sound, fun n t hl => ha.lost n t (by rwa [hsame.stored]),
        fun he n t hl => by simpa only [hsame.stored] using ha.kept he n t hl, ha.unreserved⟩
    cases r with
    | some err => exact ha
    | none =>
      refine wp_seq (ha.sound.routine (setState_routine _ _)) fun w₂ _ hw₂ => ?_
      refine wp_seq (hw₂.1.routine (uses_routine rfl)) fun w₃ _ hw₃ => ?_
      exact (ha.of_stored hw₂.1 hw₂.2.stored).of_stored hw₃.1 hw₃.2.stored

/-! ## Drain -/

omit hgen in
theorem drainClaims_wp :
    wp (exec cfg) free (fun w' r => Sound cfg h L H none w' ∧ Same h w w' ∧
        (r = none → ∀ n ∈ names, (w'.coord.claims n).drain.draining))
      (Code.drainClaims h names) w := by
  induction names generalizing w with
  | nil => exact wp_ret ⟨hs, .refl w, fun _ n hn => by simp at hn⟩
  | cons name rest ih =>
    refine wp_act fun e _ => wp_act fun e' _ => ?_
    have hsame : Same h w (exec cfg (.startDrain name) e w).1 := routine_same rfl e
    have hs' := hs.of_same hsame (routine_ready rfl e hs.ready)
    generalize (exec cfg (.drainWait name) e' (exec cfg (.startDrain name) e w).1).2 = ans
    cases ans with
    | some err =>
      refine wp_seq (hs'.routine (uses_routine rfl)) fun w₁ _ hw₁ => ?_
      refine wp_seq (hw₁.1.routine (fail_routine err)) fun w₂ _ hw₂ => ?_
      exact ⟨hw₂.1, (hsame.trans hw₁.2).trans hw₂.2, fun h => by cases h⟩
    | none =>
      refine Prog.wp_mono (fun w' r hw => ⟨hw.1, hsame.trans hw.2.1, fun hr n hn => ?_⟩) (ih hs')
      rcases List.mem_cons.mp hn with rfl | hn
      · refine (hw.2.1.claim n).draining ?_
        show ((exec cfg (.startDrain n) e w).1.coord.claims n).drain.draining = true
        rw [exec_claims, if_pos (by rfl)]
        exact startDrain_draining _
      · exact hw.2.2 hr n hn

omit hgen in
theorem drain_wp :
    wp (exec cfg) free (fun w' _ => Sound cfg h L H none w' ∧
      (w'.handoffs h).tokens = (w.handoffs h).tokens) (Code.drain h) w := by
  refine wp_seq (hs.routine (uses_routine rfl)) fun w₁ r hw₁ => ?_
  cases r with
  | some err => exact ⟨hw₁.1, hw₁.2.tokens⟩
  | none =>
    refine wp_seq (hw₁.1.routine (setState_routine _ _)) fun w₂ _ hw₂ => ?_
    refine wp_seq (hw₂.1.routine (uses_routine rfl)) fun w₃ _ hw₃ => ?_
    refine wp_act fun e _ => ?_
    rw [show (exec cfg (.handoffClaims h) e w₃).2 = L from hw₃.1.claims]
    have hsame := (hw₁.2.trans hw₂.2).trans hw₃.2
    refine wp_seq (drainClaims_wp hw₃.1) fun w₄ r hw₄ => ?_
    have htokens := (hsame.trans hw₄.2.1).tokens
    cases r with
    | some err => exact ⟨hw₄.1, htokens⟩
    | none =>
      refine wp_act fun e' _ => ?_
      have hs₅ := hw₄.1.drainEnd (e := e') (hw₄.2.2 rfl)
      refine wp_seq (hs₅.routine (uses_routine rfl)) fun w₆ _ hw₆ => ⟨hw₆.1, ?_⟩
      refine hw₆.2.tokens.trans (Eq.trans ?_ htokens)
      rw [exec_handoffs cfg e' w₄ _ (fun h => by cases h), if_pos (by rfl)]
      rfl

/-! ## Transfer -/

theorem transferClaims_wp (hnames : ∀ n ∈ names, n ∈ L) :
    Keeps cfg h L H (Code.transferClaims cfg h successor names) w := by
  induction names generalizing w with
  | nil => exact wp_ret hs
  | cons name rest ih =>
    refine wp_act fun e _ => ?_
    have hrest : ∀ n ∈ rest, n ∈ L := fun n hn => hnames n (by simp [hn])
    generalize (exec cfg (.currentLeaseToken name) e w).2 = ans
    cases ans with
    | none => exact ih hs hrest
    | some token =>
      refine wp_request hs.ready (fun _ => rfl) fun id e b r _ hc hw => ?_
      split
      · rename_i err hr
        have hs' : Sound cfg h L H none { w.counted with backend := b } := by
          refine hs.effect hgen hc.effect rfl rfl rfl rfl hw fun n hn => .inl ?_
          rcases hc.prepare_error hr n with he | ⟨now, he⟩ <;> rw [he] at hn
          · exact hn
          · exact Memory.expire_reservedBy now hn
        refine wp_seq (hs'.routine (fail_routine err)) fun w₁ _ hw₁ => ?_
        refine wp_seq (hw₁.1.routine startTimeoutWatcher_routine) fun w₂ _ hw₂ => ?_
        refine wp_seq (abortPrepared_wp hgen hw₂.1) fun w₃ _ hw₃ => ?_
        exact wp_seq (hw₃.routine (uses_routine rfl)) fun w₄ _ hw₄ => hw₄.1
      · rename_i record hr
        obtain ⟨hstored, -⟩ := hc.confirmed rfl hr
        have hs' : Sound cfg h L H (some name) { w.counted with backend := b } :=
          hs.effect hgen hc.effect rfl rfl rfl rfl hw fun n hn =>
            (hc.effect.reservedBy hn).imp_right fun h => h.1
        refine wp_act fun e₁ _ => wp_act fun e₂ _ => ?_
        have hs₂ := (hs'.applyRecord (e := e₁) hstored).setToken (e := e₂) (hnames name (by simp))
          (congrArg (·.fencingToken) (Memory.Backend.recordOf_of_some hstored) :)
        exact wp_seq (hs₂.routine (uses_routine rfl)) fun w₃ _ hw₃ => ih hw₃.1 hrest

theorem transferRun_wp : Keeps cfg h L H (Code.transferRun cfg h successor) w := by
  refine wp_seq (hs.routine (setState_routine _ _)) fun w₁ _ hw₁ => wp_act fun e _ => ?_
  rw [show (exec cfg (.handoffClaims h) e w₁).2 = L from hw₁.1.claims]
  refine wp_seq (transferClaims_wp hgen hw₁.1 (fun _ hn => hn)) fun w₂ r hw₂ => ?_
  cases r with
  | some err => exact wp_ret hw₂
  | none =>
    refine wp_seq (hw₂.routine (uses_routine rfl)) fun w₃ _ hw₃ => ?_
    exact wp_seq (hw₃.1.routine startTimeoutWatcher_routine) fun w₄ _ hw₄ => hw₄.1

omit hgen hs in
/-- How `Transfer` leaves its first section. -/
theorem transferBegin_cases (y : Handoff) (s : String) :
    ((y.transferBegin s).1 = y ∧ ∃ err, (y.transferBegin s).2 = .refused err) ∨
      ((y.status ≠ .committed ∧ y.status ≠ .aborted) ∧
        ((y.transferBegin s = (y, .needsDrain)) ∨
          y.transferBegin s = (y.transferStart s, .started))) := by
  unfold Handoff.transferBegin
  split
  · exact .inl ⟨rfl, _, rfl⟩
  · rename_i hst
    rw [not_or] at hst
    refine .inr ⟨hst, ?_⟩
    split
    · exact .inl rfl
    · exact .inr rfl

/-- `Transfer`, called while there are no entries, or refused. -/
theorem transfer_wp (hfresh : (w.handoffs h).tokens = ∅ ∨ (w.handoffs h).status = .committed ∨
      (w.handoffs h).status = .aborted) :
    Keeps cfg h L H (Code.transfer cfg h successor) w := by
  unfold Code.transfer
  split
  · exact wp_ret hs
  refine wp_act fun e _ => ?_
  have hans : (exec cfg (.transferBegin h successor) e w).2 =
      ((w.handoffs h).transferBegin successor).2 := rfl
  have hkeep : ((w.handoffs h).transferBegin successor).1 = w.handoffs h →
      Sound cfg h L H none (exec cfg (.transferBegin h successor) e w).1 := by
    intro hk
    have hsec : Act.handoffSection (w.handoffs h) (.transferBegin h successor) = w.handoffs h := hk
    exact hs.handoff rfl (by rw [hsec]; exact hs.claims) (by rw [hsec]; exact hs.entry)
      (by rw [hsec]; exact hs.listed) (by rw [hsec]; exact hs.drained)
      (by rw [hsec]; exact fun _ _ _ _ hold => hold)
  rcases transferBegin_cases (w.handoffs h) successor with ⟨hk, err, hr⟩ | ⟨hst, hr⟩
  · rw [hans, hr]
    exact hkeep hk
  have hempty : (w.handoffs h).tokens = ∅ :=
    hfresh.resolve_right fun h => h.elim hst.1 hst.2
  rcases hr with hr | hr
  · rw [hans, hr]
    refine wp_seq (drain_wp (hkeep (by rw [hr]))) fun w₁ r hw₁ => ?_
    cases r with
    | some err => exact wp_ret hw₁.1
    | none =>
      refine wp_act fun e' _ => transferRun_wp hgen (hw₁.1.transferStart rfl rfl ?_)
      rw [hw₁.2, exec_handoffs cfg e w _ (fun h => by cases h), if_pos (by rfl)]
      show ((w.handoffs h).transferBegin successor).1.tokens = ∅
      rw [hr, hempty]
  · rw [hans, hr]
    exact transferRun_wp hgen
      (hs.transferStart (a := .transferBegin h successor) rfl (congrArg Prod.fst hr) hempty)

/-! ## Commit -/

omit hgen hs in
theorem wrapSucc_ne (t : FencingToken) : wrapSucc t ≠ t := by
  unfold wrapSucc
  omega

theorem commitClaims_wp {committed : List String}
    (htokens : ∀ n t t', H n t → tokens.lookup n = some t' →
      (w.backend.recordOf n).Lost cfg.generationID t ∨ t' = t) :
    Keeps cfg h L H (Code.commitClaims cfg h successor tokens committed names) w := by
  induction names generalizing w committed with
  | nil => exact wp_ret hs
  | cons name rest ih =>
    unfold Code.commitClaims
    split
    · exact ih hs htokens
    rename_i token hlook
    refine wp_request hs.ready (fun _ => rfl) fun id e b r _ hc hw => ?_
    have hs' := hs.called hgen hc (by simp) hw
    split
    · rename_i err hr
      refine wp_seq (hs'.routine (fail_routine err)) fun w₁ _ hw₁ => ?_
      refine wp_seq (hw₁.1.routine startTimeoutWatcher_routine) fun w₂ _ hw₂ => ?_
      exact wp_seq (abortUncommitted_wp hgen hw₂.1 committed) fun w₃ _ hw₃ => hw₃
    · rename_i record hr
      obtain ⟨hstored, -, htoken, hphase, -⟩ := hc.confirmed rfl hr
      have hrecord : b.recordOf name = record := Memory.Backend.recordOf_of_some hstored
      -- The committed token is one further than the entry, so the old one is lost.
      have hlost : ∀ t, H name t → (b.recordOf name).Lost cfg.generationID t := by
        intro t ht
        refine (hs'.kept name t ht).resolve_right ?_
        rintro ⟨hh, _⟩
        rcases htokens name t token ht hlook with hl | rfl
        · exact hh.stored.not_lost (hc.effect.lost hgen hl)
        · refine wrapSucc_ne token (htoken.symm.trans ?_)
          rw [← hrecord]
          exact hh.stored.token
      refine wp_act fun e₁ _ => wp_act fun e₂ _ => wp_act fun e₃ _ => ?_
      have hs₃ := ((hs'.applyRecord (e := e₁) hstored).revokeLease (e := e₂)
        .transferCommitted hlost).dropToken (e := e₃) name fun hres => by
          have hp : (b.recordOf name).phase = .reserved := hres.1
          rw [hrecord, hphase] at hp
          cases hp
      refine wp_seq (hs₃.routine (uses_routine rfl)) fun w₄ _ hw₄ => ih hw₄.1 ?_
      intro n t t' hn hlook'
      rw [hw₄.2.stored]
      exact (htokens n t t' hn hlook').imp_left (hc.effect.lost hgen)

omit hgen hs in
theorem commitBegin_cases (y : Handoff) : (∃ err, y.commitBegin = .returned err) ∨
    y.commitBegin = .started y.successorID y.tokens := by
  unfold Handoff.commitBegin
  split
  · exact .inl ⟨_, rfl⟩
  split
  · exact .inl ⟨_, rfl⟩
  split
  · exact .inl ⟨_, rfl⟩
  · exact .inr rfl

theorem commit_wp : Keeps cfg h L H (Code.commit cfg h) w := by
  refine wp_act fun e _ => ?_
  rw [show (exec cfg (.commitBegin h) e w).2 = (w.handoffs h).commitBegin from rfl]
  rcases commitBegin_cases (w.handoffs h) with ⟨err, hb⟩ | hb <;> rw [hb]
  · exact hs
  · refine wp_act fun e' _ => wp_seq (commitClaims_wp hgen hs fun n t t' hn hlook => ?_)
      fun w₁ r hw₁ => ?_
    · exact (hs.kept n t hn).imp_right fun hk => hk.2 t' hlook
    · cases r with
      | some err => exact wp_ret hw₁
      | none =>
        refine wp_seq (hw₁.routine (uses_routine rfl)) fun w₂ _ hw₂ => ?_
        refine wp_seq (hw₂.1.routine (setState_routine _ _)) fun w₃ _ hw₃ => ?_
        exact wp_seq (hw₃.1.routine (uses_routine rfl)) fun w₄ _ hw₄ => hw₄.1

/-! ## Histories -/

/-- The calls on handoff `h`, and its watcher. -/
def onHandoff (h : Nat) : Task → Bool
  | .drain h' | .transfer h' _ | .commit h' | .abort h' | .watcher h' => h' = h
  | _ => false

/-- The step does not call `Transfer` while the handoff has entries, unless it is refused. -/
def transfersFresh (h : Nat) (w : World) : Step → Bool
  | .call (.transfer _ _) _ =>
    (w.handoffs h).tokens.entries = [] || (w.handoffs h).status = .committed ||
      (w.handoffs h).status = .aborted
  | _ => true

theorem task_wp {t : Task} (ht : onHandoff h t) (es : Nat → Env)
    (hfresh : transfersFresh h w (.call t es)) :
    wp (exec cfg) free (fun w' r => Sound cfg h L H none w' ∧
        (t = .abort h → r = .inl (.error none) → Aborted cfg h L H w w' none))
      (Code.task cfg t) w := by
  cases t <;> first | cases ht | skip
  all_goals obtain rfl : _ = h := by simpa [onHandoff] using ht
  case drain => exact wp_seq (drain_wp hs) fun _ _ hw => ⟨hw.1, fun h => by cases h⟩
  case transfer s =>
    refine wp_seq (transfer_wp hgen hs ?_) fun _ _ hw => ⟨hw, fun h => by cases h⟩
    simp only [transfersFresh, Bool.or_eq_true, decide_eq_true_eq] at hfresh
    rcases hfresh with (h | h) | h
    · exact .inl (AList.ext h)
    · exact .inr (.inl h)
    · exact .inr (.inr h)
  case commit => exact wp_seq (commit_wp hgen hs) fun _ _ hw => ⟨hw, fun h => by cases h⟩
  case abort =>
    refine wp_seq (abort_wp hgen hs) fun _ r ha => ⟨ha.sound, fun _ hr => ?_⟩
    cases hr
    exact ha
  case watcher =>
    refine wp_seq ?_ fun _ _ hw => ⟨hw, fun h => by cases h⟩
    refine wp_act fun e _ => ?_
    generalize (exec cfg .tick e w).2 = ans
    cases ans with
    | false => exact wp_ret hs
    | true =>
      refine wp_act fun e' _ => ?_
      generalize (exec cfg (.watcherCheck _) e' _).2 = ans
      cases ans with
      | false => exact wp_ret hs
      | true => exact wp_seq (abort_wp hgen hs) fun _ _ ha => ha.sound

theorem Sound.step {y : Step}
    (hcall : ∀ t es, y = .call t es → onHandoff h t)
    (hclient : ∀ c op, y = .client c op → Other cfg.generationID op)
    (hfresh : transfersFresh h w y) : Sound cfg h L H none (y.run cfg w) := by
  cases y with
  | call t es =>
    exact (Prog.run_of_wp (task_wp hgen hs (hcall t es rfl) es hfresh)
      (Prog.along_true es _ 0 w)).1
  | client c op => exact hs.client hgen c (hclient c op rfl)

end

/-- What is assumed of a history: it is about one handoff, which is new, and no claim is reserved by
the generation at its start; `Transfer` is not called while there are entries. -/
structure Setting (cfg : Config) (h : Nat) (w : World) (xs : List Step) : Prop where
  named : cfg.generationID ≠ ""
  ready : w.Ready cfg
  tokens : (w.handoffs h).tokens = ∅
  drainDone : (w.handoffs h).drainDone = false
  unreserved : ∀ n, ¬ (w.backend.recordOf n).ReservedBy cfg.generationID
  calls : ∀ t es, .call t es ∈ xs → onHandoff h t
  clients : ∀ c op, .client c op ∈ xs → Other cfg.generationID op
  fresh : Conc.Run.Meets (Step.run cfg) (transfersFresh h) w xs

variable {xs : List Step}

theorem Setting.step (hset : Setting cfg h w xs) {i : Nat} {y : Step} (hy : xs[i]? = some y)
    (hs : Sound cfg h L H none (worldAt cfg w xs i)) :
    Sound cfg h L H none (worldAt cfg w xs (i + 1)) := by
  rw [worldAt, Run.stateAt_succ hy]
  have hmem := List.mem_of_getElem? hy
  exact hs.step hset.named (fun t es e => hset.calls t es (e ▸ hmem))
    (fun c op e => hset.clients c op (e ▸ hmem)) (Run.meets_getElem hset.fresh hy)

theorem Setting.sound (hset : Setting cfg h w xs) {i : Nat} (hi : i ≤ xs.length) :
    Sound cfg h (w.handoffs h).claims (fun _ _ => False) none (worldAt cfg w xs i) := by
  refine Run.along ?_ (fun i y hy ih => hset.step hy ih) hi
  refine ⟨hset.ready, rfl, fun n hn => absurd hn (hset.unreserved n), fun n hn => ?_, fun hd => ?_,
    fun _ _ h => h.elim⟩
  · have hn : n ∈ (w.handoffs h).tokens := hn
    rw [hset.tokens] at hn
    exact absurd hn (AList.notMem_empty n)
  · have hd : (w.handoffs h).drainDone = true := hd
    rw [hset.drainDone] at hd
    cases hd

/-- A claim that is held and has no entry yet is followed from there on. -/
theorem Setting.follows (hset : Setting cfg h w xs) {i j : Nat} (hij : i ≤ j) (hj : j ≤ xs.length)
    {n : String} {t : FencingToken} (hheld : Holds cfg (worldAt cfg w xs i) n t)
    (hentry : n ∉ ((worldAt cfg w xs i).handoffs h).tokens) :
    Sound cfg h (w.handoffs h).claims (fun n' t' => n' = n ∧ t' = t) none (worldAt cfg w xs j) := by
  induction hij with
  | refl =>
    refine { hset.sound hj with kept := ?_ }
    rintro _ _ ⟨rfl, rfl⟩
    refine .inr ⟨hheld, fun t' ht' => absurd ?_ hentry⟩
    exact AList.lookup_isSome.mp (by rw [ht']; rfl)
  | @step j hij ih => exact hset.step (List.getElem?_eq_getElem hj) (ih (Nat.le_of_succ_le hj))

end ShiftLock.Rollback
