import ShiftLock.Handoff.Alone
import ShiftLock.Memory.Holder

/-!
# Handoffs after claims were released

Histories of `Claim`, `TryAcquire` and `Release` calls without failures and expiries (`calm`), with
other clients between them. At the end of every call a claim is held at the backend and in the
coordinator, or it belongs to somebody else and has no lease (`Status`). The cached record is not
part of this: `Release` leaves it as it is, so a claim that was released still has a record by which
this generation controls it, and `Transfer` takes it for a claim to reserve.
-/

namespace ShiftLock
namespace Released

open Conc Function
open Conc.Prog (wp Uses)
open Coord

/-! ## Actions without failures -/

/-- The action meets no failure, no expiry and no timeout. -/
def calm (a : Act) (e : Env) (w : World) : Bool :=
  match a with
  | .call op =>
    e.fault.isNone && !w.backend.armed op && op.claimName.all fun n =>
      Memory.expire e.call.expireNow (w.backend.recordOf n) = w.backend.recordOf n
  | .drainWait _ => e.expired.isNone
  | _ => true

/-- A claim without the flag of its renewal loop. -/
def core (c : Claim) : Claim := { c with renewing := false }

/-- Everything but the claim in `x`, the counters and the generation is as it was. -/
structure Beside (x : Option String) (w w' : World) : Prop where
  claims : ∀ m, x ≠ some m → core (w'.coord.claims m) = core (w.coord.claims m)
  stored : ∀ m, x ≠ some m → w'.backend.recordOf m = w.backend.recordOf m
  known : w'.coord.known = w.coord.known
  closed : w'.coord.closed = w.coord.closed
  shutdown : w'.coord.shutdown = w.coord.shutdown

variable {cfg : Config} {w w' : World} {x : Option String} {e : Env} {n : String} {α : Type}

theorem Beside.trans {w₁ w₂ w₃ : World} (h : Beside x w₁ w₂) (h' : Beside x w₂ w₃) :
    Beside x w₁ w₃ :=
  ⟨fun m hm => (h'.claims m hm).trans (h.claims m hm),
    fun m hm => (h'.stored m hm).trans (h.stored m hm), h'.known.trans h.known,
    h'.closed.trans h.closed, h'.shutdown.trans h.shutdown⟩

theorem Beside.widen (h : Beside none w w') : Beside x w w' :=
  ⟨fun m _ => h.claims m (by simp), fun m _ => h.stored m (by simp), h.known, h.closed, h.shutdown⟩

/-- The actions that only work on claim `x`. -/
def within (x : Option String) (a : Act) : Bool :=
  (a.claimOf = none || a.claimOf = x) && match a with
    | .call op => op.claimName = none || op.claimName = x
    | .claim _ | .closeBegin | .shutdown => false
    | _ => true

theorem act_beside {a : Act} (ha : within x a) : Beside x w (exec cfg a e w).1 := by
  simp only [within, Bool.and_eq_true, Bool.or_eq_true, decide_eq_true_eq] at ha
  obtain ⟨hclaim, ha⟩ := ha
  have hlist := exec_listing cfg e w (a := a) (by rintro _ rfl; cases ha) (by rintro rfl; cases ha)
  refine ⟨fun m hm => ?_, fun m hm => ?_, hlist.1, hlist.2,
    exec_shutdown cfg e w (by rintro rfl; cases ha)⟩
  · rw [exec_claims, if_neg]
    rcases hclaim with h | h <;> rw [h]
    · simp
    · exact hm
  · by_cases hc : ∃ op, a = .call op
    · obtain ⟨op, rfl⟩ := hc
      unfold exec
      cases e.fault with
      | some err => rfl
      | none =>
        refine ((w.backend.locked_effect e.call op).recordOf_cases m).resolve_right fun h => ?_
        simp only [Bool.or_eq_true, decide_eq_true_eq] at ha
        rcases ha with ha | ha <;> rw [ha] at h
        · cases h.1
        · exact hm h.1
    · push Not at hc
      rw [exec_backend cfg e w hc]

/-- The flag of the renewal loop is not seen. -/
theorem markRenewing_beside : Beside none w (exec cfg (.markRenewing n) e w).1 := by
  have h : Beside (some n) w (exec cfg (.markRenewing n) e w).1 := act_beside (by simp [within, Act.claimOf])
  refine ⟨fun m _ => ?_, fun m _ => ?_, h.known, h.closed, h.shutdown⟩
  · rw [exec_claims]
    split
    · unfold Act.section Claim.markRenewing
      dsimp only
      split <;> rfl
    · rfl
  · rw [exec_backend cfg e w (by simp)]

theorem call_handoffs (op : Memory.Op) : (exec cfg (.call op) e w).1.handoffs = w.handoffs := by
  unfold exec
  cases e.fault <;> rfl

variable {C : Act → Env → World → Prop} {genID : String} {r : Memory.Reply} {c c' : Claim}
  {op : Memory.Op} {b' : Memory.Backend}

/-- What `setState` does when the transition is allowed. -/
theorem setState_wp {target : GenerationState} {reason : TransitionReason} (hw : w.Ready cfg)
    (hok : w.coord.gen.state = target ∨ canTransition w.coord.gen.state target = true) :
    wp (exec cfg) C (fun w' r => r = none ∧ Beside none w w' ∧ w'.Ready cfg ∧
      w'.coord.gen.state = target ∧ w'.handoffs = w.handoffs ∧
      w'.coord.handoffs = w.coord.handoffs) (Code.setState target reason) w := by
  refine wp_act fun e _ => ?_
  have hready := hw.act e (a := .setState target reason) (fun _ h => by cases h)
  have hbeside : Beside none w (exec cfg (.setState target reason) e w).1 := act_beside rfl
  have hexec : exec cfg (.setState target reason) e w =
      w.withCoord (w.coord.setState e.now target reason) := rfl
  rw [hexec] at hready hbeside ⊢
  unfold Coord.setState at hready hbeside ⊢
  by_cases hsame : w.coord.gen.state = target
  · simp only [if_pos hsame] at hready hbeside ⊢
    exact ⟨rfl, hbeside, hready, hsame, rfl, rfl⟩
  · have hcan := hok.resolve_left hsame
    simp only [if_neg hsame, if_pos hcan] at hready hbeside ⊢
    refine wp_act fun e₁ _ => wp_act fun e₂ _ => ?_
    have hready₁ := hready.act e₁
      (a := .call (.updateGeneration { w.coord.gen with state := target, reason, updatedAt := e.now }))
      (fun _ h => by cases h; rfl)
    refine ⟨rfl, (hbeside.trans (act_beside rfl)).trans (act_beside rfl), hready₁.act e₂ (by simp),
      ?_, ?_, ?_⟩
    · exact (congrArg (·.gen.state) (exec_call_coord ..) :)
    · exact call_handoffs ..
    · exact (congrArg (·.handoffs) (exec_call_coord ..) :)

/-! ## The invariant -/

/-- A claim between two calls: it has no lease and another owner or none, or it is held. -/
inductive Status (genID : String) (r : ClaimRecord) (c : Claim) : Prop
  | away (hl : c.lease = none) (ho : r.ownerGeneration ≠ genID)
  | held {t : FencingToken} (hl : ∃ l, c.lease = some l ∧ l.token = t) (hr : r.HeldBy genID t)
      (hp : r.phase = .owned)

/-- A claim that no call works on. -/
structure Resting (c : Claim) : Prop where
  isOpen : c.closed = false
  acquiring : c.acquiring = false
  drain : c.drain = .new 0

/-- The coordinator between two calls. -/
structure Calm (cfg : Config) (w : World) : Prop where
  ready : w.Ready cfg
  isOpen : w.coord.closed = false
  live : w.coord.shutdown = false
  state : w.coord.gen.state = .standby ∨ w.coord.gen.state = .active
  active : ∀ n l, (w.coord.claims n).lease = some l → w.coord.gen.state = .active
  nodup : w.coord.known.Nodup
  known : ∀ n, n ∉ w.coord.known →
    (w.coord.claims n).lease = none ∧ (w.coord.claims n).record.controls cfg.generationID = false
  resting : ∀ n, Resting (w.coord.claims n)
  status : ∀ n, Status cfg.generationID (w.backend.recordOf n) (w.coord.claims n)

theorem Status.of_core {r : ClaimRecord} (h : Status genID r c) (hc : core c' = core c) :
    Status genID r c' := by
  have hl : c'.lease = c.lease := (congrArg (·.lease) hc :)
  cases h with
  | away h ho => exact .away (hl.trans h) ho
  | held h hr hp => exact .held (by rwa [hl]) hr hp

theorem Resting.of_core (h : Resting c) (hc : core c' = core c) : Resting c' where
  isOpen := (congrArg (·.closed) hc :).trans h.isOpen
  acquiring := (congrArg (·.acquiring) hc :).trans h.acquiring
  drain := (congrArg (·.drain) hc :).trans h.drain

/-- A call on claim `n` leaves it in one of its states. -/
theorem Calm.of_beside (hs : Calm cfg w) (hb : Beside (some n) w w') (hn : n ∈ w.coord.known)
    (hready : w'.Ready cfg)
    (hstate : w'.coord.gen.state = w.coord.gen.state ∨ w'.coord.gen.state = .active)
    (hactive : ∀ l, (w'.coord.claims n).lease = some l → w'.coord.gen.state = .active)
    (hrest : Resting (w'.coord.claims n))
    (hstatus : Status cfg.generationID (w'.backend.recordOf n) (w'.coord.claims n)) :
    Calm cfg w' := by
  have hcore : ∀ m, m ≠ n → core (w'.coord.claims m) = core (w.coord.claims m) := fun m hm =>
    hb.claims m (by simpa using Ne.symm hm)
  refine ⟨hready, hb.closed.trans hs.isOpen, hb.shutdown.trans hs.live, ?_, fun m l hl => ?_,
    by rw [hb.known]; exact hs.nodup, fun m hm => ?_, fun m => ?_, fun m => ?_⟩
  · rcases hstate with h | h <;> rw [h]
    · exact hs.state
    · exact .inr rfl
  · by_cases hmn : m = n
    · subst hmn; exact hactive l hl
    · have hold : (w.coord.claims m).lease = some l :=
        (congrArg (·.lease) (hcore m hmn) :).symm.trans hl
      have := hs.active m l hold
      rcases hstate with h | h
      · exact h.trans this
      · exact h
  · rw [hb.known] at hm
    have hmn : m ≠ n := by rintro rfl; exact hm hn
    have h := hs.known m hm
    exact ⟨(congrArg (·.lease) (hcore m hmn) :).trans h.1,
      (congrArg (·.record.controls cfg.generationID) (hcore m hmn) :).trans h.2⟩
  · by_cases hmn : m = n
    · subst hmn; exact hrest
    · exact (hs.resting m).of_core (hcore m hmn)
  · by_cases hmn : m = n
    · subst hmn; exact hstatus
    · rw [hb.stored m (by simpa using Ne.symm hmn)]
      exact (hs.status m).of_core (hcore m hmn)

/-! ## The calls -/

/-- The condition of `calm` as one of a program. -/
abbrev Calmly : Act → Env → World → Prop := fun a e w => calm a e w = true

/-- A claim operation in a calm environment is run. -/
theorem called_calm (hC : calm (.call op) e w) (hc : Memory.Called e op w.backend b' r) {m : String}
    (hm : op.claimName = some m) :
    (∃ id, op.operationID = some id ∧ w.backend.recallOp id = none) ∧
      (b', r) = w.backend.locked e.call op ∧ w.backend.armed op = false ∧
      Memory.expire e.call.expireNow (w.backend.recordOf m) = w.backend.recordOf m := by
  simp only [calm, hm, Option.all_some, Bool.and_eq_true, Option.isNone_iff_eq_none,
    Bool.not_eq_true', decide_eq_true_eq] at hC
  obtain ⟨⟨hf, harm⟩, hexp⟩ := hC
  cases hc with
  | fault h => rw [hf] at h; cases h
  | ran _ hid hnew => exact ⟨⟨_, hid, hnew⟩, rfl, harm, hexp⟩

theorem stored_of_held {b : Memory.Backend} {t : FencingToken} (hgen : genID ≠ "")
    (h : (b.recordOf n).HeldBy genID t) : b.claims n = some (b.recordOf n) := by
  cases hb : b.claims n with
  | none =>
    have := h.owner
    rw [Memory.Backend.recordOf_of_none hb] at this
    exact absurd this.symm hgen
  | some cl => rw [Memory.Backend.recordOf_of_some hb]

theorem setClaim_beside (w : World) (n : String) (c : Claim) : Beside (some n) w (w.setClaim n c) := by
  refine ⟨fun m hm => ?_, fun _ _ => rfl, rfl, rfl, rfl⟩
  have hm : m ≠ n := fun h => hm (by rw [h])
  exact congrArg core (update_of_ne hm _ _)

/-- A call on claim `n` at the backend. -/
theorem called_beside (hc : Memory.Called e op w.backend b' r) (hn : op.claimName = some n) :
    Beside (some n) w { w.counted with backend := b' } :=
  ⟨fun _ _ => rfl, fun m hm => (hc.effect.recordOf_cases m).resolve_right fun h => by
    rw [hn] at h; exact hm h.1, rfl, rfl, rfl⟩

theorem startRenewal_wp (hw : w.Ready cfg) :
    wp (exec cfg) C (fun w' _ => Beside none w w' ∧ w'.Ready cfg ∧
      w'.coord.gen.state = w.coord.gen.state) (Code.startRenewal n) w := by
  refine wp_act fun e _ => ?_
  have hb : Beside none w (exec cfg (.markRenewing n) e w).1 := markRenewing_beside
  have hr := hw.act e (a := .markRenewing n) (by simp)
  generalize (exec cfg (.markRenewing n) e w).2 = ans
  cases ans with
  | false => exact ⟨hb, hr, rfl⟩
  | true => exact wp_act fun _ _ => ⟨hb, hr, rfl⟩

section

variable (hgen : cfg.generationID ≠ "")

include hgen

variable {b b' : Memory.Backend} {r : Memory.Reply} {h : Nat}

omit hgen in
/-- What `AcquireClaim` returns for a claim that somebody else owns, or nobody. -/
theorem acquire_granted {req : AcquireRequest} (hreq : req.generationID = cfg.generationID)
    (hc : Memory.Called e (.acquireClaim req) b b' r)
    (hexp : Memory.expire e.call.expireNow (b.recordOf req.claimName) = b.recordOf req.claimName)
    (ho : (b.recordOf req.claimName).ownerGeneration ≠ cfg.generationID) {record : ClaimRecord}
    (hr : r.result = .ok record) :
    b'.recordOf req.claimName = record ∧ record.phase = .owned ∧
      record.ownerGeneration = cfg.generationID ∧ record.fencingToken ≠ 0 := by
  obtain ⟨hstored, howner, -⟩ := hc.confirmed rfl hr
  have hrecord := Memory.Backend.recordOf_of_some hstored
  refine ⟨hrecord, ?_⟩
  rw [hreq] at howner
  rcases hc.effect.recordOf_cases req.claimName with h | ⟨-, h⟩
  · rw [← h, hrecord] at ho
    exact absurd howner ho
  · rw [hexp, hrecord] at h
    generalize b.recordOf req.claimName = cl at h ho
    cases h with
    | keep => exact absurd howner ho
    | extend now _ hown => exact absurd (hown.trans hreq) ho
    | grant now _ => exact ⟨rfl, howner, Nat.succ_ne_zero _⟩

/-- What `acquireClaim` leaves behind. -/
structure Acquired (cfg : Config) (n : String) (w w' : World)
    (r : Except Err Code.Obtained) : Prop where
  beside : Beside (some n) w w'
  ready : w'.Ready cfg
  state : w'.coord.gen.state = w.coord.gen.state ∨ w'.coord.gen.state = .active
  isOpen : (w'.coord.claims n).closed = false
  drain : (w'.coord.claims n).drain = .new 0
  status : Status cfg.generationID (w'.backend.recordOf n) (w'.coord.claims n)
  active : ((w'.coord.claims n).lease ≠ none ∨ ∃ o, r = .ok o) → w'.coord.gen.state = .active

theorem acquireClaim_wp (hw : w.Ready cfg)
    (hstate : w.coord.gen.state = .standby ∨ w.coord.gen.state = .active)
    (hlease : (w.coord.claims n).lease = none) (hopen : (w.coord.claims n).closed = false)
    (hdrain : (w.coord.claims n).drain = .new 0)
    (ho : (w.backend.recordOf n).ownerGeneration ≠ cfg.generationID) :
    wp (exec cfg) Calmly (Acquired cfg n w) (Code.acquireClaim cfg n) w := by
  refine wp_request hw (fun _ => rfl) fun id e b r hC hc hw' => ?_
  obtain ⟨-, hrun, -, hexp⟩ := called_calm hC hc rfl
  have hb : Beside (some n) w { w.counted with backend := b } := called_beside hc rfl
  split
  · rename_i err hr
    refine wp_ret ⟨hb, hw', .inl rfl, hopen, hdrain, .away hlease ?_, ?_⟩
    · have hlocked : (w.backend.acquireLocked e.call _) = (b, r) := hrun.symm
      have herr := Memory.Backend.locked_error rfl rfl
        (by rw [Memory.Backend.locked, hlocked]
            exact (Memory.Backend.failed_of_result hr).imp_right fun h => ⟨h, fun _ hop => by cases hop⟩) n
      rw [Memory.Backend.locked, hlocked] at herr
      show (b.recordOf n).ownerGeneration ≠ _
      rcases herr with h | h <;> rw [h]
      · exact ho
      · exact Memory.expire_owner_ne _ hgen ho
    · rintro (h | ⟨o, h⟩)
      · exact absurd hlease h
      · cases h
  · rename_i record hr
    obtain ⟨hrecord, hphase, howner, htoken⟩ := acquire_granted rfl hc hexp ho hr
    refine wp_act fun e₁ _ => ?_
    -- The lease is installed, since there is none and the record names this generation.
    have hinstall : (w.coord.claims n).tryAcquireInstall w.live w.genID w.coord.nextLease record =
        ({ w.coord.claims n with
            lease := some { id := w.coord.nextLease, token := record.fencingToken }, record },
          .installed { id := w.coord.nextLease, token := record.fencingToken }) := by
      have howned : record.ownedBy w.genID = true := by
        simp [ClaimRecord.ownedBy, hphase, howner, htoken, hw.genID]
      simp [Claim.tryAcquireInstall, hopen, Claim.validLease, hlease, howned]
    have hexec := congrArg (World.withClaim { w.counted with backend := b }.bumpLease n) hinstall
    have hready := hw'.act e₁ (a := .tryAcquireInstall n record) (by simp)
    have hbeside : Beside (some n) w
        (exec cfg (.tryAcquireInstall n record) e₁ { w.counted with backend := b }).1 :=
      hb.trans (act_beside (by simp [within, Act.claimOf]))
    rw [show exec cfg (.tryAcquireInstall n record) e₁ { w.counted with backend := b } = _ from hexec]
      at hready hbeside ⊢
    refine wp_seq (setState_wp hready ?_) fun w₁ _ hset => ?_
    · rcases hstate with h | h
      · exact .inr ((congrArg (canTransition · .active) h :).trans rfl)
      · exact .inl h
    obtain ⟨-, hb₁, hr₁, hs₁, -⟩ := hset
    refine wp_act fun e₂ _ => ?_
    have hr₂ := hr₁.act e₂ (a := .emit {
      type := .claimAcquired, claim := n, token := record.fencingToken, reason := .acquired }) (by simp)
    refine wp_seq (startRenewal_wp hr₂) fun w₃ _ hstart => ?_
    obtain ⟨hb₃, hr₃, hs₃⟩ := hstart
    have hnone := (hb₁.trans (act_beside rfl)).trans hb₃
    have hcore : core (w₃.coord.claims n) = core { w.coord.claims n with
        lease := some { id := w.coord.nextLease, token := record.fencingToken }, record } :=
      (hnone.claims n (by simp)).trans (congrArg core (update_self ..))
    refine wp_ret ⟨hbeside.trans hnone.widen, hr₃, .inr (hs₃.trans hs₁),
      (congrArg (·.closed) hcore :).trans hopen, (congrArg (·.drain) hcore :).trans hdrain,
      ?_, fun _ => hs₃.trans hs₁⟩
    refine Status.of_core (.held ⟨_, rfl, rfl⟩ ?_ ?_) hcore <;> rw [hnone.stored n (by simp)]
    · have hheld : (b.recordOf n).HeldBy cfg.generationID record.fencingToken :=
        ⟨by rw [hrecord, howner], by rw [hrecord], .inl (by rw [hrecord, hphase])⟩
      exact hheld
    · exact (congrArg (·.phase) hrecord :).trans hphase

omit hgen in
theorem setClaim_self (w : World) (n : String) : w.setClaim n (w.coord.claims n) = w := by
  unfold World.setClaim Coord.setClaim
  rw [update_eq_self]

theorem tryAcquire_wp (hs : Calm cfg w) (hn : n ∈ w.coord.known) :
    wp (exec cfg) Calmly (fun w' r => Calm cfg w' ∧
        ((w.coord.gen.state = .active ∨ ∃ o, r = .ok o) → w'.coord.gen.state = .active))
      (Code.tryAcquire cfg n) w := by
  refine wp_act fun e _ => ?_
  have hopen := (hs.resting n).isOpen
  cases hs.status n with
  | held hl hr hp =>
    obtain ⟨l, hl, -⟩ := hl
    have hbegin : (w.coord.claims n).tryAcquireBegin w.live = (w.coord.claims n, .valid l) := by
      simp [Claim.tryAcquireBegin, hopen, Claim.validLease, World.live, hs.live, hl]
    rw [show exec cfg (.tryAcquireBegin n) e w = w.withClaim n (w.coord.claims n, .valid l) from
      congrArg (w.withClaim n) hbegin]
    refine wp_ret ⟨?_, fun _ => hs.active n l hl⟩
    show Calm cfg (w.setClaim n (w.coord.claims n))
    rwa [setClaim_self]
  | away hl ho =>
    have hbegin : (w.coord.claims n).tryAcquireBegin w.live =
        ({ w.coord.claims n with acquiring := true }, .entered) := by
      simp [Claim.tryAcquireBegin, hopen, Claim.validLease, hl, (hs.resting n).acquiring]
    have hready := hs.ready.act e (a := .tryAcquireBegin n) (by simp)
    have hexec := congrArg (w.withClaim n) hbegin
    rw [show exec cfg (.tryAcquireBegin n) e w = _ from hexec] at hready ⊢
    have hcl : (w.setClaim n { w.coord.claims n with acquiring := true }).coord.claims n =
        { w.coord.claims n with acquiring := true } := update_self ..
    refine wp_seq (acquireClaim_wp hgen hready hs.state ?_ ?_ ?_ ho)
      fun w₁ r h₁ => wp_act fun e' _ => ?_
    · exact (congrArg (·.lease) hcl :).trans hl
    · exact (congrArg (·.closed) hcl :).trans hopen
    · exact (congrArg (·.drain) hcl :).trans (hs.resting n).drain
    have hend : (exec cfg (.tryAcquireEnd n) e' w₁).1.coord.claims n =
        { w₁.coord.claims n with acquiring := false } := update_self ..
    refine wp_ret ⟨?_, ?_⟩
    · refine hs.of_beside (((setClaim_beside w n _).trans h₁.beside).trans
        (act_beside (by simp [within, Act.claimOf]))) hn (h₁.ready.act e' (by simp)) h₁.state ?_ ?_ ?_
      · intro l hl
        exact h₁.active (.inl (by rw [(congrArg (·.lease) hend :).symm.trans hl]; simp))
      · rw [hend]; exact ⟨h₁.isOpen, rfl, h₁.drain⟩
      · rw [hend]
        cases h₁.status with
        | away hl ho => exact .away hl ho
        | held hl hr hp => exact .held hl hr hp
    · rintro (h | h)
      · rcases h₁.state with h' | h'
        · exact h'.trans h
        · exact h'
      · exact h₁.active (.inr h)

/-- A `ReleaseClaim` that succeeds on a claim that is held takes its owner away. -/
theorem release_vacates {req : ReleaseRequest} (hc : Memory.Called e (.releaseClaim req) b b' r)
    (hexp : Memory.expire e.call.expireNow (b.recordOf req.claimName) = b.recordOf req.claimName)
    (hp : (b.recordOf req.claimName).phase ≠ .unowned)
    (hout : (b'.recordOf req.claimName).phase = .unowned) :
    (b'.recordOf req.claimName).ownerGeneration ≠ cfg.generationID := by
  rcases hc.effect.recordOf_cases req.claimName with h | ⟨-, h⟩
  · rw [h] at hout
    exact absurd hout hp
  · rw [hexp] at h
    generalize b'.recordOf req.claimName = cl' at h hout
    generalize b.recordOf req.claimName = cl at h hp
    cases h with
    | keep => exact absurd hout hp
    | giveUp _ _ => exact hgen.symm

theorem release_wp (hs : Calm cfg w) (hn : n ∈ w.coord.known) :
    wp (exec cfg) Calmly (fun w' _ => Calm cfg w' ∧ w'.coord.gen.state = w.coord.gen.state)
      (Code.release cfg n) w := by
  refine wp_act fun e₀ _ => ?_
  rw [show exec cfg (.lease n) e₀ w = (w, (w.coord.claims n).lease) from rfl]
  cases hs.status n with
  | away hl ho =>
    rw [hl]
    exact wp_ret ⟨hs, rfl⟩
  | @held t hl hr hp =>
    obtain ⟨l, hl, rfl⟩ := hl
    rw [hl]
    refine wp_request hs.ready (fun _ => rfl) fun id e b r hC hc hw' => ?_
    obtain ⟨⟨id', hid', hnew⟩, hrun, -, hexp⟩ := called_calm hC hc rfl
    cases hid'
    have hstored := stored_of_held hgen hr
    have hok := Memory.Backend.releaseLocked_owned (b := w.backend)
      { claimName := n, generationID := cfg.generationID, token := l.token, operationID := id }
      hnew hstored hexp hr.owner hr.token
    obtain ⟨cl, hcl, -, hout⟩ := Memory.Backend.releaseLocked_released hnew hok
    obtain ⟨rfl, rfl⟩ := Prod.mk.inj hrun
    have hvacant := release_vacates hgen hc hexp (by rw [hp]; simp)
      ((congrArg (·.phase) (Memory.Backend.recordOf_of_some hcl) :).trans hout)
    split
    · rename_i err he
      have he : (w.backend.releaseLocked e.call _).2 = some err := he
      rw [hok] at he
      cases he
    · refine wp_act fun e₁ _ => wp_act fun e₂ _ => wp_ret ⟨?_, rfl⟩
      have hready := (hw'.act e₁ (a := .revokeLease n .released) (by simp)).act e₂ (a := .emit {
        type := .claimReleased, claim := n, token := l.token, reason := .released }) (by simp)
      have hcl : ∀ w₁ : World, (w₁.coord.claims n).lease = some l →
          (exec cfg (.revokeLease n .released) e₁ w₁).1.coord.claims n =
            { w₁.coord.claims n with renewing := false, lease := none } := by
        intro w₁ hl₁
        rw [exec_claims, if_pos (by rfl)]
        simp only [Act.section, Claim.revokeLease, hl₁]
      refine hs.of_beside ((called_beside hc rfl).trans
        ((act_beside (by simp [within, Act.claimOf])).trans (act_beside rfl))) hn hready (.inl rfl)
        (fun l' hl' => ?_) ?_ ?_
      · have := (congrArg (·.lease) (hcl { w.counted with backend := _ } hl) :).symm.trans hl'
        cases this
      · have hrest := hs.resting n
        exact (congrArg Resting (hcl { w.counted with backend := _ } hl) :).mpr
          ⟨hrest.isOpen, hrest.acquiring, hrest.drain⟩
      · exact .away (congrArg (·.lease) (hcl { w.counted with backend := _ } hl) :) hvacant

omit hgen in
theorem claim_wp (hs : Calm cfg w) :
    wp (exec cfg) Calmly (fun w' _ => Calm cfg w' ∧ w'.coord.gen.state = w.coord.gen.state)
      (Code.claim n) w := by
  unfold Code.claim
  split
  · exact wp_ret ⟨hs, rfl⟩
  refine wp_act fun e _ => ?_
  rw [show exec cfg .checkOpen e w = (w, none) by simp [exec, Coord.checkOpen, hs.isOpen]]
  intro e' _
  rw [show exec cfg (.claim n) e' w = w.withCoord (w.coord.claim cfg n) from rfl]
  unfold Coord.claim
  split
  · exact ⟨hs, rfl⟩
  split
  · exact ⟨hs, rfl⟩
  · rename_i hn
    refine ⟨⟨⟨hs.ready.genID, hs.ready.unused⟩, hs.isOpen, hs.live, hs.state, hs.active, ?_,
      fun m hm => hs.known m ?_,
      hs.resting, hs.status⟩, rfl⟩
    · exact List.Nodup.append hs.nodup (List.nodup_singleton n) (by simpa using hn)
    · exact fun h => hm (List.mem_append_left _ h)

/-- Another client: no expiry, and it makes this generation the owner of nothing. -/
theorem Calm.client (hs : Calm cfg w) {c : Memory.Call} {op : Memory.Op}
    (hop : Other cfg.generationID op) (hgrant : op.grantsTo cfg.generationID = false)
    (hexp : ∀ m, op.claimName = some m →
      Memory.expire c.expireNow (w.backend.recordOf m) = w.backend.recordOf m) :
    Calm cfg (outside (.client c op) w) := by
  have heff := w.backend.apply_effect c op
  refine ⟨hs.ready.client c hop.foreign, hs.isOpen, hs.live, hs.state, hs.active, hs.nodup, hs.known,
    hs.resting, fun m => ?_⟩
  cases hs.status m with
  | away hl ho => exact .away hl (heff.owner_ne hgrant hgen ho)
  | held hl hr hp =>
    have hsame := heff.of_other hop.client hr (hexp m)
    refine .held hl ?_ ?_
    · exact (congrArg (ClaimRecord.HeldBy _ _) hsame :).mpr hr
    · exact (congrArg (·.phase) hsame :).trans hp

/-! ## PrepareHandoff and Drain -/

/-- The records, the leases and the store are as they were. -/
structure Alike (w w' : World) : Prop where
  record : ∀ m, (w'.coord.claims m).record = (w.coord.claims m).record
  lease : ∀ m, (w'.coord.claims m).lease = (w.coord.claims m).lease
  stored : ∀ m, w'.backend.recordOf m = w.backend.recordOf m
  shutdown : w'.coord.shutdown = w.coord.shutdown

omit hgen in
theorem Beside.alike (h : Beside none w w') : Alike w w' where
  record m := (congrArg (·.record) (h.claims m (by simp)) :)
  lease m := (congrArg (·.lease) (h.claims m (by simp)) :)
  stored m := h.stored m (by simp)
  shutdown := h.shutdown

omit hgen in
theorem Alike.trans {w₁ w₂ w₃ : World} (h : Alike w₁ w₂) (h' : Alike w₂ w₃) : Alike w₁ w₃ :=
  ⟨fun m => (h'.record m).trans (h.record m), fun m => (h'.lease m).trans (h.lease m),
    fun m => (h'.stored m).trans (h.stored m), h'.shutdown.trans h.shutdown⟩

/-- A drain group without operations in flight: the wait for it ends at once. -/
def Drainable (g : DrainGroup) : Prop := g.startDrain.done = true

omit hgen in
theorem Drainable.startDrain {g : DrainGroup} (h : Drainable g) : Drainable g.startDrain := by
  have : g.startDrain.startDrain = g.startDrain := by simp [DrainGroup.startDrain_eq]
  rwa [Drainable, this]

omit hgen in
theorem startDrain_alike : Alike w (exec cfg (.startDrain n) e w).1 := by
  refine ⟨fun m => ?_, fun m => ?_, fun _ => rfl, rfl⟩
  all_goals
    rw [exec_claims]
    split <;> rfl

variable {req : TransferRequest} {names L : List String}

omit hgen in
theorem drainClaims_wp (hw : w.Ready cfg) (hdrain : ∀ m, Drainable (w.coord.claims m).drain) :
    wp (exec cfg) Calmly (fun w' r => r = none ∧ Alike w w' ∧ w'.Ready cfg ∧
        w'.handoffs = w.handoffs ∧ w'.coord.gen.state = w.coord.gen.state)
      (Code.drainClaims h names) w := by
  induction names generalizing w with
  | nil => exact wp_ret ⟨rfl, ⟨fun _ => rfl, fun _ => rfl, fun _ => rfl, rfl⟩, hw, rfl, rfl⟩
  | cons name rest ih =>
    refine wp_act fun e _ => wp_act fun e' hC => ?_
    have hcl : (exec cfg (.startDrain name) e w).1.coord.claims name =
        (w.coord.claims name).setDrain (w.coord.claims name).drain.startDrain :=
      update_self ..
    -- The wait finds the group without operations.
    have hwait : (exec cfg (.drainWait name) e' (exec cfg (.startDrain name) e w).1).2 = none := by
      show ((exec cfg (.startDrain name) e w).1.coord.claims name).drain.wait e'.expired = none
      have hexp : e'.expired = none := Option.isNone_iff_eq_none.mp hC
      rw [hcl, hexp]
      exact if_pos (hdrain name)
    rw [hwait]
    have ha : Alike w (exec cfg (.startDrain name) e w).1 := startDrain_alike
    refine Prog.wp_mono (fun w' r hw' => ?_) (ih (hw.act e (a := .startDrain name) (by simp)) fun m => ?_)
    · exact ⟨hw'.1, ha.trans hw'.2.1, hw'.2.2.1, hw'.2.2.2.1, hw'.2.2.2.2⟩
    · show Drainable ((exec cfg (.startDrain name) e w).1.coord.claims m).drain
      rw [exec_claims]
      split
      · exact (hdrain m).startDrain
      · exact hdrain m

omit hgen in
theorem drain_wp (hw : w.Ready cfg) (hstate : w.coord.gen.state = .draining)
    (hh : w.handoffs h = { claims := L }) (hdrain : ∀ m, Drainable (w.coord.claims m).drain) :
    wp (exec cfg) Calmly (fun w' r => r = none ∧ Alike w w' ∧ w'.Ready cfg ∧
        w'.coord.gen.state = .draining ∧
        w'.handoffs h = { claims := L, status := .draining, drainDone := true })
      (Code.drain h) w := by
  refine wp_act fun e _ => ?_
  have hbegin : (w.handoffs h).drainBegin = ({ claims := L, status := .draining }, none) := by
    rw [hh]; rfl
  have hready := hw.act e (a := .drainBegin h) (by simp)
  have hexec := congrArg (w.withHandoff h) hbegin
  rw [show exec cfg (.drainBegin h) e w = _ from hexec] at hready ⊢
  refine wp_seq (setState_wp hready (.inl hstate)) fun w₁ _ ⟨_, hb₁, hr₁, hs₁, hh₁, _⟩ => ?_
  refine wp_act fun e₁ _ => wp_act fun e₂ _ => ?_
  have hr₂ := hr₁.act e₁ (a := .emit { type := .drainStarted, reason := .drainStarted }) (by simp)
  have hemit : Beside none w₁
      (exec cfg (.emit { type := .drainStarted, reason := .drainStarted }) e₁ w₁).1 := act_beside rfl
  have hb₂ := (Beside.alike hb₁).trans (Beside.alike hemit)
  refine wp_seq (drainClaims_wp hr₂ fun m => ?_) fun w₃ r ⟨hnone, ha₃, hr₃, hh₃, hs₃⟩ => ?_
  · have hm : (w₁.coord.claims m).drain = (w.coord.claims m).drain :=
      (congrArg (·.drain) (hb₁.claims m (by simp)) :)
    exact (congrArg Drainable hm :).mpr (hdrain m)
  subst hnone
  refine wp_act fun e₄ _ => wp_act fun e₅ _ => wp_ret ⟨rfl, ?_, ?_, ?_, ?_⟩
  · exact ⟨fun m => (hb₂.trans ha₃).record m, fun m => (hb₂.trans ha₃).lease m,
      fun m => (hb₂.trans ha₃).stored m, (hb₂.trans ha₃).shutdown⟩
  · exact (hr₃.act e₄ (by simp)).act e₅ (by simp)
  · exact hs₃.trans hs₁
  · have hw₃ : w₃.handoffs h = { claims := L, status := .draining } := by
      rw [hh₃]
      show w₁.handoffs h = _
      rw [hh₁]
      exact update_self ..
    show (w₃.setHandoff h (w₃.handoffs h).drainEnd).handoffs h = _
    rw [hw₃]
    exact update_self ..

/-! ## Transfer -/

/-- The claim has no lease, but by its cached record the generation controls it: it was released and
not acquired again. -/
def GivenUp (genID : String) (c : Claim) : Prop := c.lease = none ∧ c.record.controls genID = true

omit hgen in
theorem GivenUp.of_core {genID : String} {c c' : Claim} (h : core c' = core c) :
    GivenUp genID c' ↔ GivenUp genID c := by
  have hl : c'.lease = c.lease := (congrArg (·.lease) h :)
  have hr : c'.record = c.record := (congrArg (·.record) h :)
  rw [GivenUp, GivenUp, hl, hr]

structure Reserved (successor : String) (r r' : ClaimRecord) : Prop where
  phase : r'.phase = .reserved
  successor : r'.pendingSuccessor = successor
  owner : r'.ownerGeneration = r.ownerGeneration
  token : r'.fencingToken = r.fencingToken

/-- Exactly the claims of the list that the generation owns are reserved. -/
def Exactly (genID successor : String) (names : List String) (b b' : Memory.Backend) : Prop :=
  ∀ m, (m ∈ names ∧ (b.recordOf m).ownerGeneration = genID →
      Reserved successor (b.recordOf m) (b'.recordOf m)) ∧
    (¬ (m ∈ names ∧ (b.recordOf m).ownerGeneration = genID) → b'.recordOf m = b.recordOf m)

/-- `PrepareTransfer` fails for a claim that the generation does not own. -/
theorem prepare_refused (hreq : req.fromGeneration = cfg.generationID)
    (hc : Memory.Called e (.prepareTransfer req) b b' r)
    (ho : (b.recordOf req.claimName).ownerGeneration ≠ cfg.generationID) (record : ClaimRecord) :
    r.result ≠ .ok record := by
  intro hr
  obtain ⟨hstored, howner, -⟩ := hc.confirmed rfl hr
  refine hc.effect.owner_ne rfl hgen ho ?_
  rw [Memory.Backend.recordOf_of_some hstored, howner, hreq]

/-- `PrepareTransfer` succeeds for a claim that the generation holds. -/
theorem prepare_succeeds (hreq : req.fromGeneration = cfg.generationID)
    (hC : calm (.call (.prepareTransfer req)) e w)
    (hc : Memory.Called e (.prepareTransfer req) w.backend b' r)
    (hr : (w.backend.recordOf req.claimName).HeldBy cfg.generationID req.token)
    (hp : (w.backend.recordOf req.claimName).phase = .owned) : ∃ record, r.result = .ok record := by
  obtain ⟨⟨id, hid, hnew⟩, hrun, harm, hexp⟩ := called_calm hC hc rfl
  cases hid
  obtain ⟨record, hok⟩ := Memory.Backend.prepareLocked_owned hnew harm
    (stored_of_held hgen hr) hexp (hr.owner.trans hreq.symm) hr.token
    (fun h => by rw [hp] at h; cases h)
  exact ⟨record, (congrArg (·.2.result) hrun :).trans hok⟩

theorem transferClaims_wp (successor : String) (hnodup : names.Nodup) (hw : w.Ready cfg)
    (hlive : w.coord.shutdown = false)
    (hstatus : ∀ n ∈ names, Status cfg.generationID (w.backend.recordOf n) (w.coord.claims n)) :
    wp (exec cfg) Calmly (fun w' r =>
        (r = none ↔ ∀ n ∈ names, ¬ GivenUp cfg.generationID (w.coord.claims n)) ∧
        (r = none → Exactly cfg.generationID successor names w.backend w'.backend))
      (Code.transferClaims cfg h successor names) w := by
  induction names generalizing w with
  | nil => exact wp_ret ⟨by simp, fun _ m => ⟨fun h => by simp at h, fun _ => rfl⟩⟩
  | cons name rest ih =>
    obtain ⟨hname, hrest⟩ := List.nodup_cons.mp hnodup
    refine wp_act fun e₀ _ => ?_
    rw [show exec cfg (.currentLeaseToken name) e₀ w =
      (w, (w.coord.claims name).currentLeaseToken w.live cfg.generationID) by
        rw [← hw.genID]; rfl]
    cases hstatus name (by simp) with
    | away hl ho =>
      cases hctl : (w.coord.claims name).record.controls cfg.generationID with
      | false =>
        rw [show (w.coord.claims name).currentLeaseToken w.live cfg.generationID = none by
          simp [Claim.currentLeaseToken, Claim.validLease, hl, hctl]]
        refine Prog.wp_mono (fun w' r ⟨hiff, hex⟩ => ⟨?_, fun hr m => ?_⟩)
          (ih hrest hw hlive fun n hn => hstatus n (by simp [hn]))
        · rw [hiff, List.forall_mem_cons]
          refine ⟨fun h => ⟨fun hg => ?_, h⟩, fun h => h.2⟩
          rw [hg.2] at hctl
          cases hctl
        · refine ⟨fun hm => (hex hr m).1 ⟨?_, hm.2⟩, fun hm => (hex hr m).2 fun h => hm ⟨?_, h.2⟩⟩
          · refine (List.mem_cons.mp hm.1).resolve_left ?_
            rintro rfl
            exact ho hm.2
          · exact List.mem_cons_of_mem _ h.1
      | true =>
        rw [show (w.coord.claims name).currentLeaseToken w.live cfg.generationID =
          some (w.coord.claims name).record.fencingToken by
            simp [Claim.currentLeaseToken, Claim.validLease, hl, hctl]]
        refine wp_request hw (fun _ => rfl) fun id e b r hC hc hw' => ?_
        split
        · refine wp_seq (Prog.wp_true _ _) fun _ _ _ => wp_seq (Prog.wp_true _ _)
            fun _ _ _ => wp_seq (Prog.wp_true _ _) fun _ _ _ => wp_act fun _ _ => ?_
          refine wp_ret ⟨⟨fun h => (by cases h), fun h => ?_⟩, fun h => by cases h⟩
          exact absurd ⟨hl, hctl⟩ (h name (by simp))
        · rename_i record hr
          exact absurd hr (prepare_refused hgen rfl hc ho record)
    | held hl hr hp =>
      obtain ⟨l, hl, rfl⟩ := hl
      rw [show (w.coord.claims name).currentLeaseToken w.live cfg.generationID = some l.token by
        simp [Claim.currentLeaseToken, Claim.validLease, World.live, hlive, hl]]
      refine wp_request hw (fun _ => rfl) fun id e b r hC hc hw' => ?_
      obtain ⟨record, hok⟩ := prepare_succeeds hgen rfl hC hc hr hp
      rw [hok]
      obtain ⟨hstored, howner, htoken, hphase, hsucc⟩ := hc.confirmed rfl hok
      have hrecord : b.recordOf name = record := Memory.Backend.recordOf_of_some hstored
      refine wp_act fun e₁ _ => wp_act fun e₂ _ => wp_act fun e₃ _ => ?_
      have hb : Beside (some name) w (exec cfg (.emit { type := .transferPrepared, claim := name
                                                        token := record.fencingToken
                                                        reason := .transferPrepared
                                                        successor }) e₃
          (exec cfg (.setToken h name record.fencingToken) e₂
            (exec cfg (.applyRecord name record) e₁ { w.counted with backend := b }).1).1).1 :=
        (called_beside hc rfl).trans
          ((act_beside (by simp [within, Act.claimOf])).trans
            ((act_beside rfl).trans (act_beside rfl)))
      have hne : ∀ n ∈ rest, some name ≠ some n := fun n hn h => by
        cases h
        exact hname hn
      refine Prog.wp_mono ?post (ih hrest
        (((hw'.act e₁ (by simp)).act e₂ (by simp)).act e₃ (by simp)) (hb.shutdown.trans hlive) ?status)
      case status =>
        intro n hn
        exact (congrArg (Status _ · _) (hb.stored n (hne n hn)) :).mpr
          ((hstatus n (by simp [hn])).of_core (hb.claims n (hne n hn)))
      case post =>
        rintro w' r ⟨hiff, hex⟩
        refine ⟨?_, fun hr' m => ?_⟩
        · rw [hiff, List.forall_mem_cons]
          refine ⟨fun h => ⟨fun hg => ?_, fun n hn hg => ?_⟩, fun h n hn hg => ?_⟩
          · rw [hg.1] at hl
            cases hl
          · exact h n hn ((GivenUp.of_core (hb.claims n (hne n hn))).mpr hg)
          · exact h.2 n hn ((GivenUp.of_core (hb.claims n (hne n hn))).mp hg)
        · by_cases hm : m = name
          · subst hm
            have hkeep : w'.backend.recordOf m = record :=
              ((hex hr' m).2 fun h => hname h.1).trans hrecord
            refine ⟨fun _ => ?_, fun h => absurd ⟨by simp, hr.owner⟩ h⟩
            rw [hkeep]
            exact ⟨hphase, hsucc, howner.trans hr.owner.symm, htoken.trans hr.token.symm⟩
          · have hold := hb.stored m (by simpa using Ne.symm hm)
            have := hex hr' m
            rw [hold] at this
            simpa [hm] using this

theorem transfer_wp {successor : String} (hs : successor ≠ "") (hnodup : L.Nodup) (hw : w.Ready cfg)
    (hlive : w.coord.shutdown = false) (hstate : w.coord.gen.state = .draining)
    (hh : w.handoffs h = { claims := L, status := .draining, drainDone := true })
    (hstatus : ∀ n ∈ L, Status cfg.generationID (w.backend.recordOf n) (w.coord.claims n)) :
    wp (exec cfg) Calmly (fun w' r =>
        (r = none ↔ ∀ n ∈ L, ¬ GivenUp cfg.generationID (w.coord.claims n)) ∧
        (r = none → Exactly cfg.generationID successor L w.backend w'.backend))
      (Code.transfer cfg h successor) w := by
  unfold Code.transfer
  rw [if_neg hs]
  refine wp_act fun e _ => ?_
  have hbegin : (w.handoffs h).transferBegin successor = ({ claims := L, status := .transferring
                                                            successorID := successor
                                                            drainDone := true }, .started) := by
    rw [hh]; rfl
  have hready := hw.act e (a := .transferBegin h successor) (by simp)
  have hexec := congrArg (w.withHandoff h) hbegin
  rw [show exec cfg (.transferBegin h successor) e w = _ from hexec] at hready ⊢
  refine wp_seq (setState_wp hready (.inr ?_)) fun w₁ _ ⟨_, hb₁, hr₁, _, hh₁, _⟩ => ?_
  · exact (congrArg (canTransition · .transferring) hstate :).trans rfl
  refine wp_act fun e₂ _ => ?_
  have hL : (w₁.handoffs h).claims = L := by
    have hself : w₁.handoffs h = { claims := L, status := .transferring, successorID := successor
                                   drainDone := true } := by
      rw [hh₁]
      exact update_self ..
    rw [hself]
  rw [show exec cfg (.handoffClaims h) e₂ w₁ = (w₁, L) from congrArg (Prod.mk w₁) hL]
  have hcore : ∀ n, core (w₁.coord.claims n) = core (w.coord.claims n) := fun n =>
    hb₁.claims n (by simp)
  have hstored : ∀ n, w₁.backend.recordOf n = w.backend.recordOf n := fun n => hb₁.stored n (by simp)
  refine wp_seq (transferClaims_wp hgen successor hnodup hr₁
    (hb₁.shutdown.trans hlive) fun n hn => ?_) fun w₂ r ⟨hiff, hex⟩ => ?_
  · rw [hstored]
    exact (hstatus n hn).of_core (hcore n)
  have hiff' : r = none ↔ ∀ n ∈ L, ¬ GivenUp cfg.generationID (w.coord.claims n) :=
    hiff.trans (forall₂_congr fun n _ => not_congr (GivenUp.of_core (hcore n)))
  have hex' : r = none → Exactly cfg.generationID successor L w.backend w₂.backend := fun hr m => by
    have := hex hr m
    rwa [hstored] at this
  cases r with
  | some err => exact wp_ret ⟨⟨fun h => (by cases h), fun h => by cases hiff'.mpr h⟩, fun h => by cases h⟩
  | none =>
    refine wp_act fun e₃ _ => wp_act fun e₄ _ => ?_
    generalize (exec cfg (.watcherBegin h) e₄ _).2 = ans
    cases ans with
    | false => exact wp_ret ⟨hiff', fun _ => hex' rfl⟩
    | true => exact wp_act fun _ _ => wp_ret ⟨hiff', fun _ => hex' rfl⟩

/-! ## Histories -/

omit hgen in
instance (genID : String) (c : Claim) : Decidable (GivenUp genID c) :=
  inferInstanceAs (Decidable (_ ∧ _))

/-- The call meets no failure, no expiry and no timeout. -/
def calmCall (cfg : Config) (t : Task) (es : Nat → Env) (w : World) : Bool :=
  (Code.task cfg t).Along (exec cfg) Calmly es 0 w

/-- The step is a calm call of `Claim`, or of `TryAcquire` or `Release` on a claim that `Claim`
returned, or a client that lets nothing expire and does not make this generation an owner. -/
def calmStep (cfg : Config) (w : World) : Step → Bool
  | .call (.claim n) es => calmCall cfg (.claim n) es w
  | .call (.tryAcquire n) es => n ∈ w.coord.known && calmCall cfg (.tryAcquire n) es w
  | .call (.release n) es => n ∈ w.coord.known && calmCall cfg (.release n) es w
  | .call _ _ => false
  | .client c op => !op.grantsTo cfg.generationID && op.claimName.all fun n =>
      Memory.expire c.expireNow (w.backend.recordOf n) = w.backend.recordOf n

omit hgen in
theorem call_of_wp {t : Task} {Q : World → Result ⊕ Task → Prop} {es : Nat → Env}
    (h : wp (exec cfg) Calmly Q (Code.task cfg t) w) (hC : calmCall cfg t es w) :
    Q (call cfg t es w).1 (call cfg t es w).2 :=
  Prog.run_of_wp h (of_decide_eq_true hC)

theorem Calm.step (hs : Calm cfg w) {y : Step} (hy : calmStep cfg w y)
    (hclient : ∀ c op, y = .client c op → Other cfg.generationID op) :
    Calm cfg (y.run cfg w) ∧
      ((w.coord.gen.state = .active ∨ ∃ n es o, y = .call (.tryAcquire n) es ∧
        (call cfg (.tryAcquire n) es w).2 = .inl (.lease (.ok o))) →
        (y.run cfg w).coord.gen.state = .active) := by
  cases y with
  | client c op =>
    simp only [calmStep, Bool.and_eq_true, Bool.not_eq_true'] at hy
    refine ⟨hs.client hgen (hclient c op rfl) hy.1 fun m hm => ?_, fun h => ?_⟩
    · simpa [hm] using hy.2
    · rcases h with h | ⟨_, _, _, h, _⟩
      · exact h
      · cases h
  | call t es =>
    cases t <;> first | cases hy | skip
    case claim n =>
      have h := call_of_wp
        (Q := fun w' _ => Calm cfg w' ∧ w'.coord.gen.state = w.coord.gen.state)
        (wp_seq (claim_wp hs) fun _ _ h => wp_ret h) hy
      refine ⟨h.1, fun ha => ?_⟩
      rcases ha with ha | ⟨_, _, _, ha, _⟩
      · exact h.2.trans ha
      · cases ha
    case release n =>
      simp only [calmStep, Bool.and_eq_true, decide_eq_true_eq] at hy
      have h := call_of_wp
        (Q := fun w' _ => Calm cfg w' ∧ w'.coord.gen.state = w.coord.gen.state)
        (wp_seq (release_wp hgen hs hy.1) fun _ _ h => wp_ret h) hy.2
      refine ⟨h.1, fun ha => ?_⟩
      rcases ha with ha | ⟨_, _, _, ha, _⟩
      · exact h.2.trans ha
      · cases ha
    case tryAcquire n =>
      simp only [calmStep, Bool.and_eq_true, decide_eq_true_eq] at hy
      have h := call_of_wp (Q := fun w' r => Calm cfg w' ∧ ((w.coord.gen.state = .active ∨
          ∃ o, r = .inl (.lease (.ok o))) → w'.coord.gen.state = .active))
        (wp_seq (tryAcquire_wp hgen hs hy.1) fun _ r h => wp_ret ⟨h.1, fun ha => h.2 (ha.imp_right
          fun ⟨o, ho⟩ => ⟨o, by simpa using ho⟩)⟩) hy.2
      refine ⟨h.1, fun ha => h.2 (ha.imp_right ?_)⟩
      rintro ⟨_, _, o, he, ho⟩
      cases he
      exact ⟨o, ho⟩

end

theorem Calm.new {now : Time} {b : Memory.Backend}
    (hops : ∀ op claim n, b.ops (opID cfg.generationID op claim n) = none)
    (howner : ∀ n, (b.recordOf n).ownerGeneration ≠ cfg.generationID) :
    Calm cfg (World.new cfg now b) where
  ready := World.new_ready cfg now b hops
  isOpen := rfl
  live := rfl
  state := .inl rfl
  active _ _ hl := by cases hl
  nodup := List.nodup_nil
  known n _ := by
    rw [World.new_claims]
    exact ⟨rfl, by simp [ClaimRecord.controls]⟩
  resting n := by
    rw [World.new_claims]
    exact ⟨rfl, rfl, rfl⟩
  status n := .away (by rw [World.new_claims]) (howner n)

section

variable {xs : List Step} (hgen : cfg.generationID ≠ "") (hs : Calm cfg w)
  (hclients : ∀ c op, .client c op ∈ xs → Other cfg.generationID op)
  (hxs : Conc.Run.Meets (Step.run cfg) (calmStep cfg) w xs)

include hgen hs hclients hxs

theorem calm_at {i : Nat} (hi : i ≤ xs.length) : Calm cfg (worldAt cfg w xs i) := by
  refine Run.along (J := fun i => Calm cfg (worldAt cfg w xs i)) hs (fun i y hy ih => ?_) hi
  rw [worldAt, Run.stateAt_succ hy]
  exact (ih.step hgen (Run.meets_getElem hxs hy) fun c op e =>
    hclients c op (e ▸ List.mem_of_getElem? hy)).1

end

end Released

namespace Coord

open Released

end Coord
end ShiftLock
