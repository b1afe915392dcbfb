import ShiftLock.Model.World
import ShiftLock.Conc.Run

/-!
# Safety of the protocol model

`CheckInvariants` and `CheckTokenMonotonic` object to nothing, in any order of their loops, after
any sequence of actions in which

* a recorded operation ID comes back in a request or a commit only while the claim still has the
  recorded token: a replay writes the recorded token back, and an older one takes the claim back to
  an earlier epoch (`replay_rewinds_token`);
* the sums of the deadline check fit an `int64`;
* a claim is requested by a generation with a name.

The invariant (`World.Ok`) speaks about one claim at a time; every transition is a write of one
claim, except for the sweep, which expires each claim by itself.
-/

namespace ShiftLock.Model

open Conc

/-! ## The condition -/

namespace World

/-- The action replays an operation that was recorded under another token. -/
def rewinds (w : World) (a : Action) : Bool :=
  (a.type = .requestClaim ∨ a.type = .commitTransfer) ∧
    ((w.claim a.claim).recalled a.opID).any fun s => s.token ≠ (w.claim a.claim).token

/-- The deadline that the action sets, plus the timeout, is past the last `int64`. -/
def overflows (w : World) (a : Action) : Bool :=
  match a.type with
  | .prepareTransfer => 2 ^ 63 ≤ w.now + w.transferTO + w.transferTO
  | .crashCandidate => 2 ^ 63 ≤ w.now + w.transferTO
  | _ => false

/-- The action requests a claim for a generation without a name. -/
def anonymous (a : Action) : Bool := a.type = .requestClaim ∧ a.generation = ""

/-- The action does none of the three. -/
def sound (w : World) (a : Action) : Bool := !w.rewinds a && !w.overflows a && !anonymous a

end World

/-! ## The invariant -/

/-- A recorded result has an owner if and only if it is owned. -/
def OpSnap.Ok (s : OpSnap) : Prop :=
  (s.phase = .owned ∧ s.owner ≠ "") ∨ (s.phase = .unowned ∧ s.owner = "")

/-- A claim at model time `now`, with the transfer timeout `timeout`. -/
structure Claim.Ok (now timeout : Int) (cl : Claim) : Prop where
  owner : cl.phase = .unowned ↔ cl.owner = ""
  successor : cl.phase = .reserved → cl.pendingSuccessor ≠ ""
  deadline : cl.phase = .reserved → 0 < cl.transferDeadline →
    now ≤ cl.transferDeadline ∧ cl.transferDeadline + timeout < 2 ^ 63
  snaps : ∀ id s, cl.opResults id = some s → s.Ok

/-- The invariant of the world: every claim is in order, and a protected epoch is the token of its
claim. -/
structure World.Ok (w : World) : Prop where
  claims : ∀ n, (w.claim n).Ok w.now w.transferTO
  epoch : ∀ n ep, w.protectedEpoch n = some ep → (w.claim n).token = ep
  now : -2 ^ 63 ≤ w.now
  timeout : 0 < w.transferTO

/-- What an action does to a world in order: it stays in order, its claims stay and their tokens do
not decrease, and its generations stay. -/
structure Safe (w w' : World) : Prop where
  ok : w'.Ok
  tokens : ∀ n cl, w.claims n = some cl → ∃ cl', w'.claims n = some cl' ∧ cl.token ≤ cl'.token
  gens : ∀ g, w.gens g ≠ none → w'.gens g ≠ none

theorem int64_of_range {n : Int} (h₁ : -2 ^ 63 ≤ n) (h₂ : n < 2 ^ 63) : int64 n = n := by
  unfold int64
  rw [Int.bmod_def]
  split <;> omega

theorem int64_le (n : Int) : -2 ^ 63 ≤ int64 n := by
  unfold int64
  have := @Int.le_bmod n (2 ^ 64) (by decide)
  omega

variable {now timeout : Int} {cl : Claim} {w : World} {a : Action}

theorem Claim.ok_new : ({} : Claim).Ok now timeout :=
  ⟨by simp, by simp, by simp, fun _ _ h => by cases h⟩

theorem newWorld_ok (leaseTTL transferTO : Int) : (newWorld leaseTTL transferTO).Ok := by
  refine ⟨fun _ => Claim.ok_new, (fun _ _ h => by cases h), ?_, ?_⟩
  · show (-2 ^ 63 : Int) ≤ 0
    decide
  · unfold newWorld
    dsimp only
    split <;> omega

theorem Claim.Ok.vacated (h : cl.Ok now timeout) : cl.vacated.Ok now timeout :=
  ⟨by simp [Claim.vacated], by simp [Claim.vacated], by simp [Claim.vacated], h.snaps⟩

theorem Claim.Ok.rolledBack (h : cl.Ok now timeout) (hp : cl.phase ≠ .unowned) :
    cl.rolledBack.Ok now timeout := by
  have ho : cl.owner ≠ "" := fun ho => hp (h.owner.mpr ho)
  exact ⟨by simp [Claim.rolledBack, ho], by simp [Claim.rolledBack], by simp [Claim.rolledBack],
    h.snaps⟩

/-- A claim with a new owner is in order, and so is its result. -/
theorem Claim.Ok.grantedTo (h : cl.Ok now timeout) {gen : String} (hgen : gen ≠ "") (t : Int) :
    (cl.grantedTo gen t).Ok now timeout ∧ (cl.grantedTo gen t).snap.Ok :=
  ⟨⟨by simp [Claim.grantedTo, hgen], by simp [Claim.grantedTo], by simp [Claim.grantedTo], h.snaps⟩,
    .inl ⟨rfl, hgen⟩⟩

/-- Expiry puts a claim in order for the time at which it looks. -/
theorem Claim.Ok.expireIfNeeded (h : cl.Ok now timeout) (now' : Int) :
    (cl.expireIfNeeded now').Ok now' timeout ∧ (cl.expireIfNeeded now').token = cl.token := by
  have hlater : cl.phase = .reserved → ¬ (0 < cl.transferDeadline ∧ cl.transferDeadline < now') →
      0 < cl.transferDeadline →
      now' ≤ cl.transferDeadline ∧ cl.transferDeadline + timeout < 2 ^ 63 := by
    intro hp hd hpos
    have := (h.deadline hp hpos).2
    omega
  unfold Claim.expireIfNeeded
  split
  · rename_i hp
    exact ⟨⟨h.owner, by simp [hp], by simp [hp], h.snaps⟩, rfl⟩
  rename_i hp
  by_cases hexp : 0 < cl.expiresAt ∧ cl.expiresAt < now'
  · have hv : ¬ (cl.vacated.phase = .reserved ∧ 0 < cl.vacated.transferDeadline ∧
        cl.vacated.transferDeadline < now') := by simp [Claim.vacated]
    simp only [hexp, and_self, if_true, if_neg hv]
    have hvac := h.vacated
    exact ⟨⟨hvac.owner, hvac.successor, by simp [Claim.vacated], hvac.snaps⟩, rfl⟩
  · rw [if_neg hexp]
    dsimp only
    split
    · have hback := h.rolledBack hp
      exact ⟨⟨hback.owner, hback.successor, by simp [Claim.rolledBack], hback.snaps⟩, rfl⟩
    · rename_i hd
      refine ⟨⟨h.owner, h.successor, fun hres => hlater hres fun hlate => hd ⟨hres, hlate⟩, h.snaps⟩,
        rfl⟩

/-- A new expiry time does not matter. -/
theorem Claim.Ok.extend (h : cl.Ok now timeout) (t : Int) :
    ({ cl with expiresAt := t } : Claim).Ok now timeout :=
  ⟨h.owner, h.successor, h.deadline, h.snaps⟩

variable {s : OpSnap} {id n : String} {w' : World}

theorem Claim.Ok.record (h : cl.Ok now timeout) (hs : s.Ok) (id : String) :
    (cl.record id s).Ok now timeout := by
  unfold Claim.record
  split
  · exact h
  · refine ⟨h.owner, h.successor, h.deadline, fun id' s' hs' => ?_⟩
    by_cases hid : id' = id
    · subst hid
      obtain rfl : s = s' := by simpa using hs'
      exact hs
    · exact h.snaps id' s' (by simpa [hid] using hs')

theorem Claim.record_token (cl : Claim) (id : String) (s : OpSnap) :
    (cl.record id s).token = cl.token := by
  unfold record
  split <;> rfl

theorem Claim.Ok.restore (h : cl.Ok now timeout) (hs : cl.recalled id = some s) :
    (cl.restore s).Ok now timeout := by
  have hok : s.Ok := by
    unfold Claim.recalled at hs
    split at hs
    · cases hs
    · exact h.snaps id s hs
  rcases hok with ⟨hp, ho⟩ | ⟨hp, ho⟩ <;>
    exact ⟨by simp [Claim.restore, hp, ho], by simp [Claim.restore, hp],
      by simp [Claim.restore, hp], h.snaps⟩

/-- A claim in order passes the checks. -/
theorem World.Ok.checkClaim (h : w.Ok) {name : String} {cl : Claim}
    (hcl : w.claims name = some cl) : w.checkClaim name cl = none := by
  have heq : w.claim name = cl := by simp [World.claim, hcl]
  have hok := heq ▸ h.claims name
  have hdeadline : w.checkDeadline name cl = none := by
    unfold World.checkDeadline
    rw [if_neg]
    rintro ⟨hp, hpos, hlate⟩
    obtain ⟨hle, hlt⟩ := hok.deadline hp hpos
    have htimeout := h.timeout
    rw [int64_of_range (by omega) hlt] at hlate
    omega
  unfold World.checkClaim
  rw [if_neg, if_neg, if_neg]
  · split
    · rename_i ep hep
      rw [if_neg]
      · exact hdeadline
      · exact fun hne => hne.2 (heq ▸ h.epoch name ep hep)
    · exact hdeadline
  · exact fun hp => hp.2 (hok.owner.mp hp.1)
  · exact fun hp => hok.successor hp.1 hp.2
  · rintro ⟨hp, ho⟩
    rw [hok.owner.mpr ho] at hp
    simp at hp

/-- Nothing is reported, in whatever order the loops go. -/
theorem World.Ok.checkInvariants (h : w.Ok) (order order' : List String) :
    w.checkInvariants order order' = none := by
  have hfirst : w.firstViolation order w.checkClaim = none := by
    unfold World.firstViolation
    rw [List.findSome?_eq_none_iff]
    intro name _
    cases hcl : w.claims name with
    | none => rfl
    | some cl => exact h.checkClaim hcl
  have hsecond : w.firstViolation order' World.checkOwners = none := by
    unfold World.firstViolation
    rw [List.findSome?_eq_none_iff]
    intro name _
    cases hcl : w.claims name with
    | none => rfl
    | some cl =>
      show World.checkOwners name cl = none
      unfold World.checkOwners
      rw [if_neg]
      split <;> omega
  simp only [World.checkInvariants, hfirst, hsecond]

theorem Safe.checkTokenMonotonic {w : World} (h : Safe w w') (order : List String) :
    Model.checkTokenMonotonic w.tokenSnapshot w'.tokenSnapshot order = none := by
  unfold Model.checkTokenMonotonic
  rw [List.findSome?_eq_none_iff]
  intro name _
  unfold World.tokenSnapshot
  cases hcl : w.claims name with
  | none => simp
  | some cl =>
    obtain ⟨cl', hcl', hle⟩ := h.tokens name cl hcl
    simp [hcl', Nat.not_lt.mpr hle]

/-! ## Transitions -/

theorem World.claim_setClaim (w : World) (n m : String) (cl : Claim) :
    (w.setClaim n cl).claim m = if m = n then cl else w.claim m := by
  unfold claim setClaim
  by_cases hm : m = n
  · subst hm; simp
  · simp [hm]

theorem Safe.refl (h : w.Ok) : Safe w w :=
  ⟨h, fun _ cl hcl => ⟨cl, hcl, Nat.le_refl _⟩, fun _ hg => hg⟩

theorem World.Ok.write (h : w.Ok) {cl : Claim} {epochs : String → Option FencingToken}
    (hcl : cl.Ok w.now w.transferTO) (hle : (w.claim n).token ≤ cl.token)
    (hep : ∀ m ep, epochs m = some ep → (if m = n then cl else w.claim m).token = ep) :
    Safe w { w.setClaim n cl with protectedEpoch := epochs } := by
  have hclaim : ∀ m, World.claim { w.setClaim n cl with protectedEpoch := epochs } m =
      if m = n then cl else w.claim m := fun m => w.claim_setClaim n m cl
  refine ⟨⟨fun m => ?_, fun m ep he => ?_, h.now, h.timeout⟩, fun m cl₀ hm => ?_, fun _ hg => hg⟩
  · rw [hclaim]
    split
    · exact hcl
    · exact h.claims m
  · rw [hclaim]
    exact hep m ep he
  · by_cases hmn : m = n
    · subst hmn
      refine ⟨cl, by simp [World.setClaim], ?_⟩
      simpa [World.claim, hm] using hle
    · exact ⟨cl₀, by simpa [World.setClaim, hmn] using hm, Nat.le_refl _⟩

theorem World.Ok.edit (h : w.Ok) {cl : Claim} (hcl : cl.Ok w.now w.transferTO)
    (htok : cl.token = (w.claim n).token) : Safe w (w.setClaim n cl) := by
  refine h.write hcl (Nat.le_of_eq htok.symm) fun m ep hep => ?_
  split
  · rename_i hm
    subst hm
    rw [htok]
    exact h.epoch m ep hep
  · exact h.epoch m ep hep

/-- A write that issues the next token. -/
theorem World.Ok.advance (h : w.Ok) {cl : Claim} {tok : FencingToken}
    (hcl : cl.Ok w.now w.transferTO) (htok : cl.token = tok) (hnext : tok = (w.claim n).token + 1) :
    Safe w ((w.protect n tok).setClaim n cl) := by
  subst htok
  refine h.write hcl (hnext ▸ Nat.le_succ _) fun m ep hep => ?_
  by_cases hm : m = n
  · subst hm
    simpa [World.protect] using hep
  · rw [if_neg hm]
    exact h.epoch m ep (by simpa [World.protect, hm] using hep)

/-- A change of a generation concerns no claim. -/
theorem Safe.withGens (h : Safe w w') {gens : String → Option Generation}
    (hg : ∀ g, w'.gens g ≠ none → gens g ≠ none) : Safe w { w' with gens } :=
  ⟨⟨h.ok.claims, h.ok.epoch, h.ok.now, h.ok.timeout⟩, h.tokens,
    fun g hne => hg g (h.gens g hne)⟩

theorem update_gens_ne_none {gens : String → Option Generation} {g' : Generation} :
    ∀ g, gens g ≠ none → Function.update gens id (some g') g ≠ none := by
  intro g hne
  by_cases hg : g = id
  · subst hg; simp
  · simpa [hg] using hne

theorem World.modifyGen_eq (w : World) (id : String) (f : Generation → Generation) :
    ∃ gens, w.modifyGen id f = { w with gens } ∧ ∀ g, w.gens g ≠ none → gens g ≠ none := by
  unfold modifyGen
  split
  · exact ⟨w.gens, rfl, fun _ hg => hg⟩
  · exact ⟨_, rfl, update_gens_ne_none⟩

theorem Safe.modifyGen (h : Safe w w') (id : String) (f : Generation → Generation) :
    Safe w (w'.modifyGen id f) := by
  obtain ⟨gens, heq, hg⟩ := w'.modifyGen_eq id f
  rw [heq]
  exact h.withGens hg

theorem World.setClaim_modifyGen (w : World) (id n : String) (f : Generation → Generation)
    (cl : Claim) : (w.modifyGen id f).setClaim n cl = (w.setClaim n cl).modifyGen id f := by
  cases hg : w.gens id <;> simp [modifyGen, setClaim, hg]

theorem World.protect_modifyGen (w : World) (id n : String) (f : Generation → Generation)
    (tok : FencingToken) : (w.modifyGen id f).protect n tok = (w.protect n tok).modifyGen id f := by
  cases hg : w.gens id <;> simp [modifyGen, protect, hg]

theorem World.requireGen_safe (h : w.Ok) (id : String) (f : Generation → Generation) :
    Safe w (w.requireGen id f).1 := by
  unfold requireGen
  split
  · exact .refl h
  · exact (Safe.refl h).withGens update_gens_ne_none

theorem World.registerGeneration_safe (h : w.Ok) (id : String) :
    Safe w (w.registerGeneration id).1 := by
  unfold registerGeneration
  split
  · exact .refl h
  · exact (Safe.refl h).withGens update_gens_ne_none

theorem World.Ok.replay (h : w.Ok) (hs : (w.claim n).recalled id = some s)
    (htok : s.token = (w.claim n).token) : Safe w (w.setClaim n ((w.claim n).restore s)) :=
  h.edit ((h.claims n).restore hs) htok

theorem replayed_token (hty : a.type = .requestClaim ∨ a.type = .commitTransfer)
    (hsound : w.rewinds a = false) (hs : (w.claim a.claim).recalled a.opID = some s) :
    s.token = (w.claim a.claim).token := by
  simpa [World.rewinds, hty, hs] using hsound

theorem World.requestClaim_safe (h : w.Ok) (hty : a.type = .requestClaim)
    (hrewinds : w.rewinds a = false) (hgen : a.generation ≠ "") : Safe w (w.requestClaim a).1 := by
  obtain ⟨hexp, htok⟩ := (h.claims a.claim).expireIfNeeded w.now
  unfold requestClaim
  dsimp only
  split
  · rename_i s hs
    exact h.replay hs (replayed_token (.inl hty) hrewinds hs)
  split
  · split
    · exact h.edit (hexp.extend _) htok
    · exact h.edit hexp htok
  split
  · exact h.edit hexp htok
  · rw [protect_modifyGen, setClaim_modifyGen]
    obtain ⟨hgranted, hsnap⟩ := hexp.grantedTo hgen (int64 (w.now + w.leaseTTL))
    refine Safe.modifyGen (h.advance (hgranted.record hsnap _) (Claim.record_token ..) ?_) _ _
    rw [← htok]
    rfl

theorem World.renewClaim_safe (h : w.Ok) : Safe w (w.renewClaim a).1 := by
  have hcl := h.claims a.claim
  unfold renewClaim
  dsimp only
  split
  · exact h.edit hcl rfl
  split
  · exact h.edit hcl rfl
  split
  · exact h.edit hcl rfl
  · exact h.edit (hcl.extend _) rfl

theorem World.releaseClaim_safe (h : w.Ok) : Safe w (w.releaseClaim a).1 := by
  have hcl := h.claims a.claim
  unfold releaseClaim
  dsimp only
  split
  · exact h.edit hcl rfl
  split
  · exact h.edit hcl rfl
  split
  · exact h.edit hcl rfl
  · exact h.edit (hcl.vacated.record (.inr ⟨rfl, rfl⟩) _) (Claim.record_token ..)

theorem World.prepare_safe (h : w.Ok) (hty : a.type = .prepareTransfer)
    (hover : w.overflows a = false) (hsucc : a.successor ≠ "") : Safe w (w.prepare a).1 := by
  obtain ⟨hexp, htok⟩ := (h.claims a.claim).expireIfNeeded w.now
  unfold prepare
  dsimp only
  split
  · exact h.edit hexp htok
  rename_i howner
  have ho : ((w.claim a.claim).expireIfNeeded w.now).owner ≠ "" := fun ho =>
    howner (.inr (hexp.owner.mpr ho))
  have hsum : w.now + w.transferTO + w.transferTO < 2 ^ 63 := by
    simpa [overflows, hty] using hover
  have hnow := h.now
  have htimeout := h.timeout
  rw [setClaim_modifyGen]
  refine Safe.modifyGen (h.edit ?_ ?_) _ _
  swap
  · exact htok
  refine ⟨by simp [Claim.reservedFor, ho], fun _ => hsucc, fun _ _ => ?_, hexp.snaps⟩
  simp only [Claim.reservedFor]
  rw [int64_of_range (by omega) (by omega)]
  omega

theorem World.commit_safe (h : w.Ok) (hty : a.type = .commitTransfer)
    (hrewinds : w.rewinds a = false) (hsucc : a.successor ≠ "") : Safe w (w.commit a).1 := by
  have hcl := h.claims a.claim
  unfold commit
  dsimp only
  split
  · rename_i s hs
    exact h.replay hs (replayed_token (.inr hty) hrewinds hs)
  split
  · split
    · exact h.edit hcl rfl
    · exact h.edit hcl rfl
  split
  · exact h.edit hcl rfl
  · rw [setClaim_modifyGen, setClaim_modifyGen]
    obtain ⟨hgranted, hsnap⟩ := hcl.grantedTo hsucc (int64 (w.now + w.leaseTTL))
    exact Safe.modifyGen (Safe.modifyGen
      (h.advance (hgranted.record hsnap _) (Claim.record_token ..) rfl) _ _) _ _

theorem World.abort_safe (h : w.Ok) : Safe w (w.abort a).1 := by
  have hcl := h.claims a.claim
  unfold abort
  dsimp only
  split
  · split
    · exact h.edit hcl rfl
    · exact h.edit hcl rfl
  rename_i hp
  split
  · exact h.edit hcl rfl
  · rw [setClaim_modifyGen]
    refine Safe.modifyGen (h.edit (hcl.rolledBack ?_) rfl) _ _
    rw [not_not.mp hp]
    simp

theorem World.expire_safe (h : w.Ok) : Safe w (w.expire a.claim).1 := by
  obtain ⟨hexp, htok⟩ := (h.claims a.claim).expireIfNeeded w.now
  exact h.edit hexp htok

theorem World.crashOwner_safe (h : w.Ok) : Safe w (w.crashOwner a.claim).1 := by
  unfold crashOwner
  dsimp only
  rw [setClaim_modifyGen]
  exact Safe.modifyGen (h.edit (h.claims a.claim) rfl) _ _

theorem World.crashCandidate_safe (h : w.Ok) (hty : a.type = .crashCandidate)
    (hover : w.overflows a = false) : Safe w (w.crashCandidate a.claim).1 := by
  unfold crashCandidate
  split
  · exact .refl h
  rename_i cl hcl
  split
  · rename_i hp
    have heq : w.claim a.claim = cl := by simp [claim, hcl]
    have hok := heq ▸ h.claims a.claim
    refine h.edit ⟨hok.owner, hok.successor, fun _ _ => ?_, hok.snaps⟩ (by rw [heq])
    have hsum : w.now + w.transferTO < 2 ^ 63 := by simpa [overflows, hty] using hover
    exact ⟨Int.le_refl _, hsum⟩
  · exact .refl h

theorem World.forceRevoke_safe (h : w.Ok) : Safe w (w.forceRevoke a).1 := by
  unfold forceRevoke
  dsimp only
  split
  · exact h.edit (h.claims a.claim) rfl
  · exact h.edit (h.claims a.claim).vacated rfl

theorem World.advanceTime_safe (h : w.Ok) (t : Int) :
    Safe w ({ w with now := int64 t } : World).sweepExpired := by
  have hclaim : ∀ n, ({ w with now := int64 t } : World).sweepExpired.claim n =
      (w.claim n).expireIfNeeded (int64 t) := by
    intro n
    unfold claim sweepExpired
    cases hn : w.claims n with
    | none => simp [hn, Claim.expireIfNeeded]
    | some cl => simp [hn]
  refine ⟨⟨fun n => ?_, fun n ep hep => ?_, int64_le t, h.timeout⟩, fun n cl hn => ?_,
    fun _ hg => hg⟩
  · rw [hclaim]
    exact ((h.claims n).expireIfNeeded _).1
  · rw [hclaim, ((h.claims n).expireIfNeeded _).2]
    exact h.epoch n ep hep
  · refine ⟨cl.expireIfNeeded (int64 t), by simp [sweepExpired, hn], ?_⟩
    have heq : w.claim n = cl := by simp [claim, hn]
    have hok := heq ▸ h.claims n
    exact Nat.le_of_eq (hok.expireIfNeeded _).2.symm

/-- **One action** on a world in order. -/
theorem World.step_safe (h : w.Ok) (hsound : w.sound a = true)
    (hsucc : a.type = .prepareTransfer ∨ a.type = .commitTransfer → a.successor ≠ "") :
    Safe w (w.step a) := by
  simp only [sound, Bool.and_eq_true, Bool.not_eq_true'] at hsound
  obtain ⟨⟨hrewinds, hover⟩, hnamed⟩ := hsound
  unfold step apply
  cases hty : a.type with
  | registerGeneration => exact registerGeneration_safe h _
  | passReadiness | failReadiness | beginDrain => exact requireGen_safe h _ _
  | completeDrain | pause | resume | disconnect | reconnect => exact (Safe.refl h).modifyGen _ _
  | requestClaim =>
    exact requestClaim_safe h hty hrewinds (by simpa [anonymous, hty] using hnamed)
  | renewClaim => exact renewClaim_safe h
  | releaseClaim => exact releaseClaim_safe h
  | prepareTransfer => exact prepare_safe h hty hover (hsucc (.inl hty))
  | commitTransfer => exact commit_safe h hty hrewinds (hsucc (.inr hty))
  | abortTransfer => exact abort_safe h
  | expireLease => exact expire_safe h
  | crashOwner => exact crashOwner_safe h
  | crashCandidate => exact crashCandidate_safe h hty hover
  | forceRevoke => exact forceRevoke_safe h
  | advanceTime => exact advanceTime_safe h _
  | restartBackend | other text => exact .refl h

/-- Only a renewal for an unregistered generation panics, and in a world in order such a generation
owns nothing. -/
theorem World.apply_ne_panic (h : w.Ok)
    (hreg : a.type = .renewClaim → a.generation ≠ "" → w.gens a.generation ≠ none) :
    (w.apply a).2 ≠ .panic := by
  have hrenew : a.type = .renewClaim → (w.renewClaim a).2 ≠ .panic := by
    intro hty
    unfold renewClaim
    dsimp only
    split
    · simp
    rename_i hcontrols
    simp only [Claim.controls, Bool.not_eq_false, decide_eq_true_eq, ClaimPhase.held_eq_true]
      at hcontrols
    have hne : a.generation ≠ "" := fun hgen =>
      hcontrols.2 ((h.claims a.claim).owner.mpr (hcontrols.1.trans hgen))
    split
    · rename_i hg
      exact absurd hg (hreg hty hne)
    · split <;> simp
  unfold apply
  cases hty : a.type with
  | renewClaim => exact hrenew hty
  | _ =>
    simp only [registerGeneration, requireGen, requestClaim, releaseClaim, prepare, commit, abort,
      expire, crashOwner, crashCandidate, forceRevoke]
    repeat' split
    all_goals simp

/-! ## Runs -/

/-- Every generation that an action names was registered by an earlier one. -/
def Registered (xs : List Action) : Prop :=
  ∀ (i : Nat) (a : Action), xs[i]? = some a → a.type ≠ .registerGeneration →
    ∀ g ∈ [a.generation, a.successor], g ≠ "" →
      ∃ j < i, ∃ b : Action, xs[j]? = some b ∧ b.type = .registerGeneration ∧ b.generation = g

section

variable {leaseTTL transferTO : Int} {xs : List Action}

open Conc (Run.Meets Run.stateAt)

variable
  (hsucc : ∀ a ∈ xs, a.type = .prepareTransfer ∨ a.type = .commitTransfer → a.successor ≠ "")
  (hsound : Run.Meets World.step World.sound (newWorld leaseTTL transferTO) xs = true)

include hsucc hsound in
theorem ok_at (i : Nat) :
    (Run.stateAt World.step (newWorld leaseTTL transferTO) xs i).Ok := by
  induction i with
  | zero => exact newWorld_ok _ _
  | succ i ih =>
    cases hx : xs[i]? with
    | none => rwa [Run.stateAt_succ_of_none hx]
    | some a =>
      rw [Run.stateAt_succ hx]
      exact (World.step_safe ih (Run.meets_getElem hsound hx)
        (hsucc a (List.mem_of_getElem? hx))).ok

include hsucc hsound in
theorem safe_succ (i : Nat) :
    Safe (Run.stateAt World.step (newWorld leaseTTL transferTO) xs i)
      (Run.stateAt World.step (newWorld leaseTTL transferTO) xs (i + 1)) := by
  have hok := ok_at hsucc hsound i
  cases hx : xs[i]? with
  | none =>
    rw [Run.stateAt_succ_of_none hx]
    exact .refl hok
  | some a =>
    rw [Run.stateAt_succ hx]
    exact World.step_safe hok (Run.meets_getElem hsound hx)
      (hsucc a (List.mem_of_getElem? hx))

include hsucc hsound in
theorem registered_at {i j : Nat} (hji : j < i) {b : Action} (hb : xs[j]? = some b)
    (hty : b.type = .registerGeneration) :
    (Run.stateAt World.step (newWorld leaseTTL transferTO) xs i).gens b.generation ≠ none := by
  induction hji with
  | refl =>
    rw [Run.stateAt_succ hb]
    simp only [World.step, World.apply, hty, World.registerGeneration]
    split
    · rename_i g hg
      simp [hg]
    · simp
  | step _ ih => exact (safe_succ hsucc hsound _).gens _ ih

/-- **Safety of the protocol model.** After every prefix of a sequence of sound actions the checks
report nothing, in any order of their loops, and no action panics. -/
theorem protocol_safety (hreg : Registered xs)
    (hsucc : ∀ a ∈ xs, a.type = .prepareTransfer ∨ a.type = .commitTransfer → a.successor ≠ "")
    (hsound : Run.Meets World.step World.sound (newWorld leaseTTL transferTO) xs = true) (i : Nat) :
    (∀ order order', (Run.stateAt World.step (newWorld leaseTTL transferTO) xs i).checkInvariants
      order order' = none) ∧
    (∀ order, checkTokenMonotonic
      (Run.stateAt World.step (newWorld leaseTTL transferTO) xs i).tokenSnapshot
      (Run.stateAt World.step (newWorld leaseTTL transferTO) xs (i + 1)).tokenSnapshot
      order = none) ∧
    ∀ a, xs[i]? = some a →
      ((Run.stateAt World.step (newWorld leaseTTL transferTO) xs i).apply a).2 ≠ .panic := by
  have hok := ok_at hsucc hsound i
  refine ⟨hok.checkInvariants, (safe_succ hsucc hsound i).checkTokenMonotonic, fun a ha => ?_⟩
  refine World.apply_ne_panic hok fun hty hne => ?_
  obtain ⟨j, hj, b, hb, hbty, hbg⟩ := hreg i a ha (by rw [hty]; simp) a.generation (by simp) hne
  exact hbg ▸ registered_at hsucc hsound hj hb hbty

end

/-- A claim is acquired, the request is sent again, and the claim is handed over. -/
def repeatedRequest : List Action :=
  [{ type := .registerGeneration, generation := "a" },
    { type := .registerGeneration, generation := "b" },
    { type := .requestClaim, generation := "a", claim := "c", opID := "x" },
    { type := .requestClaim, generation := "a", claim := "c", opID := "x" },
    { type := .prepareTransfer, generation := "a", claim := "c", successor := "b" },
    { type := .commitTransfer, generation := "a", claim := "c", successor := "b", opID := "y" }]

/-- A list whose first two actions register the only generations that it names. -/
theorem registered_pair {g₁ g₂ : String} {xs : List Action}
    (h : ∀ a ∈ xs, ∀ g ∈ [a.generation, a.successor], g = "" ∨ g = g₁ ∨ g = g₂) :
    Registered ({ type := .registerGeneration, generation := g₁ } ::
      { type := .registerGeneration, generation := g₂ } :: xs) := by
  intro i a ha hty g hg hne
  match i with
  | 0 => cases ha; exact absurd rfl hty
  | 1 => cases ha; exact absurd rfl hty
  | i + 2 =>
    rcases h a (List.mem_of_getElem? (by simpa using ha)) g hg with rfl | rfl | rfl
    · exact absurd rfl hne
    · exact ⟨0, by omega, _, rfl, rfl, rfl⟩
    · exact ⟨1, by omega, _, rfl, rfl, rfl⟩

theorem protocol_safety_repeatedRequest :
    ((Run.stateAt World.step (newWorld 15 30) repeatedRequest 6).claim "c").owner = "b" ∧
      ((Run.stateAt World.step (newWorld 15 30) repeatedRequest 6).claim "c").token = 2 ∧
      (Run.stateAt World.step (newWorld 15 30) repeatedRequest 6).checkInvariants ["c"] ["c"] =
        none :=
  ⟨by decide, by decide,
    (protocol_safety (registered_pair (by decide)) (by decide) (by decide) 6).1 ["c"] ["c"]⟩

/-- "a" acquires the claim and releases it, "b" acquires it, and the request of "a" is sent
again. -/
def staleReplay : List Action :=
  [{ type := .registerGeneration, generation := "a" },
    { type := .registerGeneration, generation := "b" },
    { type := .requestClaim, generation := "a", claim := "c", opID := "x" },
    { type := .releaseClaim, generation := "a", claim := "c", opID := "r" },
    { type := .requestClaim, generation := "b", claim := "c", opID := "y" },
    { type := .requestClaim, generation := "a", claim := "c", opID := "x" }]

/-- The replay takes the claim from "b", under the token that "a" had before: both checks object. -/
theorem replay_rewinds_token :
    Registered staleReplay ∧
      checkTokenMonotonic
          (Run.stateAt World.step (newWorld 15 30) staleReplay 5).tokenSnapshot
          (Run.stateAt World.step (newWorld 15 30) staleReplay 6).tokenSnapshot ["c"] =
        some (.tokenMonotonic, "c: 2 -> 1") ∧
      (Run.stateAt World.step (newWorld 15 30) staleReplay 6).checkInvariants ["c"] ["c"] =
        some (.protectedEpoch, "claim c token=1 epoch=2") :=
  ⟨registered_pair (by decide), by decide +kernel, by decide +kernel⟩

end ShiftLock.Model
