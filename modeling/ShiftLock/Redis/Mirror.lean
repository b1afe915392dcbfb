import ShiftLock.Redis.Backend
import ShiftLock.Redis.Phantom

/-!
# `Local` against the Lua scripts

`Local` says that it mirrors the scripts. It does on a fresh claim, but the two implementations
differ in seven places, and a history that touches one of them can tell them apart:

* at the expiry time itself the scripts still see the owner, `Local` does not;
* the abort and the release script have no expiry;
* a release of an unowned claim is an error for the script and a success for `Local`;
* a release and a grant clear the transfer and the drain status in the scripts only;
* a repeated prepare extends the lease in the script only;
* a repeated commit is an error for the script and a success for `Local`;
* a lease that ends at or before the Unix epoch never ends for the scripts.

`comparable` is the condition that a call touches none of them. Over histories of such calls the two
give the same replies (`local_mirrors_scripts`); the proof is a simulation: `Mirrors` relates the
stored object and the record, and every call keeps it.
-/

namespace ShiftLock.Redis

open Conc
open Memory (Reply renewed reservedFor committedTo rolledBack)
open Local (expire granted givenUp)

/-! ## The two sides -/

/-- The script that the backend runs for an operation. -/
def LocalOp.script (now : Int) : LocalOp → Option Script
  | .acquireClaim req => some (.acquire req.generationID req.ttl now req.claimName)
  | .renewClaim req => some (.renew req.generationID req.token req.ttl now)
  | .prepareTransfer req =>
    some (.prepare req.fromGeneration req.toGeneration req.token req.ttl now)
  | .commitTransfer req =>
    some (.commit req.fromGeneration req.toGeneration req.expectedToken req.ttl now)
  | .abortTransfer req => some (.abort req.fromGeneration req.expectedToken)
  | .releaseClaim req => some (.release req.generationID req.token)
  | .getClaim _ | .registerGeneration _ | .forceSetToken _ _ => none

/-- The claim keys of a Redis database. -/
abbrev Keys := String → Option ClaimJSON

/-- The script of an operation, on the key of its claim. -/
def Keys.evaluate (keys : Keys) (now : Time) (op : LocalOp) : Option (String × Evaluated) :=
  match op.claimName, op.script (unixNano now) with
  | some name, some s => some (name, s.eval (keys name))
  | _, _ => none

/-- The database after an operation. -/
def Keys.step (keys : Keys) (x : Time × LocalOp) : Keys :=
  match keys.evaluate x.1 x.2 with
  | some (name, ev) => Function.update keys name ev.1
  | none => keys

/-- The reply to an operation, through `parseResult`. -/
def Keys.reply (keys : Keys) (x : Time × LocalOp) : Option (Except Err ClaimRecord) :=
  (keys.evaluate x.1 x.2).map fun ev => parseResult ev.2.2

/-- An empty database and `NewLocal`. -/
def bothNew : Keys × Local := (fun _ => none, Local.new)

/-- Both sides, one operation later, by the same clock. -/
def bothStep (p : Keys × Local) (x : Time × LocalOp) : Keys × Local :=
  (p.1.step x, p.2.step (⟨x.1, x.1⟩, x.2))

/-- The fields that are compared. -/
structure View where
  owner : String
  token : FencingToken
  phase : ClaimPhase
  successor : String
  transfer : TransferStatus
  drain : DrainStatus
  deriving DecidableEq, Repr

/-- The compared fields of a record. -/
def viewOf (r : ClaimRecord) : View where
  owner := r.ownerGeneration
  token := r.fencingToken
  phase := r.phase
  successor := r.pendingSuccessor
  transfer := r.transferStatus
  drain := r.drainStatus

/-- The replies agree: the same error, or records with the same view. `ReleaseClaim` returns no
record. -/
def AgreeReply (op : LocalOp) (lua : Except Err ClaimRecord) (loc : Reply) : Prop :=
  match lua with
  | .error err => loc.err = some err
  | .ok rec => loc.err = none ∧
      ((∃ req, op = .releaseClaim req) ∨ loc.record.map viewOf = some (viewOf rec))

/-! ## The condition -/

/-- A call that touches none of the differences, on a stored object. The new expiry is a positive
Unix time, so that the scripts see it. -/
def comparableOn (obj : ClaimJSON) (now : Int) (op : LocalOp) : Bool :=
  match op with
  | .acquireClaim req =>
    (obj.phase ≠ .unowned → obj.expiresAt ≠ now) ∧ 0 < now + req.ttl ∧
      (obj.phase = .unowned ∨ obj.lapsed now → obj.transferStatus = .unset ∧
        obj.drainStatus = .unset)
  | .renewClaim req => (obj.phase ≠ .unowned → obj.expiresAt ≠ now) ∧ 0 < now + req.ttl
  | .prepareTransfer req =>
    (obj.phase ≠ .unowned → obj.expiresAt ≠ now) ∧ 0 < now + req.ttl ∧
      ¬ (obj.lapsed now = false ∧ obj.phase = .reserved ∧ obj.ownerGeneration = req.fromGeneration ∧
        obj.fencingToken = req.token ∧ obj.pendingSuccessor = req.toGeneration)
  | .commitTransfer req =>
    (obj.phase ≠ .unowned → obj.expiresAt ≠ now) ∧ 0 < now + req.ttl ∧
      ¬ (obj.lapsed now = false ∧ obj.phase = .owned ∧ obj.ownerGeneration = req.toGeneration ∧
        obj.fencingToken = wrapSucc req.expectedToken ∧ obj.transferStatus = .committed)
  | .abortTransfer _ => obj.phase ≠ .unowned → now < obj.expiresAt
  | .releaseClaim req =>
    (obj.phase ≠ .unowned → now < obj.expiresAt) ∧
      ¬ (obj.phase = .unowned ∧ obj.fencingToken = req.token) ∧
      (obj.ownerGeneration = req.generationID ∧ obj.fencingToken = req.token →
        obj.transferStatus = .unset ∧ obj.drainStatus = .unset)
  | _ => true

/-- A call that touches none of the differences. On a missing key only the expiry of an acquire
matters. -/
def comparable (p : Keys × Local) (x : Time × LocalOp) : Bool :=
  match x.2.claimName with
  | none => true
  | some name =>
    match p.1 name with
    | some obj => comparableOn obj (unixNano x.1) x.2
    | none =>
      match x.2 with
      | .acquireClaim req => 0 < unixNano x.1 + req.ttl
      | _ => true

/-- The token that the call finds is below the last safe one. -/
def tokenSafe (p : Keys × Local) (x : Time × LocalOp) : Bool :=
  match x.2.claimName.bind p.1 with
  | some obj => obj.fencingToken < maxSafeFencingToken
  | none => true

/-- One of the six claim operations, without an operation ID and with non-empty generation IDs. -/
def LocalOp.plain (op : LocalOp) : Prop :=
  op.operationID = "" ∧ ∃ s, op.script 0 = some s ∧ ∀ g ∈ s.generations, g ≠ ""

/-! ## The simulation -/

/-- The object and the record agree. Without an owner the expiry does not matter any more, and
the pending successor of the object neither. -/
structure Mirrors (obj : ClaimJSON) (cl : ClaimRecord) : Prop where
  owner : cl.ownerGeneration = obj.ownerGeneration
  token : cl.fencingToken = obj.fencingToken
  phase : cl.phase = obj.phase
  transfer : cl.transferStatus = obj.transferStatus
  drain : cl.drainStatus = obj.drainStatus
  successor : obj.phase ≠ .unowned → cl.pendingSuccessor = obj.pendingSuccessor
  expires : obj.phase ≠ .unowned → cl.expiresAt = obj.expiresAt + unixEpoch ∧ 0 < obj.expiresAt
  unowned : obj.phase = .unowned ↔ obj.ownerGeneration = ""
  vacant : obj.phase = .unowned → cl.pendingSuccessor = ""

/-- Both sides know the claim, or neither does. -/
def MirrorsAt : Option ClaimJSON → Option ClaimRecord → Prop
  | none, none => True
  | some obj, some cl => Mirrors obj cl
  | _, _ => False

variable {obj : ClaimJSON} {cl : ClaimRecord} {now : Time} {l : Local}

variable {t : Int} {op : LocalOp} {name : String} {ev : Evaluated} {obj' : ClaimJSON}
  {cl' : ClaimRecord}

theorem unixNano_lt {n : Int} : unixNano t < n ↔ t < n + unixEpoch := by
  unfold unixNano
  omega

theorem unixNano_add {d : Int} : t + d = unixNano t + d + unixEpoch := by
  unfold unixNano
  omega

theorem Mirrors.view (h : Mirrors obj cl) (hp : obj.phase ≠ .unowned) :
    viewOf cl = viewOf (fromJSON obj) := by
  simp only [viewOf, fromJSON, h.owner, h.token, h.phase, h.transfer, h.drain, h.successor hp]

/-- Before the expiry `Local` leaves the record as it is. -/
theorem Mirrors.expire_of_lt (h : Mirrors obj cl)
    (hlt : obj.phase ≠ .unowned → unixNano now < obj.expiresAt) : expire now cl = cl := by
  unfold expire
  by_cases hp : obj.phase = .unowned
  · have hu : cl.phase.held = false := by simp [h.phase, hp]
    simp [hu]
  · have hnow : now < cl.expiresAt := by
      rw [(h.expires hp).1]
      exact unixNano_lt.mp (hlt hp)
    rw [if_pos (.inr hnow)]

theorem lt_of_not_lapsed (h : Mirrors obj cl)
    (hne : obj.phase ≠ .unowned → obj.expiresAt ≠ unixNano now)
    (hl : obj.lapsed (unixNano now) = false) (hp : obj.phase ≠ .unowned) :
    unixNano now < obj.expiresAt := by
  have hge : ¬ obj.expiresAt < unixNano now := by
    intro hlt
    have hpos := (h.expires hp).2
    simp [ClaimJSON.lapsed, ClaimJSON.overdue, hpos, hlt, hp] at hl
  exact Int.lt_iff_le_and_ne.mpr ⟨Int.not_lt.mp hge, Ne.symm (hne hp)⟩

/-- Past the expiry both sides lose the owner. -/
theorem Mirrors.expire (h : Mirrors obj cl) (hl : obj.lapsed (unixNano now) = true) :
    Mirrors obj.expire (expire now cl) ∧ (expire now cl).phase = .unowned := by
  simp only [ClaimJSON.lapsed, ClaimJSON.overdue, decide_eq_true_eq, ClaimPhase.held_eq_true] at hl
  obtain ⟨⟨hpos, hlt⟩, hp⟩ := hl
  have hexp := (h.expires hp).1
  have hnow : ¬ (cl.expiresAt = 0 ∨ now < cl.expiresAt) := by
    rw [hexp]
    rintro (hzero | hbefore)
    · have hepoch : 0 < unixEpoch := by decide
      exact absurd hzero (Int.ne_of_gt (Int.add_pos hpos hepoch))
    · exact absurd (unixNano_lt.mpr hbefore) (Int.not_lt.mpr (Int.le_of_lt hlt))
  have hheld : cl.phase.held = true := by simp [h.phase, hp]
  unfold Local.expire
  rw [if_neg hnow, if_pos hheld]
  exact ⟨⟨rfl, h.token, rfl, h.transfer, h.drain, fun hne => absurd rfl hne,
    fun hne => absurd rfl hne, ⟨fun _ => rfl, fun _ => rfl⟩, fun _ => rfl⟩, rfl⟩

/-- The renew script forgets the successor, but not where it matters. -/
theorem Mirrors.expireRenew (h : Mirrors obj.expire cl) : Mirrors obj.expireRenew cl :=
  ⟨h.owner, h.token, h.phase, h.transfer, h.drain, fun hne => absurd rfl hne,
    fun hne => absurd rfl hne, ⟨fun _ => rfl, fun _ => rfl⟩, h.vacant⟩

/-- An operation on both sides: the states still agree, and so do the replies. -/
def Agreed (op : LocalOp) (l : Local) (name : String) (ev : Evaluated) (res : Local × Reply) :
    Prop :=
  ∃ obj' cl', ev.1 = some obj' ∧ res.1.claims = Function.update l.claims name (some cl') ∧
    Mirrors obj' cl' ∧ AgreeReply op (parseResult ev.2) res.2

/-- A failed call that has expired the record at most. -/
theorem agreed_error {err : ScriptError} {r : Reply} (hev : ev = (some obj', .error err))
    (hm : Mirrors obj' cl') (hr : r.err = some (.of err.sentinel)) :
    Agreed op l name ev (l.setClaim name cl', r) := by
  subst hev
  exact ⟨obj', cl', rfl, rfl, hm, hr⟩

/-- A call that writes the object and returns it. -/
theorem agreed_ok {cl₀ : ClaimRecord} (hev : ev = (some obj', .ok obj')) (hm : Mirrors obj' cl')
    (hp : obj'.phase ≠ .unowned) :
    Agreed op l name ev ((l.setClaim name cl₀).setClaim name cl', .ok cl') := by
  subst hev
  refine ⟨obj', cl', rfl, by simp, hm, rfl, .inr ?_⟩
  exact congrArg some (hm.view hp)

variable {ttl : Duration}

/-- The new expiry of both sides. -/
theorem expires_add (hpos : 0 < unixNano now + ttl) :
    now + ttl = unixNano now + ttl + unixEpoch ∧ 0 < unixNano now + ttl := by
  exact ⟨unixNano_add, hpos⟩

theorem Mirrors.renewed (h : Mirrors obj cl) (hpos : 0 < unixNano now + ttl) :
    Mirrors (obj.renewed ttl (unixNano now)) (renewed now ttl cl) :=
  ⟨h.owner, h.token, h.phase, h.transfer, h.drain, h.successor, fun _ => expires_add hpos, h.unowned,
    h.vacant⟩

theorem Mirrors.granted (h : Mirrors obj cl) {gen : String} (hgen : gen ≠ "")
    (hpos : 0 < unixNano now + ttl) (hp : obj.phase = .unowned) (ht : obj.transferStatus = .unset)
    (hd : obj.drainStatus = .unset) (name : String) :
    Mirrors (obj.granted gen ttl (unixNano now) name)
      (granted now ttl (cl.fencingToken + 1) gen cl) := by
  refine ⟨rfl, congrArg (· + 1) h.token, rfl, h.transfer.trans ht, h.drain.trans hd,
    fun _ => h.vacant hp, fun _ => expires_add hpos, ?_, (fun h => by cases h)⟩
  exact ⟨(fun h => by cases h), fun h => absurd h hgen⟩

theorem Mirrors.reservedFor (h : Mirrors obj cl) (hp : obj.ownerGeneration ≠ "") (gen : String)
    (hpos : 0 < unixNano now + ttl) :
    Mirrors (obj.reservedFor gen ttl (unixNano now)) (reservedFor now ttl gen cl) := by
  refine ⟨h.owner, h.token, rfl, rfl, rfl, fun _ => rfl, fun _ => expires_add hpos, ?_,
    (fun h => by cases h)⟩
  exact ⟨(fun h => by cases h), fun h => absurd h hp⟩

theorem Mirrors.committedTo (h : Mirrors obj cl) {gen : String} (hgen : gen ≠ "")
    (hpos : 0 < unixNano now + ttl) :
    Mirrors (obj.committedTo gen ttl (unixNano now))
      (committedTo now ttl (cl.fencingToken + 1) gen cl) := by
  refine ⟨rfl, congrArg (· + 1) h.token, rfl, rfl, rfl, fun _ => rfl, fun _ => expires_add hpos, ?_,
    (fun h => by cases h)⟩
  exact ⟨(fun h => by cases h), fun h => absurd h hgen⟩

theorem Mirrors.rolledBack (h : Mirrors obj cl) (hp : obj.phase = .reserved) :
    Mirrors obj.rolledBack (rolledBack cl) := by
  have hne : obj.phase ≠ .unowned := by rw [hp]; simp
  refine ⟨h.owner, h.token, rfl, rfl, h.drain, fun _ => rfl, fun _ => h.expires hne, ?_,
    (fun h => by cases h)⟩
  exact ⟨(fun h => by cases h), fun ho => absurd (h.unowned.mpr ho) hne⟩

theorem Mirrors.givenUp (h : Mirrors obj cl) (ht : obj.transferStatus = .unset)
    (hd : obj.drainStatus = .unset) : Mirrors obj.released (givenUp cl) :=
  ⟨rfl, h.token, rfl, h.transfer.trans ht, h.drain.trans hd, fun hne => absurd rfl hne,
    fun hne => absurd rfl hne, ⟨fun _ => rfl, fun _ => rfl⟩, fun _ => rfl⟩

@[simp] theorem recall_empty (l : Local) : l.recalled "" = none := rfl

@[simp] theorem store_empty (l : Local) (r : Reply) : l.store "" r = l := rfl

theorem advanceLocal_of_lt {t : FencingToken} (h : t < maxSafeFencingToken) :
    advanceLocal t = .ok (t + 1) := if_neg (Nat.not_le.mpr h)

/-! ## One lemma for each operation -/

section

variable {req : AcquireRequest}

theorem acquire_agreed (hm : Mirrors obj cl) (hcl : l.claims req.claimName = some cl)
    (hid : req.operationID = "") (hgen : req.generationID ≠ "")
    (ht : obj.fencingToken < maxSafeFencingToken)
    (hc : comparableOn obj (unixNano now) (.acquireClaim req) = true) :
    Agreed (.acquireClaim req) l req.claimName
      (acquireScript req.generationID req.ttl (unixNano now) req.claimName (some obj))
      (l.acquireClaim ⟨now, now⟩ req) := by
  simp only [comparableOn, decide_eq_true_eq] at hc
  obtain ⟨hne, hpos, hstatus⟩ := hc
  unfold Local.acquireClaim acquireScript
  simp only [hid, recall_empty, store_empty, hcl, Option.getD_some]
  by_cases hl : obj.lapsed (unixNano now) = true
  · -- Expired on both sides: the claim is granted.
    obtain ⟨hm', hp'⟩ := hm.expire hl
    have hu : obj.expire.phase.held = false := by simp [ClaimJSON.expire]
    have hu' : (expire now cl).phase.held = false := by simp [hp']
    have ht' : (expire now cl).fencingToken < maxSafeFencingToken := by rw [hm'.token]; exact ht
    simp only [hl, if_true, hu, hu', Bool.false_eq_true, if_false, advanceLocal_of_lt ht']
    exact agreed_ok rfl (hm'.granted hgen hpos rfl (hstatus (.inr hl)).1 (hstatus (.inr hl)).2 _)
      (fun h => by cases h)
  · rw [Bool.not_eq_true] at hl
    rw [hm.expire_of_lt (lt_of_not_lapsed hm hne hl)]
    simp only [hl, Bool.false_eq_true, if_false, hm.phase, hm.owner]
    split
    · rename_i hp
      have hp : obj.phase ≠ .unowned := by simpa using hp
      split
      · exact agreed_ok rfl (hm.renewed hpos) hp
      · exact agreed_error rfl hm rfl
    · rename_i hp
      have hp : obj.phase = .unowned := by simpa using hp
      have ht' : cl.fencingToken < maxSafeFencingToken := by rw [hm.token]; exact ht
      simp only [advanceLocal_of_lt ht']
      exact agreed_ok rfl (hm.granted hgen hpos hp (hstatus (.inl hp)).1 (hstatus (.inl hp)).2 _)
        (fun h => by cases h)

/-- The first `AcquireClaim` of a claim. -/
theorem acquire_agreed_new (hcl : l.claims req.claimName = none) (hid : req.operationID = "")
    (hgen : req.generationID ≠ "") (hpos : 0 < unixNano now + req.ttl) :
    Agreed (.acquireClaim req) l req.claimName
      (acquireScript req.generationID req.ttl (unixNano now) req.claimName none)
      (l.acquireClaim ⟨now, now⟩ req) := by
  have hm : Mirrors { name := req.claimName } { name := req.claimName } :=
    ⟨rfl, rfl, rfl, rfl, rfl, fun _ => rfl, fun h => absurd rfl h, ⟨fun _ => rfl, fun _ => rfl⟩,
      fun _ => rfl⟩
  have hl : ({ name := req.claimName } : ClaimJSON).lapsed (unixNano now) = false := rfl
  unfold Local.acquireClaim acquireScript
  simp only [hid, recall_empty, store_empty, hcl, Option.getD_none]
  rw [hm.expire_of_lt fun h => absurd rfl h]
  exact agreed_ok rfl (hm.granted hgen hpos rfl rfl rfl _) (fun h => by cases h)

end

theorem renew_agreed {req : RenewRequest} (hm : Mirrors obj cl)
    (hcl : l.claims req.claimName = some cl) (hid : req.operationID = "")
    (hgen : req.generationID ≠ "")
    (hc : comparableOn obj (unixNano now) (.renewClaim req) = true) :
    Agreed (.renewClaim req) l req.claimName
      (renewScript req.generationID req.token req.ttl (unixNano now) (some obj))
      (l.renewClaim ⟨now, now⟩ req) := by
  simp only [comparableOn, decide_eq_true_eq] at hc
  obtain ⟨hne, hpos⟩ := hc
  unfold Local.renewClaim renewScript
  simp only [hid, recall_empty, store_empty, hcl]
  by_cases hl : obj.lapsed (unixNano now) = true
  · obtain ⟨hm', -⟩ := hm.expire hl
    have hover : obj.overdue (unixNano now) = true := by
      simp only [ClaimJSON.lapsed, decide_eq_true_eq] at hl
      exact hl.1
    have ho : (expire now cl).ownerGeneration ≠ req.generationID := by
      rw [hm'.owner]
      exact Ne.symm hgen
    simp only [hover, if_true, ho, ne_eq, not_false_eq_true]
    exact agreed_error rfl hm'.expireRenew rfl
  · rw [Bool.not_eq_true] at hl
    rw [hm.expire_of_lt (lt_of_not_lapsed hm hne hl)]
    by_cases hover : obj.overdue (unixNano now) = true
    · -- Overdue and not lapsed: the object has no owner, and the script expires it again.
      have hp : obj.phase = .unowned := by simpa [ClaimJSON.lapsed, hover] using hl
      have ho : cl.ownerGeneration ≠ req.generationID := by
        rw [hm.owner, hm.unowned.mp hp]
        exact Ne.symm hgen
      simp only [hover, if_true, ho, ne_eq, not_false_eq_true]
      refine agreed_error rfl ?_ rfl
      exact ⟨hm.owner.trans (hm.unowned.mp hp), hm.token, hm.phase.trans hp, hm.transfer, hm.drain,
        fun h => absurd rfl h, fun h => absurd rfl h, ⟨fun _ => rfl, fun _ => rfl⟩,
        fun _ => hm.vacant hp⟩
    · simp only [hover, Bool.false_eq_true, if_false, hm.owner, hm.token]
      split
      · exact agreed_error rfl hm rfl
      rename_i ho
      have hp : obj.phase ≠ .unowned := fun hp => hgen (not_not.mp ho ▸ hm.unowned.mp hp)
      have hheld : ¬ ¬ cl.phase.held = true := by simp [hm.phase, hp]
      rw [if_neg hheld]
      split
      · exact agreed_error rfl hm rfl
      · exact agreed_ok rfl (hm.renewed hpos) hp

theorem prepare_agreed {req : TransferRequest} (hm : Mirrors obj cl)
    (hcl : l.claims req.claimName = some cl) (hid : req.operationID = "")
    (hgen : req.fromGeneration ≠ "")
    (hc : comparableOn obj (unixNano now) (.prepareTransfer req) = true) :
    Agreed (.prepareTransfer req) l req.claimName
      (prepareScript req.fromGeneration req.toGeneration req.token req.ttl (unixNano now) (some obj))
      (l.prepareTransfer ⟨now, now⟩ req) := by
  simp only [comparableOn, decide_eq_true_eq] at hc
  obtain ⟨hne, hpos, hagain⟩ := hc
  unfold Local.prepareTransfer prepareScript
  simp only [hid, recall_empty, store_empty, hcl]
  by_cases hl : obj.lapsed (unixNano now) = true
  · obtain ⟨hm', -⟩ := hm.expire hl
    have ho : (expire now cl).ownerGeneration ≠ req.fromGeneration := by
      rw [hm'.owner]
      exact Ne.symm hgen
    simp only [hl, if_true, ho, ne_eq, not_false_eq_true]
    exact agreed_error rfl hm' rfl
  · rw [Bool.not_eq_true] at hl
    rw [hm.expire_of_lt (lt_of_not_lapsed hm hne hl)]
    simp only [hl, Bool.false_eq_true, if_false, hm.owner, hm.token, hm.phase]
    split
    · exact agreed_error rfl hm rfl
    rename_i ho
    have ho : obj.ownerGeneration = req.fromGeneration := not_not.mp ho
    have hp : obj.phase ≠ .unowned := fun hp => hgen (ho ▸ hm.unowned.mp hp)
    rw [hm.successor hp]
    split
    · exact agreed_error rfl hm rfl
    rename_i htok
    split
    · exact agreed_error rfl hm rfl
    · -- The script has no branch for a repeated prepare; the condition excludes it.
      rw [if_neg fun h => hagain ⟨hl, h.1, ho, not_not.mp htok, h.2⟩]
      exact agreed_ok rfl (hm.reservedFor (ho ▸ hgen) _ hpos) (fun h => by cases h)

theorem commit_agreed {req : CommitRequest} (hm : Mirrors obj cl)
    (hcl : l.claims req.claimName = some cl) (hid : req.operationID = "")
    (hgen : req.toGeneration ≠ "") (ht : obj.fencingToken < maxSafeFencingToken)
    (hc : comparableOn obj (unixNano now) (.commitTransfer req) = true) :
    Agreed (.commitTransfer req) l req.claimName
      (commitScript req.fromGeneration req.toGeneration req.expectedToken req.ttl (unixNano now)
        (some obj))
      (l.commitTransfer ⟨now, now⟩ req) := by
  simp only [comparableOn, decide_eq_true_eq] at hc
  obtain ⟨hne, hpos, hagain⟩ := hc
  unfold Local.commitTransfer commitScript
  simp only [hid, recall_empty, store_empty, hcl]
  by_cases hl : obj.lapsed (unixNano now) = true
  · obtain ⟨hm', hp'⟩ := hm.expire hl
    have hno : Local.alreadyCommitted req (expire now cl) = false := by
      simp [Local.alreadyCommitted, hp']
    have hp : (expire now cl).phase ≠ .reserved := by rw [hp']; simp
    simp only [hl, if_true, hno, Bool.false_eq_true, if_false, hp, ne_eq, not_false_eq_true]
    exact agreed_error rfl hm' rfl
  · rw [Bool.not_eq_true] at hl
    rw [hm.expire_of_lt (lt_of_not_lapsed hm hne hl)]
    have hno : Local.alreadyCommitted req cl = false := by
      simp only [Local.alreadyCommitted, decide_eq_false_iff_not, hm.phase, hm.owner, hm.token,
        hm.transfer]
      exact fun h => hagain ⟨hl, h⟩
    simp only [hl, hno, Bool.false_eq_true, if_false, hm.owner, hm.token, hm.phase]
    split
    · exact agreed_error rfl hm rfl
    rename_i hp
    have hp : obj.phase ≠ .unowned := by rw [not_not.mp hp]; simp
    rw [hm.successor hp]
    split
    · exact agreed_error rfl hm rfl
    split
    · exact agreed_error rfl hm rfl
    · have ht' : cl.fencingToken < maxSafeFencingToken := by rw [hm.token]; exact ht
      simp only [← hm.token, advanceLocal_of_lt ht']
      exact agreed_ok rfl (hm.committedTo hgen hpos) (fun h => by cases h)

theorem abort_agreed {req : AbortRequest} (hm : Mirrors obj cl)
    (hcl : l.claims req.claimName = some cl) (hid : req.operationID = "")
    (hc : comparableOn obj (unixNano now) (.abortTransfer req) = true) :
    Agreed (.abortTransfer req) l req.claimName
      (abortScript req.fromGeneration req.expectedToken (some obj))
      (l.abortTransfer ⟨now, now⟩ req) := by
  simp only [comparableOn, decide_eq_true_eq] at hc
  unfold Local.abortTransfer abortScript
  simp only [hid, recall_empty, store_empty, hcl]
  rw [hm.expire_of_lt hc]
  simp only [hm.owner, hm.token, hm.phase]
  split
  · split
    · rename_i hown
      refine ⟨obj, cl, rfl, rfl, hm, rfl, .inr ?_⟩
      exact congrArg some (hm.view (by rw [hown.2]; simp))
    · exact agreed_error rfl hm rfl
  rename_i hp
  split
  · exact agreed_error rfl hm rfl
  split
  · exact agreed_error rfl hm rfl
  · exact agreed_ok rfl (hm.rolledBack (not_not.mp hp)) (fun h => by cases h)

theorem release_agreed {req : ReleaseRequest} (hm : Mirrors obj cl)
    (hcl : l.claims req.claimName = some cl) (hid : req.operationID = "")
    (hc : comparableOn obj (unixNano now) (.releaseClaim req) = true) :
    Agreed (.releaseClaim req) l req.claimName
      (releaseScript req.generationID req.token (some obj))
      ((l.releaseClaim ⟨now, now⟩ req).1, { err := (l.releaseClaim ⟨now, now⟩ req).2 }) := by
  simp only [comparableOn, decide_eq_true_eq] at hc
  obtain ⟨hlt, hvacant, hstatus⟩ := hc
  unfold Local.releaseClaim releaseScript
  simp only [hid, recall_empty, store_empty, hcl]
  rw [hm.expire_of_lt hlt]
  simp only [hm.owner, hm.token, hm.phase]
  split
  · exact agreed_error rfl hm rfl
  rename_i htok
  split
  · rw [if_neg fun hp => hvacant ⟨hp, not_not.mp htok⟩]
    exact agreed_error rfl hm rfl
  · rename_i ho
    have hs := hstatus ⟨not_not.mp ho, not_not.mp htok⟩
    exact ⟨obj.released, givenUp cl, rfl, by simp, hm.givenUp hs.1 hs.2, rfl, .inl ⟨req, rfl⟩⟩

/-! ## Over histories -/

/-- No script but the acquire script answers a missing key with anything but `not_found`. -/
theorem missing_agreed {op : LocalOp} {name : String} {s : Script} (hid : op.operationID = "")
    (hname : op.claimName = some name) (hs : op.script (unixNano now) = some s)
    (hop : ∀ req, op ≠ .acquireClaim req) (hcl : l.claims name = none) :
    (s.eval none).1 = none ∧ (l.apply ⟨now, now⟩ op).1 = l ∧
      AgreeReply op (parseResult (s.eval none).2) (l.apply ⟨now, now⟩ op).2 := by
  cases op with
  | acquireClaim req => exact absurd rfl (hop req)
  | getClaim name => cases hs
  | registerGeneration gen => cases hs
  | forceSetToken name tok => cases hs
  | renewClaim req | prepareTransfer req | commitTransfer req | abortTransfer req
  | releaseClaim req =>
    cases hs
    cases hname
    simp only [LocalOp.operationID] at hid
    simp only [Local.apply, Local.renewClaim, Local.prepareTransfer, Local.commitTransfer,
      Local.abortTransfer, Local.releaseClaim, hid, recall_empty, hcl]
    exact ⟨rfl, trivial, rfl⟩

/-- What one call keeps: the claims still agree, and the replies do. -/
def StepAgrees (p : Keys × Local) (x : Time × LocalOp) : Prop :=
  (∀ n, MirrorsAt ((bothStep p x).1 n) ((bothStep p x).2.claims n)) ∧
    ∃ lua, p.1.reply x = some lua ∧ AgreeReply x.2 lua (p.2.apply ⟨x.1, x.1⟩ x.2).2

section

variable {p : Keys × Local} {x : Time × LocalOp} {name : String} {s : Script}

theorem evaluate_eq (hname : x.2.claimName = some name)
    (hs : x.2.script (unixNano x.1) = some s) :
    p.1.evaluate x.1 x.2 = some (name, s.eval (p.1 name)) := by
  unfold Keys.evaluate
  rw [hname, hs]

theorem stepAgrees_of_agreed (hp : ∀ n, MirrorsAt (p.1 n) (p.2.claims n))
    (hname : x.2.claimName = some name) (hs : x.2.script (unixNano x.1) = some s)
    {o : Option ClaimJSON} (hkey : p.1 name = o)
    (h : Agreed x.2 p.2 name (s.eval o) (p.2.apply ⟨x.1, x.1⟩ x.2)) : StepAgrees p x := by
  subst hkey
  obtain ⟨obj', cl', hobj, hcl, hm, hreply⟩ := h
  refine ⟨fun n => ?_, _, by rw [Keys.reply, evaluate_eq hname hs]; rfl, hreply⟩
  simp only [bothStep, Keys.step, evaluate_eq hname hs, Local.step, hcl, hobj]
  by_cases hn : n = name
  · subst hn
    simpa [MirrorsAt] using hm
  · simpa [hn] using hp n

theorem stepAgrees_of_missing (hp : ∀ n, MirrorsAt (p.1 n) (p.2.claims n))
    (hname : x.2.claimName = some name) (hs : x.2.script (unixNano x.1) = some s)
    (hkey : p.1 name = none) (hid : x.2.operationID = "") (hop : ∀ req, x.2 ≠ .acquireClaim req) :
    StepAgrees p x := by
  have hcl : p.2.claims name = none := by
    have := hp name
    rw [hkey] at this
    cases hc : p.2.claims name with
    | none => rfl
    | some cl => rw [hc] at this; cases this
  obtain ⟨hnone, hsame, hreply⟩ := missing_agreed hid hname hs hop hcl
  refine ⟨fun n => ?_, _, by rw [Keys.reply, evaluate_eq hname hs, hkey]; rfl, hreply⟩
  simp only [bothStep, Keys.step, evaluate_eq hname hs, hkey, Local.step, hnone, hsame]
  by_cases hn : n = name
  · subst hn
    simpa [hkey] using hp n
  · simpa [hn] using hp n

end

/-- One call on both sides. -/
theorem step_agrees {p : Keys × Local} {x : Time × LocalOp}
    (hp : ∀ n, MirrorsAt (p.1 n) (p.2.claims n)) (hplain : x.2.plain)
    (hc : comparable p x = true) (ht : tokenSafe p x = true) : StepAgrees p x := by
  obtain ⟨now, op⟩ := x
  obtain ⟨hid, s, hs, hgen⟩ := hplain
  cases hname : op.claimName with
  | none =>
    cases op <;> cases hname
    cases hs
  | some name =>
    have hmirrors := hp name
    cases hkey : p.1 name with
    | none =>
      by_cases hop : ∃ req, op = .acquireClaim req
      · obtain ⟨req, rfl⟩ := hop
        cases hs
        cases hname
        have hcl : p.2.claims req.claimName = none := by
          rw [hkey] at hmirrors
          cases hcl : p.2.claims req.claimName with
          | none => rfl
          | some cl => rw [hcl] at hmirrors; cases hmirrors
        simp only [comparable, LocalOp.claimName, hkey, decide_eq_true_eq] at hc
        exact stepAgrees_of_agreed hp rfl rfl hkey (acquire_agreed_new hcl hid (hgen _ (by simp [Script.generations])) hc)
      · have hs' : ∃ s', op.script (unixNano now) = some s' := by
          cases op <;> first | exact ⟨_, rfl⟩ | cases hs
        obtain ⟨s', hs'⟩ := hs'
        exact stepAgrees_of_missing hp hname hs' hkey hid fun req h => hop ⟨req, h⟩
    | some obj =>
      rw [hkey] at hmirrors
      cases hcl : p.2.claims name with
      | none => rw [hcl] at hmirrors; cases hmirrors
      | some cl =>
        rw [hcl] at hmirrors
        have hm : Mirrors obj cl := hmirrors
        simp only [comparable, hname, hkey] at hc
        simp only [tokenSafe, hname, Option.bind_some, hkey, decide_eq_true_eq] at ht
        cases op with
        | getClaim n | registerGeneration gen | forceSetToken n tok => cases hs
        | acquireClaim req =>
          cases hs
          cases hname
          exact stepAgrees_of_agreed hp rfl rfl hkey (acquire_agreed hm hcl hid (hgen _ (by simp [Script.generations])) ht hc)
        | renewClaim req =>
          cases hs
          cases hname
          exact stepAgrees_of_agreed hp rfl rfl hkey (renew_agreed hm hcl hid (hgen _ (by simp [Script.generations])) hc)
        | prepareTransfer req =>
          cases hs
          cases hname
          exact stepAgrees_of_agreed hp rfl rfl hkey (prepare_agreed hm hcl hid (hgen _ (by simp [Script.generations])) hc)
        | commitTransfer req =>
          cases hs
          cases hname
          exact stepAgrees_of_agreed hp rfl rfl hkey (commit_agreed hm hcl hid (hgen _ (by simp [Script.generations])) ht hc)
        | abortTransfer req =>
          cases hs
          cases hname
          exact stepAgrees_of_agreed hp rfl rfl hkey (abort_agreed hm hcl hid hc)
        | releaseClaim req =>
          cases hs
          cases hname
          exact stepAgrees_of_agreed hp rfl rfl hkey (release_agreed hm hcl hid hc)

/-- Over every history of plain calls that touch none of the differences, the scripts and `Local`
give the same reply to each call. -/
theorem local_mirrors_scripts (xs : List (Time × LocalOp)) (hplain : ∀ x ∈ xs, x.2.plain)
    (hcomp : Run.Meets bothStep comparable bothNew xs = true)
    (htok : Run.Meets bothStep tokenSafe bothNew xs = true)
    {i : Nat} {x : Time × LocalOp} (hx : xs[i]? = some x) :
    ∃ lua, (Run.stateAt bothStep bothNew xs i).1.reply x = some lua ∧
      AgreeReply x.2 lua
        ((Run.stateAt bothStep bothNew xs i).2.apply ⟨x.1, x.1⟩ x.2).2 := by
  have hagrees : ∀ j y, xs[j]? = some y →
      (∀ n, MirrorsAt ((Run.stateAt bothStep bothNew xs j).1 n)
        ((Run.stateAt bothStep bothNew xs j).2.claims n)) →
      StepAgrees (Run.stateAt bothStep bothNew xs j) y := fun j y hy hp =>
    step_agrees hp (hplain y (List.mem_of_getElem? hy)) (Run.meets_getElem hcomp hy)
      (Run.meets_getElem htok hy)
  have hmirrors : ∀ n,
      MirrorsAt ((Run.stateAt bothStep bothNew xs i).1 n)
        ((Run.stateAt bothStep bothNew xs i).2.claims n) := by
    refine Run.along (J := fun j => ∀ n,
      MirrorsAt ((Run.stateAt bothStep bothNew xs j).1 n)
        ((Run.stateAt bothStep bothNew xs j).2.claims n)) ?_ ?_
      (Nat.le_of_lt (List.getElem?_eq_some_iff.mp hx).1)
    · intro n
      trivial
    · intro j y hy hp
      rw [Run.stateAt_succ hy]
      exact (hagrees j y hy hp).1
  exact (hagrees i x hx hmirrors).2

/-- "g1" hands the claim to "g2", which renews it. -/
def handedOver : List (Time × LocalOp) :=
  [(unixTime 1, .acquireClaim { claimName := "c", generationID := "g1", ttl := 10 }),
    (unixTime 2, .prepareTransfer { claimName := "c", fromGeneration := "g1", toGeneration := "g2"
                                    token := 1, ttl := 10 }),
    (unixTime 3, .commitTransfer { claimName := "c", fromGeneration := "g1", toGeneration := "g2"
                                   expectedToken := 1, ttl := 10 }),
    (unixTime 4, .renewClaim { claimName := "c", generationID := "g2", token := 2, ttl := 10 })]

theorem handedOver_plain : ∀ x ∈ handedOver, x.2.plain := by
  intro x hx
  simp only [handedOver, List.mem_cons, List.not_mem_nil, or_false] at hx
  rcases hx with rfl | rfl | rfl | rfl <;>
    exact ⟨rfl, _, rfl, by simp [Script.generations]⟩

theorem local_mirrors_scripts_handedOver :
    ∃ lua, (Run.stateAt bothStep bothNew handedOver 3).1.reply
        (unixTime 4, .renewClaim { claimName := "c", generationID := "g2", token := 2
                                   ttl := 10 }) = some lua ∧
      AgreeReply (.renewClaim { claimName := "c", generationID := "g2", token := 2, ttl := 10 }) lua
        ((Run.stateAt bothStep bothNew handedOver 3).2.apply
          ⟨unixTime 4, unixTime 4⟩
          (.renewClaim { claimName := "c", generationID := "g2", token := 2, ttl := 10 })).2 :=
  local_mirrors_scripts handedOver handedOver_plain (by decide) (by decide) rfl

/-- "g2" asks for the claim at the very time at which the lease of "g1" ends. -/
def askedAtExpiry : List (Time × LocalOp) :=
  [(unixTime 1, .acquireClaim { claimName := "c", generationID := "g1", ttl := 10 }),
    (unixTime 11, .acquireClaim { claimName := "c", generationID := "g2", ttl := 10 })]

/-- The script refuses, `Local` grants. -/
theorem expiry_boundary_differs :
    (∀ x ∈ askedAtExpiry, x.2.plain) ∧
      Run.Meets bothStep tokenSafe bothNew askedAtExpiry = true ∧
      (Run.stateAt bothStep bothNew askedAtExpiry 1).1.reply
          (unixTime 11, .acquireClaim { claimName := "c", generationID := "g2", ttl := 10 }) =
        some (.error (.of .claimHeld)) ∧
      ((Run.stateAt bothStep bothNew askedAtExpiry 1).2.apply
          ⟨unixTime 11, unixTime 11⟩
          (.acquireClaim { claimName := "c", generationID := "g2", ttl := 10 })).2.err = none := by
  refine ⟨?_, by decide, by decide, by decide⟩
  intro x hx
  simp only [askedAtExpiry, List.mem_cons, List.not_mem_nil, or_false] at hx
  rcases hx with rfl | rfl <;> exact ⟨rfl, _, rfl, by simp [Script.generations]⟩

end ShiftLock.Redis
