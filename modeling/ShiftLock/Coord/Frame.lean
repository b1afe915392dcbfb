import ShiftLock.Coord.System

/-!
# What an action changes

Frame lemmas for `Coord.exec`: which part of the world an action can change. The claims are changed
by the sections of `Claim` only, each on its own claim (`Act.section`, `exec_claims`).
-/

namespace ShiftLock

open Function

/-- A new lease has the token of its record, which belongs to the generation. -/
theorem Claim.tryAcquireInstall_installed {live : Bool} {genID : String}
    {c : Claim} {id : Nat} {record : ClaimRecord} {l : Lease}
    (h : (c.tryAcquireInstall live genID id record).2 = .installed l) :
    record.ownerGeneration = genID ∧ l.token = record.fencingToken ∧
      (c.tryAcquireInstall live genID id record).1.lease = some l := by
  unfold tryAcquireInstall at h ⊢
  split at h
  · cases h
  rename_i hclosed
  split at h
  · cases h
  split at h
  · rename_i ho
    cases h
    have howner := ho
    simp only [ClaimRecord.ownedBy, decide_eq_true_eq] at howner
    refine ⟨howner.2.1, rfl, ?_⟩
    simp [hclosed, ho]
  · cases h

namespace Coord

variable (cfg : Config) (e : Env) (w : World)

variable {a : Act}

theorem exec_backend (h : ∀ op, a ≠ .call op) : (exec cfg a e w).1.backend = w.backend := by
  cases a with
  | call op => exact absurd rfl (h op)
  | _ => rfl

/-- A call changes nothing but the backend. -/
theorem exec_call_coord (op : Memory.Op) : (exec cfg (.call op) e w).1.coord = w.coord := by
  unfold exec
  cases e.fault <;> rfl

/-- `setState` changes the generation only, and not its ID. -/
theorem setState_eq (c : Coord) (now : Time) (target : GenerationState)
    (reason : TransitionReason) :
    ∃ gen, gen.id = c.gen.id ∧ (c.setState now target reason).1 = { c with gen } := by
  unfold setState
  split
  · exact ⟨{ c.gen with reason, updatedAt := now }, rfl, rfl⟩
  split
  · exact ⟨{ c.gen with state := target, reason, updatedAt := now }, rfl, rfl⟩
  · exact ⟨c.gen, rfl, rfl⟩

/-- `Claim` changes the set of known claims only. -/
theorem claim_eq (c : Coord) (name : String) :
    ∃ known, (c.claim cfg name).1 = { c with known } := by
  unfold Coord.claim
  split
  · exact ⟨c.known, rfl⟩
  split
  · exact ⟨c.known, rfl⟩
  · exact ⟨_, rfl⟩

/-- The first section of `Close` sets a flag only. -/
theorem closeBegin_eq (c : Coord) (order : List String) :
    ∃ closed, (c.closeBegin order).1 = { c with closed } := by
  unfold Coord.closeBegin
  split
  · exact ⟨c.closed, rfl⟩
  · exact ⟨true, rfl⟩

/-- The actions that change a counter of the coordinator, or shut it down. -/
def Act.counts : Act → Bool
  | .newOpID _ _ | .newHandoff | .shutdown | .tryAcquireInstall _ _ | .ensureLocalLease _ => true
  | _ => false

/-- The counters of a coordinator, with the ID of its generation. -/
structure Counters where
  genID : String
  opSeq : Nat
  nextLease : Nat
  shutdown : Bool

def counters (c : Coord) : Counters := ⟨c.gen.id, c.opSeq, c.nextLease, c.shutdown⟩

/-- The other actions keep them. -/
theorem exec_counters (h : a.counts = false) :
    (exec cfg a e w).1.coord.counters = w.coord.counters := by
  cases a with
  | newOpID op claim | newHandoff | shutdown | tryAcquireInstall name record | ensureLocalLease name =>
    cases h
  | call op => rw [exec_call_coord]
  | setState target reason =>
    obtain ⟨gen, hid, h⟩ := setState_eq w.coord e.now target reason
    show (w.coord.setState e.now target reason).1.counters = _
    rw [h, counters, hid]
    rfl
  | claim name =>
    obtain ⟨known, h⟩ := claim_eq cfg w.coord name
    exact (congrArg counters h :)
  | closeBegin =>
    obtain ⟨closed, h⟩ := closeBegin_eq w.coord e.order
    exact (congrArg counters h :)
  | _ => rfl

/-- The generation keeps its ID. -/
theorem exec_genID (a : Act) : (exec cfg a e w).1.genID = w.genID := by
  cases ha : a.counts with
  | false => exact congrArg (·.genID) (exec_counters cfg e w ha)
  | true => cases a <;> first | rfl | cases ha

/-- Only `newOpID` counts operations. -/
theorem exec_opSeq (h : ∀ op claim, a ≠ .newOpID op claim) :
    (exec cfg a e w).1.coord.opSeq = w.coord.opSeq := by
  cases ha : a.counts with
  | false => exact congrArg (·.opSeq) (exec_counters cfg e w ha)
  | true => cases a <;> first | rfl | exact absurd rfl (h _ _) | cases ha

/-- Identities of leases are not used again. -/
theorem exec_nextLease_le (a : Act) :
    w.coord.nextLease ≤ (exec cfg a e w).1.coord.nextLease := by
  cases ha : a.counts with
  | false => exact Nat.le_of_eq (congrArg (·.nextLease) (exec_counters cfg e w ha)).symm
  | true => cases a <;> first | exact Nat.le_refl _ | exact Nat.le_succ _ | cases ha

/-- Only `Close` shuts down. -/
theorem exec_shutdown (h : a ≠ .shutdown) :
    (exec cfg a e w).1.coord.shutdown = w.coord.shutdown := by
  cases ha : a.counts with
  | false => exact congrArg (·.shutdown) (exec_counters cfg e w ha)
  | true => cases a <;> first | rfl | exact absurd rfl h | cases ha

/-- Only `Claim` and `Close` change the list of claims and close it. -/
theorem exec_listing (h : ∀ name, a ≠ .claim name) (hc : a ≠ .closeBegin) :
    (exec cfg a e w).1.coord.known = w.coord.known ∧
      (exec cfg a e w).1.coord.closed = w.coord.closed := by
  cases a with
  | claim name => exact absurd rfl (h name)
  | closeBegin => exact absurd rfl hc
  | call op => rw [exec_call_coord]; exact ⟨rfl, rfl⟩
  | setState target reason =>
    obtain ⟨gen, -, h⟩ := setState_eq w.coord e.now target reason
    exact ⟨congrArg (·.known) h, congrArg (·.closed) h⟩
  | _ => exact ⟨rfl, rfl⟩

/-- The claim whose section the action is. -/
def Act.claimOf : Act → Option String
  | .tryAcquireBegin name | .tryAcquireInstall name _ | .tryAcquireEnd name
  | .revokeLease name _ | .markRenewing name | .clearRenewing name | .applyRecord name _
  | .setRecord name _ | .ensureLocalLease name | .closeClaim name | .closeDrain name
  | .startDrain name => some name
  | _ => none

/-- What the action makes of its claim. -/
def Act.section (live : Bool) (genID : String) (next : Nat) (c : Claim) : Act → Claim
  | .tryAcquireBegin _ => (c.tryAcquireBegin live).1
  | .tryAcquireInstall _ record => (c.tryAcquireInstall live genID next record).1
  | .tryAcquireEnd _ => c.tryAcquireEnd
  | .revokeLease _ reason => (c.revokeLease reason).1
  | .markRenewing _ => c.markRenewing.1
  | .clearRenewing _ => c.clearRenewing
  | .applyRecord _ record => (c.applyRecord genID record).1
  | .setRecord _ record => c.setRecord record
  | .ensureLocalLease _ => (c.ensureLocalLease live genID next).1
  | .closeClaim _ => c.close
  | .closeDrain _ => c.setDrain c.drain.close
  | .startDrain _ => c.setDrain c.drain.startDrain
  | _ => c

/-- **The claims under one action.** -/
theorem exec_claims (a : Act) (name : String) :
    (exec cfg a e w).1.coord.claims name =
      if a.claimOf = some name then a.section w.live w.genID w.coord.nextLease (w.coord.claims name)
      else w.coord.claims name := by
  have hupdate : ∀ {n : String} {cl cl' : Claim}, (n = name → cl = cl') →
      update w.coord.claims n cl name = if some n = some name then cl' else
        w.coord.claims name := by
    intro n cl cl' h
    by_cases hn : n = name
    · subst hn; simp [h rfl]
    · rw [update_of_ne (Ne.symm hn), if_neg (by simpa using hn)]
  cases a with
  | call op => rw [exec_call_coord]; rfl
  | setState target reason =>
    obtain ⟨gen, -, h⟩ := setState_eq w.coord e.now target reason
    exact congrArg (·.claims name) h
  | claim n => obtain ⟨_, h⟩ := claim_eq cfg w.coord n; exact congrArg (·.claims name) h
  | closeBegin =>
    obtain ⟨_, h⟩ := closeBegin_eq w.coord e.order; exact congrArg (·.claims name) h
  | tryAcquireBegin n | tryAcquireInstall n record | tryAcquireEnd n | revokeLease n reason | markRenewing n
  | clearRenewing n | applyRecord n record | setRecord n record | ensureLocalLease n | closeClaim n
  | closeDrain n | startDrain n => exact hupdate (by rintro rfl; rfl)
  | _ => rfl

/-- The handoff whose section the action is. -/
def Act.handoffOf : Act → Option Nat
  | .drainBegin h | .drainEnd h | .transferBegin h _ | .transferStart h _ | .setToken h _ _
  | .dropToken h _ | .transferEnd h | .commitEnd h | .abortBegin h | .fail h _
  | .watcherBegin h => some h
  | _ => none

/-- What the action makes of its handoff. -/
def Act.handoffSection (x : Handoff) : Act → Handoff
  | .drainBegin _ => x.drainBegin.1
  | .drainEnd _ => x.drainEnd
  | .transferBegin _ s => (x.transferBegin s).1
  | .transferStart _ s => x.transferStart s
  | .setToken _ name t => x.setToken name t
  | .dropToken _ name => x.dropToken name
  | .transferEnd _ => x.transferEnd
  | .commitEnd _ => x.commitEnd
  | .abortBegin _ => x.abortBegin.1
  | .fail _ err => x.fail err
  | .watcherBegin _ => x.watcherBegin.1
  | _ => x

/-- **The handoffs under one action.** A new one is put behind the others. -/
theorem exec_handoffs (a : Act) {h : Nat} (hnew : a = .newHandoff → h ≠ w.coord.handoffs) :
    (exec cfg a e w).1.handoffs h =
      if a.handoffOf = some h then a.handoffSection (w.handoffs h) else w.handoffs h := by
  have hupdate : ∀ {n : Nat} {x x' : Handoff}, (n = h → x = x') →
      update w.handoffs n x h = if some n = some h then x' else w.handoffs h := by
    intro n x x' hx
    by_cases hn : n = h
    · subst hn; simp [hx rfl]
    · rw [update_of_ne (Ne.symm hn), if_neg (by simpa using hn)]
  cases a with
  | call op => unfold exec; cases e.fault <;> rfl
  | newHandoff => exact update_of_ne (hnew rfl) _ _
  | drainBegin n | drainEnd n | transferBegin n s | transferStart n s | setToken n name t | dropToken n name
  | transferEnd n | commitEnd n | abortBegin n | fail n err | watcherBegin n =>
    exact hupdate (by rintro rfl; rfl)
  | _ => rfl

/-! ## Records and leases -/

/-- The record that an action applies to a claim. -/
def Act.delivers : Act → Option (String × ClaimRecord)
  | .tryAcquireInstall name record => some (name, record)
  | .applyRecord name record => some (name, record)
  | .setRecord name record => some (name, record)
  | _ => none

/-- The record that an action applies to claim `name`. -/
def Act.deliversTo (a : Act) (name : String) : Option ClaimRecord :=
  match a.delivers with
  | some (n, record) => if n = name then some record else none
  | none => none

theorem Act.deliversTo_eq {name : String} {record : ClaimRecord} :
    a.deliversTo name = some record ↔ a.delivers = some (name, record) := by
  unfold deliversTo
  cases h : a.delivers with
  | none => simp
  | some p =>
    obtain ⟨n, r⟩ := p
    by_cases hn : n = name <;> simp [hn]

/-- What a section does to the record and the lease of a claim, with the record that it applies:
a lease keeps its token or gets that of the record, which is not zero, and only a new lease has a
new identity. -/
structure Claim.Steps (delivered : Option ClaimRecord) (next next' : Nat) (c c' : Claim) : Prop
    where
  record : c'.record = c.record ∨ delivered = some c'.record
  lease : ∀ l, c'.lease = some l → c.lease = some l ∨
    (l.token = c'.record.fencingToken ∧ l.token ≠ 0 ∧ ((l.id = next ∧ next < next') ∨ ∃ l₀, c.lease = some l₀ ∧ l.id = l₀.id))

section

variable {delivered : Option ClaimRecord} {live : Bool} {genID : String} {next next' : Nat}
  {c c' : Claim}

theorem Claim.Steps.of_eq (hr : c'.record = c.record) (hl : c'.lease = c.lease ∨ c'.lease = none) :
    Claim.Steps delivered next next' c c' := by
  refine ⟨.inl hr, fun l h => .inl ?_⟩
  rcases hl with hl | hl <;> rw [hl] at h
  · exact h
  · cases h

theorem tryAcquireBegin_steps : Claim.Steps delivered next next' c (c.tryAcquireBegin live).1 := by
  unfold Claim.tryAcquireBegin
  split
  · exact .of_eq rfl (.inl rfl)
  split
  · exact .of_eq rfl (.inl rfl)
  split <;> exact .of_eq rfl (.inl rfl)

theorem tryAcquireInstall_steps (record : ClaimRecord) (hlt : next < next') :
    Claim.Steps (some record) next next' c (c.tryAcquireInstall live genID next record).1 := by
  unfold Claim.tryAcquireInstall
  split
  · exact .of_eq rfl (.inl rfl)
  split
  · exact .of_eq rfl (.inl rfl)
  split
  · rename_i ho
    refine ⟨.inr rfl, fun l h => ?_⟩
    cases h
    simp only [ClaimRecord.ownedBy, decide_eq_true_eq] at ho
    exact .inr ⟨rfl, ho.2.2, .inl ⟨rfl, hlt⟩⟩
  · exact ⟨.inr rfl, fun l h => by cases h⟩

theorem revokeLease_steps (reason : TransitionReason) :
    Claim.Steps delivered next next' c (c.revokeLease reason).1 := by
  unfold Claim.revokeLease
  simp only
  split
  · exact .of_eq rfl (.inl rfl)
  · exact .of_eq rfl (.inr rfl)

theorem markRenewing_steps : Claim.Steps delivered next next' c c.markRenewing.1 := by
  unfold Claim.markRenewing
  split <;> exact .of_eq rfl (.inl rfl)

theorem applyRecord_steps (record : ClaimRecord) :
    Claim.Steps (some record) next next' c (c.applyRecord genID record).1 := by
  unfold Claim.applyRecord
  simp only
  split
  · rename_i hl
    exact ⟨.inr rfl, fun l h => .inl (hl.trans (hl.symm.trans h))⟩
  · rename_i l₀ hl
    split
    · rename_i hc
      refine ⟨.inr rfl, fun l h => ?_⟩
      cases h
      exact .inr ⟨rfl, (ClaimRecord.controls_iff.mp hc).2.1, .inr ⟨l₀, hl, rfl⟩⟩
    · exact ⟨.inr rfl, fun l h => by cases h⟩

theorem ensureLocalLease_steps (hlt : next < next') :
    Claim.Steps delivered next next' c (c.ensureLocalLease live genID next).1 := by
  unfold Claim.ensureLocalLease
  split
  · exact .of_eq rfl (.inl rfl)
  split
  · exact .of_eq rfl (.inl rfl)
  rename_i hc
  rw [not_not] at hc
  have hne := (ClaimRecord.controls_iff.mp hc).2.1
  split
  · rename_i l₀ hl
    refine ⟨.inl rfl, fun l h => ?_⟩
    cases h
    refine .inr ⟨rfl, hne, .inr ⟨l₀, ?_, rfl⟩⟩
    unfold Claim.validLease at hl
    split at hl
    · exact hl
    · cases hl
  · refine ⟨.inl rfl, fun l h => ?_⟩
    cases h
    exact .inr ⟨rfl, hne, .inl ⟨rfl, hlt⟩⟩

end

theorem exec_steps (a : Act) (name : String) :
    Claim.Steps (a.deliversTo name) w.coord.nextLease (exec cfg a e w).1.coord.nextLease
      (w.coord.claims name) ((exec cfg a e w).1.coord.claims name) := by
  rw [exec_claims cfg e w]
  split
  · rename_i hn
    cases a <;> cases hn <;> simp only [Act.deliversTo, Act.delivers, Act.section, if_pos]
    · exact tryAcquireBegin_steps
    · exact tryAcquireInstall_steps _ (Nat.lt_succ_self _)
    · exact .of_eq rfl (.inl rfl)
    · exact revokeLease_steps _
    · exact markRenewing_steps
    · exact .of_eq rfl (.inl rfl)
    · exact applyRecord_steps _
    · exact ⟨.inr rfl, fun l h => .inl h⟩
    · exact ensureLocalLease_steps (Nat.lt_succ_self _)
    · exact .of_eq rfl (.inr rfl)
    · exact .of_eq rfl (.inl rfl)
    · exact .of_eq rfl (.inl rfl)
  · exact .of_eq rfl (.inl rfl)

/-! ## Forks and the outside -/

theorem fork_cases {a : Act} {r : a.Answer} {t : Task} (h : fork a r = some t) :
    (∃ name, a = .go (.renewal name) ∧ t = .renewal name) ∨
      ∃ n, a = .go (.watcher n) ∧ t = .watcher n := by
  cases a with
  | go b =>
    cases b <;> cases r <;> cases h
    · exact .inl ⟨_, rfl, rfl⟩
    · exact .inr ⟨_, rfl, rfl⟩
  | _ => cases h

theorem outside_claims (x : Outside) (name : String) :
    ∃ g, (outside x w).coord.claims name = (w.coord.claims name).setDrain g := by
  have hdrain : ∀ (n : String) (f : DrainGroup → DrainGroup),
      ∃ g, (w.onDrain n f).coord.claims name = (w.coord.claims name).setDrain g := by
    intro n f
    show ∃ g, update w.coord.claims n _ name = _
    by_cases hn : name = n
    · subst hn; exact ⟨_, by rw [update_self]⟩
    · exact ⟨(w.coord.claims name).drain, by rw [update_of_ne hn]; rfl⟩
  cases x with
  | client c op => exact ⟨(w.coord.claims name).drain, rfl⟩
  | beginWork n op | endWork n op => exact hdrain n _

theorem outside_nextLease (x : Outside) :
    (outside x w).coord.nextLease = w.coord.nextLease := by
  cases x <;> rfl

theorem outside_shutdown (x : Outside) : (outside x w).coord.shutdown = w.coord.shutdown := by
  cases x <;> rfl

/-- No action takes the token of a stored record back. -/
theorem exec_stored_le (a : Act) (name : String) :
    (w.backend.recordOf name).fencingToken ≤
      ((exec cfg a e w).1.backend.recordOf name).fencingToken := by
  by_cases hc : ∃ op, a = .call op
  · obtain ⟨op, rfl⟩ := hc
    unfold exec
    cases e.fault with
    | some err => exact Nat.le_refl _
    | none => exact (w.backend.locked_effect e.call op).token_le name
  · rw [exec_backend cfg e w fun op h => hc ⟨op, h⟩]

theorem outside_stored_le (x : Outside) (name : String) :
    (w.backend.recordOf name).fencingToken ≤
      ((outside x w).backend.recordOf name).fencingToken := by
  cases x with
  | client c op => exact (w.backend.apply_effect c op).token_le name
  | beginWork n op | endWork n op => exact Nat.le_refl _

end Coord
end ShiftLock
