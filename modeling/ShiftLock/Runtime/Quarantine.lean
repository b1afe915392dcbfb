import ShiftLock.Runtime.Audited
import ShiftLock.Coord.Grants

/-!
# Quarantine

`checkControlGates` is asked by `FencedClaims.Acquire`, `IssueCapability` and `Join` only. The same
coordinator and the same authority can be reached without it (`Task.ungated`), and a call that has
passed the gate goes on when the runtime gets into quarantine meanwhile.

The monitor `flight` follows whether a thread is **flying**: it has passed the gate and not finished
what it asked for, or it runs an ungated call. Only such a thread acquires a claim, issues a
capability, joins or wins an election. When nothing flies at the moment of the quarantine and no
ungated call is made afterwards, nothing is acquired, issued, joined or won in quarantine
(`quarantine_holds`).
-/

namespace ShiftLock

open Conc Function

/-! ## Elections -/

namespace Election

open Conc.Prog (Obeys Monitor)

/-- The gate of `Join` is open, or the lock is acquired, and no event has been sent since. -/
def entering : Monitor Act Act.Answer Bool where
  allows d a := match a with
    | .make | .lead _ => d = true
    | _ => True
  after d a r := match a, r with
    | .allow, r => r.isNone
    | .acquire, .ok _ => true
    | .acquire, .error _ => false
    | .emit .., _ => false
    | _, _ => d

theorem resign_entering (d : Bool) : Obeys entering (fun _ _ => True) resign d := by
  refine Obeys.perform trivial fun state => ?_
  split
  · refine Obeys.perform trivial fun err => ?_
    cases err with
    | some err => trivial
    | none => exact Obeys.perform trivial fun _ => Obeys.perform trivial fun _ => trivial
  · trivial

theorem join_entering (cfg : Config) (d : Bool) :
    Obeys entering (fun _ _ => True) (join cfg) d := by
  unfold join
  split
  · trivial
  · refine Obeys.perform trivial fun err => ?_
    cases err with
    | some err => trivial
    | none =>
      refine Obeys.perform rfl fun made => ?_
      cases made with
      | true => exact Obeys.perform trivial fun _ => Obeys.perform trivial fun _ => trivial
      | false => trivial

theorem loopRound_entering (cfg : Config) (d : Bool) :
    Obeys entering (fun _ _ => True) (loopRound cfg) d := by
  refine Obeys.perform trivial fun state => ?_
  split
  · refine Obeys.perform trivial fun err => ?_
    cases err with
    | some err =>
      exact Obeys.perform trivial fun _ => Obeys.perform trivial fun _ =>
        Obeys.perform trivial fun _ => trivial
    | none => exact Obeys.perform trivial fun _ => trivial
  · refine Obeys.perform trivial fun r => ?_
    cases r with
    | ok token =>
      exact Obeys.perform rfl fun _ => Obeys.perform trivial fun _ =>
        Obeys.perform trivial fun _ => trivial
    | error err => exact Obeys.perform trivial fun _ => Obeys.perform trivial fun _ => trivial

/-- An election is made and won only past the gate or with the lock. -/
theorem code_entering (cfg : Config) (t : Task) :
    Obeys entering (fun _ _ => True) (code cfg t) false := by
  cases t with
  | join => exact (join_entering cfg _).bind fun _ _ _ => trivial
  | loop =>
    refine (loopRound_entering cfg _).bind fun _ done _ => ?_
    cases done with
    | true => exact Obeys.perform trivial fun _ => trivial
    | false => trivial
  | resign =>
    refine Obeys.perform trivial fun present => ?_
    cases present with
    | true => exact (resign_entering _).bind fun _ _ _ => trivial
    | false => trivial
  | transfer =>
    refine Obeys.perform trivial fun present => ?_
    cases present with
    | true =>
      refine Obeys.bind (K := fun _ _ => True) ?_ fun _ _ _ => trivial
      refine (resign_entering _).bind fun _ err _ => ?_
      cases err with
      | some err => trivial
      | none => exact Obeys.perform trivial fun _ => trivial
    | false => trivial
  | close =>
    refine Obeys.perform trivial fun present => ?_
    cases present with
    | true =>
      refine Obeys.perform trivial fun state => ?_
      cases state with
      | none => trivial
      | some state => exact Obeys.perform trivial fun _ => trivial
    | false => trivial
  | closing leading token =>
    refine Obeys.perform trivial fun ended => ?_
    cases ended with
    | true =>
      cases leading with
      | true => exact Obeys.perform trivial fun _ => Obeys.perform trivial fun _ => trivial
      | false => exact Obeys.perform trivial fun _ => trivial
    | false => trivial

/-- Only `Join` makes an election, and only a round of the loop wins it. -/
theorem exec_kept {L ε ι : Type} (cfg : Config) (lock : FencedLock L ε ι) {a : Act}
    (hmake : a ≠ .make) (hlead : ∀ token, a ≠ .lead token) (e : Env ε) (w : World L) :
    (exec cfg lock a e w).1.made = w.made ∧
      ((exec cfg lock a e w).1.leader = true → w.leader = true) := by
  cases a with
  | make => exact absurd rfl hmake
  | lead token => exact absurd rfl (hlead token)
  | clear => exact ⟨rfl, fun h => by cases h⟩
  | emit type leader token err =>
    simp only [exec, World.send]
    split
    · exact ⟨rfl, id⟩
    split <;> exact ⟨rfl, id⟩
  | _ => exact ⟨rfl, id⟩

end Election

/-! ## Capabilities -/

namespace Capability

/-- The action makes a token known. -/
def Act.issues : Act → Bool
  | .issue _ | .adopt _ _ => true
  | _ => false

theorem verifyUses_issued (a : Authority) (t : Token) (consume : Bool) :
    (a.verifyUses t consume).1.issued = a.issued := by
  unfold Authority.verifyUses
  split
  · split
    · rfl
    split <;> rfl
  split
  · split
    · rfl
    split <;> rfl
  · rfl

theorem exec_issued {c : Crypto} {a : Act} (ha : a.issues = false) (e : Env) (w : Authority) :
    (exec c a e w).1.issued = w.issued := by
  cases a with
  | issue req | adopt parent child => cases ha
  | verify t consume =>
    simp only [exec, Authority.verifyLocked]
    repeat' split
    all_goals first | rfl | exact verifyUses_issued ..
  | revoke id =>
    simp only [exec, Authority.revoke]
    split <;> rfl
  | advanceEpoch =>
    simp only [exec, Authority.advanceEpoch]
    split <;> split <;> rfl
  | narrow parent req => rfl

end Capability

/-! ## Runtimes -/

namespace Runtime

open Conc.Prog (Obeys Monitor Sat)

/-- The operations whose gate lets a claim, a capability or an election be got. -/
def Gated.admits : Gated → Bool
  | .command => false
  | _ => true

/-- The calls that get a claim or a capability without `checkControlGates`. -/
def Task.ungated : Task → Bool
  | .coord t => t.grants
  | .issue _ | .delegate _ _ => true
  | _ => false

/-- Only a flying thread gets something. -/
def flightAllows (S : Setup) (flying : Bool) : Act → Prop
  | .coord a => flying = true ∨ a.keepsOwner S.cfg.generationID = true
  | .capability a => flying = true ∨ a.issues = false
  | .election _ .make | .election _ (.lead _) => flying = true
  | _ => True

/-- Whether the thread flies after an action. -/
def flightAfter (flying : Bool) : (a : Act) → a.Answer → Bool
  | .flags op, r => if op.admits then !r.closed && !r.quarantined else flying
  | .append _, _ => false
  | .election _ (.emit ..), _ => false
  | _, _ => flying

def flight (S : Setup) : Monitor Act Act.Answer Bool where
  allows := flightAllows S
  after := flightAfter

variable {S : Setup} {α β : Type} {g : Bool}

/-! ### Programs -/

/-- An ungated program of the coordinator flies all the time. -/
theorem onCoord_flying (p : Code.P α) : Obeys (flight S) (fun g _ => g = true) (onCoord p) true := by
  induction p with
  | ret x => rfl
  | act a k ih => exact ⟨.inl rfl, ih⟩

theorem onCaps_flying (p : Capability.P α) :
    Obeys (flight S) (fun g _ => g = true) (onCaps p) true := by
  induction p with
  | ret x => rfl
  | act a k ih => exact ⟨.inl rfl, ih⟩

/-- A program of the coordinator that acquires nothing. -/
theorem onCoord_sat {p : Code.P α} {Q : α → Prop}
    (h : Sat (fun a => a.keepsOwner S.cfg.generationID = true) Q p) :
    Obeys (flight S) (fun g' x => g' = g ∧ Q x) (onCoord p) g := by
  induction p with
  | ret x => exact ⟨rfl, h⟩
  | act a k ih => exact ⟨.inr h.1, fun r => ih r (h.2 r)⟩

theorem onCoord_keeps {p : Code.P α} (h : Coord.KeepsOwner S.cfg p) :
    Obeys (flight S) (fun g' _ => g' = g) (onCoord p) g :=
  (onCoord_sat h.sat).mono fun _ _ hg => hg.1

/-- Who passes a gate flies. -/
theorem checkControlGates_flight {op : Gated} (hop : op.admits = true) :
    Obeys (flight S) (fun g' err => err = none → g' = true) (checkControlGates S op) g := by
  refine Obeys.perform trivial fun flags => ?_
  have hafter : (flight S).after g (.flags op) flags = (!flags.closed && !flags.quarantined) :=
    if_pos hop
  rw [hafter]
  split
  · exact fun h => by cases h
  split
  · exact fun h => by cases h
  rename_i hclosed hquarantined
  have hpass : (!flags.closed && !flags.quarantined) = true := by simp [hclosed, hquarantined]
  rw [hpass]
  split
  · refine Obeys.perform trivial fun st => ?_
    split
    · refine Obeys.perform trivial fun st => ?_
      split
      · exact fun h => by cases h
      · exact fun _ => rfl
    · exact fun _ => rfl
  · exact fun _ => rfl

theorem fencedAcquire_flight (claim : String) :
    Obeys (flight S) (fun g' r => (∃ t, r = .ok t) → g' = true) (fencedAcquire S claim) g := by
  refine (checkControlGates_flight rfl).bind fun g₁ err hg => ?_
  cases err with
  | some err =>
    rintro ⟨t, ht⟩
    cases ht
  | none =>
    have hflying : g₁ = true := hg rfl
    subst hflying
    refine (onCoord_flying _).bind fun g₂ err hg => ?_
    subst hg
    cases err with
    | some err =>
      rintro ⟨t, ht⟩
      cases ht
    | none =>
      refine (onCoord_flying _).bind fun g₃ r hg => ?_
      subst hg
      cases r with
      | error err =>
        rintro ⟨t, ht⟩
        cases ht
      | ok o => cases o <;> exact fun _ => rfl

theorem fencedRelease_flight (claim : String) (token : FencingToken) :
    Obeys (flight S) (fun g' _ => g' = g) (fencedRelease S claim token) g := by
  refine (onCoord_keeps (.mild (.neutral (Coord.claim_uses claim)))).bind fun g₁ err hg => ?_
  subst hg
  cases err with
  | some err => rfl
  | none =>
    refine (onCoord_keeps (.mild (Coord.release_mild claim))).bind fun g₂ err hg => ?_
    exact hg

theorem fencedRenew_flight (claim : String) (token : FencingToken) :
    Obeys (flight S) (fun g' _ => g' = g) (fencedRenew S claim token) g := by
  refine (onCoord_keeps (.mild (.neutral (Coord.claim_uses claim)))).bind fun g₁ err hg => ?_
  subst hg
  cases err with
  | some err => rfl
  | none =>
    refine Obeys.perform (.inr rfl) fun own => ?_
    split <;> rfl

/-- A program that gets nothing, from wherever it starts. -/
def Grounded (S : Setup) (p : P α) : Prop := ∀ g, Obeys (flight S) (fun _ _ => True) p g

/-- What is quiet acts neither on the coordinator nor on capabilities or elections. -/
theorem Quiet.grounded {p : P α} (h : Quiet S p) : Grounded S p := by
  have hquiet : ∀ g : Trail, g ≠ .other → Obeys (trail S) (fun g' _ => g' ≠ .other) p g →
      Grounded S p := by
    clear h
    induction p with
    | ret x => exact fun _ _ _ _ => trivial
    | act a k ih =>
      intro g hg hp _
      refine ⟨?_, fun r => ih r _ (Trail.after_ne_other hg a r) (hp.2 r) _⟩
      have ha := hp.1
      cases g with
      | other => exact absurd rfl hg
      | going | refused => cases a <;> trivial
  exact hquiet .going (by simp) (h .going (by simp))

theorem issueCapability_flight (req : Capability.Request) :
    Obeys (flight S) (fun _ _ => True) (issueCapability S req) g := by
  refine (checkControlGates_flight rfl).bind fun g₁ err hg => ?_
  cases err with
  | some err => trivial
  | none =>
    simp only
    split
    · refine Obeys.perform (.inl (hg rfl)) fun r => ?_
      cases r with
      | error err => trivial
      | ok tok => exact ((auditAction_quiet _ _ _ _ _).grounded _).bind fun _ _ _ => trivial
    · trivial

/-- A thread that may make or win its election flies. -/
theorem onElection_flight (id : ElectionID) (d : Bool) (a : Election.Act) (hE : d = true → g = true)
    (ha : Election.entering.allows d a) :
    Obeys (flight S) (fun g' r => Election.entering.after d a r = true → g' = true)
      (onElection S id a) g := by
  cases a with
  | allow =>
    refine (checkControlGates_flight rfl).bind fun g₁ err hg => ?_
    cases err with
    | some err => exact fun h => by cases h
    | none => exact fun _ => hg rfl
  | acquire =>
    refine (fencedAcquire_flight id.name).bind fun g₁ r hg => ?_
    cases r with
    | error err => exact fun h => by cases h
    | ok token => exact fun _ => hg ⟨token, rfl⟩
  | release token =>
    exact (fencedRelease_flight id.name _).bind fun g₁ err hg => fun hd => hg.trans (hE hd)
  | renew token =>
    exact (fencedRenew_flight id.name _).bind fun g₁ err hg => fun hd => hg.trans (hE hd)
  | make | lead token => exact ⟨hE ha, fun _ => hE⟩
  | emit type leader token err => exact ⟨trivial, fun _ h => by cases h⟩
  | _ => exact ⟨trivial, fun _ => hE⟩

theorem electionTask_flight (id : ElectionID) (t : Election.Task) :
    Obeys (flight S) (fun _ x => ∀ t', x = .inr t' → t'.ungated = false) (electionTask S id t) g := by
  have hinterp := Obeys.interp (M := flight S) (E := fun d g => d = true → g = true)
    (fun d g a hE ha => onElection_flight id d a hE ha)
    (Election.code_entering (electionConfig S id) t) (g := g) (fun h => by cases h)
  refine hinterp.bind fun g' x _ => ?_
  cases x with
  | inl r => exact fun t' h => by cases h
  | inr t => exact fun t' h => by cases h; rfl

/-- The program of every task obeys the monitor. A thread that continues with an ungated call has
been flying. -/
theorem code_flight (t : Task) :
    Obeys (flight S) (fun g x => ∀ t', x = .inr t' → t'.ungated = true → g = true) (code S t)
      t.ungated := by
  cases t with
  | coord t =>
    cases ht : t.grants with
    | true =>
      have hinit : (Task.coord t).ungated = true := ht
      rw [hinit]
      refine (onCoord_flying _).bind fun g x hg => ?_
      exact fun _ _ _ => hg
    | false =>
      have hinit : (Task.coord t).ungated = false := ht
      rw [hinit]
      refine (onCoord_sat (Coord.task_keeps_owner ht)).bind fun g x hx => ?_
      cases x with
      | inl r => exact fun t' h => by cases h
      | inr t₁ =>
        intro t' h hungated
        cases h
        have hgrants : t₁.grants = true := hungated
        rw [hx.2 t₁ rfl] at hgrants
        cases hgrants
  | enterQuarantine reason =>
    refine Obeys.perform trivial fun _ => ((auditAction_quiet _ _ _ _ _).grounded _).bind fun _ _ _ => ?_
    exact fun t' h => by cases h
  | issueCapability req =>
    exact (issueCapability_flight req).bind fun _ _ _ => fun t' h => by cases h
  | issue req => exact Obeys.perform (.inl rfl) fun _ => fun t' h => by cases h
  | delegate parent req => exact (onCaps_flying _).bind fun _ _ _ => fun t' h => by cases h
  | verify t | revoke id | advanceEpoch => exact Obeys.perform (.inr rfl) fun _ => fun t' h => by cases h
  | acquire claim => exact (fencedAcquire_flight claim).bind fun _ _ _ => fun t' h => by cases h
  | release claim token =>
    exact (fencedRelease_flight claim token).bind fun _ _ _ => fun t' h => by cases h
  | renew claim token =>
    exact (fencedRenew_flight claim token).bind fun _ _ _ => fun t' h => by cases h
  | join id =>
    refine ((checkControlGates_quiet _).grounded _).bind fun g err _ => ?_
    cases err with
    | some err => exact fun t' h => by cases h
    | none =>
      refine (electionTask_flight id .join).mono fun g x hx t' ht hungated => ?_
      rw [hx t' ht] at hungated
      cases hungated
  | election id t =>
    refine (electionTask_flight id t).mono fun g x hx t' ht hungated => ?_
    rw [hx t' ht] at hungated
    cases hungated
  | invoke req => exact ((invoke_quiet req).grounded _).bind fun _ _ _ => fun t' h => by cases h
  | workflow name operationID calls =>
    exact ((workflowRun_quiet name operationID calls).grounded _).bind fun _ _ _ => fun t' h => by cases h

/-! ### Runs -/

section

variable (S : Setup) (w : World) (xs : Schedule)

/-- Whether the threads fly after `i` moves. -/
abbrev flyingAt (i : Nat) : Nat → Option Bool := (system S).watchAt (flight S) Task.ungated w xs i

/-- No thread that has not returned flies. -/
def grounded (c : Conc.Config Act Act.Answer World Task Result) (G : Nat → Option Bool) : Bool :=
  (List.range c.clock).all fun u =>
    match c.threads u with
    | some th => th.result.isSome || G u != some true
    | none => true

/-- The move starts no ungated call in quarantine, and does not set the quarantine while a thread
flies. -/
def orderly (c : Conc.Config Act Act.Answer World Task Result) (G : Nat → Option Bool) :
    Conc.Move Env Outside Task → Bool
  | .start t => !c.shared.quarantined || !t.ungated
  | .run u _ =>
    match c.threads u with
    | some th =>
      match th.next with
      | some .quarantine => c.shared.quarantined || grounded c G
      | _ => true
    | none => true
  | .env _ => true

/-- Every move of the schedule is orderly. -/
def orderlyRun : Bool :=
  (List.range xs.length).all fun i => (xs[i]?).all (orderly (stateAt S w xs i) (flyingAt S w xs i))

end

/-- No thread flies, unless it has returned. -/
def NoneFlies (c : Conc.Config Act Act.Answer World Task Result) (G : Nat → Option Bool) : Prop :=
  ∀ u th g, c.threads u = some th → th.result = none → G u = some g → g = false

variable {c : Conc.Config Act Act.Answer World Task Result} {G : Nat → Option Bool} {w : World}
  {a : Act}

theorem NoneFlies.put {c' : Conc.Config Act Act.Answer World Task Result} (h : NoneFlies c G)
    {u : Nat} {th : Thread Act Act.Answer Task Result}
    (ht : c'.threads = update c.threads u (some th)) :
    NoneFlies c' (update G u (some false)) := by
  intro v th' g hv hres hg
  rcases update_eq_some.mp hg with ⟨-, rfl⟩ | ⟨hne, hg⟩
  · rfl
  · rw [ht, update_of_ne hne] at hv
    exact h v th' g hv hres hg

theorem noneFlies_of_grounded {Q : Task → Bool → Result ⊕ Task → Prop}
    (htracks : Tracks (flight S) Q c G) (h : grounded c G = true) : NoneFlies c G := by
  intro u th g hth hres hg
  have hu := List.all_eq_true.mp h u (List.mem_range.mpr (htracks.2 u th hth).1)
  simp only [hth, hres, hg] at hu
  cases g with
  | false => rfl
  | true => simp at hu

theorem orderlyRun_at {xs : Schedule} (h : orderlyRun S w xs = true) {i : Nat}
    {x : Conc.Move Env Outside Task} (hx : xs[i]? = some x) :
    orderly (stateAt S w xs i) (flyingAt S w xs i) x = true := by
  have hi : i < xs.length := (List.getElem?_eq_some_iff.mp hx).1
  have hall := List.all_eq_true.mp h i (List.mem_range.mpr hi)
  rw [hx] at hall
  exact hall

theorem fork_gated {r : a.Answer} {t : Task} (h : fork a r = some t) : t.ungated = false := by
  cases a with
  | coord a =>
    obtain ⟨t₀, ht₀, rfl⟩ := Option.map_eq_some_iff.mp h
    cases a with
    | go b => cases b <;> cases r <;> cases ht₀ <;> rfl
    | _ => cases ht₀
  | election id a =>
    obtain ⟨t₀, -, rfl⟩ := Option.map_eq_some_iff.mp h
    rfl
  | _ => cases h

/-- In quarantine a thread on the ground stays there. -/
theorem flightAfter_grounded {e : Env} (hq : w.quarantined = true) :
    flightAfter false a (exec S a e w).2 = false := by
  cases a with
  | flags op => cases op <;> simp [flightAfter, exec, hq, Gated.admits]
  | election id a => cases a <;> rfl
  | _ => rfl

section

variable (S : Setup) (w : World) (xs : Schedule) (i : Nat)

/-- What holds of a thread when it ends. -/
abbrev Ends : Task → Bool → Result ⊕ Task → Prop :=
  fun _ g x => ∀ t', x = .inr t' → t'.ungated = true → g = true

end

variable {w : World} {xs : Schedule} {i : Nat} {a : Act}

theorem noneFlies_act (hxs : orderlyRun S w xs = true)
    (ih : (stateAt S w xs i).shared.quarantined = true →
      NoneFlies (stateAt S w xs i) (flyingAt S w xs i))
    {u : Nat} {e : Env} (hx : xs[i]? = some (.run u e))
    {th : Thread Act Act.Answer Task Result} {k : a.Answer → P (Result ⊕ Task)}
    (hth : (stateAt S w xs i).threads u = some th) (hp : th.prog = .act a k)
    (hq : (exec S a e (stateAt S w xs i).shared).1.quarantined = true) :
    NoneFlies (stateAt S w xs i) (flyingAt S w xs i) ∧
      flightAfter false a (exec S a e (stateAt S w xs i).shared).2 = false := by
  by_cases ha : a = .quarantine
  · subst ha
    refine ⟨?_, rfl⟩
    have horderly := orderlyRun_at hxs hx
    simp only [orderly, hth, Thread.next_of_prog hp, Bool.or_eq_true] at horderly
    rcases horderly with hbefore | hgrounded
    · exact ih hbefore
    · exact noneFlies_of_grounded (Sys.tracks code_flight i) hgrounded
  · have hbefore : (stateAt S w xs i).shared.quarantined = true :=
      (exec_quarantined ha e _).symm.trans hq
    exact ⟨ih hbefore, flightAfter_grounded hbefore⟩

/-- **Along an orderly run**, no thread flies in quarantine. -/
theorem noneFlies_at (hxs : orderlyRun S w xs = true) (hi : i ≤ xs.length)
    (hq : (stateAt S w xs i).shared.quarantined = true) :
    NoneFlies (stateAt S w xs i) (flyingAt S w xs i) := by
  refine Run.along (J := fun i => (stateAt S w xs i).shared.quarantined = true →
    NoneFlies (stateAt S w xs i) (flyingAt S w xs i))
    (fun _ u th g hth => by cases hth) (fun i x hx ih => ?_) hi hq
  have hmoved : Moved (system S) (flight S) Task.ungated Ends (stateAt S w xs i)
      (flyingAt S w xs i) x (stateAt S w xs (i + 1)) (flyingAt S w xs (i + 1)) :=
    Sys.moved code_flight hx
  have horderly := orderlyRun_at hxs hx
  generalize stateAt S w xs (i + 1) = c' at hmoved ⊢
  generalize flyingAt S w xs (i + 1) = G' at hmoved ⊢
  cases hmoved with
  | idle => exact ih
  | env x =>
    intro hq
    exact ih ((outside_same x _).1.symm.trans hq)
  | start t =>
    intro hq
    have hquarantined : (stateAt S w xs i).shared.quarantined = true := hq
    have ht : t.ungated = false := by simpa [orderly, hquarantined] using horderly
    rw [ht]
    exact (ih hquarantined).put rfl
  | jump u e th g t hth hp hg hQ =>
    intro hq
    have hg' : g = false := ih hq u th g hth (by simp [Thread.result, hp]) hg
    have ht : t.ungated = false := by
      cases ht : t.ungated with
      | false => rfl
      | true => rw [hQ t rfl ht] at hg'; cases hg'
    rw [ht]
    exact (ih hq).put rfl
  | act u e th g a k hth hp hg ha hf =>
    intro hq
    obtain ⟨hnone, hafter⟩ := noneFlies_act hxs ih hx hth hp hq
    have hg' : g = false := hnone u th g hth (by simp [Thread.result, hp]) hg
    subst hg'
    have hstays : (flight S).after false a ((system S).exec a e (stateAt S w xs i).shared).2 = false :=
      hafter
    rw [hstays]
    exact hnone.put rfl
  | fork u e th g a k t hth hp hg ha hf =>
    intro hq
    obtain ⟨hnone, hafter⟩ := noneFlies_act hxs ih hx hth hp hq
    have hg' : g = false := hnone u th g hth (by simp [Thread.result, hp]) hg
    subst hg'
    have hstays : (flight S).after false a ((system S).exec a e (stateAt S w xs i).shared).2 = false :=
      hafter
    rw [hstays, fork_gated hf]
    exact NoneFlies.put (hnone.put rfl) rfl

/-! ### What a thread on the ground does -/

structure Kept (S : Setup) (w w' : World) : Prop where
  claims : ∀ name, (w.coord.backend.recordOf name).ownerGeneration ≠ S.cfg.generationID →
    (w'.coord.backend.recordOf name).ownerGeneration ≠ S.cfg.generationID
  tokens : ∀ id, w'.caps.issued id = w.caps.issued id
  joined : ∀ id, (w'.elections id).made = true → (w.elections id).made = true
  won : ∀ id, (w'.elections id).leader = true → (w.elections id).leader = true

theorem Kept.refl (S : Setup) (w : World) : Kept S w w :=
  ⟨fun _ => id, fun _ => rfl, fun _ => id, fun _ => id⟩

theorem exec_kept (hgen : S.cfg.generationID ≠ "") (ha : flightAllows S false a) (e : Env)
    (w : World) : Kept S w (exec S a e w).1 := by
  cases a with
  | coord a =>
    have hkeeps : a.keepsOwner S.cfg.generationID = true := ha.resolve_left (by simp)
    exact ⟨fun name => Coord.exec_owner_ne hkeeps hgen e.coord, fun _ => rfl, fun _ => id, fun _ => id⟩
  | capability a =>
    have hissues : a.issues = false := ha.resolve_left (by simp)
    exact ⟨fun _ => id, fun id => congrFun (Capability.exec_issued hissues e.caps w.caps) id,
      fun _ => id, fun _ => id⟩
  | election el a =>
    have hmake : a ≠ .make := by rintro rfl; cases ha
    have hlead : ∀ token, a ≠ .lead token := by rintro token rfl; cases ha
    have hkept := Election.exec_kept (electionConfig S el) viaClaims hmake hlead e.election
      (w.elections el)
    refine ⟨fun _ => id, fun _ => rfl, fun other h => ?_, fun other h => ?_⟩
    · by_cases hel : other = el
      · subst hel
        simp only [exec, update_self] at h
        exact hkept.1.symm.trans h
      · simpa only [exec, update_of_ne hel] using h
    · by_cases hel : other = el
      · subst hel
        simp only [exec, update_self] at h
        exact hkept.2 h
      · simpa only [exec, update_of_ne hel] using h
  | _ => exact ⟨fun _ => id, fun _ => rfl, fun _ => id, fun _ => id⟩

/-! ### Sample runs -/

/-- Every clock reads 1, and the random bytes are zero. -/
def Env.atOne : Env where
  coord := Coord.Env.atOne
  now := 1
  caps := {
    now := 1
    wall := 1
    random := .ok ("00000000000000000000000000000000", "0000000000000000") }

/-- The runtime is put into quarantine after a call that has acquired a claim; another such call is
refused. -/
def orderlySample : Schedule :=
  alone 0 (.acquire "a") Env.atOne 16 ++
  alone 17 (.enterQuarantine "tamper") Env.atOne 2 ++
  alone 20 (.acquire "b") Env.atOne 1

/-- **Quarantine.** In every orderly run, a step of the runtime in quarantine acquires no claim for
the generation, issues no capability, and joins and wins no election. -/
theorem quarantine_holds (S : Setup) (hgen : S.cfg.generationID ≠ "") (w : World) (xs : Schedule)
    (hxs : orderlyRun S w xs = true) (i u : Nat) (e : Env) (hx : xs[i]? = some (.run u e))
    (hq : (stateAt S w xs i).shared.quarantined = true) :
    Kept S (stateAt S w xs i).shared (stateAt S w xs (i + 1)).shared := by
  have hi : i < xs.length := (List.getElem?_eq_some_iff.mp hx).1
  have hnone := noneFlies_at hxs (Nat.le_of_lt hi) hq
  have hmoved : Moved (system S) (flight S) Task.ungated Ends (stateAt S w xs i)
      (flyingAt S w xs i) (.run u e) (stateAt S w xs (i + 1)) (flyingAt S w xs (i + 1)) :=
    Sys.moved code_flight hx
  rcases hmoved.shared with hsame | ⟨y, hy, -⟩ | ⟨v, e', th, g, a, k, -, hth, hp, hg, ha, hshared⟩
  · rw [hsame]
    exact Kept.refl S _
  · cases hy
  · have hg' : g = false := hnone v th g hth (by simp [Thread.result, hp]) hg
    subst hg'
    rw [hshared]
    exact exec_kept hgen ha e' _

theorem quarantine_holds_refused :
    let S := Setup.sample .hardened
    let w := World.new S 1 Memory.new
    (stateAt S w orderlySample 21).shared.quarantined = true ∧
      ((stateAt S w orderlySample 21).shared.coord.backend.recordOf "a").ownerGeneration = "g1" ∧
      Kept S (stateAt S w orderlySample 21).shared (stateAt S w orderlySample 22).shared :=
  ⟨by decide +kernel, by decide +kernel,
    quarantine_holds (Setup.sample .hardened) (by decide) _ orderlySample (by decide +kernel) 21 20
      Env.atOne (by rfl) (by decide +kernel)⟩

/-- After `EnterQuarantine` has returned, `Claims` acquires a claim and `Capabilities` issues a
token. -/
theorem quarantine_evaded :
    let S := Setup.sample .hardened
    let xs := alone 0 (.enterQuarantine "tamper") Env.atOne 2 ++
      alone 3 (.coord (.claim "a")) Env.atOne 2 ++
      alone 6 (.coord (.tryAcquire "a")) Env.atOne 3 ++
      alone 10 (.issue { permission := "claim.revoke" }) Env.atOne 1
    let s (i : Nat) := stateAt S (World.new S 1 Memory.new) xs i
    ((s 3).threads 0).bind (·.result) = some .done ∧ (s 3).shared.quarantined = true ∧
      ((s 3).shared.coord.backend.recordOf "a").ownerGeneration = "" ∧
      ((s 12).shared.coord.backend.recordOf "a").ownerGeneration = "g1" ∧
      (s 3).shared.caps.issued "cap_0000000000000000" = none ∧
      ((s 12).shared.caps.issued "cap_0000000000000000").isSome = true := by
  decide +kernel

end Runtime
end ShiftLock
