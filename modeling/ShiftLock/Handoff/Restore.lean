import ShiftLock.Handoff.Rollback

/-!
# What a handoff leaves behind

Two consequences of `Rollback.Sound` for a history of calls on one handoff: no reservation is
forgotten, and an `Abort` that returns nil restores what was not lost at the backend. Both need that
`Transfer` is not called again while the handoff has entries (`Rollback.transfersFresh`); without it
a reservation stays behind (`reservation_forgotten`).
-/

namespace ShiftLock.Coord

open Conc
open Rollback

/-- **No reservation is forgotten.** In every history of calls on one handoff in which `Transfer` is
not called while the handoff has entries, after every step: a claim that is reserved with this
generation as owner has an entry. -/
theorem reservation_has_entry (cfg : Config) (h : Nat) (w : World) (xs : List Step)
    (hset : Setting cfg h w xs) {i : Nat} (hi : i ≤ xs.length) (n : String)
    (hphase : ((worldAt cfg w xs i).backend.recordOf n).phase = .reserved)
    (howner : ((worldAt cfg w xs i).backend.recordOf n).ownerGeneration = cfg.generationID) :
    n ∈ ((worldAt cfg w xs i).handoffs h).tokens :=
  ((hset.sound hi).entry n ⟨hphase, howner⟩).resolve_right (by simp)

/-- A new handoff of the coordinator that holds claim `c`, and calls without other clients. -/
theorem prepared_setting {xs : List Step} (hcalls : ∀ y ∈ xs, ∃ t es, y = .call t es ∧ onHandoff 0 t)
    (hfresh : Run.Meets (Step.run (.sample "g")) (transfersFresh 0) prepared xs) :
    Setting (.sample "g") 0 prepared xs where
  named := by decide
  ready := prepared_ready
  tokens := rfl
  drainDone := rfl
  unreserved n := by
    by_cases hn : n = "c"
    · subst hn
      have hp : (prepared.backend.recordOf "c").phase ≠ .reserved := by decide +kernel
      exact fun h => hp h.1
    · rw [prepared_claims hn]
      rintro ⟨h, -⟩
      cases h
  calls t es hy := by
    obtain ⟨t', es', he, ht⟩ := hcalls _ hy
    cases he
    exact ht
  clients c op hy := by
    obtain ⟨t', es', he, -⟩ := hcalls _ hy
    cases he
  fresh := hfresh

/-- The reservation of a `Transfer` has its entry. -/
theorem reservation_has_entry_transferred :
    let w := worldAt (.sample "g") prepared [.call (.transfer 0 "s") fun _ => .atOne] 1
    (w.backend.recordOf "c").pendingSuccessor = "s" ∧ "c" ∈ (w.handoffs 0).tokens := by
  intro w
  refine ⟨by decide +kernel, ?_⟩
  exact reservation_has_entry (.sample "g") 0 prepared [.call (.transfer 0 "s") fun _ => .atOne]
    (prepared_setting (by simp [onHandoff]) (by decide +kernel)) (by decide) "c"
    (by decide +kernel) (by decide +kernel)

/-- The second `Transfer`, to another successor, is refused by the backend. The reservation of the
first one stays, without an entry. -/
theorem reservation_forgotten :
    let w₁ := (call (.sample "g") (.transfer 0 "s") (fun _ => .atOne) prepared).1
    let second := call (.sample "g") (.transfer 0 "t") (fun _ => .atOne) w₁
    second.2 = .inl (.error (wrapClaim "Handoff.Transfer" "c" (.of .concurrentTransfer))) ∧
      (second.1.backend.recordOf "c").phase = .reserved ∧
      (second.1.backend.recordOf "c").ownerGeneration = "g" ∧
      (second.1.backend.recordOf "c").pendingSuccessor = "s" ∧
      "c" ∉ (second.1.handoffs 0).tokens := by
  decide +kernel

/-! ## Abort -/

theorem begin_of_draining {g : DrainGroup} (h : g.draining) :
    g.begin.2 = some (.of (if g.closed then .closed else .draining)) := by
  unfold DrainGroup.begin DrainGroup.beginNamed
  cases g.closed <;> simp [h]

/-- The actions that leave the drain groups alone. -/
def undrained : Act → Bool
  | .startDrain _ | .closeDrain _ => false
  | _ => true

theorem exec_drain {cfg : Config} {a : Act} (ha : undrained a) (e : Env) (w : World) (n : String) :
    ((exec cfg a e w).1.coord.claims n).drain = (w.coord.claims n).drain := by
  rw [exec_claims]
  split
  · cases a <;> first | rfl | cases ha
    all_goals
      simp only [Act.section, Claim.tryAcquireBegin, Claim.tryAcquireInstall, Claim.revokeLease,
        Claim.markRenewing, Claim.applyRecord, Claim.ensureLocalLease]
      repeat' split
      all_goals rfl
  · rfl

/-- A program that leaves the drain groups alone. -/
abbrev Undrained {α : Type} (p : Code.P α) : Prop := Prog.Uses (fun a => undrained a) p

theorem Undrained.wp {cfg : Config} {α : Type} {p : Code.P α} (hp : Undrained p) (w : World) :
    Prog.wp (exec cfg) free
      (fun w' _ => ∀ n, (w'.coord.claims n).drain = (w.coord.claims n).drain) p w := by
  induction p generalizing w with
  | ret x => exact fun _ => rfl
  | act a k ih =>
    intro e _
    refine Prog.wp_mono (fun w' _ hw n => ?_) (ih _ (hp.2 _) _)
    exact (hw n).trans (exec_drain hp.1 e w n)

theorem restoreLease_undrained (name : String) (record : ClaimRecord) :
    Undrained (Code.restoreLease name record) := by
  refine .step rfl fun _ => .step rfl fun start => ?_
  cases start with
  | false => trivial
  | true =>
    refine .step rfl fun marked => ?_
    cases marked with
    | false => trivial
    | true => exact .step rfl fun _ => trivial

theorem abortClaims_undrained (cfg : Config) (successor : String) (tokens : Tokens)
    (names : List String) : Undrained (Code.abortClaims cfg successor tokens names) := by
  induction names with
  | nil => trivial
  | cons name rest ih =>
    unfold Code.abortClaims
    cases tokens.lookup name with
    | none => exact ih
    | some token =>
      refine .step rfl fun _ => .step rfl fun reply => ?_
      cases reply.result with
      | error err => exact .step rfl fun _ => trivial
      | ok record => exact (restoreLease_undrained name record).bind fun _ => .step rfl fun _ => ih

/-- `Abort` resets no drain group. -/
theorem abort_undrained (cfg : Config) (h : Nat) : Undrained (Code.abort cfg h) := by
  refine .step rfl fun entry => ?_
  cases entry with
  | returned err => trivial
  | started successor tokens =>
    refine .step rfl fun names => (abortClaims_undrained cfg successor tokens names).bind fun err => ?_
    cases err with
    | some err => trivial
    | none =>
      refine Prog.Uses.bind ((setState_uses _ _).mono fun a ha => ?_) fun _ => .step rfl fun _ => trivial
      cases a <;> first | rfl | cases ha

/-- **What an Abort that returns nil restores.** Claim `n` is held with token `t` and a valid lease
after `i` steps and has no entry yet; a later `Abort` returns nil. Then the claim is owned by this
generation with token `t`, has a valid lease with it and a drain group that accepts work if and only
if, when `Abort` was called, the token was not lost at the backend (by a commit, or because the claim
expired) and the drain group was not draining. After a `Drain` that succeeded all drain groups of the
handoff are, so they accept no work after the `Abort`. -/
theorem abort_restores (cfg : Config) (h : Nat) (w : World) (xs : List Step)
    (hset : Setting cfg h w xs) {i j : Nat} (hij : i ≤ j) {n : String} {t : FencingToken}
    (hheld : Holds cfg (worldAt cfg w xs i) n t)
    (hentry : n ∉ ((worldAt cfg w xs i).handoffs h).tokens) {es : Nat → Env}
    (hj : xs[j]? = some (.call (.abort h) es))
    (hnil : (call cfg (.abort h) es (worldAt cfg w xs j)).2 = .inl (.error none)) :
    let w₀ := worldAt cfg w xs j
    let w' := worldAt cfg w xs (j + 1)
    let r := w'.backend.recordOf n
    ((r.phase = .owned ∧ r.ownerGeneration = cfg.generationID ∧ r.fencingToken = t ∧
        (∃ l, (w'.coord.claims n).validLease w'.live = some l ∧ l.token = t) ∧
        (w'.coord.claims n).drain.begin.2 ≠ some (.of .draining)) ↔
      ¬ (w₀.backend.recordOf n).Lost cfg.generationID t ∧
        (w₀.coord.claims n).drain.begin.2 ≠ some (.of .draining)) ∧
    ((w'.handoffs h).drainDone → ∀ m ∈ (w'.handoffs h).claims,
      (w'.coord.claims m).drain.begin.2 =
        some (.of (if (w'.coord.claims m).drain.closed then .closed else .draining))) := by
  intro w₀ w' r
  have hjlt : j < xs.length := (List.getElem?_eq_some_iff.mp hj).1
  have hs := hset.follows hij (Nat.le_of_lt hjlt) hheld hentry
  have hw' : w' = (call cfg (.abort h) es w₀).1 := Run.stateAt_succ hj
  have habort := Prog.run_of_wp
    (task_wp hset.named hs (t := .abort h) (by simp [onHandoff]) es rfl)
    (Prog.along_true es _ 0 _)
  have ha : Aborted cfg h (w.handoffs h).claims (fun n' t' => n' = n ∧ t' = t) w₀ w' none := by
    rw [hw']
    exact habort.2 rfl hnil
  have hdrain : ∀ m, (w'.coord.claims m).drain = (w₀.coord.claims m).drain := by
    have huses : Undrained (Code.task cfg (.abort h)) := (abort_undrained cfg h).bind fun _ => trivial
    rw [hw']
    exact Prog.run_of_wp (huses.wp _) (Prog.along_true es _ 0 _)
  rw [hdrain n]
  refine ⟨⟨?_, ?_⟩, fun hd m hm => ?_⟩
  · rintro ⟨-, howner, htoken, -, hbegin⟩
    refine ⟨fun hl => ?_, hbegin⟩
    rcases ha.lost n t hl with hlt | ⟨-, hother⟩
    · exact absurd htoken (Nat.ne_of_gt hlt)
    · exact hother howner
  · rintro ⟨hlost, hbegin⟩
    obtain ⟨⟨hstored, hleased, hlive⟩, -⟩ :=
      (ha.sound.kept n t ⟨rfl, rfl⟩).resolve_left fun hl => hlost (ha.kept rfl n t hl)
    obtain ⟨l, hl, hlt⟩ := hleased.lease
    refine ⟨?_, hstored.owner, hstored.token, ⟨l, ?_, hlt⟩, hbegin⟩
    · exact hstored.phase.resolve_right fun hp => ha.unreserved rfl n ⟨hp, hstored.owner⟩
    · simp [Claim.validLease, World.live, hlive, hl]
  · rw [ha.sound.claims] at hm
    exact begin_of_draining (ha.sound.drained hd m hm)

theorem prepared_holds : Holds (.sample "g") prepared "c" 1 := by
  have hrecord : (prepared.coord.claims "c").record = prepared.backend.recordOf "c" := by
    decide +kernel
  refine ⟨⟨by decide +kernel, by decide +kernel, by decide +kernel⟩,
    ⟨⟨⟨0, 1⟩, by decide +kernel, rfl⟩, ?_, ?_, by decide +kernel⟩, by decide +kernel⟩ <;>
  · rw [hrecord]
    decide +kernel

/-- After a `Transfer` that was refused because it names no successor the claim accepts work, after
one that was carried out it does not, although its reservation is rolled back. -/
theorem abort_restores_prepared :
    let xs (successor : String) : List Step :=
      [.call (.transfer 0 successor) fun _ => .atOne, .call (.abort 0) fun _ => .atOne]
    let w successor := worldAt (.sample "g") prepared (xs successor)
    (((w "" 2).backend.recordOf "c").phase = .owned ∧
      ((w "" 2).coord.claims "c").drain.begin.2 ≠ some (.of .draining)) ∧
    ((w "s" 1).backend.recordOf "c").phase = .reserved ∧
      ((w "s" 2).backend.recordOf "c").phase = .owned ∧
      ((w "s" 2).coord.claims "c").drain.begin.2 = some (.of .draining) := by
  intro xs w
  have hstored : ((w "" 1).backend.recordOf "c").fencingToken = 1 ∧
      ((w "" 1).backend.recordOf "c").ownerGeneration = "g" := by decide +kernel
  have hlost : ¬ ((w "" 1).backend.recordOf "c").Lost "g" 1 := by
    rintro (h | h)
    · rw [hstored.1] at h
      exact absurd h (by decide)
    · exact h.2 hstored.2
  have h := (abort_restores (.sample "g") 0 prepared (xs "")
    (prepared_setting (by simp [xs, onHandoff]) (by decide +kernel)) (i := 0) (j := 1) (by decide)
    prepared_holds (AList.notMem_empty _) rfl (by decide +kernel)).1.mpr ⟨hlost, by decide +kernel⟩
  exact ⟨⟨h.1, h.2.2.2.2⟩, by decide +kernel, by decide +kernel, by decide +kernel⟩

/-- The environment in which the call of the `k`-th action fails. -/
def failAt (k : Nat) : Nat → Env := fun i =>
  if i = k then { Env.atOne with fault := some (.of .backend) } else .atOne

/-- Two claims are transferred to `s`; `Commit` commits the first one and fails at the second one.
The `Abort` that follows returns nil: the first claim stays with `s`, and the drain group of the
second one accepts no work. -/
theorem abort_after_partial_commit :
    let w := worldAt (.sample "g") (World.new (.sample "g") 1 Memory.new)
      [.call (.claim "a") fun _ => .atOne, .call (.tryAcquire "a") fun _ => .atOne,
        .call (.claim "b") fun _ => .atOne, .call (.tryAcquire "b") fun _ => .atOne,
        .call .prepareHandoff fun _ => .atOne, .call (.transfer 0 "s") fun _ => .atOne,
        .call (.commit 0) (failAt 9)]
    ((w 5).coord.claims "a").validLease (w 5).live = some ⟨0, 1⟩ ∧
      (call (.sample "g") (.abort 0) (fun _ => .atOne) (w 7)).2 = .inl (.error none) ∧
      let w' := (call (.sample "g") (.abort 0) (fun _ => .atOne) (w 7)).1
      (w'.backend.recordOf "a").ownerGeneration = "s" ∧
      (w'.coord.claims "a").validLease w'.live = none ∧
      (w'.coord.claims "b").drain.begin.2 = some (.of .draining) := by
  decide +kernel

end ShiftLock.Coord
