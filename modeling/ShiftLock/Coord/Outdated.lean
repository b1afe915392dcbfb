import ShiftLock.Coord.OpId
import ShiftLock.Coord.Place
import ShiftLock.Memory.Fencing

/-!
# Outdated renewals

A renewal loop reads a token, sends it and judges the reply in three steps, and a failure revokes
whatever lease the claim has then. `Release` does not stop the loop, it only clears the flag that
keeps a second one from starting. So a claim that is released and acquired again can have two loops:
a request of the first one, sent with the old token, takes the new lease away, and the second loop
goes on renewing, since `currentLeaseToken` falls back to the cached record
(`renewal_revokes_new_lease`).

Both are impossible as long as `tryAcquire` applies its record only when no renewal loop and no
`Release` of the claim is in progress (`inTurn`, `outdated_renewal`). The calls are those of a
claim: no handoff and no `Close`. The proof is a chain of invariants over the places of the threads
(`ShiftLock.Coord.Place`):

* `Followed`: every thread is a call or a loop of a claim, and the store is well formed;
* `Exclusive`: the flag `acquiring` is a lock;
* `OneLoop`: a claim has at most one loop in progress;
* `Tokens`: what a loop or a `Release` has read is the token of the cached record;
* `Backed`: while a loop is in progress there is a lease, or the generation has lost the token of the
  cached record for good.
-/

namespace ShiftLock.Coord
namespace Outdated

open Conc Function
open Fence (Epoch)

/-- The move does not apply the record of an acquisition while a renewal loop or a `Release` of the
claim is in progress. -/
def inTurn (c : State) : Move Env Outside Task → Bool
  | .run u _ =>
    match (c.threads u).bind Conc.Thread.next with
    | some (.tryAcquireInstall name _) =>
      (List.range c.clock).all fun v => (c.threads v).all fun th =>
        th.result.isSome || (th.task ≠ .renewal name && th.task ≠ .release name)
    | _ => true
  | _ => true

structure Setting (cfg : Config) (w : World) (xs : Schedule) : Prop where
  ready : w.Ready cfg
  wf : w.backend.WF
  claims : w.coord.claims = fun name => { name }
  live : w.coord.shutdown = false
  named : cfg.generationID ≠ ""
  tasks : ∀ t, .start t ∈ xs → t.ofClaim ∧ ∀ n, t ≠ .renewal n
  clients : ∀ c op, .env (.client c op) ∈ xs → op.Foreign cfg.generationID ∧ op.Named
  turns : Conc.Run.Meets (system cfg).step inTurn { shared := w } xs

variable {cfg : Config} {w : World} {xs : Schedule} {i u v : Nat} {x : Move Env Outside Task}
  {e : Env} {a : Act} {g g' : Role} {n : String} {t : FencingToken}

/-! ## Moves -/

/-- Move `i` is action `a` of thread `u`, which has role `g`. -/
structure Does (cfg : Config) (w : World) (xs : Schedule) (i u : Nat) (e : Env) (a : Act)
    (g : Role) : Prop where
  move : xs[i]? = some (.run u e)
  thread : ∃ th k, (stateAt cfg w xs i).threads u = some th ∧ th.prog = .act a k
  role : roleAt cfg w xs i u = some g

theorem Does.flow (h : Does cfg w xs i u e a g) :
    ∃ f, watchAt cfg w xs i u = some f ∧ Flow.allows cfg f a := by
  obtain ⟨th, k, hth, hp⟩ := h.thread
  obtain ⟨-, f, hf, hO⟩ := (tracks_at cfg w xs i).2 u th hth
  rw [hp] at hO
  exact ⟨f, hf, hO.1⟩

/-- The world under one move. -/
theorem shared_cases (cfg : Config) (w : World) (hx : xs[i]? = some x) :
    (stateAt cfg w xs (i + 1)).shared = (stateAt cfg w xs i).shared ∨
    (∃ y, x = .env y ∧
      (stateAt cfg w xs (i + 1)).shared = outside y (stateAt cfg w xs i).shared) ∨
    ∃ u e a g, Does cfg w xs i u e a g ∧
      (stateAt cfg w xs (i + 1)).shared = (exec cfg a e (stateAt cfg w xs i).shared).1 := by
  rcases (role_moved cfg w hx).shared with hs | ⟨y, rfl, hs⟩ |
    ⟨u, e, th, g, a, k, rfl, hth, hp, hg, -, hs⟩
  · exact .inl hs
  · exact .inr (.inl ⟨y, rfl, hs⟩)
  · exact .inr (.inr ⟨u, e, a, g, ⟨hx, ⟨th, k, hth, hp⟩, hg⟩, hs⟩)

/-- The role of a thread under one move. -/
theorem role_cases (hx : xs[i]? = some x) (hg : roleAt cfg w xs (i + 1) v = some g') :
    roleAt cfg w xs i v = some g' ∨ g'.place = .idle ∨
    ∃ e a g, Does cfg w xs i v e a g ∧
      (stateAt cfg w xs (i + 1)).shared = (exec cfg a e (stateAt cfg w xs i).shared).1 ∧
      g' = g.after a (exec cfg a e (stateAt cfg w xs i).shared).2 := by
  rcases (role_moved cfg w hx).thread v with ⟨-, h⟩ | ⟨t, -, h⟩ |
    ⟨e, th, g, a, k, rfl, hth, hp, hg₀, -, hs, -, h⟩ <;> rw [h] at hg
  · exact .inl hg
  · cases hg; exact .inr (.inl rfl)
  · cases hg; exact .inr (.inr ⟨e, a, g, ⟨hx, ⟨th, k, hth, hp⟩, hg₀⟩, hs, rfl⟩)

theorem Does.after (h : Does cfg w xs i u e a g) :
    (stateAt cfg w xs (i + 1)).shared = (exec cfg a e (stateAt cfg w xs i).shared).1 ∧
      roleAt cfg w xs (i + 1) u =
        some (g.after a (exec cfg a e (stateAt cfg w xs i).shared).2) := by
  obtain ⟨th, k, hth, hp⟩ := h.thread
  obtain ⟨hs, -, hr⟩ := Sys.acted (task_place cfg) h.move hth hp h.role
  exact ⟨hs, hr⟩

theorem Does.unique {e' : Env} {a' : Act} (h : Does cfg w xs i u e a g)
    (h' : Does cfg w xs i v e' a' g') : u = v ∧ a = a' ∧ g = g' := by
  have hm := h.move.symm.trans h'.move
  simp only [Option.some.injEq, Move.run.injEq] at hm
  obtain ⟨rfl, rfl⟩ := hm
  obtain ⟨th, k, hth, hp⟩ := h.thread
  obtain ⟨th', k', hth', hp'⟩ := h'.thread
  rw [hth] at hth'
  cases hth'
  rw [hp] at hp'
  cases hp'
  have hr := h.role.symm.trans h'.role
  cases hr
  exact ⟨rfl, rfl, rfl⟩

/-! ## Threads of a claim -/

/-- Every thread is a call or a loop of a claim. -/
def Tasks (T : Nat → Option Thread) (R : Nat → Option Role) : Prop :=
  ∀ u th, T u = some th → th.task.ofClaim ∧ ∃ g, R u = some g ∧ g.task = th.task

/-- Besides, the supervisor is not shut down, and the records of the store are well formed. -/
structure Followed (c : State) (R : Nat → Option Role) : Prop where
  task : Tasks c.threads R
  live : c.shared.coord.shutdown = false
  wf : c.shared.backend.WF

/-- The configuration and the roles after `i` moves. -/
abbrev At (cfg : Config) (w : World) (xs : Schedule) (i : Nat)
    (J : State → (Nat → Option Role) → Prop) : Prop :=
  J (stateAt cfg w xs i) (roleAt cfg w xs i)

theorem Followed.allows (h : Followed (stateAt cfg w xs i) (roleAt cfg w xs i))
    (hd : Does cfg w xs i u e a g) : g.allowsAct a ∧ g.task.ofClaim := by
  obtain ⟨th, k, hth, hp⟩ := hd.thread
  obtain ⟨hc, g', hg', ht⟩ := h.task u th hth
  obtain ⟨-, g'', hg'', hO⟩ := (placed_at cfg w xs i).2 u th hth
  rw [hd.role] at hg' hg''
  cases hg'
  cases hg''
  rw [hp] at hO
  rw [← ht] at hc
  exact ⟨hO.1 hc, hc⟩

/-- A role is as before, or idle, or the thread arrives there with this move. -/
theorem Followed.arrives (h : Followed (stateAt cfg w xs i) (roleAt cfg w xs i))
    (hx : xs[i]? = some x) (hr : roleAt cfg w xs (i + 1) v = some g') :
    roleAt cfg w xs i v = some g' ∨ g'.place = .idle ∨
    ∃ e a g, Does cfg w xs i v e a g ∧ g'.task = g.task ∧
      Arrives g a (exec cfg a e (stateAt cfg w xs i).shared).2 g'.place := by
  rcases role_cases hx hr with hsame | hidle | ⟨e, a, g, hd, -, rfl⟩
  · exact .inl hsame
  · exact .inr (.inl hidle)
  · exact .inr (.inr ⟨e, a, g, hd, rfl, Role.arrives (h.allows hd).1 _⟩)

theorem named_of_allows (hgen : cfg.generationID ≠ "") {op : Memory.Op} {f : Flow}
    (hg : g.allowsCall op) (hf : Flow.allows cfg f (.call op)) : op.Named := by
  have hclient : ∀ id, op.operationID = some id → op.client = some cfg.generationID := by
    intro id hid
    rcases hf.1 op rfl with hn | ⟨-, hc⟩
    · rw [hid] at hn; cases hn
    · exact hc
  cases op with
  | acquireClaim req | renewClaim req | releaseClaim req =>
    exact fun h => hgen (by rw [← h, ← Option.some.inj (hclient _ rfl)])
  | prepareTransfer req | commitTransfer req | abortTransfer req => cases hg
  | _ => trivial

/-- The store under one move. -/
theorem Followed.store (hset : Setting cfg w xs)
    (h : Followed (stateAt cfg w xs i) (roleAt cfg w xs i)) (hx : xs[i]? = some x) :
    (stateAt cfg w xs (i + 1)).shared.backend.WF ∧
      ∀ n, Epoch.Next ((stateAt cfg w xs i).shared.backend.recordOf n).epoch
        ((stateAt cfg w xs (i + 1)).shared.backend.recordOf n).epoch := by
  have hsame : ∀ {b : Memory.Backend}, b = (stateAt cfg w xs i).shared.backend →
      b.WF ∧ ∀ n, Epoch.Next ((stateAt cfg w xs i).shared.backend.recordOf n).epoch
        (b.recordOf n).epoch := by
    rintro b rfl
    exact ⟨h.wf, fun n => .keep _⟩
  rcases shared_cases cfg w hx with hs | ⟨y, rfl, hs⟩ | ⟨u, e, a, g, hd, hs⟩ <;> rw [hs]
  · exact hsame rfl
  · cases y with
    | client c op =>
      have hN := (hset.clients c op (List.mem_of_getElem? hx)).2
      have he := (stateAt cfg w xs i).shared.backend.apply_effect c op
      exact ⟨he.wf hN h.wf, he.next hN h.wf⟩
    | beginWork n op | endWork n op => exact hsame rfl
  · by_cases hc : ∃ op, a = .call op
    · obtain ⟨op, rfl⟩ := hc
      obtain ⟨f, -, hf⟩ := hd.flow
      have hN := named_of_allows hset.named (h.allows hd).1 hf
      unfold exec
      cases e.fault with
      | some err => exact hsame rfl
      | none =>
        have he := (stateAt cfg w xs i).shared.backend.locked_effect e.call op
        exact ⟨he.wf hN h.wf, he.next hN h.wf⟩
    · exact hsame (exec_backend cfg e _ fun op h => hc ⟨op, h⟩)

section

variable {T : Nat → Option Thread} {R : Nat → Option Role}

/-- A thread at the start of a task. -/
theorem Tasks.put (h : Tasks T R) {t : Task} (ht : t.ofClaim) (k : Nat) :
    Tasks (update T v (some ((system cfg).fresh t k)))
      (update R v (some { task := t })) := by
  intro u th hth
  by_cases hu : u = v
  · subst hu
    rw [update_self] at hth
    cases hth
    exact ⟨ht, { task := t }, by simp, rfl⟩
  · rw [update_of_ne hu] at hth ⊢
    exact h u th hth

theorem Tasks.keep (h : Tasks T R) {th : Thread} (hth : T v = some th) (hg : R v = some g)
    (r : a.Answer) (p : Code.P (Result ⊕ Task)) :
    Tasks (update T v (some { th with prog := p }))
      (update R v (some (g.after a r))) := by
  intro u th' hth'
  by_cases hu : u = v
  · subst hu
    rw [update_self] at hth'
    cases hth'
    obtain ⟨ht, g₀, hg₀, htask⟩ := h u th hth
    rw [hg] at hg₀
    cases hg₀
    exact ⟨ht, g.after a r, by simp, htask⟩
  · rw [update_of_ne hu] at hth' ⊢
    exact h u th' hth'

end

theorem followed_at (hset : Setting cfg w xs) (hi : i ≤ xs.length) :
    At cfg w xs i Followed := by
  refine Run.along (J := fun i => At cfg w xs i Followed)
    ⟨fun _ _ h => (by cases h), hset.live, hset.wf⟩ (fun i x hx ih => ?_) hi
  have hlive : (stateAt cfg w xs (i + 1)).shared.coord.shutdown = false := by
    rw [← ih.live]
    rcases shared_cases cfg w hx with hs | ⟨y, rfl, hs⟩ | ⟨u, e, a, g, hd, hs⟩ <;> rw [hs]
    · exact outside_shutdown _ y
    · refine exec_shutdown cfg e _ fun ha => ?_
      have := (ih.allows hd).1
      rw [ha] at this
      exact this
  refine ⟨?_, hlive, (ih.store hset hx).1⟩
  have hmoved := role_moved cfg w hx
  generalize stateAt cfg w xs (i + 1) = c' at hmoved
  generalize roleAt cfg w xs (i + 1) = R' at hmoved
  cases hmoved with
  | idle | env y => exact ih.task
  | start t => exact ih.task.put (hset.tasks t (List.mem_of_getElem? hx)).1 _
  | jump u e th g t hth hp hg hQ =>
    refine ih.task.put ?_ _
    exact ((hQ.2 (ih.task u th hth).1).2 t rfl).2.1
  | act u e th g a k hth hp hg ha =>
    exact ih.task.keep hth hg _ _
  | fork u e th g a k t hth hp hg ha hf =>
    refine (ih.task.keep hth hg _ _).put ?_ _
    rcases fork_cases hf with ⟨name, -, rfl⟩ | ⟨n, rfl, -⟩
    · rfl
    · obtain ⟨htask, g', hg', ht⟩ := ih.task u th hth
      rw [hg] at hg'
      cases hg'
      obtain ⟨name, hname, -⟩ := ha (by rw [ht]; exact htask)
      cases hname

/-! ## The flag -/

/-- The thread has set the flag `acquiring` of claim `n`. -/
def Holds (g : Role) (n : String) : Prop :=
  g.task.acquires = some n ∧ (g.place = .acquiring ∨ g.place = .installed)

variable {live : Bool} {c : Claim} {record : ClaimRecord} {genID : String} {l : Lease}

theorem tryAcquireBegin_entered (h : (c.tryAcquireBegin live).2 = .entered) :
    c.acquiring = false ∧ (c.tryAcquireBegin live).1.acquiring = true := by
  unfold Claim.tryAcquireBegin at h ⊢
  split at h
  · cases h
  split at h
  · cases h
  split at h
  · cases h
  · rename_i h₁ _ h₂ h₃
    simp [h₁, h₃]

/-- The flag under one action. -/
theorem exec_acquiring (cfg : Config) (e : Env) (w : World) (a : Act) (n : String) :
    ((exec cfg a e w).1.coord.claims n).acquiring = (w.coord.claims n).acquiring ∨
      ((exec cfg a e w).1.coord.claims n).acquiring = true ∨ a = .tryAcquireEnd n := by
  rw [exec_claims]
  split
  · rename_i hn
    cases a <;> cases hn <;> simp only [Act.section]
    · unfold Claim.tryAcquireBegin
      split
      · exact .inl rfl
      split
      · exact .inl rfl
      split
      · exact .inl rfl
      · exact .inr (.inl rfl)
    · left
      unfold Claim.tryAcquireInstall
      split
      · rfl
      split
      · rfl
      split <;> rfl
    · exact .inr (.inr trivial)
    · left
      unfold Claim.revokeLease
      simp only
      split <;> rfl
    · left
      unfold Claim.markRenewing
      split <;> rfl
    · exact .inl rfl
    · left
      unfold Claim.applyRecord
      simp only
      split
      · rfl
      split <;> rfl
    · exact .inl rfl
    · left
      unfold Claim.ensureLocalLease
      split
      · rfl
      split
      · rfl
      split <;> rfl
    · exact .inl rfl
    · exact .inl rfl
    · exact .inl rfl
  · exact .inl rfl

structure Exclusive (c : State) (R : Nat → Option Role) : Prop where
  flag : ∀ u g n, R u = some g → Holds g n → (c.shared.coord.claims n).acquiring = true
  one : ∀ u v g g' n, R u = some g → R v = some g' → Holds g n → Holds g' n → u = v

/-- The flag under one move: only the end of a `tryAcquire` takes it back. -/
theorem acquiring_succ (hx : xs[i]? = some x)
    (h : ((stateAt cfg w xs i).shared.coord.claims n).acquiring = true) :
    ((stateAt cfg w xs (i + 1)).shared.coord.claims n).acquiring = true ∨
      ∃ u e g, Does cfg w xs i u e (.tryAcquireEnd n) g := by
  rcases shared_cases cfg w hx with hs | ⟨y, rfl, hs⟩ | ⟨u, e, a, g, hd, hs⟩ <;> rw [hs]
  · exact .inl h
  · obtain ⟨d, hd⟩ := outside_claims (stateAt cfg w xs i).shared y n
    rw [hd]
    exact .inl h
  · rcases exec_acquiring cfg e (stateAt cfg w xs i).shared a n with ha | ha | rfl
    · exact .inl (ha.trans h)
    · exact .inl ha
    · exact .inr ⟨u, e, g, hd⟩

/-- A thread that has set the flag had set it before, or sets it with this move. -/
theorem holds_before (hF : At cfg w xs i Followed)
    (hx : xs[i]? = some x) (hr : roleAt cfg w xs (i + 1) u = some g') (h : Holds g' n) :
    (∃ g, roleAt cfg w xs i u = some g ∧ Holds g n) ∨
    (((stateAt cfg w xs i).shared.coord.claims n).acquiring = false ∧
      ((stateAt cfg w xs (i + 1)).shared.coord.claims n).acquiring = true ∧
      ∃ e g, Does cfg w xs i u e (.tryAcquireBegin n) g) := by
  obtain ⟨htask, hplace⟩ := h
  rcases hF.arrives hx hr with hsame | hidle | ⟨e, a, g, hd, ht', harr⟩
  · exact .inl ⟨g', hsame, htask, hplace⟩
  · rw [hidle] at hplace
    rcases hplace with h | h <;> cases h
  · rw [ht'] at htask
    have hbefore : g.place = .acquiring ∨ g.place = .installed →
        ∃ g, roleAt cfg w xs i u = some g ∧ Holds g n := fun hp => ⟨g, hd.role, htask, hp⟩
    generalize hans : (exec cfg a e (stateAt cfg w xs i).shared).2 = ans at harr
    generalize g'.place = p at harr hplace
    cases harr with
    | stay a r h => exact .inl (hbefore (by rw [h]; exact hplace))
    | installed l ht hp => exact .inl (hbefore (.inl hp))
    | forked r ht hp => exact .inl (hbefore (.inr hp))
    | @entered m ht =>
      rw [htask, Option.some.injEq] at ht
      subst ht
      obtain ⟨h₀, h₁⟩ := tryAcquireBegin_entered hans
      refine .inr ⟨h₀, ?_, e, g, hd⟩
      rw [hd.after.1, exec_claims]
      simpa [Act.claimOf, Act.section] using h₁
    | _ => rcases hplace with h | h <;> cases h

theorem exclusive_at (hset : Setting cfg w xs) (hi : i ≤ xs.length) :
    At cfg w xs i Exclusive := by
  refine Run.along (J := fun i => i ≤ xs.length →
    At cfg w xs i Exclusive)
    (fun _ => ⟨fun _ _ _ h => (by cases h), fun _ _ _ _ _ h => by cases h⟩)
    (fun i x hx ih hi => ?_) hi hi
  have ih := ih (Nat.le_of_succ_le hi)
  have hF := followed_at hset (Nat.le_of_succ_le hi)
  refine ⟨fun u g n hr hh => ?_, fun u v g g' n hu hv hg hg' => ?_⟩
  · rcases holds_before hF hx hr hh with ⟨g₀, hr₀, hh₀⟩ | ⟨-, hflag, -⟩
    · rcases acquiring_succ hx (ih.flag u g₀ n hr₀ hh₀) with hok | ⟨v, e, gv, hd⟩
      · exact hok
      · -- The thread that takes the flag back is the one that had set it.
        obtain rfl := ih.one u v g₀ gv n hr₀ hd.role hh₀ (hF.allows hd).1
        rw [hd.after.2, Option.some.injEq] at hr
        subst hr
        rcases hh.2 with h | h <;> cases h
    · exact hflag
  · rcases holds_before hF hx hu hg with ⟨g₀, hr₀, hh₀⟩ | ⟨hfree, -, e, g₀, hd⟩
    · rcases holds_before hF hx hv hg' with ⟨g₁, hr₁, hh₁⟩ | ⟨hfree, -, -⟩
      · exact ih.one u v g₀ g₁ n hr₀ hr₁ hh₀ hh₁
      · rw [ih.flag u g₀ n hr₀ hh₀] at hfree
        cases hfree
    · rcases holds_before hF hx hv hg' with ⟨g₁, hr₁, hh₁⟩ | ⟨-, -, e', g₁, hd'⟩
      · rw [ih.flag v g₁ n hr₁ hh₁] at hfree
        cases hfree
      · exact (hd.unique hd').1

/-! ## Loops -/

/-- Thread `u` is a renewal loop of claim `n` in progress. -/
def Looping (c : State) (u : Nat) (n : String) : Prop :=
  ∃ th, c.threads u = some th ∧ th.task = .renewal n ∧ th.result = none

/-- A loop in progress was in progress before, and is about to end if it was; or it is forked by this
move. -/
theorem looping_before (hset : Setting cfg w xs)
    (hF : At cfg w xs i Followed) (hx : xs[i]? = some x)
    (h : Looping (stateAt cfg w xs (i + 1)) v n) :
    (Looping (stateAt cfg w xs i) v n ∧
      ∀ g g', roleAt cfg w xs i v = some g → roleAt cfg w xs (i + 1) v = some g' →
        g.place = .failing → g'.place = .failing) ∨
      (v = (stateAt cfg w xs i).clock ∧ ∃ u e g, Does cfg w xs i u e (.go (.renewal n)) g) := by
  obtain ⟨th, hth, htask, hres⟩ := h
  have hmoved := role_moved cfg w hx
  generalize stateAt cfg w xs (i + 1) = c' at hmoved hth
  generalize roleAt cfg w xs (i + 1) = R' at hmoved
  have hsame : ∀ {R' : Nat → Option Role}, R' v = roleAt cfg w xs i v → ∀ g g',
      roleAt cfg w xs i v = some g → R' v = some g' → g.place = .failing → g'.place = .failing := by
    intro R' hR g g' hg hg' hp
    rw [hR, hg] at hg'
    cases hg'
    exact hp
  have hacted : ∀ {u e th₀ g₀ a k} {R' : Nat → Option Role},
      (stateAt cfg w xs i).threads u = some th₀ → th₀.task = .renewal n →
      roleAt cfg w xs i u = some g₀ → Does cfg w xs i u e a g₀ → th₀.prog = .act a k →
      R' u = some (g₀.after a (exec cfg a e (stateAt cfg w xs i).shared).2) →
      Looping (stateAt cfg w xs i) u n ∧ ∀ g g', roleAt cfg w xs i u = some g → R' u = some g' →
        g.place = .failing → g'.place = .failing := by
    intro u e th₀ g₀ a k R' hth₀ ht₀ hg₀ hd hp hR
    refine ⟨⟨th₀, hth₀, ht₀, by simp [Thread.result, hp]⟩, fun g g' hg hg' hf => ?_⟩
    obtain ⟨-, g₁, hg₁, ht₁⟩ := hF.task u th₀ hth₀
    rw [hg₀] at hg hg₁
    cases hg
    cases hg₁
    rw [hR, Option.some.injEq] at hg'
    rw [← hg']
    exact Role.after_failing (ht₁.trans ht₀) hf (hF.allows hd).1 _
  cases hmoved with
  | idle | env y => exact .inl ⟨⟨th, hth, htask, hres⟩, hsame rfl⟩
  | start t =>
    by_cases hv : v = (stateAt cfg w xs i).clock
    · subst hv
      have : (system cfg).fresh t (stateAt cfg w xs i).clock = th := by simpa using hth
      subst this
      exact absurd htask ((hset.tasks t (List.mem_of_getElem? hx)).2 n)
    · exact .inl ⟨⟨th, by simpa [hv] using hth, htask, hres⟩, hsame (by simp [hv])⟩
  | jump u e th₀ g t hth₀ hp hg hQ =>
    by_cases hv : v = u
    · subst hv
      have : (system cfg).fresh t (stateAt cfg w xs i).clock = th := by simpa using hth
      subst this
      obtain ⟨hidle, -, hloop⟩ := (hQ.2 (hF.task v th₀ hth₀).1).2 t rfl
      refine .inl ⟨⟨th₀, hth₀, (hloop n).mp htask, by simp [Thread.result, hp]⟩,
        fun g₀ _ hg₀ _ hf => ?_⟩
      rw [hg, Option.some.injEq] at hg₀
      rw [← hg₀, hidle] at hf
      cases hf
    · exact .inl ⟨⟨th, by simpa [hv] using hth, htask, hres⟩, hsame (by simp [hv])⟩
  | act u e th₀ g a k hth₀ hp hg ha =>
    by_cases hv : v = u
    · subst hv
      have : { th₀ with prog := k ((system cfg).exec a e (stateAt cfg w xs i).shared).2 } = th := by
        simpa using hth
      subst this
      exact .inl (hacted hth₀ htask hg ⟨hx, ⟨th₀, k, hth₀, hp⟩, hg⟩ hp (by simp; rfl))
    · exact .inl ⟨⟨th, by simpa [hv] using hth, htask, hres⟩, hsame (by simp [hv])⟩
  | fork u e th₀ g a k t hth₀ hp hg ha hf =>
    have hd : Does cfg w xs i u e a g := ⟨hx, ⟨th₀, k, hth₀, hp⟩, hg⟩
    by_cases hc : v = (stateAt cfg w xs i).clock
    · have : (system cfg).fresh t (stateAt cfg w xs i).clock = th := by simpa [hc] using hth
      subst this
      rcases fork_cases hf with ⟨m, rfl, ht⟩ | ⟨m, rfl, ht⟩ <;>
        rw [show t = .renewal n from htask] at ht <;> cases ht
      exact .inr ⟨hc, u, e, g, hd⟩
    by_cases hv : v = u
    · subst hv
      have : { th₀ with prog := k ((system cfg).exec a e (stateAt cfg w xs i).shared).2 } = th := by
        simpa [hc] using hth
      subst this
      exact .inl (hacted hth₀ htask hg hd hp (by simp [hc]; rfl))
    · exact .inl ⟨⟨th, by simpa [hv, hc] using hth, htask, hres⟩, hsame (by simp [hv, hc])⟩

/-- When a record of an acquisition is applied, no loop and no `Release` is in progress. -/
theorem Setting.turn (hset : Setting cfg w xs)
    (hd : Does cfg w xs i u e (.tryAcquireInstall n record) g) {th : Thread}
    (hth : (stateAt cfg w xs i).threads v = some th)
    (ht : th.task = .renewal n ∨ th.task = .release n) : th.result ≠ none := by
  obtain ⟨th₀, k, hth₀, hp⟩ := hd.thread
  have hC := Run.meets_getElem hset.turns hd.move
  have hlt := ((placed_at cfg w xs i).2 v th hth).1
  simp only [inTurn, hth₀, Option.bind_some, Thread.next_of_prog hp, List.all_eq_true,
    List.mem_range] at hC
  have hv := hC v hlt
  rw [hth] at hv
  rcases ht with ht | ht <;> simpa [ht, Option.isSome_iff_ne_none] using hv

/-- A claim has at most one loop, and none when a lease is new. -/
structure OneLoop (c : State) (R : Nat → Option Role) : Prop where
  one : ∀ u v n, Looping c u n → Looping c v n → u = v
  none : ∀ u g n, R u = some g → g.task.acquires = some n → g.place = .installed →
    ∀ v, ¬ Looping c v n

theorem oneLoop_at (hset : Setting cfg w xs) (hi : i ≤ xs.length) :
    At cfg w xs i OneLoop := by
  refine Run.along (J := fun i => i ≤ xs.length →
    At cfg w xs i OneLoop)
    (fun _ => ⟨fun _ _ _ h => (by obtain ⟨_, h, -⟩ := h; cases h), fun _ _ _ h => by cases h⟩)
    (fun i x hx ih hi => ?_) hi hi
  have hi := Nat.le_of_succ_le hi
  have ih := ih hi
  have hF := followed_at hset hi
  have hE := exclusive_at hset hi
  refine ⟨fun u v n hu hv => ?_, fun u g' n hr ht hp v hv => ?_⟩
  · -- The thread that forks has a new lease, so there was no loop.
    rcases looping_before hset hF hx hu with ⟨hu, -⟩ | ⟨rfl, u', e, g, hd⟩ <;>
      rcases looping_before hset hF hx hv with ⟨hv, -⟩ | ⟨rfl, v', e', g', hd'⟩
    · exact ih.one u v n hu hv
    · obtain ⟨m, hm, ht, hp⟩ := (hF.allows hd').1
      cases hm
      exact absurd hu (ih.none v' g' n hd'.role ht hp u)
    · obtain ⟨m, hm, ht, hp⟩ := (hF.allows hd).1
      cases hm
      exact absurd hv (ih.none u' g n hd.role ht hp v)
    · rfl
  · -- The fork itself leads away from the place of a new lease.
    have hfork : ∀ {u' e g}, Does cfg w xs i u' e (.go (.renewal n)) g → u' ≠ u := by
      rintro u' e g hd rfl
      rw [hd.after.2, Option.some.injEq] at hr
      obtain ⟨m, hm, -, hp'⟩ := (hF.allows hd).1
      rw [← hr] at hp
      simp [Role.after, hp'] at hp
    have hold : ∀ g, roleAt cfg w xs i u = some g → g.task.acquires = some n →
        g.place = .installed → False := by
      intro g hg ht hp
      rcases looping_before hset hF hx hv with ⟨hv, -⟩ | ⟨-, u', e, g₀, hd⟩
      · exact ih.none u g n hg ht hp v hv
      · obtain ⟨m, hm, ht₀, hp₀⟩ := (hF.allows hd).1
        cases hm
        exact hfork hd (hE.one u' u g₀ g n hd.role hg ⟨ht₀, .inr hp₀⟩ ⟨ht, .inr hp⟩)
    rcases hF.arrives hx hr with hsame | hidle | ⟨e, a, g, hd, ht', harr⟩
    · exact hold g' hsame ht hp
    · rw [hidle] at hp
      cases hp
    · rw [ht'] at ht
      rw [hp] at harr
      generalize (exec cfg a e (stateAt cfg w xs i).shared).2 = ans at harr
      cases harr with
      | stay a r h => exact hold g hd.role ht h
      | @installed m record l ht₀ hp₀ =>
        rw [ht, Option.some.injEq] at ht₀
        subst ht₀
        rcases looping_before hset hF hx hv with ⟨⟨th, hth, htask, hres⟩, -⟩ | ⟨-, u', e', g₀, hd'⟩
        · exact hset.turn hd hth (.inl htask) hres
        · cases (hd.unique hd').2.1

/-! ## Tokens -/

/-- A thread that is somewhere in the code of a claim has not returned. -/
theorem unfinished (hF : At cfg w xs i Followed)
    (hr : roleAt cfg w xs i u = some g) (hp : g.place ≠ .idle) (hp' : g.place ≠ .failing) :
    ∃ th, (stateAt cfg w xs i).threads u = some th ∧ th.task = g.task ∧ th.result = none := by
  cases hth : (stateAt cfg w xs i).threads u with
  | none => rw [(placed_at cfg w xs i).1 u hth] at hr; cases hr
  | some th =>
    obtain ⟨hc, g₀, hg₀, ht⟩ := hF.task u th hth
    obtain ⟨-, g₁, hg₁, hO⟩ := (placed_at cfg w xs i).2 u th hth
    rw [hr] at hg₀ hg₁
    cases hg₀
    cases hg₁
    refine ⟨th, rfl, ht.symm, ?_⟩
    cases hres : th.result with
    | none => rfl
    | some y =>
      rw [Thread.prog_of_result hres] at hO
      rcases (hO.2 hc).1 with h | h
      · exact absurd h hp
      · exact absurd h hp'

/-- What a loop or a `Release` has read is the token of the cached record; a reply with a record
confirms the token that was sent. -/
structure Tokens (cfg : Config) (c : State) (R : Nat → Option Role) : Prop where
  lease : ∀ n l, (c.shared.coord.claims n).lease = some l →
    l.token = (c.shared.coord.claims n).record.fencingToken ∧ l.token ≠ 0
  read : ∀ u g n t, R u = some g → g.task = .renewal n →
    (g.place = .read t ∨ ∃ r, g.place = .replied t r) →
    t = (c.shared.coord.claims n).record.fencingToken
  reply : ∀ u g t r record, R u = some g → g.place = .replied t r → r.result = .ok record →
    record.fencingToken = t ∧ record.ownerGeneration = cfg.generationID ∧ record.phase ≠ .unowned
  releasing : ∀ u g n t, R u = some g → g.task = .release n →
    (g.place = .releasing t ∨ g.place = .released t) →
    t = (c.shared.coord.claims n).record.fencingToken

/-- A new record has the token of the old one, unless it comes from an acquisition. -/
theorem Tokens.cached (h : Tokens cfg (stateAt cfg w xs i) (roleAt cfg w xs i))
    (hF : At cfg w xs i Followed) (hx : xs[i]? = some x) (n : String) :
    ((stateAt cfg w xs (i + 1)).shared.coord.claims n).record.fencingToken =
        ((stateAt cfg w xs i).shared.coord.claims n).record.fencingToken ∨
      ∃ u e record g, Does cfg w xs i u e (.tryAcquireInstall n record) g := by
  rcases shared_cases cfg w hx with hs | ⟨y, rfl, hs⟩ | ⟨u, e, a, g, hd, hs⟩ <;> rw [hs]
  · exact .inl rfl
  · obtain ⟨d, hd⟩ := outside_claims (stateAt cfg w xs i).shared y n
    rw [hd]
    exact .inl rfl
  · rcases (exec_steps cfg e (stateAt cfg w xs i).shared a n).record with hrec | hrec
    · rw [hrec]
      exact .inl rfl
    · have ha := (hF.allows hd).1
      rw [Act.deliversTo_eq] at hrec
      cases a with
      | tryAcquireInstall m record =>
        simp only [Act.delivers, Option.some.injEq, Prod.mk.injEq] at hrec
        obtain ⟨rfl, -⟩ := hrec
        exact .inr ⟨u, e, record, g, hd⟩
      | applyRecord m record =>
        simp only [Act.delivers, Option.some.injEq, Prod.mk.injEq] at hrec
        obtain ⟨rfl, hrec⟩ := hrec
        obtain ⟨ht, t, r, hp, hr⟩ := ha
        left
        rw [← hrec, (h.reply u g t r record hd.role hp hr).1]
        exact h.read u g m t hd.role ht (.inr ⟨r, hp⟩)
      | setRecord m record => exact absurd ha id
      | _ => cases hrec

/-- While a claim has a valid lease, a record of an acquisition is not applied. -/
theorem tryAcquireInstall_of_lease {next : Nat} (h : c.lease = some l) :
    (c.tryAcquireInstall true genID next record).1 = c := by
  unfold Claim.tryAcquireInstall Claim.validLease
  simp only [if_true, h]
  split <;> rfl

theorem currentLeaseToken_eq (h : c.currentLeaseToken live genID = some t) :
    (∃ l, c.lease = some l ∧ t = l.token) ∨ t = c.record.fencingToken := by
  unfold Claim.currentLeaseToken Claim.validLease at h
  split at h
  · rename_i l hl
    split at hl
    · exact .inl ⟨l, hl, (Option.some.inj h).symm⟩
    · cases hl
  · split at h
    · exact .inr (Option.some.inj h).symm
    · cases h

theorem Tokens.lease_succ (h : Tokens cfg (stateAt cfg w xs i) (roleAt cfg w xs i))
    (hF : At cfg w xs i Followed) (hx : xs[i]? = some x)
    (hl : ((stateAt cfg w xs (i + 1)).shared.coord.claims n).lease = some l) :
    l.token = ((stateAt cfg w xs (i + 1)).shared.coord.claims n).record.fencingToken ∧
      l.token ≠ 0 := by
  have hcached := h.cached hF hx n
  rcases shared_cases cfg w hx with hs | ⟨y, rfl, hs⟩ | ⟨u, e, a, g, hd, hs⟩ <;>
    rw [hs] at hl hcached ⊢
  · exact h.lease n l hl
  · obtain ⟨d, hd⟩ := outside_claims (stateAt cfg w xs i).shared y n
    rw [hd] at hl ⊢
    exact h.lease n l hl
  · rcases (exec_steps cfg e (stateAt cfg w xs i).shared a n).lease l hl with hold | ⟨ht, hne, -⟩
    · obtain ⟨ht, hne⟩ := h.lease n l hold
      refine ⟨?_, hne⟩
      rcases hcached with hc | ⟨u', e', record, g', hd'⟩
      · rw [hc, ht]
      · obtain ⟨-, rfl, -⟩ := hd.unique hd'
        simp only [exec_claims, Act.claimOf, if_true, Act.section, World.live, hF.live,
          Bool.not_false, tryAcquireInstall_of_lease hold]
        exact ht
    · exact ⟨ht, hne⟩

section

variable (hset : Setting cfg w xs) (h : At cfg w xs i (Tokens cfg))
  (hF : At cfg w xs i Followed) (hx : xs[i]? = some x)

include hset h hF hx

/-- A thread that has read the token keeps the record from being replaced. -/
theorem Tokens.keep (hr : roleAt cfg w xs i u = some g) (hp : g.place ≠ .idle)
    (hp' : g.place ≠ .failing) (ht : g.task = .renewal n ∨ g.task = .release n) :
    ((stateAt cfg w xs (i + 1)).shared.coord.claims n).record.fencingToken =
      ((stateAt cfg w xs i).shared.coord.claims n).record.fencingToken := by
  rcases h.cached hF hx n with hc | ⟨u', e, record, g', hd⟩
  · exact hc
  · obtain ⟨th, hth, htask, hres⟩ := unfinished hF hr hp hp'
    exact absurd hres (hset.turn hd hth (by rw [htask]; exact ht))

omit hset in
/-- An action other than an acquisition keeps it, too. -/
theorem Tokens.other (hd : Does cfg w xs i u e a g) (ha : ∀ n record, a ≠ .tryAcquireInstall n record)
    (n : String) : ((stateAt cfg w xs (i + 1)).shared.coord.claims n).record.fencingToken =
      ((stateAt cfg w xs i).shared.coord.claims n).record.fencingToken := by
  rcases h.cached hF hx n with hc | ⟨u', e, record, g', hd'⟩
  · exact hc
  · exact absurd (hd.unique hd').2.1 (ha n record)

theorem Tokens.read_succ (hr : roleAt cfg w xs (i + 1) u = some g') (ht : g'.task = .renewal n)
    (hp : g'.place = .read t ∨ ∃ r, g'.place = .replied t r) :
    t = ((stateAt cfg w xs (i + 1)).shared.coord.claims n).record.fencingToken := by
  have hsame : ∀ g, roleAt cfg w xs i u = some g → g.task = .renewal n →
      (g.place = .read t ∨ ∃ r, g.place = .replied t r) →
      t = ((stateAt cfg w xs (i + 1)).shared.coord.claims n).record.fencingToken := by
    intro g hg ht hp
    rw [h.keep hset hF hx hg (by rcases hp with hp | ⟨r, hp⟩ <;> simp [hp])
      (by rcases hp with hp | ⟨r, hp⟩ <;> simp [hp]) (.inl ht)]
    exact h.read u g n t hg ht hp
  rcases hF.arrives hx hr with hg | hidle | ⟨e, a, g, hd, ht', harr⟩
  · exact hsame g' hg ht hp
  · rw [hidle] at hp
    rcases hp with h | ⟨r, h⟩ <;> cases h
  · rw [ht'] at ht
    generalize hans : (exec cfg a e (stateAt cfg w xs i).shared).2 = ans at harr
    generalize g'.place = p at harr hp
    cases harr with
    | stay a r h => exact hsame g hd.role ht (by rw [h]; exact hp)
    | @read m t' ht₀ hp₀ =>
      rw [h.other hF hx hd (by simp)]
      rw [ht] at ht₀
      cases ht₀
      have : t' = t := by simpa using hp
      subst this
      rcases currentLeaseToken_eq hans with ⟨l, hl, rfl⟩ | htok
      · exact (h.lease _ l hl).1
      · exact htok
    | @replied req r ht₀ hp₀ =>
      rw [h.other hF hx hd (by simp)]
      have : req.token = t := by simpa using hp
      rw [← this]
      exact h.read u g n req.token hd.role ht (.inl hp₀)
    | _ => rcases hp with h | ⟨r, h⟩ <;> cases h

theorem Tokens.releasing_succ (hr : roleAt cfg w xs (i + 1) u = some g')
    (ht : g'.task = .release n) (hp : g'.place = .releasing t ∨ g'.place = .released t) :
    t = ((stateAt cfg w xs (i + 1)).shared.coord.claims n).record.fencingToken := by
  have hsame : ∀ g, roleAt cfg w xs i u = some g → g.task = .release n →
      (g.place = .releasing t ∨ g.place = .released t) →
      t = ((stateAt cfg w xs (i + 1)).shared.coord.claims n).record.fencingToken := by
    intro g hg ht hp
    rw [h.keep hset hF hx hg (by rcases hp with hp | hp <;> simp [hp])
      (by rcases hp with hp | hp <;> simp [hp]) (.inr ht)]
    exact h.releasing u g n t hg ht hp
  rcases hF.arrives hx hr with hg | hidle | ⟨e, a, g, hd, ht', harr⟩
  · exact hsame g' hg ht hp
  · rw [hidle] at hp
    rcases hp with h | h <;> cases h
  · rw [ht'] at ht
    generalize hans : (exec cfg a e (stateAt cfg w xs i).shared).2 = ans at harr
    generalize g'.place = p at harr hp
    cases harr with
    | stay a r h => exact hsame g hd.role ht (by rw [h]; exact hp)
    | @releasing m l ht₀ hp₀ =>
      rw [h.other hF hx hd (by simp)]
      rw [ht] at ht₀
      cases ht₀
      have : l.token = t := by simpa using hp
      rw [← this]
      exact (h.lease _ l hans).1
    | @released req r ht₀ hp₀ hr₀ =>
      rw [h.other hF hx hd (by simp)]
      have : req.token = t := by simpa using hp
      rw [← this]
      exact h.releasing u g n req.token hd.role ht (.inl hp₀)
    | _ => rcases hp with h | h <;> cases h

omit hset in
theorem Tokens.reply_succ (hfresh : Fresh cfg (stateAt cfg w xs i).shared (watchAt cfg w xs i))
    {r : Memory.Reply} {record : ClaimRecord} (hr : roleAt cfg w xs (i + 1) u = some g')
    (hp : g'.place = .replied t r) (hrec : r.result = .ok record) :
    record.fencingToken = t ∧ record.ownerGeneration = cfg.generationID ∧
      record.phase ≠ .unowned := by
  rcases hF.arrives hx hr with hg | hidle | ⟨e, a, g, hd, -, harr⟩
  · exact h.reply u g' t r record hg hp hrec
  · rw [hidle] at hp
    cases hp
  · rw [hp] at harr
    generalize hans : (exec cfg a e (stateAt cfg w xs i).shared).2 = ans at harr
    cases harr with
    | stay a r h' => exact h.reply u g t _ record hd.role h' hrec
    | @replied req r ht₀ hp₀ =>
      obtain ⟨f, hf, hallow⟩ := hd.flow
      rw [← hans] at hrec
      have hgen : req.generationID = cfg.generationID := by
        rcases hallow.1 _ rfl with h | ⟨-, h⟩
        · cases h
        · exact Option.some.inj h
      obtain ⟨ho, htok, hph⟩ := (hfresh.confirmed hf hallow rfl rfl hrec).2
      exact ⟨htok, ho.trans hgen, hph⟩

end

theorem tokens_at (hset : Setting cfg w xs) (hi : i ≤ xs.length) :
    At cfg w xs i (Tokens cfg) := by
  refine Run.along (J := fun i => i ≤ xs.length →
    At cfg w xs i (Tokens cfg)) (fun _ => ?_)
    (fun i x hx ih hi => ?_) hi hi
  · refine ⟨fun n l h => ?_, fun _ _ _ _ h => (by cases h), fun _ _ _ _ _ h => (by cases h),
      fun _ _ _ _ h => by cases h⟩
    rw [show (stateAt cfg w xs 0).shared.coord.claims n = { name := n } from
      congrFun hset.claims n] at h
    cases h
  · have hi := Nat.le_of_succ_le hi
    have hF := followed_at hset hi
    have hfresh := fresh_at hset.ready (fun c op h => (hset.clients c op h).1) hi
    exact ⟨fun n l => (ih hi).lease_succ hF hx, fun u g n t => (ih hi).read_succ hset hF hx,
      fun u g t r record => (ih hi).reply_succ hF hx hfresh,
      fun u g n t => (ih hi).releasing_succ hset hF hx⟩

/-! ## Leases under a loop -/

/-- The claim has a lease, or the generation has lost the token of the cached record for good. -/
def Covered (cfg : Config) (c : State) (n : String) : Prop :=
  (c.shared.coord.claims n).lease ≠ none ∨
    (c.shared.backend.recordOf n).epoch.Past cfg.generationID
      (c.shared.coord.claims n).record.fencingToken

/-- A successful `ReleaseClaim` ends the token; a claim with a loop or a new lease is covered. -/
structure Cover (cfg : Config) (c : State) (R : Nat → Option Role) : Prop where
  released : ∀ u g n t, R u = some g → g.task = .release n → g.place = .released t →
    (c.shared.backend.recordOf n).epoch.Past cfg.generationID t
  loop : ∀ u n, Looping c u n → (∀ g, R u = some g → g.place ≠ .failing) → Covered cfg c n
  fresh : ∀ u g n, R u = some g → g.task.acquires = some n → g.place = .installed →
    Covered cfg c n

/-- The lease under one action of a claim. -/
theorem exec_lease_ne_none (hF : At cfg w xs i Followed)
    (hT : At cfg w xs i (Tokens cfg))
    (hgen : (stateAt cfg w xs i).shared.genID = cfg.generationID)
    (hd : Does cfg w xs i u e a g)
    (hl : ((stateAt cfg w xs i).shared.coord.claims n).lease ≠ none) :
    ((exec cfg a e (stateAt cfg w xs i).shared).1.coord.claims n).lease ≠ none ∨
      ∃ reason, a = .revokeLease n reason := by
  have ha := (hF.allows hd).1
  obtain ⟨l, hl⟩ := Option.ne_none_iff_exists'.mp hl
  rw [exec_claims]
  split
  · rename_i hn
    cases a <;> cases hn <;> simp only [Act.section]
    · left
      unfold Claim.tryAcquireBegin
      split
      · simp [hl]
      split
      · simp [hl]
      split <;> simp [hl]
    · left
      rw [World.live, hF.live, Bool.not_false, tryAcquireInstall_of_lease hl, hl]
      simp
    · left; simp [Claim.tryAcquireEnd, hl]
    · exact .inr ⟨_, rfl⟩
    · left
      unfold Claim.markRenewing
      split <;> simp [hl]
    · left; simp [Claim.clearRenewing, hl]
    · -- The record of a renewal keeps the lease.
      left
      obtain ⟨ht, t, r, hp, hr⟩ := ha
      obtain ⟨htok, ho, hph⟩ := hT.reply u g t r _ hd.role hp hr
      obtain ⟨hlt, hne⟩ := hT.lease _ l hl
      have hread := hT.read u g _ t hd.role ht (.inr ⟨r, hp⟩)
      unfold Claim.applyRecord
      simp only [hl]
      rw [if_pos]
      · simp
      · rw [ClaimRecord.controls_iff, hgen]
        exact ⟨ho, by rw [htok, hread, ← hlt]; exact hne, hph⟩
    · exact absurd ha id
    · exact absurd ha id
    · exact absurd ha id
    · left; simp [Claim.setDrain, hl]
    · left; simp [Claim.setDrain, hl]
  · exact .inl (by simp [hl])

section

variable (hset : Setting cfg w xs) (hi : i ≤ xs.length) (hx : xs[i]? = some x)
  (h : At cfg w xs i (Cover cfg))

include hset hi hx

theorem past_succ (hp : ((stateAt cfg w xs i).shared.backend.recordOf n).epoch.Past
    cfg.generationID t) :
    ((stateAt cfg w xs (i + 1)).shared.backend.recordOf n).epoch.Past cfg.generationID t :=
  hp.next (((followed_at hset hi).store hset hx).2 n)

include h

/-- Only a renewal that fails, or an acquisition, can uncover a claim. -/
theorem Cover.covered_succ (hc : Covered cfg (stateAt cfg w xs i) n) :
    Covered cfg (stateAt cfg w xs (i + 1)) n ∨
    (∃ u e reason g, Does cfg w xs i u e (.revokeLease n reason) g ∧ g.task = .renewal n ∧
      ∃ t r, g.place = .replied t r) ∨
    ∃ u e record g, Does cfg w xs i u e (.tryAcquireInstall n record) g := by
  have hF := followed_at hset hi
  have hT := tokens_at hset hi
  have hgen := (fresh_at hset.ready (fun c op h => (hset.clients c op h).1) hi).genID
  rcases hT.cached hF hx n with htok | hinst
  · rcases hc with hl | hp
    · rcases shared_cases cfg w hx with hs | ⟨y, rfl, hs⟩ | ⟨u, e, a, g, hd, hs⟩
      · exact .inl (.inl (by rw [hs]; exact hl))
      · obtain ⟨d, hd⟩ := outside_claims (stateAt cfg w xs i).shared y n
        exact .inl (.inl (by rw [hs, hd]; exact hl))
      · rcases exec_lease_ne_none hF hT hgen hd hl with hl' | ⟨reason, rfl⟩
        · exact .inl (.inl (by rw [hs]; exact hl'))
        · rcases (hF.allows hd).1 with hren | ⟨ht, t, hp⟩
          · exact .inr (.inl ⟨u, e, reason, g, hd, hren⟩)
          · -- `Release` revokes the lease after the token has ended.
            refine .inl (.inr (past_succ hset hi hx ?_))
            rw [htok, ← hT.releasing u g n t hd.role ht (.inr hp)]
            exact h.released u g n t hd.role ht hp
    · exact .inl (.inr (by rw [htok]; exact past_succ hset hi hx hp))
  · exact .inr (.inr hinst)

theorem Cover.released_succ (hr : roleAt cfg w xs (i + 1) u = some g') (ht : g'.task = .release n)
    (hp : g'.place = .released t) :
    ((stateAt cfg w xs (i + 1)).shared.backend.recordOf n).epoch.Past cfg.generationID t := by
  have hF := followed_at hset hi
  rcases hF.arrives hx hr with hg | hidle | ⟨e, a, g, hd, ht', harr⟩
  · exact past_succ hset hi hx (h.released u g' n t hg ht hp)
  · rw [hidle] at hp
    cases hp
  · rw [ht'] at ht
    rw [hp] at harr
    generalize hans : (exec cfg a e (stateAt cfg w xs i).shared).2 = ans at harr
    cases harr with
    | stay a r h' => exact past_succ hset hi hx (h.released u g n t hd.role ht h')
    | @released req r ht₀ hp₀ hr₀ =>
      rw [ht] at ht₀
      cases ht₀
      obtain ⟨f, hf, hallow⟩ := hd.flow
      have hrecall := (fresh_at hset.ready (fun c op h => (hset.clients c op h).1) hi).recallOp
        hf hallow rfl
      rw [hd.after.1]
      unfold exec at hans ⊢
      cases he : e.fault with
      | some err =>
        simp only [he] at hans
        rw [← hans] at hr₀
        cases hr₀
      | none =>
        simp only [he] at hans ⊢
        rw [← hans] at hr₀
        obtain ⟨cl, hcl, htok, hph⟩ := Memory.Backend.releaseLocked_released hrecall hr₀
        have hrec : ((stateAt cfg w xs i).shared.backend.locked e.call (.releaseClaim req)).1.recordOf
            req.claimName = cl := Memory.Backend.recordOf_of_some hcl
        rw [hrec]
        exact .inr ⟨htok.symm, by simp [ClaimRecord.epoch, hph]⟩

theorem Cover.loop_succ (hloop : Looping (stateAt cfg w xs (i + 1)) v n)
    (hrun : ∀ g, roleAt cfg w xs (i + 1) v = some g → g.place ≠ .failing) :
    Covered cfg (stateAt cfg w xs (i + 1)) n := by
  have hF := followed_at hset hi
  rcases looping_before hset hF hx hloop with ⟨hold, hfail⟩ | ⟨-, u, e, g, hd⟩
  · have hbefore : Covered cfg (stateAt cfg w xs i) n := by
      refine h.loop v n hold fun g hg hp => ?_
      obtain ⟨th, hth, -⟩ := hloop
      obtain ⟨-, g', hg', -⟩ := (placed_at cfg w xs (i + 1)).2 v th hth
      exact hrun g' hg' (hfail g g' hg hg' hp)
    rcases h.covered_succ hset hi hx hbefore with hc | ⟨u, e, reason, g, hd, ht, t, r, hp⟩ |
      ⟨u, e, record, g, hd⟩
    · exact hc
    · -- The loop that revokes the lease is the only one, and it ends.
      obtain ⟨th, hth, htask, hres⟩ := unfinished hF hd.role (by simp [hp]) (by simp [hp])
      obtain rfl := (oneLoop_at hset hi).one u v n ⟨th, hth, htask.trans ht, hres⟩ hold
      exact absurd (by simp [Role.after, hp]) (hrun _ hd.after.2)
    · obtain ⟨th, hth, htask, hres⟩ := hold
      exact absurd hres (hset.turn hd hth (.inl htask))
  · obtain ⟨m, hm, ht, hp⟩ := (hF.allows hd).1
    cases hm
    rcases h.covered_succ hset hi hx (h.fresh u g n hd.role ht hp) with hc |
      ⟨u', e', reason, g', hd', -⟩ | ⟨u', e', record, g', hd'⟩
    · exact hc
    · cases (hd.unique hd').2.1
    · cases (hd.unique hd').2.1

theorem Cover.fresh_succ (hr : roleAt cfg w xs (i + 1) u = some g')
    (ht : g'.task.acquires = some n) (hp : g'.place = .installed) :
    Covered cfg (stateAt cfg w xs (i + 1)) n := by
  have hF := followed_at hset hi
  have hold : ∀ g, roleAt cfg w xs i u = some g → g.task.acquires = some n →
      g.place = .installed → Covered cfg (stateAt cfg w xs (i + 1)) n := by
    intro g hg ht hp
    rcases h.covered_succ hset hi hx (h.fresh u g n hg ht hp) with hc |
      ⟨u', e, reason, g', hd, ht', t, r, hp'⟩ | ⟨u', e, record, g', hd⟩
    · exact hc
    · obtain ⟨th, hth, htask, hres⟩ := unfinished hF hd.role (by simp [hp']) (by simp [hp'])
      exact absurd ⟨th, hth, htask.trans ht', hres⟩ ((oneLoop_at hset hi).none u g n hg ht hp u')
    · -- Another thread cannot have set the flag.
      obtain ⟨ht', hp'⟩ := (hF.allows hd).1
      obtain rfl := (exclusive_at hset hi).one u' u g' g n hd.role hg ⟨ht', .inl hp'⟩ ⟨ht, .inr hp⟩
      rw [hd.role] at hg
      cases hg
      rw [hp] at hp'
      cases hp'
  rcases hF.arrives hx hr with hg | hidle | ⟨e, a, g, hd, ht', harr⟩
  · exact hold g' hg ht hp
  · rw [hidle] at hp
    cases hp
  · rw [ht'] at ht
    rw [hp] at harr
    generalize hans : (exec cfg a e (stateAt cfg w xs i).shared).2 = ans at harr
    cases harr with
    | stay a r h' => exact hold g hd.role ht h'
    | @installed m record l ht₀ hp₀ =>
      rw [ht, Option.some.injEq] at ht₀
      subst ht₀
      left
      rw [hd.after.1, exec_claims]
      simp only [Act.claimOf, if_true, Act.section]
      rw [(Claim.tryAcquireInstall_installed hans).2.2]
      exact Option.some_ne_none l

end

theorem cover_at (hset : Setting cfg w xs) (hi : i ≤ xs.length) :
    At cfg w xs i (Cover cfg) := by
  refine Run.along (J := fun i => i ≤ xs.length →
    At cfg w xs i (Cover cfg))
    (fun _ => ⟨fun _ _ _ _ h => (by cases h), fun _ _ h => (by obtain ⟨_, h, -⟩ := h; cases h),
      fun _ _ _ h => by cases h⟩)
    (fun i x hx ih hi => ?_) hi hi
  have hi := Nat.le_of_succ_le hi
  exact ⟨fun u g n t => (ih hi).released_succ hset hi hx, fun u n => (ih hi).loop_succ hset hi hx,
    fun u g n => (ih hi).fresh_succ hset hi hx⟩

/-! ## The result -/

theorem Does.of_next {th : Thread} (hx : xs[i]? = some (.run u e))
    (hth : (stateAt cfg w xs i).threads u = some th) (hn : th.next = some a) :
    ∃ g, Does cfg w xs i u e a g := by
  obtain ⟨k, hp⟩ := Thread.prog_of_next hn
  obtain ⟨-, g, hg, -⟩ := (placed_at cfg w xs i).2 u th hth
  exact ⟨g, hx, ⟨th, k, hth, hp⟩, hg⟩

/-- Until its next move, a thread stays where it is. -/
theorem role_kept {j : Nat} (hij : i ≤ j) (hr : roleAt cfg w xs i u = some g)
    (hk : ∀ k, i ≤ k → k < j → ∀ e, xs[k]? ≠ some (.run u e)) :
    roleAt cfg w xs j u = some g := by
  induction hij with
  | refl => exact hr
  | @step j hij ih =>
    refine Sys.kept (task_place cfg) (hk j hij (Nat.lt_succ_self j)) ?_
    exact ih fun k h₁ h₂ => hk k h₁ (Nat.lt_succ_of_lt h₂)

/-- When the reply to `RenewClaim` is judged, the claim has the lease that was renewed or none. -/
theorem Setting.judged (hset : Setting cfg w xs) {j : Nat} {e' : Env} {req : RenewRequest}
    (hd : Does cfg w xs i u e (.call (.renewClaim req)) g) (hij : i < j)
    (hj : xs[j]? = some (.run u e')) (hk : ∀ k, i < k → k < j → ∀ e, xs[k]? ≠ some (.run u e))
    {l : Lease} (hl : ((stateAt cfg w xs j).shared.coord.claims req.claimName).lease = some l) :
    l.token = req.token := by
  have hi : i ≤ xs.length := by
    have := (List.getElem?_eq_some_iff.mp hd.move).1
    omega
  have hj' : j ≤ xs.length := by
    have := (List.getElem?_eq_some_iff.mp hj).1
    omega
  obtain ⟨ht, hp⟩ := ((followed_at hset hi).allows hd).1
  have hrole := role_kept hij hd.after.2 fun k h₁ h₂ => hk k h₁ h₂
  have hplace : (g.after (.call (.renewClaim req))
      (exec cfg (.call (.renewClaim req)) e (stateAt cfg w xs i).shared).2).place =
      .replied req.token (exec cfg (.call (.renewClaim req)) e (stateAt cfg w xs i).shared).2 := by
    simp only [Role.after, hp]
  have hT := tokens_at hset hj'
  rw [(hT.lease _ l hl).1]
  exact (hT.read u _ req.claimName req.token hrole ht (.inr ⟨_, hplace⟩)).symm

theorem Setting.renewed (hset : Setting cfg w xs) {req : RenewRequest} {record : ClaimRecord}
    (hd : Does cfg w xs i u e (.call (.renewClaim req)) g)
    (hr : (exec cfg (.call (.renewClaim req)) e (stateAt cfg w xs i).shared).2.result =
      .ok record) :
    ((stateAt cfg w xs i).shared.coord.claims req.claimName).validLease
      (stateAt cfg w xs i).shared.live ≠ none := by
  have hi : i ≤ xs.length := by
    have := (List.getElem?_eq_some_iff.mp hd.move).1
    omega
  have hF := followed_at hset hi
  have hfresh := fresh_at hset.ready (fun c op h => (hset.clients c op h).1) hi
  obtain ⟨ht, hp⟩ := (hF.allows hd).1
  obtain ⟨th, hth, htask, hres⟩ := unfinished hF hd.role (by simp [hp]) (by simp [hp])
  have hcov := (cover_at hset hi).loop u req.claimName ⟨th, hth, htask.trans ht, hres⟩ fun g' hg' => by
    rw [hd.role] at hg'
    cases hg'
    simp [hp]
  rw [Claim.validLease, World.live, hF.live, Bool.not_false, if_pos rfl]
  rcases hcov with hl | hpast
  · exact hl
  · -- The reply says that the generation holds the token.
    exfalso
    obtain ⟨f, hf, hallow⟩ := hd.flow
    obtain ⟨hcl, ho, htok, hph⟩ := hfresh.confirmed hf hallow rfl rfl hr
    have hgen : req.generationID = cfg.generationID := by
      rcases hallow.1 _ rfl with h | ⟨-, h⟩
      · cases h
      · exact Option.some.inj h
    have hnext := past_succ hset hi hd.move hpast
    rw [hd.after.1, Memory.Backend.recordOf_of_some hcl,
      ← (tokens_at hset hi).read u g _ _ hd.role ht (.inl hp)] at hnext
    rcases hnext with hlt | ⟨-, hne⟩
    · exact absurd hlt (by simp [ClaimRecord.epoch, htok])
    · exact hne (by rw [ClaimRecord.epoch_holder_of_held hph, ho, hgen])

end Outdated

open Conc (Move)
open Outdated (inTurn)

/-- **Outdated renewals.** The coordinator is new, other clients use operation IDs of their own, and
the calls are those of claims. In every schedule that applies the record of an acquisition only when
no renewal loop and no `Release` of the claim is in progress: a renewal that fails takes no lease with
another token away, since it finds none (`Setting.judged`), and no renewal succeeds while there is no
valid lease. -/
theorem outdated_renewal (cfg : Config) (hgen : cfg.generationID ≠ "") (now : Time)
    (b : Memory.Backend) (hb : b.WF)
    (hops : ∀ op claim n, b.ops (opID cfg.generationID op claim n) = none) (xs : Schedule)
    (htasks : ∀ t, Move.start t ∈ xs → t.ofClaim ∧ ∀ n, t ≠ .renewal n)
    (hclients : ∀ c op, Move.env (.client c op) ∈ xs → op.Foreign cfg.generationID ∧ op.Named)
    (hxs : Conc.Run.Meets (system cfg).step inTurn { shared := World.new cfg now b } xs) :
    let s := stateAt cfg (World.new cfg now b) xs
    (∀ i u e (th : Thread) req, xs[i]? = some (.run u e) → (s i).threads u = some th →
      th.next = some (.call (.renewClaim req)) →
      (∀ record, (exec cfg (.call (.renewClaim req)) e (s i).shared).2.result ≠ .ok record) →
      ∀ j e', i < j → xs[j]? = some (.run u e') →
      (∀ k, i < k → k < j → ∀ e, xs[k]? ≠ some (.run u e)) →
      ∀ l, ((s j).shared.coord.claims req.claimName).lease = some l → l.token ≠ req.token →
        ((s (j + 1)).shared.coord.claims req.claimName).lease = some l) ∧
    ∀ i u e (th : Thread) req record, xs[i]? = some (.run u e) → (s i).threads u = some th →
      th.next = some (.call (.renewClaim req)) →
      (exec cfg (.call (.renewClaim req)) e (s i).shared).2.result = .ok record →
      ((s i).shared.coord.claims req.claimName).validLease (s i).shared.live ≠ none := by
  intro s
  have hset : Outdated.Setting cfg (World.new cfg now b) xs :=
    ⟨World.new_ready cfg now b hops, hb, World.new_claims cfg now b, rfl, hgen, htasks, hclients, hxs⟩
  refine ⟨fun i u e th req hx hth hn _ j e' hij hj hk l hl hne => ?_,
    fun i u e th req record hx hth hn hr => ?_⟩
  · obtain ⟨g, hd⟩ := Outdated.Does.of_next hx hth hn
    exact absurd (hset.judged hd hij hj hk hl) hne
  · obtain ⟨g, hd⟩ := Outdated.Does.of_next hx hth hn
    exact hset.renewed hd hr

/-- A claim is acquired, and its loop, thread 13, is about to send a request with token 1 when the
claim is released. The request fails after the claim is acquired again: it takes the lease with
token 2 away, while the store still has the generation as owner with this token. The new loop,
thread 34, goes on renewing. -/
theorem renewal_revokes_new_lease :
    let xs : Schedule := Conc.alone 0 (.claim "c") .atOne 2 ++
      Conc.alone 3 (.tryAcquire "c") .atOne 11 ++ List.replicate 4 (.run 13 .atOne) ++
      Conc.alone 19 (.release "c") .atOne 5 ++ [.run 13 .atOne] ++
      Conc.alone 26 (.tryAcquire "c") .atOne 9 ++ [.run 13 .atOne] ++
      List.replicate 5 (.run 34 .atOne)
    let s := stateAt (.sample "g") (World.new (.sample "g") 1 Memory.new) xs
    ((s 26).threads 13).bind Conc.Thread.next = some (.revokeLease "c" .expired) ∧
      ((s 36).shared.coord.claims "c").lease = some ⟨1, 2⟩ ∧
      ((s 37).shared.coord.claims "c").lease = none ∧
      ((s 37).shared.backend.recordOf "c").ownerGeneration = "g" ∧
      ((s 37).shared.backend.recordOf "c").fencingToken = 2 ∧
      ((s 42).threads 34).bind Conc.Thread.next =
        some (.applyRecord "c" ((s 42).shared.backend.recordOf "c")) ∧
      ((s 42).shared.coord.claims "c").lease = none := by
  decide +kernel

/-- The first request of the second loop of claim `c`. -/
def secondRenewal : RenewRequest :=
  { claimName := "c", generationID := "g", token := 2, ttl := 15 * second
    operationID := "g:renew:c:5" }

/-- The same calls, with the first loop at its end before the claim is acquired again: the lease is
there when the new loop, thread 37, renews it. -/
theorem outdated_renewal_ended :
    let xs : Schedule := Conc.alone 0 (.claim "c") .atOne 2 ++
      Conc.alone 3 (.tryAcquire "c") .atOne 11 ++ Conc.alone 15 (.release "c") .atOne 5 ++
      List.replicate 8 (.run 13 .atOne) ++ Conc.alone 29 (.tryAcquire "c") .atOne 9 ++
      List.replicate 5 (.run 37 .atOne)
    let s := stateAt (.sample "g") (World.new (.sample "g") 1 Memory.new) xs
    ((s 43).shared.coord.claims "c").validLease (s 43).shared.live ≠ none := by
  intro xs s
  have hnext : ((s 43).threads 37).bind Conc.Thread.next =
      some (.call (.renewClaim secondRenewal)) := by decide +kernel
  have hok : ((exec (.sample "g") (.call (.renewClaim secondRenewal)) .atOne
      (s 43).shared).2.result).toBool = true := by decide +kernel
  obtain ⟨th, hth, hnext⟩ := Option.bind_eq_some_iff.mp hnext
  cases hr : (exec (.sample "g") (.call (.renewClaim secondRenewal)) .atOne
      (s 43).shared).2.result with
  | error err => rw [hr] at hok; cases hok
  | ok record =>
    exact (outdated_renewal (.sample "g") (by decide) 1 Memory.new (Memory.new_wf false)
      (fun _ _ _ => rfl) xs (by simp [xs, Conc.alone, Task.ofClaim]) (by simp [xs, Conc.alone])
      (by decide +kernel)).2 43 37 .atOne th secondRenewal record rfl hth hnext hr

end ShiftLock.Coord
