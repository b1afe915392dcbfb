import ShiftLock.Coord.Flow

/-!
# Places in the code of a claim

A second monitor, for the calls and the renewal loops of a claim (`Task.ofClaim`): it tells where in
the code of `startRenewal`, `Release` or `tryAcquire` a thread is, with the token that the code has
read and the reply that it waits to judge. The calls of a handoff and `Close` are not followed: the
monitor allows them everything.

`task_place`: the program of every task obeys the monitor.
-/

namespace ShiftLock

open Conc

/-- The calls and the goroutine of a claim. -/
def Task.ofClaim : Task → Bool
  | .claim _ | .tryAcquire _ | .waitForOwnership _ | .waitRound _ | .release _ | .run _
  | .runRound _ | .renewal _ => true
  | _ => false

namespace Coord

open Conc.Prog (Obeys Monitor Within Uses)

inductive Place where
  | idle
  /-- `startRenewal` has read the token. -/
  | read (t : FencingToken)
  /-- The reply to `RenewClaim` with this token. -/
  | replied (t : FencingToken) (r : Memory.Reply)
  /-- `startRenewal` is about to leave its loop. -/
  | failing
  /-- `Release` has read the token. -/
  | releasing (t : FencingToken)
  /-- `ReleaseClaim` with this token succeeded. -/
  | released (t : FencingToken)
  /-- `tryAcquire` has set the flag. -/
  | acquiring
  /-- `tryAcquire` has installed a lease and started no renewal loop. -/
  | installed

structure Role where
  task : Task
  place : Place := .idle

namespace Role

def after (g : Role) (a : Act) (r : a.Answer) : Role :=
  { g with place :=
    match a with
    | .currentLeaseToken _ =>
      match r with
      | some t => .read t
      | none => .failing
    | .call op =>
      match op, g.place with
      | .renewClaim _, .read t => .replied t r
      | .releaseClaim _, .releasing t => if r.err = none then .released t else .idle
      | _, p => p
    | .revokeLease _ _ =>
      match g.place with
      | .replied _ _ => .failing
      | _ => .idle
    | .applyRecord _ _ => .idle
    | .lease _ =>
      match r with
      | some l => .releasing l.token
      | none => g.place
    | .tryAcquireBegin _ => if r = .entered then .acquiring else g.place
    | .tryAcquireInstall _ _ =>
      match r with
      | .installed _ => .installed
      | _ => g.place
    | .go _ =>
      match g.place with
      | .installed => .acquiring
      | p => p
    | .tryAcquireEnd _ => .idle
    | _ => g.place }

def allowsCall (g : Role) : Memory.Op → Prop
  | .renewClaim req => g.task = .renewal req.claimName ∧ g.place = .read req.token
  | .releaseClaim req =>
    (g.task = .release req.claimName ∧ g.place = .releasing req.token) ∨ g.place = .acquiring
  | .acquireClaim _ | .updateGeneration _ => True
  | _ => False

/-- The actions that are allowed to the threads of a claim. -/
def allowsAct (g : Role) : Act → Prop
  | .call op => g.allowsCall op
  | .currentLeaseToken name => g.task = .renewal name ∧ g.place = .idle
  | .lease name => g.task = .release name ∧ g.place = .idle
  | .revokeLease name _ =>
    (g.task = .renewal name ∧ ∃ t r, g.place = .replied t r) ∨
      (g.task = .release name ∧ ∃ t, g.place = .released t)
  | .applyRecord name record =>
    g.task = .renewal name ∧ ∃ t r, g.place = .replied t r ∧ r.result = .ok record
  | .tryAcquireBegin name => g.task.acquires = some name ∧ g.place = .idle
  | .tryAcquireInstall name _ => g.task.acquires = some name ∧ g.place = .acquiring
  | .tryAcquireEnd name =>
    g.task.acquires = some name ∧ (g.place = .acquiring ∨ g.place = .installed)
  | .go t => ∃ name, t = .renewal name ∧ g.task.acquires = some name ∧ g.place = .installed
  | .setRecord _ _ | .ensureLocalLease _ | .closeClaim _ | .shutdown => False
  | _ => True

def monitor : Monitor Act Act.Answer Role where
  allows g a := g.task.ofClaim → g.allowsAct a
  after := after

/-- What is known when a call returns. A loop continues with its next round and with nothing
else. -/
def Returns (t : Task) (g : Role) (x : Result ⊕ Task) : Prop :=
  g.task = t ∧ (t.ofClaim → (g.place = .idle ∨ g.place = .failing) ∧
    ∀ t', x = .inr t' → g.place = .idle ∧ t'.ofClaim ∧ ∀ n, t' = .renewal n ↔ t = .renewal n)

end Role

/-- **Where an action can lead.** -/
inductive Arrives (g : Role) : (a : Act) → a.Answer → Place → Prop
  | stay (a : Act) (r : a.Answer) {p : Place} (h : g.place = p) : Arrives g a r p
  | leave (a : Act) (r : a.Answer) (h : g.place ≠ .failing) : Arrives g a r .idle
  | failing (a : Act) (r : a.Answer) : Arrives g a r .failing
  | read {n : String} (t : FencingToken) (ht : g.task = .renewal n) (hp : g.place = .idle) :
      Arrives g (.currentLeaseToken n) (some t) (.read t)
  | replied {req : RenewRequest} (r : Memory.Reply) (ht : g.task = .renewal req.claimName)
      (hp : g.place = .read req.token) :
      Arrives g (.call (.renewClaim req)) r (.replied req.token r)
  | releasing {n : String} (l : Lease) (ht : g.task = .release n) (hp : g.place = .idle) :
      Arrives g (.lease n) (some l) (.releasing l.token)
  | released {req : ReleaseRequest} {r : Memory.Reply} (ht : g.task = .release req.claimName)
      (hp : g.place = .releasing req.token) (hr : r.err = none) :
      Arrives g (.call (.releaseClaim req)) r (.released req.token)
  | entered {n : String} (ht : g.task.acquires = some n) :
      Arrives g (.tryAcquireBegin n) .entered .acquiring
  | installed {n : String} {record : ClaimRecord} (l : Lease) (ht : g.task.acquires = some n)
      (hp : g.place = .acquiring) :
      Arrives g (.tryAcquireInstall n record) (.installed l) .installed
  | forked {n : String} (r : Bool) (ht : g.task.acquires = some n) (hp : g.place = .installed) :
      Arrives g (.go (.renewal n)) r .acquiring

theorem Role.arrives {g : Role} {a : Act} (ha : g.allowsAct a) (r : a.Answer) :
    Arrives g a r (g.after a r).place := by
  cases a with
  | currentLeaseToken n =>
    cases r with
    | some t => exact .read t ha.1 ha.2
    | none => exact .failing _ _
  | lease n =>
    cases r with
    | some l => exact .releasing l ha.1 ha.2
    | none => exact .stay _ _ rfl
  | call op =>
    cases op with
    | renewClaim req =>
      obtain ⟨ht, hp⟩ := ha
      rw [show (g.after (.call (.renewClaim req)) r).place = .replied req.token r by
        simp only [after, hp]]
      exact .replied r ht hp
    | releaseClaim req =>
      rcases ha with ⟨ht, hp⟩ | hp
      · rw [show (g.after (.call (.releaseClaim req)) r).place =
          if r.err = none then .released req.token else .idle by simp only [after, hp]]
        split
        · rename_i hr
          exact .released ht hp hr
        · exact .leave _ _ (by rw [hp]; exact Place.noConfusion)
      · rw [show (g.after (.call (.releaseClaim req)) r).place = g.place by
          simp only [after, hp]]
        exact .stay _ _ rfl
    | _ => exact .stay _ _ rfl
  | revokeLease n reason =>
    rcases ha with ⟨-, t, r', hp⟩ | ⟨-, t, hp⟩
    · rw [show (g.after (.revokeLease n reason) r).place = .failing by simp only [after, hp]]
      exact .failing _ _
    · rw [show (g.after (.revokeLease n reason) r).place = .idle by simp only [after, hp]]
      exact .leave _ _ (by rw [hp]; exact Place.noConfusion)
  | applyRecord n record =>
    obtain ⟨-, t, r', hp, -⟩ := ha
    exact .leave _ _ (by rw [hp]; exact Place.noConfusion)
  | tryAcquireBegin n =>
    by_cases hr : r = .entered
    · subst hr
      exact .entered ha.1
    · rw [show (g.after (.tryAcquireBegin n) r).place = g.place from if_neg hr]
      exact .stay _ _ rfl
  | tryAcquireInstall n record =>
    cases r with
    | installed l => exact .installed l ha.1 ha.2
    | _ => exact .stay _ _ rfl
  | tryAcquireEnd n =>
    exact .leave _ _ (by rcases ha.2 with hp | hp <;> rw [hp] <;> exact Place.noConfusion)
  | go b =>
    obtain ⟨n, rfl, ht, hp⟩ := ha
    rw [show (g.after (.go (.renewal n)) r).place = .acquiring by simp only [after, hp]]
    exact .forked r ht hp
  | _ => exact .stay _ _ rfl

/-- A loop that is about to end does not go back. -/
theorem Role.after_failing {g : Role} {a : Act} {n : String} (ht : g.task = .renewal n)
    (hp : g.place = .failing) (ha : g.allowsAct a) (r : a.Answer) :
    (g.after a r).place = .failing := by
  have harr := arrives ha r
  generalize (g.after a r).place = p at harr ⊢
  cases harr with
  | stay a r h => rw [← h, hp]
  | leave a r h => exact absurd hp h
  | failing => rfl
  | entered ht' => rw [ht] at ht'; cases ht'
  | read t ht' hp' | replied r ht' hp' | releasing l ht' hp' | released ht' hp' | installed l ht' hp'
  | forked r ht' hp' => rw [hp] at hp'; cases hp'

/-- A program that moves a thread to no other place. -/
abbrev Stays {α : Type} (p : Code.P α) : Prop := Within Role.monitor (fun g g' => g' = g) p

section

variable {cfg : Config} {g : Role} {α β : Type}

theorem Stays.neutral {p : Code.P α} (h : Uses (fun a => a.neutral) p) : Stays p := by
  refine h.within (fun _ => rfl) (fun h h' => h'.trans h) fun a ha g => ?_
  cases a with
  | call op => cases op <;> first | exact ⟨fun _ => trivial, fun _ => rfl⟩ | cases ha
  | _ => first | exact ⟨fun _ => trivial, fun _ => rfl⟩ | cases ha

/-- The program goes on from the same place. -/
theorem Stays.then {Q : Role → β → Prop} {p : Code.P α} {k : α → Code.P β} (h : Stays p)
    (hk : ∀ x, Obeys Role.monitor Q (k x) g) : Obeys Role.monitor Q (p >>= k) g :=
  (h g).bind fun g' x hg => by rw [hg]; exact hk x

/-- One action of a claim, and the rest of the program. -/
theorem obeys_perform {Q : Role → α → Prop} {a : Act} {k : a.Answer → Code.P α}
    (ha : g.allowsAct a) (hk : ∀ r, Obeys Role.monitor Q (k r) (g.after a r)) :
    Obeys Role.monitor Q (Code.perform a >>= k) g := ⟨fun _ => ha, hk⟩

variable {name : String}

/-- A claim operation, and the rest of the program. -/
theorem obeys_call {Q : Role → α → Prop} {op : String} {mk : OperationID → Memory.Op}
    {k : Memory.Reply → Code.P α} (ha : ∀ id, g.allowsCall (mk id))
    (hk : ∀ id r, Obeys Role.monitor Q (k r) (g.after (.call (mk id)) r)) :
    Obeys Role.monitor Q (Code.request op name mk >>= k) g :=
  ⟨fun _ => trivial, fun id => ⟨fun _ => ha id, fun r => hk id r⟩⟩

/-! ## The programs of a claim -/

theorem renew_obeys (name : String) :
    Obeys Role.monitor (fun g goOn => g.task = .renewal name ∧
      (g.place = .idle ∨ (g.place = .failing ∧ goOn = false))) (Code.renew cfg name)
      { task := .renewal name } := by
  refine obeys_perform ⟨rfl, rfl⟩ fun t => ?_
  cases t with
  | none => exact ⟨rfl, .inr ⟨rfl, rfl⟩⟩
  | some t =>
    refine (Stays.neutral (uses_perform rfl)).then fun own => ?_
    refine obeys_call (fun _ => ⟨rfl, rfl⟩) fun id r => ?_
    cases hr : r.result with
    | error err =>
      refine obeys_perform (.inl ⟨rfl, t, r, rfl⟩) fun _ => ?_
      exact (Stays.neutral (uses_perform rfl)).then fun _ => ⟨rfl, .inr ⟨rfl, rfl⟩⟩
    | ok record =>
      refine obeys_perform ⟨rfl, t, r, rfl, hr⟩ fun _ => ?_
      exact (Stays.neutral (uses_perform rfl)).then fun _ => (Stays.neutral (uses_perform rfl)).then
        fun _ => (Stays.neutral (uses_perform rfl)).then fun _ => ⟨rfl, .inl rfl⟩

theorem renewalRound_obeys (name : String) :
    Obeys Role.monitor (fun g goOn => g.task = .renewal name ∧
      (g.place = .idle ∨ (g.place = .failing ∧ goOn = false))) (Code.renewalRound cfg name)
      { task := .renewal name } := by
  have hselect : Obeys Role.monitor (fun g goOn => g.task = .renewal name ∧
      (g.place = .idle ∨ (g.place = .failing ∧ goOn = false))) (Code.renewalSelect cfg name)
      { task := .renewal name } := by
    refine (Stays.neutral (uses_perform rfl)).then fun fired => ?_
    cases fired with
    | true => exact renew_obeys name
    | false => exact ⟨rfl, .inl rfl⟩
  refine hselect.bind fun g goOn hg => ?_
  cases goOn with
  | true => exact hg
  | false => exact (Stays.neutral (uses_perform rfl)).then fun _ => hg

theorem Role.after_release (task : Task) (t : FencingToken) (req : ReleaseRequest)
    (r : Memory.Reply) :
    ({ task, place := .releasing t } : Role).after (.call (.releaseClaim req)) r =
      { task, place := if r.err = none then .released t else .idle } := rfl

theorem release_obeys (name : String) :
    Obeys Role.monitor (fun g _ => g.task = .release name ∧ g.place = .idle)
      (Code.release cfg name) { task := .release name } := by
  refine obeys_perform ⟨rfl, rfl⟩ fun l => ?_
  cases l with
  | none => exact ⟨rfl, rfl⟩
  | some l =>
    refine obeys_call (fun _ => .inl ⟨rfl, rfl⟩) fun id r => ?_
    rw [show ({ task := .release name } : Role).after (.lease name) (some l) =
      { task := .release name, place := .releasing l.token } from rfl, Role.after_release]
    cases hr : r.err with
    | some err => exact ⟨rfl, rfl⟩
    | none =>
      refine obeys_perform (.inr ⟨rfl, l.token, rfl⟩) fun _ => ?_
      exact (Stays.neutral (uses_perform rfl)).then fun _ => ⟨rfl, rfl⟩

theorem startRenewal_obeys (hg : g.task.acquires = some name) (hp : g.place = .installed) :
    Obeys Role.monitor (fun g' _ => g'.task = g.task ∧
      (g'.place = .acquiring ∨ g'.place = .installed)) (Code.startRenewal name) g := by
  refine (Stays.neutral (uses_perform rfl)).then fun marked => ?_
  cases marked with
  | false => exact ⟨rfl, .inr hp⟩
  | true => exact obeys_perform ⟨name, rfl, hg, hp⟩ fun _ => ⟨rfl, .inl (by simp [Role.after, hp])⟩

/-- `tryAcquire` between its first section and its last. -/
theorem acquireClaim_obeys (hg : g.task.acquires = some name) (hp : g.place = .acquiring) :
    Obeys Role.monitor (fun g' _ => g'.task = g.task ∧
      (g'.place = .acquiring ∨ g'.place = .installed)) (Code.acquireClaim cfg name) g := by
  refine obeys_call (fun _ => trivial) fun id r => ?_
  obtain ⟨task, place⟩ := g
  cases hp
  cases hr : r.result with
  | error err => exact ⟨rfl, .inl rfl⟩
  | ok record =>
    refine obeys_perform ⟨hg, rfl⟩ fun x => ?_
    cases x with
    | closed => exact obeys_call (fun _ => .inr rfl) fun _ _ => ⟨rfl, .inl rfl⟩
    | valid l | notOwned => exact ⟨rfl, .inl rfl⟩
    | installed l =>
      refine (Stays.neutral (setState_uses _ _)).then fun _ =>
        (Stays.neutral (uses_perform rfl)).then fun _ => ?_
      refine Obeys.bind (startRenewal_obeys hg rfl) ?_
      exact fun g' _ hg' => hg'

theorem tryAcquire_place (hg : g.task.acquires = some name) (hp : g.place = .idle) :
    Obeys Role.monitor (fun g' _ => g'.task = g.task ∧ g'.place = .idle)
      (Code.tryAcquire cfg name) g := by
  refine obeys_perform ⟨hg, hp⟩ fun entry => ?_
  cases entry with
  | closed | valid l | busy => exact ⟨rfl, hp⟩
  | entered =>
    refine (acquireClaim_obeys (by exact hg) rfl).bind fun g' x hg' => ?_
    refine obeys_perform ⟨by rw [hg'.1]; exact hg, hg'.2⟩ fun _ => ⟨hg'.1, rfl⟩

theorem waitRound_place (hg : g.task.acquires = some name) (hp : g.place = .idle) :
    Obeys Role.monitor (fun g' _ => g'.task = g.task ∧ g'.place = .idle)
      (Code.waitRound cfg name) g := by
  refine (tryAcquire_place hg hp).bind fun g' x hg' => ?_
  cases x with
  | ok o => exact hg'
  | error err =>
    simp only
    split
    · exact hg'
    · refine (Stays.neutral (uses_perform rfl)).then fun l => ?_
      cases l with
      | some l => exact hg'
      | none =>
        refine (Stays.neutral (uses_perform rfl)).then fun wake => ?_
        cases wake <;> exact hg'

end

/-- A task that is not followed may do everything. -/
theorem obeys_unfollowed {α : Type} {t : Task} (ht : t.ofClaim = false) {Q : Role → α → Prop}
    (hQ : ∀ g x, g.task = t → Q g x) (p : Code.P α) {g : Role} (hg : g.task = t) :
    Obeys Role.monitor Q p g := by
  induction p generalizing g with
  | ret x => exact hQ g x hg
  | act a k ih => exact ⟨fun h => (by rw [hg, ht] at h; cases h), fun r => ih r hg⟩

theorem task_place (cfg : Config) (t : Task) :
    Obeys Role.monitor (Role.Returns t) (Code.task cfg t) { task := t } := by
  have ends {α : Type} {p : Code.P α} {k : α → Code.P (Result ⊕ Task)}
      {Q : Role → α → Prop} (h : Obeys Role.monitor Q p { task := t })
      (hQ : ∀ g x, Q g x → g.task = t ∧ (g.place = .idle ∨ g.place = .failing))
      (hk : ∀ x, ∃ y, k x = .ret y ∧ ∀ t', y = .inr t' → (∀ g, Q g x → g.place = .idle) ∧
        t'.ofClaim ∧ ∀ n, t' = .renewal n ↔ t = .renewal n) :
      Obeys Role.monitor (Role.Returns t) (p >>= k) { task := t } := by
    refine h.bind fun g x hg => ?_
    obtain ⟨y, hy, hjump⟩ := hk x
    rw [hy]
    exact ⟨(hQ g x hg).1, fun _ => ⟨(hQ g x hg).2, fun t' ht' =>
      ⟨(hjump t' ht').1 g hg, (hjump t' ht').2⟩⟩⟩
  have stays {α : Type} {p : Code.P α} (h : Stays p) :
      Obeys Role.monitor (fun g _ => g = { task := t }) p { task := t } := h _
  have hfree : t.ofClaim = false →
      Obeys Role.monitor (Role.Returns t) (Code.task cfg t) { task := t } := fun ht =>
    obeys_unfollowed ht (fun g x hg => ⟨hg, fun h => by rw [ht] at h; cases h⟩) _ rfl
  cases t with
  | claim name =>
    exact ends (stays (.neutral (claim_uses name))) (fun g _ h => by rw [h]; exact ⟨rfl, .inl rfl⟩)
      fun _ => ⟨_, rfl, by simp⟩
  | release name =>
    exact ends (release_obeys name) (fun g _ h => ⟨h.1, .inl h.2⟩) fun _ => ⟨_, rfl, by simp⟩
  | renewal name =>
    refine ends (renewalRound_obeys name) (fun g _ h => ⟨h.1, h.2.imp_right And.left⟩) fun goOn => ?_
    cases goOn with
    | false => exact ⟨_, rfl, by simp⟩
    | true =>
      refine ⟨_, rfl, fun t' ht' => ?_⟩
      cases ht'
      exact ⟨fun g h => h.2.elim id fun h => (by cases h.2), rfl, by simp⟩
  | tryAcquire name =>
    exact ends (tryAcquire_place rfl rfl) (fun g _ h => ⟨h.1, .inl h.2⟩) fun _ => ⟨_, rfl, by simp⟩
  | waitForOwnership name =>
    refine ends (stays (.neutral (uses_perform rfl)))
      (fun g _ h => by rw [h]; exact ⟨rfl, .inl rfl⟩) fun r => ?_
    cases r with
    | some err => exact ⟨_, rfl, by simp⟩
    | none => exact ⟨_, rfl, fun t' ht' => by cases ht'; exact ⟨by simp, rfl, by simp⟩⟩
  | waitRound name =>
    refine ends (waitRound_place rfl rfl) (fun g _ h => ⟨h.1, .inl h.2⟩) fun r => ?_
    cases r with
    | some r => exact ⟨_, rfl, by simp⟩
    | none => exact ⟨_, rfl, fun t' ht' => by cases ht'; exact ⟨fun g h => h.2, rfl, by simp⟩⟩
  | run worker =>
    refine ends (stays (.neutral (runBegin_uses worker)))
      (fun g _ h => by rw [h]; exact ⟨rfl, .inl rfl⟩) fun r => ?_
    cases r with
    | some err => exact ⟨_, rfl, by simp⟩
    | none => exact ⟨_, rfl, fun t' ht' => by cases ht'; exact ⟨by simp, rfl, by simp⟩⟩
  | runRound name =>
    refine ends (waitRound_place rfl rfl) (fun g _ h => ⟨h.1, .inl h.2⟩) fun r => ?_
    rcases r with - | (err | o)
    · exact ⟨_, rfl, fun t' ht' => by cases ht'; exact ⟨fun g h => h.2, rfl, by simp⟩⟩
    · exact ⟨_, rfl, by simp⟩
    · exact ⟨_, rfl, by simp⟩
  | _ => exact hfree rfl

/-- The roles of all threads after the first `i` moves of a schedule. -/
abbrev roleAt (cfg : Config) (w : World) (xs : Schedule) (i : Nat) : Nat → Option Role :=
  (system cfg).watchAt Role.monitor (fun t => { task := t }) w xs i

theorem placed_at (cfg : Config) (w : World) (xs : Schedule) (i : Nat) :
    Tracks Role.monitor Role.Returns (stateAt cfg w xs i) (roleAt cfg w xs i) :=
  Sys.tracks (task_place cfg) i

theorem role_moved (cfg : Config) (w : World) {xs : Schedule} {i : Nat}
    {x : Conc.Move Env Outside Task} (hx : xs[i]? = some x) :
    Moved (system cfg) Role.monitor (fun t => { task := t }) Role.Returns
      (stateAt cfg w xs i) (roleAt cfg w xs i) x (stateAt cfg w xs (i + 1))
      (roleAt cfg w xs (i + 1)) :=
  Sys.moved (task_place cfg) hx

end Coord
end ShiftLock
