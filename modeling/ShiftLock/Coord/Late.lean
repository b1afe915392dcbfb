import ShiftLock.Coord.OpId

/-!
# Late responses

A record that the backend has returned is applied to its claim by the caller's next action. Between
the two anything can happen: `applyRecord` overwrites the cached record and the token of the lease
with what arrives, so a response that is overtaken by a newer one takes the token back
(`renewal_rolls_back`).

It cannot as long as no response is applied while one with a smaller token is on its way to the
same claim (`inOrder`). The invariant (`Bounds`) puts every record on its way between the cached
record and the stored one; `late_responses` is what follows for whole runs.
-/

namespace ShiftLock.Coord

open Conc

/-- The record on its way to claim `name` that thread `u` has received and not applied. -/
def inFlight (c : State) (u : Nat) (name : String) : Option ClaimRecord :=
  ((c.threads u).bind Conc.Thread.next).bind (·.deliversTo name)

/-- The move does not apply a record while one with a smaller token is on its way to the claim. -/
def inOrder (c : State) : Move Env Outside Task → Bool
  | .run u _ =>
    match ((c.threads u).bind Conc.Thread.next).bind Act.delivers with
    | some (name, record) =>
      (List.range c.clock).all fun v =>
        (inFlight c v name).all fun r => record.fencingToken ≤ r.fencingToken
    | none => true
  | _ => true

variable {cfg : Config} {w : World}

/-! ## The invariant -/

abbrev cached (c : State) (name : String) : FencingToken :=
  (c.shared.coord.claims name).record.fencingToken

abbrev stored (c : State) (name : String) : FencingToken :=
  (c.shared.backend.recordOf name).fencingToken

/-- Records on their way are at least as new as the cached one, and not newer than the stored one;
a lease is not newer than the cached record. -/
structure Bounds (c : State) : Prop where
  cached_le : ∀ name, cached c name ≤ stored c name
  flight : ∀ u name r, inFlight c u name = some r →
    cached c name ≤ r.fencingToken ∧ r.fencingToken ≤ stored c name
  lease : ∀ name l, (c.shared.coord.claims name).lease = some l →
    l.token ≤ cached c name ∧ l.id < c.shared.coord.nextLease

section

variable {xs : Schedule} {i : Nat} {x : Move Env Outside Task}

/-- The record that a move applies to claim `name`. -/
def applied (c : State) (name : String) : Move Env Outside Task → Option ClaimRecord
  | .run u _ => inFlight c u name
  | _ => none

theorem inFlight_of_prog {c : State} {u : Nat} {th : Thread} {a : Act}
    {k : a.Answer → Code.P (Result ⊕ Task)} (hth : c.threads u = some th) (hp : th.prog = .act a k)
    (name : String) : inFlight c u name = a.deliversTo name := by
  simp [inFlight, hth, Thread.next_of_prog hp]

theorem inFlight_reply {v : Nat} {name : String} {r : ClaimRecord}
    (h : inFlight (stateAt cfg w xs i) v name = some r) :
    ∃ f op reply id, watchAt cfg w xs i v = some f ∧ f.reply = some (op, reply) ∧
      reply.result = .ok r ∧ op.claimName = some name ∧ op.operationID = some id := by
  unfold inFlight at h
  cases hth : (stateAt cfg w xs i).threads v with
  | none => rw [hth] at h; cases h
  | some th =>
    obtain ⟨-, f, hf, hO⟩ := (tracks_at cfg w xs i).2 v th hth
    rw [hth, Option.bind_some] at h
    cases hp : th.prog with
    | ret y => simp [Thread.next, hp] at h
    | act a k =>
      rw [Thread.next_of_prog hp, Option.bind_some, Act.deliversTo_eq] at h
      rw [hp] at hO
      obtain ⟨op, reply, hreply, hr, hacc⟩ := hO.1.2 name r h
      obtain ⟨hn, id, hid⟩ := Act.accepts_claimName hacc h
      exact ⟨f, op, reply, id, hf, hreply, hr, hn, hid⟩

/-- One move, seen from a claim. -/
theorem steps_at (cfg : Config) (w : World) (hx : xs[i]? = some x) (name : String) :
    Claim.Steps (applied (stateAt cfg w xs i) name x) (stateAt cfg w xs i).shared.coord.nextLease
      (stateAt cfg w xs (i + 1)).shared.coord.nextLease
      ((stateAt cfg w xs i).shared.coord.claims name)
      ((stateAt cfg w xs (i + 1)).shared.coord.claims name) := by
  rcases (moved_at cfg w hx).shared with hs | ⟨y, rfl, hs⟩ |
    ⟨u, e, th, f, a, k, rfl, hth, hp, -, -, hs⟩ <;> rw [hs]
  · exact .of_eq rfl (.inl rfl)
  · obtain ⟨g, hg⟩ := outside_claims (stateAt cfg w xs i).shared y name
    show Claim.Steps _ _ _ _ ((outside y _).coord.claims name)
    rw [hg]
    exact .of_eq rfl (.inl rfl)
  · rw [applied, inFlight_of_prog hth hp]
    exact exec_steps cfg e _ a name

theorem stored_le_succ (cfg : Config) (w : World) (hx : xs[i]? = some x) (name : String) :
    stored (stateAt cfg w xs i) name ≤ stored (stateAt cfg w xs (i + 1)) name := by
  unfold stored
  rcases (moved_at cfg w hx).shared with hs | ⟨y, -, hs⟩ | ⟨u, e, th, f, a, k, -, -, -, -, -, hs⟩ <;>
    rw [hs]
  · exact outside_stored_le _ y name
  · exact exec_stored_le cfg e _ a name

theorem nextLease_le_succ (cfg : Config) (w : World) (hx : xs[i]? = some x) :
    (stateAt cfg w xs i).shared.coord.nextLease ≤
      (stateAt cfg w xs (i + 1)).shared.coord.nextLease := by
  rcases (moved_at cfg w hx).shared with hs | ⟨y, -, hs⟩ | ⟨u, e, th, f, a, k, -, -, -, -, -, hs⟩ <;>
    rw [hs]
  · exact Nat.le_of_eq (outside_nextLease _ y).symm
  · exact exec_nextLease_le cfg e _ a

theorem inOrder_applied (hx : inOrder (stateAt cfg w xs i) x = true) {name : String}
    {record r : ClaimRecord} (hrec : applied (stateAt cfg w xs i) name x = some record) {v : Nat}
    (hv : inFlight (stateAt cfg w xs i) v name = some r) :
    record.fencingToken ≤ r.fencingToken := by
  cases x with
  | start t | env y => cases hrec
  | run u e =>
    have hlt : v < (stateAt cfg w xs i).clock := by
      unfold inFlight at hv
      cases hth : (stateAt cfg w xs i).threads v with
      | none => rw [hth] at hv; cases hv
      | some th => exact ((tracks_at cfg w xs i).2 v th hth).1
    have hdel : (((stateAt cfg w xs i).threads u).bind Thread.next).bind Act.delivers =
        some (name, record) := by
      rw [applied, inFlight] at hrec
      cases hn : ((stateAt cfg w xs i).threads u).bind Thread.next with
      | none => rw [hn] at hrec; cases hrec
      | some a => rw [hn] at hrec; exact Act.deliversTo_eq.mp hrec
    simp only [inOrder, hdel, List.all_eq_true, List.mem_range] at hx
    simpa [hv] using hx v hlt

/-- **One move keeps the invariant.** -/
theorem Bounds.step (hfresh : Fresh cfg (stateAt cfg w xs i).shared (watchAt cfg w xs i))
    (hx : xs[i]? = some x) (hord : inOrder (stateAt cfg w xs i) x = true)
    (h : Bounds (stateAt cfg w xs i)) : Bounds (stateAt cfg w xs (i + 1)) := by
  have hsteps := fun name => steps_at cfg w hx name
  have hstored := fun name => stored_le_succ cfg w hx name
  have hnext := nextLease_le_succ cfg w hx
  -- The cached record stays, or a record on its way arrives.
  have hcached : ∀ name, cached (stateAt cfg w xs i) name ≤ cached (stateAt cfg w xs (i + 1)) name ∧
      cached (stateAt cfg w xs (i + 1)) name ≤ stored (stateAt cfg w xs i) name := by
    intro name
    rcases (hsteps name).record with hr | hr
    · rw [cached, cached, hr]
      exact ⟨Nat.le_refl _, h.cached_le name⟩
    · cases x with
      | run u e => exact h.flight u name _ hr
      | start t | env y => cases hr
  refine ⟨fun name => Nat.le_trans (hcached name).2 (hstored name), fun v name r hv => ?_,
    fun name l hl => ?_⟩
  · rcases (moved_at cfg w hx).thread v with ⟨hth, -⟩ | ⟨t, -, hG⟩ |
      ⟨e, th, f, a, k, rfl, hth, hp, hf, ha, hs, -, hG⟩
    · have hv' : inFlight (stateAt cfg w xs i) v name = some r := by
        rw [← hv, inFlight, inFlight, hth]
      refine ⟨?_, Nat.le_trans (h.flight v name r hv').2 (hstored name)⟩
      rcases (hsteps name).record with hr | hr
      · rw [cached, hr]; exact (h.flight v name r hv').1
      · exact inOrder_applied hord hr hv'
    · -- A thread at the start of a task has received nothing.
      obtain ⟨f, op, reply, id, hf, hreply, -⟩ := inFlight_reply hv
      rw [hG] at hf
      cases hf
      cases hreply
    · obtain ⟨f', op, reply, id, hf', hreply, hr, hn, hid⟩ := inFlight_reply hv
      rw [hG, Option.some.injEq] at hf'
      subst hf'
      obtain ⟨rfl, hans⟩ := Flow.after_reply hreply
      have hans := eq_of_heq hans
      subst hans
      have hst : stored (stateAt cfg w xs (i + 1)) name = r.fencingToken := by
        rw [stored, hs]
        exact congrArg _ (Memory.Backend.recordOf_of_some (hfresh.confirmed hf ha hn hid hr).1)
      rw [← hst]
      exact ⟨Nat.le_trans (hcached name).2 (hstored name), Nat.le_refl _⟩
  · rcases (hsteps name).lease l hl with hl₀ | ⟨ht, -, hid⟩
    · obtain ⟨htok, hid⟩ := h.lease name l hl₀
      exact ⟨Nat.le_trans htok (hcached name).1, Nat.lt_of_lt_of_le hid hnext⟩
    · refine ⟨Nat.le_of_eq ht, ?_⟩
      rcases hid with ⟨hid, hlt⟩ | ⟨l₀, hl₀, hid⟩
      · rw [hid]; exact hlt
      · rw [hid]; exact Nat.lt_of_lt_of_le (h.lease name l₀ hl₀).2 hnext

/-- The invariant along a schedule in which every record is applied in order. -/
theorem bounds_at (hw : w.Ready cfg) (hclaims : w.coord.claims = fun name => { name })
    (hclients : ∀ c op, Move.env (.client c op) ∈ xs → op.Foreign cfg.generationID)
    (hxs : Run.Meets (system cfg).step inOrder { shared := w } xs) (hi : i ≤ xs.length) :
    Bounds (stateAt cfg w xs i) := by
  refine Run.along (J := fun i => i ≤ xs.length → Bounds (stateAt cfg w xs i)) (fun _ => ?_)
    (fun i x hx ih hi => ?_) hi hi
  · refine ⟨fun name => ?_, fun u name r h => (by cases h), fun name l h => ?_⟩
    · show (w.coord.claims name).record.fencingToken ≤ _
      rw [hclaims]
      exact Nat.zero_le _
    · rw [show (stateAt cfg w xs 0).shared.coord.claims name = { name } from
        congrFun hclaims name] at h
      cases h
  · have hi := Nat.le_of_succ_le hi
    exact (ih hi).step (fresh_at hw hclients hi) hx (Run.meets_getElem hxs hx)

end

/-- **Late responses do not roll back.** The coordinator is new, and other clients use operation IDs
of their own. In every schedule in which no record is applied while one with a smaller token is on
its way to the claim, the token of the claim never decreases, nor does the token of a lease. -/
theorem late_responses (cfg : Config) (now : Time) (b : Memory.Backend)
    (hb : ∀ op claim n, b.ops (opID cfg.generationID op claim n) = none) (xs : Schedule)
    (hclients : ∀ c op, Move.env (.client c op) ∈ xs → op.Foreign cfg.generationID)
    (hxs : Run.Meets (system cfg).step inOrder { shared := World.new cfg now b } xs)
    (name : String) {i j : Nat} (hij : i ≤ j) (hj : j ≤ xs.length) :
    let claim := fun i => (stateAt cfg (World.new cfg now b) xs i).shared.coord.claims name
    (claim i).record.fencingToken ≤ (claim j).record.fencingToken ∧
      ∀ l l', (claim i).lease = some l → (claim j).lease = some l' → l'.id = l.id →
        l.token ≤ l'.token := by
  intro claim
  have hbounds := fun {k : Nat} (hk : k ≤ xs.length) =>
    bounds_at (World.new_ready cfg now b hb) (World.new_claims cfg now b) hclients hxs hk
  -- The identity of a lease is below the next one, so it does not come back.
  have key : (claim i).record.fencingToken ≤ (claim j).record.fencingToken ∧
      ∀ l, (claim i).lease = some l → l.id <
        (stateAt cfg (World.new cfg now b) xs j).shared.coord.nextLease ∧
        ∀ l', (claim j).lease = some l' → l'.id = l.id → l.token ≤ l'.token := by
    induction hij with
    | refl =>
      refine ⟨Nat.le_refl _, fun l hl => ⟨((hbounds hj).lease name l hl).2, fun l' hl' _ => ?_⟩⟩
      rw [hl] at hl'
      cases hl'
      exact Nat.le_refl _
    | @step j hij ih =>
      have hj' := Nat.le_of_succ_le hj
      obtain ⟨ihr, ihl⟩ := ih hj'
      obtain ⟨x, hx⟩ : ∃ x, xs[j]? = some x := ⟨xs[j], List.getElem?_eq_getElem hj⟩
      have hsteps := steps_at cfg (World.new cfg now b) hx name
      have hrec : (claim j).record.fencingToken ≤ (claim (j + 1)).record.fencingToken := by
        rcases hsteps.record with hr | hr
        · exact Nat.le_of_eq (congrArg (·.fencingToken) hr).symm
        · cases x with
          | run u e => exact ((hbounds hj').flight u name _ hr).1
          | start t | env y => cases hr
      refine ⟨Nat.le_trans ihr hrec, fun l hl => ?_⟩
      obtain ⟨hlt, hle⟩ := ihl l hl
      refine ⟨Nat.lt_of_lt_of_le hlt (nextLease_le_succ cfg _ hx), fun l' hl' hid => ?_⟩
      rcases hsteps.lease l' hl' with hold | ⟨ht, -, ⟨hnew, -⟩ | ⟨l₀, hl₀, hid₀⟩⟩
      · exact hle l' hold hid
      · rw [hid] at hnew
        exact absurd hnew (Nat.ne_of_lt hlt)
      · -- The old token is bounded by the cached record, the new one is that of the new record.
        refine Nat.le_trans (hle l₀ hl₀ (hid₀.symm.trans hid)) ?_
        rw [ht]
        exact Nat.le_trans ((hbounds hj').lease name l₀ hl₀).1 hrec
  exact ⟨key.1, fun l l' hl => (key.2 l hl).2 l'⟩

/-! ## A renewal that is overtaken -/

/-- A claim is acquired and its renewal loop has sent a request; thread 13 is the loop. -/
def renewalSent : Schedule :=
  alone 0 (.claim "c") .atOne 2 ++ alone 3 (.tryAcquire "c") .atOne 11 ++
    List.replicate 5 (.run 13 .atOne)

/-- The claim is released and acquired again. -/
def reacquired (u : Nat) : Schedule :=
  alone u (.release "c") .atOne 5 ++ alone (u + 6) (.tryAcquire "c") .atOne 9

/-- The response to the renewal is applied after the claim was released and acquired again: the
token of the new lease goes from 2 back to 1. -/
theorem renewal_rolls_back :
    let xs := renewalSent ++ reacquired 20 ++ [.run 13 .atOne]
    let claim := fun i =>
      (stateAt (.sample "g") (World.new (.sample "g") 1 Memory.new) xs i).shared.coord.claims "c"
    ((claim 36).record.fencingToken, (claim 36).lease) = (2, some ⟨1, 2⟩) ∧
      ((claim 37).record.fencingToken, (claim 37).lease) = (1, some ⟨1, 1⟩) := by
  decide +kernel

/-- The same calls, with the response applied before the claim is released. -/
theorem late_responses_in_order :
    let xs := renewalSent ++ .run 13 .atOne :: reacquired 21
    let claim := fun i =>
      (stateAt (.sample "g") (World.new (.sample "g") 1 Memory.new) xs i).shared.coord.claims "c"
    (claim 20).record.fencingToken = 1 ∧ (claim 37).record.fencingToken = 2 ∧
      (claim 20).record.fencingToken ≤ (claim 37).record.fencingToken := by
  intro xs claim
  refine ⟨by decide +kernel, by decide +kernel, ?_⟩
  exact (late_responses (.sample "g") 1 Memory.new (fun _ _ _ => rfl) xs
    (by simp [xs, renewalSent, reacquired, alone]) (by decide +kernel) "c"
    (by decide) (by decide)).1

end ShiftLock.Coord
