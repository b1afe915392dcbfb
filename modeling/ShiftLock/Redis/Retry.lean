import ShiftLock.Redis.Backend

/-!
# Retried commits on the Redis backend

`recallOp`, `GetClaim`, the script and `storeOp` are four round trips, and `storeOp` overwrites
whatever the operation key holds. A submission that read the old state and comes late with its
script is refused, and stores its refusal over the success of another one
(`late_refusal_overwrites`). Where no refusal overwrites a success, the outcome stays:
every later submission recalls it with its first command (`commit_retry_keeps_outcome`).

A monitor follows each thread: it is `true` once the thread has read or written a success under the
operation ID. The invariant is that the key holds a success from then on.
-/

namespace ShiftLock.Redis

open Memory (Reply)
open Conc

variable (id : OperationID)

/-- The thread has read or written a success under `id`. -/
def sawSuccess : Prog.Monitor Cmd Cmd.Answer Bool where
  allows _ _ := True
  after g
    | .getOp id', (r : Option StoredOp) => g || (decide (id' = id) && r.any StoredOp.isOk)
    | .setOp id' v, _ => g || (decide (id' = id) && v.isOk)
    | _, _ => g

/-- A `CommitTransfer` under `id` that returns a success has seen or stored one. -/
def Reported (t : Task) (g : Bool) (x : Reply ⊕ Task) : Prop :=
  ∀ req : CommitRequest, t = .commitTransfer req → req.operationID = id →
    ∀ r : Reply, x = .inl r → r.err = none → g = true

variable {id}

theorem obeys_of_forall {α : Type} {Q : Bool → α → Prop} (hQ : ∀ g x, Q g x) (p : Client α)
    (g : Bool) : Prog.Obeys (sawSuccess id) Q p g := by
  induction p generalizing g with
  | ret x => exact hQ g x
  | act a k ih => exact ⟨trivial, fun r => ih r _⟩

theorem storeOp_obeys (hid : id ≠ "") (r : Reply) (g : Bool) :
    Prog.Obeys (sawSuccess id) (fun g' (r' : Reply) => r'.err = none → g' = true)
      (do storeOp id r; return r) g := by
  unfold storeOp
  rw [if_neg hid]
  refine ⟨trivial, fun _ herr => ?_⟩
  simp [sawSuccess, StoredOp.ofReply, herr, StoredOp.isOk]

theorem commitEval_obeys {req : CommitRequest} (hid : req.operationID ≠ "") (g : Bool) :
    Prog.Obeys (sawSuccess req.operationID) (fun g' (r : Reply) => r.err = none → g' = true)
      (commitEval req) g := by
  refine ⟨trivial, fun now => ⟨trivial, fun v => ?_⟩⟩
  cases v with
  | error text => exact fun h => by cases h
  | ok v => exact storeOp_obeys hid (parsed v) _

theorem commitTransfer_obeys {req : CommitRequest} (hid : req.operationID ≠ "") :
    Prog.Obeys (sawSuccess req.operationID) (fun g' (r : Reply) => r.err = none → g' = true)
      (commitTransfer req) false := by
  unfold commitTransfer recallOp
  rw [if_neg hid]
  refine ⟨trivial, fun (stored : Option StoredOp) => ?_⟩
  cases stored with
  | some v =>
    -- A recalled success is a success under the operation ID.
    intro herr
    cases v with
    | ok claim => simp [sawSuccess, StoredOp.isOk]
    | failed code claim => cases herr
  | none =>
    refine ⟨trivial, fun (raw : Option ClaimJSON) => ?_⟩
    cases raw with
    | none => exact commitEval_obeys hid _
    | some obj =>
      show Prog.Obeys _ _ (if alreadyCommitted req (fromJSON obj) then _ else _) _
      split
      · exact storeOp_obeys hid _ _
      · exact commitEval_obeys hid _

theorem task_obeys (hid : id ≠ "") (t : Task) :
    Prog.Obeys (sawSuccess id) (Reported id t) (clients.code t) false := by
  by_cases ht : ∃ req, t = .commitTransfer req ∧ req.operationID = id
  · obtain ⟨req, rfl, rfl⟩ := ht
    refine (commitTransfer_obeys hid).bind fun g r hg => ?_
    rintro _ _ _ r' hr
    cases hr
    exact hg
  · exact obeys_of_forall (fun _ _ req h h' => absurd ⟨req, h, h'⟩ ht) _ _

/-! ## The operation key -/

/-- The operation key holds a success. -/
def Settled (id : OperationID) (s : Store) : Prop := ∃ v, s.ops id = some v ∧ v.isOk = true

/-- The move stores a failure over a success. -/
def overwrites (id : OperationID) (c : Conc.Config Cmd Cmd.Answer Store Task Reply)
    (x : Move Env Empty Task) : Bool :=
  match x with
  | .run u _ =>
    match (c.threads u).bind Thread.next with
    | some (.setOp id' v) => id' = id ∧ v.isOk = false ∧ (c.shared.ops id).any StoredOp.isOk
    | _ => false
  | _ => false

theorem settled_exec {a : Cmd} {e : Env} {s : Store} (h : Settled id s)
    (ha : ∀ v, a = .setOp id v → v.isOk = true) : Settled id (exec a e s).1 := by
  obtain ⟨v, hv, hok⟩ := h
  cases a with
  | now | getClaim name | getOp id' => exact ⟨v, hv, hok⟩
  | setOp id' v' =>
    unfold exec
    dsimp only
    split
    · by_cases hid : id' = id
      · subst hid
        exact ⟨v', by simp, ha v' rfl⟩
      · exact ⟨v, by simp [Ne.symm hid, hv], hok⟩
    · exact ⟨v, hv, hok⟩
  | eval name sc =>
    unfold exec
    dsimp only
    split <;> exact ⟨v, hv, hok⟩

theorem settled_step {c : Conc.Config Cmd Cmd.Answer Store Task Reply} {x : Move Env Empty Task}
    (hx : overwrites id c x = false) (h : Settled id c.shared) :
    Settled id (clients.step c x).shared := by
  rcases clients.step_shared c x with hs | ⟨y, -, -⟩ | ⟨u, e, th, a, k, rfl, hth, hp, hs⟩
  · rw [hs]; exact h
  · exact nomatch y
  · rw [hs]
    refine settled_exec h fun v ha => ?_
    subst ha
    obtain ⟨v', hv', hok⟩ := h
    simpa [overwrites, hth, Thread.next, hp, hv', hok] using hx

section

variable {s : Store} {xs : List (Move Env Empty Task)}

/-- No failure overwrites a success in the whole schedule. -/
def Kept (id : OperationID) (s : Store) (xs : List (Move Env Empty Task)) : Bool :=
  Run.Meets clients.step (fun c x => !overwrites id c x) { shared := s } xs

variable {i u : Nat} {th : Thread Cmd Cmd.Answer Task Reply}

theorem settled_succ (hkept : Kept id s xs = true) (h : Settled id (clients.stateAt s xs i).shared) :
    Settled id (clients.stateAt s xs (i + 1)).shared := by
  cases hx : xs[i]? with
  | none => rwa [Sys.stateAt, Run.stateAt_succ_of_none hx]
  | some x =>
    rw [Sys.stateAt, Run.stateAt_succ hx]
    exact settled_step (by simpa using Run.meets_getElem hkept hx) h

theorem settled_of_le (hkept : Kept id s xs = true) {j : Nat} (hij : i ≤ j)
    (h : Settled id (clients.stateAt s xs i).shared) :
    Settled id (clients.stateAt s xs j).shared := by
  induction hij with
  | refl => exact h
  | step _ ih => exact settled_succ hkept ih

/-- A thread that has seen a success: the key holds one. -/
theorem settled_of_seen (hid : id ≠ "") (hkept : Kept id s xs = true)
    (hfault : ∀ u e, Move.run u e ∈ xs → e.fault = none) (hi : i ≤ xs.length)
    (hth : (clients.stateAt s xs i).threads u = some th)
    (hg : clients.watchAt (sawSuccess id) (fun _ => false) s xs i u = some true) :
    Settled id (clients.stateAt s xs i).shared := by
  refine Sys.each_thread (task_obeys hid)
    (P := fun i _ g => g = true → Settled id (clients.stateAt s xs i).shared)
    (fun _ _ h => by cases h) (fun _ _ _ h hg => settled_succ hkept (h hg)) ?_ hi hth hg rfl
  intro i u e th g a k hx hth hp _ _ hP hs hafter
  cases hgt : g with
  | true => exact settled_succ hkept (hP hgt)
  | false =>
    rw [hs]
    have hnone := hfault u e (List.mem_of_getElem? hx)
    cases a with
    | getOp id' =>
      simp only [sawSuccess, hgt, Bool.false_or, Bool.and_eq_true, decide_eq_true_eq] at hafter
      obtain ⟨rfl, hr⟩ := hafter
      obtain ⟨v, hv, hok⟩ := Option.any_eq_true _ _ |>.mp hr
      refine ⟨v, ?_, hok⟩
      simpa [clients, exec, hnone] using hv
    | setOp id' v =>
      simp only [sawSuccess, hgt, Bool.false_or, Bool.and_eq_true, decide_eq_true_eq] at hafter
      obtain ⟨rfl, hok⟩ := hafter
      exact ⟨v, by simp [clients, exec, Env.applied, hnone], hok⟩
    | now | getClaim name | eval name sc => simp [sawSuccess, hgt] at hafter

/-- A returned success has been seen. -/
theorem settled_of_result {req : CommitRequest} (hid : req.operationID ≠ "")
    (hkept : Kept req.operationID s xs = true) (hfault : ∀ u e, Move.run u e ∈ xs → e.fault = none)
    (hi : i ≤ xs.length) (hth : (clients.stateAt s xs i).threads u = some th)
    (htask : th.task = .commitTransfer req) {r : Reply} (hr : th.result = some r)
    (hok : r.err = none) : Settled req.operationID (clients.stateAt s xs i).shared := by
  obtain ⟨-, g, hg, hobeys⟩ := (Sys.tracks (task_obeys hid) i).2 u th hth
  rw [Thread.prog_of_result hr] at hobeys
  have hgt : g = true := hobeys req htask rfl r rfl hok
  subst hgt
  exact settled_of_seen hid hkept hfault hi hth hg

def Succeeded (th : Thread Cmd Cmd.Answer Task Reply) : Prop :=
  ∃ r : Reply, th.prog = .ret (.inl r) ∧ r.err = none

/-- The first command of a submission that finds a success returns it. -/
theorem recall_settled {req : CommitRequest} (hid : req.operationID ≠ "")
    {c : Conc.Config Cmd Cmd.Answer Store Task Reply} {e : Env} (hth : c.threads u = some th)
    (hp : th.prog = clients.code (.commitTransfer req)) (he : e.fault = none)
    (hs : Settled req.operationID c.shared) :
    ∃ th', (clients.step c (.run u e)).threads u = some th' ∧ Succeeded th' := by
  obtain ⟨v, hv, hok⟩ := hs
  cases v with
  | failed code claim => cases hok
  | ok claim =>
    simp only [clients, Task.code, commitTransfer, recallOp, if_neg hid] at hp
    have hstep : (clients.step c (.run u e)).threads u =
        some { th with prog := .ret (.inl { record := claim }) } := by
      simp only [Sys.step, hth]
      rw [hp]
      simp [Sys.act, clients, exec, he, hv, StoredOp.reply]
    exact ⟨_, hstep, _, rfl, rfl⟩

/-- **Retried commits keep their outcome.** Take any schedule of calls whose commands do not fail
and in which no failure is stored over a success under the operation ID. Once one submission of a
`CommitTransfer` has returned a success, every submission that starts afterwards returns a success,
with its first command. -/
theorem commit_retry_keeps_outcome {req : CommitRequest} (hid : req.operationID ≠ "")
    (hfault : ∀ u e, Move.run u e ∈ xs → e.fault = none)
    (hkept : Kept req.operationID s xs = true) {i u : Nat} (hi : i ≤ xs.length)
    {th : Thread Cmd Cmd.Answer Task Reply} (hth : (clients.stateAt s xs i).threads u = some th)
    (htask : th.task = .commitTransfer req) {r : Reply} (hr : th.result = some r)
    (hok : r.err = none) {j : Nat} (hij : i ≤ j)
    (hj : xs[j]? = some (.start (.commitTransfer req))) {k l : Nat} {e : Env} (hjl : j < l)
    (hl : xs[l]? = some (.run j e)) (hlk : l < k) (hk : k ≤ xs.length) :
    ∃ th' r', (clients.stateAt s xs k).threads j = some th' ∧ th'.result = some r' ∧
      r'.err = none := by
  have hsettled := settled_of_result hid hkept hfault hi hth htask hr hok
  have hclocks : ∀ {m}, m ≤ xs.length → (clients.stateAt s xs m).clock = m := Sys.stateAt_clock
  -- The new thread is at its start until it is run, and done from then on.
  have hinv : ∀ m, j < m → m ≤ xs.length →
      ∃ th', (clients.stateAt s xs m).threads j = some th' ∧
        ((th'.prog = clients.code (.commitTransfer req) ∧ m ≤ l) ∨ Succeeded th') := by
    intro m hjm
    induction hjm with
    | refl =>
      intro hm
      refine ⟨clients.fresh (.commitTransfer req) j, ?_, .inl ⟨rfl, hjl⟩⟩
      have hclock := hclocks (Nat.le_of_succ_le hm)
      rw [Sys.stateAt, Run.stateAt_succ hj]
      simp only [Sys.step, Config.tick_threads, Config.put_threads, hclock, Function.update_self]
    | @step m hjm ih =>
      intro hm
      obtain ⟨th', hth', hcase⟩ := ih (Nat.le_of_succ_le hm)
      have hclock := hclocks (Nat.le_of_succ_le hm)
      have hx := List.getElem?_eq_getElem (Nat.lt_of_succ_le hm)
      generalize xs[m] = x at hx
      rw [Sys.stateAt, Run.stateAt_succ hx]
      by_cases hrun : ∃ e, x = .run j e
      · obtain ⟨e', rfl⟩ := hrun
        rcases hcase with ⟨hp, -⟩ | ⟨r', hp, hok'⟩
        · obtain ⟨th₁, hth₁, hdone⟩ := recall_settled hid hth' hp
            (hfault j e' (List.mem_of_getElem? hx))
            (settled_of_le hkept (Nat.le_trans hij (Nat.le_of_lt hjm)) hsettled)
          exact ⟨th₁, hth₁, .inr hdone⟩
        · refine ⟨th', ?_, .inr ⟨r', hp, hok'⟩⟩
          simp only [Sys.step, hth', hp]
          exact hth'
      · have hne : ∀ e, x ≠ .run j e := fun e h => hrun ⟨e, h⟩
        refine ⟨th', ?_, hcase.imp_left fun hp => ⟨hp.1, ?_⟩⟩
        · rw [clients.step_threads_of_ne _ x (by rw [hclock]; exact hjm) hne]
          exact hth'
        · refine Nat.lt_of_le_of_ne hp.2 fun hml => hne e ?_
          rw [hml, hl] at hx
          exact (Option.some.inj hx).symm
  obtain ⟨th', hth', hcase⟩ := hinv k (Nat.lt_trans hjl hlk) hk
  rcases hcase with ⟨-, hkl⟩ | ⟨r', hp, hok'⟩
  · omega
  · exact ⟨th', r', hth', by simp [Thread.result, hp], hok'⟩

end

/-! ## Two schedules -/

/-- Claim "c" is reserved by "g" for "s" until time 100. -/
def reservedStore : Store where
  claims := Function.update (fun _ => none) "c" (some {
    name := "c", ownerGeneration := "g", fencingToken := 1, phase := .reserved, expiresAt := 100
    pendingSuccessor := "s", transferStatus := .prepared, drainStatus := .complete })

def commitOp : CommitRequest where
  claimName := "c"
  fromGeneration := "g"
  toGeneration := "s"
  expectedToken := 1
  ttl := 10
  operationID := "op"

/-- One submission runs to its end, and then another one. -/
def submittedTwice : List (Move Env Empty Task) :=
  alone 0 (.commitTransfer commitOp) { now := 5 } 5 ++
    alone 6 (.commitTransfer commitOp) { now := 6 } 1

/-- The second submission succeeds as the first one did. -/
theorem commit_retry_keeps_outcome_twice :
    ∃ th' r', (clients.stateAt reservedStore submittedTwice 8).threads 6 = some th' ∧
      th'.result = some r' ∧ r'.err = none := by
  have hdone : (((clients.stateAt reservedStore submittedTwice 6).threads 0).bind
      Thread.result).map (·.err) = some none := by decide +kernel
  have htask : ((clients.stateAt reservedStore submittedTwice 6).threads 0).map (·.task) =
      some (.commitTransfer commitOp) := by decide +kernel
  obtain ⟨r, hr, hok⟩ := Option.map_eq_some_iff.mp hdone
  obtain ⟨th, hth, hres⟩ := Option.bind_eq_some_iff.mp hr
  rw [hth] at htask
  have hfault : ∀ u e, Move.run u e ∈ submittedTwice → e.fault = none := by
    intro u e h
    simp only [submittedTwice, alone, List.replicate, List.cons_append, List.nil_append,
      List.mem_cons, Move.run.injEq, reduceCtorEq, List.not_mem_nil, or_false, false_or] at h
    rcases h with h | h | h | h | h | h <;> rw [h.2]
  have hid : commitOp.operationID ≠ "" := by decide
  exact commit_retry_keeps_outcome hid (l := 7) hfault (by decide +kernel) (by decide) hth (Option.some.inj htask)
    hres hok (Nat.le_refl _) rfl (by decide) rfl (by decide) (by decide)

/-- Two submissions read the reserved claim; one commits it and returns, then the other one runs its
script, is refused and stores the refusal. A third one starts. -/
def lateRefusal : List (Move Env Empty Task) :=
  [.start (.commitTransfer commitOp), .start (.commitTransfer commitOp), .run 0 { now := 5 },
    .run 0 { now := 5 }, .run 1 { now := 5 }, .run 1 { now := 5 }, .run 0 { now := 5 },
    .run 0 { now := 5 }, .run 0 { now := 5 }, .run 1 { now := 6 }, .run 1 { now := 6 },
    .run 1 { now := 6 }, .start (.commitTransfer commitOp), .run 12 { now := 7 }]

/-- The first submission has returned a success after nine moves, the claim does not change any
more, and the third submission, which starts with move 12, fails. -/
theorem late_refusal_overwrites :
    (((clients.stateAt reservedStore lateRefusal 9).threads 0).bind Thread.result).map (·.err) =
        some none ∧
      (∀ m < 6, (clients.stateAt reservedStore lateRefusal (9 + m)).shared.claims "c" =
        (clients.stateAt reservedStore lateRefusal 9).shared.claims "c") ∧
      lateRefusal[12]? = some (.start (.commitTransfer commitOp)) ∧
      (((clients.stateAt reservedStore lateRefusal 14).threads 12).bind Thread.result).map (·.err) =
        some (some (.of .noTransfer)) := by
  refine ⟨by decide +kernel, by decide +kernel, rfl, by decide +kernel⟩

end ShiftLock.Redis
