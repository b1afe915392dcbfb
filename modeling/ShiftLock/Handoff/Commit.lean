import ShiftLock.Handoff.Books

/-!
# What `Commit` returns

When `Commit` returns nil, the reservations of its handoff have been handed over: each to the successor
that it was made for, with the next token (`commit_truthful`). The calls on the handoff are made one
after the other, and everything else runs beside them: the timeout watcher, renewals, other calls of the
coordinator and other clients of the backend, with any pattern of failures.

`Commit` does not look whether the handoff has failed. A handoff whose entries were rolled back or were
replaced after its `Transfer` has nothing to commit, and `Commit` returns nil for it
(`commit_untruthful`); the result is about runs in which nobody calls it then (`notFailed`).
-/

namespace ShiftLock.Coord

open Conc

/-- The calls on handoffs are made one after the other, on handoff `h`, which exists. -/
def oneHandoff (h : Nat) (c : State) : Move Env Outside Task → Bool
  | .start t =>
    match t.handoff with
    | none => true
    | some h' => h' = h && h < c.shared.coord.handoffs && c.idleOf fun t => t.handoff.isSome
  | _ => true

/-- `Commit` is not called on a handoff that has failed since its transfer. -/
def notFailed (_ : Task) (a : Act) (_ : Env) (w : World) : Bool :=
  match a with
  | .commitBegin h => !((w.handoffs h).transferDone && (w.handoffs h).status = .failed)
  | _ => true

section

variable (cfg : Config) (w : World) (xs : Schedule) (h : Nat)

/-- Handoff `h` has been committed by move `i`. -/
def Done (i : Nat) : Prop :=
  ∃ j ≤ i, ((stateAt cfg w xs j).shared.handoffs h).status = .committed

/-- Between two calls on the handoff. -/
def Rests (i : Nat) (w' : World) : Prop :=
  (w'.coord.handoffs ≤ h → (w'.handoffs h).transferDone = false ∧
    (w'.handoffs h).status ≠ .committed ∧ ∀ n t s, ¬ Due cfg w xs i n t s) ∧
  Phase.Good cfg.generationID (Due cfg w xs i) (Done cfg w xs h i) w'.coord (w'.handoffs h) .plain

def Calls (i : Nat) (w' : World) (g : Stage) : Prop :=
  ∃ p, g = .inside h p ∧ h < w'.coord.handoffs ∧
    Phase.Good cfg.generationID (Due cfg w xs i) (Done cfg w xs h i) w'.coord (w'.handoffs h) p

end

variable {cfg : Config} {w : World} {xs : Schedule} {h i u : Nat} {e : Env} {th : Thread} {a : Act}
  {n s : String} {t : FencingToken} {p : Phase} {w₁ w₂ : World}

/-! ## One move -/

theorem due_after (hx : xs[i]? = some (.run u e)) (hth : (stateAt cfg w xs i).threads u = some th)
    (hnext : th.next = some a) (hd : Due cfg w xs (i + 1) n t s) :
    Dues.after (Due cfg w xs i) a (exec cfg a e (stateAt cfg w xs i).shared).2 n t s := by
  rcases hd.of_succ with hres | ⟨hd, hnores, hnocommit⟩
  · obtain ⟨req, record, rfl, hr, rfl, rfl, rfl⟩ := hres.of_run hx hth hnext
    simp only [Dues.after, hr]
    simp
  cases a with
  | call op =>
    cases op with
    | prepareTransfer req =>
      cases hr : (exec cfg (.call (.prepareTransfer req)) e (stateAt cfg w xs i).shared).2.result with
      | error err => simpa only [Dues.after, hr] using hd
      | ok record =>
        have hne : n ≠ req.claimName := by
          rintro rfl
          exact hnores _ _ ⟨req, _, record, ⟨u, e, th, hx, hth, hnext, rfl⟩, hr, rfl, rfl, rfl⟩
        simpa only [Dues.after, hr, if_neg hne] using hd
    | commitTransfer req =>
      cases hr : (exec cfg (.call (.commitTransfer req)) e (stateAt cfg w xs i).shared).2.result with
      | error err => simpa only [Dues.after, hr] using hd
      | ok record =>
        simp only [Dues.after, hr]
        refine ⟨hd, ?_⟩
        rintro ⟨rfl, rfl, rfl⟩
        exact hnocommit record ⟨req, _, ⟨u, e, th, hx, hth, hnext, rfl⟩, hr, rfl, rfl, rfl⟩
    | _ => exact hd
  | _ => exact hd

/-- A move that does not perform an action of a `Transfer`. -/
theorem due_before (hx : ∀ u e th req, xs[i]? = some (.run u e) →
      (stateAt cfg w xs i).threads u = some th → th.next ≠ some (.call (.prepareTransfer req)))
    (hd : Due cfg w xs (i + 1) n t s) : Due cfg w xs i n t s := by
  rcases hd.of_succ with hres | ⟨hd, -⟩
  · obtain ⟨u, e, th, a, hi, hth, hnext, req, rfl⟩ := hres.acts
    exact absurd hnext (hx u e th req hi hth)
  · exact hd

theorem Done.of_succ (hd : Done cfg w xs h (i + 1)) :
    Done cfg w xs h i ∨ ((stateAt cfg w xs (i + 1)).shared.handoffs h).status = .committed := by
  obtain ⟨j, hj, hs⟩ := hd
  rcases Nat.le_succ_iff.mp hj with hj | rfl
  · exact .inl ⟨j, hj, hs⟩
  · exact .inr hs

section

variable (hdue : ∀ n t s, Due cfg w xs (i + 1) n t s → Due cfg w xs i n t s)
  (ha : Aside cfg.generationID h (stateAt cfg w xs i).shared (stateAt cfg w xs (i + 1)).shared)

include hdue ha

/-- A call goes on beside what the others do. -/
theorem Calls.aside {g : Stage} (hc : Calls cfg w xs h i (stateAt cfg w xs i).shared g) :
    Calls cfg w xs h (i + 1) (stateAt cfg w xs (i + 1)).shared g := by
  obtain ⟨p, rfl, hh, hb, hp⟩ := hc
  have hspared := ha.handoff.resolve_right fun hnew => Nat.not_lt.mpr hnew.1 hh
  refine ⟨p, rfl, Nat.lt_of_lt_of_le hh ha.count, ?_, (hp.spared hspared).mono hdue⟩
  exact (hb.spared hspared ha.record).mono hdue Done.of_succ

/-- Nothing happens to a handoff between two calls on it, except that it is created or aborted. -/
theorem Rests.aside (hr : Rests cfg w xs h i (stateAt cfg w xs i).shared) :
    Rests cfg w xs h (i + 1) (stateAt cfg w xs (i + 1)).shared := by
  obtain ⟨habsent, hb, ho⟩ := hr
  rcases ha.handoff with hspared | ⟨hnew, hdone, hpending⟩
  · refine ⟨fun hle => ?_, (hb.spared hspared ha.record).mono hdue Done.of_succ,
      (hspared.orderly ho).mono hdue⟩
    obtain ⟨hdone, hs, hnone⟩ := habsent (Nat.le_trans ha.count hle)
    exact ⟨hspared.transferDone.trans hdone, hspared.status_ne (by simp) hs, fun n t s hd =>
      hnone n t s (hdue n t s hd)⟩
  · obtain ⟨-, hs, hnone⟩ := habsent hnew
    have hnone : ∀ n t s, ¬ Due cfg w xs (i + 1) n t s := fun n t s hd => hnone n t s (hdue n t s hd)
    refine ⟨fun _ => ⟨hdone, by simp [hpending], hnone⟩, ⟨fun hd => ?_, fun hc => ?_, ?_, ?_⟩, ?_, ?_⟩
    · rw [hdone] at hd
      cases hd
    · exact hc.of_succ.elim (fun hc => absurd (hb.stable hc) hs) id
    · exact fun n t s hd => absurd hd (hnone n t s)
    · exact fun n t s hd => absurd hd (hnone n t s)
    · exact fun n t s hd => absurd hd (hnone n t s)
    · intro htransferring
      rw [hpending] at htransferring
      cases htransferring

end

/-- The end of a call on the handoff. -/
theorem Phase.Good.rests {D : Dues} {C : Prop} {c : Coord} {x : Handoff} {genID : String}
    (hg : Phase.Good genID D C c x p)
    (hp : p = .plain ∨ p = .draining ∨ p = .rolling ∨ p = .committed) :
    Phase.Good genID D C c x .plain := by
  obtain ⟨hb, hh⟩ := hg
  rcases hp with rfl | rfl | rfl | rfl
  · exact ⟨hb, hh⟩
  · exact ⟨hb, hh.2⟩
  · exact ⟨hb, fun _ _ _ _ => hh.1, fun hs => absurd hs hh.2⟩
  · exact ⟨hb, hh.2⟩

/-- Nothing is due in a committed handoff, wherever a call on it is. -/
theorem Phase.Holds.nothing_due {D : Dues} {x : Handoff} {genID : String} (hp : p.Holds genID D x)
    (hs : x.status = .committed) (n : String) (t : FencingToken) (s : String) : ¬ D n t s := by
  have hloop {l : Loop} (hl : InLoop x l) : False := by
    rcases hl.status with h | h <;> rw [hs] at h <;> cases h
  cases p with
  | plain => exact fun hd => hp.done n t s hd hs
  | draining | rolling => exact absurd hs hp.1
  | reserving l | reserved l n record | applied l n t | committing l tokens | settled l tokens n record =>
    exact (hloop hp.1).elim
  | broken => exact absurd hs hp
  | committed => exact fun hd => hp.2.done n t s hd hs

/-! ## Whole runs -/

section

variable (hgen : cfg.generationID ≠ "") (hw : w.Ready cfg) (hb : w.backend.Issued)
  (hclients : ∀ c op, Move.env (.client c op) ∈ xs → op.Foreign cfg.generationID)

include hgen hw hb hclients

/-- A move of somebody else. -/
theorem move_aside {x : Move Env Outside Task} (hx : xs[i]? = some x)
    (hother : ∀ u e th, x = .run u e → (stateAt cfg w xs i).threads u = some th → th.next ≠ none →
      th.task.handoff.isSome = false) :
    (∀ n t s, Due cfg w xs (i + 1) n t s → Due cfg w xs i n t s) ∧
      Aside cfg.generationID h (stateAt cfg w xs i).shared (stateAt cfg w xs (i + 1)).shared := by
  have hi : i ≤ xs.length := Nat.le_of_lt (List.getElem?_eq_some_iff.mp hx).1
  have hacts {u : Nat} {e : Env} {th : Thread} {a : Act} (hrun : x = .run u e)
      (hth : (stateAt cfg w xs i).threads u = some th) (hnext : th.next = some a) :
      th.task.handoff = none ∧ (a.beside = true ∨ ∃ n record, a = .applyRecord n record) := by
    have ht := Option.isSome_eq_false_iff.mp (hother u e th hrun hth (by simp [hnext]))
    rw [Option.isNone_iff_eq_none] at ht
    exact ⟨ht, outsider_acts hi hth hnext ht⟩
  refine ⟨fun n t s => due_before fun u e th req hrun hth hnext => ?_, ?_⟩
  · rw [hx, Option.some.injEq] at hrun
    rcases (hacts hrun hth hnext).2 with hbeside | ⟨_, _, happly⟩
    · cases hbeside
    · cases happly
  rw [show stateAt cfg w xs (i + 1) = (system cfg).step (stateAt cfg w xs i) x from
    Run.stateAt_succ hx]
  rcases (system cfg).step_shared (stateAt cfg w xs i) x with
    hs | ⟨y, -, hs⟩ | ⟨u, e, th, a, k, hrun, hth, hp, hs⟩
  · rw [hs]
    exact .refl ..
  · rw [hs]
    exact outside_aside y
  · have hnext := Thread.next_of_prog hp
    obtain ⟨ht, ha⟩ := hacts hrun hth hnext
    rw [hs]
    refine exec_aside ha fun n record hd => ?_
    exact (delivered_controls hw hb hclients hgen hi hth hnext hd).resolve_right fun hc => hc.1 ht

theorem move_own {g : Stage} (hx : xs[i]? = some (.run u e))
    (hth : (stateAt cfg w xs i).threads u = some th) (hnext : th.next = some a)
    (hcond : notFailed th.task a e (stateAt cfg w xs i).shared = true) (ha : g.allows a)
    (hc : Calls cfg w xs h i (stateAt cfg w xs i).shared g) :
    Calls cfg w xs h (i + 1) (exec cfg a e (stateAt cfg w xs i).shared).1
      (g.after a (exec cfg a e (stateAt cfg w xs i).shared).2) := by
  obtain ⟨p, rfl, hh, hg⟩ := hc
  have hi : i ≤ xs.length := Nat.le_of_lt (List.getElem?_eq_some_iff.mp hx).1
  have hgenID : (stateAt cfg w xs i).shared.genID = cfg.generationID :=
    (fresh_at hw hclients hi).genID
  have hshared : (stateAt cfg w xs (i + 1)).shared =
      (exec cfg a e (stateAt cfg w xs i).shared).1 := by
    obtain ⟨k, hp⟩ := Thread.prog_of_next hnext
    rw [show stateAt cfg w xs (i + 1) = (system cfg).step (stateAt cfg w xs i) (.run u e) from
      Run.stateAt_succ hx]
    exact (system cfg).step_act_shared hth hp e
  have hgood : Phase.Good cfg.generationID
      (Dues.after (Due cfg w xs i) a (exec cfg a e (stateAt cfg w xs i).shared).2)
      (Done cfg w xs h i) (exec cfg a e (stateAt cfg w xs i).shared).1.coord
      ((exec cfg a e (stateAt cfg w xs i).shared).1.handoffs h)
      (p.after h a (exec cfg a e (stateAt cfg w xs i).shared).2) := by
    rw [← hgenID] at hg ⊢
    rcases ha with hbeside | hown
    · rw [Dues.after_beside _ (.inl hbeside)]
      refine Phase.step_beside hg hh hbeside fun n record hd => ?_
      rw [hgenID]
      refine (delivered_controls hw hb hclients hgen hi hth hnext hd).resolve_right ?_
      rintro ⟨-, rfl⟩
      cases hbeside
    · refine Phase.step_own hg hown ?_ ?_
      · rintro req record rfl hr
        obtain ⟨hclient, ⟨howner, -, hphase, -⟩, htoken⟩ :=
          answered hw hb hclients hx hth hnext rfl hr
        rw [hgenID]
        have howner := howner.trans (Option.some.inj hclient)
        exact ClaimRecord.controls_iff.mpr ⟨howner, htoken (by rwa [howner]), by simp [hphase]⟩
      · rintro rfl hdone hfailed
        simp [notFailed, hdone, hfailed] at hcond
  refine ⟨_, rfl, Nat.lt_of_lt_of_le hh (exec_count ..), ?_, ?_⟩
  · refine hgood.1.mono (fun n t s => due_after hx hth hnext) fun hd => ?_
    rw [← hshared]
    exact hd.of_succ
  · exact hgood.2.mono fun n t s => due_after hx hth hnext

variable (hone : Run.Meets (system cfg).step (oneHandoff h) { shared := w } xs = true)
  (hfailed : Run.Meets (system cfg).step (Conc.Config.onAct notFailed) { shared := w } xs = true)

include hone hfailed

theorem takesTurns : (system cfg).TakesTurns Stage.monitor Stage.init Stage.Ends
    (fun t => t.handoff.isSome) w xs (Rests cfg w xs h) (Calls cfg w xs h) where
  obeys := task_stage cfg
  fork a r t hf := by
    rcases fork_cases hf with ⟨name, -, rfl⟩ | ⟨m, -, rfl⟩ <;> rfl
  call i t hx hK := by
    obtain ⟨h', ht⟩ := Option.isSome_iff_exists.mp hK
    have hcond := Run.meets_getElem hone hx
    simp only [oneHandoff, ht, Bool.and_eq_true, decide_eq_true_eq] at hcond
    obtain ⟨⟨rfl, hh⟩, hidle⟩ := hcond
    refine ⟨hidle, fun hr => ⟨.plain, by simp [Stage.init, ht], hh, ?_⟩⟩
    obtain ⟨hdue, -⟩ := move_aside (h := h') hgen hw hb hclients hx fun u e th hrun => by cases hrun
    refine ⟨hr.2.1.mono hdue fun hd => ?_, Orderly.mono hr.2.2 hdue⟩
    have hshared : (stateAt cfg w xs (i + 1)).shared = (stateAt cfg w xs i).shared := by
      rw [show stateAt cfg w xs (i + 1) = (system cfg).step (stateAt cfg w xs i) (.start t) from
        Run.stateAt_succ hx]
      rfl
    rw [← hshared]
    exact hd.of_succ
  own i u e th g a hx hth _ hnext ha hc := by
    obtain ⟨k, hp⟩ := Thread.prog_of_next hnext
    exact move_own hgen hw hb hclients hx hth hnext
      (Conc.Config.of_onAct (Run.meets_getElem hfailed hx) hth hp) ha hc
  jump i t t' w' g hQ := by
    cases ht : t.handoff with
    | none =>
      simp only [Stage.Ends, ht] at hQ
      simp [hQ t' rfl]
    | some h' =>
      simp only [Stage.Ends, ht] at hQ
      obtain ⟨⟨r, hr⟩, -⟩ := hQ
      cases hr
  ret i t x w' g hK hQ hc := by
    obtain ⟨h', ht⟩ := Option.isSome_iff_exists.mp hK
    simp only [Stage.Ends, ht] at hQ
    obtain ⟨-, ⟨p, rfl, hp⟩, -⟩ := hQ
    obtain ⟨p', hg, hh, hgood⟩ := hc
    cases hg
    exact ⟨fun hle => absurd hh (Nat.not_lt.mpr hle), hgood.rests hp⟩
  beside i x hx hother := by
    obtain ⟨hdue, ha⟩ := move_aside hgen hw hb hclients hx hother
    exact ⟨fun hr => hr.aside hdue ha, fun g hc => hc.aside hdue ha⟩

/-- A handoff that has been committed stays committed, and nothing is due of it. -/
theorem nothing_due (hrest : Rests cfg w xs h 0 w) (hi : i ≤ xs.length) (hdone : Done cfg w xs h i)
    (n : String) (t : FencingToken) (s : String) : ¬ Due cfg w xs i n t s := by
  have hturns := (takesTurns hgen hw hb hclients hone hfailed).turns hrest hi
  by_cases hbusy : ∃ u th, (stateAt cfg w xs i).threads u = some th ∧
      th.task.handoff.isSome = true ∧ th.result = none
  · obtain ⟨u, th, hth, hK, hnone⟩ := hbusy
    obtain ⟨-, g, -, p, -, -, hbooks, hp⟩ := hturns.busy u th hth hK hnone
    exact hp.nothing_due (hbooks.stable hdone) n t s
  · obtain ⟨-, hbooks, ho⟩ := hturns.rest fun u th hth hK hnone => hbusy ⟨u, th, hth, hK, hnone⟩
    exact fun hd => ho.done n t s hd (hbooks.stable hdone)

theorem done_of_committed (hrest : Rests cfg w xs h 0 w) (hi : i ≤ xs.length)
    (hth : (stateAt cfg w xs i).threads u = some th)
    (hg : (system cfg).watchAt Stage.monitor Stage.init w xs i u = some (.inside h .committed)) :
    Done cfg w xs h i := by
  have hturns := takesTurns hgen hw hb hclients hone hfailed
  refine Sys.each_thread (task_stage cfg)
    (P := fun i _ g => g = .inside h .committed → Done cfg w xs h i) ?_ ?_ ?_ hi hth hg rfl
  · intro i t hinit
    unfold Stage.init at hinit
    split at hinit <;> cases hinit
  · rintro i th g hdone hg
    obtain ⟨j, hj, hs⟩ := hdone hg
    exact ⟨j, Nat.le_succ_of_le hj, hs⟩
  · intro i u e th g a k hx hth hp hg ha _ hshared hafter
    have hi : i ≤ xs.length := Nat.le_of_lt (List.getElem?_eq_some_iff.mp hx).1
    have hK : th.task.handoff.isSome = true := by
      cases ht : th.task.handoff with
      | some h' => rfl
      | none =>
        obtain rfl := stage_outside hi hth hg ht
        cases hafter
    -- The action takes the call on to its last phase, in which the handoff is committed.
    obtain ⟨-, hcalls⟩ := (hturns.turns hrest hi).active hth hK (by simp [Thread.result, hp]) hg
    have hcalls := hturns.own i u e th g a hx hth hK (Thread.next_of_prog hp) ha hcalls
    rw [hafter] at hcalls
    obtain ⟨p, hinside, -, -, hcommitted⟩ := hcalls
    cases hinside
    refine ⟨i + 1, Nat.le_refl _, ?_⟩
    rw [hshared]
    exact hcommitted.1

end

/-- A new coordinator has no handoff. -/
theorem Rests.new (cfg : Config) (now : Time) (b : Memory.Backend) (xs : Schedule) (h : Nat) :
    Rests cfg (World.new cfg now b) xs h 0 (World.new cfg now b) := by
  have hnone : ∀ n t s, ¬ Due cfg (World.new cfg now b) xs 0 n t s := by
    rintro n t s ⟨k, hk, -⟩
    exact Nat.not_lt_zero k hk
  refine ⟨fun _ => ⟨rfl, by rintro ⟨⟩, hnone⟩, ⟨?_, ?_, ?_, ?_⟩, ?_, ?_⟩
  · rintro ⟨⟩
  · rintro ⟨j, hj, hs⟩
    obtain rfl := Nat.le_zero.mp hj
    exact hs
  · exact fun n t s hd => absurd hd (hnone n t s)
  · exact fun n t s hd => absurd hd (hnone n t s)
  · exact fun n t s hd => absurd hd (hnone n t s)
  · rintro ⟨⟩

/-- **`Commit` tells the truth.** In a run in which it is never called on a handoff that has failed
since its transfer: when a `Commit` call has returned nil, the last reservation of every claim has been
handed over to the successor that it was made for, with the next token. -/
theorem commit_truthful (cfg : Config) (hgen : cfg.generationID ≠ "") (now : Time) (b : Memory.Backend)
    (hops : ∀ op claim k, b.ops (opID cfg.generationID op claim k) = none) (hissued : b.Issued)
    (xs : Schedule) (hclients : ∀ c op, Move.env (.client c op) ∈ xs → op.Foreign cfg.generationID)
    (h : Nat)
    (hone : Run.Meets (system cfg).step (oneHandoff h) { shared := World.new cfg now b } xs = true)
    (hfailed : Run.Meets (system cfg).step (Conc.Config.onAct notFailed)
      { shared := World.new cfg now b } xs = true)
    {i u : Nat} {th : Thread} (hi : i ≤ xs.length)
    (hth : (stateAt cfg (World.new cfg now b) xs i).threads u = some th) (htask : th.task = .commit h)
    (hnil : th.result = some (.error none)) {k : Nat} {n s : String} {t : FencingToken} (hk : k < i)
    (hreserved : Reserves cfg (World.new cfg now b) xs k n t s)
    (hlast : ∀ j, k < j → j < i → ∀ t' s', ¬ Reserves cfg (World.new cfg now b) xs j n t' s') :
    ∃ j record, k < j ∧ j < i ∧ Commits cfg (World.new cfg now b) xs j n t s record ∧
      record.ownerGeneration = s ∧ record.fencingToken = wrapSucc t := by
  have hw : (World.new cfg now b).Ready cfg := World.new_ready cfg now b hops
  have hb : (World.new cfg now b).backend.Issued := hissued
  obtain ⟨-, g, hg, hobeys⟩ := (stage_at i).2 u th hth
  rw [Thread.prog_of_result hnil] at hobeys
  have hends : Stage.Ends th.task g (.inl (.error none)) := hobeys
  rw [htask] at hends
  obtain ⟨-, -, hcommitted⟩ := hends
  rw [hcommitted rfl rfl] at hg
  have hrest := Rests.new cfg now b xs h
  have hdone := done_of_committed hgen hw hb hclients hone hfailed hrest hi hth hg
  have hnotdue := nothing_due hgen hw hb hclients hone hfailed hrest hi hdone n t s
  -- Since the reservation is not due and nothing has taken its place, it has been committed.
  obtain ⟨j, record, hkj, hji, hcommits⟩ : ∃ j record, k < j ∧ j < i ∧
      Commits cfg (World.new cfg now b) xs j n t s record := by
    by_contra hno
    refine hnotdue ⟨k, hk, hreserved, fun j hkj hji => ⟨hlast j hkj hji, fun record hc => ?_⟩⟩
    exact hno ⟨j, record, hkj, hji, hc⟩
  refine ⟨j, record, hkj, hji, hcommits, ?_⟩
  obtain ⟨req, reply, ⟨v, e, th', hx, hth', hnext, rfl⟩, hr, -, rfl, rfl⟩ := hcommits
  obtain ⟨-, ⟨howner, htoken, -⟩, -⟩ := answered hw hb hclients hx hth' hnext rfl hr
  exact ⟨howner, htoken⟩

/-! ## Two runs -/

/-- One claim is acquired, and handoff 0 reserves it for generation `s`. -/
def reservedOne : Schedule :=
  alone 0 (Task.claim "c") Env.atOne 2 ++ alone 3 (Task.tryAcquire "c") Env.atOne 11 ++
    alone 15 Task.prepareHandoff Env.atOne 6 ++
    alone 22 (Task.transfer 0 "s") Env.atOne 23

/-- Move `j` asks the backend for a reservation. -/
def asks (cfg : Config) (w : World) (xs : Schedule) (j : Nat) : Bool :=
  match xs[j]? with
  | some (.run u _) =>
    match ((stateAt cfg w xs j).threads u).bind Conc.Thread.next with
    | some (.call (.prepareTransfer _)) => true
    | _ => false
  | _ => false

theorem Reserves.asks {j : Nat} (hr : Reserves cfg w xs j n t s) : asks cfg w xs j = true := by
  obtain ⟨u, e, th, a, hx, hth, hnext, req, rfl⟩ := hr.acts
  simp [Coord.asks, hx, hth, hnext]

/-- The reservation of `c`. -/
def reservation : TransferRequest :=
  { claimName := "c", fromGeneration := "g", toGeneration := "s", token := 1
    ttl := reservationTTL (Config.sample "g").leaseTTL (Config.sample "g").transferTimeout
    operationID := "g:prepare:c:2" }

/-- `Commit` hands the claim over and returns nil. -/
theorem commit_truthful_reserved :
    let xs := reservedOne ++ alone 46 (.commit 0) .atOne 13
    ∃ j record, 39 < j ∧ j < 60 ∧
      Commits (.sample "g") (World.new (.sample "g") 1 Memory.new) xs j "c" 1 "s" record ∧
      record.ownerGeneration = "s" ∧ record.fencingToken = wrapSucc 1 := by
  intro xs
  have hret : ((stateAt (.sample "g") (World.new (.sample "g") 1 Memory.new) xs 60).threads 46).map
      (fun th => (th.task, th.result)) = some (.commit 0, some (.error none)) := by decide +kernel
  obtain ⟨th, hth, hth'⟩ := Option.map_eq_some_iff.mp hret
  obtain ⟨htask, hnil⟩ := Prod.mk.inj hth'
  have hnext : ((stateAt (.sample "g") (World.new (.sample "g") 1 Memory.new) xs 39).threads 22).bind
      Thread.next = some (.call (.prepareTransfer reservation)) := by decide +kernel
  have htoken : (exec (.sample "g") (.call (.prepareTransfer reservation)) .atOne
      (stateAt (.sample "g") (World.new (.sample "g") 1 Memory.new) xs 39).shared).2.result.toOption.map
        (·.fencingToken) = some 1 := by decide +kernel
  obtain ⟨record, hr, htoken⟩ := Option.map_eq_some_iff.mp htoken
  have hreserved : Reserves (.sample "g") (World.new (.sample "g") 1 Memory.new) xs 39 "c" 1 "s" :=
    ⟨reservation, _, record, .of_next rfl hnext rfl, by
      cases hres : (exec (.sample "g") (.call (.prepareTransfer reservation)) .atOne
        (stateAt (.sample "g") (World.new (.sample "g") 1 Memory.new) xs 39).shared).2.result with
      | error err => rw [hres] at hr; cases hr
      | ok record' => rw [hres] at hr; cases hr; exact hres, rfl, htoken, rfl⟩
  have hasks : ∀ j < 60, 39 < j →
      asks (.sample "g") (World.new (.sample "g") 1 Memory.new) xs j = false := by decide +kernel
  exact commit_truthful (.sample "g") (by decide) 1 Memory.new (fun _ _ _ => rfl)
    (fun _ h => absurd rfl h) xs (by simp [xs, reservedOne, alone]) 0 (by decide +kernel)
    (by decide +kernel) (by decide) hth htask hnil (by decide) hreserved fun j hkj hji t' s' hr => by
      have := hr.asks
      rw [hasks j hji hkj] at this
      cases this

/-- `CommitTransfer` fails without effect, and the reservation is rolled back. The second `Commit` of the
handoff finds no entries and returns nil, although the claim is still held by this generation with the
token that it had. -/
theorem commit_untruthful :
    let xs := reservedOne ++ alone 46 (Task.commit 0) Env.atOne 3 ++
      Move.run 46 { Env.atOne with fault := some (.of .backend) } ::
        List.replicate 12 (Move.run 46 Env.atOne) ++
      alone 63 (Task.commit 0) Env.atOne 7
    let s := stateAt (.sample "g") (World.new (.sample "g") 1 Memory.new) xs
    Run.Meets (system (.sample "g")).step (oneHandoff 0)
        { shared := World.new (.sample "g") 1 Memory.new } xs = true ∧
      ((s 46).threads 22).bind Thread.result = some (.error none) ∧
      ((s 46).shared.backend.recordOf "c").pendingSuccessor = "s" ∧
      ((s 71).threads 63).bind Thread.result = some (.error none) ∧
      ((s 71).shared.backend.recordOf "c").ownerGeneration = "g" ∧
      ((s 71).shared.backend.recordOf "c").fencingToken = 1 := by
  decide +kernel

end ShiftLock.Coord
