import ShiftLock.Handoff.Stage
import ShiftLock.Memory.Holder

/-!
# Reservations that wait for their commit

Along a schedule, `Reserves` and `Commits` are the replies of the backend that a handoff is about: a
reservation that `PrepareTransfer` has confirmed, and a transfer that `CommitTransfer` has confirmed.
A reservation is `Due` from its confirmation until the transfer that belongs to it, or until another
reservation of the claim takes its place.

Two things hold of the other threads. They neither reserve nor commit, and a record that one of them
applies to a claim names this generation as its holder (`delivered_controls`), so what they do to a
handoff and to the cached records is little (`Aside`).
-/

namespace ShiftLock.Coord

open Conc

section

variable (cfg : Config) (w : World) (xs : Schedule)

/-- Move `j` reserves claim `n` with token `t` for generation `s`. -/
def Reserves (j : Nat) (n : String) (t : FencingToken) (s : String) : Prop :=
  ∃ req reply record, (system cfg).Answers w xs j (.call (.prepareTransfer req)) reply ∧
    reply.result = .ok record ∧ req.claimName = n ∧ record.fencingToken = t ∧ req.toGeneration = s

/-- Move `j` hands claim `n` with token `t` over to generation `s`; `record` is its record then. -/
def Commits (j : Nat) (n : String) (t : FencingToken) (s : String) (record : ClaimRecord) : Prop :=
  ∃ req reply, (system cfg).Answers w xs j (.call (.commitTransfer req)) reply ∧
    reply.result = .ok record ∧ req.claimName = n ∧ req.expectedToken = t ∧ req.toGeneration = s

/-- Before move `i`, claim `n` is reserved with token `t` for generation `s` and not handed over. -/
def Due (i : Nat) (n : String) (t : FencingToken) (s : String) : Prop :=
  ∃ k < i, Reserves cfg w xs k n t s ∧ ∀ j, k < j → j < i →
    (∀ t' s', ¬ Reserves cfg w xs j n t' s') ∧ ∀ record, ¬ Commits cfg w xs j n t s record

end

variable {cfg : Config} {w : World} {xs : Schedule} {i u : Nat} {e : Env} {th : Thread} {a : Act}
  {n s : String} {t : FencingToken}

/-- What is due after a move is due before it, or the move reserves it. -/
theorem Due.of_succ (h : Due cfg w xs (i + 1) n t s) :
    Reserves cfg w xs i n t s ∨ (Due cfg w xs i n t s ∧ (∀ t' s', ¬ Reserves cfg w xs i n t' s') ∧
      ∀ record, ¬ Commits cfg w xs i n t s record) := by
  obtain ⟨k, hk, hres, hlater⟩ := h
  rcases Nat.lt_succ_iff_lt_or_eq.mp hk with hlt | rfl
  · exact .inr ⟨⟨k, hlt, hres, fun j hkj hj => hlater j hkj (Nat.lt_succ_of_lt hj)⟩,
      hlater i hlt (Nat.lt_succ_self i)⟩
  · exact .inl hres

theorem Reserves.of_run (h : Reserves cfg w xs i n t s) (hx : xs[i]? = some (.run u e))
    (hth : (stateAt cfg w xs i).threads u = some th) (hnext : th.next = some a) :
    ∃ req record, a = .call (.prepareTransfer req) ∧
      (exec cfg (.call (.prepareTransfer req)) e (stateAt cfg w xs i).shared).2.result = .ok record ∧
      req.claimName = n ∧ record.fencingToken = t ∧ req.toGeneration = s := by
  obtain ⟨req, reply, record, hans, hr, hn, ht, hs⟩ := h
  obtain ⟨rfl, hreply⟩ := hans.of_run hx hth hnext
  obtain rfl := eq_of_heq hreply
  exact ⟨req, record, rfl, hr, hn, ht, hs⟩

/-- A move without an action reserves nothing. -/
theorem Reserves.acts (h : Reserves cfg w xs i n t s) :
    ∃ u e th a, xs[i]? = some (.run u e) ∧ (stateAt cfg w xs i).threads u = some th ∧
      th.next = some a ∧ ∃ req, a = .call (.prepareTransfer req) := by
  obtain ⟨req, reply, record, ⟨u, e, th, hx, hth, hnext, -⟩, -⟩ := h
  exact ⟨u, e, th, _, hx, hth, hnext, req, rfl⟩

/-! ## Delivered records -/

theorem exec_issued (cfg : Config) (a : Act) (e : Env) (w : World) (h : w.backend.Issued) :
    (exec cfg a e w).1.backend.Issued := by
  by_cases hc : ∃ op, a = .call op
  · obtain ⟨op, rfl⟩ := hc
    unfold exec
    cases e.fault with
    | some err => exact h
    | none => exact (w.backend.locked_effect e.call op).issued h
  · rw [exec_backend cfg e w fun op h => hc ⟨op, h⟩]
    exact h

theorem outside_issued (x : Outside) (w : World) (h : w.backend.Issued) :
    (outside x w).backend.Issued := by
  cases x with
  | client c op => exact (w.backend.apply_effect c op).issued h
  | beginWork claim name | endWork claim name => exact h

/-- A call that is not on a handoff is outside of all of them. -/
theorem stage_outside {g : Stage} (hi : i ≤ xs.length)
    (hth : (stateAt cfg w xs i).threads u = some th)
    (hg : (system cfg).watchAt Stage.monitor Stage.init w xs i u = some g)
    (ht : th.task.handoff = none) : g = .outside := by
  refine Sys.each_thread (S := system cfg) (task_stage cfg)
    (P := fun _ th g => th.task.handoff = none → g = .outside) ?_ (fun _ _ _ h => h) ?_ hi hth hg ht
  · intro i t ht
    show Stage.init t = .outside
    unfold Stage.init
    rw [show t.handoff = none from ht]
  · intro i u e th g a k _ _ _ _ _ ih _ ht
    rw [ih ht]
    rfl

/-- What is known of the reply that a thread of a task has just got. -/
def Flow.Sound (cfg : Config) (t : Task) (f : Flow) : Prop :=
  ∀ op r record id, f.reply = some (op, r) → r.result = .ok record → op.operationID = some id →
    op.client = some cfg.generationID ∧ op.Confirms record ∧
      (record.ownerGeneration ≠ "" → record.fencingToken ≠ 0) ∧
      (t.handoff = none → ∀ req, op ≠ .commitTransfer req)

section

variable (hw : w.Ready cfg) (hb : w.backend.Issued)
  (hclients : ∀ c op, Move.env (.client c op) ∈ xs → op.Foreign cfg.generationID)

theorem stage_at (i : Nat) : Tracks Stage.monitor Stage.Ends (stateAt cfg w xs i)
    ((system cfg).watchAt Stage.monitor Stage.init w xs i) :=
  Sys.tracks (task_stage cfg) i

/-- The threads of other tasks perform only what any thread may do. -/
theorem outsider_acts (hi : i ≤ xs.length) (hth : (stateAt cfg w xs i).threads u = some th)
    (hnext : th.next = some a) (ht : th.task.handoff = none) :
    a.beside = true ∨ ∃ n record, a = .applyRecord n record := by
  obtain ⟨k, hp⟩ := Thread.prog_of_next hnext
  obtain ⟨-, g, hg, hobeys⟩ := (stage_at i).2 u th hth
  obtain rfl := stage_outside hi hth hg ht
  rw [hp] at hobeys
  exact hobeys.1

include hw hb hclients

/-- A claim operation that a thread performs with success. -/
theorem answered {op : Memory.Op} {id : OperationID} {record : ClaimRecord}
    (hx : xs[i]? = some (.run u e)) (hth : (stateAt cfg w xs i).threads u = some th)
    (hnext : th.next = some (.call op)) (hid : op.operationID = some id)
    (hr : (exec cfg (.call op) e (stateAt cfg w xs i).shared).2.result = .ok record) :
    op.client = some cfg.generationID ∧ op.Confirms record ∧
      (record.ownerGeneration ≠ "" → record.fencingToken ≠ 0) := by
  obtain ⟨k, hp⟩ := Thread.prog_of_next hnext
  obtain ⟨-, f, hf, hobeys⟩ := (tracks_at cfg w xs i).2 u th hth
  rw [hp] at hobeys
  obtain ⟨n, hn⟩ : ∃ n, op.claimName = some n := by cases op <;> first | exact ⟨_, rfl⟩ | cases hid
  have hi : i ≤ xs.length := Nat.le_of_lt (List.getElem?_eq_some_iff.mp hx).1
  obtain ⟨hstored, hconfirms⟩ := (fresh_at hw hclients hi).confirmed hf hobeys.1 hn hid hr
  refine ⟨?_, hconfirms, ?_⟩
  · rcases hobeys.1.1 op rfl with hnone | ⟨-, hclient⟩
    · rw [hid] at hnone
      cases hnone
    · exact hclient
  · have hissued := (system cfg).shared_invariant
      (fun a e w h => exec_issued cfg a e w h) (fun x w h => outside_issued x w h) hb xs i
    have hrecord := exec_issued cfg (.call op) e _ hissued n
    rwa [Memory.Backend.recordOf_of_some hstored] at hrecord

theorem sound_at {f : Flow} (hi : i ≤ xs.length) (hth : (stateAt cfg w xs i).threads u = some th)
    (hf : watchAt cfg w xs i u = some f) : f.Sound cfg th.task := by
  refine Sys.each_thread (task_flow cfg)
    (P := fun _ th f => f.Sound cfg th.task) ?_ (fun _ _ _ h => h) ?_ hi hth hf
  · intro i t op r record id hreply
    cases hreply
  intro i u e th f a k hx hth hp _ _ _ _ op r record id hreply hr hid
  obtain ⟨rfl, hheq⟩ := Flow.after_reply hreply
  obtain rfl := eq_of_heq hheq
  have hnext := Thread.next_of_prog hp
  obtain ⟨hclient, hconfirms, htoken⟩ := answered hw hb hclients hx hth hnext hid hr
  refine ⟨hclient, hconfirms, htoken, ?_⟩
  rintro ht req rfl
  have hi : i ≤ xs.length := Nat.le_of_lt (List.getElem?_eq_some_iff.mp hx).1
  rcases outsider_acts hi hth hnext ht with hbeside | ⟨_, _, happly⟩
  · cases hbeside
  · cases happly

/-- **The cached records.** A record that a thread applies to a claim makes this generation its holder,
unless it is that of a commit. -/
theorem delivered_controls (hgen : cfg.generationID ≠ "") (hi : i ≤ xs.length)
    (hth : (stateAt cfg w xs i).threads u = some th) (hnext : th.next = some a) {n : String}
    {record : ClaimRecord} (hd : a.delivers = some (n, record)) :
    record.controls cfg.generationID = true ∨ (th.task.handoff ≠ none ∧ a = .applyRecord n record) := by
  obtain ⟨k, hp⟩ := Thread.prog_of_next hnext
  obtain ⟨-, f, hf, hobeys⟩ := (tracks_at cfg w xs i).2 u th hth
  rw [hp] at hobeys
  obtain ⟨op, r, hreply, hr, haccepts⟩ := hobeys.1.2 n record hd
  obtain ⟨hname, id, hid⟩ := Act.accepts_claimName haccepts hd
  obtain ⟨hclient, hconfirms, htoken, hcommit⟩ :=
    sound_at hw hb hclients hi hth hf op r record id hreply hr hid
  have hcontrols (howner : record.ownerGeneration = cfg.generationID) (hphase : record.phase ≠ .unowned) :
      record.controls cfg.generationID = true :=
    ClaimRecord.controls_iff.mpr ⟨howner, htoken (by rwa [howner]), hphase⟩
  cases op with
  | acquireClaim req => exact .inl (hcontrols (hconfirms.1.trans (Option.some.inj hclient)) hconfirms.2)
  | renewClaim req => exact .inl (hcontrols (hconfirms.1.trans (Option.some.inj hclient)) hconfirms.2.2)
  | prepareTransfer req =>
    refine .inl (hcontrols (hconfirms.1.trans (Option.some.inj hclient)) ?_)
    rw [hconfirms.2.2.1]
    simp
  | abortTransfer req =>
    refine .inl (hcontrols (hconfirms.1.trans (Option.some.inj hclient)) ?_)
    rw [hconfirms.2]
    simp
  | commitTransfer req =>
    refine .inr ⟨fun ht => hcommit ht req rfl, ?_⟩
    cases a <;> cases hd <;> first | rfl | cases haccepts
  | _ => cases hconfirms

end

/-! ## What happens beside a call on a handoff -/

/-- A handoff is as it was, except that the watcher may abort it. -/
structure Spared (x x' : Handoff) : Prop where
  claims : x'.claims = x.claims
  successorID : x'.successorID = x.successorID
  transferDone : x'.transferDone = x.transferDone
  tokens : x'.tokens = x.tokens
  status : x'.status = x.status ∨ (x.status ≠ .committed ∧ x'.status = .aborted)

theorem Spared.refl (x : Handoff) : Spared x x := ⟨rfl, rfl, rfl, rfl, .inl rfl⟩

/-- What the others do to handoff `h` and to the cached records. -/
structure Aside (genID : String) (h : Nat) (w w' : World) : Prop where
  count : w.coord.handoffs ≤ w'.coord.handoffs
  handoff : Spared (w.handoffs h) (w'.handoffs h) ∨
    (w.coord.handoffs ≤ h ∧ (w'.handoffs h).transferDone = false ∧ (w'.handoffs h).status = .pending)
  record : ∀ n, (w'.coord.claims n).record = (w.coord.claims n).record ∨
    (w'.coord.claims n).record.controls genID = true

theorem Aside.refl (genID : String) (h : Nat) (w : World) : Aside genID h w w :=
  ⟨Nat.le_refl _, .inl (.refl _), fun _ => .inl rfl⟩

theorem abortBegin_spared (x : Handoff) : Spared x x.abortBegin.1 := by
  unfold Handoff.abortBegin
  split
  · exact .refl x
  · rename_i hs
    exact ⟨rfl, rfl, rfl, rfl, .inr ⟨hs, rfl⟩⟩

theorem watcherBegin_spared (x : Handoff) : Spared x x.watcherBegin.1 := by
  unfold Handoff.watcherBegin
  split
  · exact .refl x
  · exact ⟨rfl, rfl, rfl, rfl, .inl rfl⟩

/-- Handoffs are numbered from zero on. -/
theorem exec_count (cfg : Config) (a : Act) (e : Env) (w : World) :
    w.coord.handoffs ≤ (exec cfg a e w).1.coord.handoffs := by
  cases a with
  | call op => rw [exec_call_coord]
  | newHandoff => exact Nat.le_succ _
  | setState target reason =>
    obtain ⟨gen, -, h⟩ := setState_eq w.coord e.now target reason
    exact Nat.le_of_eq (congrArg (·.handoffs) h).symm
  | claim name =>
    obtain ⟨known, h⟩ := claim_eq cfg w.coord name
    exact Nat.le_of_eq (congrArg (·.handoffs) h).symm
  | closeBegin =>
    obtain ⟨closed, h⟩ := closeBegin_eq w.coord e.order
    exact Nat.le_of_eq (congrArg (·.handoffs) h).symm
  | _ => exact Nat.le_refl _

/-- An action that any thread may perform. -/
theorem exec_aside {genID : String} {h : Nat} {w : World}
    (ha : a.beside = true ∨ ∃ n record, a = .applyRecord n record)
    (hd : ∀ n record, a.delivers = some (n, record) → record.controls genID = true) :
    Aside genID h w (exec cfg a e w).1 := by
  refine ⟨exec_count cfg a e w, ?_, fun n => ?_⟩
  · by_cases hnew : a = .newHandoff ∧ h = w.coord.handoffs
    · obtain ⟨rfl, rfl⟩ := hnew
      have hx : (exec cfg .newHandoff e w).1.handoffs w.coord.handoffs =
          { claims := w.coord.copyClaims e.order } := Function.update_self ..
      rw [hx]
      exact .inr ⟨Nat.le_refl _, rfl, rfl⟩
    · left
      rw [exec_handoffs cfg e w a fun h' hh => hnew ⟨h', hh⟩]
      split
      · rename_i hof
        rcases ha with ha | ⟨n, record, rfl⟩
        · cases a <;> cases hof <;> cases ha
          · exact abortBegin_spared _
          · exact watcherBegin_spared _
        · cases hof
      · exact .refl _
  · refine (exec_steps cfg e w a n).record.imp_right fun hr => ?_
    exact hd n _ (Act.deliversTo_eq.mp hr)

theorem outside_aside {genID : String} {h : Nat} {w : World} (x : Outside) :
    Aside genID h w (outside x w) := by
  refine ⟨?_, ?_, fun n => .inl ?_⟩
  · cases x <;> exact Nat.le_refl _
  · cases x <;> exact .inl (.refl _)
  · obtain ⟨g, hg⟩ := outside_claims w x n
    rw [hg]
    rfl

end ShiftLock.Coord
