import ShiftLock.Coord.OpId

/-!
# Calls one after the other

A history of a coordinator without concurrency: calls that run to their end, each in an environment
of its own, and calls of other clients on the backend between them. A call alone is a program in the
sense of `Conc.Prog.run`, and its properties are shown with `Conc.Prog.wp`.

`wp_request` is the rule for a claim operation: it fails without effect, or the backend runs it and
does not answer from the operation table (`Called`).
-/

namespace ShiftLock

open Conc Function
open Conc.Prog (wp Uses)

/-! ## Histories -/

namespace Coord

inductive Step where
  | call (t : Task) (es : Nat → Env)
  | client (c : Memory.Call) (op : Memory.Op)

/-- A call alone: the world after it and what it returns. -/
def call (cfg : Config) (t : Task) (es : Nat → Env) (w : World) : World × (Result ⊕ Task) :=
  let r := (Code.task cfg t).run (exec cfg) es 0 w
  (r.1, r.2.1)

def Step.run (cfg : Config) (w : World) : Step → World
  | .call t es => (Coord.call cfg t es w).1
  | .client c op => outside (.client c op) w

/-- The world after the first `i` steps of a history. -/
abbrev worldAt (cfg : Config) (w : World) (xs : List Step) (i : Nat) : World :=
  Conc.Run.stateAt (Step.run cfg) w xs i

/-- Another client acts in the name of another generation and with operation IDs of its own. -/
structure Other (genID : String) (op : Memory.Op) : Prop where
  foreign : op.Foreign genID
  client : op.client ≠ some genID

end Coord

/-! ## Claim operations -/

namespace Memory

/-- A claim operation of the coordinator: it fails without effect, or it runs and is not recalled
from the operation table. -/
inductive Called (e : Coord.Env) (op : Op) (b : Backend) : Backend → Reply → Prop
  | fault {err : Err} (h : e.fault = some err) : Called e op b b (.fail err)
  | ran (h : e.fault = none) {id : OperationID} (hid : op.operationID = some id)
      (hnew : b.recallOp id = none) :
      Called e op b (b.locked e.call op).1 (b.locked e.call op).2

namespace Called

variable {e : Coord.Env} {op : Op} {b b' : Backend} {r : Reply}

theorem effect (h : Called e op b b' r) : Effect op e.call.expireNow b b' := by
  cases h with
  | fault _ => exact .untouched rfl
  | ran _ _ _ => exact b.locked_effect e.call op

theorem confirmed (h : Called e op b b' r) {n : String} (hn : op.claimName = some n)
    {record : ClaimRecord} (hr : r.result = .ok record) :
    b'.claims n = some record ∧ op.Confirms record := by
  cases h with
  | fault _ => cases hr
  | ran _ hid hnew => exact Backend.locked_confirmed hn hid hnew record hr

theorem prepare_error {req : TransferRequest} (h : Called e (.prepareTransfer req) b b' r)
    {err : Err} (hr : r.result = .error err) (m : String) :
    b'.recordOf m = b.recordOf m ∨ ∃ now, b'.recordOf m = expire now (b.recordOf m) := by
  cases h with
  | fault _ => exact .inl rfl
  | ran _ hid _ =>
    refine (Backend.locked_error rfl hid ?_ m).imp_right fun h => ⟨_, h⟩
    exact (Backend.failed_of_result hr).imp_right fun h => ⟨h, fun _ hop => by cases hop⟩

end Called
end Memory

/-! ## Rules -/

namespace World

variable {cfg : Config} {w : World}

/-- One operation ID has been built. -/
def counted (w : World) : World := { w with coord := { w.coord with opSeq := w.coord.opSeq + 1 } }

theorem Ready.stores (h : w.Ready cfg) {b : Memory.Backend} {id : OperationID}
    (hs : Memory.Stores id w.backend b)
    (hid : ∀ op claim n, id = opID cfg.generationID op claim n → n ≤ w.coord.opSeq) :
    World.Ready cfg { w with backend := b } where
  genID := h.genID
  unused op claim n hn := by
    by_contra hne
    have hlt : w.coord.opSeq < n := hn
    have := hid op claim n (hs.id_eq (h.unused op claim n hn) hne).symm
    omega

theorem Ready.act (h : w.Ready cfg) (e : Coord.Env) {a : Coord.Act}
    (ha : ∀ op, a = .call op → op.operationID = none) : (Coord.exec cfg a e w).1.Ready cfg := by
  by_cases hc : ∃ op, a = .call op
  · obtain ⟨op, rfl⟩ := hc
    unfold Coord.exec
    cases e.fault with
    | some err => exact h
    | none =>
      rcases w.backend.locked_ops e.call op with hops | ⟨id, hid, -⟩
      · exact ⟨h.genID, fun op' claim n hn => (congrFun hops _).trans (h.unused op' claim n hn)⟩
      · rw [ha op rfl] at hid; cases hid
  by_cases hn : ∃ op claim, a = .newOpID op claim
  · obtain ⟨op, claim, rfl⟩ := hn
    exact ⟨h.genID, fun op' claim' n hn => h.unused op' claim' n (Nat.lt_of_succ_lt hn)⟩
  push Not at hc hn
  refine ⟨(Coord.exec_genID cfg e w a).trans h.genID, fun op claim n hlt => ?_⟩
  rw [Coord.exec_backend cfg e w hc]
  rw [Coord.exec_opSeq cfg e w hn] at hlt
  exact h.unused op claim n hlt

theorem Ready.client (h : w.Ready cfg) (c : Memory.Call) {op : Memory.Op}
    (hop : op.Foreign cfg.generationID) : (Coord.outside (.client c op) w).Ready cfg := by
  rcases w.backend.apply_ops c op with hops | ⟨id, hid, hs⟩
  · exact ⟨h.genID, fun op' claim n hn => (congrFun hops _).trans (h.unused op' claim n hn)⟩
  · exact h.stores hs fun op' claim n e => absurd (hid.trans (congrArg some e)) (hop op' claim n)

end World

namespace Coord

variable {cfg : Config} {w : World} {α β : Type} {C : Act → Env → World → Prop}
  {Q : World → α → Prop}

theorem wp_act {a : Act} {k : a.Answer → Code.P α}
    (h : ∀ e, C a e w → wp (exec cfg) C Q (k (exec cfg a e w).2) (exec cfg a e w).1) :
    wp (exec cfg) C Q (Code.perform a >>= k) w := h

theorem wp_ret {x : α} (h : Q w x) : wp (exec cfg) C Q (pure x) w := h

theorem wp_seq {R : World → β → Prop} {p : Code.P β} {k : β → Code.P α}
    (hp : wp (exec cfg) C R p w) (hk : ∀ w' x, R w' x → wp (exec cfg) C Q (k x) w') :
    wp (exec cfg) C Q (p >>= k) w :=
  Prog.wp_bind.mpr (Prog.wp_mono hk hp)

theorem wp_request (hw : w.Ready cfg) {op name : String} {mk : OperationID → Memory.Op}
    (hid : ∀ id, (mk id).operationID = some id) {k : Memory.Reply → Code.P α}
    (hk : ∀ id e b' r, C (.call (mk id)) e w.counted → Memory.Called e (mk id) w.backend b' r →
      World.Ready cfg { w.counted with backend := b' } →
      wp (exec cfg) C Q (k r) { w.counted with backend := b' }) :
    wp (exec cfg) C Q (Code.request op name mk >>= k) w := by
  intro _ _ e hC
  have hnew : w.backend.recallOp (opID w.genID op name (w.coord.opSeq + 1)) = none := by
    unfold Memory.Backend.recallOp
    split
    · rfl
    · rw [hw.genID]
      exact hw.unused op name _ (Nat.lt_succ_self _)
  have hready : w.counted.Ready cfg := hw.act {} (a := .newOpID op name) (fun _ h => by cases h)
  have hcall := hk (opID w.genID op name (w.coord.opSeq + 1)) e
  simp only [exec] at hcall ⊢
  cases he : e.fault with
  | some err => exact hcall _ _ hC (.fault he) hready
  | none =>
    refine hcall _ _ hC (.ran he (hid _) hnew) ?_
    rcases w.backend.locked_ops e.call (mk (opID w.genID op name (w.coord.opSeq + 1))) with
      hops | ⟨id, hid', hs⟩
    · exact ⟨hready.genID,
        fun op' claim n hn => (congrFun hops _).trans (hready.unused op' claim n hn)⟩
    · refine hready.stores hs fun op' claim n hn => ?_
      rw [hid] at hid'
      cases hid'
      rw [hw.genID] at hn
      exact Nat.le_of_eq (opID_number hn).symm

/-- A program alone does not use an operation ID twice. -/
theorem wp_fresh {f : Flow} {F : Flow → α → Prop} {p : Code.P α}
    (hp : Prog.Obeys (Flow.monitor cfg) F p f)
    (hw : Fresh cfg w (update (fun _ => none) 0 (some f))) :
    wp (exec cfg) (fun _ _ _ => True) (fun w' _ => w'.Ready cfg) p w := by
  induction p generalizing w f with
  | ret x => exact hw.toReady
  | act a k ih =>
    intro e _
    refine ih _ (hp.2 _) ?_
    have := hw.act (e := e) (update_self ..) hp.1
    rwa [update_idem] at this

/-- Every call keeps the operation IDs to come unused. -/
theorem call_ready (hw : w.Ready cfg) (t : Task) (es : Nat → Env) : (call cfg t es w).1.Ready cfg := by
  refine Prog.run_of_wp (wp_fresh (task_flow cfg t) ?_) (Prog.along_true es _ 0 w)
  refine Fresh.start { hw with
    issued := fun _ _ _ h => (by cases h), distinct := fun _ _ _ _ _ h => by cases h } 0

/-- A coordinator of generation `g` that holds claim `c` and has prepared a handoff. -/
def prepared : World :=
  [.call (.claim "c") fun _ => .atOne, .call (.tryAcquire "c") fun _ => .atOne,
    .call .prepareHandoff fun _ => .atOne].foldl (Step.run (.sample "g"))
      (World.new (.sample "g") 1 Memory.new)

theorem prepared_ready : prepared.Ready (.sample "g") :=
  call_ready (call_ready (call_ready (World.new_ready _ 1 _ fun _ _ _ => rfl) _ _) _ _) _ _

theorem prepared_claims {n : String} (hn : n ≠ "c") :
    prepared.backend.recordOf n = Memory.freshRecord n := by
  have h : ∃ r r', prepared.backend.claims =
      update (update (fun _ => none) "c" r) "c" r' := ⟨_, _, rfl⟩
  obtain ⟨r, r', h⟩ := h
  refine Memory.Backend.recordOf_of_none ?_
  rw [h, update_of_ne hn, update_of_ne hn]

end Coord

end ShiftLock
