import ShiftLock.Workflow.Ambiguous
import ShiftLock.Workflow.Completed
import Mathlib.Data.List.Chain

/-!
# The states that are persisted

Within one run, every state that is persisted can follow the one before it. A run persists
`validating` first, and only `created` and `validating` itself can go there, so a call on an instance
that the store has in any other state leaves the table. In every history without such a call, and
without a `Save` that fails, the states of an instance move along `canTransition`.
-/

namespace ShiftLock.Workflow

open Conc Function

/-- The state of instance `id` that is persisted in an action. -/
def persistedState (id : String) (x : Conc.Prog.Event Act World Env) : Option State :=
  match x.act with
  | .save inst =>
    if inst.checkpoint.instanceID = id ∧ (x.env.saveErr = none ∨ x.env.stored = true) then
      some inst.checkpoint.state
    else none
  | _ => none

/-- The states of instance `id` that a history persists, in order. -/
def persisted (eng : Engine) (id : String) : World → List Call → List State
  | _, [] => []
  | w, c :: cs => (c.trace eng w).filterMap (persistedState id) ++ persisted eng id (c.after eng w) cs

/-- The state of instance `id` in the store. -/
def World.savedState (w : World) (id : String) : Option State := (w.store.data id).map (·.state)

abbrev Moves (s t : State) : Prop := canTransition s t = true

/-! ## One call -/

/-- The states that were persisted are a chain that ends in the stored one. -/
structure Chained (w : World) (id : String) (l : List State) : Prop where
  chain : l.IsChain Moves
  last : l.getLast? = w.savedState id

theorem Chained.start (w : World) (id : String) : Chained w id (w.savedState id).toList := by
  cases h : w.savedState id with
  | none => exact ⟨.nil, h.symm⟩
  | some s => exact ⟨.singleton s, h.symm⟩

variable {w : World} {id : String}

variable {w' : World} {l : List State} {e : Env} {a : Act} {c : Call}

theorem Chained.snoc {s : State} (h : Chained w id l)
    (hs : ∀ t, w.savedState id = some t → Moves t s) (hw : w'.savedState id = some s) :
    Chained w' id (l ++ [s]) := by
  refine ⟨List.isChain_append.mpr ⟨h.chain, .singleton s, fun t ht u hu => ?_⟩, ?_⟩
  · obtain rfl : s = u := by simpa using hu
    exact hs t (h.last ▸ ht)
  · rw [List.getLast?_concat, hw]

/-- The same chain, where the stored state is the same. -/
theorem Chained.congr (h : Chained w id l) (hw : w'.savedState id = w.savedState id) :
    Chained w' id l := ⟨h.chain, h.last.trans hw.symm⟩

/-- What is stored is what was saved last, where the call is for the instance. -/
structure Tracks (id : String) (init : List State) (w : World) (g : Watch)
    (xs : List (Conc.Prog.Event Act World Env)) : Prop where
  lost : g.id = id → g.lost = false
  last : g.id = id → g.last = w.savedState id
  chained : Chained w id (init ++ xs.filterMap (persistedState id))

theorem World.savedState_save (w : World) (inst : Instance) (id : String) (he : e.saveErr = none) :
    (w.save e inst).1.savedState id =
      if inst.checkpoint.instanceID = id then some inst.checkpoint.state else w.savedState id := by
  unfold save savedState
  simp only [he, true_or, if_true, Store.put]
  split
  · rename_i h
    subst h
    rw [update_self]
    rfl
  · rename_i h
    rw [update_of_ne (Ne.symm h)]

/-- Only `Save` changes the stored state. -/
theorem World.savedState_exec (eng : Engine) (e : Env) (w : World) (id : String)
    (h : ∀ inst, a ≠ .save inst) : (exec eng a e w).1.savedState id = w.savedState id := by
  cases a with
  | save inst => exact absurd rfl (h inst)
  | enter workflow opts =>
    unfold savedState
    rw [show (exec eng (.enter workflow opts) e w).1.store = w.store from
      (enter_store eng w e workflow opts).1]
  | _ => rfl

theorem Tracks.step {init : List State} {g : Watch} {xs : List (Prog.Event Act World Env)}
    (h : Tracks id init w g xs) (eng : Engine) (ha : Watch.allows g a) (he : e.saveErr = none) :
    Tracks id init (World.exec eng a e w).1 (g.after a (World.exec eng a e w).2)
      (xs ++ [⟨w, a, e⟩]) := by
  by_cases hsave : ∃ inst, a = .save inst
  · obtain ⟨inst, rfl⟩ := hsave
    obtain ⟨hid, hnext⟩ := ha
    have hafter : g.after (.save inst) (World.exec eng (.save inst) e w).2 =
        { g with last := some inst.checkpoint.state } := if_pos he
    have hsaved := World.savedState_save w inst id he
    change (World.exec eng (.save inst) e w).1.savedState id = _ at hsaved
    rw [hafter]
    by_cases hg : g.id = id
    · have hinst := hid.trans hg
      rw [if_pos hinst] at hsaved
      refine ⟨h.lost, fun _ => hsaved.symm, ?_⟩
      rw [List.filterMap_append, ← List.append_assoc]
      have hstate : [(⟨w, .save inst, e⟩ : Prog.Event Act World Env)].filterMap (persistedState id) =
          [inst.checkpoint.state] := by simp [persistedState, hinst, he]
      rw [hstate]
      refine h.chained.snoc (fun t ht => ?_) hsaved
      rcases hnext with hlost | hnext
      · rw [h.lost hg] at hlost
        cases hlost
      · exact hnext t ((h.last hg).trans ht)
    · have hinst : inst.checkpoint.instanceID ≠ id := fun heq => hg (hid.symm.trans heq)
      rw [if_neg hinst] at hsaved
      refine ⟨h.lost, fun heq => absurd heq hg, ?_⟩
      have hstate : [(⟨w, .save inst, e⟩ : Prog.Event Act World Env)].filterMap (persistedState id) = [] := by
        simp [persistedState, hinst]
      rw [List.filterMap_append, hstate, List.append_nil]
      exact h.chained.congr hsaved
  · have hne : ∀ inst, a ≠ .save inst := fun inst heq => hsave ⟨inst, heq⟩
    have hsaved := World.savedState_exec eng e w id hne
    have hstate : [(⟨w, a, e⟩ : Prog.Event Act World Env)].filterMap (persistedState id) = [] := by
      cases a <;> first | rfl | exact absurd rfl (hne _)
    have hafter : (g.after a (World.exec eng a e w).2).lost = g.lost ∧
        (g.after a (World.exec eng a e w).2).id = g.id ∧
        (g.after a (World.exec eng a e w).2).last = g.last := by
      cases a with
      | save inst => exact absurd rfl (hne inst)
      | acquire => cases hr : (World.exec eng .acquire e w).2 <;> exact ⟨rfl, rfl, rfl⟩
      | _ => exact ⟨rfl, rfl, rfl⟩
    refine ⟨fun hid => ?_, fun hid => ?_, ?_⟩
    · rw [hafter.1, h.lost (hafter.2.1.symm.trans hid)]
    · rw [hafter.2.2, h.last (hafter.2.1.symm.trans hid), hsaved]
    · rw [List.filterMap_append, hstate, List.append_nil]
      exact h.chained.congr hsaved

theorem Call.savedState_after {eng : Engine} (id : String) :
    (c.after eng w).savedState id = (c.upTo eng w).1.savedState id := by
  unfold after
  split <;> rfl

theorem Call.chained (eng : Engine) (w : World) (hsaves : ∀ e ∈ c.env, e.saveErr = none)
    (hstart : c.id = id → ∀ cp, w.store.data id = some cp → Moves cp.state .validating) :
    Chained (c.after eng w) id
      ((w.savedState id).toList ++ (c.trace eng w).filterMap (persistedState id)) := by
  refine Chained.congr ?_ (savedState_after id)
  obtain ⟨workflow, opts, es⟩ := c
  cases es with
  | nil => simpa [upTo, trace, Prog.upTo, Prog.trace, run] using Chained.start w id
  | cons e es =>
    have hkept : (w.enter eng e workflow opts).1.savedState id = w.savedState id :=
      World.savedState_exec eng e w id (a := .enter workflow opts) (by simp)
    have hfirst : Chained (w.enter eng e workflow opts).1 id ((w.savedState id).toList ++
        [(⟨w, .enter workflow opts, e⟩ : Prog.Event Act World Env)].filterMap (persistedState id)) := by
      rw [show [(⟨w, .enter workflow opts, e⟩ : Prog.Event Act World Env)].filterMap
        (persistedState id) = [] from rfl, List.append_nil]
      exact (Chained.start w id).congr hkept
    cases henter : (w.enter eng e workflow opts).2 with
    | error err =>
      have hrefused : (World.exec eng (.enter workflow opts) e w).2 = .error err := henter
      have hdone : (mk workflow opts (e :: es)).trace eng w = [⟨w, .enter workflow opts, e⟩] ∧
          ((mk workflow opts (e :: es)).upTo eng w).1 = (w.enter eng e workflow opts).1 := by
        simp only [trace, upTo, run, Prog.perform_bind, Prog.trace,
          Prog.upTo, hrefused]
        cases es <;> exact ⟨rfl, rfl⟩
      rw [hdone.1, hdone.2]
      exact hfirst
    | ok r =>
      obtain ⟨d, inst⟩ := r
      obtain ⟨-, -, hinst⟩ := World.enter_ok henter
      obtain ⟨hupTo, htrace⟩ := entered henter es
      -- Of the other instances nothing is known, so a `Save` of theirs counts as lost.
      obtain ⟨g, hg⟩ : ∃ g : Watch,
          g = { id := opts.id e, last := w.savedState (opts.id e), lost := opts.id e ≠ id } := ⟨_, rfl⟩
      have hnext : g.Next .validating := by
        by_cases hid : opts.id e = id
        · refine .inr fun t ht => ?_
          rw [hg] at ht
          obtain ⟨cp, hcp, rfl⟩ := Option.map_eq_some_iff.mp ht
          exact hstart hid cp (hid ▸ hcp)
        · exact .inl (by simpa [hg] using hid)
      have htracks : Tracks id (w.savedState id).toList (w.enter eng e workflow opts).1 g
          [⟨w, .enter workflow opts, e⟩] := by
        subst hg
        refine ⟨fun hid => by simpa using hid, fun hid => ?_, hfirst⟩
        rw [hkept, ← show opts.id e = id from hid]
      have hobeys : Prog.Obeys Watch.monitor _ (runEntered d inst opts) g :=
        runEntered_obeys (hinst.instanceID.trans (by rw [hg])) hnext (by rw [hg])
      obtain ⟨g', hg'⟩ := hobeys.invariant
        (fun s g xs a e ha he h => h.step eng (by exact ha) he)
        (fun e he => hsaves e (List.mem_cons_of_mem _ he)) htracks
      rw [hupTo, htrace]
      exact hg'.chained

/-! ## Histories -/

/-- In every history in which each call on the instance starts without a stored checkpoint, or from
one that can go to `validating`, and no `Save` fails, the stored states move along
`canTransition`. -/
theorem transitions_allowed (eng : Engine) (w₀ : World) (id : String) (cs : List Call)
    (hsaves : ∀ c ∈ cs, ∀ e ∈ c.env, e.saveErr = none)
    (hstart : ∀ i c, cs[i]? = some c → c.id = id → ∀ cp,
      (worldAt eng w₀ cs i).store.data id = some cp → canTransition cp.state .validating = true) :
    ((w₀.savedState id).toList ++ persisted eng id w₀ cs).IsChain
      fun s t => canTransition s t = true := by
  induction cs generalizing w₀ with
  | nil => simpa [persisted] using (Chained.start w₀ id).chain
  | cons c cs ih =>
    have hcall := Call.chained eng w₀ (hsaves c List.mem_cons_self) (hstart 0 c rfl)
    have hrest := ih (c.after eng w₀) (fun c' hc' => hsaves c' (List.mem_cons_of_mem _ hc'))
      fun i c' hc' => hstart (i + 1) c' hc'
    unfold persisted
    rw [← List.append_assoc]
    refine List.isChain_append.mpr ⟨hcall.chain, ?_, fun s hs t ht => ?_⟩
    · exact (List.isChain_append.mp hrest).2.1
    · refine (List.isChain_append.mp hrest).2.2 s ?_ t ht
      rw [hcall.last] at hs
      rw [Option.mem_def.mp hs]
      rfl

/-- The instance `x` runs to its end, and then the instance `y`. -/
theorem transitions_allowed_fresh :
    (persisted deployEngine "x" { store := .empty } [calmCall, { calmCall with opts := { instanceID := "y" } }]).IsChain
      fun s t => canTransition s t = true := by
  refine transitions_allowed deployEngine { store := .empty } "x"
    [calmCall, { calmCall with opts := { instanceID := "y" } }] (by decide +kernel) ?_
  intro i c hc hid cp hcp
  rcases i with - | - | i
  · cases hcp
  · obtain rfl : _ = c := Option.some.inj hc
    exact absurd hid (by decide +kernel)
  · simp at hc

/-- The resumption of a completed instance takes it from completed to validating. -/
theorem resume_leaves_table :
    persisted deployEngine "x" { store := .empty } [calmCall, resumingCall] =
        [.validating, .running, .running, .running, .running, .running, .completed, .validating,
          .running, .completed] ∧
      canTransition .completed .validating = false := by
  decide +kernel

end ShiftLock.Workflow
