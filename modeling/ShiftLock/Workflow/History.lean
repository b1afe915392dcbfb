import ShiftLock.Workflow.Engine
import ShiftLock.Conc.Crash
import ShiftLock.Conc.Run

/-!
# Histories of an engine (`workflow/engine.go`, `store.go`)

The meaning of the actions on a world: the engine's instances, the store that survives a crash, and
the side effects that steps have had. A history is a list of calls of `Run`, each with what the
environment does in it; a call whose environment ends early is a crash of the process, after which
only the store and the side effects are left.

A store maps instance IDs to checkpoints. `Save` puts a checkpoint under its own ID or fails, for
whatever reason, and one that fails may still have had its effect (`JournalStore`).
-/

namespace ShiftLock.Workflow

/-- The contents of a store: a checkpoint is under its own ID. -/
structure Store where
  data : String → Option Checkpoint
  keyed : ∀ id cp, data id = some cp → cp.instanceID = id

namespace Store

/-- A store without checkpoints. -/
def empty : Store := ⟨fun _ => none, fun _ _ h => nomatch h⟩

def put (s : Store) (cp : Checkpoint) : Store where
  data := Function.update s.data cp.instanceID (some cp)
  keyed := by
    intro id cp' h
    by_cases hid : id = cp.instanceID
    · subst hid
      rw [Function.update_self] at h
      rw [Option.some.inj h]
    · rw [Function.update_of_ne hid] at h
      exact s.keyed id cp' h

end Store

/-- A side effect: an action or a compensation was invoked. -/
inductive Effect where
  | action (x : ExecContext)
  | compensate (x : ExecContext)
  deriving DecidableEq, Repr

/-- The engine, the store and the side effects so far. -/
structure World where
  closed : Bool := false
  instances : List Instance := []
  store : Store
  log : List Effect := []

/-- What is fixed in an engine: the registered definitions, the bound on the instances, and the
type of its store (`Store`, `FileStore` or `JournalStore`) in the errors of `Load`. -/
structure Engine where
  defs : String → Option Definition
  max : Nat
  storeType : String := "Store"

structure Env where
  now : Time := 0
  newID : String := ""
  /-- The error of `Save`, and whether the checkpoint is stored all the same. -/
  saveErr : Option String := none
  stored : Bool := false
  /-- An error of `Load` other than that there is no such instance. -/
  loadErr : Option String := none
  ctxErr : Option CtxErr := none
  blocks : Bool := false
  resource : Lookup := .unset
  /-- The order of a batch, if it is a permutation of it. -/
  order : List Prepared := []
  result : Result := {}
  err : Option ActionError := none

/-- The engine's entry for an instance. -/
def track (inst : Instance) : List Instance → List Instance
  | [] => [inst]
  | i :: is => if i.id = inst.id then inst :: is else i :: track inst is

def freshInstance (id workflow : String) (opts : RunOptions) : Instance where
  id := id
  workflow := workflow
  state := .created
  dryRun := opts.dryRun
  checkpoint :=
    { instanceID := id, workflow, state := .created, steps := ∅, dryRun := opts.dryRun
      attrs := opts.attrs, epochAtStep := ∅ }

def loadedInstance (id : String) (cp : Checkpoint) : Instance where
  id := id
  workflow := cp.workflow
  state := cp.state
  dryRun := cp.dryRun
  checkpoint := cp

namespace World

def load (eng : Engine) (w : World) (e : Env) (id : String) : Except Fault Checkpoint :=
  match e.loadErr, w.store.data id with
  | some text, _ => .error (.store text)
  | none, none =>
    .error (.error { op := eng.storeType ++ ".Load", err := .sentinel .notFound
                     message := "not found" })
  | none, some cp => .ok cp

/-- The critical section of `Run`. -/
def enter (eng : Engine) (w : World) (e : Env) (workflow : String) (opts : RunOptions) :
    World × Except Fault (Definition × Instance) :=
  let refuse (err : Sentinel) (message : String) : World × Except Fault (Definition × Instance) :=
    (w, .error (.error { op := "Run", workflow, err := .sentinel err, message }))
  if w.closed then refuse .closed "engine closed"
  else
    match eng.defs workflow with
    | none => refuse .notFound "definition not registered"
    | some d =>
      if opts.resume = false ∧ eng.max ≤ w.instances.length then
        refuse .boundExceeded "max instances"
      else
        let id := if opts.instanceID = "" then e.newID else opts.instanceID
        if opts.resume then
          match w.load eng e id with
          | .error err => (w, .error err)
          | .ok cp =>
            let inst := loadedInstance id cp
            ({ w with instances := track inst w.instances }, .ok (d, inst))
        else
          let inst := freshInstance id workflow opts
          ({ w with instances := track inst w.instances }, .ok (d, inst))

/-- `store.Save`; the instance of the engine is the one that is saved. -/
def save (w : World) (e : Env) (inst : Instance) : World × Option String :=
  let store :=
    if e.saveErr = none ∨ e.stored then w.store.put { inst.checkpoint with updatedAt := e.now }
    else w.store
  ({ w with instances := track inst w.instances, store }, e.saveErr)

def exec (eng : Engine) : (a : Act) → Env → World → World × Answer a
  | .enter workflow opts, e, w => w.enter eng e workflow opts
  | .clock, e, w => (w, e.now)
  | .save inst, e, w => w.save e inst
  | .ctxErr, e, w => (w, e.ctxErr)
  | .blocksMutations, e, w => (w, e.blocks)
  | .lookup _, e, w => (w, e.resource)
  | .schedule batch, e, w =>
    (w, if h : e.order.Perm batch then ⟨e.order, h⟩ else ⟨batch, .refl _⟩)
  | .acquire, e, w => (w, e.ctxErr)
  | .action x, e, w => ({ w with log := w.log ++ [.action x] }, (e.result, e.err))
  | .compensate x, e, w => ({ w with log := w.log ++ [.compensate x] }, (e.result, e.err))

/-- What a crash leaves: a new process starts from the store. -/
def restart (w : World) : World := { w with closed := false, instances := [] }

end World

/-- A call of `Run`, and what the environment does in it. -/
structure Call where
  workflow : String
  opts : RunOptions
  env : List Env

namespace Call

/-- The call until it returns or crashes: the world, and what it returns. -/
def upTo (eng : Engine) (w : World) (c : Call) : World × Option (Option Instance × Option Fault) :=
  Conc.Prog.upTo (World.exec eng) c.env (run c.workflow c.opts) w

def after (eng : Engine) (w : World) (c : Call) : World :=
  if (c.upTo eng w).2.isSome then (c.upTo eng w).1 else (c.upTo eng w).1.restart

end Call

/-- The world after the first `i` calls of a history. -/
def worldAt (eng : Engine) (w : World) (cs : List Call) (i : Nat) : World :=
  Conc.Run.stateAt (Call.after eng) w cs i

/-! ## Where a run starts -/

def RunOptions.id (opts : RunOptions) (e : Env) : String :=
  if opts.instanceID = "" then e.newID else opts.instanceID

/-- The instance that a call enters with: fresh, or from the stored checkpoint. -/
inductive Starts (w : World) (workflow : String) (opts : RunOptions) (id : String) :
    Instance → Prop where
  | fresh (h : opts.resume = false) : Starts w workflow opts id (freshInstance id workflow opts)
  | loaded (cp : Checkpoint) (h : opts.resume = true) (hcp : w.store.data id = some cp) :
    Starts w workflow opts id (loadedInstance id cp)

theorem World.enter_ok {eng : Engine} {w : World} {e : Env} {workflow : String} {opts : RunOptions}
    {d : Definition} {inst : Instance} (h : (w.enter eng e workflow opts).2 = .ok (d, inst)) :
    w.closed = false ∧ eng.defs workflow = some d ∧ Starts w workflow opts (opts.id e) inst := by
  unfold enter at h
  split at h
  · cases h
  rename_i hclosed
  cases hd : eng.defs workflow with
  | none => simp [hd] at h
  | some d' =>
    simp only [hd] at h
    split at h
    · cases h
    split at h
    · rename_i hresume
      cases hload : w.load eng e (if opts.instanceID = "" then e.newID else opts.instanceID) with
      | error err => simp [hload] at h
      | ok cp =>
        simp only [hload, Except.ok.injEq, Prod.mk.injEq] at h
        obtain ⟨rfl, rfl⟩ := h
        refine ⟨by simpa using hclosed, rfl, .loaded cp hresume ?_⟩
        unfold load at hload
        split at hload <;> cases hload
        assumption
    · rename_i hresume
      simp only [Except.ok.injEq, Prod.mk.injEq] at h
      obtain ⟨rfl, rfl⟩ := h
      exact ⟨by simpa using hclosed, rfl, .fresh (by simpa using hresume)⟩

@[simp] theorem World.enter_store (eng : Engine) (w : World) (e : Env) (workflow : String)
    (opts : RunOptions) :
    (w.enter eng e workflow opts).1.store = w.store ∧
      (w.enter eng e workflow opts).1.log = w.log := by
  unfold enter
  dsimp only
  repeat' split
  all_goals exact ⟨rfl, rfl⟩

/-- What holds of the world of a call until it returns or crashes: the critical section changes neither
the store nor the log, and the rest is a run of the definition from the instance it enters with. -/
theorem Call.upTo_keeps {eng : Engine} {w : World} {c : Call} {I : World → Prop}
    (henter : ∀ w' : World, w'.store = w.store → w'.log = w.log → I w')
    (hrun : ∀ e d inst, c.env.head? = some e → w.closed = false → eng.defs c.workflow = some d →
      Starts w c.workflow c.opts (c.opts.id e) inst → ∀ w' es, I w' →
        I (Conc.Prog.upTo (World.exec eng) es (runEntered d inst c.opts) w').1) :
    I (c.upTo eng w).1 := by
  obtain ⟨workflow, opts, es⟩ := c
  cases es with
  | nil => exact henter w rfl rfl
  | cons e es =>
    obtain ⟨hstore, hlog⟩ := World.enter_store eng w e workflow opts
    have hw := henter _ hstore hlog
    change I (Conc.Prog.upTo (World.exec eng) es _ (w.enter eng e workflow opts).1).1
    generalize hr : (World.exec eng (.enter workflow opts) e w).2 = r
    cases r with
    | error err => cases es <;> exact hw
    | ok r =>
      obtain ⟨hclosed, hd, hstart⟩ := World.enter_ok hr
      exact hrun e r.1 r.2 rfl hclosed hd hstart _ es hw

end ShiftLock.Workflow
