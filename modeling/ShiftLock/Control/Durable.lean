import ShiftLock.Control.Lockdown
import ShiftLock.Conc.Run
import ShiftLock.Json.Text

/-!
# The state file of a lockdown (`control/lockdown/lockdown.go`)

Managers that are created one after another on one path. `os.WriteFile` truncates the file and then
writes it, so that a write that fails, or during which the process crashes, leaves any beginning of the
new bytes behind, or the file as it was (`WriteEnd`). `New` ignores an error of `load`: a file that is
missing or does not decode is no lockdown.

`Enter` writes when there is no lockdown, and `Unlock` when there is one. An `Unlock` that does not
return nil has already written over the active state (`lockdown_forgotten`); if it has not, the lockdown
survives (`lockdown_survives`).

The encoding of a state is a parameter (`Codec`).
-/

namespace ShiftLock.Lockdown

/-- `json.Marshal` and `json.Unmarshal` of a state; both can fail. -/
structure Codec where
  encode : State → Except String (List UInt8)
  decode : List UInt8 → Option State

/-- A state that was encoded is decoded to one that is active if it was. -/
structure Codec.Lawful (C : Codec) : Prop where
  active : ∀ s b, C.encode s = .ok b → (C.decode b).map State.active = some s.active

/-- How `os.WriteFile` ends. -/
inductive WriteEnd where
  | done
  /-- It returns an error, and the file is as it was. -/
  | refused (text : String)
  /-- It returns an error after `n` bytes. -/
  | failed (n : Nat) (text : String)
  /-- The process crashes before the file is truncated. -/
  | crashedBefore
  /-- The process crashes after `n` bytes. -/
  | crashed (n : Nat)
  deriving DecidableEq, Repr

/-- The file after a write of the bytes `b`. -/
def WriteEnd.file (file : Option (List UInt8)) (b : List UInt8) : WriteEnd → Option (List UInt8)
  | .done => some b
  | .refused _ => file
  | .failed n _ => some (b.take n)
  | .crashedBefore => file
  | .crashed n => some (b.take n)

/-- The error of a write; there is none if the process crashes. -/
def WriteEnd.result : WriteEnd → Option (Option String)
  | .done => some none
  | .refused text => some (some text)
  | .failed _ text => some (some text)
  | .crashedBefore => none
  | .crashed _ => none

/-- The write returns nil or leaves the file as it was. -/
def WriteEnd.atomic : WriteEnd → Bool
  | .failed _ _ => false
  | .crashed _ => false
  | _ => true

/-- The file and the manager of the process that runs now. -/
structure World where
  file : Option (List UInt8) := none
  manager : Manager
  deriving DecidableEq, Repr

section

variable (C : Codec)

/-- `load`, from the state of a new manager. -/
def load (file : Option (List UInt8)) : State := (file.bind C.decode).getD {}

/-- `New` with a durable path. -/
def new (autoEvery : Duration) (file : Option (List UInt8)) : World where
  file
  manager := { state := load C file, autoEvery }

/-- `persistLocked`: the file and the error, if the process has not crashed. -/
def persist (file : Option (List UInt8)) (s : State) (w : WriteEnd) :
    Option (List UInt8) × Option (Option String) :=
  match C.encode s with
  | .error text => (file, some (some text))
  | .ok b => (w.file file b, w.result)

/-- A call of `Enter` or `Unlock`, whose part in memory is `f`: it comes to its write exactly if it
would return nil without one. After a crash a new manager is created. -/
def World.call (w : World) (e : Env) (written : WriteEnd) (f : Env → Manager × Except Error State) :
    World × Option (Except Error State) :=
  let inMemory := f { e with persist := none }
  match inMemory.2 with
  | .error err => ({ w with manager := inMemory.1 }, some (.error err))
  | .ok _ =>
    let disk := persist C w.file inMemory.1.state written
    match disk.2 with
    | none => (new C w.manager.autoEvery disk.1, none)
    | some err =>
      ({ file := disk.1, manager := (f { e with persist := err }).1 },
        some (f { e with persist := err }).2)

/-- The calls on a manager, and a crash between two of them. -/
inductive Call where
  | enter (req : EnterRequest)
  /-- `now` is the first reading of the clock. -/
  | tryAutoEnter (now : Time) (trigger reason : String)
  | unlock (req : UnlockRequest)
  | restart
  deriving DecidableEq, Repr

/-- A call with the world that it sees. -/
structure Input where
  call : Call
  env : Env := {}
  written : WriteEnd := .done

/-- What a call returns. -/
inductive Reply where
  | entered (s : State)
  | unlocked (s : State)
  /-- `TryAutoEnter` comes too early. -/
  | skipped
  | failed (err : Error)
  | crashed
  deriving DecidableEq, Repr

/-- The reply of a call that returns a state. -/
def Reply.of (ok : State → Reply) : Option (Except Error State) → Reply
  | none => .crashed
  | some (.error err) => .failed err
  | some (.ok s) => ok s

def World.enter (w : World) (x : Input) (req : EnterRequest) : World × Reply :=
  let r := w.call C x.env x.written fun e => w.manager.enter e req
  (r.1, .of .entered r.2)

def World.serve (w : World) (x : Input) : World × Reply :=
  match x.call with
  | .enter req => w.enter C x req
  | .tryAutoEnter now trigger reason =>
    if w.manager.state.active then (w, .failed .active)
    else if (w.manager.tryAutoBegin now).2 then
      { w with manager := (w.manager.tryAutoBegin now).1 }.enter C x
        { mode := some .failClosed, reason, actorID := "system", trigger }
    else (w, .skipped)
  | .unlock req =>
    let r := w.call C x.env x.written fun e => w.manager.unlock e req
    (r.1, .of .unlocked r.2)
  | .restart => (new C w.manager.autoEvery w.file, .crashed)

/-- The world after the first `i` calls of a history. -/
abbrev worldAt (w : World) (xs : List Input) (i : Nat) : World :=
  Conc.Run.stateAt (fun w x => (World.serve C w x).1) w xs i

/-! ## A lockdown that is on disk -/

structure Locked (w : World) : Prop where
  memory : w.manager.state.active = true
  disk : (load C w.file).active = true

end

namespace Manager

variable {m : Manager} {e : Env}

theorem enter_active (h : m.state.active = true) (e : Env) (req : EnterRequest) :
    m.enter e req = (m, .error .active) := by
  rw [enter, if_pos h]

theorem enter_ok {req : EnterRequest} {s : State} (h : (m.enter e req).2 = .ok s) :
    e.persist = none ∧ (m.enter e req).1.state.active = true := by
  unfold enter at h ⊢
  split at h
  · cases h
  split at h
  · cases h
  rename_i hactive hreason
  simp only at h
  split at h
  · cases h
  · rename_i hpersist
    simp [hactive, hreason, hpersist]

/-- An `Unlock` that fails leaves the state in memory. -/
theorem unlock_error {req : UnlockRequest} {err : Error} (h : (m.unlock e req).2 = .error err) :
    (m.unlock e req).1.state = m.state := by
  unfold unlock at h ⊢
  split
  · rfl
  split
  · rfl
  split
  · rfl
  split
  · rfl
  rename_i h₁ h₂ h₃ h₄
  simp only [if_neg h₁, if_neg h₂, if_neg h₃, if_neg h₄] at h
  split at h
  · simp
  · cases h

end Manager

section

variable {C : Codec} {w : World} {x : Input} {file : Option (List UInt8)} {s : State}
  {written : WriteEnd}

theorem load_encoded (hC : C.Lawful) {b : List UInt8} (h : C.encode s = .ok b) :
    (load C (some b)).active = s.active := by
  obtain ⟨s', hs', hactive⟩ := Option.map_eq_some_iff.mp (hC.active s b h)
  simp [load, hs', hactive]

/-- A write that returns nil has put the state on disk. -/
theorem load_persist (hC : C.Lawful) (h : (persist C file s written).2 = some none) :
    (load C (persist C file s written).1).active = s.active := by
  unfold persist at h ⊢
  cases hencode : C.encode s with
  | error text =>
    rw [hencode] at h
    cases h
  | ok b =>
    rw [hencode] at h
    cases written with
    | done => exact load_encoded hC hencode
    | refused | failed | crashedBefore | crashed => cases h

theorem persist_atomic (hatomic : written.atomic = true)
    (h : (persist C file s written).2 ≠ some none) : (persist C file s written).1 = file := by
  unfold persist at h ⊢
  cases hencode : C.encode s with
  | error text => rfl
  | ok b =>
    rw [hencode] at h
    cases written with
    | done => exact absurd rfl h
    | refused | crashedBefore => rfl
    | failed | crashed => cases hatomic

/-- How a call ends: before its write, in a crash, or with the error of the write. -/
theorem World.call_cases (w : World) (e : Env) (written : WriteEnd)
    (f : Env → Manager × Except Error State) :
    (∃ err, (f { e with persist := none }).2 = .error err ∧
      w.call C e written f = ({ w with manager := (f { e with persist := none }).1 }, some (.error err))) ∨
    ∃ s disk, (f { e with persist := none }).2 = .ok s ∧
      disk = persist C w.file (f { e with persist := none }).1.state written ∧
      ((disk.2 = none ∧ w.call C e written f = (new C w.manager.autoEvery disk.1, none)) ∨
      ∃ err, disk.2 = some err ∧ w.call C e written f =
        ({ file := disk.1, manager := (f { e with persist := err }).1 },
          some (f { e with persist := err }).2)) := by
  unfold call
  simp only
  split
  · rename_i err hinMemory
    exact .inl ⟨err, hinMemory, rfl⟩
  · rename_i s hinMemory
    refine .inr ⟨s, _, hinMemory, rfl, ?_⟩
    split
    · rename_i hdisk
      exact .inl ⟨hdisk, rfl⟩
    · rename_i err hdisk
      exact .inr ⟨err, hdisk, rfl⟩

/-- `Enter` returned nil: the lockdown is active, in memory and on disk. -/
theorem World.enter_entered (hC : C.Lawful) {req : EnterRequest}
    (h : (w.enter C x req).2 = .entered s) : Locked C (w.enter C x req).1 := by
  unfold enter at h ⊢
  rcases w.call_cases x.env x.written fun e => w.manager.enter e req with
    ⟨err, _, hcall⟩ | ⟨_, disk, _, hdisk, ⟨_, hcall⟩ | ⟨err, hwritten, hcall⟩⟩ <;> rw [hcall] at h ⊢
  · cases h
  · cases h
  · cases hr : (w.manager.enter { x.env with persist := err } req).2 with
    | error err' =>
      simp only [hr] at h
      cases h
    | ok s' =>
      obtain ⟨rfl, hactive⟩ := Manager.enter_ok hr
      refine ⟨hactive, ?_⟩
      subst hdisk
      exact (load_persist hC hwritten).trans hactive

/-- An `Unlock` that does not return nil and whose write is atomic keeps the lockdown. -/
theorem Locked.unlock (h : Locked C w) (req : UnlockRequest) (hatomic : x.written.atomic = true)
    (hno : ∀ s, Reply.of .unlocked (w.call C x.env x.written fun e => w.manager.unlock e req).2 ≠
      .unlocked s) :
    Locked C (w.call C x.env x.written fun e => w.manager.unlock e req).1 := by
  rcases w.call_cases x.env x.written fun e => w.manager.unlock e req with
    ⟨err, herr, hcall⟩ | ⟨s, disk, hok, hdisk, ⟨hcrash, hcall⟩ | ⟨err, hwritten, hcall⟩⟩ <;>
    rw [hcall] at hno ⊢
  · exact ⟨(congrArg State.active (Manager.unlock_error herr)).trans h.memory, h.disk⟩
  · have hfile : disk.1 = w.file := by
      subst hdisk
      exact persist_atomic hatomic (by simp [hcrash])
    rw [hfile]
    exact ⟨h.disk, h.disk⟩
  · cases hr : (w.manager.unlock { x.env with persist := err } req).2 with
    | ok s =>
      simp only [hr] at hno
      exact absurd rfl (hno s)
    | error err' =>
      have hne : err ≠ none := by
        rintro rfl
        rw [hok] at hr
        cases hr
      have hfile : disk.1 = w.file := by
        subst hdisk
        exact persist_atomic hatomic (by simpa [hwritten] using hne)
      exact ⟨(congrArg State.active (Manager.unlock_error hr)).trans h.memory, hfile ▸ h.disk⟩

theorem Locked.serve (h : Locked C w) (hno : ∀ s, (w.serve C x).2 ≠ .unlocked s)
    (hatomic : ∀ req, x.call = .unlock req → x.written.atomic = true) : Locked C (w.serve C x).1 := by
  unfold World.serve at hno ⊢
  split
  · rename_i req hcall
    have herror := Manager.enter_active h.memory { x.env with persist := none } req
    unfold World.enter World.call
    simp only [herror]
    exact h
  · rw [if_pos h.memory]
    exact h
  · rename_i req hcall
    simp only [hcall] at hno
    exact h.unlock req (hatomic req hcall) hno
  · exact ⟨h.disk, h.disk⟩

/-- A call that starts a lockdown. -/
theorem World.serve_entered (hC : C.Lawful) (h : (w.serve C x).2 = .entered s) :
    Locked C (w.serve C x).1 := by
  unfold serve at h ⊢
  split
  · rename_i req hcall
    simp only [hcall] at h
    exact enter_entered hC h
  · rename_i now trigger reason hcall
    simp only [hcall] at h
    split
    · rename_i hactive
      rw [if_pos hactive] at h
      cases h
    rename_i hactive
    rw [if_neg hactive] at h
    split
    · rename_i hbegin
      rw [if_pos hbegin] at h
      exact enter_entered hC h
    · rename_i hbegin
      rw [if_neg hbegin] at h
      cases h
  · rename_i req hcall
    simp only [hcall] at h
    cases hr : (w.call C x.env x.written fun e => w.manager.unlock e req).2 with
    | none => simp [hr, Reply.of] at h
    | some r => cases r <;> simp [hr, Reply.of] at h
  · rename_i hcall
    simp only [hcall] at h
    cases h

end

/-- **A lockdown survives restarts** as long as no `Unlock` returns nil, if every `Unlock` that comes to
its write and does not return nil leaves the file as it was. -/
theorem lockdown_survives (C : Codec) (hC : C.Lawful) (w : World) (xs : List Input) (i k : Nat) (x : Input)
    (s : State) (hx : xs[i]? = some x) (henter : ((worldAt C w xs i).serve C x).2 = .entered s)
    (hik : i < k)
    (hlocked : ∀ j y s, i < j → j < k → xs[j]? = some y → ((worldAt C w xs j).serve C y).2 ≠ .unlocked s)
    (hatomic : ∀ j y req, i < j → j < k → xs[j]? = some y → y.call = .unlock req →
      y.written.atomic = true) (autoEvery : Duration) :
    (new C autoEvery (worldAt C w xs k).file).manager.state.active = true := by
  have hstart : Locked C (worldAt C w xs (i + 1)) := by
    rw [worldAt, Conc.Run.stateAt_succ hx]
    exact World.serve_entered hC henter
  have hlater : Locked C (worldAt C w xs k) :=
    Conc.Run.kept hstart hik fun j y hij hjk hy h =>
      h.serve (fun s => hlocked j y s hij hjk hy) fun req => hatomic j y req hij hjk hy
  exact hlater.disk

/-- The JSON text of a state, of which only `active` is kept. -/
def sampleText (active : Bool) : List UInt8 := Json.utf8 ("\x7b\"active\":" ++ toString active ++ "\x7d")

def sampleCodec : Codec where
  encode s := .ok (sampleText s.active)
  decode b :=
    if b = sampleText true then some { active := true } else if b = sampleText false then some {} else none

theorem sampleCodec_lawful : sampleCodec.Lawful where
  active s b h := by
    cases h
    cases s.active <;> decide +kernel

/-- A lockdown, and an `Unlock` whose write ends as given. -/
def sampleCalls (written : WriteEnd) : List Input :=
  [{ call := .enter { id := "l", reason := "r" } },
    { call := .unlock { expectedID := "l", confirm := true, strongAuthID := "s" }, written }]

/-- The file of the `Unlock` is read-only: the next manager is locked down. -/
theorem lockdown_survives_sample :
    let later := worldAt sampleCodec (new sampleCodec 0 none) (sampleCalls (.refused "read-only")) 2
    (new sampleCodec 0 later.file).manager.state.active = true := by
  refine lockdown_survives sampleCodec sampleCodec_lawful (new sampleCodec 0 none)
    (sampleCalls (.refused "read-only")) 0 2 _ _ rfl rfl (by decide) (fun j y s hj hj' hy => ?_)
    (fun j y req hj hj' hy _ => ?_) 0
  · obtain rfl : j = 1 := by omega
    obtain rfl := Option.some.inj hy
    intro h
    cases h
  · obtain rfl : j = 1 := by omega
    obtain rfl := Option.some.inj hy
    rfl

/-- The write of an `Unlock` fails after the file was truncated, or the process crashes when the bytes
are written: the next manager knows of no lockdown. -/
theorem lockdown_forgotten :
    let start := new sampleCodec 0 none
    let full := sampleCalls (.failed 0 "no space left")
    let crash := sampleCalls (.crashed 1)
    (∃ s, (start.serve sampleCodec full[0]).2 = .entered s) ∧
    ((worldAt sampleCodec start full 1).serve sampleCodec full[1]).2 = .failed (.persist "no space left") ∧
    (new sampleCodec 0 (worldAt sampleCodec start full 2).file).manager.state.active = false ∧
    ((worldAt sampleCodec start crash 1).serve sampleCodec crash[1]).2 = .crashed ∧
    (new sampleCodec 0 (worldAt sampleCodec start crash 2).file).manager.state.active = false :=
  ⟨⟨_, rfl⟩, by decide⟩

end ShiftLock.Lockdown
